import Mathlib.Logic.Basic

/-! A check refuses or passes. A sequence of checks passes when each of them does, and the first
refusal is its error. -/
namespace Stoa

variable {α ε ε' : Type}

def refuseIf (bad : Prop) [Decidable bad] (e : ε) : Except ε Unit :=
  if bad then .error e else .ok ()

@[simp] theorem refuseIf_eq_ok {bad : Prop} [Decidable bad] {e : ε} : refuseIf bad e = .ok () ↔ ¬bad := by
  unfold refuseIf
  split
  · rename_i refused
    exact iff_of_false nofun (not_not.mpr refused)
  · rename_i passed
    exact iff_of_true rfl passed

@[simp] theorem andThen_eq_ok {x : Except ε Unit} {f : Unit → Except ε Unit} :
    (x >>= f) = .ok () ↔ x = .ok () ∧ f () = .ok () := by
  rcases x with e | ⟨⟩
  · exact iff_of_false nofun fun h => nomatch h.1
  · exact (and_iff_right rfl).symm

@[simp] theorem forM_eq_ok {check : α → Except ε Unit} {l : List α} :
    l.forM check = .ok () ↔ ∀ a ∈ l, check a = .ok () := by
  induction l with
  | nil => exact iff_of_true rfl nofun
  | cons a rest ih =>
    have step : (a :: rest).forM check = (check a >>= fun _ => rest.forM check) := rfl
    rw [step, andThen_eq_ok, ih, List.forall_mem_cons]

/-- `Option::ok_or`. -/
def okOr (x : Option α) (e : ε) : Except ε α :=
  match x with
  | some a => .ok a
  | none => .error e

@[simp] theorem okOr_eq_ok {x : Option α} {e : ε} {a : α} : okOr x e = .ok a ↔ x = some a := by
  cases x <;> simp [okOr]

theorem mapM_eq_ok {β : Type} {f : α → Except ε β} {l : List α} {results : List β} :
    l.mapM f = .ok results ↔ l.map f = results.map .ok := by
  induction l generalizing results with
  | nil => cases results <;> simp [pure, Except.pure]
  | cons a rest ih =>
    rw [List.mapM_cons]
    rcases first : f a with e | b
    · cases results <;> simp [first, bind, Except.bind]
    · rcases later : rest.mapM f with e | bs
      · cases results with
        | nil => simp [bind, Except.bind]
        | cons c cs =>
          have := (@ih cs).mpr
          simp_all [bind, Except.bind]
      · have := ih.mp later
        cases results <;> simp_all [bind, Except.bind, pure, Except.pure, eq_comm]

/-- Every error of `x` satisfies `P`. -/
def RefusesIn (P : ε → Prop) (x : Except ε α) : Prop := ∀ e, x = .error e → P e

section Refuses

variable {β : Type} {P : ε → Prop}

theorem refusesIn_ok (a : α) : RefusesIn P (.ok a : Except ε α) := nofun

theorem refusesIn_error {e : ε} (h : P e) : RefusesIn P (.error e : Except ε α) := by
  rintro _ ⟨⟩
  exact h

theorem refusesIn_refuseIf {bad : Prop} [Decidable bad] {e : ε} (h : P e) :
    RefusesIn P (refuseIf bad e) := by
  unfold refuseIf
  split
  · exact refusesIn_error h
  · exact refusesIn_ok ()

theorem RefusesIn.bind {x : Except ε α} {f : α → Except ε β} (first : RefusesIn P x)
    (next : ∀ a, RefusesIn P (f a)) : RefusesIn P (x >>= f) := by
  cases x with
  | error e =>
    rintro _ ⟨⟩
    exact first e rfl
  | ok a => exact next a

theorem refusesIn_mapError {f : ε' → ε} (h : ∀ e, P (f e)) (x : Except ε' α) :
    RefusesIn P (x.mapError f) := by
  cases x with
  | error e => exact refusesIn_error (h e)
  | ok a => exact refusesIn_ok a

theorem refusesIn_forM {check : α → Except ε Unit} (h : ∀ a, RefusesIn P (check a)) (l : List α) :
    RefusesIn P (l.forM check) := by
  induction l with
  | nil => exact refusesIn_ok ()
  | cons a rest ih => exact (h a).bind fun _ => ih

theorem refusesIn_mapM {f : α → Except ε β} (h : ∀ a, RefusesIn P (f a)) (l : List α) :
    RefusesIn P (l.mapM f) := by
  induction l with
  | nil => exact refusesIn_ok []
  | cons a rest ih =>
    rw [List.mapM_cons]
    exact (h a).bind fun b => ih.bind fun bs => refusesIn_ok (b :: bs)

end Refuses

theorem bind_eq_ok {β : Type} {x : Except ε α} {f : α → Except ε β} {b : β}
    (h : (x >>= f) = .ok b) : ∃ a, x = .ok a ∧ f a = .ok b := by
  cases x with
  | error e => cases h
  | ok a => exact ⟨a, rfl, h⟩

theorem bind_eq_ok_iff {β : Type} {x : Except ε α} {f : α → Except ε β} {b : β} :
    (x >>= f) = .ok b ↔ ∃ a, x = .ok a ∧ f a = .ok b := by
  constructor
  · exact bind_eq_ok
  · rintro ⟨a, rfl, rest⟩
    exact rest

@[simp] theorem mapError_eq_ok {x : Except ε α} {f : ε → ε'} {a : α} :
    x.mapError f = .ok a ↔ x = .ok a := by
  cases x with
  | error e => exact iff_of_false nofun nofun
  | ok b => exact ⟨fun h => Except.ok.inj h ▸ rfl, fun h => Except.ok.inj h ▸ rfl⟩

end Stoa
