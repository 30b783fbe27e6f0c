import Mathlib.Logic.Basic

/-! A `Prog σ ε α` runs on a state `σ` and ends in a value or in an error. -/
namespace Stoa

abbrev Prog (σ ε α : Type) := ExceptT ε (StateM σ) α

namespace Prog

variable {σ ε ε' α β : Type}

/-- The outcome of a run: the value or error, and the state it ends in. -/
def exec (x : Prog σ ε α) (s : σ) : Except ε α × σ := (ExceptT.run x).run s

/-- Run `x` and hand its outcome, error or not, to the caller as a value. -/
def attempt (x : Prog σ ε α) : Prog σ ε' (Except ε α) :=
  ExceptT.mk (do return .ok (← ExceptT.run x))

def ofExec (f : σ → Except ε α × σ) : Prog σ ε α := ExceptT.mk (StateT.mk f)

def reads (f : σ → α) : Prog σ ε α := ofExec fun s => (.ok (f s), s)

def ofExcept (x : Except ε α) : Prog σ ε α := ofExec fun s => (x, s)

/-- Convert the errors of `x`. -/
def mapError (f : ε → ε') (x : Prog σ ε α) : Prog σ ε' α :=
  ofExec fun s => match x.exec s with
    | (.ok a, s') => (.ok a, s')
    | (.error e, s') => (.error (f e), s')

/-- Run `x` on states that satisfy an invariant it keeps. -/
def restrict {P : σ → Prop} (x : Prog σ ε α) (keeps : ∀ s, P s → P (x.exec s).2) :
    Prog { s // P s } ε α :=
  ofExec fun s => ((x.exec s.1).1, ⟨(x.exec s.1).2, keeps s.1 s.2⟩)

/-- Run `x` on a part of the state. -/
def zoom {τ : Type} (get : τ → σ) (set : σ → τ → τ) (x : Prog σ ε α) : Prog τ ε α :=
  ofExec fun t => ((x.exec (get t)).1, set (x.exec (get t)).2 t)

@[simp] theorem exec_zoom {τ : Type} (get : τ → σ) (set : σ → τ → τ) (x : Prog σ ε α) (t : τ) :
    (zoom get set x).exec t = ((x.exec (get t)).1, set (x.exec (get t)).2 t) := rfl

@[simp] theorem exec_ofExec (f : σ → Except ε α × σ) (s : σ) : (ofExec f).exec s = f s := rfl

@[simp] theorem exec_ofExcept (x : Except ε α) (s : σ) : (ofExcept x : Prog σ ε α).exec s = (x, s) := rfl

@[simp] theorem exec_reads (f : σ → α) (s : σ) : (reads f : Prog σ ε α).exec s = (.ok (f s), s) := rfl

@[simp] theorem exec_pure (a : α) (s : σ) : (pure a : Prog σ ε α).exec s = (.ok a, s) := rfl

@[simp] theorem exec_throw (e : ε) (s : σ) : (throw e : Prog σ ε α).exec s = (.error e, s) := rfl

@[simp] theorem exec_attempt (x : Prog σ ε α) (s : σ) :
    (attempt x : Prog σ ε' _).exec s = (.ok (x.exec s).1, (x.exec s).2) := rfl

theorem exec_bind (x : Prog σ ε α) (f : α → Prog σ ε β) (s : σ) :
    (x >>= f).exec s = match x.exec s with
      | (.ok a, s') => (f a).exec s'
      | (.error e, s') => (.error e, s') := by
  unfold exec
  simp only [ExceptT.run_bind, StateT.run_bind]
  rcases (ExceptT.run x).run s with ⟨r | r, s'⟩ <;> rfl

variable {x : Prog σ ε α} {s : σ}

theorem exec_bind_ok {s' : σ} {a : α} (f : α → Prog σ ε β)
    (h : x.exec s = (.ok a, s')) : (x >>= f).exec s = (f a).exec s' := by
  rw [exec_bind, h]

theorem exec_bind_error {s' : σ} {e : ε} (f : α → Prog σ ε β)
    (h : x.exec s = (.error e, s')) : (x >>= f).exec s = (.error e, s') := by
  rw [exec_bind, h]

theorem exec_mapError (f : ε → ε') (x : Prog σ ε α) (s : σ) :
    (mapError f x).exec s = match x.exec s with
      | (.ok a, s') => (.ok a, s')
      | (.error e, s') => (.error (f e), s') := rfl

theorem exec_mapError_ok {s' : σ} {a : α} (f : ε → ε')
    (h : x.exec s = (.ok a, s')) : (mapError f x).exec s = (.ok a, s') := by
  rw [exec_mapError, h]

theorem of_exec_bind_ok {f : α → Prog σ ε β} {s' : σ} {b : β} (h : (x >>= f).exec s = (.ok b, s')) :
    ∃ a mid, x.exec s = (.ok a, mid) ∧ (f a).exec mid = (.ok b, s') := by
  rw [exec_bind] at h
  rcases run : x.exec s with ⟨e | a, mid⟩
  · rw [run] at h
    cases h
  · rw [run] at h
    exact ⟨a, mid, rfl, h⟩

theorem of_exec_mapError_ok {f : ε → ε'} {s' : σ} {a : α}
    (h : (mapError f x).exec s = (.ok a, s')) : x.exec s = (.ok a, s') := by
  rw [exec_mapError] at h
  rcases run : x.exec s with ⟨e | b, mid⟩
  · rw [run] at h
    cases h
  · rw [run] at h
    cases h
    rfl

theorem of_exec_zoom {τ : Type} {get : τ → σ} {set : σ → τ → τ} {t t' : τ}
    {r : Except ε α} (h : (zoom get set x).exec t = (r, t')) :
    ∃ s', x.exec (get t) = (r, s') ∧ t' = set s' t := by
  rw [exec_zoom] at h
  cases h
  exact ⟨_, rfl, rfl⟩

/-- Every error that `x` ends in satisfies `P`. -/
def ErrorsIn (P : ε → Prop) (x : Prog σ ε α) : Prop :=
  ∀ s e s', x.exec s = (.error e, s') → P e

section Errors

variable {P : ε → Prop}

theorem errorsIn_pure (a : α) : ErrorsIn P (pure a : Prog σ ε α) := by
  intro s e s' run
  cases run

theorem errorsIn_throw {e : ε} (h : P e) : ErrorsIn P (throw e : Prog σ ε α) := by
  intro s e s' run
  cases run
  exact h

theorem errorsIn_ofExcept {x : Except ε α} (h : ∀ e, x = .error e → P e) :
    ErrorsIn P (ofExcept x : Prog σ ε α) := by
  intro s e s' run
  exact h e (congrArg Prod.fst run)

theorem ErrorsIn.bind {x : Prog σ ε α} {f : α → Prog σ ε β} (first : ErrorsIn P x)
    (next : ∀ a, ErrorsIn P (f a)) : ErrorsIn P (x >>= f) := by
  intro s e s' run
  rw [exec_bind] at run
  rcases outcome : x.exec s with ⟨e' | a, mid⟩
  · rw [outcome] at run
    cases run
    exact first s _ _ outcome
  · rw [outcome] at run
    exact next a mid e s' run

theorem errorsIn_mapError {f : ε' → ε} (h : ∀ e, P (f e)) (x : Prog σ ε' α) :
    ErrorsIn P (mapError f x) := by
  intro s e s' run
  rw [exec_mapError] at run
  rcases outcome : x.exec s with ⟨e' | a, mid⟩
  · rw [outcome] at run
    cases run
    exact h e'
  · rw [outcome] at run
    cases run

theorem ErrorsIn.zoom {τ : Type} {get : τ → σ} {set : σ → τ → τ} {x : Prog σ ε α}
    (h : ErrorsIn P x) : ErrorsIn P (zoom get set x) := by
  intro t e t' run
  obtain ⟨s', inner, -⟩ := of_exec_zoom run
  exact h _ e s' inner

end Errors

/-- `Q` holds of the outcome of running `x` from `s`. -/
def Satisfies (x : Prog σ ε α) (s : σ) (Q : Except ε α → σ → Prop) : Prop :=
  Q (x.exec s).1 (x.exec s).2

theorem Satisfies.of_exec {s' : σ} {r : Except ε α}
    {Q : Except ε α → σ → Prop} (h : Satisfies x s Q) (run : x.exec s = (r, s')) : Q r s' := by
  unfold Satisfies at h
  rwa [run] at h

theorem satisfies_pure {a : α} {Q : Except ε α → σ → Prop} (h : Q (.ok a) s) : Satisfies (pure a) s Q := h

theorem satisfies_throw {e : ε} {Q : Except ε α → σ → Prop} (h : Q (.error e) s) :
    Satisfies (throw e) s Q := h

theorem Satisfies.imp {Q R : Except ε α → σ → Prop}
    (h : Satisfies x s R) (weaker : ∀ r s', R r s' → Q r s') : Satisfies x s Q :=
  weaker _ _ h

theorem Satisfies.and {Q R : Except ε α → σ → Prop}
    (first : Satisfies x s Q) (second : Satisfies x s R) : Satisfies x s fun r s' => Q r s' ∧ R r s' :=
  ⟨first, second⟩

theorem satisfies_bind {f : α → Prog σ ε β}
    {R : Except ε α → σ → Prop} {Q : Except ε β → σ → Prop} (first : Satisfies x s R)
    (next : ∀ a s', R (.ok a) s' → Satisfies (f a) s' Q)
    (failed : ∀ e s', R (.error e) s' → Q (.error e) s') : Satisfies (x >>= f) s Q := by
  unfold Satisfies at first ⊢
  rw [exec_bind]
  rcases hx : x.exec s with ⟨e | a, s'⟩
  · rw [hx] at first
    exact failed e s' first
  · rw [hx] at first
    exact next a s' first

theorem satisfies_mapError {f : ε → ε'}
    {R : Except ε α → σ → Prop} {Q : Except ε' α → σ → Prop} (inner : Satisfies x s R)
    (returned : ∀ a s', R (.ok a) s' → Q (.ok a) s')
    (failed : ∀ e s', R (.error e) s' → Q (.error (f e)) s') : Satisfies (mapError f x) s Q := by
  unfold Satisfies at inner ⊢
  rw [exec_mapError]
  rcases hx : x.exec s with ⟨e | a, s'⟩
  · rw [hx] at inner
    exact failed e s' inner
  · rw [hx] at inner
    exact returned a s' inner

theorem satisfies_mapError_state {f : ε → ε'} {Q : σ → Prop}
    (inner : Satisfies x s fun _ => Q) : Satisfies (mapError f x) s fun _ => Q :=
  satisfies_mapError inner (fun _ _ h => h) fun _ _ h => h

theorem satisfies_zoom {τ : Type} {get : τ → σ} {set : σ → τ → τ} {t : τ}
    {R : Except ε α → σ → Prop} {Q : Except ε α → τ → Prop} (inner : Satisfies x (get t) R)
    (outer : ∀ r s', R r s' → Q r (set s' t)) : Satisfies (zoom get set x) t Q :=
  outer _ _ inner

theorem satisfies_restrict {P : σ → Prop} {keeps : ∀ s, P s → P (x.exec s).2}
    {s : { s // P s }} {Q : Except ε α → { s // P s } → Prop}
    (outcome : ∀ r s' (kept : P s'), x.exec s.1 = (r, s') → Q r ⟨s', kept⟩) :
    Satisfies (x.restrict keeps) s Q :=
  outcome _ _ _ rfl

theorem satisfies_bind_attempt {f : Except ε α → Prog σ ε' β}
    {R : Except ε α → σ → Prop} {Q : Except ε' β → σ → Prop} (inner : Satisfies x s R)
    (next : ∀ r s', R r s' → Satisfies (f r) s' Q) : Satisfies (attempt x >>= f) s Q := by
  unfold Satisfies at inner ⊢
  rw [exec_bind, exec_attempt]
  exact next _ _ inner

end Prog

end Stoa
