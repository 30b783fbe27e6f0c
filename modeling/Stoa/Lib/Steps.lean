import Mathlib.Data.Multiset.AddSub
import Mathlib.Data.Multiset.UnionInter
import Stoa.Lib.Prog

/-!
* `Threads.exclusive`: if a program emits and succeeds only after a step that makes it the
  owner of something that cannot have two owners and is never taken away, then at most one
  program succeeds, and all that was emitted fits into the budget of that one.
-/
namespace Stoa

open List
/-- A program that has ended, or is about to take a step and goes on with what it saw. -/
inductive Steps (σ α : Type)
  | done (a : α)
  | step (effect : σ → σ) (next : σ → Steps σ α)

namespace Steps

variable {σ τ α β γ ε ε' : Type}

protected def bind : Steps σ α → (α → Steps σ β) → Steps σ β
  | done a, f => f a
  | step effect next, f => step effect fun s => (next s).bind f

instance : Monad (Steps σ) where
  pure := done
  bind := Steps.bind

def run : Steps σ α → σ → α × σ
  | done a, s => (a, s)
  | step effect next, s => (next s).run (effect s)

def next : Steps σ α → σ → Steps σ α × σ
  | done a, s => (done a, s)
  | step effect next, s => (next s, effect s)

@[simp] theorem run_pure (a : α) (s : σ) : (pure a : Steps σ α).run s = (a, s) := rfl

@[simp] theorem run_bind (x : Steps σ α) (f : α → Steps σ β) (s : σ) :
    (x >>= f).run s = (f (x.run s).1).run (x.run s).2 := by
  induction x generalizing s with
  | done a => rfl
  | step effect next ih => exact ih s (effect s)

theorem bind_pure' (x : Steps σ α) : x >>= pure = x := by
  induction x with
  | done a => rfl
  | step effect next ih => exact congrArg (step effect) (funext ih)

instance : LawfulMonad (Steps σ) := LawfulMonad.mk' _ bind_pure' (fun _ _ => rfl) fun x f g => by
  induction x with
  | done a => rfl
  | step effect next ih => exact congrArg (step effect) (funext ih)

def zoom (get : τ → σ) (set : σ → τ → τ) : Steps σ α → Steps τ α
  | done a => done a
  | step effect next => step (fun t => set (effect (get t)) t) fun t => zoom get set (next (get t))

/-- `set` replaces what `get` sees, and nothing else. -/
structure Lens (get : τ → σ) (set : σ → τ → τ) : Prop where
  get_set : ∀ s t, get (set s t) = s
  set_get : ∀ t, set (get t) t = t
  set_set : ∀ s s' t, set s' (set s t) = set s' t

theorem run_zoom {get : τ → σ} {set : σ → τ → τ} (lens : Lens get set) (x : Steps σ α) (t : τ) :
    (zoom get set x).run t = ((x.run (get t)).1, set (x.run (get t)).2 t) := by
  induction x generalizing t with
  | done a => exact Prod.ext rfl (lens.set_get t).symm
  | step effect next ih =>
    simp only [zoom, run]
    rw [ih (get t) (set (effect (get t)) t), lens.get_set, lens.set_set]

end Steps

/-- A program over a shared state that ends in a value or in an error. -/
abbrev Stepwise (σ ε α : Type) := ExceptT ε (Steps σ) α

namespace Stepwise

variable {σ τ α β ε ε' : Type}

def atom (x : Prog σ ε α) : Stepwise σ ε α :=
  ExceptT.mk (.step (fun s => (x.exec s).2) fun s => .done (x.exec s).1)

def ofExcept (x : Except ε α) : Stepwise σ ε α := ExceptT.mk (.done x)

def mapError (f : ε → ε') (x : Stepwise σ ε α) : Stepwise σ ε' α :=
  ExceptT.mk (ExceptT.run x >>= fun r => pure (r.mapError f))

def zoom (get : τ → σ) (set : σ → τ → τ) (x : Stepwise σ ε α) : Stepwise τ ε α :=
  ExceptT.mk (Steps.zoom get set (ExceptT.run x))

def exec (x : Stepwise σ ε α) (s : σ) : Except ε α × σ := (ExceptT.run x).run s

@[simp] theorem exec_atom (x : Prog σ ε α) (s : σ) : (atom x).exec s = x.exec s := rfl

@[simp] theorem exec_ofExcept (x : Except ε α) (s : σ) : (ofExcept x).exec s = (x, s) := rfl

@[simp] theorem exec_pure (a : α) (s : σ) : (pure a : Stepwise σ ε α).exec s = (.ok a, s) := rfl

@[simp] theorem exec_throw (e : ε) (s : σ) : (throw e : Stepwise σ ε α).exec s = (.error e, s) := rfl

theorem exec_bind (x : Stepwise σ ε α) (f : α → Stepwise σ ε β) (s : σ) :
    (x >>= f).exec s = match x.exec s with
      | (.ok a, s') => (f a).exec s'
      | (.error e, s') => (.error e, s') := by
  have run : (x >>= f).exec s = (ExceptT.bindCont f (x.exec s).1).run (x.exec s).2 :=
    Steps.run_bind _ _ s
  rw [run]
  rcases x.exec s with ⟨e | a, s'⟩ <;> rfl

theorem exec_mapError (f : ε → ε') (x : Stepwise σ ε α) (s : σ) :
    (mapError f x).exec s = match x.exec s with
      | (.ok a, s') => (.ok a, s')
      | (.error e, s') => (.error (f e), s') := by
  have run : (mapError f x).exec s = (((x.exec s).1).mapError f, (x.exec s).2) :=
    Steps.run_bind _ _ s
  rw [run]
  rcases x.exec s with ⟨e | a, s'⟩ <;> rfl

theorem exec_zoom {get : τ → σ} {set : σ → τ → τ} (lens : Steps.Lens get set) (x : Stepwise σ ε α) (t : τ) :
    (zoom get set x).exec t = ((x.exec (get t)).1, set (x.exec (get t)).2 t) :=
  Steps.run_zoom lens _ t

/-- `x` is `p` cut into steps. -/
def Refines (x : Stepwise σ ε α) (p : Prog σ ε α) : Prop := ∀ s, x.exec s = p.exec s

theorem refines_atom (p : Prog σ ε α) : Refines (atom p) p := fun _ => rfl

theorem refines_ofExcept (r : Except ε α) : Refines (σ := σ) (ofExcept r) (Prog.ofExcept r) := fun _ => rfl

theorem refines_pure (a : α) : Refines (pure a : Stepwise σ ε α) (pure a) := fun _ => rfl

theorem refines_throw (e : ε) : Refines (throw e : Stepwise σ ε α) (throw e) := fun _ => rfl

theorem Refines.bind {x : Stepwise σ ε α} {p : Prog σ ε α} {f : α → Stepwise σ ε β}
    {q : α → Prog σ ε β} (first : Refines x p) (later : ∀ a, Refines (f a) (q a)) :
    Refines (x >>= f) (p >>= q) := by
  intro s
  rw [exec_bind, Prog.exec_bind, first s]
  rcases p.exec s with ⟨e | a, s'⟩
  · rfl
  · exact later a s'

theorem Refines.mapError {x : Stepwise σ ε α} {p : Prog σ ε α} (f : ε → ε') (h : Refines x p) :
    Refines (mapError f x) (p.mapError f) := by
  intro s
  rw [exec_mapError, Prog.exec_mapError, h s]
  rcases p.exec s with ⟨e | a, s'⟩ <;> rfl

theorem Refines.zoom {get : τ → σ} {set : σ → τ → τ} (lens : Steps.Lens get set)
    {x : Stepwise σ ε α} {p : Prog σ ε α} (h : Refines x p) :
    Refines (zoom get set x) (p.zoom get set) := by
  intro t
  rw [exec_zoom lens, Prog.exec_zoom, h (get t)]

end Stepwise

namespace Steps

variable {σ τ α β γ ε ε' : Type}

/-- Every step keeps to `kept`, wherever it starts. -/
def Always (kept : σ → σ → Prop) : Steps σ α → Prop
  | done _ => True
  | step effect next => ∀ s, kept s (effect s) ∧ Always kept (next s)

/-- Every result is as `P` says. -/
def Ends (P : α → Prop) : Steps σ α → Prop
  | done a => P a
  | step _ next => ∀ s, Ends P (next s)

/-- Each step adds nothing to what is seen, or one item of the budget, which is used up. -/
def Emits [DecidableEq γ] (seen : σ → List γ) : Steps σ α → Multiset γ → Prop
  | done _, _ => True
  | step effect next, budget => ∀ s,
    (seen (effect s) = seen s ∧ Emits seen (next s) budget) ∨
      ∃ g ∈ budget, seen (effect s) = seen s ++ [g] ∧ Emits seen (next s) (budget.erase g)

/-- Nothing is seen, and no result but a failure, up to a step that makes `owns` true; from
there on the budget may be used. -/
def Guarded [DecidableEq γ] (seen : σ → List γ) (owns : σ → Prop) (budget : Multiset γ)
    (fails : α → Prop) : Steps σ α → Prop
  | done a => fails a
  | step effect next => ∀ s, seen (effect s) = seen s ∧
    (Guarded seen owns budget fails (next s) ∨ owns (effect s) ∧ Emits seen (next s) budget)

theorem Always.bind {kept : σ → σ → Prop} {x : Steps σ α} {f : α → Steps σ β}
    (first : x.Always kept) (later : ∀ a, (f a).Always kept) : (x >>= f).Always kept := by
  induction x with
  | done a => exact later a
  | step effect next ih => exact fun s => ⟨(first s).1, ih s (first s).2⟩

theorem Ends.bind {P : α → Prop} {Q : β → Prop} {x : Steps σ α} {f : α → Steps σ β}
    (first : x.Ends P) (later : ∀ a, P a → (f a).Ends Q) : (x >>= f).Ends Q := by
  induction x with
  | done a => exact later a first
  | step effect next ih => exact fun s => ih s (first s)

/-- A program on a part of the state that `kept` does not look at. -/
theorem always_zoom {kept : τ → τ → Prop} {get : τ → σ} {set : σ → τ → τ}
    (unseen : ∀ s t, kept t (set s t)) (x : Steps σ α) : (x.zoom get set).Always kept := by
  induction x with
  | done a => trivial
  | step effect next ih => exact fun t => ⟨unseen _ t, ih (get t)⟩

theorem Ends.zoom {P : α → Prop} {get : τ → σ} {set : σ → τ → τ} {x : Steps σ α} (h : x.Ends P) :
    (x.zoom get set).Ends P := by
  induction x with
  | done a => exact h
  | step effect next ih => exact fun t => ih (get t) (h (get t))

section Seen

variable [DecidableEq γ] {seen : σ → List γ}

theorem Emits.mono {x : Steps σ α} {budget budget' : Multiset γ} (h : x.Emits seen budget)
    (le : budget ≤ budget') : x.Emits seen budget' := by
  induction x generalizing budget budget' with
  | done a => trivial
  | step effect next ih =>
    intro s
    rcases h s with ⟨same, rest⟩ | ⟨g, member, added, rest⟩
    · exact .inl ⟨same, ih s rest le⟩
    · exact .inr ⟨g, Multiset.mem_of_le le member, added, ih s rest (Multiset.erase_le_erase g le)⟩

theorem Emits.bind {x : Steps σ α} {f : α → Steps σ β} {budget budget' : Multiset γ}
    (first : x.Emits seen budget) (later : ∀ a, (f a).Emits seen budget') :
    (x >>= f).Emits seen (budget + budget') := by
  induction x generalizing budget with
  | done a => exact (later a).mono (Multiset.le_add_left budget' budget)
  | step effect next ih =>
    intro s
    rcases first s with ⟨same, rest⟩ | ⟨g, member, added, rest⟩
    · exact .inl ⟨same, ih s rest⟩
    · refine .inr ⟨g, Multiset.mem_add.mpr (.inl member), added, ?_⟩
      rw [Multiset.erase_add_left_pos budget' member]
      exact ih s rest

theorem Emits.zoom {get : τ → σ} {set : σ → τ → τ} (get_set : ∀ s t, get (set s t) = s)
    {x : Steps σ α} {budget : Multiset γ} (h : x.Emits seen budget) :
    (x.zoom get set).Emits (fun t => seen (get t)) budget := by
  induction x generalizing budget with
  | done a => trivial
  | step effect next ih =>
    intro t
    simp only [get_set]
    exact (h (get t)).imp (.imp_right fun rest => ih _ rest)
      fun ⟨g, member, added, rest⟩ => ⟨g, member, added, ih _ rest⟩

/-- A program on a part of the state that is not seen. -/
theorem emits_zoom {seen : τ → List γ} {get : τ → σ} {set : σ → τ → τ}
    (unseen : ∀ s t, seen (set s t) = seen t) (x : Steps σ α) : (x.zoom get set).Emits seen 0 := by
  induction x with
  | done a => trivial
  | step effect next ih => exact fun t => .inl ⟨unseen _ t, ih (get t)⟩

/-- Before ownership, a program that emits nothing may run first. -/
theorem Guarded.bind {owns : σ → Prop} {budget : Multiset γ} {fails : β → Prop} {P : α → Prop}
    {x : Steps σ α} {f : α → Steps σ β} (silent : x.Emits seen 0) (ends : x.Ends P)
    (later : ∀ a, P a → (f a).Guarded seen owns budget fails) :
    (x >>= f).Guarded seen owns budget fails := by
  induction x with
  | done a => exact later a ends
  | step effect next ih =>
    intro s
    rcases silent s with ⟨same, rest⟩ | ⟨g, member, -⟩
    · exact ⟨same, .inl (ih s rest (ends s))⟩
    · exact absurd member (Multiset.notMem_zero g)

end Seen

end Steps

namespace Stepwise

variable {σ τ α β γ ε ε' : Type}

section Always

variable {kept : σ → σ → Prop}

theorem always_atom {x : Prog σ ε α} (keeps : ∀ s, kept s (x.exec s).2) :
    (ExceptT.run (atom x)).Always kept := fun s => ⟨keeps s, trivial⟩

theorem always_bind {x : Stepwise σ ε α} {f : α → Stepwise σ ε β}
    (first : (ExceptT.run x).Always kept) (later : ∀ a, (ExceptT.run (f a)).Always kept) :
    (ExceptT.run (x >>= f)).Always kept := by
  refine Steps.Always.bind first fun r => ?_
  cases r with
  | ok a => exact later a
  | error e => trivial

end Always

section Emits

variable [DecidableEq γ] {seen : σ → List γ} {budget budget' : Multiset γ}

theorem emits_atom {x : Prog σ ε α} (silent : ∀ s, seen (x.exec s).2 = seen s) :
    (ExceptT.run (atom x)).Emits seen 0 := fun s => .inl ⟨silent s, trivial⟩

theorem emits_atom_one {x : Prog σ ε α} {g : γ}
    (one : ∀ s, seen (x.exec s).2 = seen s ∨ seen (x.exec s).2 = seen s ++ [g]) :
    (ExceptT.run (atom x)).Emits seen {g} := by
  intro s
  rcases one s with same | added
  · exact .inl ⟨same, trivial⟩
  · exact .inr ⟨g, Multiset.mem_singleton_self g, added, trivial⟩

variable {x : Stepwise σ ε α} {f : α → Stepwise σ ε β}

theorem emits_bind (first : (ExceptT.run x).Emits seen budget)
    (later : ∀ a, (ExceptT.run (f a)).Emits seen budget') :
    (ExceptT.run (x >>= f)).Emits seen (budget + budget') := by
  refine Steps.Emits.bind first fun r => ?_
  cases r with
  | ok a => exact later a
  | error e => trivial

theorem emits_bind_silent
    (first : (ExceptT.run x).Emits seen 0) (later : ∀ a, (ExceptT.run (f a)).Emits seen budget) :
    (ExceptT.run (x >>= f)).Emits seen budget := Multiset.zero_add budget ▸ emits_bind first later

theorem emits_bind_last
    (first : (ExceptT.run x).Emits seen budget) (later : ∀ a, (ExceptT.run (f a)).Emits seen 0) :
    (ExceptT.run (x >>= f)).Emits seen budget := Multiset.add_zero budget ▸ emits_bind first later

theorem emits_mapError (f : ε → ε') (h : (ExceptT.run x).Emits seen budget) :
    (ExceptT.run (mapError f x)).Emits seen budget :=
  Multiset.add_zero budget ▸ Steps.Emits.bind h fun _ => trivial

/-- Nothing is emitted, and errors are as `P` says. -/
structure Silent (seen : σ → List γ) (P : ε → Prop) (x : Stepwise σ ε α) : Prop where
  emits : (ExceptT.run x).Emits seen 0
  errors : (ExceptT.run x).Ends fun r => ∀ e, r = .error e → P e

variable {P : ε → Prop}

theorem silent_atom {x : Prog σ ε α} (unseen : ∀ s, seen (x.exec s).2 = seen s)
    (errors : Prog.ErrorsIn P x) : Silent seen P (atom x) :=
  ⟨emits_atom unseen, fun s e failed => errors s e _ (Prod.ext failed rfl)⟩

/-- Errors that are converted, in a part of the state that is not seen. -/
theorem silent_zoom_mapError {seen : τ → List γ} {get : τ → σ} {set : σ → τ → τ} {f : ε' → ε}
    (unseen : ∀ s t, seen (set s t) = seen t) (errors : ∀ e, P (f e)) (x : Stepwise σ ε' α) :
    Silent seen P (zoom get set (mapError f x)) := by
  refine ⟨Steps.emits_zoom unseen _, Steps.Ends.zoom ?_⟩
  refine Steps.Ends.bind (P := fun _ => True) ?_ fun r _ => ?_
  · induction ExceptT.run x with
    | done a => trivial
    | step effect next ih => exact ih
  · cases r with
    | ok a => exact fun e failed => by cases failed
    | error e' => exact fun e failed => by cases failed; exact errors e'

theorem guarded_bind {owns : σ → Prop} {fails : Except ε β → Prop}
    (first : Silent seen (fun e => fails (.error e)) x)
    (later : ∀ a, (ExceptT.run (f a)).Guarded seen owns budget fails) :
    (ExceptT.run (x >>= f)).Guarded seen owns budget fails := by
  refine Steps.Guarded.bind first.emits first.errors fun r ends => ?_
  cases r with
  | ok a => exact later a
  | error e => exact ends e rfl

theorem guarded_bind_ofExcept {owns : σ → Prop} {fails : Except ε β → Prop} {r : Except ε α}
    (errors : ∀ e, r = .error e → fails (.error e))
    (later : ∀ a, r = .ok a → (ExceptT.run (f a)).Guarded seen owns budget fails) :
    (ExceptT.run (ofExcept r >>= f)).Guarded seen owns budget fails := by
  cases r with
  | ok a => exact later a rfl
  | error e => exact errors e rfl

/-- The step that makes the program the owner, unless it fails. -/
theorem guarded_bind_owner {owns : σ → Prop} {fails : Except ε β → Prop} {x : Prog σ ε α}
    (unseen : ∀ s, seen (x.exec s).2 = seen s) (errors : Prog.ErrorsIn (fun e => fails (.error e)) x)
    (claims : ∀ s a s', x.exec s = (.ok a, s') → owns s')
    (later : ∀ a, (ExceptT.run (f a)).Emits seen budget) :
    (ExceptT.run (atom x >>= f)).Guarded seen owns budget fails := by
  intro s
  refine ⟨unseen s, ?_⟩
  have goes : ∀ r, (x.exec s).1 = r →
      (ExceptT.bindCont f r).Guarded seen owns budget fails ∨
        owns (x.exec s).2 ∧ (ExceptT.bindCont f r).Emits seen budget := by
    intro r result
    cases r with
    | ok a => exact .inr ⟨claims s a _ (Prod.ext result rfl), later a⟩
    | error e => exact .inl (errors s e _ (Prod.ext result rfl))
  exact goes _ rfl

end Emits

end Stepwise

structure Threads (σ α : Type) where
  state : σ
  tasks : List (Steps σ α)

namespace Threads

variable {σ α β γ : Type}

/-- Task `i` takes a step. -/
def step (c : Threads σ α) (i : Nat) : Threads σ α :=
  match c.tasks[i]? with
  | none => c
  | some task => ⟨(task.next c.state).2, c.tasks.set i (task.next c.state).1⟩

def run (schedule : List Nat) (c : Threads σ α) : Threads σ α := schedule.foldl step c

def Returned (c : Threads σ α) (i : Nat) (a : α) : Prop := c.tasks[i]? = some (.done a)

theorem run_append (first second : List Nat) (c : Threads σ α) :
    c.run (first ++ second) = (c.run first).run second := foldl_append

/-- Task `i` runs the first part of its program without interruption. -/
theorem run_alone_bind {c : Threads σ α} {i : Nat} {x : Steps σ β} {f : β → Steps σ α}
    (here : c.tasks[i]? = some (x >>= f)) : ∃ n, c.run (List.replicate n i) =
      ⟨(x.run c.state).2, c.tasks.set i (f (x.run c.state).1)⟩ := by
  induction x generalizing c with
  | done b =>
    refine ⟨0, ?_⟩
    have same : c.tasks.set i (f b) = c.tasks := by
      obtain ⟨bound, found⟩ := List.getElem?_eq_some_iff.mp here
      exact (congrArg (c.tasks.set i) found.symm).trans (set_getElem_self bound)
    simp only [Steps.run, same]
    rfl
  | step effect next ih =>
    have stepped : c.step i =
        ⟨effect c.state, c.tasks.set i (next c.state >>= f)⟩ := by
      rw [step, here]
      rfl
    obtain ⟨bound, -⟩ := List.getElem?_eq_some_iff.mp here
    obtain ⟨n, rest⟩ := @ih c.state ⟨effect c.state, c.tasks.set i (next c.state >>= f)⟩
      (by simp [bound])
    refine ⟨n + 1, ?_⟩
    simp only [run, replicate_succ, foldl_cons, stepped]
    simpa [run, Steps.run] using rest

/-- Task `i` runs to its end without interruption. -/
theorem run_alone {c : Threads σ α} {i : Nat} {x : Steps σ α} (here : c.tasks[i]? = some x) :
    ∃ n, c.run (List.replicate n i) = ⟨(x.run c.state).2, c.tasks.set i (.done (x.run c.state).1)⟩ :=
  run_alone_bind (f := Steps.done) (here.trans (congrArg some (Steps.bind_pure' x).symm))

/-- After a step of task `i`, it has gone on and the others are as they were. -/
theorem tasks_step {c : Threads σ α} {i j : Nat} {task task' : Steps σ α}
    (here : c.tasks[i]? = some task) (found : (c.step i).tasks[j]? = some task') :
    (j = i ∧ task' = (task.next c.state).1) ∨ (j ≠ i ∧ c.tasks[j]? = some task') := by
  rw [step, here] at found
  obtain ⟨bound, -⟩ := List.getElem?_eq_some_iff.mp here
  by_cases same : j = i
  · subst same
    rw [List.getElem?_set_self bound, Option.some.injEq] at found
    exact .inl ⟨rfl, found.symm⟩
  · rw [List.getElem?_set_ne (Ne.symm same)] at found
    exact .inr ⟨same, found⟩

theorem state_step {c : Threads σ α} {i : Nat} {task : Steps σ α} (here : c.tasks[i]? = some task) :
    (c.step i).state = (task.next c.state).2 := by
  rw [step, here]

section Exclusive

variable [DecidableEq γ]

/-- What may be owned and emitted: `kept` is what every step of every task keeps to. -/
structure Ownership (σ α γ : Type) where
  seen : σ → List γ
  owns : Nat → σ → Prop
  kept : σ → σ → Prop
  budget : Nat → Multiset γ
  fails : α → Prop
  stays : ∀ i s s', kept s s' → owns i s → owns i s'
  sole : ∀ i j s, owns i s → owns j s → i = j
  nodup : ∀ i, (budget i).Nodup

variable (o : Ownership σ α γ)

/-- Every task but `owner` still has to become the owner. -/
def GuardedBut (owner : Option Nat) (c : Threads σ α) : Prop :=
  ∀ i task, c.tasks[i]? = some task → task.Always o.kept ∧
    (owner ≠ some i → task.Guarded o.seen (o.owns i) (o.budget i) o.fails)

/-- Task `i` owns, and what it can still emit has not been seen. -/
structure OwnedBy (i : Nat) (c : Threads σ α) : Prop where
  owns : o.owns i c.state
  fresh : ∀ task, c.tasks[i]? = some task → ∃ left : Multiset γ, task.Emits o.seen left ∧
    left.Nodup ∧ ∀ g ∈ left, g ∉ o.seen c.state
  nodup : (o.seen c.state).Nodup

/-- Nobody owns and nothing has been seen, or one task owns. -/
def Exclusive (c : Threads σ α) : Prop :=
  (c.GuardedBut o none ∧ o.seen c.state = []) ∨
    ∃ i, c.GuardedBut o (some i) ∧ c.OwnedBy o i

variable {o}

variable {c : Threads σ α}

/-- A step of a task that may emit. -/
theorem OwnedBy.emit {i : Nat} {effect : σ → σ} {next : σ → Steps σ α}
    (owned : c.OwnedBy o i) (here : c.tasks[i]? = some (.step effect next))
    (kept : o.kept c.state (effect c.state)) : (c.step i).OwnedBy o i := by
  have state : (c.step i).state = effect c.state := state_step here
  obtain ⟨left, emits, nodup, fresh⟩ := owned.fresh _ here
  have owns : o.owns i (c.step i).state := state ▸ o.stays i _ _ kept owned.owns
  have task (task') (found : (c.step i).tasks[i]? = some task') : task' = next c.state := by
    rcases tasks_step here found with ⟨-, gone⟩ | ⟨other, -⟩
    · exact gone
    · exact absurd rfl other
  rcases emits c.state with ⟨same, rest⟩ | ⟨g, member, added, rest⟩
  · refine ⟨owns, fun task' found => ⟨left, task task' found ▸ rest, nodup, ?_⟩, ?_⟩
    · rwa [state, same]
    · rw [state, same]
      exact owned.nodup
  · refine ⟨owns, fun task' found => ⟨left.erase g, task task' found ▸ rest, nodup.erase g, ?_⟩, ?_⟩
    · intro h unused
      rw [state, added, mem_append, mem_singleton, not_or]
      exact ⟨fresh h (Multiset.mem_of_mem_erase unused),
        fun same => nodup.notMem_erase (same ▸ unused)⟩
    · rw [state, added]
      exact owned.nodup.append (nodup_singleton g) (by simpa using fresh g member)

theorem Exclusive.step (exclusive : c.Exclusive o) (i : Nat) : (c.step i).Exclusive o := by
  cases here : c.tasks[i]? with
  | none =>
    rw [Threads.step, here]
    exact exclusive
  | some task =>
    cases task with
    | done a =>
      have same : c.step i = c := by
        obtain ⟨bound, found⟩ := List.getElem?_eq_some_iff.mp here
        rw [Threads.step, here]
        exact congrArg (Threads.mk c.state)
          ((congrArg (c.tasks.set i) found.symm).trans (set_getElem_self bound))
      rwa [same]
    | step effect next =>
      have state : (c.step i).state = effect c.state := state_step here
      rcases exclusive with ⟨guarded, nothing⟩ | ⟨owner, guarded, owned⟩
      · -- Nobody owns: the task goes on waiting, or becomes the owner.
        have mine := (guarded i _ here).2 (by simp)
        obtain ⟨same, waits | ⟨owns, emits⟩⟩ := mine c.state
        · refine .inl ⟨fun j task' found => ?_, by rw [state, same, nothing]⟩
          rcases tasks_step here found with ⟨rfl, rfl⟩ | ⟨-, other⟩
          · exact ⟨((guarded j _ here).1 c.state).2, fun _ => waits⟩
          · exact guarded j task' other
        · refine .inr ⟨i, fun j task' found => ?_, state ▸ owns, fun task' found => ?_, ?_⟩
          · rcases tasks_step here found with ⟨rfl, rfl⟩ | ⟨-, other⟩
            · exact ⟨((guarded j _ here).1 c.state).2, fun own => absurd rfl own⟩
            · exact ⟨(guarded j task' other).1, fun _ => (guarded j task' other).2 (by simp)⟩
          · rcases tasks_step here found with ⟨-, rfl⟩ | ⟨other, -⟩
            · refine ⟨o.budget i, emits, o.nodup i, ?_⟩
              simp [state, same, nothing]
            · exact absurd rfl other
          · simp [state, same, nothing]
      · have kept := ((guarded i _ here).1 c.state).1
        refine .inr ⟨owner, fun j task' found => ?_, ?_⟩
        · rcases tasks_step here found with ⟨rfl, rfl⟩ | ⟨-, other⟩
          · refine ⟨((guarded j _ here).1 c.state).2, fun own => ?_⟩
            -- A second owner is impossible, so the task goes on waiting.
            rcases ((guarded j _ here).2 own c.state).2 with waits | ⟨owns, -⟩
            · exact waits
            · exact absurd (congrArg some (o.sole owner j _ (o.stays _ _ _ kept owned.owns) owns)) own
          · exact guarded j task' other
        · by_cases mine : i = owner
          · subst mine
            exact owned.emit here kept
          · have silent := ((guarded i _ here).2 (by simpa using Ne.symm mine) c.state).1
            refine ⟨state ▸ o.stays _ _ _ kept owned.owns, fun task' found => ?_, ?_⟩
            · rcases tasks_step here found with ⟨same, -⟩ | ⟨-, other⟩
              · exact absurd same.symm mine
              · obtain ⟨left, emits, nodup, fresh⟩ := owned.fresh task' other
                exact ⟨left, emits, nodup, by rwa [state, silent]⟩
            · rw [state, silent]
              exact owned.nodup

theorem Exclusive.run (exclusive : c.Exclusive o) (schedule : List Nat) : (c.run schedule).Exclusive o := by
  induction schedule generalizing c with
  | nil => exact exclusive
  | cons i rest ih => exact ih (exclusive.step i)

/-- At most one task succeeds, and nothing is seen twice. -/
theorem Exclusive.outcome (exclusive : c.Exclusive o) :
    (∀ i j a b, c.Returned i a → c.Returned j b → ¬ o.fails a → ¬ o.fails b → i = j) ∧
      (o.seen c.state).Nodup := by
  rcases exclusive with ⟨guarded, nothing⟩ | ⟨owner, guarded, owned⟩
  · refine ⟨fun i j a b first _ succeeds _ => ?_, by rw [nothing]; exact nodup_nil⟩
    exact absurd ((guarded i _ first).2 (by simp)) succeeds
  · have only (i : Nat) (a : α) (returned : c.Returned i a) (succeeds : ¬ o.fails a) : i = owner := by
      by_contra other
      exact succeeds ((guarded i _ returned).2 (by simpa using Ne.symm other))
    refine ⟨fun i j a b first second succeeds succeeds' => ?_, owned.nodup⟩
    rw [only i a first succeeds, only j b second succeeds']

/-- Tasks that guard their emissions and successes by ownership: whatever the schedule, at most
one of them succeeds, and nothing is seen twice. -/
theorem exclusive (start : c.GuardedBut o none) (nothing : o.seen c.state = []) (schedule : List Nat) :
    (∀ i j a b, (c.run schedule).Returned i a → (c.run schedule).Returned j b →
      ¬ o.fails a → ¬ o.fails b → i = j) ∧ (o.seen (c.run schedule).state).Nodup :=
  (Exclusive.run (.inl ⟨start, nothing⟩) schedule).outcome

end Exclusive

end Threads

end Stoa
