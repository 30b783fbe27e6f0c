import Mathlib.Logic.Function.Basic
import Stoa.Lib.Runs
import Stoa.Lib.SessionLock

/-!
- `safe_iff`: the lock is exclusive and never lost exactly if every release is served by the
  connection that has the lock, or the instance has no other connection.
-/
namespace Stoa.GcScheduler

open SessionLock

structure Deployment (ι κ : Type) where
  owner : κ → ι
  /-- A pool has at least one connection. -/
  connection : ι → κ
  owner_connection : ∀ i, owner (connection i) = i

/-- Where `start_gc_scheduler` is in its loop. -/
inductive GcPhase
  /-- It waits for the next tick. -/
  | waiting
  /-- It has the lock and fetches the candidates. -/
  | selecting
  /-- It is inside `run_once`. -/
  | running
  /-- It is about to give the lock back. -/
  | releasing
  deriving DecidableEq

structure GcWorld (ι κ : Type) where
  lock : SessionLock κ
  phase : ι → GcPhase

inductive GcLabel (ι κ : Type)
  /-- `try_gc_lock`, on a connection; the query may fail. -/
  | tick (i : ι) (c : κ) (fault : Bool)
  | start (i : ι)
  /-- `run_once` returns or panics. -/
  | finish (i : ι)
  /-- `release_gc_lock`, on a connection; that the query fails is not noticed. -/
  | release (i : ι) (c : κ) (fault : Bool)

open Function (update)

section Steps

variable {ι κ : Type} [DecidableEq ι] [DecidableEq κ]

/-- The answer is that of `try_gc_lock`. -/
def gcStep (d : Deployment ι κ) (label : GcLabel ι κ) (w : GcWorld ι κ) : Option Bool × GcWorld ι κ :=
  match label with
  | .tick i c fault =>
    if w.phase i = .waiting ∧ d.owner c = i then
      if fault then (some false, w)
      else
        let (taken, lock) := w.lock.tryLock c
        (some taken, ⟨lock, if taken then update w.phase i .selecting else w.phase⟩)
    else (none, w)
  | .start i =>
    if w.phase i = .selecting then (none, { w with phase := update w.phase i .running }) else (none, w)
  | .finish i =>
    if w.phase i = .running then (none, { w with phase := update w.phase i .releasing }) else (none, w)
  | .release i c fault =>
    if w.phase i = .releasing ∧ d.owner c = i then
      (none, ⟨if fault then w.lock else w.lock.unlock c, update w.phase i .waiting⟩)
    else (none, w)

inductive GcMoves (d : Deployment ι κ) (w : GcWorld ι κ) : GcLabel ι κ → GcWorld ι κ → Prop
  | nothing {label : GcLabel ι κ} (idle : ∀ i c fault, label = .release i c fault →
      ¬ (w.phase i = .releasing ∧ d.owner c = i)) : GcMoves d w label w
  | taken {i : ι} {c : κ} (waiting : w.phase i = .waiting) (own : d.owner c = i)
    (free : (w.lock.tryLock c).1 = true) :
    GcMoves d w (.tick i c false) ⟨(w.lock.tryLock c).2, update w.phase i .selecting⟩
  | moved {i : ι} {label : GcLabel ι κ} {phase : GcPhase} (inside : w.phase i ≠ .waiting)
    (stays : phase ≠ .waiting) (unreleased : ∀ i c fault, label ≠ .release i c fault) :
    GcMoves d w label { w with phase := update w.phase i phase }
  | released {i : ι} {c : κ} {fault : Bool} (releasing : w.phase i = .releasing) (own : d.owner c = i) :
    GcMoves d w (.release i c fault)
      ⟨if fault then w.lock else w.lock.unlock c, update w.phase i .waiting⟩

theorem gcStep_moves (d : Deployment ι κ) (label : GcLabel ι κ) (w : GcWorld ι κ) :
    GcMoves d w label (gcStep d label w).2 := by
  cases label with
  | tick i c fault =>
    simp only [gcStep]
    split
    · next can =>
      cases fault with
      | true => exact .nothing (by simp)
      | false =>
        cases free : (w.lock.tryLock c).1 with
        | true => simpa [free] using GcMoves.taken can.1 can.2 free
        | false =>
          simp only [Bool.false_eq_true, if_false, SessionLock.tryLock_failed free]
          exact .nothing (by simp)
    · exact .nothing (by simp)
  | start i =>
    simp only [gcStep]
    split
    · next selecting => exact .moved (by simp [selecting]) (by simp) (by simp)
    · exact .nothing (by simp)
  | finish i =>
    simp only [gcStep]
    split
    · next running => exact .moved (by simp [running]) (by simp) (by simp)
    · exact .nothing (by simp)
  | release i c fault =>
    simp only [gcStep]
    split
    · next can => exact .released can.1 can.2
    · next cannot =>
      apply GcMoves.nothing
      rintro _ _ _ ⟨⟩
      exact cannot

end Steps

variable {ι κ : Type} [DecidableEq κ]

structure Safe (d : Deployment ι κ) (w : GcWorld ι κ) : Prop where
  exclusive : ∀ i j, w.phase i = .running → w.phase j = .running → i = j
  /-- When nobody is in the guarded part, somebody gets the lock, whichever of the connections is
  asked. -/
  available : (∀ i, w.phase i = .waiting) →
    ∃ i, ∀ c, d.owner c = i → (w.lock.tryLock c).1 = true

def Alone (d : Deployment ι κ) (c : κ) : Prop := ∀ c', d.owner c' = d.owner c → c' = c

def Released (d : Deployment ι κ) (label : GcLabel ι κ) (w : GcWorld ι κ) : Prop :=
  match label with
  | .release i c fault => w.phase i = .releasing → d.owner c = i →
      ∀ holder more, w.lock = some (holder, more) → Alone d holder ∨ (fault = false ∧ c = holder)
  | _ => True

/-- Whoever is in the guarded part has the lock, and a lock that is left over can be taken again. -/
structure Guarded (d : Deployment ι κ) (w : GcWorld ι κ) : Prop where
  holds : ∀ i, w.phase i ≠ .waiting → ∃ holder more, w.lock = some (holder, more) ∧ d.owner holder = i
  leftover : ∀ holder more, w.lock = some (holder, more) →
    (more ≠ 0 ∨ ∀ i, w.phase i = .waiting) → Alone d holder

section

variable {d : Deployment ι κ} {w w' : GcWorld ι κ} {label : GcLabel ι κ}

omit [DecidableEq κ] in
theorem Guarded.eq_of_inside (guarded : Guarded d w) {i j : ι} (first : w.phase i ≠ .waiting)
    (second : w.phase j ≠ .waiting) : i = j := by
  obtain ⟨holder, more, lock, own⟩ := guarded.holds i first
  obtain ⟨holder', more', lock', own'⟩ := guarded.holds j second
  rw [lock] at lock'
  cases lock'
  exact own.symm.trans own'

theorem Guarded.safe [Nonempty ι] (guarded : Guarded d w) : Safe d w := by
  refine ⟨fun i j first second => guarded.eq_of_inside (by simp [first]) (by simp [second]), ?_⟩
  intro waiting
  cases held : w.lock with
  | none =>
    obtain ⟨i⟩ := (inferInstance : Nonempty ι)
    exact ⟨i, fun c _ => rfl⟩
  | some lock =>
    obtain ⟨holder, more⟩ := lock
    have alone := guarded.leftover holder more held (.inr waiting)
    refine ⟨d.owner holder, fun c own => ?_⟩
    rw [alone c own]
    exact (tryLock_succeeds_iff holder _).mpr (by simp)

variable [DecidableEq ι]

omit [DecidableEq κ] in
theorem inside_of_update {phases : ι → GcPhase} {i j : ι} {phase : GcPhase} (other : j ≠ i)
    (inside : update phases i phase j ≠ .waiting) : phases j ≠ .waiting := by
  rwa [Function.update_of_ne other] at inside

omit [DecidableEq κ] in
theorem Guarded.waiting_of_release (guarded : Guarded d w) {i : ι} (releasing : w.phase i = .releasing)
    (j : ι) : update w.phase i .waiting j = .waiting := by
  by_cases same : j = i
  · rw [same, Function.update_self]
  · rw [Function.update_of_ne same]
    by_contra inside
    exact same (guarded.eq_of_inside inside (by simp [releasing]))

theorem guarded_of_moves (guarded : Guarded d w) (released : Released d label w)
    (moves : GcMoves d w label w') : Guarded d w' := by
  cases moves with
  | nothing => exact guarded
  | @taken i c waiting own free =>
    have selecting : update w.phase i GcPhase.selecting i ≠ .waiting := by simp
    cases held : w.lock with
    | none =>
      refine ⟨fun j inside => ?_, ?_⟩
      · by_cases same : j = i
        · exact ⟨c, 0, rfl, same ▸ own⟩
        · obtain ⟨holder, more, lock, -⟩ := guarded.holds j (inside_of_update same inside)
          rw [held] at lock
          cases lock
      · rintro holder more ⟨⟩ (again | waiting)
        · exact absurd rfl again
        · exact absurd (waiting i) selecting
    | some lock =>
      obtain ⟨holder, more⟩ := lock
      obtain rfl := (tryLock_succeeds_iff c _).mp free holder more held
      -- The connection had the lock while its instance was waiting, so the lock was left over.
      have all : ∀ j, w.phase j = .waiting := by
        intro j
        by_contra inside
        obtain ⟨holder', more', lock, own'⟩ := guarded.holds j inside
        rw [held] at lock
        cases lock
        exact inside (own'.symm.trans own ▸ waiting)
      have alone := guarded.leftover holder more held (.inr all)
      have lock : (tryLock holder (some (holder, more))).2 = some (holder, more + 1) := by
        simp [tryLock]
      rw [lock]
      refine ⟨fun j inside => ⟨holder, more + 1, rfl, ?_⟩, ?_⟩
      · by_cases same : j = i
        · rw [same, own]
        · exact absurd (all j) (inside_of_update same inside)
      · rintro _ _ ⟨⟩ -
        exact alone
  | @moved i _ phase inside stays =>
    refine ⟨fun j there => ?_, ?_⟩
    · by_cases same : j = i
      · exact guarded.holds j (same ▸ inside)
      · exact guarded.holds j (inside_of_update same there)
    · rintro holder more lock (again | waiting)
      · exact guarded.leftover holder more lock (.inl again)
      · exact absurd (waiting i) (by simpa using stays)
  | @released i c fault releasing own =>
    have waiting := guarded.waiting_of_release releasing
    obtain ⟨holder, more, lock, -⟩ := guarded.holds i (by simp [releasing])
    refine ⟨fun j inside => absurd (waiting j) inside, ?_⟩
    rintro holder' more' left -
    simp only [lock] at left
    rcases released releasing own holder more lock with alone | ⟨rfl, rfl⟩
    · have same : holder' = holder := by
        cases fault with
        | true =>
          cases left
          rfl
        | false => exact holder_of_unlock left
      exact same ▸ alone
    · cases more with
      | zero => simp at left
      | succ more =>
        simp only [Bool.false_eq_true, if_false, unlock_again] at left
        cases left
        exact guarded.leftover _ _ lock (.inl (Nat.succ_ne_zero _))

theorem unsafe_of_moves (guarded : Guarded d w) (lost : ¬ Released d label w)
    (moves : GcMoves d w label w') : ¬ Safe d w' := by
  cases label with
  | release i c fault =>
    simp only [Released, not_forall] at lost
    obtain ⟨releasing, own, holder, more, lock, left⟩ := lost
    rw [not_or] at left
    intro safe
    cases moves with
    | nothing idle => exact idle i c fault rfl ⟨releasing, own⟩
    | moved _ _ unreleased => exact unreleased i c fault rfl
    | released =>
      have kept : (if fault then w.lock else w.lock.unlock c) = some (holder, more) := by
        cases fault with
        | true => exact lock
        | false =>
          rw [lock]
          exact unlock_other more fun same => left.2 ⟨rfl, same.symm⟩
      obtain ⟨j, gets⟩ := safe.available (guarded.waiting_of_release releasing)
      have each : ∀ c', d.owner c' = j → holder = c' := fun c' own' =>
        (tryLock_succeeds_iff c' _).mp (gets c' own') holder more kept
      apply left.1
      intro c' own'
      have mine := each _ (d.owner_connection j)
      exact (each c' (by rw [own', mine, d.owner_connection])).symm
  | _ => exact absurd trivial lost

end

def GcWorld.start : GcWorld ι κ := ⟨none, fun _ => .waiting⟩

omit [DecidableEq κ] in
theorem guarded_start (d : Deployment ι κ) : Guarded d GcWorld.start :=
  ⟨by simp [GcWorld.start], by simp [GcWorld.start]⟩

theorem safe_iff [DecidableEq ι] [Nonempty ι] (d : Deployment ι κ) (labels : List (GcLabel ι κ)) :
    Throughout (gcStep d) (Safe d) labels GcWorld.start ↔
      AlongRun (gcStep d) (Released d) labels GcWorld.start :=
  throughout_iff_of_unsafe (fun _ => Guarded.safe)
    (fun label w guarded released => guarded_of_moves guarded released (gcStep_moves d label w))
    (fun label w guarded lost => unsafe_of_moves guarded lost (gcStep_moves d label w)) (guarded_start d)

namespace Sample

def twoByTwo : Deployment Bool (Bool × Bool) := ⟨Prod.fst, fun i => (i, false), fun _ => rfl⟩

def collection (taken released : Bool × Bool) : List (GcLabel Bool (Bool × Bool)) :=
  [.tick false taken false, .start false, .finish false, .release false released false]

/-- The release is served by the other connection. -/
theorem lock_lost : ¬ Throughout (gcStep twoByTwo) (Safe twoByTwo)
    (collection (false, false) (false, true)) GcWorld.start := by
  intro safe
  obtain ⟨i, gets⟩ := safe.last.available (by decide)
  have first := gets (i, false) rfl
  have second := gets (i, true) rfl
  revert first second
  cases i <;> decide

theorem lock_returned : AlongRun (gcStep twoByTwo) (Released twoByTwo)
      (collection (false, false) (false, false)) GcWorld.start ∧
    Throughout (gcStep twoByTwo) (Safe twoByTwo) (collection (false, false) (false, false))
      GcWorld.start := by
  have released : AlongRun (gcStep twoByTwo) (Released twoByTwo)
      (collection (false, false) (false, false)) GcWorld.start := by
    refine ⟨trivial, trivial, trivial, ?_, trivial⟩
    rintro - - holder more ⟨⟩
    exact .inr ⟨rfl, rfl⟩
  exact ⟨released, (safe_iff twoByTwo _).mpr released⟩

end Sample

end Stoa.GcScheduler
