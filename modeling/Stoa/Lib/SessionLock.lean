import Mathlib.Logic.Basic

/-! A lock that a database session takes and gives back, as PostgreSQL's session-level advisory
locks are: the session that has the lock may take it again, and has to give it back as often as it
took it; no other session can give it back. -/
namespace Stoa

/-- The session that has the lock and how often it has taken it beyond the first time. -/
abbrev SessionLock (κ : Type) := Option (κ × Nat)

namespace SessionLock

variable {κ : Type} [DecidableEq κ]

/-- `pg_try_advisory_lock`. -/
def tryLock (session : κ) : SessionLock κ → Bool × SessionLock κ
  | none => (true, some (session, 0))
  | some (holder, more) =>
    if holder = session then (true, some (holder, more + 1)) else (false, some (holder, more))

/-- `pg_advisory_unlock`. -/
def unlock (session : κ) : SessionLock κ → SessionLock κ
  | none => none
  | some (holder, more) =>
    if holder = session then
      match more with
      | 0 => none
      | more + 1 => some (holder, more)
    else some (holder, more)

theorem tryLock_succeeds_iff (session : κ) (lock : SessionLock κ) :
    (lock.tryLock session).1 = true ↔ ∀ holder more, lock = some (holder, more) → holder = session := by
  cases lock with
  | none => simp [tryLock]
  | some held =>
    obtain ⟨holder, more⟩ := held
    by_cases same : holder = session
    · simp [tryLock, same]
    · simp [tryLock, same]

theorem tryLock_failed {session : κ} {lock : SessionLock κ} (failed : (lock.tryLock session).1 = false) :
    (lock.tryLock session).2 = lock := by
  cases lock with
  | none => cases failed
  | some held =>
    obtain ⟨holder, more⟩ := held
    by_cases same : holder = session
    · simp [tryLock, same] at failed
    · simp [tryLock, same]

theorem unlock_other {session holder : κ} (more : Nat) (other : holder ≠ session) :
    unlock session (some (holder, more)) = some (holder, more) := if_neg other

@[simp] theorem unlock_last (holder : κ) : unlock holder (some (holder, 0)) = none := if_pos rfl

@[simp] theorem unlock_again (holder : κ) (more : Nat) :
    unlock holder (some (holder, more + 1)) = some (holder, more) := if_pos rfl

theorem holder_of_unlock {session holder holder' : κ} {more more' : Nat}
    (left : unlock session (some (holder, more)) = some (holder', more')) : holder' = holder := by
  by_cases same : holder = session
  · subst same
    cases more with
    | zero => simp at left
    | succ more =>
      rw [unlock_again] at left
      cases left
      rfl
  · rw [unlock_other more same] at left
    cases left
    rfl

end SessionLock

end Stoa
