import Mathlib.Data.List.Basic

/-! `isBlacklisted_rowAfter_iff`: a peer is blacklisted exactly if the counter can reach the
threshold and a rejection in force, with no manual reset after it, has completed a run. -/
namespace Stoa.Blacklist

open List

/-- The columns of a peer that are read here. -/
structure PeerRow where
  articlesAccepted : Nat := 0
  articlesRejected : Nat := 0
  consecutiveFailures : Nat := 0
  lastSeen : Int := 0
  blacklistedUntil : Option Int := none

structure BlacklistConfig where
  failureThreshold : Int
  durationSecs : Int

def recordAccepted (nowMs : Int) (row : PeerRow) : PeerRow :=
  { row with articlesAccepted := row.articlesAccepted + 1, consecutiveFailures := 0, lastSeen := nowMs }

def recordRejected (nowMs : Int) (row : PeerRow) : PeerRow :=
  { row with
    articlesRejected := row.articlesRejected + 1
    consecutiveFailures := min (row.consecutiveFailures + 1) 20
    lastSeen := nowMs }

/-- The sum is that of 64-bit integers. -/
def checkAndBlacklist (config : BlacklistConfig) (nowMs : Int) (row : PeerRow) : PeerRow :=
  if row.consecutiveFailures ≥ config.failureThreshold then
    { row with blacklistedUntil := some ((nowMs + config.durationSecs * 1000).bmod 0x10000000000000000) }
  else row

def isBlacklisted (nowMs : Int) (row : PeerRow) : Bool :=
  match row.blacklistedUntil with
  | some untilMs => untilMs > nowMs
  | none => false

def unblacklist (row : PeerRow) : PeerRow :=
  { row with blacklistedUntil := none, consecutiveFailures := 0 }

def recordAndMaybeBlacklist (config : BlacklistConfig) (nowMs : Int) (row : PeerRow) : PeerRow :=
  checkAndBlacklist config nowMs (recordRejected nowMs row)

inductive PeerEvent
  | accepted (nowMs : Int)
  | rejected (nowMs : Int)
  | unblacklist

def PeerEvent.time? : PeerEvent → Option Int
  | .accepted nowMs | .rejected nowMs => some nowMs
  | .unblacklist => none

/-- The row after a history, whose latest event comes first. -/
def rowAfter (config : BlacklistConfig) : List PeerEvent → PeerRow
  | [] => {}
  | .accepted nowMs :: history => recordAccepted nowMs (rowAfter config history)
  | .rejected nowMs :: history => recordAndMaybeBlacklist config nowMs (rowAfter config history)
  | .unblacklist :: history => unblacklist (rowAfter config history)

/-- The rejections since anything else happened. -/
def runLength : List PeerEvent → Nat
  | .rejected _ :: history => runLength history + 1
  | _ => 0

variable (config : BlacklistConfig) (nowMs : Int) (history : List PeerEvent)

/-- The clock did not go back, up to now. -/
def Monotone : Prop := (nowMs :: history.filterMap PeerEvent.time?).Pairwise (· ≥ ·)

/-- No end of a blacklisting leaves the 64-bit range. -/
def Fits : Prop := ∀ r, .rejected r ∈ history →
  -0x8000000000000000 ≤ r + config.durationSecs * 1000 ∧
    r + config.durationSecs * 1000 < 0x8000000000000000

/-- A rejection has completed a run, and its time is not over. -/
def Completed : Prop := ∃ r before, .rejected r :: before <:+ history ∧
  config.failureThreshold ≤ runLength before + 1 ∧ r ≤ nowMs ∧ nowMs < r + config.durationSecs * 1000

def sinceReset : List PeerEvent → List PeerEvent
  | [] | .unblacklist :: _ => []
  | event :: history => event :: sinceReset history

variable {config nowMs history} {r : Int}

theorem completed_rejected_iff : Completed config nowMs (.rejected r :: history) ↔
    (config.failureThreshold ≤ runLength history + 1 ∧ r ≤ nowMs ∧
      nowMs < r + config.durationSecs * 1000) ∨ Completed config nowMs history := by
  simp only [Completed, suffix_cons_iff]
  constructor
  · rintro ⟨r, before, same | suffix, rest⟩
    · cases same
      exact .inl rest
    · exact .inr ⟨r, before, suffix, rest⟩
  · rintro (rest | ⟨r, before, suffix, rest⟩)
    · exact ⟨r, history, .inl rfl, rest⟩
    · exact ⟨r, before, .inr suffix, rest⟩

theorem completed_accepted_iff :
    Completed config nowMs (.accepted r :: history) ↔ Completed config nowMs history := by
  simp [Completed, suffix_cons_iff]

theorem Completed.mem (completed : Completed config nowMs history) : ∃ r, .rejected r ∈ history ∧
    nowMs < r + config.durationSecs * 1000 := by
  obtain ⟨r, before, suffix, -, -, within⟩ := completed
  exact ⟨r, suffix.mem mem_cons_self, within⟩

theorem runLength_sinceReset : runLength (sinceReset history) = runLength history := by
  induction history with
  | nil => rfl
  | cons event history ih => cases event <;> simp [sinceReset, runLength, ih]

theorem mem_of_mem_sinceReset {event : PeerEvent} (member : event ∈ sinceReset history) :
    event ∈ history := by
  induction history with
  | nil => exact member
  | cons first history ih => cases first <;> simp [sinceReset] at member <;> grind

theorem consecutiveFailures_rowAfter :
    (rowAfter config history).consecutiveFailures = min (runLength history) 20 := by
  induction history with
  | nil => rfl
  | cons event history ih =>
    cases event with
    | rejected r =>
      simp only [rowAfter, recordAndMaybeBlacklist, checkAndBlacklist, recordRejected, runLength, ih]
      split <;> simp <;> omega
    | _ => rfl

theorem Monotone.earlier {event : PeerEvent} (clock : Monotone nowMs (event :: history)) :
    Monotone nowMs history :=
  clock.sublist (((sublist_cons_self event history).filterMap _).cons_cons nowMs)

theorem Monotone.le_now (clock : Monotone nowMs (.rejected r :: history)) : r ≤ nowMs :=
  (pairwise_cons.mp clock).1 r (by simp [PeerEvent.time?])

theorem Monotone.le_of_mem {r' : Int} (clock : Monotone nowMs (.rejected r :: history))
    (member : .rejected r' ∈ history) : r' ≤ r :=
  (pairwise_cons.mp (pairwise_cons.mp clock).2).1 r'
    (mem_filterMap.mpr ⟨_, member, rfl⟩)

theorem isBlacklisted_rejected (fits : Fits config (.rejected r :: history)) :
    isBlacklisted nowMs (rowAfter config (.rejected r :: history)) =
      if config.failureThreshold ≤ min (runLength history + 1) 20 then
        decide (nowMs < r + config.durationSecs * 1000)
      else isBlacklisted nowMs (rowAfter config history) := by
  obtain ⟨low, high⟩ := fits r mem_cons_self
  have counted : ((recordRejected r (rowAfter config history)).consecutiveFailures : Int) =
      min (runLength history + 1) 20 := by
    simp only [recordRejected, consecutiveFailures_rowAfter]
    omega
  simp only [rowAfter, recordAndMaybeBlacklist, checkAndBlacklist, ge_iff_le, counted]
  split
  · rw [Int.bmod_eq_of_le (by omega) (by omega)]
    rfl
  · rfl

theorem isBlacklisted_rowAfter_iff (clock : Monotone nowMs history) (fits : Fits config history) :
    isBlacklisted nowMs (rowAfter config history) = true ↔
      config.failureThreshold ≤ 20 ∧ Completed config nowMs (sinceReset history) := by
  induction history with
  | nil => simp [rowAfter, isBlacklisted, sinceReset, Completed]
  | cons event history ih =>
    have earlier : Fits config history := fun r member => fits r (.tail _ member)
    cases event with
    | unblacklist => simp [rowAfter, unblacklist, isBlacklisted, sinceReset, Completed]
    | accepted r =>
      change _ ↔ _ ∧ Completed config nowMs (.accepted r :: sinceReset history)
      rw [completed_accepted_iff, ← ih clock.earlier earlier]
      rfl
    | rejected r =>
      change _ ↔ _ ∧ Completed config nowMs (.rejected r :: sinceReset history)
      rw [isBlacklisted_rejected fits, completed_rejected_iff, runLength_sinceReset]
      split
      · next reached =>
        -- Earlier rejections are not in force for longer.
        rw [decide_eq_true_eq]
        constructor
        · intro within
          exact ⟨by omega, .inl ⟨by omega, clock.le_now, within⟩⟩
        · rintro ⟨-, ⟨-, -, within⟩ | completed⟩
          · exact within
          · obtain ⟨r', member, within⟩ := completed.mem
            have := clock.le_of_mem (mem_of_mem_sinceReset member)
            omega
      · next short =>
        rw [ih clock.earlier earlier]
        refine and_congr_right fun capped => (or_iff_right ?_).symm
        rintro ⟨reached, -⟩
        omega

theorem Completed.of_sinceReset (completed : Completed config nowMs (sinceReset history)) :
    Completed config nowMs history := by
  induction history with
  | nil => exact completed
  | cons event history ih =>
    cases event with
    | unblacklist => simp [sinceReset, Completed] at completed
    | accepted r => exact completed_accepted_iff.mpr (ih (completed_accepted_iff.mp completed))
    | rejected r =>
      refine completed_rejected_iff.mpr ((completed_rejected_iff.mp completed).imp ?_ ih)
      exact fun head => ⟨@runLength_sinceReset history ▸ head.1, head.2⟩

end Stoa.Blacklist
