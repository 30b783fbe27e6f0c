import Mathlib.Data.Prod.Lex
import Stoa.Lib.Bytes

/-! A timestamp is a wall clock reading in milliseconds and a logical counter that tells the events
of one millisecond apart. -/
namespace Stoa

structure HlcTimestamp where
  wallMs : UInt64
  logical : UInt32
  nodeId : FixedBytes 8
  deriving DecidableEq

namespace HlcTimestamp

/-- The derived order: wall clock first, then the logical counter, then the node. -/
def le (a b : HlcTimestamp) : Bool :=
  decide (a.wallMs < b.wallMs) ||
    (decide (a.wallMs = b.wallMs) && (decide (a.logical < b.logical) ||
      (decide (a.logical = b.logical) && bytesLe a.nodeId.toBytes b.nodeId.toBytes)))

def ofWallMs (wallMs : UInt64) : HlcTimestamp := ⟨wallMs, 0, FixedBytes.fill 8 0⟩

/-- The `Debug` text. -/
def debug (t : HlcTimestamp) : String :=
  "HlcTimestamp \x7b wall_ms: " ++ toString t.wallMs ++ ", logical: " ++ toString t.logical ++
    ", node_id: [" ++ String.intercalate ", " (t.nodeId.toBytes.map toString) ++ "] \x7d"

/-- Wall clock and counter, ordered lexicographically; the node plays no part. -/
def pair (t : HlcTimestamp) : ℕ ×ₗ ℕ := toLex (t.wallMs.toNat, t.logical.toNat)

theorem pair_lt {t u : HlcTimestamp} : t.pair < u.pair ↔ t.wallMs.toNat < u.wallMs.toNat ∨
        t.wallMs.toNat = u.wallMs.toNat ∧ t.logical.toNat < u.logical.toNat :=
  Prod.Lex.toLex_lt_toLex

end HlcTimestamp

inductive HlcError where
  | clockSkewExceeded (observedMs nowMs maxSkewMs : UInt64)
  deriving DecidableEq

namespace HlcError

/-- The `Display` text. -/
def display : HlcError → String
  | clockSkewExceeded observedMs nowMs maxSkewMs =>
    "peer timestamp " ++ toString observedMs ++ "ms exceeds local clock " ++ toString nowMs ++
      "ms by more than the " ++ toString maxSkewMs ++ "ms allowed skew"

end HlcError

def defaultMaxClockSkewMs : UInt64 := 5000

structure HlcClock where
  last : HlcTimestamp
  nodeId : FixedBytes 8
  maxClockSkewMs : UInt64
  deriving DecidableEq

/-- `checked_add(1)` on the logical counter. -/
def checkedSucc (logical : UInt32) : Option UInt32 :=
  if logical.toNat + 1 < UInt32.size then some (logical + 1) else none

namespace HlcClock

/-- A clock that starts at `initialWallMs`. -/
def new (nodeId : FixedBytes 8) (initialWallMs : UInt64) : HlcClock :=
  ⟨⟨initialWallMs, 0, nodeId⟩, nodeId, defaultMaxClockSkewMs⟩

def newSeeded (nodeId : FixedBytes 8) (nowMs : UInt64) (checkpoint : HlcTimestamp) : HlcClock :=
  let last : HlcTimestamp :=
    if checkpoint.wallMs ≥ nowMs then ⟨checkpoint.wallMs, checkpoint.logical, nodeId⟩
    else ⟨nowMs, 0, nodeId⟩
  ⟨last, nodeId, defaultMaxClockSkewMs⟩

def lastTimestamp (clock : HlcClock) : HlcTimestamp := clock.last

/-- The next wall clock and counter at `newWall`: the counter moves on from `counter`, or
restarts at zero if no timestamp of this millisecond is known. An exhausted counter
advances the wall clock by one millisecond (in `u64`, where the last one wraps). -/
def nextReading (newWall : UInt64) (counter : Option UInt32) : UInt64 × UInt32 :=
  match counter with
  | none => (newWall, 0)
  | some logical =>
    match checkedSucc logical with
    | some l => (newWall, l)
    | none => (newWall + 1, 0)

def stamp (clock : HlcClock) (reading : UInt64 × UInt32) : HlcTimestamp × HlcClock :=
  let last : HlcTimestamp := ⟨reading.1, reading.2, clock.nodeId⟩
  (last, { clock with last })

def sendWall (clock : HlcClock) (nowMs : UInt64) : UInt64 := max clock.last.wallMs nowMs

/-- The counter that `send` increments. -/
def sendCounter (clock : HlcClock) (nowMs : UInt64) : Option UInt32 :=
  if clock.sendWall nowMs = clock.last.wallMs then some clock.last.logical else none

def send (clock : HlcClock) (nowMs : UInt64) : HlcTimestamp × HlcClock :=
  clock.stamp (nextReading (clock.sendWall nowMs) (clock.sendCounter nowMs))

def receiveWall (clock : HlcClock) (nowMs : UInt64) (observed : HlcTimestamp) : UInt64 :=
  max (max clock.last.wallMs observed.wallMs) nowMs

/-- The counter that `receive` increments. -/
def receiveCounter (clock : HlcClock) (nowMs : UInt64) (observed : HlcTimestamp) :
    Option UInt32 :=
  let newWall := clock.receiveWall nowMs observed
  if newWall = clock.last.wallMs ∧ newWall = observed.wallMs then
    some (max clock.last.logical observed.logical)
  else if newWall = clock.last.wallMs then some clock.last.logical
  else if newWall = observed.wallMs then some observed.logical
  else none

/-- The peer's clock is further ahead of `nowMs` than allowed. -/
def skewExceeded (clock : HlcClock) (nowMs : UInt64) (observed : HlcTimestamp) : Bool :=
  observed.wallMs > nowMs && observed.wallMs - nowMs > clock.maxClockSkewMs

def receive (clock : HlcClock) (nowMs : UInt64) (observed : HlcTimestamp) :
    Except HlcError HlcTimestamp × HlcClock :=
  if clock.skewExceeded nowMs observed then
    (.error (.clockSkewExceeded observed.wallMs nowMs clock.maxClockSkewMs), clock)
  else
    let (timestamp, clock') := clock.stamp
      (nextReading (clock.receiveWall nowMs observed) (clock.receiveCounter nowMs observed))
    (.ok timestamp, clock')

/-- The counter takes account of `t`: its millisecond is over, or it is counted. -/
def Counts (newWall : UInt64) (counter : Option UInt32) (t : HlcTimestamp) : Prop :=
  t.wallMs < newWall ∨ t.wallMs = newWall ∧ ∃ l ∈ counter, t.logical ≤ l

theorem checkedSucc_cases (logical : UInt32) :
    (∃ l, checkedSucc logical = some l ∧ l.toNat = logical.toNat + 1) ∨ checkedSucc logical = none := by
  unfold checkedSucc
  split
  · next room =>
    refine .inl ⟨logical + 1, rfl, ?_⟩
    rw [UInt32.toNat_add]
    exact Nat.mod_eq_of_lt room
  · exact .inr rfl

theorem toNat_succ_le (w : UInt64) : (w + 1).toNat ≤ w.toNat + 1 := by
  rw [UInt64.toNat_add]
  exact Nat.mod_le _ _

theorem toNat_succ_of_lt {w : UInt64} (below : w.toNat + 1 < UInt64.size) :
    (w + 1).toNat = w.toNat + 1 := by
  rw [UInt64.toNat_add]
  exact Nat.mod_eq_of_lt below

theorem nextReading_gt {newWall : UInt64} {counter : Option UInt32} {t : HlcTimestamp}
    (node : FixedBytes 8) (counts : Counts newWall counter t) (below : newWall.toNat + 1 < UInt64.size) :
    t.pair < HlcTimestamp.pair
      ⟨(nextReading newWall counter).1, (nextReading newWall counter).2, node⟩ := by
  have carried := toNat_succ_of_lt below
  rw [HlcTimestamp.pair_lt]
  rcases counts with earlier | ⟨same, l, known, le⟩
  · -- An earlier millisecond: the wall clock decides, carried or not.
    rw [UInt64.lt_iff_toNat_lt] at earlier
    left
    rcases counter with _ | l
    · exact earlier
    · rcases checkedSucc_cases l with ⟨l', next, -⟩ | next
      · simpa [nextReading, next] using earlier
      · simp only [nextReading, next]
        omega
  · rw [Option.mem_def] at known
    subst known same
    rw [UInt32.le_iff_toNat_le] at le
    rcases checkedSucc_cases l with ⟨l', next, step⟩ | next
    · -- The same millisecond: the counter has moved past `t`.
      refine .inr ⟨?_, ?_⟩ <;> simp only [nextReading, next]
      omega
    · -- The counter is exhausted, so the wall clock is carried.
      simp only [nextReading, next]
      omega

def exhausted (counter : Option UInt32) : Bool :=
  match counter with
  | none => false
  | some logical => (checkedSucc logical).isNone

theorem nextReading_wall_le (newWall : UInt64) (counter : Option UInt32) :
    (nextReading newWall counter).1.toNat ≤ newWall.toNat + (exhausted counter).toNat := by
  rcases counter with _ | l
  · simp [nextReading, exhausted]
  · rcases checkedSucc_cases l with ⟨l', next, -⟩ | next
    · simp [nextReading, exhausted, next]
    · simpa [nextReading, exhausted, next] using toNat_succ_le newWall

theorem sendWall_toNat (clock : HlcClock) (nowMs : UInt64) :
    (clock.sendWall nowMs).toNat = max clock.last.wallMs.toNat nowMs.toNat := by
  simp only [sendWall, UInt64.toNat_max]

theorem receiveWall_toNat (clock : HlcClock) (nowMs : UInt64) (observed : HlcTimestamp) :
    (clock.receiveWall nowMs observed).toNat =
      max (max clock.last.wallMs.toNat observed.wallMs.toNat) nowMs.toNat := by
  simp only [receiveWall, UInt64.toNat_max]

end HlcClock

end Stoa
