import Stoa.Core.Hlc
import Stoa.Lib.Runs

/-! The clock under any sequence of local and peer readings. -/
namespace Stoa

open List
inductive ClockOp where
  | send (nowMs : UInt64)
  | receive (nowMs : UInt64) (observed : HlcTimestamp)
  deriving DecidableEq

/-- What happens to a clock in its life: calls, and restarts of its node. -/
inductive ClockEvent where
  | call (op : ClockOp)
  | restart (nodeId : FixedBytes 8) (nowMs : UInt64)
  deriving DecidableEq

namespace ClockOp

def nowMs : ClockOp → UInt64
  | send nowMs => nowMs
  | receive nowMs _ => nowMs

def walls : ClockOp → List UInt64
  | send nowMs => [nowMs]
  | receive nowMs observed => [nowMs, observed.wallMs]

end ClockOp

namespace HlcClock

def perform : ClockOp → HlcClock → Except HlcError HlcTimestamp × HlcClock
  | .send nowMs, clock => let (t, clock') := clock.send nowMs; (.ok t, clock')
  | .receive nowMs observed, clock => clock.receive nowMs observed

/-- The timestamp of a successful call, and the clock afterwards. A restart persists the
last timestamp and seeds the new clock from it. -/
def undergo : ClockEvent → HlcClock → Option HlcTimestamp × HlcClock
  | .call op, clock => let (answer, clock') := clock.perform op; (answer.toOption, clock')
  | .restart nodeId nowMs, clock => (none, newSeeded nodeId nowMs clock.lastTimestamp)

def overflows : ClockOp → HlcClock → Bool
  | .send nowMs, clock => exhausted (clock.sendCounter nowMs)
  | .receive nowMs observed, clock =>
    !clock.skewExceeded nowMs observed && exhausted (clock.receiveCounter nowMs observed)

/-- The number of calls in the run that exhaust the logical counter. -/
def overflowCount : List ClockOp → HlcClock → ℕ
  | [], _ => 0
  | op :: ops, clock => (clock.overflows op).toNat + overflowCount ops (clock.perform op).2

theorem perform_receive_error {clock : HlcClock} {nowMs : UInt64} {observed : HlcTimestamp}
    {e : HlcError} (failed : (clock.receive nowMs observed).1 = .error e) :
    (clock.receive nowMs observed).2 = clock := by
  unfold receive at failed ⊢
  split
  · rfl
  · next admitted => simp [admitted] at failed

def floor : ClockOp → HlcClock → List HlcTimestamp
  | .send _, clock => [clock.last]
  | .receive _ observed, clock => [clock.last, observed]

/-- No wall clock that the call sees is the last one of `u64`. -/
def BelowMax (op : ClockOp) (clock : HlcClock) : Prop :=
  ∀ w ∈ clock.last.wallMs :: op.walls, w.toNat + 1 < UInt64.size

instance (op : ClockOp) (clock : HlcClock) : Decidable (BelowMax op clock) :=
  List.decidableBAll (fun w : UInt64 => w.toNat + 1 < UInt64.size) _

theorem sendCounter_counts (clock : HlcClock) (nowMs : UInt64) :
    Counts (clock.sendWall nowMs) (clock.sendCounter nowMs) clock.last := by
  have wall := clock.sendWall_toNat nowMs
  unfold Counts sendCounter
  split
  · next same => exact .inr ⟨same.symm, clock.last.logical, rfl, UInt32.le_refl _⟩
  · next differ =>
    rw [← UInt64.toNat_inj] at differ
    rw [UInt64.lt_iff_toNat_lt]
    omega

theorem receiveCounter_counts (clock : HlcClock) (nowMs : UInt64) (observed : HlcTimestamp) :
    Counts (clock.receiveWall nowMs observed) (clock.receiveCounter nowMs observed) clock.last ∧
      Counts (clock.receiveWall nowMs observed) (clock.receiveCounter nowMs observed) observed := by
  have wall := clock.receiveWall_toNat nowMs observed
  have earlier : ∀ t : HlcTimestamp, clock.receiveWall nowMs observed ≠ t.wallMs →
      t.wallMs.toNat ≤ (clock.receiveWall nowMs observed).toNat →
      t.wallMs < clock.receiveWall nowMs observed := by
    intro t differ le
    rw [ne_eq, ← UInt64.toNat_inj] at differ
    rw [UInt64.lt_iff_toNat_lt]
    omega
  unfold Counts receiveCounter
  dsimp only
  -- The four branches: which of the two timestamps is of the new millisecond.
  split
  · next both =>
    refine ⟨.inr ⟨both.1.symm, _, rfl, ?_⟩, .inr ⟨both.2.symm, _, rfl, ?_⟩⟩ <;>
      rw [UInt32.le_iff_toNat_le, UInt32.toNat_max] <;> omega
  · next notBoth =>
    split
    · next own =>
      have differ : clock.receiveWall nowMs observed ≠ observed.wallMs := fun same =>
        notBoth ⟨own, same⟩
      exact ⟨.inr ⟨own.symm, _, rfl, UInt32.le_refl _⟩, .inl (earlier observed differ (by omega))⟩
    · next notOwn =>
      refine ⟨.inl (earlier clock.last notOwn (by omega)), ?_⟩
      split
      · next peer => exact .inr ⟨peer.symm, _, rfl, UInt32.le_refl _⟩
      · next notPeer => exact .inl (earlier observed notPeer (by omega))

theorem perform_ok {op : ClockOp} {clock : HlcClock} {t : HlcTimestamp}
    (below : BelowMax op clock) (returned : (clock.perform op).1 = .ok t) :
    (clock.perform op).2.last = t ∧ ∀ u ∈ floor op clock, u.pair < t.pair := by
  cases op with
  | send nowMs =>
    simp only [BelowMax, ClockOp.walls, forall_mem_cons] at below
    have wall := clock.sendWall_toNat nowMs
    have room : (clock.sendWall nowMs).toNat + 1 < UInt64.size := by omega
    simp only [perform, send, stamp, Except.ok.injEq] at returned
    subst returned
    refine ⟨rfl, ?_⟩
    simp only [floor, forall_mem_cons, not_mem_nil, false_implies, implies_true, and_true]
    exact nextReading_gt _ (clock.sendCounter_counts nowMs) room
  | receive nowMs observed =>
    simp only [BelowMax, ClockOp.walls, forall_mem_cons] at below
    have wall := clock.receiveWall_toNat nowMs observed
    have room : (clock.receiveWall nowMs observed).toNat + 1 < UInt64.size := by omega
    obtain ⟨countsLast, countsPeer⟩ := clock.receiveCounter_counts nowMs observed
    simp only [perform, receive] at returned ⊢
    split at returned
    · cases returned
    · next admitted =>
      simp only [stamp, Except.ok.injEq] at returned
      subst returned
      refine ⟨by simp [admitted, stamp], ?_⟩
      simp only [floor, forall_mem_cons, not_mem_nil, false_implies, implies_true,
        and_true]
      exact ⟨nextReading_gt _ countsLast room, nextReading_gt _ countsPeer room⟩

theorem perform_error {op : ClockOp} {clock : HlcClock} {e : HlcError}
    (failed : (clock.perform op).1 = .error e) : (clock.perform op).2 = clock := by
  cases op with
  | send nowMs => simp [perform] at failed
  | receive nowMs observed => exact perform_receive_error failed

/-- The last wall clock of `u64` is not reached: no call finds it in the clock, and none
brings it along. -/
def StaysBelowMax : ClockEvent → HlcClock → Prop
  | .call op, clock => BelowMax op clock
  | .restart _ _, _ => True

instance : ∀ event clock, Decidable (StaysBelowMax event clock)
  | .call op, clock => inferInstanceAs (Decidable (BelowMax op clock))
  | .restart _ _, _ => isTrue trivial

theorem newSeeded_ge (nodeId : FixedBytes 8) (nowMs : UInt64) (checkpoint : HlcTimestamp) :
    checkpoint.pair ≤ (newSeeded nodeId nowMs checkpoint).last.pair := by
  unfold newSeeded
  split
  · exact le_rfl
  · next behind =>
    apply le_of_lt
    rw [HlcTimestamp.pair_lt]
    exact .inl (by simpa [UInt64.le_iff_toNat_le] using behind)

theorem undergo_climbs (event : ClockEvent) (clock : HlcClock) (below : StaysBelowMax event clock) :
    Climb (fun c : HlcClock => c.last.pair) (Option.map HlcTimestamp.pair) clock (clock.undergo event) := by
  cases event with
  | restart nodeId nowMs =>
    exact ⟨newSeeded_ge nodeId nowMs clock.last, by simp [undergo]⟩
  | call op =>
    cases answer : (clock.perform op).1 with
    | error e =>
      refine ⟨?_, by simp [undergo, answer, Except.toOption]⟩
      simp [undergo, perform_error answer]
    | ok t =>
      obtain ⟨last, above⟩ := perform_ok below answer
      have later : clock.last.pair < t.pair := above _ (by cases op <;> simp [floor])
      refine ⟨?_, ?_⟩
      · simpa [undergo, last] using later.le
      · simpa [undergo, answer, Except.toOption, last] using later

def ExceedsPeer : ClockEvent → Option HlcTimestamp → Prop
  | .call (.receive _ observed), some t => observed.pair < t.pair
  | _, _ => True

theorem undergo_exceedsPeer (event : ClockEvent) (clock : HlcClock)
    (below : StaysBelowMax event clock) : ExceedsPeer event (clock.undergo event).1 := by
  match event with
  | .restart _ _ => simp [ExceedsPeer]
  | .call (.send _) => simp [ExceedsPeer]
  | .call (.receive nowMs observed) =>
    cases answer : (clock.perform (.receive nowMs observed)).1 with
    | error e => simp [undergo, answer, Except.toOption, ExceedsPeer]
    | ok t =>
      obtain ⟨-, above⟩ := perform_ok below answer
      simpa [undergo, answer, Except.toOption, ExceedsPeer] using above observed (by simp [floor])

/-- The timestamps of a clock are strictly increasing over calls and restarts in any
order, and those given on receipt are later than the peer's. -/
theorem timestamps_strictly_increase (clock : HlcClock) (events : List ClockEvent)
    (below : AlongRun undergo StaysBelowMax events clock) :
    ((runAll undergo events clock).1.filterMap (Option.map HlcTimestamp.pair)).Pairwise (· < ·) ∧
      ∀ call ∈ events.zip (runAll undergo events clock).1, ExceedsPeer call.1 call.2 :=
  ⟨(marks_increasing undergo_climbs below).1, runAll_zip undergo_exceedsPeer below⟩

/-- A node at `5000` hears from a peer at the edge of the skew with an exhausted counter,
then restarts with its wall clock set back. -/
def restartedRun : List ClockEvent :=
  [.call (.send 5000), .call (.receive 4990 ⟨9990, 4294967295, FixedBytes.fill 8 2⟩),
    .restart (FixedBytes.fill 8 3) 100, .call (.send 200),
    .call (.receive 300 ⟨5400, 0, FixedBytes.fill 8 2⟩)]

theorem restarted_timestamps_increase :
    let clock := new (FixedBytes.fill 8 1) 5000
    AlongRun undergo StaysBelowMax restartedRun clock ∧
      ((runAll undergo restartedRun clock).1.filterMap
        (Option.map HlcTimestamp.pair)).Pairwise (· < ·) ∧
      ∀ call ∈ restartedRun.zip (runAll undergo restartedRun clock).1,
        ExceedsPeer call.1 call.2 :=
  ⟨by decide +kernel, timestamps_strictly_increase _ restartedRun (by decide +kernel)⟩

@[simp] theorem perform_maxClockSkewMs (clock : HlcClock) (op : ClockOp) :
    (clock.perform op).2.maxClockSkewMs = clock.maxClockSkewMs := by
  cases op with
  | send nowMs => rfl
  | receive nowMs observed =>
    simp only [perform, receive]
    split <;> rfl

theorem observed_le_of_admitted {clock : HlcClock} {nowMs : UInt64} {observed : HlcTimestamp}
    (admitted : ¬ clock.skewExceeded nowMs observed) :
    observed.wallMs.toNat ≤ nowMs.toNat + clock.maxClockSkewMs.toNat := by
  simp only [skewExceeded, Bool.and_eq_true, decide_eq_true_eq, not_and, gt_iff_lt,
    UInt64.lt_iff_toNat_lt] at admitted
  by_cases ahead : nowMs.toNat < observed.wallMs.toNat
  · have within := admitted ahead
    rw [UInt64.toNat_sub_of_le _ _ (UInt64.le_iff_toNat_le.mpr ahead.le)] at within
    omega
  · omega

/-- One call moves the wall clock to `nowMs` plus the skew at most, and one further if the
counter is exhausted. -/
theorem perform_wall_le (clock : HlcClock) (op : ClockOp) : (clock.perform op).2.last.wallMs.toNat ≤
      max clock.last.wallMs.toNat (op.nowMs.toNat + clock.maxClockSkewMs.toNat) +
        (clock.overflows op).toNat := by
  cases op with
  | send nowMs =>
    have carried := nextReading_wall_le (clock.sendWall nowMs) (clock.sendCounter nowMs)
    have wall := clock.sendWall_toNat nowMs
    simp only [perform, send, stamp, overflows, ClockOp.nowMs]
    omega
  | receive nowMs observed =>
    simp only [perform, receive, overflows, ClockOp.nowMs]
    split
    · -- Refused: the clock is as it was.
      exact Nat.le_add_right_of_le (le_max_left _ _)
    · next admitted =>
      have carried := nextReading_wall_le (clock.receiveWall nowMs observed)
        (clock.receiveCounter nowMs observed)
      have wall := clock.receiveWall_toNat nowMs observed
      have peer := observed_le_of_admitted admitted
      simp only [stamp, admitted, Bool.not_false, Bool.true_and]
      omega

theorem runAll_wall_le (ops : List ClockOp) (clock : HlcClock) (highest carried : ℕ)
    (start : clock.last.wallMs.toNat ≤ highest + clock.maxClockSkewMs.toNat + carried) :
    (runAll perform ops clock).2.last.wallMs.toNat ≤
      (ops.map fun op => op.nowMs.toNat).foldl max highest + clock.maxClockSkewMs.toNat +
        (carried + overflowCount ops clock) := by
  induction ops generalizing clock highest carried with
  | nil => simpa [overflowCount] using start
  | cons op ops ih =>
    have step := clock.perform_wall_le op
    have rest := ih (clock.perform op).2 (max highest op.nowMs.toNat)
      (carried + (clock.overflows op).toNat) (by rw [perform_maxClockSkewMs]; omega)
    simp only [runAll_cons, map_cons, foldl_cons, overflowCount]
    rw [perform_maxClockSkewMs] at rest
    omega

/-- No sequence of peer timestamps brings the clock further ahead of the highest local
reading than the allowed skew, apart from one millisecond for each exhausted counter; a
timestamp that is refused leaves the clock as it was. -/
theorem clock_capture_bounded (clock : HlcClock) (ops : List ClockOp) :
    (runAll perform ops clock).2.last.wallMs.toNat ≤
        (ops.map fun op => op.nowMs.toNat).foldl max clock.last.wallMs.toNat +
          clock.maxClockSkewMs.toNat + overflowCount ops clock ∧
      ∀ nowMs observed e, ((runAll perform ops clock).2.receive nowMs observed).1 = .error e →
        ((runAll perform ops clock).2.receive nowMs observed).2 = (runAll perform ops clock).2 := by
  refine ⟨?_, fun nowMs observed e failed => perform_receive_error failed⟩
  have bounded := runAll_wall_le ops clock clock.last.wallMs.toNat 0 (by omega)
  omega

/-- A peer at the edge of the skew, twice with an exhausted counter, then one beyond it. -/
theorem hostile_peer_bounded :
    let clock := new (FixedBytes.fill 8 1) 5000
    let edge : HlcTimestamp := ⟨9000, 4294967295, FixedBytes.fill 8 2⟩
    let ops : List ClockOp := [.receive 4000 edge, .receive 4001 ⟨9001, 4294967295, edge.nodeId⟩]
    let final := (runAll perform ops clock).2
    final.last.wallMs.toNat ≤ 5000 + 5000 + 2 ∧ (final.receive 10 edge).2 = final := by
  intro clock edge ops final
  obtain ⟨bounded, kept⟩ := clock_capture_bounded clock ops
  have count : overflowCount ops clock = 2 := by decide
  rw [count] at bounded
  exact ⟨bounded, kept 10 edge (.clockSkewExceeded 9000 10 5000) (by decide)⟩

end HlcClock

end Stoa
