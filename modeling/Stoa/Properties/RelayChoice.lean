import Mathlib.Data.List.Rotate
import Stoa.Lib.Runs

/-! `choices_rotate`: as long as the eligible peers stay the same, calls of `select_peer` go round them
in the order of the peer list. -/
namespace Stoa.RelayHealth

open List

structure PeerStatus where
  isUp : Bool
  lastSuccess : Option Nat
  lastFailure : Option Nat
  attemptCount : Nat
  successCount : Nat
  failureCount : Nat

structure PeerHealthState (C : Type) where
  peers : List (C × PeerStatus)
  rrIndex : Nat
  downBackoff : Nat

namespace PeerHealthState

variable {C : Type}

def new (peers : List C) (downBackoff : Nat) : PeerHealthState C :=
  ⟨peers.map (·, ⟨true, none, none, 0, 0, 0⟩), 0, downBackoff⟩

def update (s : PeerHealthState C) (idx : Nat) (f : PeerStatus → PeerStatus) : PeerHealthState C :=
  { s with peers := s.peers.modify idx fun (cfg, status) => (cfg, f status) }

def markUp (now idx : Nat) (s : PeerHealthState C) : PeerHealthState C :=
  s.update idx fun status =>
    { status with isUp := true, lastSuccess := some now, successCount := status.successCount + 1 }

def markDown (now idx : Nat) (s : PeerHealthState C) : PeerHealthState C :=
  s.update idx fun status =>
    { status with isUp := false, lastFailure := some now, failureCount := status.failureCount + 1 }

def eligible (now : Nat) (s : PeerHealthState C) : List Nat :=
  (range s.peers.length).filter fun i => s.peers[i]?.any fun (_, status) =>
    status.isUp || status.lastFailure.isNone ||
      status.lastFailure.any fun t => now - t ≥ s.downBackoff

def selectPeer (now : Nat) (s : PeerHealthState C) : Option (Nat × C) × PeerHealthState C :=
  match eligible now s with
  | [] => (none, s)
  | first :: others =>
    let n := s.peers.length
    let start := s.rrIndex % n
    let chosen := ((first :: others).find? (start ≤ ·)).getD first
    (s.peers[chosen]?.map fun (cfg, _) => (chosen, cfg),
      { s with rrIndex := (chosen + 1) % n }.update chosen fun status =>
        { status with attemptCount := status.attemptCount + 1 })

variable {now : Nat} {s : PeerHealthState C} {es times : List Nat}

theorem pairwise_eligible (now : Nat) (s : PeerHealthState C) : (eligible now s).Pairwise (· < ·) :=
  pairwise_lt_range.filter _

theorem countP_later {e bound : Nat} (later : ∀ e' ∈ es, e < e') (le : bound ≤ e + 1) :
    es.countP (· < bound) = 0 := by
  rw [countP_eq_zero]
  intro e' mem
  have := later e' mem
  simp
  omega

theorem find?_sorted (sorted : es.Pairwise (· < ·)) (start : Nat) :
    es.find? (start ≤ ·) = es[es.countP (· < start)]? := by
  induction es with
  | nil => rfl
  | cons e es ih =>
    rw [pairwise_cons] at sorted
    by_cases small : e < start
    · simp [small, Nat.not_le.mpr small, ih sorted.2]
    · have later := countP_later sorted.1 (Nat.le_succ_of_le (Nat.not_lt.mp small))
      simp [small, Nat.not_lt.mp small, later]

theorem countP_sorted (sorted : es.Pairwise (· < ·)) {k e : Nat} (at_ : es[k]? = some e) :
    es.countP (· < e + 1) = k + 1 := by
  induction es generalizing k with
  | nil => cases at_
  | cons first es ih =>
    rw [pairwise_cons] at sorted
    cases k with
    | zero =>
      obtain rfl : first = e := by simpa using at_
      rw [countP_cons, countP_later sorted.1 (Nat.le_refl _), if_pos (decide_eq_true first.lt_succ_self)]
    | succ k =>
      rw [getElem?_cons_succ] at at_
      have less := sorted.1 e (mem_of_getElem? at_)
      rw [countP_cons, ih sorted.2 at_, if_pos (decide_eq_true (Nat.lt_succ_of_lt less))]

/-- How many of the peers stand before the cursor. -/
def turn (es : List Nat) (s : PeerHealthState C) : Nat := es.countP (· < s.rrIndex % s.peers.length)

theorem find?_turn {first : Nat} (sorted : es.Pairwise (· < ·)) (head : es.head? = some first)
    (start : Nat) : es[es.countP (· < start) % es.length]? = some ((es.find? (start ≤ ·)).getD first) := by
  have le := @countP_le_length _ (· < start) es
  rw [find?_sorted sorted]
  rcases Nat.lt_or_eq_of_le le with less | all
  · simp [Nat.mod_eq_of_lt less, less]
  · simp [all, ← head, head?_eq_getElem?]

theorem selectPeer_turn (same : eligible now s = es) (present : es ≠ []) :
    (selectPeer now s).1.map Prod.fst = es[turn es s % es.length]? ∧
      turn es (selectPeer now s).2 % es.length = (turn es s + 1) % es.length := by
  have sorted : es.Pairwise (· < ·) := same ▸ pairwise_eligible now s
  have below (i : Nat) (mem : i ∈ es) : i < s.peers.length :=
    mem_range.mp (mem_of_mem_filter (same ▸ mem))
  obtain ⟨first, others, rfl⟩ := exists_cons_of_ne_nil present
  generalize shape : first :: others = es at *
  have found := find?_turn sorted (by rw [← shape]; rfl) (s.rrIndex % s.peers.length)
  unfold selectPeer
  rw [same, ← shape]
  dsimp only
  rw [shape]
  generalize (es.find? _).getD first = chosen at found ⊢
  have bound := below chosen (mem_of_getElem? found)
  have count := countP_sorted sorted found
  refine ⟨?_, ?_⟩
  · simp [turn, found, bound]
  simp only [turn, update, length_modify, Nat.mod_mod]
  rw [← Nat.mod_add_mod (countP _ es), ← count]
  rcases Nat.lt_or_eq_of_le (show chosen + 1 ≤ s.peers.length from bound) with inside | last
  · rw [Nat.mod_eq_of_lt inside]
  · -- The cursor starts again, and all of the peers stand before its old end.
    have whole : es.countP (· < chosen + 1) = es.length := by
      rw [countP_eq_length]
      intro i mem
      have := below i mem
      simp
      omega
    have none : es.countP (· < 0) = 0 := countP_eq_zero.mpr (by simp)
    rw [← last, whole, Nat.mod_self, none, Nat.mod_self, Nat.zero_mod]

/-- What calls at these times choose. -/
def choices (times : List Nat) (s : PeerHealthState C) : List (Option Nat) :=
  (runAll selectPeer times s).1.map (·.map Prod.fst)

theorem choices_eq (same : AlongRun selectPeer (fun now s => eligible now s = es) times s)
    (present : es ≠ []) :
    choices times s = (range times.length).map fun i => es[(turn es s + i) % es.length]? := by
  induction times generalizing s with
  | nil => rfl
  | cons now times ih =>
    obtain ⟨here, later⟩ := same
    obtain ⟨chosen, next⟩ := selectPeer_turn here present
    have rest := ih later
    simp only [choices, runAll_cons, map_cons, length_cons, range_succ_eq_map, map_map] at rest ⊢
    rw [rest, chosen]
    congr 1
    apply map_congr_left
    intro i _
    rw [Function.comp_apply, ← Nat.mod_add_mod, next, Nat.mod_add_mod, Nat.succ_eq_add_one]
    congr 2
    omega

/-- The eligible peers are listed in the order of the peer list. -/
theorem choices_rotate (same : AlongRun selectPeer (fun now s => eligible now s = es) times s)
    (present : es ≠ []) (round : times.length = es.length) :
    es.Pairwise (· < ·) ∧ ∃ j, choices times s = (es.rotate j).map some := by
  constructor
  · cases times with
    | nil => exact absurd (length_eq_zero_iff.mp round.symm) present
    | cons now times => exact same.1 ▸ pairwise_eligible now s
  · refine ⟨turn es s, ?_⟩
    rw [choices_eq same present, round]
    apply ext_getElem
    · simp
    · intro i _ _
      simp [getElem_rotate, Nat.add_comm]

namespace Sample

/-- The second peer of three is down until its backoff ends at 70. -/
def peers : PeerHealthState Nat := markDown 10 1 (.new [0, 1, 2] 60)

theorem choices_of_two : AlongRun selectPeer (fun now s => eligible now s = [0, 2]) [11, 12] peers ∧
    ∃ j, choices [11, 12] peers = ([0, 2].rotate j).map some :=
  ⟨by decide, (@choices_rotate _ peers [0, 2] [11, 12] (by decide) (by decide) rfl).2⟩

end Sample

end PeerHealthState

end Stoa.RelayHealth
