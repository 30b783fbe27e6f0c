import Stoa.Core.GroupLog.Storage

/-! `reconcile` compares the local log with a remote's tips. -/
namespace Stoa

open List
def maxHave : Nat := 1000

def maxBfsVisits : Nat := 5000

structure ReconcileResult where
  want : List LogEntryId
  «have» : List LogEntryId
  partialHave : Bool
  deriving DecidableEq

variable {S : Type} [LogStorage S]

def wantedTips : List LogEntryId → Prog S StorageError (List LogEntryId)
  | [] => pure []
  | tipId :: rest => do
    let present ← LogStorage.hasEntry tipId
    let want ← wantedTips rest
    return if present then want else tipId :: want

/-- The offers once `entryId` is visited. -/
def offer (remoteSet offers : List LogEntryId) (entryId : LogEntryId) : List LogEntryId :=
  if entryId ∈ remoteSet then offers else offers ++ [entryId]

/-- The search from the local tips: what it offers, and whether it was cut short. -/
def haveLoop (remoteSet visited queue : List LogEntryId) (visits : Nat)
    (offers : List LogEntryId) : Prog S StorageError (List LogEntryId × Bool) :=
  match queue with
  | [] => pure (offers, false)
  | entryId :: queue =>
    if entryId ∈ visited then haveLoop remoteSet visited queue visits offers
    else if _cut : maxBfsVisits ≤ visits + 1 then pure (offers, true)
    -- The number of offers is looked at only where one is added.
    else if entryId ∉ remoteSet ∧ maxHave ≤ (offer remoteSet offers entryId).length then
      pure (offer remoteSet offers entryId, !queue.isEmpty)
    else do
      let parentCids ← LogStorage.getParentCids entryId
      haveLoop remoteSet (entryId :: visited)
        (queue ++ (parentCids.getD []).filterMap LogEntryId.ofCid) (visits + 1)
        (offer remoteSet offers entryId)
termination_by (maxBfsVisits - visits, queue.length)
decreasing_by
  · exact Prod.Lex.right _ (Nat.lt_succ_self _)
  · exact Prod.Lex.left _ _ (by omega)

def reconcile (group : GroupName) (remoteTips : List LogEntryId) :
    Prog S StorageError ReconcileResult := do
  let want ← wantedTips remoteTips
  let tips ← LogStorage.listTips group
  let (offers, partialHave) ← haveLoop remoteTips [] tips 0 []
  return ⟨want, offers, partialHave⟩

section Spec

variable [LawfulLogStorage S]

open LawfulLogStorage

theorem wantedTips_outcome (remoteTips : List LogEntryId) (s : S) :
    Prog.Satisfies (wantedTips remoteTips) s (ReadOutcome log Healthy s
      (· = remoteTips.filter fun tip => decide (¬(log s).Stored tip))) := by
  induction remoteTips generalizing s with
  | nil => exact read_pure rfl
  | cons tip rest ih =>
    apply read_bind (hasEntry_outcome s tip)
    intro present s₁ view₁ found
    apply read_bind (ih s₁)
    rintro want s₂ view₂ rfl
    apply read_pure
    rw [view₁]
    cases present with
    | true => simp [found.mp rfl]
    | false =>
      have absent : ¬(log s).Stored tip := fun stored => absurd (found.mpr stored) (by decide)
      simp [absent]

variable {remoteSet offers : List LogEntryId}

variable {entryId : LogEntryId}

theorem mem_offer {x : LogEntryId} :
    x ∈ offer remoteSet offers entryId ↔ x ∈ offers ∨ x = entryId ∧ entryId ∉ remoteSet := by
  unfold offer
  split
  · rename_i known
    exact ⟨Or.inl, fun h => h.resolve_right fun new => new.2 known⟩
  · rename_i new
    rw [mem_append, mem_singleton, and_iff_left new]

theorem length_offer_le (remoteSet offers : List LogEntryId) (entryId : LogEntryId) :
    (offer remoteSet offers entryId).length ≤ offers.length + 1 := by
  unfold offer
  split
  · exact Nat.le_succ _
  · exact Nat.le_of_eq length_append

/-- The bounds leave room to offer `tips`, and what was visited is offered already. -/
structure RoomFor (remoteSet visited tips : List LogEntryId) (visits : Nat)
    (offers : List LogEntryId) : Prop where
  offered : ∀ x ∈ visited, x ∉ remoteSet → x ∈ offers
  offers_le : offers.length + tips.length ≤ maxHave
  visits_le : visits + tips.length ≤ maxHave

variable {visited : List LogEntryId}

variable {visits : Nat}

theorem RoomFor.skip {tips : List LogEntryId} {tip : LogEntryId}
    (room : RoomFor remoteSet visited (tip :: tips) visits offers) :
    RoomFor remoteSet visited tips visits offers :=
  ⟨room.offered, Nat.le_of_succ_le room.offers_le, Nat.le_of_succ_le room.visits_le⟩

theorem RoomFor.visit {tips : List LogEntryId} {tip : LogEntryId}
    (room : RoomFor remoteSet visited (tip :: tips) visits offers) :
    RoomFor remoteSet (tip :: visited) tips (visits + 1) (offer remoteSet offers tip) where
  offered x seen new := by
    rw [mem_offer]
    rcases mem_cons.mp seen with rfl | before
    · exact Or.inr ⟨rfl, new⟩
    · exact Or.inl (room.offered x before new)
  offers_le := by
    have grown := length_offer_le remoteSet offers tip
    have bound : offers.length + (tips.length + 1) ≤ maxHave := room.offers_le
    omega
  visits_le := by
    have bound : visits + (tips.length + 1) ≤ maxHave := room.visits_le
    omega

/-- What a search from `queue` returns: the offers so far, and every tip at the front of the queue
that the remote does not name. -/
structure Offered (remoteSet visited queue : List LogEntryId) (visits : Nat)
    (offers : List LogEntryId) (result : List LogEntryId × Bool) : Prop where
  kept : ∀ x ∈ offers, x ∈ result.1
  tips : ∀ tips, tips <+: queue → RoomFor remoteSet visited tips visits offers →
    ∀ x ∈ tips, x ∉ remoteSet → x ∈ result.1

variable {queue : List LogEntryId}

variable {result : List LogEntryId × Bool}

theorem Offered.skip
    (seen : entryId ∈ visited) (rest : Offered remoteSet visited queue visits offers result) :
    Offered remoteSet visited (entryId :: queue) visits offers result where
  kept := rest.kept
  tips tips front room x tip new := by
    rcases prefix_cons_iff.mp front with rfl | ⟨tips', rfl, front'⟩
    · exact absurd tip not_mem_nil
    rcases mem_cons.mp tip with rfl | tip
    · exact rest.kept x (room.offered x seen new)
    · exact rest.tips tips' front' room.skip x tip new

theorem Offered.visit {later : List LogEntryId}
    (rest : Offered remoteSet (entryId :: visited) (queue ++ later) (visits + 1)
      (offer remoteSet offers entryId) result) :
    Offered remoteSet visited (entryId :: queue) visits offers result where
  kept x h := rest.kept x (mem_offer.mpr (Or.inl h))
  tips tips front room x tip new := by
    rcases prefix_cons_iff.mp front with rfl | ⟨tips', rfl, front'⟩
    · exact absurd tip not_mem_nil
    rcases mem_cons.mp tip with rfl | tip
    · exact rest.kept x (mem_offer.mpr (Or.inr ⟨rfl, new⟩))
    · exact rest.tips tips' (front'.trans (prefix_append queue later)) room.visit x tip new

theorem Offered.cut {partialHave : Bool} (cut : maxBfsVisits ≤ visits + 1) :
    Offered remoteSet visited queue visits offers (offers, partialHave) where
  kept x h := h
  tips tips front room x tip new := by
    have some_tip := length_pos_of_mem tip
    have bound := room.visits_le
    simp only [maxBfsVisits, maxHave] at cut bound
    omega

theorem Offered.full {partialHave : Bool} (full : maxHave ≤ (offer remoteSet offers entryId).length) :
    Offered remoteSet visited (entryId :: queue) visits offers
      (offer remoteSet offers entryId, partialHave) where
  kept x h := mem_offer.mpr (Or.inl h)
  tips tips front room x tip new := by
    rcases prefix_cons_iff.mp front with rfl | ⟨tips', rfl, front'⟩
    · exact absurd tip not_mem_nil
    have bound := room.visit.offers_le
    have last : tips' = [] := length_eq_zero_iff.mp (by omega)
    subst last
    obtain rfl := mem_singleton.mp tip
    exact mem_offer.mpr (Or.inr ⟨rfl, new⟩)

theorem haveLoop_outcome (remoteSet visited queue : List LogEntryId) (visits : Nat)
    (offers : List LogEntryId) (s : S) : Prog.Satisfies (haveLoop remoteSet visited queue visits offers) s
      (ReadOutcome log Healthy s (Offered remoteSet visited queue visits offers)) := by
  unfold haveLoop
  match queue with
  | [] =>
    refine read_pure ⟨fun _ h => h, fun tips front _ x tip _ => ?_⟩
    exact absurd (front.mem tip) not_mem_nil
  | entryId :: queue =>
    dsimp only
    split
    · rename_i seen
      exact read_imp (haveLoop_outcome remoteSet visited queue visits offers s)
        fun _ => Offered.skip seen
    split
    · rename_i cut
      exact read_pure (Offered.cut cut)
    split
    · rename_i full
      exact read_pure (Offered.full full.2)
    · apply read_bind (getParentCids_outcome s entryId)
      intro parents s₁ _ _
      exact read_imp (haveLoop_outcome remoteSet (entryId :: visited) _ (visits + 1) _ s₁)
        fun _ => Offered.visit
termination_by (maxBfsVisits - visits, queue.length)
decreasing_by
  · exact Prod.Lex.left _ _ (by omega)
  · exact Prod.Lex.right _ (Nat.lt_succ_self _)

/-- The result of reconciling with `remoteTips` in a state with the view `v`. -/
structure Reconciled (v : LogView) (group : GroupName) (remoteTips : List LogEntryId)
    (result : ReconcileResult) : Prop where
  want_eq : result.want = remoteTips.filter fun tip => decide (¬v.Stored tip)
  offered : (v.tips group).length ≤ maxHave → ∀ x ∈ v.tips group, x ∉ remoteTips → x ∈ result.have

theorem reconcile_outcome (group : GroupName) (remoteTips : List LogEntryId) (s : S) :
    Prog.Satisfies (reconcile group remoteTips) s
      (ReadOutcome log Healthy s (Reconciled (log s) group remoteTips)) := by
  apply read_bind (wantedTips_outcome remoteTips s)
  intro want s₁ view₁ want_eq
  apply read_bind (listTips_outcome s₁ group)
  rintro tips s₂ view₂ rfl
  apply read_bind (haveLoop_outcome remoteTips [] _ 0 [] s₂)
  intro result s₃ view₃ offered
  refine read_pure ⟨want_eq, fun few x tip new => ?_⟩
  rw [view₁] at offered
  refine offered.tips _ prefix_rfl ⟨nofun, ?_, ?_⟩ x tip new
  · exact (Nat.zero_add _).trans_le few
  · exact (Nat.zero_add _).trans_le few

end Spec

end Stoa
