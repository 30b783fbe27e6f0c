import Stoa.Core.GroupLog.Calls
import Stoa.Core.GroupLog.MemStorage

/-! A backfill that returns has stored everything it was asked for exactly when the wanted entry was
new, or had all its ancestors to begin with. -/
namespace Stoa

open LawfulLogStorage LogView List MemLogStorage

section General

variable {ed : Ed25519}

variable {v : LogView}

theorem LogView.reaches_congr {w : LogView} (same : w.entry = v.entry) (a b : LogEntryId) :
    w.Reaches a b ↔ v.Reaches a b := by
  have edges : w.ParentEdge = v.ParentEdge := by
    funext x y
    simp only [ParentEdge, same]
  simp only [Reaches, edges]

theorem LogView.complete_congr {w : LogView} (same : w.entry = v.entry) (id : LogEntryId) :
    w.Complete id ↔ v.Complete id := by
  simp only [Complete, reaches_congr same, Stored, same]

variable {fetch : Fetch ed} {U : Set LogEntry}

theorem parentEdge_iff_of_serves
    (free : CollisionFree U) (signed : ∀ e ∈ U, e.operatorSignature.length = 64)
    (holds : v.HoldsFrom U) (served : ∀ id e, Serves fetch id e → e ∈ U) {a : LogEntryId}
    {e : LogEntry} (serves : Serves fetch a e) (stored : v.Stored a) (b : LogEntryId) :
    v.ParentEdge a b ↔ b ∈ parentIdsFromEntry e := by
  obtain ⟨e', found⟩ := stored_iff.mp stored
  obtain ⟨d, member, addressed, storedAs⟩ := holds a e' found
  have inU := served a e serves
  have parents := free.parents member inU (signed d member) (signed e inU)
    (addressed.trans serves.fromEntry.symm) b
  rw [← parents, ← storedAs.mem_parentIds]
  constructor
  · rintro ⟨e'', found', parent⟩
    rw [found] at found'
    cases found'
    exact parent
  · exact fun parent => ⟨e', found, parent⟩

variable {want : LogEntryId}

theorem Searched.complete {mid : LogView}
    {seen : List LogEntryId} (searched : Searched fetch v mid want seen)
    (free : CollisionFree U) (signed : ∀ e ∈ U, e.operatorSignature.length = 64)
    (holds : mid.HoldsFrom U) (served : ∀ id e, Serves fetch id e → e ∈ U) : mid.Complete want := by
  have closed : Graph.Closed mid.ParentEdge (· ∈ seen) := by
    intro a b member edge
    obtain ⟨e, serves, _, _, parents⟩ := searched.served a member
    exact parents b ((parentEdge_iff_of_serves free signed holds served serves edge.stored b).mp edge)
  intro a path
  obtain ⟨_, _, _, stored, _⟩ := searched.served a (closed.reach searched.start path)
  exact stored

theorem BackfilledTo.entry_eq {v' : LogView} {g : GroupName}
    (done : BackfilledTo fetch g want v v') (stored : v.Stored want) : v'.entry = v.entry := by
  cases done with
  | isTip _ _ same => rw [same]
  | promoted e _ _ advanced => exact advanced.entry_eq
  | fetched e mid seen absent _ _ _ => exact absurd stored (not_stored_iff.mpr absent)

theorem BackfilledTo.complete_iff {v' : LogView} {g : GroupName} (done : BackfilledTo fetch g want v v')
    (free : CollisionFree U) (signed : ∀ e ∈ U, e.operatorSignature.length = 64)
    (holds : v.HoldsFrom U) (served : ∀ id e, Serves fetch id e → e ∈ U) :
    v'.Complete want ↔ v.entry want = none ∨ v.Complete want := by
  by_cases stored : v.Stored want
  · have present : v.entry want ≠ none := fun absent => not_stored_iff.mpr absent stored
    rw [complete_congr (done.entry_eq stored)]
    exact ⟨Or.inr, fun h => h.resolve_left present⟩
  · refine iff_of_true ?_ (Or.inl (not_stored_iff.mp stored))
    cases done with
    | isTip present _ _ => exact absurd present stored
    | promoted e present _ _ => exact absurd (stored_iff.mpr ⟨e, present⟩) stored
    | fetched e mid seen _ _ searched advanced =>
      rw [complete_congr advanced.entry_eq]
      exact searched.complete free signed (holds.grown served searched.grown) served

/-- After any run of appends and backfills from an empty storage, failed calls included, a
backfill that returns leaves everything reachable from the wanted entry stored if and only if the
wanted entry was not stored when the call started, or everything reachable from it was. -/
theorem backfill_complete_iff_fresh_or_complete {S : Type} [LogStorage S] [LawfulLogStorage S]
    (s₀ : S) (empty : (log s₀).IsEmpty) (calls : List (Call ed)) (g : GroupName)
    (want : LogEntryId) (fetch : Fetch ed)
    (free : CollisionFree (callEntries (calls ++ [.backfill g want fetch]))) (n : Nat) (s' : S)
    (returned : (backfill g want fetch).exec (runCalls s₀ calls) = (.ok n, s')) : (log s').Complete want ↔
      (log (runCalls s₀ calls)).entry want = none ∨ (log (runCalls s₀ calls)).Complete want := by
  have outcome := (backfill_outcome g want fetch (runCalls s₀ calls)).of_exec returned
  have inEntries (c : Call ed) (hc : c ∈ calls ++ [.backfill g want fetch]) (e : LogEntry)
      (he : e ∈ c.entries) : e ∈ callEntries (calls ++ [.backfill g want fetch]) := ⟨c, hc, he⟩
  have holds := runCalls_holdsFrom calls s₀
    (fun c hc => inEntries c (mem_append_left _ hc)) (holdsFrom_of_isEmpty empty)
  apply (outcome.returned n rfl).complete_iff free _ holds
  · intro id e serves
    exact inEntries _ (mem_append_right _ (mem_singleton_self _)) e ⟨id, serves⟩
  · exact fun e => signature_length_of_mem_callEntries

end General

/-! Two entries signed by one operator, the second naming the first as its parent. -/

namespace Sample

def key : SigningKey := FixedBytes.fill 32 7

def pubkey : VerifyingKey :=
  .ofNumber 32 0xea4a6c63e29c520abef5507b132ec5f9954776aebebe7b92421eea691446d22c

def group : GroupName := ⟨"comp.test", by decide⟩

def article (x : UInt8) : Cid := .newV1 0x71 ⟨0x12, List.replicate 32 x, by simp⟩

def rootSignature : Signature := .ofNumber 64
  0x812813176214d78b7951b371aaa127f001659e00b991cb4e929d15f1c754ad5358f09535e94d5d3ccf0ff4e36376d89c3c7119b691fc31ccd5d464f74c43370a

def root : LogEntry := ⟨.ofWallMs 1000, article 0xaa, rootSignature.toBytes, []⟩

def rootId : LogEntryId := .fromEntry root

def childSignature : Signature := .ofNumber 64
  0xb579c05e61f0ad0fab556d45eace31aced853111f7096fa365f931397538a9f709ce4bb377a872cc254125a573c30cb688f96562e59701f00e0b3df67ec12c07

def child : LogEntry := ⟨.ofWallMs 2000, article 0xbb, childSignature.toBytes, [rootId.toCid]⟩

def childId : LogEntryId := .fromEntry child

def ed : Ed25519 := .ofSignatures key pubkey
  [(logEntryCanonicalBytes 1000 (article 0xaa) [], rootSignature),
    (logEntryCanonicalBytes 2000 (article 0xbb) [rootId.toCid], childSignature)]

def verifiedRoot : VerifiedEntry ed := ⟨root, pubkey, by
  unfold checkSignature
  simp only [root, FixedBytes.tryFrom_toBytes, HlcTimestamp.ofWallMs]
  rw [ed, Ed25519.verify_ofSignatures mem_cons_self]⟩

def verifiedChild : VerifiedEntry ed := ⟨child, pubkey, by
  unfold checkSignature
  simp only [child, FixedBytes.tryFrom_toBytes, HlcTimestamp.ofWallMs]
  rw [ed, Ed25519.verify_ofSignatures (mem_cons_of_mem _ mem_cons_self)]⟩

theorem rootId_ne_childId : rootId ≠ childId := by decide +kernel

@[simp] theorem parentIds_root : parentIdsFromEntry root = [] := rfl

@[simp] theorem parentIds_child : parentIdsFromEntry child = [rootId] := by
  simp [parentIdsFromEntry, child]

def fetchChild : Fetch ed := fun id =>
  if id = childId then .ok verifiedChild else .error "not found"

def fetchBoth : Fetch ed := fun id =>
  if id = childId then .ok verifiedChild
  else if id = rootId then .ok verifiedRoot
  else .error "not found"

theorem fetchBoth_child : Serves fetchBoth childId child := ⟨verifiedChild, if_pos rfl, rfl, rfl⟩

theorem fetchBoth_root : Serves fetchBoth rootId root :=
  ⟨verifiedRoot, (if_neg rootId_ne_childId).trans (if_pos rfl), rfl, rfl⟩

theorem root_or_child_of_fetchBoth {id : LogEntryId} {e : LogEntry}
    (serves : Serves fetchBoth id e) : e = root ∨ e = child := by
  obtain ⟨v, answer, rfl, _⟩ := serves
  unfold fetchBoth at answer
  split at answer
  · cases answer
    exact Or.inr rfl
  · split at answer
    · cases answer
      exact Or.inl rfl
    · cases answer

theorem fetchBoth_servesAll : ServesAll fetchBoth (fun _ => True) [childId, rootId] := by
  refine forall_mem_cons.mpr ⟨⟨child, fetchBoth_child, ?_, trivial, ?_⟩,
    forall_mem_singleton.mpr ⟨root, fetchBoth_root, nofun, trivial, nofun⟩⟩
  · exact forall_mem_singleton.mpr ⟨rootId, LogEntryId.ofCid_toCid rootId⟩
  · simp

theorem collisionFree_of_root_or_child {U : Set LogEntry} (only : ∀ e ∈ U, e = root ∨ e = child) :
    CollisionFree U := by
  intro a ha b hb same
  rcases only a ha with rfl | rfl <;> rcases only b hb with rfl | rfl
  · rfl
  · exact absurd same rootId_ne_childId
  · exact absurd same.symm rootId_ne_childId
  · rfl

def childOnly : MemLogStorage := ⟨(∅ : AList _).insert childId.asBytes child, ∅⟩

theorem childOnly_child : (log childOnly).entry childId = some child := by
  rw [log_entry, childOnly, AList.lookup_insert]

theorem childOnly_root : (log childOnly).entry rootId = none := by
  have keys : rootId.asBytes ≠ childId.asBytes := fun same =>
    rootId_ne_childId (congrArg LogEntryId.mk same)
  rw [log_entry, childOnly, AList.lookup_insert_ne keys]
  rfl

end Sample

open Sample in
theorem exec_backfill_fetchChild : (backfill group childId fetchChild).exec new =
      (.error (.fetchFailed "not found"), childOnly) := by
  have answer : fetchChild childId = .ok verifiedChild := if_pos rfl
  have missing : fetchChild rootId = .error "not found" := if_neg rootId_ne_childId
  have queued : enqueueParents [childId] child.parentCids [] = .ok [rootId] := by
    simp [child, enqueueParents, rootId_ne_childId]
  have search : (backfillLoop fetchChild [] [childId] 0 none).exec new =
      (.error (.fetchFailed "not found"), childOnly) := by
    refine (exec_backfillLoop_visit verifiedChild not_mem_nil answer rfl (by decide) queued
      none).trans ?_
    exact exec_backfillLoop_unserved (fun known =>
      rootId_ne_childId (mem_singleton.mp known)) missing _ _ _
  have absent : ((LogStorage.hasEntry childId).mapError BackfillError.storage).exec
      new = (.ok false, new) := rfl
  unfold backfill
  rw [Prog.exec_bind_ok _ absent]
  exact Prog.exec_bind_error _ search

open Sample in
/-- A failed backfill and its retry: the retry returns, and the parent is still missing. -/
theorem backfill_retry_returns_incomplete : ((backfill group childId fetchChild).exec MemLogStorage.new).1 =
        .error (.fetchFailed "not found") ∧
      ∃ n s', (backfill group childId fetchChild).exec
          (runCalls MemLogStorage.new [.backfill group childId fetchChild]) = (.ok n, s') ∧
        ¬(log s').Complete childId := by
  have first := exec_backfill_fetchChild
  have state : runCalls new [Call.backfill group childId fetchChild] = childOnly := by
    simp only [runCalls, foldl_cons, foldl_nil, Call.after, first]
  have stored : (log childOnly).Stored childId := stored_iff.mpr ⟨child, childOnly_child⟩
  have outcome := backfill_outcome group childId fetchChild childOnly
  obtain ⟨n, returned⟩ := outcome.succeeds trivial (Or.inl stored)
  refine ⟨by rw [first], n, ((backfill group childId fetchChild).exec childOnly).2, ?_, ?_⟩
  · rw [state, ← returned]
  · rw [complete_congr ((outcome.returned n returned).entry_eq stored)]
    intro complete
    have edge : (log childOnly).ParentEdge childId rootId := ⟨child, childOnly_child, by simp⟩
    have rootStored := complete rootId (Relation.ReflTransGen.single edge)
    exact not_stored_iff.mpr childOnly_root rootStored

open Sample in
/-- From an empty storage and a remote that has both entries, the root arrives with the child. -/
theorem backfill_fetchBoth_complete :
    ∃ n s', (backfill group childId fetchBoth).exec MemLogStorage.new = (.ok n, s') ∧
      (log s').Complete childId := by
  have outcome := backfill_outcome group childId fetchBoth new
  obtain ⟨n, returned⟩ := outcome.succeeds trivial
    (Or.inr ⟨[childId, rootId], mem_cons_self, by decide, fetchBoth_servesAll⟩)
  refine ⟨n, _, Prod.ext returned rfl, ?_⟩
  apply (backfill_complete_iff_fresh_or_complete new ⟨fun _ => rfl, fun _ => rfl⟩ []
    group childId fetchBoth ?_ n _ (Prod.ext returned rfl)).mpr (Or.inl rfl)
  apply collisionFree_of_root_or_child
  rintro e ⟨c, hc, he⟩
  rw [nil_append, mem_singleton] at hc
  subst hc
  obtain ⟨id, serves⟩ := he
  exact root_or_child_of_fetchBoth serves

end Stoa
