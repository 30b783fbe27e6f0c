import Stoa.Core.GroupLog.Verify

/-! `backfill` fetches an entry and all its ancestors from a remote, breadth first, stores them and
makes the entry a tip. -/
namespace Stoa

open List Prog LogView LogEntryId
def maxBackfillEntries : Nat := 50000

inductive BackfillError
  | storage (error : StorageError)
  | fetchFailed (message : String)
  | malformedParentCid (message : String)
  | truncated (fetched : Nat)
  deriving DecidableEq

variable {ed : Ed25519}

/-- The answers of a fetch callback during one call; an id is asked for at most once. -/
abbrev Fetch (ed : Ed25519) := LogEntryId → Except String (VerifiedEntry ed)

def enqueueParents (visited : List LogEntryId) :
    List Cid → List LogEntryId → Except BackfillError (List LogEntryId)
  | [], queue => .ok queue
  | parentCid :: rest, queue =>
    match LogEntryId.ofCid parentCid with
    | none => .error (.malformedParentCid ("parent CID " ++ parentCid.toString ++ " has " ++
        toString parentCid.hash.digest.length ++ "-byte digest (expected 32)"))
    | some parentId =>
      if parentId ∈ visited then enqueueParents visited rest queue
      else enqueueParents visited rest (queue ++ [parentId])

variable {S : Type} [LogStorage S]

def insertFetched (entryId : LogEntryId) (entry : LogEntry) (fetchedCount : Nat) :
    Prog S BackfillError Nat := do
  match ← Prog.attempt (LogStorage.insertEntry entryId entry) with
  | .ok () => return fetchedCount + 1
  | .error (.duplicateEntry _) => return fetchedCount
  | .error error => throw (.storage error)

/-- The search loop: returns the number of stored entries and the parents of the first one. -/
def backfillLoop (fetch : Fetch ed) (visited queue : List LogEntryId) (fetchedCount : Nat)
    (wantParentIds : Option (List LogEntryId)) :
    Prog S BackfillError (Nat × Option (List LogEntryId)) :=
  match queue with
  | [] => pure (fetchedCount, wantParentIds)
  | entryId :: queue =>
    if entryId ∈ visited then backfillLoop fetch visited queue fetchedCount wantParentIds
    else
      match fetch entryId with
      | .error message => throw (.fetchFailed message)
      | .ok verified =>
        let entry := verified.intoInner
        let computedId := LogEntryId.fromEntry entry
        -- The remote may answer with any signed entry: only the one asked for is stored.
        if computedId ≠ entryId then
          throw (.fetchFailed ("entry ID mismatch: requested " ++ entryId.toString ++
            ", peer returned entry with ID " ++ computedId.toString))
        else do
          let fetchedCount ← insertFetched entryId entry fetchedCount
          if _full : maxBackfillEntries ≤ (entryId :: visited).length then
            throw (.truncated fetchedCount)
          else
            match enqueueParents (entryId :: visited) entry.parentCids queue with
            | .error error => throw error
            | .ok queue =>
              backfillLoop fetch (entryId :: visited) queue fetchedCount
                (wantParentIds.or (some (parentIdsFromEntry entry)))
termination_by (maxBackfillEntries - visited.length, queue.length)
decreasing_by
  · exact Prod.Lex.right _ (Nat.lt_succ_self _)
  · apply Prod.Lex.left
    rw [length_cons] at _full ⊢
    omega

def backfill (group : GroupName) (wantId : LogEntryId) (fetch : Fetch ed) :
    Prog S BackfillError Nat := do
  let present ← (LogStorage.hasEntry wantId).mapError BackfillError.storage
  if present then
    let tips ← (LogStorage.listTips group).mapError BackfillError.storage
    if wantId ∈ tips then
      return 0
    else
      -- The entry is stored but not a tip: make it one and retire its parents.
      match ← (LogStorage.getEntry wantId).mapError BackfillError.storage with
      | none => return 0
      | some entry =>
        (LogStorage.advanceTips group (parentIdsFromEntry entry) wantId).mapError
          BackfillError.storage
        return 0
  else
    let (fetchedCount, wantParentIds) ← backfillLoop fetch [] [wantId] 0 none
    match wantParentIds with
    | none => return fetchedCount
    | some parentIds =>
      (LogStorage.advanceTips group parentIds wantId).mapError BackfillError.storage
      return fetchedCount

variable {visited queue : List LogEntryId}

theorem exec_backfillLoop_unserved {fetch : Fetch ed}
    {entryId : LogEntryId} {message : String} (unknown : entryId ∉ visited)
    (answer : fetch entryId = .error message) (count : Nat) (ids : Option (List LogEntryId)) (s : S) :
    (backfillLoop fetch visited (entryId :: queue) count ids).exec s =
      (.error (.fetchFailed message), s) := by
  rw [backfillLoop, if_neg unknown, answer]
  rfl

theorem exec_backfillLoop_visit {fetch : Fetch ed} {q : List LogEntryId}
    (verified : VerifiedEntry ed) {count n : Nat} {s s' : S}
    (unknown : fromEntry verified.intoInner ∉ visited)
    (answer : fetch (fromEntry verified.intoInner) = .ok verified)
    (inserted : (insertFetched (fromEntry verified.intoInner) verified.intoInner
      count).exec s = (.ok n, s')) (room : visited.length + 1 < maxBackfillEntries)
    (queued : enqueueParents (fromEntry verified.intoInner :: visited)
      verified.intoInner.parentCids queue = .ok q) (ids : Option (List LogEntryId)) :
    (backfillLoop fetch visited (fromEntry verified.intoInner :: queue) count ids).exec s =
      (backfillLoop fetch (fromEntry verified.intoInner :: visited) q n
        (ids.or (some (parentIdsFromEntry verified.intoInner)))).exec s' := by
  have notFull : ¬maxBackfillEntries ≤
      (fromEntry verified.intoInner :: visited).length := by
    rw [length_cons]
    omega
  rw [backfillLoop, if_neg unknown, answer]
  dsimp only
  rw [if_neg (not_not.mpr rfl), exec_bind_ok _ inserted, dif_neg notFull, queued]

section Fetching

variable (fetch : Fetch ed)

/-- `fetch` answers `id` with an entry of that id. -/
def Serves (id : LogEntryId) (e : LogEntry) : Prop :=
  ∃ v, fetch id = .ok v ∧ v.intoInner = e ∧ LogEntryId.fromEntry e = id

/-- The edges of the DAG that `fetch` serves. -/
def FetchEdge (a b : LogEntryId) : Prop := ∃ e, Serves fetch a e ∧ b ∈ parentIdsFromEntry e

def WellFormedParents (cids : List Cid) : Prop := ∀ c ∈ cids, ∃ p, LogEntryId.ofCid c = some p

/-- `v'` is `v` with some of the entries that `fetch` serves. -/
structure GrownBy (v v' : LogView) : Prop where
  tips_eq : v'.tips = v.tips
  entry : ∀ id, v'.entry id = v.entry id ∨
    v.entry id = none ∧ ∃ e e', Serves fetch id e ∧ StoredAs e e' ∧ v'.entry id = some e'

/-- `fetch` serves, for every id of `dag`, a well-formed entry whose parents are in `dag`. -/
def ServesAll (storable : LogEntry → Prop) (dag : List LogEntryId) : Prop :=
  ∀ a ∈ dag, ∃ e, Serves fetch a e ∧ WellFormedParents e.parentCids ∧ storable e ∧
    ∀ p ∈ parentIdsFromEntry e, p ∈ dag

/-- `mid` is `v` after a finished search from `want` that visited `seen`. -/
structure Searched (v mid : LogView) (want : LogEntryId) (seen : List LogEntryId) : Prop where
  grown : GrownBy fetch v mid
  start : want ∈ seen
  served : ∀ a ∈ seen, ∃ e, Serves fetch a e ∧ WellFormedParents e.parentCids ∧ mid.Stored a ∧
    ∀ p ∈ parentIdsFromEntry e, p ∈ seen
  reached : ∀ a ∈ seen, Relation.ReflTransGen (FetchEdge fetch) want a
  only : ∀ id, mid.Stored id → v.Stored id ∨ id ∈ seen

variable {fetch}

variable {id : LogEntryId} {e : LogEntry}

theorem Serves.fromEntry (h : Serves fetch id e) : fromEntry e = id := by
  obtain ⟨_, _, _, addressed⟩ := h
  exact addressed

theorem Serves.unique {d : LogEntry} (he : Serves fetch id e) (hd : Serves fetch id d) : e = d := by
  obtain ⟨v, answer, rfl, _⟩ := he
  obtain ⟨w, answer', rfl, _⟩ := hd
  rw [answer] at answer'
  cases answer'
  rfl

theorem GrownBy.refl (v : LogView) : GrownBy fetch v v := ⟨rfl, fun _ => .inl rfl⟩

variable {v : LogView}

theorem GrownBy.trans {u w : LogView} (first : GrownBy fetch u v) (second : GrownBy fetch v w) :
    GrownBy fetch u w := by
  refine ⟨second.tips_eq.trans first.tips_eq, fun id => ?_⟩
  rcases second.entry id with kept | ⟨absent, e, e', serves, stored, added⟩
  · rcases first.entry id with kept' | ⟨absent, e, e', serves, stored, added⟩
    · exact .inl (kept.trans kept')
    · exact .inr ⟨absent, e, e', serves, stored, kept.trans added⟩
  · rcases first.entry id with kept' | ⟨_, _, _, _, _, added'⟩
    · exact .inr ⟨kept' ▸ absent, e, e', serves, stored, added⟩
    · rw [added'] at absent
      cases absent

variable {v' : LogView}

theorem GrownBy.of_entry (grown : GrownBy fetch v v')
    (found : v.entry id = some e) : v'.entry id = some e := by
  rcases grown.entry id with kept | ⟨absent, _⟩
  · exact kept.trans found
  · rw [found] at absent
    cases absent

theorem GrownBy.stored (grown : GrownBy fetch v v') (stored : v.Stored id) : v'.Stored id := by
  obtain ⟨e, found⟩ := stored_iff.mp stored
  exact stored_iff.mpr ⟨e, grown.of_entry found⟩

theorem GrownBy.of_inserted {e' : LogEntry}
    (absent : v.entry id = none) (serves : Serves fetch id e) (stored : StoredAs e e')
    (inserted : v.Inserted v' id e') : GrownBy fetch v v' := by
  refine ⟨inserted.tips_eq, fun other => ?_⟩
  rw [inserted.entry_eq]
  by_cases same : other = id
  · subst same
    exact .inr ⟨absent, e, e', serves, stored, Function.update_self ..⟩
  · exact .inl (Function.update_of_ne same ..)

end Fetching

theorem enqueueParents_ok {cids : List Cid} {q : List LogEntryId}
    (h : enqueueParents visited cids queue = .ok q) : WellFormedParents cids ∧ (∀ x ∈ queue, x ∈ q) ∧
      (∀ x ∈ q, x ∈ queue ∨ x ∈ cids.filterMap ofCid) ∧
      ∀ p ∈ cids.filterMap ofCid, p ∈ visited ∨ p ∈ q := by
  induction cids generalizing queue with
  | nil =>
    cases h
    exact ⟨nofun, fun _ h => h, fun _ h => .inl h, nofun⟩
  | cons c rest ih =>
    unfold enqueueParents at h
    cases named : ofCid c with
    | none =>
      rw [named] at h
      cases h
    | some p =>
      rw [named] at h
      simp only [filterMap_cons_some named]
      dsimp only at h
      split at h
      · rename_i known
        obtain ⟨formed, kept, only, all⟩ := ih h
        refine ⟨forall_mem_cons.mpr ⟨⟨p, named⟩, formed⟩, kept, ?_, ?_⟩
        · exact fun x hx => (only x hx).imp_right (mem_cons_of_mem p)
        · exact forall_mem_cons.mpr ⟨.inl known, all⟩
      · obtain ⟨formed, kept, only, all⟩ := ih h
        refine ⟨forall_mem_cons.mpr ⟨⟨p, named⟩, formed⟩, ?_, ?_, ?_⟩
        · exact fun x hx => kept x (mem_append_left _ hx)
        · intro x hx
          rcases only x hx with queued | parent
          · rcases mem_append.mp queued with old | new
            · exact .inl old
            · exact .inr (mem_singleton.mp new ▸ mem_cons_self)
          · exact .inr (mem_cons_of_mem p parent)
        · exact forall_mem_cons.mpr
            ⟨.inr (kept p (mem_append_right _ (mem_singleton_self p))), all⟩

theorem enqueueParents_error {cids : List Cid}
    {e : BackfillError} (h : enqueueParents visited cids queue = .error e) : ¬WellFormedParents cids := by
  induction cids generalizing queue with
  | nil => cases h
  | cons c rest ih =>
    intro formed
    obtain ⟨p, named⟩ := formed c mem_cons_self
    have tail : WellFormedParents rest := fun d hd => formed d (mem_cons_of_mem c hd)
    unfold enqueueParents at h
    rw [named] at h
    dsimp only at h
    split at h
    · exact ih h tail
    · exact ih h tail

section Spec

variable [LawfulLogStorage S]

open LawfulLogStorage

theorem insertFetched_outcome (s : S) (id : LogEntryId) (e : LogEntry) (n : Nat) :
    Prog.Satisfies (insertFetched id e n) s fun r s' =>
      (Healthy s → Healthy s') ∧ (∀ m, r = .ok m → (log s').Stored id ∧ (log s' = log s ∨
        (log s).entry id = none ∧ ∃ e', StoredAs e e' ∧ (log s).Inserted (log s') id e')) ∧
      (∀ err, r = .error err → log s' = log s ∧ (Healthy s → ¬Storable S e)) := by
  unfold insertFetched
  apply satisfies_bind_attempt (insertEntry_outcome s id e)
  intro r s' outcome
  apply satisfies_duplicate_ok
  · rintro rfl
    apply satisfies_pure
    refine ⟨outcome.stays_healthy, fun _ _ => ?_, (by rintro _ ⟨⟩)⟩
    obtain ⟨absent, e', stored, inserted⟩ := outcome.inserted rfl
    refine ⟨?_, .inr ⟨absent, e', stored, inserted⟩⟩
    rw [LogView.Stored, inserted.entry_eq, Function.update_self]
    rfl
  · rintro i rfl
    apply satisfies_pure
    have view := outcome.failed _ rfl
    refine ⟨outcome.stays_healthy, fun _ _ => ⟨?_, .inl view⟩, (by rintro _ ⟨⟩)⟩
    rw [view]
    exact outcome.duplicate i rfl
  · rintro err rfl other
    apply satisfies_throw
    refine ⟨outcome.stays_healthy, (by rintro _ ⟨⟩), fun _ _ => ⟨outcome.failed _ rfl, ?_⟩⟩
    intro healthy storable
    by_cases present : (log s).Stored id
    · exact absurd (Except.error.inj (outcome.present healthy storable present)) (other id)
    · cases outcome.absent healthy storable (not_stored_iff.mp present)

/-- What the search does from any point of it, whether it returns or fails. -/
structure LoopOutcome (fetch : Fetch ed) (s : S) (visited queue : List LogEntryId)
    (wantParentIds : Option (List LogEntryId))
    (r : Except BackfillError (Nat × Option (List LogEntryId))) (s' : S) : Prop where
  stays_healthy : Healthy s → Healthy s'
  grown : GrownBy fetch (log s) (log s')
  returned : ∀ n ids, r = .ok (n, ids) →
    (∃ seen : List LogEntryId, (∀ a ∈ visited, a ∈ seen) ∧ (∀ a ∈ queue, a ∈ seen) ∧
      (∀ a ∈ seen, a ∉ visited → (∃ x ∈ queue, Relation.ReflTransGen (FetchEdge fetch) x a) ∧
        ∃ e, Serves fetch a e ∧ WellFormedParents e.parentCids ∧ (log s').Stored a ∧
          ∀ p ∈ parentIdsFromEntry e, p ∈ seen) ∧
      ∀ id, (log s').Stored id → (log s).Stored id ∨ id ∈ seen ∧ id ∉ visited) ∧
    (∀ l, wantParentIds = some l → ids = some l) ∧
    (wantParentIds = none → ∀ x rest, queue = x :: rest → x ∉ visited →
      ∃ e, Serves fetch x e ∧ ids = some (parentIdsFromEntry e))
  succeeds : Healthy s → ∀ dag : List LogEntryId, ServesAll fetch (Storable S) dag → dag.length < maxBackfillEntries →
    visited.Nodup → (∀ a ∈ visited, a ∈ dag) → (∀ a ∈ queue, a ∈ dag) → ∃ x, r = .ok x

variable {fetch : Fetch ed}

theorem LoopOutcome.visit {s s₁ s' : S} {visited queue q : List LogEntryId}
    {wantParentIds : Option (List LogEntryId)} {entryId : LogEntryId} {e : LogEntry}
    {r : Except BackfillError (Nat × Option (List LogEntryId))}
    (serves : Serves fetch entryId e) (unknown : entryId ∉ visited)
    (healthy : Healthy s → Healthy s₁) (grown : GrownBy fetch (log s) (log s₁))
    (stored : (log s₁).Stored entryId) (only : ∀ id, (log s₁).Stored id → (log s).Stored id ∨ id = entryId)
    (queued : enqueueParents (entryId :: visited) e.parentCids queue = .ok q)
    (rest : LoopOutcome fetch s₁ (entryId :: visited) q
      (wantParentIds.or (some (parentIdsFromEntry e))) r s') :
    LoopOutcome fetch s visited (entryId :: queue) wantParentIds r s' := by
  obtain ⟨formed, kept, fromQueue, all⟩ := enqueueParents_ok queued
  refine ⟨fun h => rest.stays_healthy (healthy h), grown.trans rest.grown, ?_, ?_⟩
  · intro n ids ok
    obtain ⟨⟨seen, visitedSeen, queueSeen, served, added⟩, same, _⟩ := rest.returned n ids ok
    have here : entryId ∈ seen := visitedSeen entryId mem_cons_self
    refine ⟨⟨seen, ?_, ?_, ?_, ?_⟩, ?_, ?_⟩
    · exact fun a h => visitedSeen a (mem_cons_of_mem entryId h)
    · exact forall_mem_cons.mpr ⟨here, fun a h => queueSeen a (kept a h)⟩
    · intro a ha new
      by_cases current : a = entryId
      · subst current
        refine ⟨⟨a, mem_cons_self, Relation.ReflTransGen.refl⟩, e, serves, formed,
          rest.grown.stored stored, ?_⟩
        intro p hp
        exact (all p hp).elim (visitedSeen p) (queueSeen p)
      · obtain ⟨⟨x, hx, path⟩, entry⟩ := served a ha (by simp [current, new])
        refine ⟨?_, entry⟩
        -- A node queued here is reached through the entry that queued it.
        rcases fromQueue x hx with old | parent
        · exact ⟨x, mem_cons_of_mem entryId old, path⟩
        · exact ⟨entryId, mem_cons_self, path.head ⟨e, serves, parent⟩⟩
    · intro id final
      rcases added id final with before | ⟨visitedLater, new⟩
      · rcases only id before with before | rfl
        · exact .inl before
        · exact .inr ⟨here, unknown⟩
      · exact .inr ⟨visitedLater, fun h => new (mem_cons_of_mem entryId h)⟩
    · rintro l rfl
      exact same l rfl
    · rintro rfl x rest' ⟨⟩ _
      exact ⟨e, serves, same _ rfl⟩
  · intro isHealthy dag servesAll small nodup inDag queueInDag
    have here : entryId ∈ dag := queueInDag entryId mem_cons_self
    obtain ⟨d, servesD, _, _, parents⟩ := servesAll entryId here
    rw [← serves.unique servesD] at parents
    apply rest.succeeds (healthy isHealthy) dag servesAll small (nodup_cons.mpr ⟨unknown, nodup⟩)
    · exact forall_mem_cons.mpr ⟨here, inDag⟩
    · intro a ha
      rcases fromQueue a ha with old | parent
      · exact queueInDag a (mem_cons_of_mem entryId old)
      · exact parents a parent

theorem backfillLoop_outcome (fetch : Fetch ed) (visited queue : List LogEntryId) (count : Nat)
    (wantParentIds : Option (List LogEntryId)) (s : S) :
    Prog.Satisfies (backfillLoop fetch visited queue count wantParentIds) s
      (LoopOutcome fetch s visited queue wantParentIds) := by
  unfold backfillLoop
  match queue with
  | [] =>
    apply satisfies_pure
    refine ⟨fun h => h, GrownBy.refl _, ?_, fun _ _ _ _ _ _ _ => ⟨_, rfl⟩⟩
    rintro n ids ⟨⟩
    refine ⟨⟨visited, fun _ h => h, nofun, fun a h new => absurd h new, fun _ h => .inl h⟩,
      fun _ h => h, nofun⟩
  | entryId :: queue =>
    dsimp only
    split
    · -- Already visited: the queue moves on.
      rename_i known
      apply (backfillLoop_outcome fetch visited queue count wantParentIds s).imp
      intro r s' rest
      refine ⟨rest.stays_healthy, rest.grown, ?_, ?_⟩
      · intro n ids ok
        obtain ⟨⟨seen, visitedSeen, queueSeen, served, only⟩, kept, first⟩ := rest.returned n ids ok
        refine ⟨⟨seen, visitedSeen, ?_, ?_, only⟩, kept, ?_⟩
        · exact forall_mem_cons.mpr ⟨visitedSeen entryId known, queueSeen⟩
        · intro a ha new
          obtain ⟨⟨x, hx, path⟩, entry⟩ := served a ha new
          exact ⟨⟨x, mem_cons_of_mem entryId hx, path⟩, entry⟩
        · rintro _ x rest' ⟨⟩ new
          exact absurd known new
      · intro healthy dag serves small nodup inDag queued
        exact rest.succeeds healthy dag serves small nodup inDag
          fun a h => queued a (mem_cons_of_mem entryId h)
    · rename_i unknown
      cases answer : fetch entryId with
      | error message =>
        apply satisfies_throw
        refine ⟨fun h => h, GrownBy.refl _, nofun, ?_⟩
        intro _ dag serves _ _ _ queued
        obtain ⟨e, ⟨v, ok, _⟩, _⟩ := serves entryId (queued entryId mem_cons_self)
        rw [answer] at ok
        cases ok
      | ok verified =>
        dsimp only
        split
        · rename_i mismatch
          apply satisfies_throw
          refine ⟨fun h => h, GrownBy.refl _, nofun, ?_⟩
          intro _ dag serves _ _ _ queued
          obtain ⟨e, ⟨v, ok, rfl, id⟩, _⟩ := serves entryId (queued entryId mem_cons_self)
          rw [answer] at ok
          cases ok
          exact absurd id mismatch
        · rename_i matching
          have serves : Serves fetch entryId verified.intoInner :=
            ⟨verified, answer, rfl, not_not.mp matching⟩
          apply satisfies_bind (insertFetched_outcome s entryId verified.intoInner count)
          · rintro count' s₁ ⟨healthy, returned, _⟩
            obtain ⟨stored, change⟩ := returned count' rfl
            have grown : GrownBy fetch (log s) (log s₁) := by
              rcases change with same | ⟨absent, e', storedAs, inserted⟩
              · rw [same]
                exact GrownBy.refl _
              · exact GrownBy.of_inserted absent serves storedAs inserted
            have only (id : LogEntryId) (after : (log s₁).Stored id) :
                (log s).Stored id ∨ id = entryId := by
              rcases change with same | ⟨_, e', _, inserted⟩
              · exact .inl (same ▸ after)
              · by_cases current : id = entryId
                · exact .inr current
                · rw [LogView.Stored, inserted.entry_eq, Function.update_of_ne current] at after
                  exact .inl after
            split
            · -- The budget is used up.
              rename_i full
              apply satisfies_throw
              refine ⟨healthy, grown, nofun, ?_⟩
              intro _ dag _ small nodup inDag queued
              have subset : (entryId :: visited) ⊆ dag :=
                forall_mem_cons.mpr ⟨queued entryId mem_cons_self, inDag⟩
              have bound := (nodup_cons.mpr ⟨unknown, nodup⟩).length_le_of_subset subset
              omega
            · rename_i room
              split
              · rename_i error malformed
                apply satisfies_throw
                refine ⟨healthy, grown, nofun, ?_⟩
                intro _ dag servesAll _ _ _ queued
                obtain ⟨d, servesD, formed, _⟩ := servesAll entryId (queued entryId mem_cons_self)
                rw [← serves.unique servesD] at formed
                exact absurd formed (enqueueParents_error malformed)
              · rename_i q enqueued
                apply (backfillLoop_outcome fetch (entryId :: visited) q count' _ s₁).imp
                intro r s' rest
                exact LoopOutcome.visit serves unknown healthy grown stored only enqueued rest
          · rintro error s₁ ⟨healthy, _, failed⟩
            obtain ⟨same, unstorable⟩ := failed error rfl
            refine ⟨healthy, ?_, nofun, ?_⟩
            · rw [same]
              exact GrownBy.refl _
            · intro isHealthy dag servesAll _ _ _ queued
              obtain ⟨d, servesD, _, storable, _⟩ := servesAll entryId (queued entryId mem_cons_self)
              rw [← serves.unique servesD] at storable
              exact absurd storable (unstorable isHealthy)
termination_by (maxBackfillEntries - visited.length, queue.length)
decreasing_by
  · apply Prod.Lex.left
    simp only [length_cons] at *
    omega
  · exact Prod.Lex.right _ (Nat.lt_succ_self _)

theorem LoopOutcome.searched {s s' : S} {want : LogEntryId} {n : Nat}
    {ids : Option (List LogEntryId)} (loop : LoopOutcome fetch s [] [want] none (.ok (n, ids)) s') :
    ∃ seen e, Serves fetch want e ∧ ids = some (parentIdsFromEntry e) ∧
      Searched fetch (log s) (log s') want seen := by
  obtain ⟨⟨seen, _, queueSeen, served, only⟩, _, first⟩ := loop.returned n ids rfl
  obtain ⟨e, serves, parents⟩ := first rfl want [] rfl not_mem_nil
  refine ⟨seen, e, serves, parents, loop.grown, queueSeen want (mem_singleton_self want),
    ?_, ?_, ?_⟩
  · exact fun a ha => (served a ha not_mem_nil).2
  · intro a ha
    obtain ⟨⟨x, hx, path⟩, _⟩ := served a ha not_mem_nil
    rw [mem_singleton] at hx
    exact hx ▸ path
  · exact fun id after => (only id after).imp_right fun h => h.1

/-- What `backfill` does when it returns. -/
inductive BackfilledTo (fetch : Fetch ed) (g : GroupName) (want : LogEntryId) (v v' : LogView) : Prop
  | isTip (stored : v.Stored want) (tip : want ∈ v.tips g) (same : v' = v)
  | promoted (e : LogEntry) (stored : v.entry want = some e) (notTip : want ∉ v.tips g)
      (advanced : v.Advanced v' g (parentIdsFromEntry e) want)
  | fetched (e : LogEntry) (mid : LogView) (seen : List LogEntryId) (absent : v.entry want = none)
      (serves : Serves fetch want e) (searched : Searched fetch v mid want seen)
      (advanced : mid.Advanced v' g (parentIdsFromEntry e) want)

structure BackfillOutcome (fetch : Fetch ed) (g : GroupName) (want : LogEntryId) (s : S)
    (r : Except BackfillError Nat) (s' : S) : Prop where
  stays_healthy : Healthy s → Healthy s'
  failed : ∀ e, r = .error e → GrownBy fetch (log s) (log s')
  returned : ∀ n, r = .ok n → BackfilledTo fetch g want (log s) (log s')
  succeeds : Healthy s → ((log s).Stored want ∨ ∃ dag, want ∈ dag ∧
    dag.length < maxBackfillEntries ∧ ServesAll fetch (Storable S) dag) → ∃ n, r = .ok n

theorem advanceTips_outcome_ok {g : GroupName} {want : LogEntryId} {s s₁ : S}
    {parents : List LogEntryId} (count : Nat) (healthy : Healthy s → Healthy s₁)
    (grown : GrownBy fetch (log s) (log s₁))
    (returned : ∀ v', (log s₁).Advanced v' g parents want → BackfilledTo fetch g want (log s) v') :
    Prog.Satisfies (do
      (LogStorage.advanceTips g parents want).mapError BackfillError.storage
      return count) s₁ (BackfillOutcome fetch g want s) := by
  apply satisfies_bind
  · exact satisfies_mapError
      (Q := fun r s' => (Healthy s₁ → Healthy s') ∧
        (r = .ok () → (log s₁).Advanced (log s') g parents want) ∧
        ∀ e, r = .error e → log s' = log s₁ ∧ ¬Healthy s₁)
      (advanceTips_outcome s₁ g parents want)
      (fun _ s' h => ⟨h.stays_healthy, fun _ => h.updated rfl, nofun⟩)
      (fun e s' h => ⟨h.stays_healthy, nofun, fun _ _ =>
        ⟨(h.failed e rfl).1, (h.failed e rfl).2 trivial⟩⟩)
  · rintro _ s' ⟨healthy', advanced, _⟩
    apply satisfies_pure
    exact ⟨fun h => healthy' (healthy h), nofun, fun _ _ => returned _ (advanced rfl),
      fun _ _ => ⟨_, rfl⟩⟩
  · rintro e s' ⟨healthy', _, failed⟩
    obtain ⟨same, unhealthy⟩ := failed e rfl
    refine ⟨fun h => healthy' (healthy h), fun _ _ => ?_, nofun, fun h => absurd (healthy h) unhealthy⟩
    rw [same]
    exact grown

theorem backfill_outcome (g : GroupName) (want : LogEntryId) (fetch : Fetch ed) (s : S) :
    Prog.Satisfies (backfill g want fetch) s (BackfillOutcome fetch g want s) := by
  have readFailed (e : BackfillError) (s' : S) (view : log s' = log s) (unhealthy : ¬Healthy s) :
      BackfillOutcome fetch g want s (.error e) s' := by
    refine ⟨fun h => absurd h unhealthy, fun _ _ => ?_, nofun, fun h => absurd h unhealthy⟩
    rw [view]
    exact GrownBy.refl _
  unfold backfill
  apply satisfies_bind_read (read_mapError _ (hasEntry_outcome s want)) _ readFailed
  intro present s₁ view₁ healthy₁ found
  cases present with
  | true =>
    have stored : (log s).Stored want := found.mp rfl
    apply satisfies_bind_read (read_mapError _ (listTips_outcome s₁ g))
    · rintro tips s₂ view₂ healthy₂ rfl
      rw [view₁] at view₂ ⊢
      split
      · rename_i tip
        apply satisfies_pure
        exact ⟨fun h => healthy₂ (healthy₁ h), nofun, fun _ _ => .isTip stored tip view₂,
          fun _ _ => ⟨_, rfl⟩⟩
      · rename_i notTip
        apply satisfies_bind_read (read_mapError _ (getEntry_outcome s₂ want))
        · rintro entry s₃ view₃ healthy₃ rfl
          rw [view₂] at view₃ ⊢
          obtain ⟨e, entry⟩ := stored_iff.mp stored
          rw [entry]
          apply advanceTips_outcome_ok 0 (fun h => healthy₃ (healthy₂ (healthy₁ h)))
          · rw [view₃]
            exact GrownBy.refl _
          · intro v' advanced
            rw [view₃] at advanced
            exact .promoted e entry notTip advanced
        · intro e s₃ view₃ unhealthy
          exact readFailed e s₃ (view₃.trans view₂) fun h => unhealthy (healthy₂ (healthy₁ h))
    · intro e s₂ view₂ unhealthy
      exact readFailed e s₂ (view₂.trans view₁) fun h => unhealthy (healthy₁ h)
  | false =>
    have absent : (log s).entry want = none :=
      not_stored_iff.mp fun stored => absurd (found.mpr stored) (by decide)
    apply satisfies_bind (backfillLoop_outcome fetch [] [want] 0 none s₁)
    · rintro ⟨count, ids⟩ s₂ loop
      obtain ⟨seen, e, serves, rfl, searched⟩ := loop.searched
      have healthy (h : Healthy s) : Healthy s₂ := loop.stays_healthy (healthy₁ h)
      have grown := loop.grown
      rw [view₁] at searched grown
      apply advanceTips_outcome_ok count healthy grown
      intro v' advanced
      exact .fetched e (log s₂) seen absent serves searched advanced
    · intro e s₂ loop
      have grown := loop.grown
      rw [view₁] at grown
      refine ⟨fun h => loop.stays_healthy (healthy₁ h), fun _ _ => grown, nofun, ?_⟩
      rintro healthy (stored | ⟨dag, member, small, serves⟩)
      · exact absurd stored (not_stored_iff.mpr absent)
      · obtain ⟨x, ok⟩ := loop.succeeds (healthy₁ healthy) dag serves small nodup_nil nofun
          (forall_mem_singleton.mpr member)
        cases ok

end Spec

end Stoa
