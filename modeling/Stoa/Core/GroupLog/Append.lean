import Stoa.Core.GroupLog.Verify

/-! `append` adds a verified entry to a group's log: nothing happens when the entry is already
stored; otherwise every parent must be stored, and the entry is inserted and the tips are advanced
in one storage operation. -/
namespace Stoa

open List Prog LogEntryId
inductive AppendError
  | storage (error : StorageError)
  | missingParent (cid : String)
  deriving DecidableEq

def AppendError.toString : AppendError → String
  | .storage error => "storage error: " ++ error.toString
  | .missingParent cid => "parent entry not found: " ++ cid

/-- `From<AppendError> for StorageError`. -/
def AppendError.intoStorageError (error : AppendError) : StorageError :=
  .database ("group log append error: " ++ error.toString)

def computeEntryId (entry : LogEntry) : LogEntryId :=
  ⟨Sha256.digest (entryIdBytes entry.hlcTimestamp.wallMs entry.articleCid entry.operatorSignature
    entry.parentCids)⟩

variable {S : Type} [LogStorage S] {ed : Ed25519}

def collectParents : List Cid → List LogEntryId → Prog S AppendError (List LogEntryId)
  | [], parentIds => pure parentIds
  | parentCid :: rest, parentIds =>
    match LogEntryId.ofCid parentCid with
    | none => throw (.missingParent ("parent CID " ++ parentCid.toString ++
        " has a non-32-byte digest (length " ++ toString parentCid.hash.digest.length ++ ")"))
    | some parentId => do
      let present ← (LogStorage.hasEntry parentId).mapError AppendError.storage
      if present then collectParents rest (parentIds ++ [parentId])
      else throw (.missingParent parentCid.toString)

def append (group : GroupName) (verified : VerifiedEntry ed) : Prog S AppendError LogEntryId := do
  let entry := verified.intoInner
  let entryId := computeEntryId entry
  let present ← (LogStorage.hasEntry entryId).mapError AppendError.storage
  if present then
    return entryId
  else
    let parentIds ← collectParents entry.parentCids []
    match ← Prog.attempt
        (LogStorage.insertEntryAndAdvanceTips entryId entry group parentIds entryId) with
    | .ok () => return entryId
    -- A concurrent caller won the race: the entry is there, its tips are that caller's work.
    | .error (.duplicateEntry _) => return entryId
    | .error error => throw (.storage error)

def ParentsStored (v : LogView) (cids : List Cid) : Prop :=
  ∀ c ∈ cids, ∃ p, LogEntryId.ofCid c = some p ∧ v.Stored p

theorem ParentsStored.stored {v : LogView} {e : LogEntry} (h : ParentsStored v e.parentCids)
    {id : LogEntryId} (parent : id ∈ parentIdsFromEntry e) : v.Stored id := by
  obtain ⟨c, member, named⟩ := mem_filterMap.mp parent
  obtain ⟨p, named', stored⟩ := h c member
  rw [named] at named'
  exact Option.some.inj named' ▸ stored

/-- `v'` is `v` with `e` appended to the log of `g`. -/
structure AppendedTo (v v' : LogView) (g : GroupName) (e : LogEntry) : Prop where
  absent : v.entry (LogEntryId.fromEntry e) = none
  parents : ParentsStored v e.parentCids
  written : ∃ e' mid, StoredAs e e' ∧ v.Inserted mid (LogEntryId.fromEntry e) e' ∧
    mid.Advanced v' g (parentIdsFromEntry e) (LogEntryId.fromEntry e)

section AppendedTo

variable {v v' : LogView} {g : GroupName} {e : LogEntry}

theorem AppendedTo.parentEdge_iff (appended : AppendedTo v v' g e)
    (b : LogEntryId) : v'.ParentEdge (fromEntry e) b ↔ b ∈ parentIdsFromEntry e := by
  obtain ⟨e', mid, stored, inserted, advanced⟩ := appended.written
  rw [← stored.mem_parentIds, LogView.ParentEdge, advanced.entry_eq, inserted.entry_eq,
    Function.update_self]
  exact ⟨fun ⟨_, same, h⟩ => Option.some.inj same ▸ h, fun h => ⟨e', rfl, h⟩⟩

theorem AppendedTo.entry_of_ne (appended : AppendedTo v v' g e) {a : LogEntryId}
    (other : a ≠ fromEntry e) : v'.entry a = v.entry a := by
  obtain ⟨e', mid, _, inserted, advanced⟩ := appended.written
  rw [advanced.entry_eq, inserted.entry_eq, Function.update_of_ne other]

theorem AppendedTo.stored_new (appended : AppendedTo v v' g e) : v'.Stored (fromEntry e) := by
  obtain ⟨e', mid, _, inserted, advanced⟩ := appended.written
  rw [LogView.Stored, advanced.entry_eq, inserted.entry_eq, Function.update_self]
  rfl

theorem AppendedTo.stored_mono (appended : AppendedTo v v' g e) {a : LogEntryId}
    (stored : v.Stored a) : v'.Stored a := by
  by_cases same : a = fromEntry e
  · exact same ▸ appended.stored_new
  · rw [LogView.Stored, appended.entry_of_ne same]
    exact stored

theorem AppendedTo.stored_cases (appended : AppendedTo v v' g e) {a : LogEntryId}
    (stored : v'.Stored a) : v.Stored a ∨ a = fromEntry e := by
  by_cases same : a = fromEntry e
  · exact Or.inr same
  · rw [LogView.Stored, appended.entry_of_ne same] at stored
    exact Or.inl stored

theorem AppendedTo.mem_tips (appended : AppendedTo v v' g e) {t : LogEntryId} :
    t ∈ v'.tips g ↔ t = fromEntry e ∨ t ∈ v.tips g ∧ t ∉ parentIdsFromEntry e := by
  obtain ⟨e', mid, _, inserted, advanced⟩ := appended.written
  rw [advanced.mem_tips, inserted.tips_eq]

end AppendedTo

section Spec

variable [LawfulLogStorage S]

open LawfulLogStorage

theorem collectParents_outcome (cids : List Cid) (parentIds : List LogEntryId) (s : S) :
    Prog.Satisfies (collectParents cids parentIds) s fun r s' =>
      log s' = log s ∧ (Healthy s → Healthy s') ∧
      (∀ ids, r = .ok ids → ids = parentIds ++ cids.filterMap ofCid ∧
        ParentsStored (log s) cids) ∧ (∀ e, r = .error e → Healthy s → ¬ParentsStored (log s) cids) := by
  induction cids generalizing parentIds s with
  | nil =>
    apply satisfies_pure
    refine ⟨rfl, fun h => h, ?_, nofun⟩
    rintro ids ⟨⟩
    exact ⟨by simp, nofun⟩
  | cons c rest ih =>
    unfold collectParents
    cases named : ofCid c with
    | none =>
      apply satisfies_throw
      refine ⟨rfl, fun h => h, nofun, ?_⟩
      intro _ _ _ stored
      obtain ⟨p, names, _⟩ := stored c mem_cons_self
      rw [named] at names
      cases names
    | some parentId =>
      apply satisfies_bind_read (read_mapError _ (hasEntry_outcome s parentId))
      · intro present mid view healthy found
        cases present with
        | false =>
          apply satisfies_throw
          refine ⟨view, healthy, nofun, ?_⟩
          intro _ _ _ stored
          obtain ⟨p, names, isStored⟩ := stored c mem_cons_self
          rw [named] at names
          cases names
          exact absurd (found.mpr isStored) (by decide)
        | true =>
          apply (ih (parentIds ++ [parentId]) mid).imp
          rintro r s' ⟨view', healthy', returned, failed⟩
          rw [view] at view' returned failed
          refine ⟨view', fun h => healthy' (healthy h), ?_, ?_⟩
          · intro ids ok
            obtain ⟨collected, stored⟩ := returned ids ok
            refine ⟨?_, forall_mem_cons.mpr ⟨⟨parentId, named, found.mp rfl⟩, stored⟩⟩
            rw [collected, filterMap_cons_some named, append_assoc]
            rfl
          · intro e error isHealthy stored
            exact failed e error (healthy isHealthy) fun d h => stored d (mem_cons_of_mem c h)
      · intro e s' view unhealthy
        exact ⟨view, fun h => absurd h unhealthy, nofun, fun _ _ h => absurd h unhealthy⟩

/-- What `append` does: nothing when it fails or the entry is stored, an append otherwise. -/
structure AppendOutcome (s : S) (g : GroupName) (e : LogEntry) (r : Except AppendError LogEntryId)
    (s' : S) : Prop where
  stays_healthy : Healthy s → Healthy s'
  failed : ∀ error, r = .error error → log s' = log s
  returned : ∀ id, r = .ok id → id = LogEntryId.fromEntry e ∧
    ((log s).Stored id ∧ log s' = log s ∨ AppendedTo (log s) (log s') g e)
  succeeds : Healthy s → Storable S e → ParentsStored (log s) e.parentCids → ∃ id, r = .ok id

theorem append_outcome (s : S) (g : GroupName) (v : VerifiedEntry ed) :
    Prog.Satisfies (append g v) s (AppendOutcome s g v.intoInner) := by
  unfold append
  apply satisfies_bind_read (read_mapError _ (hasEntry_outcome s _))
  · intro present s₁ view₁ healthy₁ found
    cases present with
    | true =>
      apply satisfies_pure
      refine ⟨healthy₁, (by rintro _ ⟨⟩), ?_, fun _ _ _ => ⟨_, rfl⟩⟩
      rintro id ⟨⟩
      exact ⟨rfl, Or.inl ⟨found.mp rfl, view₁⟩⟩
    | false =>
      have absent : (log s).entry (fromEntry v.intoInner) = none :=
        LogView.not_stored_iff.mp fun stored => absurd (found.mpr stored) (by decide)
      apply satisfies_bind (collectParents_outcome v.intoInner.parentCids [] s₁)
      · rintro parentIds s₂ ⟨view₂, healthy₂, collected, _⟩
        obtain ⟨ids, stored⟩ := collected parentIds rfl
        rw [view₁] at view₂ stored
        rw [nil_append] at ids
        subst ids
        apply satisfies_bind_attempt
          (insertEntryAndAdvanceTips_outcome s₂ _ v.intoInner g _ _)
        intro r s₃ outcome
        have healthy (h : Healthy s) : Healthy s₃ := outcome.stays_healthy (healthy₂ (healthy₁ h))
        apply satisfies_duplicate_ok
        · rintro rfl
          apply satisfies_pure
          refine ⟨healthy, (by rintro _ ⟨⟩), ?_, fun _ _ _ => ⟨_, rfl⟩⟩
          rintro id ⟨⟩
          obtain ⟨_, e', storedAs, mid, inserted, advanced⟩ := outcome.inserted rfl
          rw [view₂] at inserted
          exact ⟨rfl, Or.inr ⟨absent, stored, e', mid, storedAs, inserted, advanced⟩⟩
        · rintro i rfl
          apply satisfies_pure
          refine ⟨healthy, (by rintro _ ⟨⟩), ?_, fun _ _ _ => ⟨_, rfl⟩⟩
          rintro id ⟨⟩
          have present := outcome.duplicate i rfl
          rw [view₂] at present
          exact ⟨rfl, Or.inl ⟨present, (outcome.failed _ rfl).trans view₂⟩⟩
        · rintro error rfl _
          apply satisfies_throw
          refine ⟨healthy, fun _ _ => (outcome.failed _ rfl).trans view₂, (by rintro _ ⟨⟩), ?_⟩
          intro isHealthy storable _
          have absent₂ : (log s₂).entry (fromEntry v.intoInner) = none := by
            rw [view₂]; exact absent
          cases outcome.absent (healthy₂ (healthy₁ isHealthy)) storable absent₂
      · rintro e s₂ ⟨view₂, healthy₂, _, failed⟩
        rw [view₁] at view₂ failed
        refine ⟨fun h => healthy₂ (healthy₁ h), fun _ _ => view₂, (by rintro _ ⟨⟩), ?_⟩
        exact fun h _ stored => absurd stored (failed e rfl (healthy₁ h))
  · intro e s' view unhealthy
    exact ⟨fun h => absurd h unhealthy, fun _ _ => view, (by rintro _ ⟨⟩), fun h => absurd h unhealthy⟩

end Spec

end Stoa
