import Stoa.Core.GroupLog.Append

/-! A backend that behaves as the one inside it and keeps, for each entry that is inserted together
with a tip update, the storage as it was right before. -/
namespace Stoa

open Prog
structure AppendRecord (S : Type) where
  before : S
  group : GroupName
  id : LogEntryId
  entry : LogEntry

structure RecordedLogStorage (S : Type) where
  inner : S
  appends : List (AppendRecord S)

namespace RecordedLogStorage

variable {S α : Type}

def unrecorded (x : Prog S StorageError α) : Prog (RecordedLogStorage S) StorageError α :=
  x.zoom inner fun inner s => { s with inner }

def insertEntryAndAdvanceTips [LogStorage S] (id : LogEntryId) (entry : LogEntry)
    (group : GroupName) (parentsToRemove : List LogEntryId) (newTip : LogEntryId) :
    Prog (RecordedLogStorage S) StorageError Unit :=
  Prog.ofExec fun s =>
    match (LogStorage.insertEntryAndAdvanceTips id entry group parentsToRemove newTip).exec
        s.inner with
    | (.ok (), inner) => (.ok (), ⟨inner, s.appends ++ [⟨s.inner, group, id, entry⟩]⟩)
    | (.error e, inner) => (.error e, { s with inner })

instance [LogStorage S] : LogStorage (RecordedLogStorage S) where
  insertEntry id e := unrecorded (LogStorage.insertEntry id e)
  getEntry id := unrecorded (LogStorage.getEntry id)
  hasEntry id := unrecorded (LogStorage.hasEntry id)
  getParentCids id := unrecorded (LogStorage.getParentCids id)
  listTips g := unrecorded (LogStorage.listTips g)
  setTips g tips := unrecorded (LogStorage.setTips g tips)
  advanceTips g parents new := unrecorded (LogStorage.advanceTips g parents new)
  insertEntryAndAdvanceTips := insertEntryAndAdvanceTips
  tipCount g := unrecorded (LogStorage.tipCount g)

theorem insertEntryAndAdvanceTips_inner [LogStorage S] (id : LogEntryId) (entry : LogEntry)
    (group : GroupName) (parents : List LogEntryId) (new : LogEntryId) (s : RecordedLogStorage S) :
    let recorded := (insertEntryAndAdvanceTips id entry group parents new).exec s
    let inner := (LogStorage.insertEntryAndAdvanceTips id entry group parents new).exec s.inner
    recorded.1 = inner.1 ∧ recorded.2.inner = inner.2 := by
  intro recorded inner
  simp only [recorded, insertEntryAndAdvanceTips, exec_ofExec]
  rcases run : inner with ⟨e | ⟨⟩, s'⟩
  · simp only [inner] at run
    rw [run]
    exact ⟨rfl, rfl⟩
  · simp only [inner] at run
    rw [run]
    exact ⟨rfl, rfl⟩

section Laws

variable {log : S → LogView} {healthy : S → Prop}

theorem read_unrecorded {x : Prog S StorageError α} {s : RecordedLogStorage S} {value : α → Prop}
    (outcome : Prog.Satisfies x s.inner (ReadOutcome log healthy s.inner value)) :
    Prog.Satisfies (unrecorded x) s
      (ReadOutcome (fun s => log s.inner) (fun s => healthy s.inner) s value) :=
  ⟨outcome.log_eq, outcome.stays_healthy, outcome.returned, outcome.failed⟩

theorem update_unrecorded {x : Prog S StorageError Unit} {s : RecordedLogStorage S}
    {admitted : Prop} {effect : LogView → Prop}
    (outcome : Prog.Satisfies x s.inner (UpdateOutcome log healthy s.inner admitted effect)) :
    Prog.Satisfies (unrecorded x) s
      (UpdateOutcome (fun s => log s.inner) (fun s => healthy s.inner) s admitted effect) :=
  ⟨outcome.stays_healthy, outcome.updated, outcome.failed⟩

instance [LogStorage S] [LawfulLogStorage S] : LawfulLogStorage (RecordedLogStorage S) where
  log s := LawfulLogStorage.log s.inner
  Healthy s := LawfulLogStorage.Healthy s.inner
  Storable := LawfulLogStorage.Storable S
  getEntry_outcome s id := read_unrecorded (LawfulLogStorage.getEntry_outcome s.inner id)
  hasEntry_outcome s id := read_unrecorded (LawfulLogStorage.hasEntry_outcome s.inner id)
  getParentCids_outcome s id :=
    read_unrecorded (LawfulLogStorage.getParentCids_outcome s.inner id)
  listTips_outcome s g := read_unrecorded (LawfulLogStorage.listTips_outcome s.inner g)
  tipCount_outcome s g := read_unrecorded (LawfulLogStorage.tipCount_outcome s.inner g)
  setTips_outcome s g tips := update_unrecorded (LawfulLogStorage.setTips_outcome s.inner g tips)
  insertEntry_outcome s id e :=
    have outcome := LawfulLogStorage.insertEntry_outcome s.inner id e
    ⟨outcome.stays_healthy, outcome.inserted, outcome.failed, outcome.duplicate, outcome.absent,
      outcome.present⟩
  advanceTips_outcome s g parents new :=
    update_unrecorded (LawfulLogStorage.advanceTips_outcome s.inner g parents new)
  insertEntryAndAdvanceTips_outcome s id e g parents new := by
    have outcome := LawfulLogStorage.insertEntryAndAdvanceTips_outcome s.inner id e g parents new
    obtain ⟨result, state⟩ := insertEntryAndAdvanceTips_inner id e g parents new s
    unfold Prog.Satisfies at outcome ⊢
    change InsertOutcome _ _ _ _ _ _ _ ((insertEntryAndAdvanceTips id e g parents new).exec s).1 _
    rw [result]
    exact ⟨fun h => state ▸ outcome.stays_healthy h, fun ok => state ▸ outcome.inserted ok,
      fun err failed => state ▸ outcome.failed err failed, outcome.duplicate, outcome.absent,
      outcome.present⟩

end Laws

section Append

variable [LogStorage S] [LawfulLogStorage S] {ed : Ed25519}

open LawfulLogStorage

/-- The storage has the records of before and new ones, all of which meet `P`. -/
def Records (P : AppendRecord S → Prop) (s s' : RecordedLogStorage S) : Prop :=
  ∃ new, s'.appends = s.appends ++ new ∧ ∀ r ∈ new, P r

omit [LogStorage S] [LawfulLogStorage S] in
theorem Records.refl {P : AppendRecord S → Prop} {s s' : RecordedLogStorage S}
    (same : s'.appends = s.appends) : Records P s s' :=
  ⟨[], by rw [same, List.append_nil], nofun⟩

omit [LogStorage S] [LawfulLogStorage S] in
theorem Records.trans {P : AppendRecord S → Prop} {s s₁ s₂ : RecordedLogStorage S}
    (first : Records P s s₁) (next : Records P s₁ s₂) : Records P s s₂ := by
  obtain ⟨new, appends, all⟩ := first
  obtain ⟨new', appends', all'⟩ := next
  refine ⟨new ++ new', by rw [appends', appends, List.append_assoc], ?_⟩
  exact List.forall_mem_append.mpr ⟨all, all'⟩

omit [LawfulLogStorage S] in
theorem hasEntry_appends (s : RecordedLogStorage S) (id : LogEntryId) :
    Prog.Satisfies (LogStorage.hasEntry id) s fun _ s' => s'.appends = s.appends :=
  rfl

omit [LawfulLogStorage S] in
theorem listTips_appends (s : RecordedLogStorage S) (g : GroupName) :
    Prog.Satisfies (LogStorage.listTips g) s fun _ s' => s'.appends = s.appends :=
  rfl

omit [LawfulLogStorage S] in
theorem collectParents_appends (cids : List Cid) (parentIds : List LogEntryId) (s : RecordedLogStorage S) :
    Prog.Satisfies (collectParents cids parentIds) s fun _ s' => s'.appends = s.appends := by
  induction cids generalizing parentIds s with
  | nil => exact satisfies_pure rfl
  | cons c rest ih =>
    unfold collectParents
    cases LogEntryId.ofCid c with
    | none => exact satisfies_throw rfl
    | some p =>
      apply satisfies_bind (satisfies_mapError_state (hasEntry_appends s p))
      · intro present s₁ same
        cases present with
        | true => exact (ih (parentIds ++ [p]) s₁).imp fun _ _ later => later.trans same
        | false => exact satisfies_throw same
      · exact fun _ _ same => same

/-- The record of an append of `e` to `g` on a log that looks like `v`. -/
structure IsAppend (v : LogView) (g : GroupName) (e : LogEntry) (r : AppendRecord S) : Prop where
  log_eq : log r.before = v
  group : r.group = g
  id : r.id = LogEntryId.fromEntry e
  entry : r.entry = e
  parents : ParentsStored v e.parentCids

theorem append_records (s : RecordedLogStorage S) (g : GroupName) (v : VerifiedEntry ed) :
    Prog.Satisfies (append g v) s fun _ s' =>
      Records (fun r => IsAppend (log s) g v.intoInner r ∧ (Healthy s → Healthy r.before)) s s' := by
  unfold append
  apply satisfies_bind ((read_mapError AppendError.storage
    (hasEntry_outcome s (computeEntryId v.intoInner))).and
    (satisfies_mapError_state (hasEntry_appends s _)))
  · rintro present s₁ ⟨read, same₁⟩
    cases present with
    | true => exact satisfies_pure (Records.refl same₁)
    | false =>
      apply satisfies_bind ((collectParents_outcome v.intoInner.parentCids [] s₁).and
        (collectParents_appends _ _ s₁))
      · rintro parentIds s₂ ⟨⟨view₂, healthy₂, collected, _⟩, same₂⟩
        obtain ⟨_, stored⟩ := collected parentIds rfl
        have view : log s₂ = log s := view₂.trans read.log_eq
        have old : s₂.appends = s.appends := same₂.trans same₁
        rw [read.log_eq] at stored
        -- The insertion makes the record if it succeeds.
        have inserted : Prog.Satisfies (LogStorage.insertEntryAndAdvanceTips
            (computeEntryId v.intoInner) v.intoInner g parentIds (computeEntryId v.intoInner)) s₂
            fun _ s' => Records (fun r => IsAppend (log s) g v.intoInner r ∧
              (Healthy s → Healthy r.before)) s s' := by
          change Prog.Satisfies (insertEntryAndAdvanceTips _ _ _ _ _) _ _
          unfold Prog.Satisfies insertEntryAndAdvanceTips
          rw [exec_ofExec]
          split
          · refine ⟨[_], congrArg (· ++ _) old, List.forall_mem_singleton.mpr ⟨?_, ?_⟩⟩
            · exact ⟨view, rfl, rfl, rfl, stored⟩
            · exact fun h => healthy₂ (read.stays_healthy h)
          · exact Records.refl old
        apply satisfies_bind_attempt inserted
        intro r s₃ records
        rcases r with e | ⟨⟩
        · cases e with
          | duplicateEntry i => exact satisfies_pure records
          | _ => exact satisfies_throw records
        · exact satisfies_pure records
      · exact fun _ s₂ ⟨_, same₂⟩ => Records.refl (same₂.trans same₁)
  · exact fun _ s₁ ⟨_, same₁⟩ => Records.refl same₁

end Append

end RecordedLogStorage

end Stoa
