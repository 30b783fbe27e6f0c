import Stoa.Core.GroupLog.Storage
import Mathlib.Data.List.AList

/-! Two maps under locks: entries by id and, for each group name, the list of its tips. -/
namespace Stoa

open List Prog LawfulLogStorage LogStorage AList
structure MemLogStorage where
  entries : AList fun _ : FixedBytes 32 => LogEntry
  tips : AList fun _ : String => List (FixedBytes 32)

namespace MemLogStorage

def new : MemLogStorage := ⟨∅, ∅⟩

def insertEntry (id : LogEntryId) (entry : LogEntry) : Prog MemLogStorage StorageError Unit :=
  Prog.ofExec fun s =>
    if (s.entries.lookup id.asBytes).isSome then (.error (.duplicateEntry id), s)
    else (.ok (), { s with entries := s.entries.insert id.asBytes entry })

def getEntry (id : LogEntryId) : Prog MemLogStorage StorageError (Option LogEntry) :=
  Prog.reads fun s => s.entries.lookup id.asBytes

def hasEntry (id : LogEntryId) : Prog MemLogStorage StorageError Bool :=
  Prog.reads fun s => (s.entries.lookup id.asBytes).isSome

def getParentCids (id : LogEntryId) : Prog MemLogStorage StorageError (Option (List Cid)) :=
  Prog.reads fun s => (s.entries.lookup id.asBytes).map LogEntry.parentCids

def listTips (group : GroupName) : Prog MemLogStorage StorageError (List LogEntryId) :=
  Prog.reads fun s => ((s.tips.lookup group.asStr).getD []).map LogEntryId.mk

def setTips (group : GroupName) (tips : List LogEntryId) : Prog MemLogStorage StorageError Unit :=
  Prog.ofExec fun s =>
    (.ok (), { s with tips := s.tips.insert group.asStr (tips.map LogEntryId.asBytes) })

def advanceTips (group : GroupName) (parentsToRemove : List LogEntryId) (newTip : LogEntryId) :
    Prog MemLogStorage StorageError Unit :=
  Prog.ofExec fun s =>
    let parentSet := parentsToRemove.map LogEntryId.asBytes
    let current := ((s.tips.lookup group.asStr).getD []).filter fun id => decide (id ∉ parentSet)
    let current := if newTip.asBytes ∈ current then current else current ++ [newTip.asBytes]
    (.ok (), { s with tips := s.tips.insert group.asStr current })

def tipCount (group : GroupName) : Prog MemLogStorage StorageError UInt64 :=
  Prog.reads fun s => UInt64.ofNat (((s.tips.lookup group.asStr).map List.length).getD 0)

/-- Two separate calls: there is no crash to recover from. -/
def insertEntryAndAdvanceTips (id : LogEntryId) (entry : LogEntry) (group : GroupName)
    (parentsToRemove : List LogEntryId) (newTip : LogEntryId) :
    Prog MemLogStorage StorageError Unit := do
  insertEntry id entry
  advanceTips group parentsToRemove newTip

instance : LogStorage MemLogStorage where
  insertEntry := insertEntry
  getEntry := getEntry
  hasEntry := hasEntry
  getParentCids := getParentCids
  listTips := listTips
  setTips := setTips
  advanceTips := advanceTips
  insertEntryAndAdvanceTips := insertEntryAndAdvanceTips
  tipCount := tipCount

def view (s : MemLogStorage) : LogView where
  entry id := s.entries.lookup id.asBytes
  tips g := ((s.tips.lookup g.asStr).getD []).map LogEntryId.mk

theorem view_insert (s : MemLogStorage) (id : LogEntryId) (e : LogEntry) :
    (view s).Inserted (view { s with entries := s.entries.insert id.asBytes e }) id e := by
  refine ⟨?_, rfl⟩
  funext other
  by_cases same : other = id
  · subst same
    simp [view, lookup_insert]
  · have keys : other.asBytes ≠ id.asBytes := fun h => same (congrArg LogEntryId.mk h)
    simp only [view, lookup_insert_ne keys, Function.update_of_ne same]

/-- Raw keys and ids are advanced alike. -/
private theorem map_mk_advance (raw : List (FixedBytes 32)) (parents : List LogEntryId) (new : LogEntryId) :
    (let kept := raw.filter fun id => decide (id ∉ parents.map LogEntryId.asBytes)
      if new.asBytes ∈ kept then kept else kept ++ [new.asBytes]).map LogEntryId.mk =
      advance (raw.map LogEntryId.mk) parents new := by
  have member (id : FixedBytes 32) : id ∈ parents.map LogEntryId.asBytes ↔
      LogEntryId.mk id ∈ parents := by
    constructor
    · intro h
      obtain ⟨p, present, rfl⟩ := mem_map.mp h
      exact present
    · intro h
      exact mem_map.mpr ⟨_, h, rfl⟩
  have kept : ((raw.filter fun id => decide (id ∉ parents.map LogEntryId.asBytes)).map
      LogEntryId.mk) = (raw.map LogEntryId.mk).filter fun t => decide (t ∉ parents) := by
    rw [filter_map]
    simp only [Function.comp_def, member]
  have inside : new.asBytes ∈ (raw.filter fun id => decide (id ∉ parents.map LogEntryId.asBytes)) ↔
      new ∈ (raw.map LogEntryId.mk).filter fun t => decide (t ∉ parents) := by
    rw [← kept, mem_map]
    constructor
    · exact fun h => ⟨_, h, rfl⟩
    · rintro ⟨x, h, rfl⟩
      exact h
  dsimp only [advance]
  rw [apply_ite (List.map LogEntryId.mk), map_append, kept]
  simp only [inside, map_cons, map_nil]

theorem view_advanceTips (s : MemLogStorage) (g : GroupName) (parents : List LogEntryId)
    (new : LogEntryId) : (view s).Advanced (view ((advanceTips g parents new).exec s).2) g parents new := by
  refine ⟨rfl, ?_, ?_⟩
  · intro h other
    have names : h.asStr ≠ g.asStr := fun same => other (GroupName.ext_asStr same)
    simp only [view, advanceTips, exec_ofExec, lookup_insert_ne names]
  · have tips := map_mk_advance ((s.tips.lookup g.asStr).getD []) parents new
    simp only [view, advanceTips, exec_ofExec, lookup_insert, Option.getD_some]
    exact List.Perm.of_eq tips

theorem view_setTips (s : MemLogStorage) (g : GroupName) (tips : List LogEntryId) :
    (view s).TipsSet (view ((setTips g tips).exec s).2) g tips := by
  refine ⟨rfl, ?_, ?_⟩
  · intro h other
    have names : h.asStr ≠ g.asStr := fun same => other (GroupName.ext_asStr same)
    simp only [view, setTips, exec_ofExec, lookup_insert_ne names]
  · simp only [view, setTips, exec_ofExec, lookup_insert, Option.getD_some, map_map]
    exact List.Perm.of_eq (map_id tips)

private theorem insertOutcome (s : MemLogStorage) (id : LogEntryId) (e : LogEntry) :
    Prog.Satisfies (insertEntry id e) s
      (InsertOutcome view (fun _ => True) (fun _ => True) s id e fun e' v =>
        (view s).Inserted v id e') := by
  unfold Prog.Satisfies insertEntry
  rw [exec_ofExec]
  split
  · rename_i present
    refine ⟨fun h => h, nofun, fun _ _ => rfl, fun _ _ => present, ?_, fun _ _ _ => rfl⟩
    intro _ _ absent
    have : s.entries.lookup id.asBytes = none := absent
    simp [this] at present
  · rename_i absent
    refine ⟨fun h => h, fun _ => ⟨?_, e, StoredAs.refl e, view_insert s id e⟩, nofun, nofun,
      fun _ _ _ => rfl, fun _ _ present => absurd present absent⟩
    exact LogView.not_stored_iff.mp absent

instance : LawfulLogStorage MemLogStorage where
  log := view
  Healthy _ := True
  Storable _ := True
  getEntry_outcome _ _ := ⟨rfl, id, fun _ h => (Except.ok.inj h).symm, nofun⟩
  hasEntry_outcome _ _ := ⟨rfl, id, fun _ h => by rw [← Except.ok.inj h]; rfl, nofun⟩
  getParentCids_outcome _ _ := ⟨rfl, id, fun _ h => (Except.ok.inj h).symm, nofun⟩
  listTips_outcome _ _ := ⟨rfl, id, fun _ h => (Except.ok.inj h).symm, nofun⟩
  insertEntry_outcome := insertOutcome
  tipCount_outcome s g := by
    refine ⟨rfl, id, fun n returned => ?_, nofun⟩
    rw [← Except.ok.inj returned]
    dsimp only [view]
    cases s.tips.lookup g.asStr with
    | none => rfl
    | some raw => simp only [Option.map_some, Option.getD_some, length_map]
  setTips_outcome s g tips := ⟨id, fun _ => view_setTips s g tips, nofun⟩
  advanceTips_outcome s g parents new := ⟨id, fun _ => view_advanceTips s g parents new, nofun⟩
  insertEntryAndAdvanceTips_outcome s id e g parents new := by
    apply satisfies_bind (insertOutcome s id e)
    · intro _ mid outcome
      obtain ⟨absent, e', stored, inserted⟩ := outcome.inserted rfl
      refine ⟨fun h => h, fun _ => ⟨absent, e', stored, view mid, inserted, ?_⟩, nofun, nofun,
        fun _ _ _ => rfl, fun _ _ present => ?_⟩
      · exact view_advanceTips mid g parents new
      · exact absurd present (LogView.not_stored_iff.mpr absent)
    · intro err mid outcome
      exact ⟨outcome.stays_healthy, nofun, outcome.failed, outcome.duplicate,
        fun healthy storable absent => (nomatch outcome.absent healthy storable absent),
        outcome.present⟩

theorem log_tips (s : MemLogStorage) (g : GroupName) :
    (log s).tips g = ((s.tips.lookup g.asStr).getD []).map LogEntryId.mk := rfl

theorem log_entry (s : MemLogStorage) (id : LogEntryId) :
    (log s).entry id = s.entries.lookup id.asBytes := rfl

theorem entry_of_insertEntry (s : MemLogStorage) (id : LogEntryId) (e : LogEntry)
    (ok : ((insertEntry id e).exec s).1 = .ok ()) :
    (log ((insertEntry id e).exec s).2).entry id = some e := by
  change ((insertEntry id e).exec s).1 = .ok () at ok
  change ((insertEntry id e).exec s).2.entries.lookup id.asBytes = some e
  simp only [insertEntry, exec_ofExec] at ok ⊢
  split at ok
  · cases ok
  · rename_i absent
    rw [if_neg absent]
    exact lookup_insert _

theorem entry_of_insertEntryAndAdvanceTips (s : MemLogStorage) (id : LogEntryId) (e : LogEntry)
    (g : GroupName) (parents : List LogEntryId) (new : LogEntryId)
    (ok : ((insertEntryAndAdvanceTips id e g parents new).exec s).1 = .ok ()) :
    (log ((insertEntryAndAdvanceTips id e g parents new).exec s).2).entry
      id = some e := by
  obtain ⟨⟨⟩, mid, first, second⟩ := of_exec_bind_ok (Prod.ext ok rfl)
  have stored := entry_of_insertEntry s id e (congrArg Prod.fst first)
  -- The second call leaves the entries alone.
  have entries : mid.entries =
      ((insertEntryAndAdvanceTips id e g parents new).exec s).2.entries :=
    congrArg (fun run => run.2.entries) second
  have inserted : ((insertEntry id e).exec s).2 = mid := congrArg Prod.snd first
  rw [log_entry, ← entries, ← log_entry, ← inserted]
  exact stored

end MemLogStorage

end Stoa
