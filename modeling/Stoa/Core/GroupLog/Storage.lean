import Mathlib.Logic.Function.Basic
import Stoa.Core.Canonical
import Stoa.Core.Hlc
import Stoa.Lib.Prog

/-! The storage interface of the group log, and the laws its backends are held to. -/
namespace Stoa

structure LogEntryId where
  asBytes : FixedBytes 32
  deriving DecidableEq

structure LogEntry where
  hlcTimestamp : HlcTimestamp
  articleCid : Cid
  operatorSignature : Bytes
  parentCids : List Cid
  deriving DecidableEq

namespace LogEntryId

def toCid (id : LogEntryId) : Cid :=
  Cid.newV1 0x71 (.ofDigest id.asBytes)

def fromEntry (entry : LogEntry) : LogEntryId :=
  ⟨Sha256.digest (entryIdBytes entry.hlcTimestamp.wallMs entry.articleCid entry.operatorSignature
    entry.parentCids)⟩

def toString (id : LogEntryId) : String := Multibase.hexEncode id.asBytes.toBytes

def ofCid (c : Cid) : Option LogEntryId := (FixedBytes.tryFrom 32 c.hash.digest).map LogEntryId.mk

@[simp] theorem ofCid_toCid (id : LogEntryId) : ofCid id.toCid = some id := by
  simp [ofCid, toCid, Cid.newV1]

theorem toCid_injective : Function.Injective toCid := by
  intro a b h
  have same := congrArg ofCid h
  simpa using same

end LogEntryId

/-- The ids named by the entry's parent CIDs; a CID with another digest length is skipped. -/
def parentIdsFromEntry (entry : LogEntry) : List LogEntryId :=
  entry.parentCids.filterMap LogEntryId.ofCid

inductive StorageError
  | database (message : String)
  | migrationFailed (message : String)
  | entryNotFound (id : LogEntryId)
  | duplicateEntry (id : LogEntryId)
  | ipfsWriteFailed (message : String)
  | ipfsPinFailed (message : String)
  | ipfsNotReachable
  deriving DecidableEq

def StorageError.toString : StorageError → String
  | .database message => "database error: " ++ message
  | .migrationFailed message => "migration failed: " ++ message
  | .entryNotFound id => "log entry not found: " ++ id.toString
  | .duplicateEntry id => "duplicate log entry: " ++ id.toString
  | .ipfsWriteFailed message => "IPFS write failed: " ++ message
  | .ipfsPinFailed message => "IPFS pin failed: " ++ message
  | .ipfsNotReachable => "IPFS node not reachable"

/-- The storage backend of the per-group log, with `S` the backend's state. -/
class LogStorage (S : Type) where
  insertEntry : LogEntryId → LogEntry → Prog S StorageError Unit
  getEntry : LogEntryId → Prog S StorageError (Option LogEntry)
  hasEntry : LogEntryId → Prog S StorageError Bool
  getParentCids : LogEntryId → Prog S StorageError (Option (List Cid))
  listTips : GroupName → Prog S StorageError (List LogEntryId)
  setTips : GroupName → List LogEntryId → Prog S StorageError Unit
  advanceTips (group : GroupName) (parentsToRemove : List LogEntryId) (newTip : LogEntryId) :
    Prog S StorageError Unit
  insertEntryAndAdvanceTips (id : LogEntryId) (entry : LogEntry) (group : GroupName)
    (parentsToRemove : List LogEntryId) (newTip : LogEntryId) : Prog S StorageError Unit
  tipCount : GroupName → Prog S StorageError UInt64

structure LogView where
  entry : LogEntryId → Option LogEntry
  tips : GroupName → List LogEntryId

/-- The tips after `parents` are retired and `new` is added. -/
def advance (tips parents : List LogEntryId) (new : LogEntryId) : List LogEntryId :=
  let kept := tips.filter fun t => decide (t ∉ parents)
  if new ∈ kept then kept else kept ++ [new]

theorem mem_advance {tips parents : List LogEntryId} {new t : LogEntryId} :
    t ∈ advance tips parents new ↔ t = new ∨ t ∈ tips ∧ t ∉ parents := by
  unfold advance
  dsimp only
  split
  · rename_i present
    rw [List.mem_filter, decide_eq_true_eq] at present ⊢
    constructor
    · exact Or.inr
    · rintro (rfl | kept)
      · exact present
      · exact kept
  · rw [List.mem_append, List.mem_filter, decide_eq_true_eq, List.mem_singleton, or_comm]

theorem advance_perm {tips tips' : List LogEntryId} (perm : tips.Perm tips')
    (parents : List LogEntryId) (new : LogEntryId) :
    (advance tips parents new).Perm (advance tips' parents new) := by
  have kept := perm.filter fun t => decide (t ∉ parents)
  unfold advance
  dsimp only
  simp only [kept.mem_iff]
  split
  · exact kept
  · exact kept.append_right [new]

namespace LogView

def Stored (v : LogView) (id : LogEntryId) : Prop := (v.entry id).isSome = true

instance (v : LogView) : DecidablePred v.Stored := fun id =>
  inferInstanceAs (Decidable ((v.entry id).isSome = true))

theorem stored_iff {v : LogView} {id : LogEntryId} : v.Stored id ↔ ∃ e, v.entry id = some e :=
  Option.isSome_iff_exists

theorem not_stored_iff {v : LogView} {id : LogEntryId} : ¬v.Stored id ↔ v.entry id = none := by
  unfold Stored
  rw [Bool.not_eq_true, Option.isSome_eq_false_iff, Option.isNone_iff_eq_none]

/-- `v'` is `v` with `e` under `id`. -/
structure Inserted (v v' : LogView) (id : LogEntryId) (e : LogEntry) : Prop where
  entry_eq : v'.entry = Function.update v.entry id (some e)
  tips_eq : v'.tips = v.tips

/-- `v'` is `v` with the tips of `g` advanced, in some order. -/
structure Advanced (v v' : LogView) (g : GroupName) (parents : List LogEntryId) (new : LogEntryId) :
    Prop where
  entry_eq : v'.entry = v.entry
  others : ∀ h, h ≠ g → v'.tips h = v.tips h
  tips_perm : (v'.tips g).Perm (advance (v.tips g) parents new)

theorem Advanced.mem_tips {v v' : LogView} {g : GroupName} {parents : List LogEntryId}
    {new t : LogEntryId} (h : Advanced v v' g parents new) :
    t ∈ v'.tips g ↔ t = new ∨ t ∈ v.tips g ∧ t ∉ parents := by
  rw [h.tips_perm.mem_iff, mem_advance]

/-- `v'` is `v` with `tips` for the tips of `g`, in some order. -/
structure TipsSet (v v' : LogView) (g : GroupName) (tips : List LogEntryId) : Prop where
  entry_eq : v'.entry = v.entry
  others : ∀ h, h ≠ g → v'.tips h = v.tips h
  tips_perm : (v'.tips g).Perm tips

end LogView

/-- What a backend may change about an entry: everything its id covers stays, parents as a set. -/
structure StoredAs (e e' : LogEntry) : Prop where
  wallMs : e'.hlcTimestamp.wallMs = e.hlcTimestamp.wallMs
  articleCid : e'.articleCid = e.articleCid
  operatorSignature : e'.operatorSignature = e.operatorSignature
  parents : ∀ c, c ∈ e'.parentCids ↔ c ∈ e.parentCids

theorem StoredAs.refl (e : LogEntry) : StoredAs e e := ⟨rfl, rfl, rfl, fun _ => Iff.rfl⟩

theorem StoredAs.mem_parentIds {e e' : LogEntry} (h : StoredAs e e') (id : LogEntryId) :
    id ∈ parentIdsFromEntry e' ↔ id ∈ parentIdsFromEntry e := by
  simp [parentIdsFromEntry, h.parents]

section Outcomes

variable {S ε α : Type} (log : S → LogView) (healthy : S → Prop)

/-- The outcome of a read: the view stays, and the value read is as `value` says. -/
structure ReadOutcome (s : S) (value : α → Prop) (r : Except ε α) (s' : S) : Prop where
  log_eq : log s' = log s
  stays_healthy : healthy s → healthy s'
  returned : ∀ a, r = .ok a → value a
  failed : ∀ e, r = .error e → ¬healthy s

/-- The outcome of an insertion of `e` under `id`, with `effect` on the view. -/
structure InsertOutcome (storable : LogEntry → Prop) (s : S) (id : LogEntryId) (e : LogEntry)
    (effect : LogEntry → LogView → Prop) (r : Except StorageError Unit) (s' : S) : Prop where
  stays_healthy : healthy s → healthy s'
  inserted : r = .ok () → (log s).entry id = none ∧ ∃ e', StoredAs e e' ∧ effect e' (log s')
  failed : ∀ err, r = .error err → log s' = log s
  duplicate : ∀ i, r = .error (.duplicateEntry i) → (log s).Stored id
  absent : healthy s → storable e → (log s).entry id = none → r = .ok ()
  present : healthy s → storable e → (log s).Stored id → r = .error (.duplicateEntry id)

/-- The outcome of an update of the tips, with `effect` on the view; a healthy backend refuses
nothing that is `admitted`. -/
structure UpdateOutcome (s : S) (admitted : Prop) (effect : LogView → Prop)
    (r : Except StorageError Unit) (s' : S) : Prop where
  stays_healthy : healthy s → healthy s'
  updated : r = .ok () → effect (log s')
  failed : ∀ err, r = .error err → log s' = log s ∧ (admitted → ¬healthy s)

variable {log healthy}

variable {s : S}

theorem ReadOutcome.succeeds {s' : S} {value : α → Prop} {r : Except ε α}
    (outcome : ReadOutcome log healthy s value r s') (h : healthy s) : ∃ a, r = .ok a := by
  cases r with
  | ok a => exact ⟨a, rfl⟩
  | error e => exact absurd h (outcome.failed e rfl)

variable {x : Prog S ε α}

theorem exec_of_read {a : α}
    (read : Prog.Satisfies x s (ReadOutcome log healthy s (· = a))) (h : healthy s) :
    ∃ s', x.exec s = (.ok a, s') ∧ log s' = log s ∧ healthy s' := by
  obtain ⟨b, ok⟩ := ReadOutcome.succeeds read h
  have value : b = a := read.returned b ok
  exact ⟨(x.exec s).2, Prod.ext (value ▸ ok) rfl, read.log_eq, read.stays_healthy h⟩

variable {r : Except StorageError Unit}

theorem UpdateOutcome.succeeds {s' : S} {admitted : Prop} {effect : LogView → Prop}
    (outcome : UpdateOutcome log healthy s admitted effect r s')
    (h : healthy s) (may : admitted) : r = .ok () := by
  cases r with
  | ok _ => rfl
  | error e => exact absurd h ((outcome.failed e rfl).2 may)

theorem read_mapError {ε' : Type} {value : α → Prop} (f : ε → ε')
    (read : Prog.Satisfies x s (ReadOutcome log healthy s value)) :
    Prog.Satisfies (x.mapError f) s (ReadOutcome log healthy s value) := by
  apply Prog.satisfies_mapError read
  · intro a s' h
    exact ⟨h.log_eq, h.stays_healthy, fun b same => h.returned b (Except.ok.inj same ▸ rfl), nofun⟩
  · intro e s' h
    exact ⟨h.log_eq, h.stays_healthy, nofun, fun _ _ => h.failed e rfl⟩

theorem satisfies_bind_read {β : Type} {f : α → Prog S ε β} {value : α → Prop} {Q : Except ε β → S → Prop}
    (read : Prog.Satisfies x s (ReadOutcome log healthy s value))
    (next : ∀ a s', log s' = log s → (healthy s → healthy s') → value a →
      Prog.Satisfies (f a) s' Q) (failed : ∀ e s', log s' = log s → ¬healthy s → Q (.error e) s') :
    Prog.Satisfies (x >>= f) s Q := by
  apply Prog.satisfies_bind read
  · intro a s' h
    exact next a s' h.log_eq h.stays_healthy (h.returned a rfl)
  · intro e s' h
    exact failed e s' h.log_eq (h.failed e rfl)

theorem read_pure {a : α} {value : α → Prop} (h : value a) :
    Prog.Satisfies (pure a : Prog S ε α) s (ReadOutcome log healthy s value) :=
  ⟨rfl, fun h => h, fun _ same => Except.ok.inj same ▸ h, nofun⟩

theorem read_imp {value value' : α → Prop}
    (read : Prog.Satisfies x s (ReadOutcome log healthy s value)) (weaker : ∀ a, value a → value' a) :
    Prog.Satisfies x s (ReadOutcome log healthy s value') :=
  read.imp fun _ _ outcome => ⟨outcome.log_eq, outcome.stays_healthy,
    fun a ok => weaker a (outcome.returned a ok), outcome.failed⟩

theorem read_bind {β : Type} {f : α → Prog S ε β} {first : α → Prop}
    {value : β → Prop} (read : Prog.Satisfies x s (ReadOutcome log healthy s first))
    (next : ∀ a s', log s' = log s → first a → Prog.Satisfies (f a) s' (ReadOutcome log healthy s' value)) :
    Prog.Satisfies (x >>= f) s (ReadOutcome log healthy s value) := by
  apply satisfies_bind_read read
  · intro a s₁ view stays found
    apply (next a s₁ view found).imp
    intro r s₂ outcome
    exact ⟨outcome.log_eq.trans view, fun h => outcome.stays_healthy (stays h), outcome.returned,
      fun e failed h => outcome.failed e failed (stays h)⟩
  · intro e s₁ view unhealthy
    exact ⟨view, fun h => absurd h unhealthy, nofun, fun _ _ => unhealthy⟩

theorem satisfies_duplicate_ok {β : Type} {inserted duplicate : Prog S ε β}
    {failed : StorageError → Prog S ε β}
    {Q : Except ε β → S → Prop} (ok : r = .ok () → Prog.Satisfies inserted s Q)
    (present : ∀ i, r = .error (.duplicateEntry i) → Prog.Satisfies duplicate s Q)
    (error : ∀ e, r = .error e → (∀ i, e ≠ .duplicateEntry i) → Prog.Satisfies (failed e) s Q) :
    Prog.Satisfies (match r with
      | .ok () => inserted
      | .error (.duplicateEntry _) => duplicate
      | .error e => failed e) s Q := by
  rcases r with e | ⟨⟩
  · cases e with
    | duplicateEntry i => exact present i rfl
    | _ => exact error _ rfl nofun
  · exact ok rfl

end Outcomes

/-- A backend that keeps a log: its operations read and change its view as the interface says. -/
class LawfulLogStorage (S : Type) [LogStorage S] where
  log : S → LogView
  Healthy : S → Prop
  /-- Entries the backend has room for. -/
  Storable : LogEntry → Prop
  getEntry_outcome (s : S) (id : LogEntryId) : Prog.Satisfies (LogStorage.getEntry id) s
    (ReadOutcome log Healthy s (· = (log s).entry id))
  hasEntry_outcome (s : S) (id : LogEntryId) : Prog.Satisfies (LogStorage.hasEntry id) s
    (ReadOutcome log Healthy s (fun b => b = true ↔ (log s).Stored id))
  getParentCids_outcome (s : S) (id : LogEntryId) : Prog.Satisfies (LogStorage.getParentCids id) s
    (ReadOutcome log Healthy s (· = ((log s).entry id).map LogEntry.parentCids))
  listTips_outcome (s : S) (g : GroupName) : Prog.Satisfies (LogStorage.listTips g) s
    (ReadOutcome log Healthy s (· = (log s).tips g))
  tipCount_outcome (s : S) (g : GroupName) : Prog.Satisfies (LogStorage.tipCount g) s
    (ReadOutcome log Healthy s (· = UInt64.ofNat ((log s).tips g).length))
  /-- A list that repeats a tip may be refused. -/
  setTips_outcome (s : S) (g : GroupName) (tips : List LogEntryId) :
    Prog.Satisfies (LogStorage.setTips g tips) s
      (UpdateOutcome log Healthy s tips.Nodup fun v => (log s).TipsSet v g tips)
  insertEntry_outcome (s : S) (id : LogEntryId) (e : LogEntry) :
    Prog.Satisfies (LogStorage.insertEntry id e) s
      (InsertOutcome log Healthy Storable s id e fun e' v => (log s).Inserted v id e')
  advanceTips_outcome (s : S) (g : GroupName) (parents : List LogEntryId) (new : LogEntryId) :
    Prog.Satisfies (LogStorage.advanceTips g parents new) s
      (UpdateOutcome log Healthy s True fun v => (log s).Advanced v g parents new)
  insertEntryAndAdvanceTips_outcome (s : S) (id : LogEntryId) (e : LogEntry) (g : GroupName)
    (parents : List LogEntryId) (new : LogEntryId) :
    Prog.Satisfies (LogStorage.insertEntryAndAdvanceTips id e g parents new) s
      (InsertOutcome log Healthy Storable s id e fun e' v =>
        ∃ mid, (log s).Inserted mid id e' ∧ mid.Advanced v g parents new)

end Stoa
