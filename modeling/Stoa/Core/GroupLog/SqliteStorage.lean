import Stoa.Core.GroupLog.Storage
import Stoa.Lib.Table

/-! Entries, their parent links and the tips of each group in three keyed tables. -/
namespace Stoa

open List FixedBytes Table GroupName
structure LogEntriesRow where
  id : Bytes
  hlcTimestamp : Int
  articleCid : Bytes
  operatorSignature : Bytes
  deriving DecidableEq

structure LogEntryParentsRow where
  entryId : Bytes
  parentId : Bytes
  deriving DecidableEq

structure GroupTipsRow where
  groupName : String
  tipId : Bytes
  deriving DecidableEq

structure SqliteDb where
  logEntries : Table LogEntriesRow LogEntriesRow.id
  logEntryParents : Table LogEntryParentsRow (fun r => r)
  groupTips : Table GroupTipsRow (fun r => r)

namespace SqliteDb

def empty : SqliteDb := ⟨Table.empty, Table.empty, Table.empty⟩

def uniqueViolation (columns : String) : StorageError :=
  .database ("error returned from database: (code: 1555) UNIQUE constraint failed: " ++ columns)

def cidFromBytes (b : Bytes) : Except StorageError Cid :=
  match Cid.tryFrom b with
  | .ok c => .ok c
  | .error e => .error (.database ("invalid CID bytes: " ++ e.toString))

/-- `i64::try_from(wall_ms)` with the backend's error. -/
def columnTimestamp (t : HlcTimestamp) : Except StorageError Int :=
  if t.wallMs.toNat < 2 ^ 63 then .ok t.wallMs.toNat
  else .error (.database
    ("HLC timestamp " ++ t.debug ++ " exceeds i64::MAX — cannot store"))

/-- Run statements on a copy of the tables and keep it only if none of them failed. -/
def transaction (body : SqliteDb → Except StorageError SqliteDb) :
    Prog SqliteDb StorageError Unit :=
  Prog.ofExec fun db => match body db with
    | .ok db' => (.ok (), db')
    | .error e => (.error e, db)

def insertRows (id : LogEntryId) (entry : LogEntry) (db : SqliteDb) :
    Except StorageError SqliteDb := do
  let ts ← columnTimestamp entry.hlcTimestamp
  let row : LogEntriesRow :=
    ⟨id.asBytes.toBytes, ts, entry.articleCid.toBytes, entry.operatorSignature⟩
  match db.logEntries.insert row with
  | none => .error (.duplicateEntry id)
  | some logEntries =>
    let links := entry.parentCids.map fun c => ⟨id.asBytes.toBytes, c.toBytes⟩
    .ok { db with
      logEntries := logEntries
      logEntryParents := links.foldl Table.insertOrIgnore db.logEntryParents }

def advanceRows (group : GroupName) (parentsToRemove : List LogEntryId) (newTip : LogEntryId)
    (db : SqliteDb) : SqliteDb :=
  let parents := parentsToRemove.map fun p => p.asBytes.toBytes
  let kept := db.groupTips.delete fun r =>
    decide (r.groupName = group.asStr) && decide (r.tipId ∈ parents)
  { db with groupTips := kept.insertOrIgnore ⟨group.asStr, newTip.asBytes.toBytes⟩ }

def insertEntry (id : LogEntryId) (entry : LogEntry) : Prog SqliteDb StorageError Unit :=
  transaction (insertRows id entry)

def hasRow (db : SqliteDb) (id : LogEntryId) : Bool :=
  (db.logEntries.rows.find? fun r => decide (r.id = id.asBytes.toBytes)).isSome

/-- `SELECT parent_id .. WHERE entry_id = ?`, each column read back as a CID. -/
def parentsOf (db : SqliteDb) (id : LogEntryId) : Except StorageError (List Cid) :=
  (db.logEntryParents.select fun r => decide (r.entryId = id.asBytes.toBytes)).mapM
    fun r => cidFromBytes r.parentId

def readEntry (db : SqliteDb) (id : LogEntryId) : Except StorageError (Option LogEntry) :=
  match db.logEntries.rows.find? fun r => decide (r.id = id.asBytes.toBytes) with
  | none => .ok none
  | some row => do
    let articleCid ← cidFromBytes row.articleCid
    let parentCids ← db.parentsOf id
    if row.hlcTimestamp < 0 then
      .error (.database ("corrupt hlc_timestamp " ++ toString row.hlcTimestamp ++
        " in log entry: expected non-negative"))
    else
      .ok (some
        { hlcTimestamp := .ofWallMs (UInt64.ofNat row.hlcTimestamp.toNat)
          articleCid := articleCid
          operatorSignature := row.operatorSignature
          parentCids := parentCids })

def getEntry (id : LogEntryId) : Prog SqliteDb StorageError (Option LogEntry) :=
  Prog.ofExec fun db => (db.readEntry id, db)

def hasEntry (id : LogEntryId) : Prog SqliteDb StorageError Bool :=
  Prog.reads fun db => db.hasRow id

def getParentCids (id : LogEntryId) : Prog SqliteDb StorageError (Option (List Cid)) :=
  Prog.ofExec fun db =>
    (if db.hasRow id then (db.parentsOf id).map some else .ok none, db)

def tipFromBytes (b : Bytes) : Except StorageError LogEntryId :=
  match FixedBytes.tryFrom 32 b with
  | some a => .ok ⟨a⟩
  | none => .error (.database ("corrupt tip_id: expected 32 bytes, got " ++ toString b.length))

def readTips (db : SqliteDb) (group : GroupName) : Except StorageError (List LogEntryId) :=
  (db.groupTips.select fun r => decide (r.groupName = group.asStr)).mapM
    fun r => tipFromBytes r.tipId

def listTips (group : GroupName) : Prog SqliteDb StorageError (List LogEntryId) :=
  Prog.ofExec fun db => (db.readTips group, db)

def setTips (group : GroupName) (tips : List LogEntryId) : Prog SqliteDb StorageError Unit :=
  transaction fun db =>
    let cleared := db.groupTips.delete fun r => decide (r.groupName = group.asStr)
    match cleared.insertAll (tips.map fun t => ⟨group.asStr, t.asBytes.toBytes⟩) with
    | some groupTips => .ok { db with groupTips := groupTips }
    | none => .error (uniqueViolation "group_tips.group_name, group_tips.tip_id")

def advanceTips (group : GroupName) (parentsToRemove : List LogEntryId) (newTip : LogEntryId) :
    Prog SqliteDb StorageError Unit :=
  transaction fun db => .ok (advanceRows group parentsToRemove newTip db)

def insertEntryAndAdvanceTips (id : LogEntryId) (entry : LogEntry) (group : GroupName)
    (parentsToRemove : List LogEntryId) (newTip : LogEntryId) : Prog SqliteDb StorageError Unit :=
  transaction fun db => do
    let db ← insertRows id entry db
    return advanceRows group parentsToRemove newTip db

def tipCount (group : GroupName) : Prog SqliteDb StorageError UInt64 :=
  Prog.reads fun db =>
    UInt64.ofNat (db.groupTips.select fun r => decide (r.groupName = group.asStr)).length

/-! The tables as this backend writes them: every column reads back, and a parent link
belongs to a stored entry. The reading operations then cannot meet a corrupt row.
-/

structure Consistent (db : SqliteDb) : Prop where
  articleCids : ∀ r ∈ db.logEntries.rows, ∃ c : Cid, r.articleCid = c.toBytes
  timestamps : ∀ r ∈ db.logEntries.rows, 0 ≤ r.hlcTimestamp
  parentCids : ∀ r ∈ db.logEntryParents.rows, ∃ c : Cid, r.parentId = c.toBytes
  linked : ∀ r ∈ db.logEntryParents.rows, ∃ e ∈ db.logEntries.rows, e.id = r.entryId
  tipIds : ∀ r ∈ db.groupTips.rows, ∃ t : LogEntryId, r.tipId = t.asBytes.toBytes

theorem consistent_empty : Consistent empty where
  articleCids := nofun
  timestamps := nofun
  parentCids := nofun
  linked := nofun
  tipIds := nofun

@[simp] theorem cidFromBytes_toBytes (c : Cid) : cidFromBytes c.toBytes = .ok c := by
  simp only [cidFromBytes, Cid.tryFrom_toBytes]

@[simp] theorem tipFromBytes_toBytes (t : LogEntryId) : tipFromBytes t.asBytes.toBytes = .ok t := by
  simp only [tipFromBytes, tryFrom_toBytes]

/-- Reading back a column in which every row holds an encoded value. -/
private theorem mapM_column {ρ α ε : Type} (rows : List ρ) (column : ρ → Bytes) (encode : α → Bytes)
    {read : Bytes → Except ε α} (reads : ∀ a, read (encode a) = .ok a)
    (encoded : ∀ r ∈ rows, ∃ a, column r = encode a) :
    ∃ values, rows.mapM (fun r => read (column r)) = .ok values ∧ rows.map column = values.map encode := by
  induction rows with
  | nil => exact ⟨[], rfl, rfl⟩
  | cons r rest ih =>
    obtain ⟨a, head⟩ := encoded r mem_cons_self
    obtain ⟨values, tail, columns⟩ := ih fun x h => encoded x (mem_cons_of_mem r h)
    refine ⟨a :: values, ?_, ?_⟩
    · simp only [mapM_cons, head, reads, tail, bind, Except.bind, pure, Except.pure]
    · simp only [map_cons, head, columns]

/-- A selection that fixes all but one column reads back the values of that column, each once. -/
private theorem select_column {ρ α ε : Type} (t : Table ρ (fun r => r)) (p : ρ → Bool)
    (column : ρ → Bytes) {encode : α → Bytes} {read : Bytes → Except ε α} (row : α → ρ)
    (reads : ∀ a, read (encode a) = .ok a) (encoded : ∀ r ∈ t.rows, ∃ a, column r = encode a)
    (selected : ∀ a, p (row a) = true) (value : ∀ a, column (row a) = encode a)
    (only : ∀ r a, p r = true → column r = encode a → r = row a) :
    ∃ values, (t.select p).mapM (fun r => read (column r)) = .ok values ∧ values.Nodup ∧
      (t.select p).length = values.length ∧ ∀ a, a ∈ values ↔ row a ∈ t.rows := by
  obtain ⟨values, returned, columns⟩ := mapM_column (t.select p) column encode reads
    (fun r h => encoded r (mem_filter.mp h).1)
  have injective : Function.Injective encode := by
    intro a b same
    have both := reads a
    rw [same, reads b] at both
    exact (Except.ok.inj both).symm
  refine ⟨values, returned, ?_, ?_, ?_⟩
  · have distinct : (values.map encode).Nodup := by
      rw [← columns]
      apply List.Nodup.map_on
      · intro r hr q hq same
        obtain ⟨a, encodes⟩ := encoded q (mem_filter.mp hq).1
        rw [only r a (mem_filter.mp hr).2 (same.trans encodes),
          only q a (mem_filter.mp hq).2 encodes]
      · exact List.Nodup.filter p (by simpa using t.unique)
    exact List.Nodup.of_map _ distinct
  · simpa using congrArg List.length columns
  · intro a
    rw [← mem_map_of_injective injective, ← columns, mem_map]
    constructor
    · rintro ⟨r, member, encodes⟩
      have kept := mem_filter.mp member
      exact only r a kept.2 encodes ▸ kept.1
    · intro present
      exact ⟨row a, mem_filter.mpr ⟨present, selected a⟩, value a⟩

theorem hasRow_iff (db : SqliteDb) (id : LogEntryId) :
    db.hasRow id = true ↔ ∃ r ∈ db.logEntries.rows, r.id = id.asBytes.toBytes := by
  simp only [hasRow, List.find?_isSome, decide_eq_true_eq]

variable {db : SqliteDb}

theorem parentsOf_spec (ok : db.Consistent) (id : LogEntryId) :
    ∃ cids, db.parentsOf id = .ok cids ∧ cids.Nodup ∧
      ∀ c, c ∈ cids ↔ ⟨id.asBytes.toBytes, c.toBytes⟩ ∈ db.logEntryParents.rows := by
  obtain ⟨cids, reads, nodup, _, members⟩ := select_column db.logEntryParents
    (fun r => decide (r.entryId = id.asBytes.toBytes)) LogEntryParentsRow.parentId
    (fun c => ⟨id.asBytes.toBytes, c.toBytes⟩) cidFromBytes_toBytes ok.parentCids
    (fun _ => decide_eq_true rfl) (fun _ => rfl)
    (by
      rintro ⟨entryId, parentId⟩ c selected rfl
      have same : entryId = id.asBytes.toBytes := of_decide_eq_true selected
      rw [same])
  exact ⟨cids, reads, nodup, members⟩

theorem readTips_spec (ok : db.Consistent) (g : GroupName) : ∃ tips, db.readTips g = .ok tips ∧ tips.Nodup ∧
      (db.groupTips.select fun r => decide (r.groupName = g.asStr)).length = tips.length ∧
      ∀ t, t ∈ tips ↔ ⟨g.asStr, t.asBytes.toBytes⟩ ∈ db.groupTips.rows :=
  select_column db.groupTips (fun r => decide (r.groupName = g.asStr)) GroupTipsRow.tipId
    (fun t : LogEntryId => ⟨g.asStr, t.asBytes.toBytes⟩) tipFromBytes_toBytes ok.tipIds
    (fun _ => decide_eq_true rfl) (fun _ => rfl)
    (by
      rintro ⟨groupName, tipId⟩ t selected rfl
      have same : groupName = g.asStr := of_decide_eq_true selected
      rw [same])

variable {id : LogEntryId}

theorem readEntry_of_row (ok : db.Consistent) {r : LogEntriesRow}
    (member : r ∈ db.logEntries.rows) (key : r.id = id.asBytes.toBytes) :
    ∃ c cids, r.articleCid = Cid.toBytes c ∧ db.parentsOf id = .ok cids ∧
      db.readEntry id = .ok (some ⟨.ofWallMs (UInt64.ofNat r.hlcTimestamp.toNat), c,
        r.operatorSignature, cids⟩) := by
  obtain ⟨c, article⟩ := ok.articleCids r member
  obtain ⟨cids, parents, _⟩ := parentsOf_spec ok id
  have nonneg := ok.timestamps r member
  have found : (db.logEntries.rows.find? fun r => decide (r.id = id.asBytes.toBytes)) = some r := by
    cases search : db.logEntries.rows.find? fun r => decide (r.id = id.asBytes.toBytes) with
    | none =>
      have missing := List.find?_eq_none.mp search r member
      exact absurd (decide_eq_true key) missing
    | some q =>
      have keyQ : q.id = id.asBytes.toBytes := by simpa using List.find?_some search
      have same := inj_on_of_nodup_map db.logEntries.unique (mem_of_find?_eq_some search)
        member (keyQ.trans key.symm)
      rw [same]
  refine ⟨c, cids, article, parents, ?_⟩
  simp only [readEntry, found, article, cidFromBytes_toBytes, parents, bind, Except.bind]
  rw [if_neg (by omega)]

theorem readEntry_of_no_row (missing : ¬db.hasRow id = true) : db.readEntry id = .ok none := by
  unfold hasRow at missing
  rw [Bool.not_eq_true, Option.isSome_eq_false_iff, Option.isNone_iff_eq_none] at missing
  simp only [readEntry, missing]

def view (db : SqliteDb) : LogView where
  entry id := (db.readEntry id).toOption.join
  tips g := (db.readTips g).toOption.getD []

theorem readEntry_eq (ok : db.Consistent) (id : LogEntryId) : db.readEntry id = .ok (db.view.entry id) := by
  by_cases present : db.hasRow id = true
  · obtain ⟨r, member, key⟩ := (hasRow_iff db id).mp present
    obtain ⟨c, cids, _, _, reads⟩ := readEntry_of_row ok member key
    simp only [view, reads, Except.toOption, Option.join_some]
  · simp only [view, readEntry_of_no_row present, Except.toOption, Option.join_some]

theorem stored_iff_hasRow (ok : db.Consistent) (id : LogEntryId) :
    db.view.Stored id ↔ db.hasRow id = true := by
  by_cases present : db.hasRow id = true
  · obtain ⟨r, member, key⟩ := (hasRow_iff db id).mp present
    obtain ⟨c, cids, _, _, reads⟩ := readEntry_of_row ok member key
    refine iff_of_true ?_ present
    simp only [LogView.Stored, view, reads, Except.toOption, Option.join_some, Option.isSome_some]
  · refine iff_of_false ?_ present
    simp only [LogView.Stored, view, readEntry_of_no_row present, Except.toOption,
      Option.join_some, Option.isSome_none, Bool.false_eq_true, not_false_iff]

theorem readTips_eq (ok : db.Consistent) (g : GroupName) : db.readTips g = .ok (db.view.tips g) := by
  obtain ⟨tips, reads, _⟩ := readTips_spec ok g
  simp only [view, reads, Except.toOption, Option.getD_some]

theorem nodup_tips (ok : db.Consistent) (g : GroupName) : (db.view.tips g).Nodup := by
  obtain ⟨tips, reads, nodup, _⟩ := readTips_spec ok g
  rw [readTips_eq ok] at reads
  exact Except.ok.inj reads ▸ nodup

theorem mem_tips (ok : db.Consistent) (g : GroupName) (t : LogEntryId) :
    t ∈ db.view.tips g ↔ ⟨g.asStr, t.asBytes.toBytes⟩ ∈ db.groupTips.rows := by
  obtain ⟨tips, reads, _, _, members⟩ := readTips_spec ok g
  rw [readTips_eq ok] at reads
  rw [Except.ok.inj reads, members]

def Fits (e : LogEntry) : Prop := e.hlcTimestamp.wallMs.toNat < 2 ^ 63

instance : DecidablePred Fits := fun e =>
  inferInstanceAs (Decidable (e.hlcTimestamp.wallMs.toNat < 2 ^ 63))

def entryRow (id : LogEntryId) (e : LogEntry) : LogEntriesRow :=
  ⟨id.asBytes.toBytes, e.hlcTimestamp.wallMs.toNat, e.articleCid.toBytes, e.operatorSignature⟩

def linkRow (id : LogEntryId) (c : Cid) : LogEntryParentsRow := ⟨id.asBytes.toBytes, c.toBytes⟩

/-- `db'` is `db` with the rows of `e`, which had none before. -/
structure RowsInserted (db db' : SqliteDb) (id : LogEntryId) (e : LogEntry) : Prop where
  fits : Fits e
  fresh : ¬db.hasRow id = true
  entries : db'.logEntries.rows = db.logEntries.rows ++ [entryRow id e]
  links : db'.logEntryParents =
    (e.parentCids.map (linkRow id)).foldl Table.insertOrIgnore db.logEntryParents
  tips : db'.groupTips = db.groupTips

theorem insertRows_cases (db : SqliteDb) (id : LogEntryId) (e : LogEntry) :
    (¬Fits e ∧ ∃ message, insertRows id e db = .error (.database message)) ∨
    (Fits e ∧ db.hasRow id = true ∧ insertRows id e db = .error (.duplicateEntry id)) ∨
    ∃ db', insertRows id e db = .ok db' ∧ RowsInserted db db' id e := by
  by_cases fits : Fits e
  · have column : columnTimestamp e.hlcTimestamp = .ok (e.hlcTimestamp.wallMs.toNat : Int) :=
      if_pos fits
    right
    cases inserted : db.logEntries.insert (entryRow id e) with
    | none =>
      left
      obtain ⟨old, member, key⟩ := (insert_eq_none_iff _ _).mp inserted
      refine ⟨fits, (hasRow_iff db id).mpr ⟨old, member, key⟩, ?_⟩
      unfold entryRow at inserted
      simp only [insertRows, column, inserted, bind, Except.bind]
    | some logEntries =>
      right
      have fresh : ¬db.hasRow id = true := by
        intro present
        obtain ⟨old, member, key⟩ := (hasRow_iff db id).mp present
        rw [(insert_eq_none_iff _ _).mpr ⟨old, member, key⟩] at inserted
        cases inserted
      have rows := rows_of_insert inserted
      unfold entryRow at inserted
      let links := e.parentCids.map (linkRow id)
      refine ⟨⟨logEntries, links.foldl Table.insertOrIgnore db.logEntryParents, db.groupTips⟩, ?_,
        fits, fresh, rows, rfl, rfl⟩
      simp only [insertRows, column, inserted, bind, Except.bind]
      rfl
  · have column : ∃ message, columnTimestamp e.hlcTimestamp = .error (.database message) :=
      ⟨_, if_neg fits⟩
    obtain ⟨message, column⟩ := column
    refine Or.inl ⟨fits, message, ?_⟩
    simp only [insertRows, column, bind, Except.bind]

theorem RowsInserted.mem_links {db' : SqliteDb} {e : LogEntry}
    (h : RowsInserted db db' id e) (r : LogEntryParentsRow) :
    r ∈ db'.logEntryParents.rows ↔ r ∈ db.logEntryParents.rows ∨ ∃ c ∈ e.parentCids, linkRow id c = r := by
  rw [h.links, mem_foldl_insertOrIgnore Function.injective_id, mem_map]

theorem RowsInserted.consistent {db' : SqliteDb} {e : LogEntry}
    (h : RowsInserted db db' id e) (ok : db.Consistent) : db'.Consistent := by
  have rows (r : LogEntriesRow) : r ∈ db'.logEntries.rows ↔
      r ∈ db.logEntries.rows ∨ r = entryRow id e := by
    rw [h.entries, mem_append, mem_singleton]
  refine ⟨?_, ?_, ?_, ?_, ?_⟩
  · intro r member
    rcases (rows r).mp member with old | rfl
    · exact ok.articleCids r old
    · exact ⟨e.articleCid, rfl⟩
  · intro r member
    rcases (rows r).mp member with old | rfl
    · exact ok.timestamps r old
    · exact Int.natCast_nonneg _
  · intro r member
    rcases (h.mem_links r).mp member with old | ⟨c, _, rfl⟩
    · exact ok.parentCids r old
    · exact ⟨c, rfl⟩
  · intro r member
    rcases (h.mem_links r).mp member with old | ⟨c, _, rfl⟩
    · obtain ⟨owner, present, key⟩ := ok.linked r old
      exact ⟨owner, (rows owner).mpr (Or.inl present), key⟩
    · exact ⟨_, (rows _).mpr (Or.inr rfl), rfl⟩
  · rw [h.tips]
    exact ok.tipIds

structure ReadsBackAs (e e' : LogEntry) : Prop where
  hlcTimestamp : e'.hlcTimestamp = .ofWallMs e.hlcTimestamp.wallMs
  articleCid : e'.articleCid = e.articleCid
  operatorSignature : e'.operatorSignature = e.operatorSignature
  nodup : e'.parentCids.Nodup
  parents : ∀ c, c ∈ e'.parentCids ↔ c ∈ e.parentCids

theorem ReadsBackAs.storedAs {e e' : LogEntry} (h : ReadsBackAs e e') : StoredAs e e' :=
  ⟨by rw [h.hlcTimestamp]; rfl, h.articleCid, h.operatorSignature, h.parents⟩

theorem readsBackAs_of_view (ok : db.Consistent)
    {e e' : LogEntry} (found : db.view.entry id = some e') (stored : StoredAs e e') : ReadsBackAs e e' := by
  have present : db.hasRow id = true :=
    (stored_iff_hasRow ok id).mp (LogView.stored_iff.mpr ⟨e', found⟩)
  obtain ⟨r, member, key⟩ := (hasRow_iff db id).mp present
  obtain ⟨c, cids, _, parents, reads⟩ := readEntry_of_row ok member key
  obtain ⟨cids', parents', nodup, _⟩ := parentsOf_spec ok id
  cases parents.symm.trans parents'
  rw [readEntry_eq ok, found] at reads
  cases reads
  refine ⟨?_, stored.articleCid, stored.operatorSignature, nodup, stored.parents⟩
  rw [← stored.wallMs]
  rfl

theorem RowsInserted.view {db' : SqliteDb} {e : LogEntry}
    (h : RowsInserted db db' id e) (ok : db.Consistent) :
    ∃ e', ReadsBackAs e e' ∧ db.view.Inserted db'.view id e' := by
  have ok' := h.consistent ok
  have present : entryRow id e ∈ db'.logEntries.rows := by rw [h.entries]; simp
  obtain ⟨c, cids, article, parents, reads⟩ := readEntry_of_row ok' present rfl
  refine ⟨⟨.ofWallMs e.hlcTimestamp.wallMs, e.articleCid, e.operatorSignature, cids⟩,
    ⟨rfl, rfl, rfl, ?_, ?_⟩, ?_, ?_⟩
  · obtain ⟨cids', parents', nodup, _⟩ := parentsOf_spec ok' id
    rw [parents] at parents'
    exact Except.ok.inj parents' ▸ nodup
  · intro d
    obtain ⟨cids', parents', _, members⟩ := parentsOf_spec ok' id
    rw [parents] at parents'
    cases parents'
    rw [members, h.mem_links]
    constructor
    · rintro (old | ⟨d', member, same⟩)
      · -- A link left over from before would belong to a stored entry.
        obtain ⟨owner, stored, key⟩ := ok.linked _ old
        exact absurd ((hasRow_iff db id).mpr ⟨owner, stored, key⟩) h.fresh
      · rw [linkRow, LogEntryParentsRow.mk.injEq] at same
        exact Cid.toBytes_injective same.2 ▸ member
    · exact fun member => Or.inr ⟨d, member, rfl⟩
  · funext other
    by_cases same : other = id
    · subst same
      rw [Function.update_self]
      have wall : UInt64.ofNat (entryRow other e).hlcTimestamp.toNat = e.hlcTimestamp.wallMs := by
        simp [entryRow]
      rw [wall, ← Cid.toBytes_injective article] at reads
      simp only [SqliteDb.view, reads, Except.toOption, Option.join_some]
      rfl
    · rw [Function.update_of_ne same]
      have key : id.asBytes.toBytes ≠ other.asBytes.toBytes := fun equal =>
        same (congrArg LogEntryId.mk (toBytes_injective equal.symm))
      have search : (db'.logEntries.rows.find? fun r => decide (r.id = other.asBytes.toBytes)) =
          db.logEntries.rows.find? fun r => decide (r.id = other.asBytes.toBytes) := by
        rw [h.entries, List.find?_append, List.find?_singleton]
        have skipped : ¬decide ((entryRow id e).id = other.asBytes.toBytes) = true :=
          fun taken => key (of_decide_eq_true taken)
        rw [if_neg skipped, Option.or_none]
      have links : db'.parentsOf other = db.parentsOf other := by
        unfold parentsOf
        rw [h.links, select_foldl_insertOrIgnore]
        intro r member
        obtain ⟨d, _, rfl⟩ := mem_map.mp member
        exact decide_eq_false key
      simp only [SqliteDb.view, readEntry, search, links]
  · funext g
    simp only [SqliteDb.view, readTips, h.tips]

theorem mem_advanceRows (db : SqliteDb) (g : GroupName) (parents : List LogEntryId)
    (new : LogEntryId) (r : GroupTipsRow) : r ∈ (advanceRows g parents new db).groupTips.rows ↔
      (r ∈ db.groupTips.rows ∧
        ¬(r.groupName = g.asStr ∧ r.tipId ∈ parents.map fun p => p.asBytes.toBytes)) ∨
      r = ⟨g.asStr, new.asBytes.toBytes⟩ := by
  simp only [advanceRows]
  rw [mem_insertOrIgnore Function.injective_id, Table.delete, mem_filter,
    Bool.not_eq_true', Bool.and_eq_false_iff, decide_eq_false_iff_not, decide_eq_false_iff_not,
    not_and_or]

theorem consistent_advanceRows (ok : db.Consistent) (g : GroupName)
    (parents : List LogEntryId) (new : LogEntryId) : (advanceRows g parents new db).Consistent where
  articleCids := ok.articleCids
  timestamps := ok.timestamps
  parentCids := ok.parentCids
  linked := ok.linked
  tipIds := by
    intro r member
    rcases (mem_advanceRows db g parents new r).mp member with ⟨old, _⟩ | rfl
    · exact ok.tipIds r old
    · exact ⟨new, rfl⟩

theorem view_advanceRows (ok : db.Consistent) (g : GroupName)
    (parents : List LogEntryId) (new : LogEntryId) :
    db.view.Advanced (advanceRows g parents new db).view g parents new := by
  have ok' := consistent_advanceRows ok g parents new
  refine ⟨rfl, ?_, ?_⟩
  · intro h other
    have names : h.asStr ≠ g.asStr := fun same => other (ext_asStr same)
    have untouched : ((advanceRows g parents new db).groupTips.select
        fun r => decide (r.groupName = h.asStr)) =
        db.groupTips.select fun r => decide (r.groupName = h.asStr) := by
      simp only [advanceRows]
      rw [select_insertOrIgnore, select_delete]
      · intro r selected
        have group : r.groupName = h.asStr := of_decide_eq_true selected
        rw [Bool.and_eq_false_iff]
        exact Or.inl (decide_eq_false fun same => names (group.symm.trans same))
      · exact decide_eq_false fun same => names same.symm
    simp only [view, readTips, untouched]
  · -- Both lists are free of repetition, so it is enough to compare their members.
    have distinct : (advance (db.view.tips g) parents new).Nodup := by
      unfold advance
      dsimp only
      split
      · exact (nodup_tips ok g).filter _
      · rename_i fresh
        rw [nodup_append]
        refine ⟨(nodup_tips ok g).filter _, nodup_singleton _, ?_⟩
        rintro t member u last rfl
        exact fresh (mem_singleton.mp last ▸ member)
    rw [perm_ext_iff_of_nodup (nodup_tips ok' g) distinct]
    intro t
    rw [mem_tips ok', mem_advanceRows, mem_advance, mem_tips ok, or_comm]
    have listed : t.asBytes.toBytes ∈ parents.map (fun p => p.asBytes.toBytes) ↔ t ∈ parents := by
      apply mem_map_of_injective
      intro a b h
      exact congrArg LogEntryId.mk (toBytes_injective h)
    have newest : (⟨g.asStr, t.asBytes.toBytes⟩ : GroupTipsRow) = ⟨g.asStr, new.asBytes.toBytes⟩ ↔
        t = new := by
      constructor
      · intro h
        rw [GroupTipsRow.mk.injEq] at h
        exact congrArg LogEntryId.mk (toBytes_injective h.2)
      · rintro rfl
        rfl
    simp only [listed, newest, true_and]

/-- The rows of `tips` in the group `g`. -/
def tipRows (g : GroupName) (tips : List LogEntryId) : List GroupTipsRow :=
  tips.map fun t => ⟨g.asStr, t.asBytes.toBytes⟩

theorem mem_tipRows (g h : GroupName) (tips : List LogEntryId) (t : LogEntryId) :
    (⟨h.asStr, t.asBytes.toBytes⟩ : GroupTipsRow) ∈ tipRows g tips ↔ h = g ∧ t ∈ tips := by
  unfold tipRows
  rw [mem_map]
  constructor
  · rintro ⟨u, member, same⟩
    rw [GroupTipsRow.mk.injEq] at same
    have tip : u = t := congrArg LogEntryId.mk (toBytes_injective same.2)
    exact ⟨(ext_asStr same.1).symm, tip ▸ member⟩
  · rintro ⟨rfl, member⟩
    exact ⟨t, member, rfl⟩

theorem nodup_tipRows {g : GroupName} {tips : List LogEntryId} (nodup : tips.Nodup) :
    (tipRows g tips).Nodup := by
  apply nodup.map
  intro t u same
  rw [GroupTipsRow.mk.injEq] at same
  exact congrArg LogEntryId.mk (toBytes_injective same.2)

theorem exec_setTips (db : SqliteDb) (g : GroupName) (tips : List LogEntryId) :
    (¬tips.Nodup ∧ ∃ err, (setTips g tips).exec db = (.error err, db)) ∨
    ∃ groupTips, (setTips g tips).exec db = (.ok (), { db with groupTips }) ∧
      groupTips.rows = (db.groupTips.rows.filter fun r => !decide (r.groupName = g.asStr)) ++
        tipRows g tips := by
  have run : (setTips g tips).exec db =
      match (db.groupTips.delete fun r => decide (r.groupName = g.asStr)).insertAll
        (tipRows g tips) with
      | some groupTips => (.ok (), { db with groupTips })
      | none => (.error (uniqueViolation "group_tips.group_name, group_tips.tip_id"), db) := by
    simp only [setTips, transaction, Prog.exec_ofExec]
    split
    · rename_i written
      split at written
      · rename_i found
        cases written
        rw [tipRows, found]
      · cases written
    · rename_i failed
      split at failed
      · cases failed
      · rename_i found
        cases failed
        rw [tipRows, found]
  cases written : (db.groupTips.delete fun r => decide (r.groupName = g.asStr)).insertAll
      (tipRows g tips) with
  | none =>
    refine Or.inl ⟨fun nodup => ?_, _, by rw [run, written]⟩
    -- The rows that are left belong to other groups, so only a repeated tip can break the key.
    have fresh : (((db.groupTips.delete fun r => decide (r.groupName = g.asStr)).rows ++
        tipRows g tips).map fun r => r).Nodup := by
      rw [List.map_id', nodup_append]
      refine ⟨by simpa using (db.groupTips.delete _).unique, nodup_tipRows nodup, ?_⟩
      rintro r old q new rfl
      obtain ⟨t, _, rfl⟩ := mem_map.mp new
      simp [Table.delete] at old
    have inserted := insertAll_isSome fresh
    rw [written] at inserted
    cases inserted
  | some groupTips =>
    exact Or.inr ⟨groupTips, by rw [run, written], rows_of_insertAll written⟩

theorem consistent_setTips (ok : db.Consistent) (g : GroupName)
    (tips : List LogEntryId) : ((setTips g tips).exec db).2.Consistent := by
  rcases exec_setTips db g tips with ⟨_, err, run⟩ | ⟨groupTips, run, rows⟩
  · rw [run]
    exact ok
  · rw [run]
    refine ⟨ok.articleCids, ok.timestamps, ok.parentCids, ok.linked, ?_⟩
    intro r member
    rw [rows, mem_append] at member
    rcases member with old | new
    · exact ok.tipIds r (mem_filter.mp old).1
    · obtain ⟨t, _, rfl⟩ := mem_map.mp new
      exact ⟨t, rfl⟩

theorem view_setTips (ok : db.Consistent) (g : GroupName) (tips : List LogEntryId)
    (set : ((setTips g tips).exec db).1 = .ok ()) :
    db.view.TipsSet ((setTips g tips).exec db).2.view g tips := by
  have ok' := consistent_setTips ok g tips
  rcases exec_setTips db g tips with ⟨_, err, run⟩ | ⟨groupTips, run, rows⟩
  · rw [run] at set
    cases set
  rw [run] at ok' ⊢
  have member (h : GroupName) (t : LogEntryId) :
      (⟨h.asStr, t.asBytes.toBytes⟩ : GroupTipsRow) ∈ groupTips.rows ↔
        (⟨h.asStr, t.asBytes.toBytes⟩ : GroupTipsRow) ∈ db.groupTips.rows ∧ h ≠ g ∨
        h = g ∧ t ∈ tips := by
    rw [rows, mem_append, mem_filter, mem_tipRows, Bool.not_eq_true',
      decide_eq_false_iff_not]
    have names : h.asStr = g.asStr ↔ h = g := ⟨ext_asStr, congrArg asStr⟩
    rw [names]
  refine ⟨rfl, ?_, ?_⟩
  · intro h other
    have untouched : (groupTips.select fun r => decide (r.groupName = h.asStr)) =
        db.groupTips.select fun r => decide (r.groupName = h.asStr) := by
      have names : g.asStr ≠ h.asStr := fun same => other (ext_asStr same.symm)
      have outside : (tipRows g tips).filter (fun r => decide (r.groupName = h.asStr)) = [] := by
        rw [filter_eq_nil_iff]
        intro r new
        obtain ⟨t, _, rfl⟩ := mem_map.mp new
        exact fun same => names (of_decide_eq_true same)
      rw [Table.select, rows, filter_append, outside, append_nil]
      apply select_delete
      intro r same
      exact decide_eq_false fun inG => names (inG.symm.trans (of_decide_eq_true same))
    simp only [view, readTips, untouched]
  · -- The rows are distinct, so the tips are, and it is enough to compare members.
    have nodup : tips.Nodup := by
      have distinct : groupTips.rows.Nodup := by simpa using groupTips.unique
      rw [rows, nodup_append] at distinct
      exact List.Nodup.of_map _ distinct.2.1
    rw [perm_ext_iff_of_nodup (nodup_tips ok' g) nodup]
    intro t
    rw [mem_tips ok', member]
    simp

theorem exec_insertEntry (db : SqliteDb) (id : LogEntryId) (e : LogEntry) :
    (insertEntry id e).exec db = match insertRows id e db with
      | .ok db' => (.ok (), db')
      | .error err => (.error err, db) := rfl

theorem exec_insertEntryAndAdvanceTips (db : SqliteDb) (id : LogEntryId) (e : LogEntry)
    (g : GroupName) (parents : List LogEntryId) (new : LogEntryId) :
    (insertEntryAndAdvanceTips id e g parents new).exec db = match insertRows id e db with
      | .ok db' => (.ok (), advanceRows g parents new db')
      | .error err => (.error err, db) := by
  simp only [insertEntryAndAdvanceTips, transaction, Prog.exec_ofExec, bind, Except.bind]
  cases insertRows id e db <;> rfl

theorem consistent_insertEntry (ok : db.Consistent) (id : LogEntryId)
    (e : LogEntry) : ((insertEntry id e).exec db).2.Consistent := by
  rw [exec_insertEntry]
  rcases insertRows_cases db id e with ⟨_, _, run⟩ | ⟨_, _, run⟩ | ⟨db', run, inserted⟩
  · rw [run]; exact ok
  · rw [run]; exact ok
  · rw [run]; exact inserted.consistent ok

theorem consistent_insertEntryAndAdvanceTips (ok : db.Consistent) (id : LogEntryId)
    (e : LogEntry) (g : GroupName) (parents : List LogEntryId) (new : LogEntryId) :
    ((insertEntryAndAdvanceTips id e g parents new).exec db).2.Consistent := by
  rw [exec_insertEntryAndAdvanceTips]
  rcases insertRows_cases db id e with ⟨_, _, run⟩ | ⟨_, _, run⟩ | ⟨db', run, inserted⟩
  · rw [run]; exact ok
  · rw [run]; exact ok
  · rw [run]; exact consistent_advanceRows (inserted.consistent ok) g parents new

end SqliteDb

/-- The database as the backend leaves it after any number of operations. -/
abbrev SqliteLogStorage := { db : SqliteDb // db.Consistent }

namespace SqliteLogStorage

def new : SqliteLogStorage := ⟨SqliteDb.empty, SqliteDb.consistent_empty⟩

instance : LogStorage SqliteLogStorage where
  insertEntry id e := (SqliteDb.insertEntry id e).restrict fun _ ok =>
    SqliteDb.consistent_insertEntry ok id e
  getEntry id := (SqliteDb.getEntry id).restrict fun _ ok => ok
  hasEntry id := (SqliteDb.hasEntry id).restrict fun _ ok => ok
  getParentCids id := (SqliteDb.getParentCids id).restrict fun _ ok => ok
  listTips g := (SqliteDb.listTips g).restrict fun _ ok => ok
  setTips g tips := (SqliteDb.setTips g tips).restrict fun _ ok => SqliteDb.consistent_setTips ok g tips
  advanceTips g parents new := (SqliteDb.advanceTips g parents new).restrict fun _ ok =>
    SqliteDb.consistent_advanceRows ok g parents new
  insertEntryAndAdvanceTips id e g parents new :=
    (SqliteDb.insertEntryAndAdvanceTips id e g parents new).restrict fun _ ok =>
      SqliteDb.consistent_insertEntryAndAdvanceTips ok id e g parents new
  tipCount g := (SqliteDb.tipCount g).restrict fun _ ok => ok

/-- Both inserting operations insert the rows and then change only the tips. -/
private theorem insert_outcome (s : SqliteLogStorage) (id : LogEntryId) (e : LogEntry)
    (op : Prog SqliteDb StorageError Unit) (after : SqliteDb → SqliteDb)
    (keeps : ∀ db, db.Consistent → (op.exec db).2.Consistent)
    (run : op.exec s.1 = match SqliteDb.insertRows id e s.1 with
      | .ok db' => (.ok (), after db')
      | .error err => (.error err, s.1))
    (effect : LogEntry → LogView → Prop)
    (effective : ∀ db' e', SqliteDb.RowsInserted s.1 db' id e → s.1.view.Inserted db'.view id e' →
      effect e' (after db').view) : Prog.Satisfies (op.restrict keeps) s
      (InsertOutcome (fun s => s.1.view) (fun _ => True) SqliteDb.Fits s id e effect) := by
  have stored := SqliteDb.stored_iff_hasRow s.2 id
  apply Prog.satisfies_restrict
  intro r final kept outcome
  rw [run] at outcome
  rcases SqliteDb.insertRows_cases s.1 id e with ⟨large, message, rows⟩ | ⟨fits, present, rows⟩ |
    ⟨db', rows, inserted⟩
  · rw [rows] at outcome
    cases outcome
    exact ⟨fun h => h, nofun, fun _ _ => rfl, nofun, fun _ fits => absurd fits large,
      fun _ fits => absurd fits large⟩
  · rw [rows] at outcome
    cases outcome
    refine ⟨fun h => h, nofun, fun _ _ => rfl, fun _ _ => stored.mpr present, ?_, fun _ _ _ => rfl⟩
    exact fun _ _ absent => absurd (stored.mpr present) (LogView.not_stored_iff.mpr absent)
  · rw [rows] at outcome
    cases outcome
    obtain ⟨e', reads, view⟩ := inserted.view s.2
    have absent : ¬s.1.view.Stored id := fun present => inserted.fresh (stored.mp present)
    refine ⟨fun h => h, fun _ => ⟨LogView.not_stored_iff.mp absent, e', reads.storedAs, ?_⟩, nofun,
      nofun, fun _ _ _ => rfl, fun _ _ present => absurd present absent⟩
    exact effective db' e' inserted view

instance : LawfulLogStorage SqliteLogStorage where
  log s := s.1.view
  Healthy _ := True
  Storable := SqliteDb.Fits
  getEntry_outcome s id := by
    have reads := SqliteDb.readEntry_eq s.2 id
    refine ⟨rfl, fun h => h, fun a returned => ?_, fun err failed => ?_⟩
    · exact (Except.ok.inj (reads.symm.trans returned)).symm
    · exact nomatch reads.symm.trans failed
  hasEntry_outcome s id := by
    refine ⟨rfl, fun h => h, fun b returned => ?_, nofun⟩
    rw [SqliteDb.stored_iff_hasRow s.2, ← Except.ok.inj returned]
  getParentCids_outcome s id := by
    have returned : ((SqliteDb.getParentCids id).exec s.1).1 =
        .ok ((s.1.view.entry id).map LogEntry.parentCids) := by
      by_cases present : s.1.hasRow id = true
      · obtain ⟨r, member, key⟩ := (SqliteDb.hasRow_iff s.1 id).mp present
        obtain ⟨c, cids, _, parents, reads⟩ := SqliteDb.readEntry_of_row s.2 member key
        rw [SqliteDb.readEntry_eq s.2] at reads
        simp only [SqliteDb.getParentCids, Prog.exec_ofExec, present, if_true, parents, Except.map,
          Except.ok.inj reads, Option.map_some]
      · have missing := SqliteDb.readEntry_of_no_row present
        rw [SqliteDb.readEntry_eq s.2] at missing
        simp only [SqliteDb.getParentCids, Prog.exec_ofExec, present, Bool.false_eq_true, if_false,
          Except.ok.inj missing, Option.map_none]
    refine ⟨rfl, fun h => h, fun a same => ?_, fun err failed => ?_⟩
    · exact (Except.ok.inj (returned.symm.trans same)).symm
    · exact nomatch returned.symm.trans failed
  listTips_outcome s g := by
    have reads := SqliteDb.readTips_eq s.2 g
    refine ⟨rfl, fun h => h, fun a returned => ?_, fun err failed => ?_⟩
    · exact (Except.ok.inj (reads.symm.trans returned)).symm
    · exact nomatch reads.symm.trans failed
  tipCount_outcome s g := by
    obtain ⟨tips, reads, _, count, _⟩ := SqliteDb.readTips_spec s.2 g
    rw [SqliteDb.readTips_eq s.2] at reads
    refine ⟨rfl, fun h => h, fun n returned => ?_, nofun⟩
    rw [← Except.ok.inj returned, Except.ok.inj reads, ← count]
  setTips_outcome s g tips := by
    refine ⟨fun h => h, SqliteDb.view_setTips s.2 g tips, fun err failed => ?_⟩
    rcases SqliteDb.exec_setTips s.1 g tips with ⟨repeated, _, run⟩ | ⟨groupTips, run, _⟩
    · exact ⟨congrArg (fun run => SqliteDb.view run.2) run, fun nodup => absurd nodup repeated⟩
    · exact nomatch (congrArg Prod.fst run).symm.trans failed
  insertEntry_outcome s id e :=
    insert_outcome s id e _ (fun db' => db') _ (SqliteDb.exec_insertEntry s.1 id e) _
      fun _ _ _ view => view
  advanceTips_outcome s g parents new :=
    ⟨fun h => h, fun _ => SqliteDb.view_advanceRows s.2 g parents new, nofun⟩
  insertEntryAndAdvanceTips_outcome s id e g parents new :=
    insert_outcome s id e _ (SqliteDb.advanceRows g parents new) _
      (SqliteDb.exec_insertEntryAndAdvanceTips s.1 id e g parents new) _
      fun db' _ inserted view => ⟨db'.view, view,
        SqliteDb.view_advanceRows (inserted.consistent s.2) g parents new⟩

end SqliteLogStorage

end Stoa
