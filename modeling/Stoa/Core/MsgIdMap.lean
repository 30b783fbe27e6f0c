import Stoa.Core.GroupLog.Storage
import Stoa.Lib.Table

/-! The table from Message-IDs to article CIDs, in a database whose transactions may fail as a
whole. -/
namespace Stoa

open List Prog StorageError Table
/-- A connection pool over the tables `τ`. -/
structure AnyPool (τ : Type) where
  tables : τ
  /-- The database errors of the next transactions; none fails once the list is used up. -/
  faults : List (Option String)

def AnyPool.transaction {τ α : Type} (f : τ → α × τ) : Prog (AnyPool τ) String α :=
  Prog.ofExec fun pool => match pool.faults with
    | some message :: rest => (.error message, { pool with faults := rest })
    | none :: rest => (.ok (f pool.tables).1, ⟨(f pool.tables).2, rest⟩)
    | [] => (.ok (f pool.tables).1, ⟨(f pool.tables).2, []⟩)

def AnyPool.fault {τ : Type} (pool : AnyPool τ) : Option String := pool.faults.head?.join

theorem AnyPool.exec_transaction {τ α : Type} (f : τ → α × τ) (pool : AnyPool τ) :
    (AnyPool.transaction f).exec pool = match pool.fault with
      | some message => (.error message, ⟨pool.tables, pool.faults.tail⟩)
      | none => (.ok (f pool.tables).1, ⟨(f pool.tables).2, pool.faults.tail⟩) := by
  rcases pool with ⟨tables, _ | ⟨_ | message, rest⟩⟩ <;> rfl

/-- The next `n` transactions do not fail. -/
def AnyPool.Answers {τ : Type} (pool : AnyPool τ) (n : Nat) : Prop :=
  ∀ fault ∈ pool.faults.take n, fault = none

theorem AnyPool.answers_succ {τ : Type} (pool : AnyPool τ) (n : Nat) : pool.Answers (n + 1) ↔
      pool.fault = none ∧ AnyPool.Answers ⟨pool.tables, pool.faults.tail⟩ n := by
  rcases pool with ⟨tables, _ | ⟨fault, rest⟩⟩
  · simp [Answers, AnyPool.fault]
  · simp [Answers, AnyPool.fault, take_succ_cons]

structure MsgIdRow where
  messageId : String
  cid : Bytes
  deriving DecidableEq

abbrev MsgIdMap := AnyPool (Table MsgIdRow MsgIdRow.messageId)

namespace MsgIdMap

def new : MsgIdMap := ⟨Table.empty, []⟩

/-- The `Debug` text of a string. -/
def debugStr (s : String) : String :=
  "\"" ++ String.join (s.toList.map fun c => match c with
    | '"' => "\\\""
    | '\\' => "\\\\"
    | '\t' => "\\t"
    | '\r' => "\\r"
    | '\n' => "\\n"
    | '\x00' => "\\0"
    | c => c.toString) ++ "\""

def insert (messageId : String) (cid : Cid) : Prog MsgIdMap StorageError Unit := do
  let stored ← (AnyPool.transaction fun (rows : Table MsgIdRow MsgIdRow.messageId) =>
    let rows := rows.insertOrIgnore ⟨messageId, cid.toBytes⟩
    (rows.select fun r => decide (r.messageId = messageId), rows)).mapError StorageError.database
  if stored.all fun r => decide (r.cid = cid.toBytes) then pure ()
  else throw (.database ("message-id " ++ debugStr messageId ++
    " already mapped to a different CID"))

def lookupByMsgid (messageId : String) : Prog MsgIdMap StorageError (Option Cid) := do
  let found ← (AnyPool.transaction fun (rows : Table MsgIdRow MsgIdRow.messageId) =>
    (rows.select fun r => decide (r.messageId = messageId), rows)).mapError StorageError.database
  match found with
  | [] => pure none
  | row :: _ =>
    match Cid.tryFrom row.cid with
    | .ok cid => pure (some cid)
    | .error e => throw (.database e.toString)

def deleteByCid (cid : Cid) : Prog MsgIdMap StorageError Unit :=
  (AnyPool.transaction fun (rows : Table MsgIdRow MsgIdRow.messageId) =>
    ((), rows.delete fun r => decide (r.cid = cid.toBytes))).mapError StorageError.database

def Known (map : MsgIdMap) (messageId : String) : Prop :=
  ∃ row ∈ map.tables.rows, row.messageId = messageId

instance (map : MsgIdMap) (messageId : String) : Decidable (map.Known messageId) :=
  inferInstanceAs (Decidable (∃ row ∈ map.tables.rows, row.messageId = messageId))

end MsgIdMap

theorem AnyPool.transaction_outcome {τ α : Type} (f : τ → α × τ) (pool : AnyPool τ) :
    Prog.Satisfies (AnyPool.transaction f) pool fun r pool' => match r with
      | .ok a => a = (f pool.tables).1 ∧ pool'.tables = (f pool.tables).2
      | .error _ => pool'.tables = pool.tables := by
  unfold Prog.Satisfies AnyPool.transaction
  rw [exec_ofExec]
  rcases pool with ⟨tables, faults⟩
  rcases faults with _ | ⟨_ | message, rest⟩
  · exact ⟨rfl, rfl⟩
  · exact ⟨rfl, rfl⟩
  · rfl

namespace MsgIdMap

theorem known_iff_select (map : MsgIdMap) (messageId : String) : map.Known messageId ↔
      (map.tables.select fun r => decide (r.messageId = messageId)) ≠ [] := by
  simp [Known, select]

theorem known_insertOrIgnore (rows : Table MsgIdRow MsgIdRow.messageId) (row : MsgIdRow)
    (messageId : String) : (∃ r ∈ (rows.insertOrIgnore row).rows, r.messageId = messageId) ↔
      (∃ r ∈ rows.rows, r.messageId = messageId) ∨ row.messageId = messageId := by
  rw [rows_insertOrIgnore]
  split
  · next taken =>
    obtain ⟨old, member, same⟩ := mem_map.mp taken
    exact ⟨.inl, fun h => h.elim id fun same' => ⟨old, member, same.trans same'⟩⟩
  · simp [or_and_right, exists_or]

def rowsOf (messageId : String) (rows : Table MsgIdRow MsgIdRow.messageId) : List MsgIdRow :=
  rows.select fun r => decide (r.messageId = messageId)

theorem lookupByMsgid_outcome (messageId : String) (map : MsgIdMap) :
    Prog.Satisfies (lookupByMsgid messageId) map fun r map' =>
      map'.tables = map.tables ∧ (r = .ok none → ¬ map.Known messageId) := by
  have query := satisfies_mapError (f := database)
    (Q := fun r map' => map'.tables = map.tables ∧
      ∀ found, r = .ok found → found = rowsOf messageId map.tables)
    (AnyPool.transaction_outcome (fun rows => (rowsOf messageId rows, rows)) map)
    (fun found map' h => ⟨h.2, fun _ same => Except.ok.inj same ▸ h.1⟩) (fun _ _ h => ⟨h, nofun⟩)
  refine satisfies_bind query ?_ fun e map' h => ⟨h.1, nofun⟩
  rintro found map' ⟨same, rows⟩
  have selected := rows found rfl
  cases found with
  | nil => exact satisfies_pure ⟨same, fun _ => by
      rw [known_iff_select, not_not]
      exact selected.symm⟩
  | cons row more =>
    simp only
    split
    · exact satisfies_pure ⟨same, nofun⟩
    · exact satisfies_throw ⟨same, nofun⟩

theorem rowsOf_insertOrIgnore {rows : Table MsgIdRow MsgIdRow.messageId} {row : MsgIdRow}
    (fresh : ¬ ∃ r ∈ rows.rows, r.messageId = row.messageId) :
    rowsOf row.messageId (rows.insertOrIgnore row) = [row] := by
  have absent : row.messageId ∉ rows.rows.map MsgIdRow.messageId := by
    simpa [mem_map] using fresh
  have none : rows.rows.filter (fun r => decide (r.messageId = row.messageId)) = [] := by
    simpa [filter_eq_nil_iff] using fresh
  rw [rowsOf, select, rows_insertOrIgnore, if_neg absent, filter_append, none]
  simp

/-- An insertion touches its own Message-ID only. One that returns has made it known; one
that fails has not. -/
structure Inserted (messageId : String) (cid : Cid) (map map' : MsgIdMap)
    (r : Except StorageError Unit) : Prop where
  others : ∀ id, map'.Known id → map.Known id ∨ id = messageId
  keeps : ∀ id, map.Known id → map'.Known id
  recorded : r = .ok () → ⟨messageId, cid.toBytes⟩ ∈ map'.tables.rows
  failed : ∀ e, r = .error e → map'.Known messageId → map.Known messageId

theorem insert_outcome (messageId : String) (cid : Cid) (map : MsgIdMap) :
    Prog.Satisfies (insert messageId cid) map fun r map' => Inserted messageId cid map map' r := by
  have query := satisfies_mapError (f := database)
    (Q := fun r map' => match r with
      | .ok stored => stored = rowsOf messageId map'.tables ∧
          map'.tables = map.tables.insertOrIgnore ⟨messageId, cid.toBytes⟩
      | .error _ => map'.tables = map.tables)
    (AnyPool.transaction_outcome (fun rows : Table MsgIdRow MsgIdRow.messageId =>
      (rowsOf messageId (rows.insertOrIgnore ⟨messageId, cid.toBytes⟩),
        rows.insertOrIgnore ⟨messageId, cid.toBytes⟩)) map)
    (fun stored map' h => ⟨by rw [h.2]; exact h.1, h.2⟩) (fun _ _ h => h)
  refine satisfies_bind query ?_ ?_
  · rintro stored map' ⟨rows, tables⟩
    have known : ∀ id, map'.Known id ↔ map.Known id ∨ messageId = id := by
      intro id
      rw [Known, tables]
      exact known_insertOrIgnore _ _ _
    obtain ⟨row, present, same⟩ := (known messageId).mpr (.inr rfl)
    split
    · next match' =>
      -- The row that is there has this CID.
      refine satisfies_pure ⟨fun other h => ((known other).mp h).imp_right Eq.symm,
        fun other h => (known other).mpr (.inl h), fun _ => ?_, (by rintro _ ⟨⟩)⟩
      rw [rows, all_eq_true] at match'
      have selected : row ∈ rowsOf messageId map'.tables :=
        mem_filter.mpr ⟨present, decide_eq_true same⟩
      have cidSame : row.cid = cid.toBytes := of_decide_eq_true (match' row selected)
      rcases row with ⟨id, bytes⟩
      simp only at same cidSame
      rwa [same, cidSame] at present
    · next mismatch =>
      -- A row with another CID was there before.
      refine satisfies_throw ⟨fun other h => ((known other).mp h).imp_right Eq.symm,
        fun other h => (known other).mpr (.inl h), (by rintro ⟨⟩), fun _ _ _ => ?_⟩
      by_contra fresh
      have single := @rowsOf_insertOrIgnore map.tables ⟨messageId, cid.toBytes⟩ fresh
      rw [tables, single] at rows
      exact mismatch (by simp [rows])
  · intro e map' same
    have known : ∀ id, map'.Known id ↔ map.Known id := by
      intro id
      rw [Known, same]
      exact Iff.rfl
    exact ⟨fun other h => .inl ((known other).mp h), fun other h => (known other).mpr h, (by rintro ⟨⟩),
      fun _ _ h => (known _).mp h⟩

variable {map : MsgIdMap}

theorem fault_of_query {α β : Type} {f : Table MsgIdRow MsgIdRow.messageId → α × _}
    {g : α → Prog MsgIdMap StorageError β} {map' : MsgIdMap} {b : β}
    (run : ((AnyPool.transaction f).mapError database >>= g).exec map = (.ok b, map')) :
    map.fault = none := by
  obtain ⟨a, mid, first, -⟩ := of_exec_bind_ok run
  have queried := of_exec_mapError_ok first
  rw [AnyPool.exec_transaction] at queried
  cases faulty : map.fault with
  | none => rfl
  | some message =>
    rw [faulty] at queried
    cases queried

variable {messageId : String}

theorem fault_of_lookupByMsgid {found : Option Cid} {map' : MsgIdMap}
    (run : (lookupByMsgid messageId).exec map = (.ok found, map')) : map.fault = none :=
  fault_of_query run

theorem fault_of_insert {cid : Cid} {map' : MsgIdMap}
    (run : (insert messageId cid).exec map = (.ok (), map')) : map.fault = none :=
  fault_of_query run

theorem exec_query {α β : Type} (f : Table MsgIdRow MsgIdRow.messageId → α × _)
    (g : α → Prog MsgIdMap StorageError β) (answers : map.fault = none) :
    ((AnyPool.transaction f).mapError database >>= g).exec map =
      (g (f map.tables).1).exec ⟨(f map.tables).2, map.faults.tail⟩ := by
  refine exec_bind_ok _ (exec_mapError_ok _ ?_)
  rw [AnyPool.exec_transaction, answers]

theorem lookupByMsgid_new (answers : map.fault = none) (fresh : ¬ map.Known messageId) :
    (lookupByMsgid messageId).exec map = (.ok none, ⟨map.tables, map.faults.tail⟩) := by
  have none : (map.tables.select fun r => decide (r.messageId = messageId)) = [] := by
    rwa [known_iff_select, not_not] at fresh
  rw [lookupByMsgid, exec_query _ _ answers, none]
  rfl

theorem insert_new (cid : Cid) (answers : map.fault = none)
    (fresh : ¬ map.Known messageId) : (insert messageId cid).exec map =
      (.ok (), ⟨map.tables.insertOrIgnore ⟨messageId, cid.toBytes⟩, map.faults.tail⟩) := by
  have stored := @rowsOf_insertOrIgnore map.tables ⟨messageId, cid.toBytes⟩ fresh
  rw [rowsOf] at stored
  rw [insert, exec_query _ _ answers]
  simp [stored]

theorem lookupByMsgid_fresh (faultless : map.faults = [])
    (fresh : ¬ map.Known messageId) : (lookupByMsgid messageId).exec map = (.ok none, map) := by
  rcases map with ⟨tables, faults⟩
  obtain rfl : faults = [] := faultless
  exact lookupByMsgid_new rfl fresh

theorem insert_fresh (cid : Cid) (faultless : map.faults = []) (fresh : ¬ map.Known messageId) :
    ∃ map', (insert messageId cid).exec map = (.ok (), map') ∧ map'.faults = [] := by
  rcases map with ⟨tables, faults⟩
  obtain rfl : faults = [] := faultless
  exact ⟨_, insert_new cid rfl fresh, rfl⟩

theorem lookupByMsgid_known {cid : Cid}
    (faultless : map.faults = []) (row : ⟨messageId, cid.toBytes⟩ ∈ map.tables.rows) :
    (lookupByMsgid messageId).exec map = (.ok (some cid), map) := by
  rcases map with ⟨tables, faults⟩
  obtain rfl : faults = [] := faultless
  have query : (Prog.mapError database (AnyPool.transaction
      fun (rows : Table MsgIdRow MsgIdRow.messageId) => (rowsOf messageId rows, rows))).exec
        ⟨tables, []⟩ = (.ok (rowsOf messageId tables), ⟨tables, []⟩) := rfl
  have listed : (⟨messageId, cid.toBytes⟩ : MsgIdRow) ∈ rowsOf messageId tables :=
    mem_filter.mpr ⟨row, by simp⟩
  refine (exec_bind_ok _ query).trans ?_
  cases found : rowsOf messageId tables with
  | nil => simp [found] at listed
  | cons first more =>
    -- The key is unique, so the first row is the one that is there.
    have member := mem_filter.mp (found ▸ mem_cons_self : first ∈ rowsOf messageId tables)
    obtain rfl : first = ⟨messageId, cid.toBytes⟩ :=
      inj_on_of_nodup_map tables.unique member.1 row (of_decide_eq_true member.2)
    simp [Cid.tryFrom_toBytes]

def Conflicts (map : MsgIdMap) (messageId : String) (cid : Cid) : Prop :=
  ∃ row ∈ map.tables.rows, row.messageId = messageId ∧ row.cid ≠ cid.toBytes

instance (map : MsgIdMap) (messageId : String) (cid : Cid) :
    Decidable (map.Conflicts messageId cid) :=
  inferInstanceAs (Decidable (∃ row ∈ map.tables.rows,
    row.messageId = messageId ∧ row.cid ≠ cid.toBytes))

/-- An insertion fails on a database error or a conflict, and then leaves the rows alone;
otherwise the Message-ID is mapped to the CID. -/
theorem insert_cases (messageId : String) (cid : Cid) (map : MsgIdMap) :
    ((map.fault ≠ none ∨ map.Conflicts messageId cid) ∧ ∃ e map',
      (insert messageId cid).exec map = (.error e, map') ∧ map'.tables = map.tables) ∨
    ((map.fault = none ∧ ¬ map.Conflicts messageId cid) ∧ ∃ map',
      (insert messageId cid).exec map = (.ok (), map') ∧
        map'.tables = map.tables.insertOrIgnore ⟨messageId, cid.toBytes⟩) := by
  cases faulty : map.fault with
  | some message =>
    left
    refine ⟨.inl (by simp), .database message, ⟨map.tables, map.faults.tail⟩, ?_, rfl⟩
    refine exec_bind_error _ ?_
    rw [exec_mapError, AnyPool.exec_transaction, faulty]
  | none =>
    have run := exec_query (fun rows : Table MsgIdRow MsgIdRow.messageId =>
      (rowsOf messageId (rows.insertOrIgnore ⟨messageId, cid.toBytes⟩),
        rows.insertOrIgnore ⟨messageId, cid.toBytes⟩))
      (fun stored => if stored.all fun r => decide (r.cid = cid.toBytes) then pure ()
        else throw (.database ("message-id " ++ debugStr messageId ++
          " already mapped to a different CID"))) faulty
    have same : (insert messageId cid).exec map = _ := run
    rw [same]
    by_cases conflict : map.Conflicts messageId cid
    · left
      obtain ⟨row, present, mapped, other⟩ := conflict
      -- The row of the Message-ID is in the way, so nothing is inserted.
      have ignored : map.tables.insertOrIgnore ⟨messageId, cid.toBytes⟩ = map.tables := by
        rw [insertOrIgnore, (insert_eq_none_iff _ _).mpr ⟨row, present, mapped⟩, Option.getD_none]
      have mismatch : ¬ (rowsOf messageId map.tables).all
          (fun r => decide (r.cid = cid.toBytes)) = true := by
        rw [all_eq_true]
        intro all
        have listed : row ∈ rowsOf messageId map.tables :=
          mem_filter.mpr ⟨present, decide_eq_true mapped⟩
        exact other (of_decide_eq_true (all row listed))
      rw [ignored, if_neg mismatch]
      exact ⟨.inr ⟨row, present, mapped, other⟩, _, _, rfl, rfl⟩
    · right
      have each : (rowsOf messageId (map.tables.insertOrIgnore ⟨messageId, cid.toBytes⟩)).all
          (fun r => decide (r.cid = cid.toBytes)) = true := by
        rw [all_eq_true]
        intro row listed
        obtain ⟨present, mapped⟩ := mem_filter.mp listed
        rw [decide_eq_true_eq]
        by_contra other
        rw [rows_insertOrIgnore] at present
        split at present
        · exact conflict ⟨row, present, of_decide_eq_true mapped, other⟩
        · rcases mem_append.mp present with old | new
          · exact conflict ⟨row, old, of_decide_eq_true mapped, other⟩
          · rw [mem_singleton] at new
            exact other (new ▸ rfl)
      rw [if_pos each]
      exact ⟨⟨rfl, conflict⟩, _, rfl, rfl⟩

end MsgIdMap

end Stoa
