import Mathlib.Data.List.MinMax
import Stoa.Lib.Bytes
import Stoa.Lib.Files
import Stoa.Lib.Table

/-! Articles from peers wait in a directory, one file for each, with a row in a table that has their
order, their size and the claim of the worker that processes them. -/
namespace Stoa.Staging

inductive StagingError
  | db
  | io
  deriving DecidableEq, Repr

structure StagingConfig where
  maxBytes : Nat
  maxEntries : Nat

structure StagingRow where
  id : String
  messageId : String
  receivedAt : Nat
  byteSize : Nat
  claimedAt : Option Nat
  retryCount : Nat
  deriving DecidableEq, Repr

abbrev StagingTable := Table StagingRow StagingRow.id

structure StagedArticle where
  id : String
  messageId : String
  bytes : Bytes
  deriving DecidableEq, Repr

structure StagingStore where
  rows : StagingTable
  files : Files String Bytes

def StagingStore.new : StagingStore := ⟨Table.empty, Files.empty⟩

/-- `SUM(byte_size)`. -/
def totalBytes (rows : List StagingRow) : Nat := rows.foldr (fun r n => r.byteSize + n) 0

def StagingTable.Has (rows : StagingTable) (id : String) : Prop := ∃ row ∈ rows.rows, row.id = id

/-- The checks and the INSERT of `try_stage`, between BEGIN IMMEDIATE and COMMIT. -/
def insertRow (config : StagingConfig) (row : StagingRow) (rows : StagingTable) :
    Except StagingError Bool × StagingTable :=
  if config.maxEntries ≤ rows.rows.length then (.ok false, rows)
  else if config.maxBytes < totalBytes rows.rows + row.byteSize then (.ok false, rows)
  -- The Message-ID is unique in the table, and so is the id.
  else if rows.rows.any fun r => decide (r.messageId = row.messageId) then (.error .db, rows)
  else match rows.insert row with
    | none => (.error .db, rows)
    | some rows => (.ok true, rows)

def isUnclaimed (row : StagingRow) : Bool := row.claimedAt.isNone

/-- The SELECT and the UPDATE of `drain_one`, between BEGIN IMMEDIATE and COMMIT. -/
def claimOldest (now : Nat) (rows : StagingTable) : Option StagingRow × StagingTable :=
  match (rows.select isUnclaimed).argmin StagingRow.receivedAt with
  | none => (none, rows)
  | some row => (some row, rows.update (fun r => decide (r.id = row.id))
      (fun r => { r with claimedAt := some now }) fun _ => rfl)

def deleteRow (id : String) (rows : StagingTable) : StagingTable :=
  rows.delete fun r => decide (r.id = id)

/-- The UPDATE of `increment_retry_count`. -/
def incrementRetryCount (id : String) (rows : StagingTable) : StagingTable :=
  rows.update (fun r => decide (r.id = id))
    (fun r => { r with retryCount := r.retryCount + 1, claimedAt := none }) fun _ => rfl

def resetClaims (rows : StagingTable) : StagingTable :=
  rows.update (fun _ => true) (fun r => { r with claimedAt := none }) fun _ => rfl

def cleanupOrphanedFiles (rows : StagingTable) (stays : List String) (files : Files String Bytes) :
    Files String Bytes :=
  fun id => if (rows.rows.any fun r => decide (r.id = id)) || stays.contains id then files id else none

/-- A call of `drain_one` from beginning to end, without faults: the article that it returns. -/
def drainOne (now : Nat) (store : StagingStore) : Option StagedArticle × StagingStore :=
  match claimOldest now store.rows with
  | (none, rows) => (none, { store with rows })
  | (some row, rows) => ((store.files row.id).map fun bytes => ⟨row.id, row.messageId, bytes⟩,
      { store with rows })

inductive StagingTask
  /-- In `try_stage`, with the file written. -/
  | wrote (id messageId : String) (bytes : Bytes)
  /-- In `try_stage`, about to remove the file and to return false or an error. -/
  | discarding (id : String) (error : Option StagingError)
  /-- In `drain_one`, with the claim committed. -/
  | claimed (id messageId : String)
  /-- A worker with the article that `drain_one` returned. -/
  | holds (id : String)
  /-- The same after it has given up the claim. -/
  | stale (id : String)
  /-- In `complete` or `purge`, after the removal of the file. -/
  | removing (id : String)

def StagingTask.id : StagingTask → String
  | .wrote id _ _ | .discarding id _ | .claimed id _ | .holds id | .stale id | .removing id => id

/-- What `try_stage` returns if it does not stage the article. -/
def refusal : Option StagingError → Except StagingError Bool
  | none => .ok false
  | some e => .error e

structure StagingWorld where
  store : StagingStore
  tasks : Nat → Option StagingTask
  /-- The ids that were drawn. -/
  used : List String
  /-- The articles for which `try_stage` has returned true. -/
  staged : String → Option Bytes
  /-- The articles on which `complete` or `purge` was started. -/
  ended : List String

def StagingWorld.start : StagingWorld := ⟨.new, fun _ => none, [], fun _ => none, []⟩

/-- The steps of the calls; a fault makes a step fail. -/
inductive StagingLabel
  /-- `fs::write`; if it fails there may be no file or a part of it. -/
  | write (task : Nat) (id messageId : String) (bytes : Bytes) (failure : Option (Option Bytes))
  | transact (task now : Nat) (fault : Bool)
  | discard (task : Nat) (fault : Bool)
  | claim (task now : Nat) (fault : Bool)
  | read (task : Nat) (fault : Bool)
  | remove (task : Nat) (fault : Bool)
  | delete (task : Nat) (fault : Bool)
  | retry (task : Nat) (fault : Bool)
  /-- A crash and the next start; some orphans cannot be removed. -/
  | restart (stays : List String)

inductive StagingEvent
  | tryStage (id : String) (result : Except StagingError Bool)
  | claimed (id : String)
  | returned (article : StagedArticle)
  | released (id : String)
  | reset

open Function (update)

namespace StagingWorld

def setTask (w : StagingWorld) (n : Nat) (task : Option StagingTask) : StagingWorld :=
  { w with tasks := update w.tasks n task }

def setFile (w : StagingWorld) (id : String) (file : Option Bytes) : StagingWorld :=
  { w with store := { w.store with files := update w.store.files id file } }

def setRows (w : StagingWorld) (rows : StagingTable) : StagingWorld :=
  { w with store := { w.store with rows } }

section

variable (w : StagingWorld) (n : Nat) (task : Option StagingTask) (id : String) (file : Option Bytes)
  (rows : StagingTable)

@[simp] theorem setTask_store : (w.setTask n task).store = w.store := rfl
@[simp] theorem setTask_tasks : (w.setTask n task).tasks = update w.tasks n task := rfl
@[simp] theorem setTask_used : (w.setTask n task).used = w.used := rfl
@[simp] theorem setTask_staged : (w.setTask n task).staged = w.staged := rfl
@[simp] theorem setTask_ended : (w.setTask n task).ended = w.ended := rfl

@[simp] theorem setFile_rows : (w.setFile id file).store.rows = w.store.rows := rfl
@[simp] theorem setFile_files : (w.setFile id file).store.files = update w.store.files id file := rfl
@[simp] theorem setFile_tasks : (w.setFile id file).tasks = w.tasks := rfl
@[simp] theorem setFile_used : (w.setFile id file).used = w.used := rfl
@[simp] theorem setFile_staged : (w.setFile id file).staged = w.staged := rfl
@[simp] theorem setFile_ended : (w.setFile id file).ended = w.ended := rfl

@[simp] theorem setRows_rows : (w.setRows rows).store.rows = rows := rfl
@[simp] theorem setRows_files : (w.setRows rows).store.files = w.store.files := rfl
@[simp] theorem setRows_tasks : (w.setRows rows).tasks = w.tasks := rfl
@[simp] theorem setRows_used : (w.setRows rows).used = w.used := rfl
@[simp] theorem setRows_staged : (w.setRows rows).staged = w.staged := rfl
@[simp] theorem setRows_ended : (w.setRows rows).ended = w.ended := rfl

end

/-- The worker gives up when the statement fails or finds no row. -/
def releaseClaim (w : StagingWorld) (n : Nat) (id : String) (fault : Bool) :
    Option StagingEvent × StagingWorld :=
  if fault || !(w.store.rows.rows.any fun r => decide (r.id = id)) then (none, w.setTask n none)
  else (some (.released id),
    (w.setRows (incrementRetryCount id w.store.rows)).setTask n (some (.stale id)))

end StagingWorld

/-- What a step does; one that its task cannot take does nothing. -/
def stagingStep (config : StagingConfig) (label : StagingLabel) (w : StagingWorld) :
    Option StagingEvent × StagingWorld :=
  match label with
  | .write n id messageId bytes failure =>
    -- Ids are random and long enough not to be drawn twice.
    if (w.tasks n).isSome || w.used.contains id then (none, w)
    else
      let w := { w with used := id :: w.used }
      match failure with
      | none => (none, (w.setFile id (some bytes)).setTask n (some (.wrote id messageId bytes)))
      | some left => (some (.tryStage id (.error .io)), w.setFile id left)
  | .transact n now fault =>
    match w.tasks n with
    | some (.wrote id messageId bytes) =>
      match if fault then (.error .db, w.store.rows)
        else insertRow config ⟨id, messageId, now, bytes.length, none, 0⟩ w.store.rows with
      | (.ok true, rows) => (some (.tryStage id (.ok true)),
          { (w.setRows rows).setTask n none with staged := update w.staged id (some bytes) })
      | (.ok false, _) => (none, w.setTask n (some (.discarding id none)))
      | (.error e, _) => (none, w.setTask n (some (.discarding id (some e))))
    | _ => (none, w)
  | .discard n fault =>
    match w.tasks n with
    | some (.discarding id error) =>
      (some (.tryStage id (refusal error)),
        (w.setFile id (if fault then w.store.files id else none)).setTask n none)
    | _ => (none, w)
  | .claim n now fault =>
    if (w.tasks n).isSome || fault then (none, w)
    else match claimOldest now w.store.rows with
      | (none, _) => (none, w)
      | (some row, rows) =>
        (some (.claimed row.id), (w.setRows rows).setTask n (some (.claimed row.id row.messageId)))
  | .read n fault =>
    match w.tasks n with
    | some (.claimed id messageId) =>
      match if fault then none else w.store.files id with
      | none => (none, w.setTask n none)
      | some bytes => (some (.returned ⟨id, messageId, bytes⟩), w.setTask n (some (.holds id)))
    | _ => (none, w)
  | .remove n fault =>
    match w.tasks n with
    | some (.holds id) | some (.stale id) =>
      (none, { (w.setFile id (if fault then w.store.files id else none)).setTask n
        (some (.removing id)) with ended := id :: w.ended })
    | _ => (none, w)
  | .delete n fault =>
    match w.tasks n with
    | some (.removing id) =>
      (none, (w.setRows (if fault then w.store.rows else deleteRow id w.store.rows)).setTask n none)
    | _ => (none, w)
  | .retry n fault =>
    match w.tasks n with
    | some (.holds id) | some (.stale id) =>
      w.releaseClaim n id fault
    | _ => (none, w)
  | .restart stays =>
    let rows := resetClaims w.store.rows
    (some .reset, { w with
      store := ⟨rows, cleanupOrphanedFiles rows stays w.store.files⟩
      tasks := fun _ => none })

/-- The steps that do something, each with what makes it possible. -/
inductive Moves (config : StagingConfig) (w : StagingWorld) :
    StagingLabel → Option StagingEvent → StagingWorld → Prop
  | nothing {label : StagingLabel} : Moves config w label none w
  | wrote {n : Nat} {id messageId : String} {bytes : Bytes} (idle : w.tasks n = none)
    (fresh : id ∉ w.used) : Moves config w (.write n id messageId bytes none) none
      (({ w with used := id :: w.used }.setFile id (some bytes)).setTask n
        (some (.wrote id messageId bytes)))
  | unwritten {n : Nat} {id messageId : String} {bytes : Bytes} {left : Option Bytes}
    (idle : w.tasks n = none) (fresh : id ∉ w.used) :
    Moves config w (.write n id messageId bytes (some left)) (some (.tryStage id (.error .io)))
      ({ w with used := id :: w.used }.setFile id left)
  | staged {n now : Nat} {id messageId : String} {bytes : Bytes} {rows : StagingTable}
    (task : w.tasks n = some (.wrote id messageId bytes))
    (inserted : insertRow config ⟨id, messageId, now, bytes.length, none, 0⟩ w.store.rows =
      (.ok true, rows)) : Moves config w (.transact n now false) (some (.tryStage id (.ok true)))
        { (w.setRows rows).setTask n none with staged := update w.staged id (some bytes) }
  | refused {n now : Nat} {fault : Bool} {id messageId : String} {bytes : Bytes}
    {error : Option StagingError} (task : w.tasks n = some (.wrote id messageId bytes)) :
    Moves config w (.transact n now fault) none (w.setTask n (some (.discarding id error)))
  | discarded {n : Nat} {fault : Bool} {id : String} {error : Option StagingError}
    (task : w.tasks n = some (.discarding id error)) :
    Moves config w (.discard n fault) (some (.tryStage id (refusal error)))
      ((w.setFile id (if fault then w.store.files id else none)).setTask n none)
  | claimed {n now : Nat} {row : StagingRow} {rows : StagingTable} (idle : w.tasks n = none)
    (oldest : claimOldest now w.store.rows = (some row, rows)) :
    Moves config w (.claim n now false) (some (.claimed row.id))
      ((w.setRows rows).setTask n (some (.claimed row.id row.messageId)))
  | unread {n : Nat} {fault : Bool} {id messageId : String}
    (task : w.tasks n = some (.claimed id messageId))
    (failed : fault = true ∨ w.store.files id = none) :
    Moves config w (.read n fault) none (w.setTask n none)
  | read {n : Nat} {id messageId : String} {bytes : Bytes}
    (task : w.tasks n = some (.claimed id messageId)) (file : w.store.files id = some bytes) :
    Moves config w (.read n false) (some (.returned ⟨id, messageId, bytes⟩))
      (w.setTask n (some (.holds id)))
  | removed {n : Nat} {fault : Bool} {id : String}
    (task : w.tasks n = some (.holds id) ∨ w.tasks n = some (.stale id)) :
    Moves config w (.remove n fault) none
      { (w.setFile id (if fault then w.store.files id else none)).setTask n (some (.removing id)) with
        ended := id :: w.ended }
  | deleted {n : Nat} {fault : Bool} {id : String} (task : w.tasks n = some (.removing id)) :
    Moves config w (.delete n fault) none
      ((w.setRows (if fault then w.store.rows else deleteRow id w.store.rows)).setTask n none)
  | gaveUp {n : Nat} {fault : Bool} {id : String}
    (task : w.tasks n = some (.holds id) ∨ w.tasks n = some (.stale id))
    (failed : fault = true ∨ ¬ w.store.rows.Has id) :
    Moves config w (.retry n fault) none (w.setTask n none)
  | released {n : Nat} {id : String}
    (task : w.tasks n = some (.holds id) ∨ w.tasks n = some (.stale id))
    (present : w.store.rows.Has id) : Moves config w (.retry n false) (some (.released id))
      ((w.setRows (incrementRetryCount id w.store.rows)).setTask n (some (.stale id)))
  | restarted {stays : List String} : Moves config w (.restart stays) (some .reset)
      { w with
        store := ⟨resetClaims w.store.rows,
          cleanupOrphanedFiles (resetClaims w.store.rows) stays w.store.files⟩
        tasks := fun _ => none }

theorem any_id_iff (rows : StagingTable) (id : String) :
    (rows.rows.any fun r => decide (r.id = id)) = true ↔ rows.Has id := by
  simp [StagingTable.Has]

variable {w : StagingWorld} {id : String}

variable {n : Nat}

theorem releaseClaim_moves (config : StagingConfig)
    (fault : Bool) (task : w.tasks n = some (.holds id) ∨ w.tasks n = some (.stale id)) :
    Moves config w (.retry n fault) (w.releaseClaim n id fault).1 (w.releaseClaim n id fault).2 := by
  rw [StagingWorld.releaseClaim]
  split
  · next failed =>
    rw [Bool.or_eq_true, Bool.not_eq_true', ← Bool.not_eq_true, any_id_iff] at failed
    exact .gaveUp task failed
  · next ok =>
    rw [Bool.or_eq_true, Bool.not_eq_true', ← Bool.not_eq_true, any_id_iff, not_or, not_not,
      Bool.not_eq_true] at ok
    obtain ⟨rfl, present⟩ := ok
    exact .released task present

theorem stagingStep_moves (config : StagingConfig) (label : StagingLabel) (w : StagingWorld) :
    Moves config w label (stagingStep config label w).1 (stagingStep config label w).2 := by
  cases label with
  | write n id messageId bytes failure =>
    simp only [stagingStep]
    split
    · exact .nothing
    · next free =>
      simp only [Bool.or_eq_true, List.contains_iff_mem, not_or, Option.not_isSome_iff_eq_none] at free
      cases failure with
      | none => exact .wrote free.1 free.2
      | some left => exact .unwritten free.1 free.2
  | transact n now fault =>
    simp only [stagingStep]
    split
    · next id messageId bytes task =>
      cases fault with
      | true => exact .refused task
      | false =>
        simp only [Bool.false_eq_true, if_false]
        split
        · next rows inserted => exact .staged task inserted
        · exact .refused task
        · exact .refused task
    · exact .nothing
  | discard n fault =>
    simp only [stagingStep]
    split
    · next id error task => exact .discarded task
    · exact .nothing
  | claim n now fault =>
    simp only [stagingStep]
    split
    · exact .nothing
    · next free =>
      rw [Bool.or_eq_true, not_or, Option.not_isSome_iff_eq_none, Bool.not_eq_true] at free
      obtain ⟨idle, rfl⟩ := free
      split
      · exact .nothing
      · next row rows oldest => exact .claimed idle oldest
  | read n fault =>
    simp only [stagingStep]
    split
    · next id messageId task =>
      cases fault with
      | true => exact .unread task (.inl rfl)
      | false =>
        simp only [Bool.false_eq_true, if_false]
        split
        · next missing => exact .unread task (.inr missing)
        · next bytes file => exact .read task file
    · exact .nothing
  | remove n fault =>
    simp only [stagingStep]
    split
    · next id task => exact .removed (.inl task)
    · next id task => exact .removed (.inr task)
    · exact .nothing
  | delete n fault =>
    simp only [stagingStep]
    split
    · next id task => exact .deleted task
    · exact .nothing
  | retry n fault =>
    simp only [stagingStep]
    split
    · next id task => exact releaseClaim_moves config fault (.inl task)
    · next id task => exact releaseClaim_moves config fault (.inr task)
    · exact .nothing
  | restart stays => exact .restarted

variable {rows : StagingTable}

theorem has_update {p : StagingRow → Bool} {f : StagingRow → StagingRow}
    {keeps : ∀ r, (f r).id = r.id} : StagingTable.Has (rows.update p f keeps) id ↔ rows.Has id := by
  constructor
  · rintro ⟨row, mem, rfl⟩
    obtain ⟨old, oldMem, rfl⟩ := List.mem_map.mp mem
    refine ⟨old, oldMem, ?_⟩
    split
    · exact (keeps old).symm
    · rfl
  · rintro ⟨row, mem, rfl⟩
    refine ⟨_, List.mem_map.mpr ⟨row, mem, rfl⟩, ?_⟩
    split
    · exact keeps row
    · rfl

@[simp] theorem has_deleteRow {id' : String} :
    StagingTable.Has (deleteRow id rows) id' ↔ rows.Has id' ∧ id' ≠ id := by
  constructor
  · rintro ⟨row, mem, rfl⟩
    obtain ⟨old, other⟩ := List.mem_filter.mp mem
    exact ⟨⟨row, old, rfl⟩, by simpa using other⟩
  · rintro ⟨⟨row, mem, rfl⟩, other⟩
    exact ⟨row, List.mem_filter.mpr ⟨mem, by simpa using other⟩, rfl⟩

@[simp] theorem has_incrementRetryCount {id' : String} :
    StagingTable.Has (incrementRetryCount id rows) id' ↔ rows.Has id' := has_update

@[simp] theorem has_resetClaims : StagingTable.Has (resetClaims rows) id ↔ rows.Has id := has_update

variable {config : StagingConfig} {row : StagingRow} {rows' : StagingTable}

theorem of_insertRow (inserted : insertRow config row rows = (.ok true, rows')) :
    rows'.rows = rows.rows ++ [row] ∧ rows.rows.length < config.maxEntries ∧
      totalBytes rows.rows + row.byteSize ≤ config.maxBytes := by
  unfold insertRow at inserted
  split at inserted
  · simp at inserted
  · next entries =>
    split at inserted
    · simp at inserted
    · next bytes =>
      split at inserted
      · simp at inserted
      · split at inserted
        · simp at inserted
        · next rows'' added =>
          obtain rfl : rows'' = rows' := by simpa using inserted
          exact ⟨Table.rows_of_insert added, by omega, by omega⟩

theorem has_of_insertRow (inserted : insertRow config row rows = (.ok true, rows')) :
    rows'.Has id ↔ rows.Has id ∨ row.id = id := by
  simp [StagingTable.Has, (of_insertRow inserted).1, or_and_right, exists_or]

theorem of_claimOldest {now : Nat} (oldest : claimOldest now rows = (some row, rows')) :
    row ∈ rows.rows ∧ row.claimedAt = none ∧ rows' = rows.update (fun r => decide (r.id = row.id))
      (fun r => { r with claimedAt := some now }) fun _ => rfl := by
  unfold claimOldest at oldest
  split at oldest
  · simp at oldest
  · next first found =>
    obtain ⟨rfl, rfl⟩ : first = row ∧ _ = rows' := by simpa using oldest
    have mem := List.mem_filter.mp (List.argmin_mem found)
    exact ⟨mem.1, by simpa [isUnclaimed] using mem.2, rfl⟩

theorem has_of_claimOldest {now : Nat}
    (oldest : claimOldest now rows = (some row, rows')) : rows'.Has id ↔ rows.Has id := by
  rw [(of_claimOldest oldest).2.2, has_update]

/-- A call of `try_stage` that has written its file. -/
def StagingTask.Pending : StagingTask → Prop
  | .wrote _ _ _ | .discarding _ _ => True
  | _ => False

/-- Until it has a row, an article is known to the call that stages it only. -/
structure Coherent (w : StagingWorld) : Prop where
  rows : ∀ id, w.store.rows.Has id → id ∈ w.used
  tasks : ∀ n t, w.tasks n = some t → t.id ∈ w.used
  file : ∀ n t, w.tasks n = some t → t.Pending → w.store.files t.id ≠ none
  wrote : ∀ n id messageId bytes, w.tasks n = some (.wrote id messageId bytes) →
    w.store.files id = some bytes
  rowless : ∀ n t, w.tasks n = some t → t.Pending → ¬ w.store.rows.Has t.id
  alone : ∀ n t, w.tasks n = some t → t.Pending →
    ∀ m t', w.tasks m = some t' → t'.id = t.id → m = n

theorem Coherent.start : Coherent .start :=
  ⟨by simp [StagingWorld.start, StagingStore.new, StagingTable.Has, Table.empty], by simp [StagingWorld.start],
    by simp [StagingWorld.start], by simp [StagingWorld.start], by simp [StagingWorld.start],
    by simp [StagingWorld.start]⟩

structure Local (w w' : StagingWorld) (n : Nat) (i : String) (next : Option StagingTask) : Prop where
  used : ∀ j, j ∈ w.used ∨ j = i → j ∈ w'.used
  tasks : w'.tasks = update w.tasks n next
  files : ∀ j, j ≠ i → w'.store.files j = w.store.files j
  rows : ∀ j, j ≠ i → (w'.store.rows.Has j ↔ w.store.rows.Has j)
  next : ∀ t, next = some t → t.id = i

def Apart (w : StagingWorld) (n : Nat) (i : String) : Prop :=
  ∀ m t, m ≠ n → w.tasks m = some t → t.Pending → t.id ≠ i

variable {t : StagingTask}

theorem Coherent.apart (coherent : Coherent w) (task : w.tasks n = some t) : Apart w n t.id := by
  intro m t' other task' pending same
  exact other (coherent.alone m t' task' pending n t task same.symm).symm

variable {next : Option StagingTask}

theorem task_of_update {tasks : Nat → Option StagingTask} {m : Nat}
    (task : update tasks n next m = some t) : (m = n ∧ next = some t) ∨ (m ≠ n ∧ tasks m = some t) := by
  by_cases same : m = n
  · subst same
    rw [Function.update_self] at task
    exact .inl ⟨rfl, task⟩
  · rw [Function.update_of_ne same] at task
    exact .inr ⟨same, task⟩

variable {w' : StagingWorld}

theorem Coherent.local (coherent : Coherent w) {i : String}
    (step : Local w w' n i next) (apart : Apart w n i)
    (pending : ∀ t, next = some t → t.Pending → w'.store.files i ≠ none ∧ ¬ w'.store.rows.Has i ∧
      ∀ m t', m ≠ n → w.tasks m = some t' → t'.id ≠ i)
    (wrote : ∀ id messageId bytes, next = some (.wrote id messageId bytes) →
      w'.store.files i = some bytes) : Coherent w' := by
  have cases {m : Nat} {t : StagingTask} (task : w'.tasks m = some t) :
      (m = n ∧ next = some t) ∨ (m ≠ n ∧ w.tasks m = some t) := by
    rw [step.tasks] at task
    exact task_of_update task
  refine ⟨?_, ?_, ?_, ?_, ?_, ?_⟩
  · intro id has
    by_cases here : id = i
    · exact step.used id (.inr here)
    · exact step.used id (.inl (coherent.rows id ((step.rows id here).mp has)))
  · intro m t task
    rcases cases task with ⟨rfl, new⟩ | ⟨-, old⟩
    · exact step.used _ (.inr (step.next t new))
    · exact step.used _ (.inl (coherent.tasks m t old))
  · intro m t task isPending
    rcases cases task with ⟨rfl, new⟩ | ⟨other, old⟩
    · rw [step.next t new]
      exact (pending t new isPending).1
    · rw [step.files _ (apart m t other old isPending)]
      exact coherent.file m t old isPending
  · intro m id messageId bytes task
    rcases cases task with ⟨rfl, new⟩ | ⟨other, old⟩
    · rw [show id = i from step.next _ new]
      exact wrote id messageId bytes new
    · rw [step.files id (apart m _ other old trivial)]
      exact coherent.wrote m id messageId bytes old
  · intro m t task isPending
    rcases cases task with ⟨rfl, new⟩ | ⟨other, old⟩
    · rw [step.next t new]
      exact (pending t new isPending).2.1
    · rw [step.rows _ (apart m t other old isPending)]
      exact coherent.rowless m t old isPending
  · intro m t task isPending m' t' task' same
    rcases cases task with ⟨rfl, new⟩ | ⟨other, old⟩
    · by_contra differs
      rcases cases task' with ⟨same', -⟩ | ⟨other', old'⟩
      · exact differs same'
      · exact (pending t new isPending).2.2 m' t' other' old' (same.trans (step.next t new))
    · rcases cases task' with ⟨rfl, new'⟩ | ⟨other', old'⟩
      · exact absurd (same.symm.trans (step.next t' new')) (apart m t other old isPending)
      · exact coherent.alone m t old isPending m' t' old' same

theorem Coherent.settled (coherent : Coherent w) (task : w.tasks n = some t) (step : Local w w' n t.id next)
    (settled : ∀ t, next = some t → ¬ t.Pending) : Coherent w' := by
  refine coherent.local step (coherent.apart task) (fun t new pending => absurd pending (settled t new)) ?_
  intro id messageId bytes new
  exact absurd trivial (settled _ new)

variable {event : Option StagingEvent}

theorem Coherent.moves {label : StagingLabel}
    (coherent : Coherent w) (moves : Moves config w label event w') : Coherent w' := by
  have files {i : String} {file : Option Bytes} : ∀ j, j ≠ i →
      update w.store.files i file j = w.store.files j := fun j other => Function.update_of_ne other ..
  have known {n : Nat} {t : StagingTask} (task : w.tasks n = some t) :
      ∀ j, j ∈ w.used ∨ j = t.id → j ∈ w.used := by
    rintro j (old | rfl)
    · exact old
    · exact coherent.tasks n t task
  cases moves with
  | nothing => exact coherent
  | @wrote n id messageId bytes idle fresh =>
    have unknown {m : Nat} {t : StagingTask} (task : w.tasks m = some t) : t.id ≠ id := by
      rintro rfl
      exact fresh (coherent.tasks m t task)
    refine coherent.local ⟨by simp [or_comm], rfl, files, by simp, by simp [StagingTask.id]⟩
      (fun m t _ task _ => unknown task) ?_ (by simp)
    rintro t - -
    exact ⟨by simp, fun has => fresh (coherent.rows id has), fun m t' _ task => unknown task⟩
  | @unwritten n id messageId bytes left idle fresh =>
    have unknown {m : Nat} {t : StagingTask} (task : w.tasks m = some t) : t.id ≠ id := by
      rintro rfl
      exact fresh (coherent.tasks m t task)
    have same : w.tasks = update w.tasks n none := by rw [← idle, Function.update_eq_self]
    exact coherent.local ⟨by simp [or_comm], same, files, by simp, by simp⟩
      (fun m t _ task _ => unknown task) (by simp) (by simp)
  | @staged n now id messageId bytes rows task inserted =>
    refine coherent.settled task ⟨known task, rfl, fun _ _ => rfl, fun j other => ?_, by simp⟩ (by simp)
    have other : j ≠ id := other
    simp [has_of_insertRow inserted, other.symm]
  | @refused n now fault id messageId bytes error task =>
    refine coherent.local (i := id) ⟨known task, rfl, fun _ _ => rfl, fun _ _ => Iff.rfl,
      by simp [StagingTask.id]⟩ (coherent.apart task) ?_ (by simp)
    rintro t - -
    refine ⟨coherent.file n _ task trivial, coherent.rowless n _ task trivial, ?_⟩
    intro m t' other task' same
    exact other (coherent.alone n _ task trivial m t' task' same)
  | discarded task =>
    exact coherent.settled task ⟨known task, rfl, files, fun _ _ => Iff.rfl, by simp⟩ (by simp)
  | @claimed n now row rows idle oldest =>
    have present : w.store.rows.Has row.id := ⟨row, (of_claimOldest oldest).1, rfl⟩
    refine coherent.local (i := row.id) ⟨?_, rfl, fun _ _ => rfl, fun j _ => has_of_claimOldest oldest,
      by simp [StagingTask.id]⟩ ?_ (by simp [StagingTask.Pending]) (by simp)
    · rintro j (old | rfl)
      · exact old
      · exact coherent.rows _ present
    · rintro m t - task pending same
      exact coherent.rowless m t task pending (same ▸ present)
  | unread task failed =>
    exact coherent.settled task ⟨known task, rfl, fun _ _ => rfl, fun _ _ => Iff.rfl, by simp⟩ (by simp)
  | read task file =>
    exact coherent.settled task ⟨known task, rfl, fun _ _ => rfl, fun _ _ => Iff.rfl,
      by simp [StagingTask.id]⟩ (by simp [StagingTask.Pending])
  | removed task =>
    rcases task with task | task
    · exact coherent.settled task ⟨known task, rfl, files, fun _ _ => Iff.rfl, by simp [StagingTask.id]⟩
        (by simp [StagingTask.Pending])
    · exact coherent.settled task ⟨known task, rfl, files, fun _ _ => Iff.rfl, by simp [StagingTask.id]⟩
        (by simp [StagingTask.Pending])
  | @deleted n fault id task =>
    refine coherent.settled task ⟨known task, rfl, fun _ _ => rfl, fun j other => ?_, by simp⟩ (by simp)
    have other : j ≠ id := other
    cases fault <;> simp [other]
  | gaveUp task failed =>
    rcases task with task | task
    · exact coherent.settled task ⟨known task, rfl, fun _ _ => rfl, fun _ _ => Iff.rfl, by simp⟩ (by simp)
    · exact coherent.settled task ⟨known task, rfl, fun _ _ => rfl, fun _ _ => Iff.rfl, by simp⟩ (by simp)
  | released task present =>
    rcases task with task | task
    · exact coherent.settled task ⟨known task, rfl, fun _ _ => rfl, fun _ _ => has_incrementRetryCount,
        by simp [StagingTask.id]⟩ (by simp [StagingTask.Pending])
    · exact coherent.settled task ⟨known task, rfl, fun _ _ => rfl, fun _ _ => has_incrementRetryCount,
        by simp [StagingTask.id]⟩ (by simp [StagingTask.Pending])
  | restarted =>
    refine ⟨fun id has => coherent.rows id (has_resetClaims.mp has), ?_, ?_, ?_, ?_, ?_⟩
    all_goals simp

theorem pending_of_moves {label : StagingLabel} (moves : Moves config w label event w') {m : Nat}
    (task' : w'.tasks m = some t) (pending : t.Pending) :
    t.id ∉ w.used ∨ ∃ t₀, w.tasks m = some t₀ ∧ t₀.Pending ∧ t₀.id = t.id := by
  cases moves with
  | nothing => exact .inr ⟨t, task', pending, rfl⟩
  | wrote idle fresh =>
    rcases task_of_update task' with ⟨rfl, new⟩ | ⟨-, old⟩
    · cases new
      exact .inl fresh
    · exact .inr ⟨t, old, pending, rfl⟩
  | unwritten idle fresh => exact .inr ⟨t, task', pending, rfl⟩
  | refused task =>
    rcases task_of_update task' with ⟨rfl, new⟩ | ⟨-, old⟩
    · cases new
      exact .inr ⟨_, task, trivial, rfl⟩
    · exact .inr ⟨t, old, pending, rfl⟩
  | staged | discarded | claimed | unread | read | removed | deleted | gaveUp | released =>
    rcases task_of_update task' with ⟨rfl, new⟩ | ⟨-, old⟩
    · cases new <;> cases pending
    · exact .inr ⟨t, old, pending, rfl⟩
  | restarted => cases task'

end Stoa.Staging
