import Stoa.Lib.Files
import Stoa.Lib.Table
import Stoa.Transit.IpfsStore

/-! A cache on disk in front of a block store: a file for each block, named by its CID, and a table
of the files with their sizes and the times of their last use. -/
namespace Stoa.BlockCache

structure CacheConfig where
  maxBytes : Nat
  maxEntries : Nat

structure CacheRow where
  cid : Cid
  byteSize : Nat
  lastAccess : Nat

abbrev CacheTable := Table CacheRow CacheRow.cid

def CacheTable.Has (rows : CacheTable) (cid : Cid) : Prop := ∃ row ∈ rows.rows, row.cid = cid

instance (rows : CacheTable) (cid : Cid) : Decidable (rows.Has cid) :=
  inferInstanceAs (Decidable (∃ row ∈ rows.rows, row.cid = cid))

def totalBytes (rows : List CacheRow) : Nat := rows.foldr (fun r n => r.byteSize + n) 0

def divCeil (a b : Nat) : Nat := (a + b - 1) / b

def evictionLimit (config : CacheConfig) (count total incoming : Nat) : Nat :=
  let entriesExcess := count + 1 - config.maxEntries
  let bytesToFree := total + incoming - config.maxBytes
  let avgEntryBytes := if count > 0 then divCeil total count else 1
  let entriesForBytes := divCeil bytesToFree (max avgEntryBytes 1)
  min (max ((entriesExcess + entriesForBytes) * 2) 1) count

def chooseVictims (config : CacheConfig) (incoming : Nat) : (count total : Nat) → List CacheRow → List Cid
  | _, _, [] => []
  | count, total, row :: rows =>
    if config.maxEntries < count + 1 ∨ config.maxBytes < total + incoming then
      row.cid :: chooseVictims config incoming (count - 1) (total - row.byteSize) rows
    else []

def victims (config : CacheConfig) (count total incoming : Nat) (rows : CacheTable) : List Cid :=
  chooseVictims config incoming count total
    ((rows.rows.mergeSort fun a b => decide (a.lastAccess ≤ b.lastAccess)).take
      (evictionLimit config count total incoming))

def chunkSize : Nat := 333

/-- What a call of `do_cache_put` does next. -/
inductive FillPhase
  /-- Is the block cached already? -/
  | check
  /-- Is there room for it? -/
  | count
  | candidates (count total : Nat)
  /-- Remove the files of the victims, of which the first list is left. -/
  | evict (left all : List Cid)
  | deleteRows (left : List Cid)
  | truncate
  | write (inode : Nat)
  | insert
  /-- The row could not be inserted; remove the file. -/
  | cleanup

structure CacheFiles where
  rows : CacheTable
  disk : Inodes Cid Bytes

def CacheFiles.touch (files : CacheFiles) (cid : Cid) (now : Nat) : CacheFiles :=
  { files with
    rows := files.rows.update (fun r => decide (r.cid = cid)) (fun r => { r with lastAccess := now })
      fun _ => rfl }

/-- How a step of a call goes: whether it fails, the time, and what a write that fails has written. -/
structure Circumstances where
  fault : Bool
  now : Nat
  left : Bytes

/-- A step of `do_cache_put`: what it does next, none at its end, and the files. -/
def fillStep (config : CacheConfig) (cid : Cid) (bytes : Bytes) (phase : FillPhase) (c : Circumstances)
    (files : CacheFiles) : Option FillPhase × CacheFiles :=
  match phase with
  | .check => (if c.fault then none else if files.rows.Has cid then none else some .count, files)
  | .count =>
    let count := files.rows.rows.length
    let total := totalBytes files.rows.rows
    (if c.fault then none
      else if count < config.maxEntries ∧ total + bytes.length ≤ config.maxBytes then some .truncate
      else some (.candidates count total), files)
  | .candidates count total =>
    let chosen := victims config count total bytes.length files.rows
    (if c.fault then none else if chosen = [] then some .truncate else some (.evict chosen chosen), files)
  | .evict left all =>
    match left with
    | [] => (some (.deleteRows all), files)
    -- A file that cannot be removed is left behind.
    | victim :: left => (some (.evict left all),
        { files with disk := if c.fault then files.disk else files.disk.remove victim })
  | .deleteRows left =>
    if c.fault then (none, files)
    else
      let chunk := left.take chunkSize
      let left := left.drop chunkSize
      (some (if left = [] then .truncate else .deleteRows left),
        { files with rows := files.rows.delete fun r => chunk.contains r.cid })
  | .truncate =>
    if c.fault then (none, files)
    else
      let (inode, disk) := files.disk.truncate [] cid
      (some (.write inode), { files with disk })
  | .write inode =>
    if c.fault then (none, { files with disk := files.disk.write inode c.left })
    else (some .insert, { files with disk := files.disk.write inode bytes })
  | .insert =>
    if c.fault then (some .cleanup, files)
    else (none, { files with rows := files.rows.insertOrIgnore ⟨cid, bytes.length, c.now⟩ })
  | .cleanup => (none, { files with disk := if c.fault then files.disk else files.disk.remove cid })

/-- The call that a cache fill belongs to; for `get_raw`, what was known when it began. -/
inductive Call
  | put
  | get (version : Nat)

inductive CacheTask
  /-- `cache_get` has found the row. -/
  | found (cid : Cid) (version : Nat)
  /-- `cache_get` has read the file. -/
  | touch (cid : Cid) (version : Nat) (bytes : Bytes)
  /-- The block is not cached. -/
  | missed (cid : Cid) (version : Nat)
  | fill (call : Call) (cid : Cid) (bytes : Bytes) (phase : FillPhase)

structure CacheWorld (I : Type) where
  inner : I
  files : CacheFiles
  tasks : Nat → Option CacheTask
  /-- Was the block put or deleted last? -/
  last : Cid → Option Bool
  /-- How often it was put or deleted. -/
  version : Cid → Nat

inductive CacheLabel
  /-- `put_raw`: the call of the store. -/
  | put (task : Nat) (data : Bytes)
  /-- `get_raw`: the SELECT of `cache_get`. -/
  | get (task : Nat) (cid : Cid) (fault : Bool)
  | read (task : Nat) (fault : Bool)
  | touch (task now : Nat)
  /-- `get_raw`: the call of the store. -/
  | fetch (task : Nat)
  | fill (task : Nat) (c : Circumstances)
  | delete (cid : Cid)

/-- `get_raw` returns; `since` says whether the block was put or deleted last before the call, if
neither has happened during it. -/
structure Got where
  cid : Cid
  result : Except IpfsError (Option Bytes)
  since : Option Bool

open Function (update)

namespace CacheWorld

variable {I : Type}

def setTask (w : CacheWorld I) (n : Nat) (task : Option CacheTask) : CacheWorld I :=
  { w with tasks := update w.tasks n task }

@[simp] theorem tasks_setTask_self (w : CacheWorld I) (n : Nat) (task : Option CacheTask) :
    (w.setTask n task).tasks n = task := Function.update_self ..

theorem tasks_setTask_of_ne (w : CacheWorld I) {n m : Nat} (task : Option CacheTask) (differs : m ≠ n) :
    (w.setTask n task).tasks m = w.tasks m := Function.update_of_ne differs ..

@[simp] theorem inner_setTask (w : CacheWorld I) (n : Nat) (task : Option CacheTask) :
    (w.setTask n task).inner = w.inner := rfl

def mark (w : CacheWorld I) (cid : Cid) (stored : Bool) : CacheWorld I :=
  { w with last := update w.last cid (some stored), version := update w.version cid (w.version cid + 1) }

@[simp] theorem inner_mark (w : CacheWorld I) (cid : Cid) (stored : Bool) :
    (w.mark cid stored).inner = w.inner := rfl

def since (w : CacheWorld I) (cid : Cid) (version : Nat) : Option Bool :=
  if w.version cid = version then w.last cid else none

end CacheWorld

/-- What a step does; one that its task cannot take does nothing. -/
def cacheStep {I : Type} [IpfsStore I] (config : CacheConfig) (label : CacheLabel) (w : CacheWorld I) :
    Option Got × CacheWorld I :=
  match label with
  | .put n data =>
    if (w.tasks n).isSome then (none, w)
    else match (IpfsStore.putRaw data).exec w.inner with
      | (.error _, inner) => (none, { w with inner })
      | (.ok cid, inner) =>
        (none, ({ w with inner }.mark cid true).setTask n (some (.fill .put cid data .check)))
  | .get n cid fault =>
    if (w.tasks n).isSome then (none, w)
    else if !fault ∧ w.files.rows.Has cid then (none, w.setTask n (some (.found cid (w.version cid))))
    else (none, w.setTask n (some (.missed cid (w.version cid))))
  | .read n fault =>
    match w.tasks n with
    | some (.found cid version) =>
      match if fault then none else w.files.disk.read cid with
      | none => (none, w.setTask n (some (.missed cid version)))
      | some bytes => (none, w.setTask n (some (.touch cid version bytes)))
    | _ => (none, w)
  | .touch n now =>
    match w.tasks n with
    | some (.touch cid version bytes) =>
      (some ⟨cid, .ok (some bytes), w.since cid version⟩,
        { w with files := w.files.touch cid now }.setTask n none)
    | _ => (none, w)
  | .fetch n =>
    match w.tasks n with
    | some (.missed cid version) =>
      match (IpfsStore.getRaw cid).exec w.inner with
      | (.ok (some bytes), inner) =>
        (none, { w with inner }.setTask n (some (.fill (.get version) cid bytes .check)))
      | (result, inner) => (some ⟨cid, result, w.since cid version⟩, { w with inner }.setTask n none)
    | _ => (none, w)
  | .fill n c =>
    match w.tasks n with
    | some (.fill call cid bytes phase) =>
      match fillStep config cid bytes phase c w.files with
      | (some phase, files) => (none, { w with files }.setTask n (some (.fill call cid bytes phase)))
      -- Whatever has become of the cache, the call returns what it got from the store.
      | (none, files) =>
        (match call with
          | .put => none
          | .get version => some ⟨cid, .ok (some bytes), w.since cid version⟩,
          { w with files }.setTask n none)
    | _ => (none, w)
  | .delete cid => (none, w.mark cid false)

/-- What a step of `do_cache_put` does to the files. The steps that do no more than shrink the
table or the directory are told apart from the four in which the block gets there. -/
inductive FillMoves (cid : Cid) (bytes : Bytes) (files : CacheFiles) :
    FillPhase → Option FillPhase → CacheFiles → Prop
  | same {phase : FillPhase} {next : Option FillPhase} (settled : ∀ i, next ≠ some (.write i))
    (unready : next ≠ some .insert) : FillMoves cid bytes files phase next files
  | removed {phase : FillPhase} {next : Option FillPhase} {name : Cid}
    (settled : ∀ i, next ≠ some (.write i)) (unready : next ≠ some .insert) :
    FillMoves cid bytes files phase next { files with disk := files.disk.remove name }
  | forgotten {phase : FillPhase} {next : Option FillPhase} {gone : CacheRow → Bool}
    (settled : ∀ i, next ≠ some (.write i)) (unready : next ≠ some .insert) :
    FillMoves cid bytes files phase next { files with rows := files.rows.delete gone }
  | truncated : FillMoves cid bytes files .truncate (some (.write (files.disk.truncate [] cid).1))
      { files with disk := (files.disk.truncate [] cid).2 }
  | partly {i : Nat} {left : Bytes} :
    FillMoves cid bytes files (.write i) none { files with disk := files.disk.write i left }
  | wrote {i : Nat} :
    FillMoves cid bytes files (.write i) (some .insert) { files with disk := files.disk.write i bytes }
  | inserted {now : Nat} : FillMoves cid bytes files .insert none
      { files with rows := files.rows.insertOrIgnore ⟨cid, bytes.length, now⟩ }

theorem fillStep_moves (config : CacheConfig) (cid : Cid) (bytes : Bytes) (phase : FillPhase)
    (c : Circumstances) (files : CacheFiles) :
    FillMoves cid bytes files phase (fillStep config cid bytes phase c files).1
      (fillStep config cid bytes phase c files).2 := by
  cases phase with
  | check | count | candidates =>
    simp only [fillStep]
    apply FillMoves.same
    · intro i
      split_ifs <;> simp
    · split_ifs <;> simp
  | evict left all =>
    cases left with
    | nil => exact .same (by simp [fillStep]) (by simp [fillStep])
    | cons victim left =>
      simp only [fillStep]
      split
      · exact .same (by simp) (by simp)
      · exact .removed (by simp) (by simp)
  | deleteRows left =>
    simp only [fillStep]
    split
    · exact .same (by simp) (by simp)
    · apply FillMoves.forgotten
      · intro i
        split_ifs <;> simp
      · split_ifs <;> simp
  | truncate =>
    simp only [fillStep]
    split
    · exact .same (by simp) (by simp)
    · exact .truncated
  | write i =>
    simp only [fillStep]
    split
    · exact .partly
    · exact .wrote
  | insert =>
    simp only [fillStep]
    split
    · exact .same (by simp) (by simp)
    · exact .inserted
  | cleanup =>
    simp only [fillStep]
    split
    · exact .same (by simp) (by simp)
    · exact .removed (by simp) (by simp)

/-- The steps that do something, each with what makes it possible. -/
inductive CacheMoves {I : Type} [IpfsStore I] (w : CacheWorld I) :
    CacheLabel → Option Got → CacheWorld I → Prop
  | nothing {label : CacheLabel} : CacheMoves w label none w
  | notPut {n : Nat} {data : Bytes} {e : IpfsError} {inner : I}
    (put : (IpfsStore.putRaw data).exec w.inner = (.error e, inner)) :
    CacheMoves w (.put n data) none { w with inner }
  | put {n : Nat} {data : Bytes} {cid : Cid} {inner : I} (idle : w.tasks n = none)
    (put : (IpfsStore.putRaw data).exec w.inner = (.ok cid, inner)) :
    CacheMoves w (.put n data) none
      (({ w with inner }.mark cid true).setTask n (some (.fill .put cid data .check)))
  | found {n : Nat} {cid : Cid} (idle : w.tasks n = none) (present : w.files.rows.Has cid) :
    CacheMoves w (.get n cid false) none (w.setTask n (some (.found cid (w.version cid))))
  | missed {n : Nat} {cid : Cid} {fault : Bool} (idle : w.tasks n = none) :
    CacheMoves w (.get n cid fault) none (w.setTask n (some (.missed cid (w.version cid))))
  | unread {n : Nat} {fault : Bool} {cid : Cid} {version : Nat}
    (task : w.tasks n = some (.found cid version)) :
    CacheMoves w (.read n fault) none (w.setTask n (some (.missed cid version)))
  | read {n : Nat} {cid : Cid} {version : Nat} {bytes : Bytes}
    (task : w.tasks n = some (.found cid version)) (file : w.files.disk.read cid = some bytes) :
    CacheMoves w (.read n false) none (w.setTask n (some (.touch cid version bytes)))
  | touched {n now : Nat} {cid : Cid} {version : Nat} {bytes : Bytes}
    (task : w.tasks n = some (.touch cid version bytes)) :
    CacheMoves w (.touch n now) (some ⟨cid, .ok (some bytes), w.since cid version⟩)
      ({ w with files := w.files.touch cid now }.setTask n none)
  | fetched {n : Nat} {cid : Cid} {version : Nat} {bytes : Bytes} {inner : I}
    (task : w.tasks n = some (.missed cid version))
    (get : (IpfsStore.getRaw cid).exec w.inner = (.ok (some bytes), inner)) :
    CacheMoves w (.fetch n) none
      ({ w with inner }.setTask n (some (.fill (.get version) cid bytes .check)))
  | notFetched {n : Nat} {cid : Cid} {version : Nat} {result : Except IpfsError (Option Bytes)} {inner : I}
    (task : w.tasks n = some (.missed cid version))
    (get : (IpfsStore.getRaw cid).exec w.inner = (result, inner))
    (absent : ∀ bytes, result ≠ .ok (some bytes)) :
    CacheMoves w (.fetch n) (some ⟨cid, result, w.since cid version⟩) ({ w with inner }.setTask n none)
  | filling {n : Nat} {c : Circumstances} {call : Call} {cid : Cid} {bytes : Bytes} {phase phase' : FillPhase}
    {files : CacheFiles} (task : w.tasks n = some (.fill call cid bytes phase))
    (step : FillMoves cid bytes w.files phase (some phase') files) :
    CacheMoves w (.fill n c) none ({ w with files }.setTask n (some (.fill call cid bytes phase')))
  | filled {n : Nat} {c : Circumstances} {call : Call} {cid : Cid} {bytes : Bytes} {phase : FillPhase}
    {files : CacheFiles} {got : Option Got} (task : w.tasks n = some (.fill call cid bytes phase))
    (step : FillMoves cid bytes w.files phase none files)
    (returns : ∀ g, got = some g → ∃ version, g = ⟨cid, .ok (some bytes), w.since cid version⟩) :
    CacheMoves w (.fill n c) got ({ w with files }.setTask n none)
  | deleted {cid : Cid} : CacheMoves w (.delete cid) none (w.mark cid false)

theorem cacheStep_moves {I : Type} [IpfsStore I] (config : CacheConfig) (label : CacheLabel)
    (w : CacheWorld I) : CacheMoves w label (cacheStep config label w).1 (cacheStep config label w).2 := by
  cases label with
  | put n data =>
    simp only [cacheStep]
    split
    · exact .nothing
    · next idle =>
      rw [Option.not_isSome_iff_eq_none] at idle
      split
      · next e inner put => exact .notPut put
      · next cid inner put => exact .put idle put
  | get n cid fault =>
    simp only [cacheStep]
    split
    · exact .nothing
    · next idle =>
      rw [Option.not_isSome_iff_eq_none] at idle
      split
      · next present =>
        obtain ⟨works, present⟩ := present
        cases fault with
        | true => cases works
        | false => exact .found idle present
      · exact .missed idle
  | read n fault =>
    simp only [cacheStep]
    split
    · next cid version task =>
      cases fault with
      | true => exact .unread task
      | false =>
        simp only [Bool.false_eq_true, if_false]
        split
        · exact .unread task
        · next bytes file => exact .read task file
    · exact .nothing
  | touch n now =>
    simp only [cacheStep]
    split
    · next cid version bytes task => exact .touched task
    · exact .nothing
  | fetch n =>
    simp only [cacheStep]
    split
    · next cid version task =>
      split
      · next bytes inner get => exact .fetched task get
      · next result inner absent get => exact .notFetched task get absent
    · exact .nothing
  | fill n c =>
    simp only [cacheStep]
    split
    · next call cid bytes phase task =>
      have moves := fillStep_moves config cid bytes phase c w.files
      split
      · next phase' files step =>
        rw [step] at moves
        exact .filling task moves
      · next files step =>
        rw [step] at moves
        apply CacheMoves.filled task moves
        cases call with
        | put => simp
        | get version => simp
    · exact .nothing
  | delete cid => exact .deleted

end Stoa.BlockCache
