import Stoa.Properties.PipelineFailure
import Stoa.Transit.BlockCache

/-!
- `transparent_of_undisturbed`: if no block that the store has is deleted, and no file is
  emptied while the block has a row or another call uses the file, the cache is not seen.
-/
namespace Stoa.BlockCache

open List CacheRow Function Nat Option ReadableStore

def lru (rows : CacheTable) : List CacheRow :=
  rows.rows.mergeSort fun a b => decide (a.lastAccess ≤ b.lastAccess)

def evictFor (config : CacheConfig) (incoming : Nat) (rows : CacheTable) : CacheTable :=
  let count := rows.rows.length
  let total := totalBytes rows.rows
  if count < config.maxEntries ∧ total + incoming ≤ config.maxBytes then rows
  else
    let chosen := victims config count total incoming rows
    rows.delete fun r => chosen.contains r.cid

def Room (config : CacheConfig) (incoming : Nat) (rows : List CacheRow) : Prop :=
  rows.length < config.maxEntries ∧ totalBytes rows + incoming ≤ config.maxBytes

/-- There is room, what was removed are the rows used least recently, and with fewer of them
there would be no room. -/
def MakesRoom (config : CacheConfig) (incoming : Nat) (before after : CacheTable) : Prop :=
  Room config incoming after.rows ∧ ∃ k, after.rows.Perm ((lru before).drop k) ∧
    ∀ j < k, ¬ Room config incoming ((lru before).drop j)

variable {config : CacheConfig} {incoming : Nat}

theorem totalBytes_eq_sum (rows : List CacheRow) : totalBytes rows = (rows.map byteSize).sum := by
  induction rows with
  | nil => rfl
  | cons r rows ih => simpa [totalBytes] using ih

theorem totalBytes_perm {rows rows' : List CacheRow} (same : rows.Perm rows') :
    totalBytes rows = totalBytes rows' := by
  rw [totalBytes_eq_sum, totalBytes_eq_sum, (same.map byteSize).sum_nat]

theorem Room.perm {rows rows' : List CacheRow} (same : rows.Perm rows') :
    Room config incoming rows ↔ Room config incoming rows' := by
  rw [Room, Room, same.length_eq, totalBytes_perm same]

theorem Room.drop {rows : List CacheRow} (room : Room config incoming rows) (n : Nat) :
    Room config incoming (rows.drop n) := by
  have split := congrArg totalBytes (take_append_drop n rows)
  simp only [totalBytes_eq_sum, map_append, List.sum_append] at split
  simp only [Room, totalBytes_eq_sum, length_drop] at room ⊢
  omega

/-- The victims are the first rows, up to the first that leaves room. -/
theorem chooseVictims_take (rows : List CacheRow) (n : Nat) (within : n ≤ rows.length) :
    ∃ k ≤ n, chooseVictims config incoming rows.length (totalBytes rows) (rows.take n) =
        (rows.take k).map cid ∧ (∀ j < k, ¬ Room config incoming (rows.drop j)) ∧
      (k < n → Room config incoming (rows.drop k)) := by
  induction rows generalizing n with
  | nil => exact ⟨0, Nat.zero_le _, by simp [chooseVictims], by simp, fun later => absurd within later.not_ge⟩
  | cons row rows ih =>
    cases n with
    | zero => exact ⟨0, le_rfl, by simp [chooseVictims], by simp, by simp⟩
    | succ n =>
      obtain ⟨k, least, chosen, before, stops⟩ := ih n (by simpa using within)
      by_cases full : config.maxEntries < (row :: rows).length + 1 ∨
          config.maxBytes < totalBytes (row :: rows) + incoming
      · have rest : totalBytes (row :: rows) - row.byteSize = totalBytes rows := by simp [totalBytes]
        refine ⟨k + 1, by omega, ?_, ?_, fun later => stops (by omega)⟩
        · rw [take_succ_cons, chooseVictims, if_pos full, rest]
          simpa using chosen
        · intro j earlier
          cases j with
          | zero =>
            rintro ⟨entries, bytes⟩
            simp only [drop_zero] at entries bytes
            omega
          | succ j => exact before j (by omega)
      · refine ⟨0, by omega, ?_, by simp, fun _ => ?_⟩
        · rw [take_succ_cons, chooseVictims, if_neg full]
          rfl
        · simp only [drop_zero, Room]
          omega

theorem perm_lru (rows : CacheTable) : (lru rows).Perm rows.rows := mergeSort_perm ..

/-- Removing the first rows of the order leaves the others. -/
theorem delete_take_perm (rows : CacheTable) (k : Nat) :
    (rows.delete fun r => (((lru rows).take k).map cid).contains r.cid).rows.Perm
      ((lru rows).drop k) := by
  have distinct : ((lru rows).map cid).Nodup :=
    ((perm_lru rows).map cid).nodup_iff.mpr rows.unique
  rw [← take_append_drop k (lru rows), map_append, nodup_append] at distinct
  have split (p : CacheRow → Bool) : (lru rows).filter p =
      ((lru rows).take k).filter p ++ ((lru rows).drop k).filter p := by
    rw [← filter_append, take_append_drop]
  refine ((perm_lru rows).filter _).symm.trans (.of_eq ?_)
  rw [split, filter_eq_nil_iff.mpr, filter_eq_self.mpr, nil_append]
  · intro r mem
    simp only [Bool.not_eq_true', contains_eq_mem, decide_eq_false_iff_not]
    exact fun gone => distinct.2.2 _ gone _ (mem_map_of_mem mem) rfl
  · intro r mem
    simp only [Bool.not_eq_true', contains_eq_mem, decide_eq_false_iff_not, not_not]
    exact mem_map_of_mem mem

/-- The eviction removes the first `k` rows, at most as many as it fetches. -/
theorem evictFor_perm (config : CacheConfig) (incoming : Nat) (rows : CacheTable) :
    ∃ k ≤ evictionLimit config rows.rows.length (totalBytes rows.rows) incoming,
      (evictFor config incoming rows).rows.Perm ((lru rows).drop k) ∧
      (∀ j < k, ¬ Room config incoming ((lru rows).drop j)) ∧
      (k < evictionLimit config rows.rows.length (totalBytes rows.rows) incoming →
        Room config incoming ((lru rows).drop k)) := by
  have same := perm_lru rows
  unfold evictFor
  dsimp only
  split_ifs with room
  · exact ⟨0, Nat.zero_le _, same.symm, by simp, fun _ => (Room.perm same).mpr room⟩
  · have length : (lru rows).length = rows.rows.length := same.length_eq
    have total := totalBytes_perm same
    obtain ⟨k, least, chosen, before, stops⟩ := @chooseVictims_take config incoming (lru rows)
      (evictionLimit config rows.rows.length (totalBytes rows.rows) incoming)
      (by rw [length]; exact Nat.min_le_right _ _)
    rw [length, total] at chosen
    refine ⟨k, least, ?_, before, stops⟩
    rw [victims, ← lru, chosen]
    exact delete_take_perm rows k

def narrow : CacheConfig := ⟨10, 10⟩

def rowOf (n : UInt8) (byteSize : Nat) : CacheRow :=
  ⟨.newV1 0x55 ⟨0x12, [n], Nat.le_add_left 1 63⟩, byteSize, n.toNat⟩

def skewed : CacheTable := ⟨[rowOf 0 1, rowOf 1 1, rowOf 2 7], by decide⟩

/-- The bytes are those of the CID; a block that was deleted is gone, and one that was put is
there. -/
structure Transparent (got : Got) : Prop where
  sound : ∀ b, got.result = .ok (some b) → rawCid b = got.cid
  deleted : got.since = some false → ∀ b, got.result ≠ .ok (some b)
  stored : got.since = some true → got.result ≠ .ok none

/-- The call relies on the file: it is about to read it, or has written it. -/
def CacheTask.Uses (cid : Cid) : CacheTask → Prop
  | .found c _ => c = cid
  | .fill _ c _ (.write _) | .fill _ c _ .insert => c = cid
  | _ => False

variable {I : Type}

/-- No block of the store is deleted, and no file is emptied that somebody relies on. -/
def Undisturbed [ReadableStore I] (label : CacheLabel) (w : CacheWorld I) : Prop :=
  match label with
  | .delete cid => ¬ ImmediateStore.Has w.inner cid
  | .fill n _ => ∀ call cid bytes, w.tasks n = some (.fill call cid bytes .truncate) →
      ¬ w.files.rows.Has cid ∧ ∀ m t, m ≠ n → w.tasks m = some t → ¬ t.Uses cid
  | _ => True

def CacheTask.Sound : CacheTask → Prop
  | .touch cid _ bytes | .fill _ cid bytes _ => rawCid bytes = cid
  | _ => True

def CacheTask.block : CacheTask → Option Cid
  | .found cid _ | .touch cid _ _ | .fill _ cid _ _ => some cid
  | .missed _ _ => none

structure Backed [ReadableStore I] (w : CacheWorld I) : Prop where
  sound : ∀ n t, w.tasks n = some t → t.Sound
  tasks : ∀ n t cid, w.tasks n = some t → t.block = some cid → ImmediateStore.Has w.inner cid
  rows : ∀ cid, w.files.rows.Has cid → ImmediateStore.Has w.inner cid
  last : ∀ cid stored, w.last cid = some stored → (ImmediateStore.Has w.inner cid ↔ stored = true)

/-- The call is about to read the file, or to make it known. -/
def CacheTask.Reads (cid : Cid) : CacheTask → Prop
  | .found c _ => c = cid
  | .fill _ c _ .insert => c = cid
  | _ => False

def Exposed (w : CacheWorld I) (cid : Cid) : Prop :=
  w.files.rows.Has cid ∨ ∃ n t, w.tasks n = some t ∧ t.Reads cid

/-- Files that may be read are whole, and a file that is being written is used by nobody else. -/
structure Whole (w : CacheWorld I) : Prop where
  exposed : ∀ cid b, Exposed w cid → w.files.disk.read cid = some b → rawCid b = cid
  unlisted : ∀ n call cid bytes i, w.tasks n = some (.fill call cid bytes (.write i)) →
    ¬ w.files.rows.Has cid
  alone : ∀ n call cid bytes i, w.tasks n = some (.fill call cid bytes (.write i)) →
    ∀ m t, m ≠ n → w.tasks m = some t → ¬ t.Uses cid
  inode : ∀ n call cid bytes i, w.tasks n = some (.fill call cid bytes (.write i)) →
    i < w.files.disk.next
  named : ∀ n call cid bytes i, w.tasks n = some (.fill call cid bytes (.write i)) →
    (∀ d, w.files.disk.paths d = some i → d = cid) ∧ ∀ j, w.files.disk.paths cid = some j → j = i

variable {cid : Cid}

theorem CacheTask.Reads.uses {t : CacheTask} (reads : t.Reads cid) : t.Uses cid := by
  cases t with
  | found | touch | missed => exact reads
  | fill call c bytes phase =>
    cases phase with
    | insert => exact reads
    | _ => exact reads.elim

variable {n : Nat} {next : Option CacheTask} {call : Call} {bytes : Bytes}

theorem other_of_update {tasks : Nat → Option CacheTask} {m : Nat}
    (settled : ∀ call cid bytes i, next ≠ some (.fill call cid bytes (.write i)))
    {i : Nat} (writing : update tasks n next m = some (.fill call cid bytes (.write i))) :
    m ≠ n ∧ tasks m = some (.fill call cid bytes (.write i)) := by
  by_cases same : m = n
  · rw [same, update_self] at writing
    exact absurd writing (settled _ _ _ _)
  · rw [update_of_ne same] at writing
    exact ⟨same, writing⟩

variable {w : CacheWorld I}

/-- A step of a task that does not open a file: it may rely on a file that has a row, or on one
that it relied on before, and no name gets another file. -/
theorem Whole.step {w' : CacheWorld I} (whole : Whole w) (tasks : w'.tasks = update w.tasks n next)
    (settled : ∀ call cid bytes i, next ≠ some (.fill call cid bytes (.write i)))
    (uses : ∀ t cid, next = some t → t.Uses cid →
      w.files.rows.Has cid ∨ ∃ old, w.tasks n = some old ∧ old.Uses cid)
    (rows : ∀ cid, w'.files.rows.Has cid →
      w.files.rows.Has cid ∨ ∃ old, w.tasks n = some old ∧ old.Uses cid)
    (paths : ∀ d j, w'.files.disk.paths d = some j → w.files.disk.paths d = some j)
    (bound : w.files.disk.next ≤ w'.files.disk.next)
    (exposed : ∀ cid b, Exposed w' cid → w'.files.disk.read cid = some b → rawCid b = cid) : Whole w' := by
  refine ⟨exposed, ?_, ?_, ?_, ?_⟩
  · intro m call cid bytes i writing present
    rw [tasks] at writing
    obtain ⟨differs, writing⟩ := other_of_update settled writing
    rcases rows cid present with listed | ⟨old, task, uses⟩
    · exact whole.unlisted m call cid bytes i writing listed
    · exact whole.alone m call cid bytes i writing n old differs.symm task uses
  · intro m call cid bytes i writing k t distinct task relies
    rw [tasks] at writing task
    obtain ⟨differs, writing⟩ := other_of_update settled writing
    by_cases same : k = n
    · rw [same, update_self] at task
      rcases uses t cid task relies with listed | ⟨old, task, uses⟩
      · exact whole.unlisted m call cid bytes i writing listed
      · exact whole.alone m call cid bytes i writing n old differs.symm task uses
    · rw [update_of_ne same] at task
      exact whole.alone m call cid bytes i writing k t distinct task relies
  · intro m call cid bytes i writing
    rw [tasks] at writing
    have old := other_of_update settled writing
    exact lt_of_lt_of_le (whole.inode m call cid bytes i old.2) bound
  · intro m call cid bytes i writing
    rw [tasks] at writing
    have named := whole.named m call cid bytes i (other_of_update settled writing).2
    exact ⟨fun d path => named.1 d (paths d i path), fun j path => named.2 j (paths cid j path)⟩

/-- If no file gets other contents, it is enough that the files are read by those who could read
them before. -/
theorem Whole.keep {w' : CacheWorld I} (whole : Whole w) (tasks : w'.tasks = update w.tasks n next)
    (settled : ∀ call cid bytes i, next ≠ some (.fill call cid bytes (.write i)))
    (uses : ∀ t cid, next = some t → t.Uses cid → w.files.rows.Has cid)
    (rows : ∀ cid, w'.files.rows.Has cid →
      w.files.rows.Has cid ∨ ∃ old, w.tasks n = some old ∧ old.Reads cid)
    (paths : ∀ d j, w'.files.disk.paths d = some j → w.files.disk.paths d = some j)
    (bound : w.files.disk.next ≤ w'.files.disk.next)
    (reads : ∀ d b, w'.files.disk.read d = some b → w.files.disk.read d = some b) : Whole w' := by
  apply whole.step tasks settled (fun t cid task relies => .inl (uses t cid task relies)) _ paths bound
  · rintro cid b shown content
    refine whole.exposed cid b ?_ (reads cid b content)
    rcases shown with listed | ⟨m, t, task, relies⟩
    · exact (rows cid listed).imp id fun ⟨old, task, reads⟩ => ⟨n, old, task, reads⟩
    · rw [tasks] at task
      by_cases same : m = n
      · rw [same, update_self] at task
        exact .inl (uses t cid task relies.uses)
      · rw [update_of_ne same] at task
        exact .inr ⟨m, t, task, relies⟩
  · exact fun cid listed => (rows cid listed).imp id fun ⟨old, task, reads⟩ => ⟨old, task, reads.uses⟩

theorem has_delete {rows : CacheTable} {gone : CacheRow → Bool}
    (present : CacheTable.Has (rows.delete gone) cid) : rows.Has cid := by
  obtain ⟨row, listed, named⟩ := present
  exact ⟨row, List.mem_of_mem_filter listed, named⟩

theorem has_insertOrIgnore {rows : CacheTable} {row : CacheRow}
    (present : CacheTable.Has (rows.insertOrIgnore row) cid) : rows.Has cid ∨ row.cid = cid := by
  obtain ⟨found, listed, named⟩ := present
  have keys := (Table.mem_keys_insertOrIgnore rows row cid).mp
    (List.mem_map.mpr ⟨found, listed, named⟩)
  exact keys.imp (fun old => List.mem_map.mp old) Eq.symm

theorem has_touch {files : CacheFiles} {d : Cid} {now : Nat}
    (present : (files.touch cid now).rows.Has d) : files.rows.Has d := by
  obtain ⟨row, listed, named⟩ := present
  obtain ⟨old, present, rfl⟩ := List.mem_map.mp listed
  refine ⟨old, present, ?_⟩
  rw [← named]
  split <;> rfl

def fillTask (call : Call) (cid : Cid) (bytes : Bytes) (next : Option FillPhase) : Option CacheTask :=
  next.map (.fill call cid bytes)

theorem writing_fillTask {call' : Call} {cid' : Cid} {bytes' : Bytes}
    {next : Option FillPhase} {i : Nat} (settled : ∀ i, next ≠ some (.write i)) :
    fillTask call cid bytes next ≠ some (.fill call' cid' bytes' (.write i)) := by
  intro writing
  obtain ⟨phase, rfl, same⟩ := map_eq_some_iff.mp writing
  cases same
  exact settled i rfl

theorem uses_fillTask {d : Cid} {next : Option FillPhase} {t : CacheTask}
    (settled : ∀ i, next ≠ some (.write i)) (unready : next ≠ some .insert)
    (task : fillTask call cid bytes next = some t) : ¬ t.Uses d := by
  obtain ⟨phase, rfl, rfl⟩ := map_eq_some_iff.mp task
  cases phase with
  | write i => exact absurd rfl (settled i)
  | insert => exact absurd rfl unready
  | _ => exact id

theorem Whole.open (whole : Whole w)
    (unlisted : ¬ w.files.rows.Has cid) (alone : ∀ m t, m ≠ n → w.tasks m = some t → ¬ t.Uses cid) :
    Whole ({ w with files := { w.files with disk := (w.files.disk.truncate [] cid).2 } }.setTask n
      (some (.fill call cid bytes (.write (w.files.disk.truncate [] cid).1)))) := by
  have opened := Inodes.opened_truncate w.files.disk [] cid
  generalize w.files.disk.truncate [] cid = file at opened ⊢
  -- Another file that is being written keeps its name and its inode.
  have others : ∀ m call' cid' bytes' i,
      update w.tasks n (some (.fill call cid bytes (.write file.1))) m =
        some (.fill call' cid' bytes' (.write i)) →
      (m = n ∧ cid' = cid ∧ i = file.1) ∨
        m ≠ n ∧ cid' ≠ cid ∧ w.tasks m = some (.fill call' cid' bytes' (.write i)) := by
    intro m call' cid' bytes' i writing
    by_cases same : m = n
    · rw [same, update_self] at writing
      cases writing
      exact .inl ⟨same, rfl, rfl⟩
    · rw [update_of_ne same] at writing
      exact .inr ⟨same, fun named => alone m _ same writing named, writing⟩
  refine ⟨?_, ?_, ?_, ?_, ?_⟩
  · intro d b shown content
    have differs : d ≠ cid ∧ Exposed w d := by
      rcases shown with listed | ⟨m, t, task, reads⟩
      · exact ⟨fun same => unlisted (same ▸ listed), .inl listed⟩
      · by_cases same : m = n
        · rw [same, CacheWorld.tasks_setTask_self] at task
          cases task
          exact reads.elim
        · rw [CacheWorld.tasks_setTask_of_ne _ _ same] at task
          exact ⟨fun named => alone m t same task (named ▸ reads.uses), .inr ⟨m, t, task, reads⟩⟩
    exact whole.exposed d b differs.2 ((opened.reads d differs.1).symm.trans content)
  · intro m call' cid' bytes' i writing
    rcases others m call' cid' bytes' i writing with ⟨-, rfl, -⟩ | ⟨-, -, old⟩
    · exact unlisted
    · exact whole.unlisted m call' cid' bytes' i old
  · intro m call' cid' bytes' i writing k t distinct task
    rcases others m call' cid' bytes' i writing with ⟨rfl, rfl, -⟩ | ⟨-, differs, old⟩
    · rw [CacheWorld.tasks_setTask_of_ne _ _ distinct] at task
      exact alone k t distinct task
    · by_cases same : k = n
      · rw [same, CacheWorld.tasks_setTask_self] at task
        cases task
        exact differs.symm
      · rw [CacheWorld.tasks_setTask_of_ne _ _ same] at task
        exact whole.alone m call' cid' bytes' i old k t distinct task
  · intro m call' cid' bytes' i writing
    rcases others m call' cid' bytes' i writing with ⟨-, -, rfl⟩ | ⟨-, -, old⟩
    · exact opened.bound
    · exact lt_of_lt_of_le (whole.inode m call' cid' bytes' i old) opened.grows
  · intro m call' cid' bytes' i writing
    rcases others m call' cid' bytes' i writing with ⟨-, rfl, rfl⟩ | ⟨-, differs, old⟩
    · refine ⟨fun d path => file.2.distinct d cid' _ path opened.path, fun j path => ?_⟩
      exact some.inj (path.symm.trans opened.path)
    · have named := whole.named m call' cid' bytes' i old
      refine ⟨fun d path => ?_, fun j path => named.2 j ((opened.paths cid' differs).symm.trans path)⟩
      by_cases same : d = cid
      · -- An old file has had the name before.
        subst same
        obtain rfl : file.1 = i := some.inj (opened.path.symm.trans path)
        exact named.1 d (opened.old (whole.inode m call' cid' bytes' _ old))
      · exact named.1 d ((opened.paths d same).symm.trans path)

theorem Whole.fill (whole : Whole w)
    {phase : FillPhase} {next : Option FillPhase} {files : CacheFiles} (sound : rawCid bytes = cid)
    (task : w.tasks n = some (.fill call cid bytes phase))
    (step : FillMoves cid bytes w.files phase next files) (undisturbed : phase = .truncate →
      ¬ w.files.rows.Has cid ∧ ∀ m t, m ≠ n → w.tasks m = some t → ¬ t.Uses cid) :
    Whole ({ w with files }.setTask n (fillTask call cid bytes next)) := by
  cases step with
  | same settled unready =>
    exact whole.keep rfl (fun _ _ _ _ => writing_fillTask settled)
      (fun t d task uses => absurd uses (uses_fillTask settled unready task)) (fun _ => .inl)
      (fun _ _ => id) (le_refl _) fun _ _ => id
  | @removed _ _ name settled unready =>
    refine whole.keep rfl (fun _ _ _ _ => writing_fillTask settled)
      (fun t d task uses => absurd uses (uses_fillTask settled unready task)) (fun _ => .inl)
      (fun _ _ => Inodes.path_of_remove) (le_refl _) ?_
    intro d b content
    by_cases same : d = name
    · subst same
      exact absurd ((Inodes.read_remove_self _ _).symm.trans content) (by simp)
    · exact (Inodes.read_remove_of_ne _ same).symm.trans content
  | forgotten settled unready =>
    exact whole.keep rfl (fun _ _ _ _ => writing_fillTask settled)
      (fun t d task uses => absurd uses (uses_fillTask settled unready task))
      (fun _ present => .inl (has_delete present)) (fun _ _ => id) (le_refl _) fun _ _ => id
  | truncated =>
    obtain ⟨unlisted, alone⟩ := undisturbed rfl
    exact whole.open unlisted alone
  | @partly i left =>
    have alone := whole.alone n call cid bytes i task
    refine whole.step rfl (fun _ _ _ _ => nofun) (fun _ _ => nofun) (fun _ => .inl) (fun _ _ => id)
      (le_refl _) ?_
    intro d b shown content
    -- The file is not one that may be read, so the one that is read is another.
    have differs : d ≠ cid ∧ Exposed w d := by
      rcases shown with listed | ⟨m, t, present, reads⟩
      · exact ⟨fun same => whole.unlisted n call cid bytes i task (same ▸ listed), .inl listed⟩
      · by_cases same : m = n
        · rw [same, CacheWorld.tasks_setTask_self] at present
          cases present
        · rw [CacheWorld.tasks_setTask_of_ne _ _ same] at present
          exact ⟨fun named => alone m t same present (named ▸ reads.uses), .inr ⟨m, t, present, reads⟩⟩
    have unread : w.files.disk.paths d ≠ some i := fun path =>
      differs.1 ((whole.named n call cid bytes i task).1 d path)
    have other := (Inodes.read_write w.files.disk i left d).trans (if_neg unread)
    exact whole.exposed d b differs.2 (other.symm.trans content)
  | @wrote i =>
    have named := whole.named n call cid bytes i task
    refine whole.step rfl (fun _ _ _ _ => nofun) ?_ (fun _ => .inl) (fun _ _ => id) (le_refl _) ?_
    · intro t d present uses
      cases present
      exact .inr ⟨_, task, uses⟩
    intro d b shown content
    replace content := (Inodes.read_write w.files.disk i bytes d).symm.trans content
    split at content
    · next path =>
      obtain rfl := named.1 d path
      cases content
      exact sound
    · next path =>
      refine whole.exposed d b ?_ content
      rcases shown with listed | ⟨m, t, present, reads⟩
      · exact .inl listed
      · by_cases same : m = n
        · -- The name of the file that was written can have no other file.
          rw [same, CacheWorld.tasks_setTask_self] at present
          cases present
          obtain rfl : cid = d := reads
          cases found : w.files.disk.paths cid with
          | none => simp [Inodes.read, found] at content
          | some j => exact absurd (named.2 j found ▸ found) path
        · rw [CacheWorld.tasks_setTask_of_ne _ _ same] at present
          exact .inr ⟨m, t, present, reads⟩
  | inserted =>
    refine whole.keep rfl (fun _ _ _ _ => nofun) (fun _ _ => nofun) ?_ (fun _ _ => id) (le_refl _)
      fun _ _ => id
    intro d present
    exact (has_insertOrIgnore present).imp id fun named => ⟨_, task, named⟩

section Steps

variable [ReadableStore I] {w w' : CacheWorld I} {label : CacheLabel} {got : Option Got}

theorem Backed.step (backed : Backed w) {n : Nat} {next : Option CacheTask}
    (tasks : w'.tasks = update w.tasks n next) (sound : ∀ t, next = some t → t.Sound)
    (block : ∀ t cid, next = some t → t.block = some cid → ImmediateStore.Has w'.inner cid)
    (grows : ∀ cid, ImmediateStore.Has w.inner cid → ImmediateStore.Has w'.inner cid)
    (rows : ∀ cid, w'.files.rows.Has cid → w.files.rows.Has cid ∨ ImmediateStore.Has w'.inner cid)
    (last : ∀ cid stored, w'.last cid = some stored →
      (ImmediateStore.Has w'.inner cid ↔ stored = true)) : Backed w' := by
  refine ⟨?_, ?_, fun cid present => (rows cid present).elim (fun old => grows cid (backed.rows cid old)) id,
    last⟩
  · intro m t task
    rw [tasks] at task
    by_cases same : m = n
    · rw [same, update_self] at task
      exact sound t task
    · rw [update_of_ne same] at task
      exact backed.sound m t task
  · intro m t cid task named
    rw [tasks] at task
    by_cases same : m = n
    · rw [same, update_self] at task
      exact block t cid task named
    · rw [update_of_ne same] at task
      exact grows cid (backed.tasks m t cid task named)

theorem Backed.retask (backed : Backed w) {n : Nat} {t : CacheTask} (sound : t.Sound)
    (block : ∀ cid, t.block = some cid → ImmediateStore.Has w.inner cid) :
    Backed (w.setTask n (some t)) := by
  refine backed.step rfl ?_ ?_ (fun _ => id) (fun _ => .inl) backed.last
  · rintro _ ⟨⟩
    exact sound
  · rintro _ cid ⟨⟩ named
    exact block cid named

theorem Backed.fill (backed : Backed w) {n : Nat} {call : Call} {cid : Cid} {bytes : Bytes}
    {phase : FillPhase} {next : Option FillPhase} {files : CacheFiles}
    (task : w.tasks n = some (.fill call cid bytes phase))
    (step : FillMoves cid bytes w.files phase next files) :
    Backed ({ w with files }.setTask n (fillTask call cid bytes next)) := by
  have present := backed.tasks n _ cid task rfl
  refine backed.step rfl ?_ ?_ (fun _ => id) ?_ backed.last
  · intro t kept
    obtain ⟨phase', -, rfl⟩ := map_eq_some_iff.mp kept
    have sound := backed.sound n _ task
    exact sound
  · intro t d kept named
    obtain ⟨phase', -, rfl⟩ := map_eq_some_iff.mp kept
    cases named
    exact present
  · intro d listed
    cases step with
    | forgotten => exact .inl (has_delete listed)
    | inserted =>
      rcases has_insertOrIgnore listed with old | named
      · exact .inl old
      · exact .inr (named ▸ present)
    | _ => exact .inl listed

theorem backed_of_moves (backed : Backed w) (whole : Whole w) (undisturbed : Undisturbed label w)
    (moves : CacheMoves w label got w') : Backed w' := by
  cases moves with
  | nothing => exact backed
  | notPut put =>
    have same := ImmediateStore.has_putRaw_failed _ _ _ _ put
    exact ⟨backed.sound, fun n t cid task named => (same cid).mpr (backed.tasks n t cid task named),
      fun cid listed => (same cid).mpr (backed.rows cid listed),
      fun cid stored known => (same cid).trans (backed.last cid stored known)⟩
  | @put n data cid inner _ put =>
    obtain rfl := IpfsStore.putRaw_returns _ _ _ _ put
    have grown := ImmediateStore.has_putRaw _ _ _ _ put
    refine backed.step rfl ?_ ?_ (fun c present => (grown c).mpr (.inl present)) (fun _ => .inl) ?_
    · rintro _ ⟨⟩
      rfl
    · rintro _ c ⟨⟩ ⟨⟩
      exact (grown _).mpr (.inr rfl)
    · intro c stored known
      simp only [CacheWorld.setTask, CacheWorld.mark] at known
      by_cases same : c = rawCid data
      · rw [same, update_self, some.injEq] at known
        simpa [← known, same] using (grown _).mpr (.inr rfl)
      · rw [update_of_ne same] at known
        refine Iff.trans ?_ (backed.last c stored known)
        simpa [same] using grown c
  | found _ present =>
    refine backed.retask trivial ?_
    rintro _ ⟨⟩
    exact backed.rows _ present
  | missed => exact backed.retask trivial (by simp [CacheTask.block])
  | unread => exact backed.retask trivial (by simp [CacheTask.block])
  | @read n cid version bytes task file =>
    refine backed.retask (whole.exposed cid bytes (.inr ⟨n, _, task, rfl⟩) file) ?_
    rintro _ ⟨⟩
    exact backed.tasks n _ _ task rfl
  | touched =>
    exact backed.step rfl (by simp) (by simp) (fun _ => id) (fun _ listed => .inl (has_touch listed))
      backed.last
  | @fetched n cid version bytes inner task get =>
    obtain ⟨sound, present⟩ := getRaw_some _ _ _ _ get
    have same : ∀ c, ImmediateStore.Has inner c ↔ ImmediateStore.Has w.inner c := by
      simpa [get] using has_getRaw cid w.inner
    refine backed.step rfl ?_ ?_ (fun c => (same c).mpr) (fun _ => .inl)
      fun c stored known => (same c).trans (backed.last c stored known)
    · rintro _ ⟨⟩
      exact sound
    · rintro _ c ⟨⟩ ⟨⟩
      exact (same _).mpr present
  | @notFetched n cid version result inner task get =>
    have same : ∀ c, ImmediateStore.Has inner c ↔ ImmediateStore.Has w.inner c := by
      simpa [get] using has_getRaw cid w.inner
    exact backed.step rfl (by simp) (by simp) (fun c => (same c).mpr) (fun _ => .inl)
      fun c stored known => (same c).trans (backed.last c stored known)
  | filling task step => exact backed.fill task step
  | filled task step => exact backed.fill task step
  | @deleted cid =>
    refine ⟨backed.sound, backed.tasks, backed.rows, fun c stored known => ?_⟩
    simp only [CacheWorld.mark] at known
    by_cases same : c = cid
    · rw [same, update_self, some.injEq] at known
      have gone : ¬ ImmediateStore.Has w.inner cid := undisturbed
      simpa [← known, same] using gone
    · rw [update_of_ne same] at known
      exact backed.last c stored known

theorem whole_of_moves (backed : Backed w) (whole : Whole w) (undisturbed : Undisturbed label w)
    (moves : CacheMoves w label got w') : Whole w' := by
  cases moves with
  | nothing => exact whole
  | notPut => exact ⟨whole.exposed, whole.unlisted, whole.alone, whole.inode, whole.named⟩
  | put =>
    refine whole.keep rfl (fun _ _ _ _ => by simp) ?_ (fun _ => .inl) (fun _ _ => id) (le_refl _)
      fun _ _ => id
    rintro _ _ ⟨⟩ ⟨⟩
  | found _ present =>
    -- A block with a row is one that nobody writes.
    refine whole.keep rfl (fun _ _ _ _ => by simp) ?_ (fun _ => .inl) (fun _ _ => id) (le_refl _)
      fun _ _ => id
    rintro _ _ ⟨⟩ ⟨⟩
    exact present
  | missed | unread | read | fetched =>
    refine whole.keep rfl (fun _ _ _ _ => by simp) ?_ (fun _ => .inl) (fun _ _ => id) (le_refl _)
      fun _ _ => id
    rintro _ _ ⟨⟩ ⟨⟩
  | touched =>
    exact whole.keep rfl (fun _ _ _ _ => by simp) (by simp) (fun _ listed => .inl (has_touch listed))
      (fun _ _ => id) (le_refl _) fun _ _ => id
  | notFetched =>
    exact whole.keep rfl (fun _ _ _ _ => by simp) (by simp) (fun _ => .inl) (fun _ _ => id)
      (le_refl _) fun _ _ => id
  | @filling n c call cid bytes phase _ _ task step =>
    exact whole.fill (backed.sound n _ task) task step fun opens =>
      undisturbed call cid bytes (opens ▸ task)
  | @filled n c call cid bytes phase _ _ task step =>
    exact whole.fill (backed.sound n _ task) task step fun opens =>
      undisturbed call cid bytes (opens ▸ task)
  | deleted => exact ⟨whole.exposed, whole.unlisted, whole.alone, whole.inode, whole.named⟩

theorem Backed.transparent (backed : Backed w) {cid : Cid} {bytes : Bytes} {version : Nat}
    (sound : rawCid bytes = cid) (present : ImmediateStore.Has w.inner cid) :
    Transparent ⟨cid, .ok (some bytes), w.since cid version⟩ := by
  refine ⟨?_, ?_, by simp⟩
  · rintro _ ⟨⟩
    exact sound
  · intro since
    simp only [CacheWorld.since] at since
    split at since
    · exact absurd ((backed.last cid false since).mp present) (by simp)
    · cases since

theorem transparent_of_moves {got : Got} (backed : Backed w) (moves : CacheMoves w label (some got) w') :
    Transparent got := by
  cases moves with
  | touched task => exact backed.transparent (backed.sound _ _ task) (backed.tasks _ _ _ task rfl)
  | @notFetched n cid version result inner task get absent =>
    refine ⟨fun b found => absurd found (absent b), fun _ => absent, ?_⟩
    rintro since rfl
    simp only [CacheWorld.since] at since
    split at since
    · exact getRaw_none _ _ _ get ((backed.last cid true since).mpr rfl)
    · cases since
  | filled task step returns =>
    obtain ⟨version, rfl⟩ := returns got rfl
    exact backed.transparent (backed.sound _ _ task) (backed.tasks _ _ _ task rfl)

end Steps

/-- Nothing is cached, and nothing is known of what was put or deleted. -/
def CacheWorld.start (inner : I) : CacheWorld I :=
  ⟨inner, ⟨Table.empty, Inodes.new []⟩, fun _ => none, fun _ => none, fun _ => 0⟩

theorem transparent_of_undisturbed [ReadableStore I] (config : CacheConfig) (inner : I)
    (labels : List CacheLabel)
    (undisturbed : AlongRun (cacheStep config) Undisturbed labels (CacheWorld.start inner)) :
    AlongRun (cacheStep config)
      (fun label w => ∀ got, (cacheStep config label w).1 = some got → Transparent got) labels
      (CacheWorld.start inner) := by
  have backed : Backed (CacheWorld.start inner) :=
    ⟨by simp [CacheWorld.start], by simp [CacheWorld.start],
      by simp [CacheWorld.start, CacheTable.Has, Table.empty], by simp [CacheWorld.start]⟩
  have whole : Whole (CacheWorld.start inner) :=
    ⟨by simp [CacheWorld.start, Inodes.new, Inodes.read], by simp [CacheWorld.start],
      by simp [CacheWorld.start], by simp [CacheWorld.start], by simp [CacheWorld.start]⟩
  generalize CacheWorld.start inner = w at undisturbed backed whole ⊢
  induction labels generalizing w with
  | nil => trivial
  | cons label labels ih =>
    have moves := cacheStep_moves config label w
    refine ⟨fun got returns => transparent_of_moves backed (returns ▸ moves), ?_⟩
    exact ih _ undisturbed.2 (backed_of_moves backed whole undisturbed.1 moves)
      (whole_of_moves backed whole undisturbed.1 moves)

namespace Sample

structure PlainStore where
  blocks : List Bytes

instance : ReadableStore PlainStore where
  putRaw data := Prog.ofExec fun s => (.ok (rawCid data), ⟨data :: s.blocks⟩)
  getRaw cid := Prog.reads fun s => s.blocks.find? fun b => decide (rawCid b = cid)
  delete cid := Prog.ofExec fun s => (.ok .immediate, ⟨s.blocks.filter fun b => decide (rawCid b ≠ cid)⟩)
  putRaw_returns _ _ _ _ run := (Except.ok.inj (congrArg Prod.fst run)).symm
  Has s cid := ∃ b ∈ s.blocks, rawCid b = cid
  has_putRaw data s cid s' run c := by
    obtain rfl := (congrArg Prod.snd run).symm
    simp [or_comm, eq_comm]
  has_putRaw_failed data s e s' run := by cases congrArg Prod.fst run
  delete_immediate _ _ := rfl
  has_delete cid s c := by
    simp only [Prog.exec_ofExec, List.mem_filter, decide_eq_true_eq]
    constructor
    · rintro ⟨b, ⟨present, kept⟩, rfl⟩
      exact ⟨⟨b, present, rfl⟩, kept⟩
    · rintro ⟨⟨b, present, rfl⟩, kept⟩
      exact ⟨b, ⟨present, kept⟩, rfl⟩
  getRaw_some cid s b s' run := by
    have found := Except.ok.inj (congrArg Prod.fst run)
    have named := List.find?_some found
    exact ⟨of_decide_eq_true named, b, List.mem_of_find?_eq_some found, of_decide_eq_true named⟩
  getRaw_none cid s s' run := by
    have absent := List.find?_eq_none.mp (Except.ok.inj (congrArg Prod.fst run))
    rintro ⟨b, present, named⟩
    exact absent b present (decide_eq_true named)
  has_getRaw _ _ _ := Iff.rfl

theorem put_plain (data : Bytes) (s : PlainStore) :
    (IpfsStore.putRaw data).exec s = (.ok (rawCid data), ⟨data :: s.blocks⟩) := rfl

def small : CacheConfig := ⟨100, 10⟩

def data : Bytes := [1, 2]

def calm : Circumstances := ⟨false, 0, []⟩

def putting : List CacheLabel :=
  [.put 0 data, .fill 0 calm, .fill 0 calm, .fill 0 calm, .fill 0 calm, .fill 0 calm]

def getting : List CacheLabel := [.get 1 (rawCid data) false, .read 1 false]

theorem undisturbed_get : AlongRun (cacheStep small) Undisturbed (putting ++ getting ++ [.touch 1 0])
    (CacheWorld.start (⟨[]⟩ : PlainStore)) := by
  simp [AlongRun, Undisturbed, putting, getting, cacheStep, CacheWorld.start, put_plain, CacheWorld.mark,
    CacheWorld.setTask, fillStep, calm, CacheTable.Has, Table.empty, small, totalBytes, data,
    Inodes.truncate, Inodes.new]
  -- What is left is the one step that opens the file: no other call is there.
  intro m t differs task
  rw [update_of_ne differs] at task
  cases task

theorem get_transparent : AlongRun (cacheStep small) Undisturbed (putting ++ getting ++ [.touch 1 0])
      (CacheWorld.start (⟨[]⟩ : PlainStore)) ∧ AlongRun (cacheStep small)
      (fun label w => ∀ got, (cacheStep small label w).1 = some got → Transparent got)
      (putting ++ getting ++ [.touch 1 0]) (CacheWorld.start (⟨[]⟩ : PlainStore)) :=
  ⟨undisturbed_get, transparent_of_undisturbed small _ _ undisturbed_get⟩

theorem deleted_returned : ¬ AlongRun (cacheStep small)
    (fun label w => ∀ got, (cacheStep small label w).1 = some got → Transparent got)
    (putting ++ .delete (rawCid data) :: getting ++ [.touch 1 0]) (CacheWorld.start (⟨[]⟩ : PlainStore)) := by
  rw [alongRun_append]
  rintro ⟨-, transparent, -⟩
  have returned : (cacheStep small (.touch 1 0) (runAll (cacheStep small)
      (putting ++ .delete (rawCid data) :: getting) (CacheWorld.start (⟨[]⟩ : PlainStore))).2).1 =
      some ⟨rawCid data, .ok (some data), some false⟩ := by
    simp [putting, getting, cacheStep, CacheWorld.start, put_plain, CacheWorld.mark, CacheWorld.setTask,
      fillStep, calm, CacheTable.Has, Table.empty, small, totalBytes, data, Inodes.truncate, Inodes.new,
      Inodes.read, Inodes.write, Table.rows_insertOrIgnore, CacheWorld.since]
  exact (transparent _ returned).deleted rfl data rfl

end Sample

end Stoa.BlockCache
