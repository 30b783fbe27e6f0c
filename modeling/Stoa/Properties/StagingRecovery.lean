import Stoa.Lib.Runs
import Stoa.Transit.Staging

/-! `recovers_of_mild`: every article that is staged, and every row of the table, is in the hands of
a worker or will be returned by the next calls of `drain_one`, unless a worker cannot read a file it
has claimed or a crash falls between the removal of a file and the deletion of its row. -/
namespace Stoa.Staging

open List StagingWorld Function

structure Within (config : StagingConfig) (rows : StagingTable) : Prop where
  entries : rows.rows.length ≤ config.maxEntries
  bytes : totalBytes rows.rows ≤ config.maxBytes

theorem totalBytes_append (rows : List StagingRow) (row : StagingRow) :
    totalBytes (rows ++ [row]) = totalBytes rows + row.byteSize := by
  induction rows with
  | nil => simp [totalBytes]
  | cons r rows ih =>
    simp only [totalBytes, cons_append, foldr_cons] at ih ⊢
    omega

theorem totalBytes_filter (p : StagingRow → Bool) (rows : List StagingRow) :
    totalBytes (rows.filter p) ≤ totalBytes rows := by
  induction rows with
  | nil => simp [totalBytes]
  | cons r rows ih =>
    rw [filter_cons]
    split
    · simp only [totalBytes, foldr_cons] at ih ⊢
      omega
    · simp only [totalBytes, foldr_cons] at ih ⊢
      omega

theorem totalBytes_map {f : StagingRow → StagingRow} (keeps : ∀ r, (f r).byteSize = r.byteSize)
    (rows : List StagingRow) : totalBytes (rows.map f) = totalBytes rows := by
  induction rows with
  | nil => rfl
  | cons r rows ih =>
    simp only [totalBytes, map_cons, foldr_cons, keeps] at ih ⊢
    omega

section

variable {config : StagingConfig}

theorem Within.update {rows : StagingTable} (within : Within config rows)
    {p : StagingRow → Bool} {f : StagingRow → StagingRow} {keeps : ∀ r, (f r).id = r.id}
    (sizes : ∀ r, (f r).byteSize = r.byteSize) : Within config (rows.update p f keeps) := by
  refine ⟨?_, ?_⟩
  · rw [Table.update, length_map]
    exact within.entries
  · rw [Table.update, totalBytes_map]
    · exact within.bytes
    · intro r
      split
      · exact sizes r
      · rfl

variable {w : StagingWorld} {label : StagingLabel}

variable {w' : StagingWorld} {event : Option StagingEvent}

theorem Within.moves (within : Within config w.store.rows)
    (moves : Moves config w label event w') : Within config w'.store.rows := by
  cases moves with
  | staged task inserted =>
    obtain ⟨rows, entries, bytes⟩ := of_insertRow inserted
    refine ⟨?_, ?_⟩
    · simpa [rows, Nat.succ_le_iff] using entries
    · simpa [rows, totalBytes_append] using bytes
  | claimed idle oldest =>
    simp only [setTask_store, setRows_rows, (of_claimOldest oldest).2.2]
    exact within.update fun _ => rfl
  | @deleted n fault id task =>
    cases fault with
    | true => exact within
    | false =>
      refine ⟨(length_filter_le _ _).trans within.entries, ?_⟩
      exact (totalBytes_filter _ _).trans within.bytes
  | released task present =>
    rw [setTask_store, setRows_rows, incrementRetryCount]
    exact within.update fun _ => rfl
  | restarted =>
    simp only [resetClaims]
    exact within.update fun _ => rfl
  -- The other steps leave the table alone.
  | nothing | wrote | unwritten | refused | discarded | unread | read | removed | gaveUp => exact within

/-- The article is not free to be claimed, and no call is about to stage it. -/
structure Taken (id : String) (w : StagingWorld) : Prop where
  used : id ∈ w.used
  claimed : ∀ row ∈ w.store.rows.rows, row.id = id → row.claimedAt ≠ none
  settled : ∀ n t, w.tasks n = some t → t.Pending → t.id ≠ id

def Frees (id : String) (event : Option StagingEvent) : Prop :=
  event = some (.released id) ∨ event = some .reset

variable {id : String}

theorem Taken.of_claimed (coherent : Coherent w) (moves : Moves config w label (some (.claimed id)) w') :
    Taken id w' := by
  have after := coherent.moves moves
  cases moves with
  | @claimed n now row rows idle oldest =>
    obtain ⟨mem, -, updated⟩ := of_claimOldest oldest
    have present : w.store.rows.Has row.id := ⟨row, mem, rfl⟩
    refine ⟨coherent.rows _ present, ?_, ?_⟩
    · intro row' mem' same
      simp only [setTask_store, setRows_rows, updated] at mem'
      obtain ⟨old, -, rfl⟩ := mem_map.mp mem'
      split at same
      · simp_all
      · simp_all
    · intro m t task pending same
      exact after.rowless m t task pending ((has_of_claimOldest oldest).mpr (by rwa [same]))

theorem Taken.moves (taken : Taken id w)
    (moves : Moves config w label event w') (unfreed : ¬ Frees id event) : Taken id w' := by
  have settled : ∀ m t, w'.tasks m = some t → t.Pending → t.id ≠ id := by
    rintro m t task pending rfl
    rcases pending_of_moves moves task pending with fresh | ⟨t₀, old, pending₀, same⟩
    · exact fresh taken.used
    · exact taken.settled m t₀ old pending₀ same
  cases moves with
  | nothing => exact taken
  | wrote => exact ⟨mem_cons_of_mem _ taken.used, taken.claimed, settled⟩
  | unwritten => exact ⟨mem_cons_of_mem _ taken.used, taken.claimed, settled⟩
  | @staged n now i messageId bytes rows task inserted =>
    refine ⟨taken.used, ?_, settled⟩
    intro row mem same
    simp only [setTask_store, setRows_rows, (of_insertRow inserted).1,
      mem_append, mem_singleton] at mem
    rcases mem with old | rfl
    · exact taken.claimed row old same
    · exact absurd same (taken.settled n _ task trivial)
  | @claimed n now row rows idle oldest =>
    refine ⟨taken.used, ?_, settled⟩
    intro row' mem same
    simp only [setTask_store, setRows_rows, (of_claimOldest oldest).2.2] at mem
    obtain ⟨old, oldMem, rfl⟩ := mem_map.mp mem
    split
    · simp
    · next other =>
      rw [if_neg other] at same
      exact taken.claimed old oldMem same
  | @deleted n fault i task =>
    refine ⟨taken.used, ?_, settled⟩
    cases fault with
    | true => exact taken.claimed
    | false => exact fun row mem same => taken.claimed row (mem_filter.mp mem).1 same
  | @released n i task present =>
    refine ⟨taken.used, ?_, settled⟩
    intro row mem same
    obtain ⟨old, oldMem, rfl⟩ := mem_map.mp mem
    have other : i ≠ id := by
      rintro rfl
      exact unfreed (.inl rfl)
    split
    · next here => simp_all
    · next here =>
      rw [if_neg here] at same
      exact taken.claimed old oldMem same
  | restarted => exact absurd (.inr rfl) unfreed
  | refused | discarded | unread | read | removed | gaveUp => exact ⟨taken.used, taken.claimed, settled⟩

theorem Taken.not_claimed (taken : Taken id w) : ¬ Moves config w label (some (.claimed id)) w' := by
  intro moves
  cases moves with
  | claimed idle oldest =>
    obtain ⟨mem, unclaimed, -⟩ := of_claimOldest oldest
    exact taken.claimed _ mem rfl unclaimed

/-- Between two claims of an article the claim was given up, or all were. -/
def Exclusive (events : List (Option StagingEvent)) : Prop :=
  ∀ (id : String) (before mid after : List (Option StagingEvent)),
    events = before ++ some (.claimed id) :: (mid ++ some (.claimed id) :: after) →
      some (.released id) ∈ mid ∨ some .reset ∈ mid

theorem exclusive_run (config : StagingConfig) (labels : List StagingLabel)
    (coherent : Coherent w) : Exclusive (runAll (stagingStep config) labels w).1 := by
  intro id before mid after split
  have moves := stagingStep_moves config
  have locks : ∀ label w, Coherent w → (stagingStep config label w).1 = some (.claimed id) →
      Taken id (stagingStep config label w).2 := by
    intro label w coherent claimed
    exact .of_claimed coherent (claimed ▸ moves label w)
  have excludes : ∀ label w, Coherent w → Taken id w →
      (stagingStep config label w).1 ≠ some (.claimed id) := by
    intro label w _ taken claimed
    exact taken.not_claimed (claimed ▸ moves label w)
  obtain ⟨event, mem, freed⟩ := @exists_frees_between _ _ _ (stagingStep config) _ _ Coherent (Taken id)
    (· = some (.claimed id)) (Frees id) (fun label w coherent => coherent.moves (moves label w)) locks
    (fun label w _ taken unfreed => taken.moves (moves label w) unfreed) excludes coherent _ _ _ _ _
    split rfl rfl
  rcases freed with rfl | rfl
  · exact .inl mem
  · exact .inr mem

/-- A call of `try_stage` that returns false or an error leaves neither file nor row. -/
def LeavesNothing (config : StagingConfig) (label : StagingLabel) (w : StagingWorld) : Prop :=
  ∀ id result, (stagingStep config label w).1 = some (.tryStage id result) → result ≠ .ok true →
    (stagingStep config label w).2.store.files id = none ∧
      ¬ (stagingStep config label w).2.store.rows.Has id

/-- A write that fails leaves no file, and the file of a refused article is removed. -/
def CleanFault (label : StagingLabel) (w : StagingWorld) : Prop :=
  match label with
  | .write n id _ _ (some left) => w.tasks n = none → id ∉ w.used → left = none
  | .discard n fault => ∀ id error, w.tasks n = some (.discarding id error) → fault = false
  | _ => True

theorem leavesNothing_of_moves
    (other : ∀ id error w', ¬ Moves config w label (some (.tryStage id (refusal error))) w') :
    LeavesNothing config label w := by
  intro id result event failed
  have moves := stagingStep_moves config label w
  rw [event] at moves
  cases result with
  | error e => exact absurd moves (other id (some e) _)
  | ok staged =>
    cases staged with
    | true => exact absurd rfl failed
    | false => exact absurd moves (other id none _)

theorem leavesNothing_write {n : Nat} {messageId : String} {bytes : Bytes}
    {failure : Option (Option Bytes)} (coherent : Coherent w) :
    LeavesNothing config (.write n id messageId bytes failure) w ↔
      CleanFault (.write n id messageId bytes failure) w := by
  cases failure with
  | none =>
    refine iff_of_true (leavesNothing_of_moves fun id error w' moves => ?_) trivial
    cases moves
  | some left =>
    by_cases free : w.tasks n = none ∧ id ∉ w.used
    · have rowless : ¬ w.store.rows.Has id := fun has => free.2 (coherent.rows id has)
      have step : stagingStep config (.write n id messageId bytes (some left)) w =
          (some (.tryStage id (.error .io)), { w with used := id :: w.used }.setFile id left) := by
        simp [stagingStep, free]
      -- The file is what the failed write has left.
      simp [LeavesNothing, step, CleanFault, free, rowless]
    · refine iff_of_true (leavesNothing_of_moves fun id' error w' moves => ?_) ?_
      · generalize refusal error = result at moves
        cases moves with
        | unwritten idle fresh => exact free ⟨idle, fresh⟩
      · intro idle fresh
        exact absurd ⟨idle, fresh⟩ free

theorem leavesNothing_discard {n : Nat} {fault : Bool} (coherent : Coherent w) :
    LeavesNothing config (.discard n fault) w ↔ CleanFault (.discard n fault) w := by
  by_cases discarding : ∃ id error, w.tasks n = some (.discarding id error)
  · obtain ⟨id, error, task⟩ := discarding
    have file := coherent.file n _ task trivial
    have rowless := coherent.rowless n _ task trivial
    have failed : refusal error ≠ .ok true := by cases error <;> simp [refusal]
    rw [StagingTask.id] at file rowless
    cases fault <;> simp [LeavesNothing, stagingStep, task, CleanFault, file, rowless, failed]
  · refine iff_of_true (leavesNothing_of_moves fun id error w' moves => ?_) ?_
    · generalize refusal error = result at moves
      cases moves with
      | discarded task => exact discarding ⟨_, _, task⟩
    · intro id error task
      exact absurd ⟨id, error, task⟩ discarding

theorem leavesNothing_iff (coherent : Coherent w) : LeavesNothing config label w ↔ CleanFault label w := by
  cases label with
  | write n id messageId bytes failure => exact leavesNothing_write coherent
  | discard n fault => exact leavesNothing_discard coherent
  | transact n now fault =>
    refine iff_of_true (leavesNothing_of_moves fun id error w' moves => ?_) trivial
    cases error <;> cases moves
  | claim | read | remove | delete | retry | restart =>
    refine iff_of_true (leavesNothing_of_moves fun id error w' moves => ?_) trivial
    cases moves

/-- The limits, the claims, and what refused articles leave, along a run. -/
structure Orderly (config : StagingConfig) (labels : List StagingLabel) (w : StagingWorld) : Prop where
  within : Throughout (stagingStep config) (fun w => Within config w.store.rows) labels w
  exclusive : Exclusive (runAll (stagingStep config) labels w).1
  leavesNothing : AlongRun (stagingStep config) (LeavesNothing config) labels w

theorem within_run (labels : List StagingLabel) (within : Within config w.store.rows) :
    Throughout (stagingStep config) (fun w => Within config w.store.rows) labels w := by
  induction labels generalizing w with
  | nil => exact within
  | cons label labels ih => exact ⟨within, ih (within.moves (stagingStep_moves config label w))⟩

theorem orderly_iff (config : StagingConfig) (labels : List StagingLabel) :
    Orderly config labels .start ↔ AlongRun (stagingStep config) CleanFault labels .start := by
  have clean := @alongRun_iff _ _ _ (stagingStep config) labels .start Coherent (LeavesNothing config) CleanFault
    (fun _ _ coherent => leavesNothing_iff coherent)
    (fun label w coherent _ => coherent.moves (stagingStep_moves config label w)) .start
  constructor
  · intro orderly
    exact clean.mp orderly.leavesNothing
  · intro faults
    exact ⟨within_run labels ⟨Nat.zero_le _, Nat.zero_le _⟩, exclusive_run config labels .start,
      clean.mpr faults⟩

end

namespace Sample

def config : StagingConfig := ⟨10, 1⟩

/-- The disk is full after the first byte. -/
theorem partial_file_left : ¬ Orderly config [.write 0 "1" "<1@a>" [65, 66] (some (some [65]))] .start := by
  intro orderly
  have left := orderly.leavesNothing.1 "1" (.error .io) rfl (by simp)
  exact absurd left.1 (by simp [stagingStep, StagingWorld.start])

end Sample

/-- As many calls of `drain_one` as there are unclaimed rows return the article. -/
def Returned (store : StagingStore) (id : String) (bytes : Bytes) : Prop :=
  ∀ times : List Nat, (store.rows.select isUnclaimed).length ≤ times.length →
    ∃ messageId, some ⟨id, messageId, bytes⟩ ∈ (runAll drainOne times store).1

def StagingTask.Works : StagingTask → Prop
  | .claimed _ _ | .holds _ | .removing _ => True
  | _ => False

def Held (w : StagingWorld) (id : String) : Prop :=
  ∃ n t, w.tasks n = some t ∧ t.id = id ∧ t.Works

structure Recovers (w : StagingWorld) : Prop where
  staged : ∀ id bytes, w.staged id = some bytes → id ∉ w.ended →
    Held w id ∨ Returned w.store id bytes
  rows : ∀ row ∈ w.store.rows.rows, Held w row.id ∨ ∃ bytes, Returned w.store row.id bytes

/-- No file that was claimed fails to be read, no statement of a worker that ends with an article
fails, and there is no crash between the removal of a file and the deletion of its row. -/
def Mild (label : StagingLabel) (w : StagingWorld) : Prop :=
  match label with
  | .read _ fault | .delete _ fault | .retry _ fault => fault = false
  | .restart _ => ∀ n id, w.tasks n ≠ some (.removing id)
  | _ => True

variable {rows : StagingTable}

theorem mem_unclaimed {row : StagingRow} :
    row ∈ rows.select isUnclaimed ↔ row ∈ rows.rows ∧ row.claimedAt = none := by
  simp [Table.select, isUnclaimed]

theorem length_unclaimed_lt {now : Nat} {row : StagingRow} {rows' : StagingTable}
    (oldest : claimOldest now rows = (some row, rows')) :
    (rows'.select isUnclaimed).length < (rows.select isUnclaimed).length := by
  obtain ⟨mem, unclaimed, updated⟩ := of_claimOldest oldest
  have left : (rows'.select isUnclaimed).length =
      ((rows.select isUnclaimed).filter fun r => !decide (r.id = row.id)).length := by
    rw [updated, Table.select, Table.update, filter_map, length_map, Table.select,
      filter_filter]
    congr 2
    funext r
    by_cases same : r.id = row.id
    · simp [same, isUnclaimed]
    · simp [same]
  rw [left]
  -- The row itself is among the unclaimed ones, and not among those that are left.
  have sub := filter_sublist (p := fun r => !decide (r.id = row.id)) (l := rows.select isUnclaimed)
  refine lt_of_le_of_ne sub.length_le fun same => ?_
  have there : row ∈ rows.select isUnclaimed := mem_unclaimed.mpr ⟨mem, unclaimed⟩
  rw [← sub.eq_of_length same] at there
  simp at there

theorem exists_claimOldest {row : StagingRow} (mem : row ∈ rows.rows)
    (unclaimed : row.claimedAt = none) (now : Nat) :
    ∃ first rows', claimOldest now rows = (some first, rows') := by
  rw [claimOldest]
  split
  · next none =>
    rw [argmin_eq_none] at none
    have there : row ∈ rows.select isUnclaimed := mem_unclaimed.mpr ⟨mem, unclaimed⟩
    simp [none] at there
  · exact ⟨_, _, rfl⟩

theorem eq_of_id {r r' : StagingRow} (mem : r ∈ rows.rows) (mem' : r' ∈ rows.rows)
    (same : r.id = r'.id) : r = r' := by
  exact inj_on_of_nodup_map rows.unique mem mem' same

theorem returned_of_unclaimed {store : StagingStore} {row : StagingRow} {bytes : Bytes}
    (mem : row ∈ store.rows.rows) (unclaimed : row.claimedAt = none)
    (file : store.files row.id = some bytes) : Returned store row.id bytes := by
  intro times enough
  induction times generalizing store with
  | nil =>
    have there : row ∈ store.rows.select isUnclaimed := mem_unclaimed.mpr ⟨mem, unclaimed⟩
    rw [length_nil, Nat.le_zero, length_eq_zero_iff] at enough
    rw [enough] at there
    cases there
  | cons now times ih =>
    obtain ⟨first, rows', oldest⟩ := exists_claimOldest mem unclaimed now
    obtain ⟨firstMem, -, updated⟩ := of_claimOldest oldest
    have fewer := length_unclaimed_lt oldest
    have drained : drainOne now store = ((store.files first.id).map fun bytes =>
        ⟨first.id, first.messageId, bytes⟩, { store with rows := rows' }) := by
      rw [drainOne, oldest]
    rw [runAll_cons, drained]
    by_cases turn : first.id = row.id
    · obtain rfl := eq_of_id firstMem mem turn
      exact ⟨first.messageId, by simp [file]⟩
    · -- Another row comes first; this one stays as it is.
      have stays : row ∈ rows'.rows := by
        rw [updated]
        exact mem_map.mpr ⟨row, mem, by simp [Ne.symm turn]⟩
      rw [length_cons] at enough
      have left : (rows'.select isUnclaimed).length ≤ times.length := by omega
      obtain ⟨messageId, later⟩ := @ih ⟨rows', store.files⟩ stays file left
      exact ⟨messageId, mem_cons_of_mem _ later⟩

def Removing (w : StagingWorld) (id : String) : Prop := ∃ n, w.tasks n = some (.removing id)

def Claiming (w : StagingWorld) (id : String) : Prop :=
  ∃ n, (∃ messageId, w.tasks n = some (.claimed id messageId)) ∨ w.tasks n = some (.holds id)

/-- A row is about to be deleted, or it has its file and is free or in the hands of a worker. -/
structure SafeAt (w : StagingWorld) (id : String) : Prop where
  row : ∀ row ∈ w.store.rows.rows, row.id = id →
    Removing w id ∨ w.store.files id ≠ none ∧ (row.claimedAt = none ∨ Claiming w id)
  staged : ∀ bytes, w.staged id = some bytes → id ∉ w.ended →
    w.store.rows.Has id ∧ w.store.files id = some bytes
  ended : Removing w id → id ∈ w.ended

structure Same (w w' : StagingWorld) (id : String) : Prop where
  rows : ∀ row, row.id = id → (row ∈ w'.store.rows.rows ↔ row ∈ w.store.rows.rows)
  file : w'.store.files id = w.store.files id
  tasks : ∀ n t, t.id = id → (w'.tasks n = some t ↔ w.tasks n = some t)
  staged : w'.staged id = w.staged id
  ended : id ∈ w'.ended ↔ id ∈ w.ended

variable {w : StagingWorld}

theorem SafeAt.same {w' : StagingWorld} {id : String} (safe : SafeAt w id) (same : Same w w' id) :
    SafeAt w' id := by
  have removing : Removing w' id ↔ Removing w id := exists_congr fun n => same.tasks n _ rfl
  have claiming : Claiming w' id ↔ Claiming w id := exists_congr fun n =>
    or_congr (exists_congr fun messageId => same.tasks n _ rfl) (same.tasks n _ rfl)
  have has : w'.store.rows.Has id ↔ w.store.rows.Has id :=
    exists_congr fun row => and_congr_left fun here => same.rows row here
  refine ⟨?_, ?_, ?_⟩
  · intro row mem here
    rw [removing, claiming, same.file]
    exact safe.row row ((same.rows row here).mp mem) here
  · intro bytes staged live
    rw [has, same.file]
    exact safe.staged bytes (same.staged ▸ staged) (mt same.ended.mpr live)
  · rw [removing, same.ended]
    exact safe.ended

theorem same_tasks {tasks : Nat → Option StagingTask} {n : Nat} {i j : String}
    {next : Option StagingTask} (own : ∀ t, tasks n = some t → t.id = i)
    (new : ∀ t, next = some t → t.id = i) (other : j ≠ i) (m : Nat) (t : StagingTask) (here : t.id = j) :
    update tasks n next m = some t ↔ tasks m = some t := by
  by_cases same : m = n
  · subst same
    rw [update_self]
    exact ⟨fun h => absurd (here.symm.trans (new t h)) other,
      fun h => absurd (here.symm.trans (own t h)) other⟩
  · rw [update_of_ne same]

theorem mem_update_of_id {i j : String} {f : StagingRow → StagingRow}
    {keeps : ∀ r, (f r).id = r.id} (other : j ≠ i) (row : StagingRow) (here : row.id = j) :
    row ∈ (rows.update (fun r => decide (r.id = i)) f keeps).rows ↔ row ∈ rows.rows := by
  subst here
  constructor
  · intro mem
    obtain ⟨old, oldMem, rfl⟩ := mem_map.mp mem
    by_cases same : old.id = i
    · simp [same, keeps] at other
    · simpa [same] using oldMem
  · intro mem
    exact mem_map.mpr ⟨row, mem, by simp [other]⟩

theorem removing_update {w' : StagingWorld} {n : Nat} {i : String} {next : Option StagingTask}
    (tasks : w'.tasks = update w.tasks n next) (old : w.tasks n ≠ some (.removing i))
    (new : next ≠ some (.removing i)) : Removing w' i ↔ Removing w i := by
  refine exists_congr fun m => ?_
  rw [tasks]
  by_cases same : m = n
  · subst same
    rw [update_self]
    exact iff_of_false new old
  · rw [update_of_ne same]

theorem SafeAt.of_row {i : String} (row : ∀ row ∈ w.store.rows.rows, row.id = i →
      w.store.files i ≠ none ∧ (row.claimedAt = none ∨ Claiming w i))
    (staged : ∀ bytes, w.staged i = some bytes → i ∉ w.ended →
      w.store.rows.Has i ∧ w.store.files i = some bytes) (removing : ¬ Removing w i) : SafeAt w i :=
  ⟨fun r mem here => .inr (row r mem here), staged, fun h => absurd h removing⟩

theorem SafeAt.rowless {i : String} (rowless : ¬ w.store.rows.Has i)
    (unstaged : ∀ bytes, w.staged i = some bytes → i ∈ w.ended) (removing : Removing w i → i ∈ w.ended) :
    SafeAt w i :=
  ⟨fun row mem here => absurd ⟨row, mem, here⟩ rowless,
    fun bytes staged live => absurd (unstaged bytes staged) live, removing⟩

theorem SafeAt.unstaged {i : String} (safe : SafeAt w i)
    (rowless : ¬ w.store.rows.Has i) (bytes : Bytes) (staged : w.staged i = some bytes) : i ∈ w.ended := by
  by_contra live
  exact rowless (safe.staged bytes staged live).1

section Steps

variable {config : StagingConfig} {w : StagingWorld} {n : Nat} {i : String}

theorem safe_staged {now : Nat} {messageId : String} {bytes : Bytes} {rows : StagingTable}
    (coherent : Coherent w) (safe : ∀ id, SafeAt w id) (task : w.tasks n = some (.wrote i messageId bytes))
    (inserted : insertRow config ⟨i, messageId, now, bytes.length, none, 0⟩ w.store.rows =
      (.ok true, rows)) (j : String) : SafeAt { (w.setRows rows).setTask n none with
        staged := update w.staged i (some bytes) } j := by
  have added := (of_insertRow inserted).1
  have rowless : ¬ w.store.rows.Has i := coherent.rowless n _ task trivial
  have file := coherent.wrote n i messageId bytes task
  by_cases other : j = i
  · subst other
    refine .of_row ?_ ?_ ?_
    · intro row mem here
      simp only [setTask_store, setRows_rows, added, mem_append,
        mem_singleton] at mem
      rcases mem with old | rfl
      · exact absurd ⟨row, old, here⟩ rowless
      · exact ⟨by simp [file], .inl rfl⟩
    · intro bytes' staged _
      simp only [update_self, Option.some.injEq] at staged
      subst staged
      exact ⟨(has_of_insertRow inserted).mpr (.inr rfl), file⟩
    · rintro ⟨m, removing⟩
      rcases task_of_update removing with ⟨-, new⟩ | ⟨different, old⟩
      · cases new
      · exact different (coherent.alone n _ task trivial m _ old rfl)
  · refine (safe j).same ⟨?_, rfl, ?_, update_of_ne other .., Iff.rfl⟩
    · rintro row rfl
      simp only [setTask_store, setRows_rows, added, mem_append,
        mem_singleton, or_iff_left_iff_imp]
      rintro rfl
      exact absurd rfl other
    · exact same_tasks (by simp [task, StagingTask.id]) (by simp) other

theorem safe_claimed {now : Nat} {row : StagingRow} {rows : StagingTable} (safe : ∀ id, SafeAt w id)
    (idle : w.tasks n = none) (oldest : claimOldest now w.store.rows = (some row, rows)) (j : String) :
    SafeAt ((w.setRows rows).setTask n (some (.claimed row.id row.messageId))) j := by
  obtain ⟨mem, -, updated⟩ := of_claimOldest oldest
  by_cases other : j = row.id
  · subst other
    have removing := @removing_update w ((w.setRows rows).setTask n (some (.claimed row.id row.messageId)))
      n row.id _ rfl (by simp [idle]) (by simp)
    refine ⟨?_, ?_, ?_⟩
    · intro row' _ _
      rw [removing]
      refine ((safe row.id).row row mem rfl).imp_right fun free => ⟨free.1, .inr ⟨n, .inl ⟨row.messageId, ?_⟩⟩⟩
      exact update_self ..
    · intro bytes staged live
      obtain ⟨has, file⟩ := (safe row.id).staged bytes staged live
      exact ⟨(has_of_claimOldest oldest).mpr has, file⟩
    · rw [removing]
      exact (safe row.id).ended
  · refine (safe j).same ⟨?_, rfl, ?_, rfl, Iff.rfl⟩
    · intro row' here
      simp only [setTask_store, setRows_rows, updated]
      exact mem_update_of_id other row' here
    · exact same_tasks (by simp [idle]) (by simp [StagingTask.id]) other

/-- A step that changes no more than the state of a worker, which still has the article, or the article
has no row or no file. -/
theorem safe_task {t : StagingTask} {next : Option StagingTask} (safe : ∀ id, SafeAt w id)
    (task : w.tasks n = some t) (new : ∀ t', next = some t' → t'.id = t.id)
    (old_removing : t ≠ .removing t.id) (new_removing : next ≠ some (.removing t.id))
    (claiming : w.store.rows.Has t.id → w.store.files t.id ≠ none → Claiming (w.setTask n next) t.id)
    (j : String) : SafeAt (w.setTask n next) j := by
  by_cases other : j = t.id
  · subst other
    have removing := @removing_update w (w.setTask n next) n t.id _ rfl (by simpa [task] using old_removing)
      new_removing
    refine ⟨?_, (safe t.id).staged, ?_⟩
    · intro row mem here
      rw [removing]
      exact ((safe t.id).row row mem here).imp_right fun free =>
        ⟨free.1, .inr (claiming ⟨row, mem, here⟩ free.1)⟩
    · rw [removing]
      exact (safe t.id).ended
  · refine (safe j).same ⟨fun _ _ => Iff.rfl, rfl, ?_, rfl, Iff.rfl⟩
    exact same_tasks (by simp [task]) new other

theorem safe_removed {t : StagingTask} {file : Option Bytes} (safe : ∀ id, SafeAt w id)
    (task : w.tasks n = some t) (j : String) :
    SafeAt { (w.setFile t.id file).setTask n (some (.removing t.id)) with ended := t.id :: w.ended } j := by
  by_cases other : j = t.id
  · subst other
    exact ⟨fun _ _ _ => .inl ⟨n, update_self ..⟩,
      fun _ _ live => absurd mem_cons_self live, fun _ => mem_cons_self⟩
  · refine (safe j).same ⟨fun _ _ => Iff.rfl, update_of_ne other .., ?_, rfl, ?_⟩
    · exact same_tasks (by simp [task]) (by simp [StagingTask.id]) other
    · simp [other]

theorem safe_deleted (safe : ∀ id, SafeAt w id) (task : w.tasks n = some (.removing i)) (j : String) :
    SafeAt ((w.setRows (deleteRow i w.store.rows)).setTask n none) j := by
  by_cases other : j = i
  · subst other
    have ended : j ∈ w.ended := (safe j).ended ⟨n, task⟩
    exact .rowless (by simp) (fun _ _ => ended) fun _ => ended
  · refine (safe j).same ⟨?_, rfl, ?_, rfl, Iff.rfl⟩
    · rintro row rfl
      simp [deleteRow, Table.delete, other]
    · exact same_tasks (by simp [task, StagingTask.id]) (by simp) other

theorem safe_released {t : StagingTask} (safe : ∀ id, SafeAt w id) (task : w.tasks n = some t)
    (old_removing : t ≠ .removing t.id) (j : String) :
    SafeAt ((w.setRows (incrementRetryCount t.id w.store.rows)).setTask n (some (.stale t.id))) j := by
  by_cases other : j = t.id
  · subst other
    have removing := @removing_update w
      ((w.setRows (incrementRetryCount t.id w.store.rows)).setTask n (some (.stale t.id))) n t.id _ rfl
      (by simpa [task] using old_removing) (by simp)
    refine ⟨?_, ?_, ?_⟩
    · intro row mem here
      obtain ⟨old, oldMem, rfl⟩ := mem_map.mp mem
      by_cases same : old.id = t.id
      · rw [removing]
        refine ((safe t.id).row old oldMem same).imp_right fun free => ⟨free.1, .inl ?_⟩
        simp [same]
      · simp [same] at here
    · intro bytes staged live
      obtain ⟨has, file⟩ := (safe t.id).staged bytes staged live
      exact ⟨has_incrementRetryCount.mpr has, file⟩
    · rw [removing]
      exact (safe t.id).ended
  · refine (safe j).same ⟨fun row here => ?_, rfl, ?_, rfl, Iff.rfl⟩
    · simp only [setTask_store, setRows_rows, incrementRetryCount]
      exact mem_update_of_id other row here
    · exact same_tasks (by simp [task]) (by simp [StagingTask.id]) other

theorem safe_restarted {stays : List String} (safe : ∀ id, SafeAt w id)
    (unbroken : ∀ n id, w.tasks n ≠ some (.removing id)) (j : String) :
    SafeAt { w with
      store := ⟨resetClaims w.store.rows,
        cleanupOrphanedFiles (resetClaims w.store.rows) stays w.store.files⟩
      tasks := fun _ => none } j := by
  have kept (has : w.store.rows.Has j) :
      cleanupOrphanedFiles (resetClaims w.store.rows) stays w.store.files j = w.store.files j := by
    have known := (any_id_iff (resetClaims w.store.rows) j).mpr (has_resetClaims.mpr has)
    rw [cleanupOrphanedFiles, known, Bool.true_or, if_pos rfl]
  refine .of_row ?_ ?_ ?_
  · intro row mem here
    obtain ⟨old, oldMem, rfl⟩ := mem_map.mp mem
    have has : w.store.rows.Has j := ⟨old, oldMem, here⟩
    rcases (safe j).row old oldMem here with ⟨m, removing⟩ | free
    · exact absurd removing (unbroken m j)
    · exact ⟨fun missing => free.1 ((kept has).symm.trans missing), .inl rfl⟩
  · intro bytes staged live
    obtain ⟨has, file⟩ := (safe j).staged bytes staged live
    exact ⟨has_resetClaims.mpr has, (kept has).trans file⟩
  · rintro ⟨m, removing⟩
    cases removing

end Steps

theorem safe_moves {config : StagingConfig} {w' : StagingWorld} {label : StagingLabel}
    {event : Option StagingEvent} (coherent : Coherent w) (safe : ∀ id, SafeAt w id)
    (mild : Mild label w) (moves : Moves config w label event w') (j : String) : SafeAt w' j := by
  cases moves with
  | nothing => exact safe j
  | @wrote n i messageId bytes idle fresh =>
    by_cases other : j = i
    · subst other
      have rowless : ¬ w.store.rows.Has j := fun has => fresh (coherent.rows j has)
      refine .rowless rowless ((safe j).unstaged rowless) ?_
      rw [removing_update rfl (by simp [idle]) (by simp)]
      exact (safe j).ended
    · refine (safe j).same ⟨fun _ _ => Iff.rfl, update_of_ne other .., ?_, rfl, Iff.rfl⟩
      exact same_tasks (by simp [idle]) (by simp [StagingTask.id]) other
  | @unwritten n i messageId bytes left idle fresh =>
    by_cases other : j = i
    · subst other
      have rowless : ¬ w.store.rows.Has j := fun has => fresh (coherent.rows j has)
      exact .rowless rowless ((safe j).unstaged rowless) (safe j).ended
    · exact (safe j).same ⟨fun _ _ => Iff.rfl, update_of_ne other .., fun _ _ _ => Iff.rfl, rfl,
        Iff.rfl⟩
  | staged task inserted => exact safe_staged coherent safe task inserted j
  | @refused n now fault i messageId bytes error task =>
    by_cases other : j = i
    · subst other
      have rowless : ¬ w.store.rows.Has j := coherent.rowless n _ task trivial
      refine .rowless rowless ((safe j).unstaged rowless) ?_
      rw [removing_update rfl (by simp [task]) (by simp)]
      exact (safe j).ended
    · refine (safe j).same ⟨fun _ _ => Iff.rfl, rfl, ?_, rfl, Iff.rfl⟩
      exact same_tasks (by simp [task, StagingTask.id]) (by simp [StagingTask.id]) other
  | @discarded n fault i error task =>
    by_cases other : j = i
    · subst other
      have rowless : ¬ w.store.rows.Has j := coherent.rowless n _ task trivial
      refine .rowless rowless ((safe j).unstaged rowless) ?_
      rw [removing_update rfl (by simp [task]) (by simp)]
      exact (safe j).ended
    · refine (safe j).same ⟨fun _ _ => Iff.rfl, update_of_ne other .., ?_, rfl, Iff.rfl⟩
      exact same_tasks (by simp [task, StagingTask.id]) (by simp) other
  | claimed idle oldest => exact safe_claimed safe idle oldest j
  | unread task failed =>
    -- Without a fault the file is missing, so somebody is about to delete the row.
    have missing := failed.resolve_left (by simp [show _ = false from mild])
    exact safe_task safe task (by simp) (by simp) (by simp) (fun _ present => absurd missing present) j
  | @read n i messageId bytes task file =>
    refine safe_task safe task (by simp [StagingTask.id]) (by simp) (by simp) (fun _ _ => ?_) j
    exact ⟨n, .inr (update_self ..)⟩
  | removed task =>
    rcases task with task | task
    · exact safe_removed safe task j
    · exact safe_removed safe task j
  | @deleted n fault i task =>
    obtain rfl : fault = false := mild
    exact safe_deleted safe task j
  | gaveUp task failed =>
    have rowless := failed.resolve_left (by simp [show _ = false from mild])
    rcases task with task | task
    · exact safe_task safe task (by simp) (by simp) (by simp) (fun has _ => absurd has rowless) j
    · exact safe_task safe task (by simp) (by simp) (by simp) (fun has _ => absurd has rowless) j
  | released task present =>
    rcases task with task | task
    · exact safe_released safe task (by simp) j
    · exact safe_released safe task (by simp) j
  | restarted => exact safe_restarted safe mild j

theorem held_or_returned {row : StagingRow} (safe : SafeAt w row.id) (mem : row ∈ w.store.rows.rows) :
    Held w row.id ∨ ∀ bytes, w.store.files row.id = some bytes → Returned w.store row.id bytes := by
  rcases safe.row row mem rfl with ⟨n, removing⟩ | ⟨-, unclaimed | ⟨n, ⟨messageId, claimed⟩ | holds⟩⟩
  · exact .inl ⟨n, _, removing, rfl, trivial⟩
  · exact .inr fun bytes file => returned_of_unclaimed mem unclaimed file
  · exact .inl ⟨n, _, claimed, rfl, trivial⟩
  · exact .inl ⟨n, _, holds, rfl, trivial⟩

theorem recovers_of_safe (safe : ∀ id, SafeAt w id) : Recovers w := by
  constructor
  · intro id bytes staged live
    obtain ⟨⟨row, mem, rfl⟩, file⟩ := (safe id).staged bytes staged live
    exact (held_or_returned (safe row.id) mem).imp_right fun returned => returned bytes file
  · intro row mem
    rcases held_or_returned (safe row.id) mem with held | returned
    · exact .inl held
    · rcases (safe row.id).row row mem rfl with ⟨n, removing⟩ | ⟨present, -⟩
      · exact .inl ⟨n, _, removing, rfl, trivial⟩
      · obtain ⟨bytes, file⟩ := Option.ne_none_iff_exists'.mp present
        exact .inr ⟨bytes, returned bytes file⟩

theorem recovers_of_mild {config : StagingConfig} {labels : List StagingLabel}
    (mild : AlongRun (stagingStep config) Mild labels .start) :
    Throughout (stagingStep config) Recovers labels .start := by
  have coherent : Coherent .start := .start
  have safe : ∀ id, SafeAt .start id := by
    intro id
    refine .of_row ?_ ?_ ?_
    · simp [start, StagingStore.new, Table.empty]
    · simp [start]
    · simp [Removing, start]
  generalize start = w at mild coherent safe
  induction labels generalizing w with
  | nil => exact recovers_of_safe safe
  | cons label labels ih =>
    have moves := stagingStep_moves config label w
    exact ⟨recovers_of_safe safe, ih _ mild.2 (coherent.moves moves)
      (safe_moves coherent safe mild.1 moves)⟩

namespace Sample

def stagedAndClaimed : List StagingLabel :=
  [.write 0 "1" "<1@a>" [65] none, .transact 0 7 false, .claim 1 8 false]

theorem failed_read_strands :
    ¬ Throughout (stagingStep ⟨10, 1⟩) Recovers (stagedAndClaimed ++ [.read 1 true]) .start := by
  intro recovers
  have last := recovers.last
  rcases last.staged "1" [65] rfl (by decide) with ⟨n, t, task, -, works⟩ | returned
  · -- Both calls are over: that of the session, and that of the worker.
    have finished := @task_of_update 1 t none (update (update (update
      (fun _ => none) 0 (some (.wrote "1" "<1@a>" [65]))) 0 none) 1 (some (.claimed "1" "<1@a>"))) n task
    obtain ⟨other, same, -⟩ : n ≠ 1 ∧ n = 1 ∧ StagingTask.claimed "1" "<1@a>" = t := by
      simpa [update_apply] using finished
    exact other same
  · obtain ⟨messageId, mem⟩ := returned [] (by decide)
    cases mem

theorem read_recovers : AlongRun (stagingStep ⟨10, 1⟩) Mild (stagedAndClaimed ++ [.read 1 false]) .start ∧
      Throughout (stagingStep ⟨10, 1⟩) Recovers (stagedAndClaimed ++ [.read 1 false]) .start := by
  have mild : AlongRun (stagingStep ⟨10, 1⟩) Mild (stagedAndClaimed ++ [.read 1 false]) .start :=
    ⟨trivial, trivial, trivial, rfl, trivial⟩
  exact ⟨mild, recovers_of_mild mild⟩

end Sample

end Stoa.Staging
