import Stoa.Transit.Ingestion
import Stoa.Transit.Pipeline

/-!
Nothing should refer to a CID that has been collected, so that its article can come in
again, and what the operator has pinned should not be collected.

- `clean_iff`: the tables and policies for which both collectors are clean.
-/
namespace Stoa.Retention

structure ArticleMeta where
  /-- The newsgroups, separated by commas. -/
  group : String
  sizeBytes : Nat
  ageDays : UInt64

inductive PinAction
  | pin
  | skip
  deriving DecidableEq

structure PinRule where
  groups : String
  maxAgeDays : Option UInt64
  maxArticleBytes : Option Nat
  action : PinAction

structure PinPolicy where
  rules : List PinRule

def matchesGroupGlob (pattern group : String) : Bool :=
  if pattern = "all" then true
  else match Text.stripEnd ".**" pattern with
    | some start => (Text.stripStart (start ++ ".") group).isSome
    | none => match Text.stripEnd ".*" pattern with
      | some start => (Text.stripStart (start ++ ".") group).isSome
      | none => pattern = group

def matchesRule (rule : PinRule) (article : ArticleMeta) : Bool :=
  matchesGroupGlob rule.groups article.group &&
    rule.maxAgeDays.all (fun limit => article.ageDays ≤ limit) &&
    rule.maxArticleBytes.all fun limit => article.sizeBytes ≤ limit

/-- Each newsgroup is decided by the first rule that matches; one that says `pin` is enough. -/
def PinPolicy.shouldPin (policy : PinPolicy) (article : ArticleMeta) : Bool :=
  let groups := (article.group.toList.splitOn ',').map fun name => Text.trim (String.ofList name)
  (groups.filter (· ≠ "")).any fun group =>
    match policy.rules.find? fun rule => matchesRule rule { article with group } with
    | some rule => rule.action = .pin
    | none => false

structure PinnedRow where
  cid : String
  pinnedAtMs : Int

structure GcAuditRecord where
  cid : String
  groupName : String
  ingestedAtMs : UInt64
  gcAtMs : UInt64
  reason : String

structure TransitTables where
  articles : Table ArticleRow ArticleRow.cid
  pinned : Table PinnedRow PinnedRow.cid
  audit : List GcAuditRecord

inductive PinError
  | unreachable (message : String)
  | failed (message : String)

def PinError.toString : PinError → String
  | .unreachable m => "IPFS node unreachable: " ++ m
  | .failed m => "pin operation failed: " ++ m

/-- A client of the IPFS node with state `P`. -/
class PinClient (P : Type) where
  unpin : Cid → Prog P PinError Unit

structure Stores (P : Type) where
  client : P
  transit : AnyPool TransitTables
  core : MsgIdMap
  /-- The CIDs that have been unpinned so far. -/
  collected : List Cid

namespace Stores

variable {P ε α : Type}

def onTransit (f : TransitTables → α × TransitTables) : Prog (Stores P) StorageError α :=
  ((AnyPool.transaction f).mapError StorageError.database).zoom transit fun transit s =>
    { s with transit }

def onCore (x : Prog MsgIdMap ε α) : Prog (Stores P) ε α := x.zoom core fun core s => { s with core }

def unpin [PinClient P] (cid : Cid) : Prog (Stores P) PinError Unit := Prog.ofExec fun s =>
  match (PinClient.unpin cid).exec s.client with
  | (.ok (), client) => (.ok (), { s with client, collected := s.collected ++ [cid] })
  | (.error e, client) => (.error e, { s with client })

def deleteArticle (cid : String) : Prog (Stores P) StorageError Unit :=
  onTransit fun t => ((), { t with articles := t.articles.delete fun r => decide (r.cid = cid) })

def deletePin (cid : String) : Prog (Stores P) StorageError Unit :=
  onTransit fun t => ((), { t with pinned := t.pinned.delete fun r => decide (r.cid = cid) })

def ensurePinnedCidsTable : Prog (Stores P) StorageError Unit := onTransit fun t => ((), t)

end Stores

open Stores

variable {P : Type} (parse : String → Except String Cid)

def cmdPin (cid : String) (nowMs : Int) : Prog (Stores P) StorageError String :=
  match parse cid with
  | .error e => throw (.database ("invalid CID '" ++ cid ++ "': " ++ e))
  | .ok _ => do
    ensurePinnedCidsTable
    onTransit fun t => ((), { t with pinned := t.pinned.insertOrIgnore ⟨cid, nowMs⟩ })
    return "pinned: " ++ cid ++ "\n"

def cmdUnpin (cid : String) : Prog (Stores P) StorageError String := do
  ensurePinnedCidsTable
  let affected ← onTransit fun t =>
    ((t.pinned.select fun r => decide (r.cid = cid)).length,
      { t with pinned := t.pinned.delete fun r => decide (r.cid = cid) })
  if affected = 0 then return "not pinned: " ++ cid ++ "\n"
  else return "unpinned: " ++ cid ++ "\n"

structure GcArticleRecord where
  cid : Cid
  group : String
  ingestedAtMs : UInt64
  byteCount : Nat

def asI64 (n : UInt64) : Int := n.toInt64.toInt

def asU64 (n : Int) : UInt64 := UInt64.ofInt n

def saturatingSub (a b : UInt64) : UInt64 := if a ≤ b then 0 else a - b

def msPerDay : UInt64 := 24 * 60 * 60 * 1000

def articleMeta (nowMs : UInt64) (row : ArticleRow) : ArticleMeta :=
  ⟨if row.groupName = "" then "unknown" else row.groupName, row.byteCount,
    saturatingSub nowMs (asU64 row.ingestedAtMs) / msPerDay⟩

def unpinnedRows (nowMs gracePeriodMs : UInt64) (t : TransitTables) : List ArticleRow :=
  t.articles.select fun row => decide (row.ingestedAtMs < asI64 (saturatingSub nowMs gracePeriodMs)) &&
    !t.pinned.rows.any fun pin => decide (pin.cid = row.cid)

def evaluateRows (policy : PinPolicy) (nowMs : UInt64) :
    List ArticleRow → Except StorageError (List GcArticleRecord)
  | [] => .ok []
  | row :: rows =>
    match parse row.cid with
    | .error e => .error (.database ("invalid CID in database: " ++ e))
    | .ok cid =>
      let article := articleMeta nowMs row
      match evaluateRows policy nowMs rows with
      | .error e => .error e
      | .ok candidates =>
        if policy.shouldPin article then .ok candidates
        else .ok (⟨cid, article.group, asU64 row.ingestedAtMs, row.byteCount⟩ :: candidates)

def selectGcCandidates (policy : PinPolicy) (nowMs gracePeriodMs : UInt64) :
    Prog (Stores P) StorageError (List GcArticleRecord) := do
  let rows ← onTransit fun t => (unpinnedRows nowMs gracePeriodMs t, t)
  Prog.ofExcept (evaluateRows parse policy nowMs rows)

structure GcExecutorResult where
  unpinned : Nat
  failed : Nat
  bytesReclaimed : Nat
  errors : List (String × String)

/-- The rows go after the block; a statement that fails is passed over. -/
def runGcExecutor [PinClient P] (nowMs : UInt64) :
    List GcArticleRecord → GcExecutorResult → Prog (Stores P) StorageError GcExecutorResult
  | [], result => pure result
  | candidate :: candidates, result => do
    match ← Prog.attempt (unpin candidate.cid) with
    | .ok () =>
      let _ ← Prog.attempt (deleteArticle candidate.cid.toString)
      let _ ← Prog.attempt (onCore (MsgIdMap.deleteByCid candidate.cid))
      let record : GcAuditRecord :=
        ⟨candidate.cid.toString, candidate.group, candidate.ingestedAtMs, nowMs, "no_matching_rule"⟩
      let _ ← Prog.attempt (onTransit fun t => ((), { t with audit := t.audit ++ [record] }))
      runGcExecutor nowMs candidates { result with
        unpinned := result.unpinned + 1
        bytesReclaimed := result.bytesReclaimed + candidate.byteCount }
    | .error e =>
      runGcExecutor nowMs candidates { result with
        failed := result.failed + 1
        errors := result.errors ++ [(candidate.cid.toString, e.toString)] }

def scheduledGc [PinClient P] (policy : PinPolicy) (nowMs gracePeriodMs gcAtMs : UInt64) :
    Prog (Stores P) StorageError GcExecutorResult := do
  let candidates ← Prog.attempt (selectGcCandidates parse policy nowMs gracePeriodMs)
  runGcExecutor gcAtMs (match candidates with | .ok candidates => candidates | .error _ => []) ⟨0, 0, 0, []⟩

/-- `i64::saturating_sub`. -/
def saturatingSubI64 (a b : Int) : Int := max (-2 ^ 63) (min (2 ^ 63 - 1) (a - b))

def pinMeta (nowMs : Int) : Option ArticleRow → ArticleMeta
  | some row => ⟨row.groupName, row.byteCount,
      asU64 ((saturatingSubI64 nowMs row.ingestedAtMs).tdiv (86400 * 1000))⟩
  | none => ⟨"unknown", 0, 0⟩

/-- `pinned_cids LEFT JOIN articles`. -/
def pinnedRows (t : TransitTables) : List (PinnedRow × Option ArticleRow) :=
  t.pinned.rows.map fun pin => (pin, t.articles.rows.find? fun row => decide (row.cid = pin.cid))

def gcRunLoop [PinClient P] (policy : PinPolicy) (nowMs : Int) :
    List (PinnedRow × Option ArticleRow) → Nat → Prog (Stores P) StorageError Nat
  | [], unpinned => pure unpinned
  | (pin, row) :: rows, unpinned =>
    if policy.shouldPin (pinMeta nowMs row) then gcRunLoop policy nowMs rows unpinned
    else match parse pin.cid with
      | .error _ => gcRunLoop policy nowMs rows unpinned
      | .ok cid => do
        match ← Prog.attempt (unpin cid) with
        | .error _ => gcRunLoop policy nowMs rows unpinned
        | .ok () =>
          let _ ← Prog.attempt (deleteArticle pin.cid)
          deletePin pin.cid
          gcRunLoop policy nowMs rows (unpinned + 1)

def cmdGcRun [PinClient P] (policy : PinPolicy) (nowMs : Int) : Prog (Stores P) StorageError String := do
  ensurePinnedCidsTable
  let rows ← onTransit fun t => (pinnedRows t, t)
  let unpinned ← gcRunLoop parse policy nowMs rows 0
  return "gc-run: " ++ rows.length.repr ++ " scanned, " ++ unpinned.repr ++ " unpinned\n"

open List Prog

def Pinned (t : TransitTables) (cid : Cid) : Prop := ∃ pin ∈ t.pinned.rows, parse pin.cid = .ok cid

structure Cleared (s : Stores P) (cid : Cid) : Prop where
  articles : ∀ row ∈ s.transit.tables.articles.rows, parse row.cid ≠ .ok cid
  pins : ¬ Pinned parse s.transit.tables cid
  messages : ∀ row ∈ s.core.tables.rows, row.cid ≠ cid.toBytes

def Accepts (map : MsgIdMap) (envelope : String) (article : Bytes) : Prop :=
  ((checkIngest envelope article).exec map).1 = .ok .accepted

/-- What a collector that was started on `tables` and `map` has made of them. -/
structure Clean (tables : TransitTables) (map : Table MsgIdRow MsgIdRow.messageId) (s : Stores P) :
    Prop where
  cleared : ∀ cid ∈ s.collected, Cleared parse s cid
  unpinned : ∀ cid ∈ s.collected, ¬ Pinned parse tables cid
  /-- An article that an empty map would not keep out may come in again. -/
  again : ∀ cid ∈ s.collected, ∀ envelope article messageId,
    ⟨messageId, cid.toBytes⟩ ∈ map.rows → extractBodyMsgid article = .ok (some messageId) →
    Accepts .new envelope article → Accepts s.core envelope article

def Stores.start (client : P) (tables : TransitTables) (map : Table MsgIdRow MsgIdRow.messageId) :
    Stores P :=
  ⟨client, ⟨tables, []⟩, ⟨map, []⟩, []⟩

def Unpins (P : Type) [PinClient P] : Prop :=
  ∀ cid (client : P), ((PinClient.unpin cid).exec client).1 = .ok ()

def Answers (s : Stores P) : Prop := s.transit.faults = [] ∧ s.core.faults = []

structure Ran (s s' : Stores P) (cids : List Cid) : Prop where
  answers : Answers s'
  collected : s'.collected = s.collected ++ cids
  articles : ∀ row, row ∈ s'.transit.tables.articles.rows ↔
    row ∈ s.transit.tables.articles.rows ∧ ∀ cid ∈ cids, row.cid ≠ cid.toString
  pins : s'.transit.tables.pinned = s.transit.tables.pinned
  messages : ∀ row, row ∈ s'.core.tables.rows ↔
    row ∈ s.core.tables.rows ∧ ∀ cid ∈ cids, row.cid ≠ cid.toBytes

variable {s : Stores P}

variable {cid : Cid} {cids : List Cid}

theorem Ran.trans {s' s'' : Stores P} (first : Ran s s' [cid])
    (rest : Ran s' s'' cids) : Ran s s'' (cid :: cids) := by
  refine ⟨rest.answers, ?_, fun row => ?_, rest.pins.trans first.pins, fun row => ?_⟩
  · rw [rest.collected, first.collected, append_assoc, singleton_append]
  · rw [rest.articles, first.articles, forall_mem_singleton, forall_mem_cons, and_assoc]
  · rw [rest.messages, first.messages, forall_mem_singleton, forall_mem_cons, and_assoc]

theorem exec_onTransit {α : Type} (f : TransitTables → α × TransitTables)
    (answers : s.transit.faults = []) : (onTransit f).exec s =
      (.ok (f s.transit.tables).1, { s with transit := ⟨(f s.transit.tables).2, []⟩ }) := by
  have fault : s.transit.fault = none := by simp [AnyPool.fault, answers]
  simp [onTransit, exec_mapError, AnyPool.exec_transaction, fault, answers]

theorem pinned_cmdPin {text : String} (read : parse text = .ok cid) (nowMs : Int)
    (answers : s.transit.faults = []) :
    Pinned parse ((cmdPin parse text nowMs).exec s).2.transit.tables cid := by
  simp only [cmdPin, read, ensurePinnedCidsTable, exec_bind, exec_onTransit, answers, exec_pure]
  have keys := (Table.mem_keys_insertOrIgnore s.transit.tables.pinned ⟨text, nowMs⟩ text).mpr (.inr rfl)
  obtain ⟨pin, present, rfl⟩ := mem_map.mp keys
  exact ⟨pin, present, read⟩

theorem exec_deleteByCid (cid : Cid) (answers : s.core.faults = []) :
    (onCore (MsgIdMap.deleteByCid cid)).exec s =
      (.ok (), { s with core := ⟨s.core.tables.delete fun r => decide (r.cid = cid.toBytes), []⟩ }) := by
  have fault : s.core.fault = none := by simp [AnyPool.fault, answers]
  simp [onCore, MsgIdMap.deleteByCid, exec_mapError, AnyPool.exec_transaction, fault, answers]

theorem exec_unpin [PinClient P] (unpins : Unpins P) (cid : Cid) (s : Stores P) :
    ∃ client, (unpin cid).exec s = (.ok (), { s with client, collected := s.collected ++ [cid] }) := by
  have ok := unpins cid s.client
  rw [unpin, exec_ofExec]
  rcases run : (PinClient.unpin cid).exec s.client with ⟨e | _, client⟩
  · rw [run] at ok
    cases ok
  · exact ⟨client, rfl⟩

theorem mem_delete {ρ κ : Type} [DecidableEq κ] {key : ρ → κ} (t : Table ρ key) (gone : ρ → Bool) (row : ρ) :
    row ∈ (t.delete gone).rows ↔ row ∈ t.rows ∧ gone row = false := by
  simp [Table.delete]

theorem runGcExecutor_ran [PinClient P] (unpins : Unpins P) (gcAtMs : UInt64)
    (candidates : List GcArticleRecord) (result : GcExecutorResult) (answers : Answers s) :
    ∃ result' s', (runGcExecutor gcAtMs candidates result).exec s = (.ok result', s') ∧
      Ran s s' (candidates.map GcArticleRecord.cid) := by
  induction candidates generalizing result s with
  | nil => exact ⟨result, s, rfl, answers, by simp, by simp, rfl, by simp⟩
  | cons candidate candidates ih =>
    obtain ⟨client, unpinned⟩ := exec_unpin unpins candidate.cid s
    simp only [runGcExecutor, exec_bind, exec_attempt, unpinned, deleteArticle, exec_onTransit,
      exec_deleteByCid, answers.1, answers.2]
    -- What is left is the run on the other candidates.
    generalize next : mk client _ _ _ = s'
    have first : Ran s s' [candidate.cid] := by
      subst next
      refine ⟨⟨rfl, rfl⟩, rfl, fun row => ?_, rfl, fun row => ?_⟩
      · simp [mem_delete]
      · simp [mem_delete]
    obtain ⟨result', s'', run, rest⟩ := ih _ first.answers
    exact ⟨result', s'', run, first.trans rest⟩

def Wanted (policy : PinPolicy) (nowMs : UInt64) (row : ArticleRow) : Prop :=
  policy.shouldPin (articleMeta nowMs row) = true

theorem evaluateRows_spec (policy : PinPolicy) (nowMs : UInt64) (rows : List ArticleRow) :
    match evaluateRows parse policy nowMs rows with
    | .error _ => ∃ row ∈ rows, ∃ e, parse row.cid = .error e
    | .ok candidates => (∀ row ∈ rows, ∃ cid, parse row.cid = .ok cid) ∧
        ∀ cid, cid ∈ candidates.map GcArticleRecord.cid ↔
          ∃ row ∈ rows, ¬ Wanted policy nowMs row ∧ parse row.cid = .ok cid := by
  induction rows with
  | nil => simp [evaluateRows]
  | cons row rows ih =>
    rw [evaluateRows]
    cases read : parse row.cid with
    | error e => exact ⟨row, mem_cons_self, e, read⟩
    | ok cid =>
      cases later : evaluateRows parse policy nowMs rows with
      | error e =>
        rw [later] at ih
        obtain ⟨bad, present, e, unread⟩ := ih
        exact ⟨bad, mem_cons_of_mem _ present, e, unread⟩
      | ok candidates =>
        rw [later] at ih
        have readable : ∀ r ∈ row :: rows, ∃ cid, parse r.cid = .ok cid :=
          forall_mem_cons.mpr ⟨⟨cid, read⟩, ih.1⟩
        by_cases wanted : policy.shouldPin (articleMeta nowMs row) = true
        · simp only [wanted, if_true]
          refine ⟨readable, fun c => ?_⟩
          rw [ih.2, exists_mem_cons_iff]
          simp [Wanted, wanted]
        · simp only [wanted]
          refine ⟨readable, fun c => ?_⟩
          rw [map_cons, mem_cons, ih.2, exists_mem_cons_iff]
          simp [Wanted, wanted, read, @eq_comm _ c cid]

def Collectable (policy : PinPolicy) (nowMs gracePeriodMs : UInt64) (t : TransitTables) (cid : Cid) : Prop :=
  ∃ row ∈ unpinnedRows nowMs gracePeriodMs t, ¬ Wanted policy nowMs row ∧ parse row.cid = .ok cid

theorem scheduledGc_ran [PinClient P] (unpins : Unpins P) (policy : PinPolicy)
    (nowMs gracePeriodMs gcAtMs : UInt64) (client : P) (tables : TransitTables)
    (map : Table MsgIdRow MsgIdRow.messageId) :
    ∃ result s' cids, (scheduledGc parse policy nowMs gracePeriodMs gcAtMs).exec
        (start client tables map) = (.ok result, s') ∧ Ran (start client tables map) s' cids ∧
      ((cids = [] ∧ ∃ row ∈ unpinnedRows nowMs gracePeriodMs tables, ∃ e, parse row.cid = .error e) ∨
        (∀ row ∈ unpinnedRows nowMs gracePeriodMs tables, ∃ cid, parse row.cid = .ok cid) ∧
        ∀ cid, cid ∈ cids ↔ Collectable parse policy nowMs gracePeriodMs tables cid) := by
  have spec := evaluateRows_spec parse policy nowMs (unpinnedRows nowMs gracePeriodMs tables)
  have answers : Answers (start client tables map) := ⟨rfl, rfl⟩
  simp only [scheduledGc, selectGcCandidates, exec_bind, exec_attempt, exec_onTransit _ answers.1,
    exec_ofExcept]
  cases evaluated : evaluateRows parse policy nowMs (unpinnedRows nowMs gracePeriodMs tables) with
  | error e =>
    rw [evaluated] at spec
    obtain ⟨result, s', run, ran⟩ := runGcExecutor_ran unpins gcAtMs [] ⟨0, 0, 0, []⟩ answers
    simp only [start, evaluated]
    exact ⟨result, s', [], run, ran, .inl ⟨rfl, spec⟩⟩
  | ok candidates =>
    rw [evaluated] at spec
    obtain ⟨result, s', run, ran⟩ := runGcExecutor_ran unpins gcAtMs candidates ⟨0, 0, 0, []⟩ answers
    simp only [start, evaluated]
    exact ⟨result, s', _, run, ran, .inr spec⟩

variable {messageId : String}

theorem checkDuplicate_unknown {map : MsgIdMap} (answers : map.faults = [])
    (unknown : ¬ map.Known messageId) (article : Bytes) :
    ((checkDuplicate messageId article).exec map).1 = .ok (checkMandatoryHeaders article) := by
  rw [checkDuplicate]
  split
  · rfl
  · rw [exec_bind, exec_attempt]
    rw [MsgIdMap.lookupByMsgid_fresh answers unknown]
    rfl

theorem accepts_iff_of_unknown {map : MsgIdMap} (answers : map.faults = [])
    (unknown : ¬ map.Known messageId) {article : Bytes}
    (named : extractBodyMsgid article = .ok (some messageId)) (envelope : String) :
    Accepts map envelope article ↔ Accepts .new envelope article := by
  have same : ((checkDuplicate messageId article).exec map).1 =
      ((checkDuplicate messageId article).exec .new).1 := by
    rw [checkDuplicate_unknown answers unknown,
      checkDuplicate_unknown rfl (by simp [MsgIdMap.Known, MsgIdMap.new, Table.empty])]
  rw [Accepts, Accepts, checkIngest]
  cases validateMessageId envelope with
  | error e => rfl
  | ok _ =>
    simp only
    split
    · rfl
    · rw [exec_bind, exec_bind, exec_ofExcept, exec_ofExcept, named]
      exact iff_of_eq (congrArg (· = _) same)

variable {tables : TransitTables}

theorem Ran.unknown {client : P} {map : Table MsgIdRow MsgIdRow.messageId}
    (ran : Ran (start client tables map) s cids)
    (collected : cid ∈ cids) (mapped : ⟨messageId, cid.toBytes⟩ ∈ map.rows) : ¬ s.core.Known messageId := by
  rintro ⟨row, present, named⟩
  obtain ⟨old, kept⟩ := (ran.messages row).mp present
  -- A Message-ID has one row.
  have same := inj_on_of_nodup_map map.unique old mapped named
  exact kept cid collected (same ▸ rfl)

theorem Ran.cleared_iff {client : P} {map : Table MsgIdRow MsgIdRow.messageId}
    (ran : Ran (start client tables map) s cids) :
    Clean parse tables map s ↔ ∀ cid ∈ cids, ¬ Pinned parse tables cid ∧
      ∀ row ∈ tables.articles.rows, parse row.cid = .ok cid → ∃ other ∈ cids, row.cid = other.toString := by
  have collected : s.collected = cids := ran.collected
  constructor
  · intro clean cid present
    rw [← collected] at present
    refine ⟨clean.unpinned cid present, fun row listed read => ?_⟩
    by_contra spelled
    refine (clean.cleared cid present).articles row ((ran.articles row).mpr ⟨listed, ?_⟩) read
    exact fun other gone same => spelled ⟨other, gone, same⟩
  · intro spelled
    constructor
    · intro cid present
      rw [collected] at present
      refine ⟨fun row kept read => ?_, ?_, fun row kept => ((ran.messages row).mp kept).2 cid present⟩
      · obtain ⟨listed, other⟩ := (ran.articles row).mp kept
        obtain ⟨c, gone, same⟩ := (spelled cid present).2 row listed read
        exact other c gone same
      · rw [Pinned, ran.pins]
        exact (spelled cid present).1
    · intro cid present
      exact (spelled cid (collected ▸ present)).1
    · intro cid present envelope article messageId mapped named
      exact (accepts_iff_of_unknown ran.answers.2 (ran.unknown (collected ▸ present) mapped) named _).mpr

def Dropped (policy : PinPolicy) (nowMs : Int) (rows : List (PinnedRow × Option ArticleRow)) (cid : Cid) :
    Prop :=
  ∃ entry ∈ rows, policy.shouldPin (pinMeta nowMs entry.2) = false ∧ parse entry.1.cid = .ok cid

theorem gcRunLoop_collects [PinClient P] (unpins : Unpins P) (policy : PinPolicy) (nowMs : Int)
    (rows : List (PinnedRow × Option ArticleRow)) (unpinned : Nat) (answers : s.transit.faults = []) :
    ∃ n s', (gcRunLoop parse policy nowMs rows unpinned).exec s = (.ok n, s') ∧
      ∀ cid, cid ∈ s'.collected ↔ cid ∈ s.collected ∨ Dropped parse policy nowMs rows cid := by
  induction rows generalizing unpinned s with
  | nil => exact ⟨unpinned, s, rfl, by simp [Dropped]⟩
  | cons entry rows ih =>
    obtain ⟨pin, row⟩ := entry
    -- A pin that is passed over adds nothing.
    have passed (kept : ∀ cid, policy.shouldPin (pinMeta nowMs row) = false → parse pin.cid ≠ .ok cid) :
        ∃ n s', (gcRunLoop parse policy nowMs rows unpinned).exec s = (.ok n, s') ∧
          ∀ cid, cid ∈ s'.collected ↔
            cid ∈ s.collected ∨ Dropped parse policy nowMs ((pin, row) :: rows) cid := by
      obtain ⟨n, s', run, collected⟩ := ih unpinned answers
      refine ⟨n, s', run, fun cid => ?_⟩
      have none : ¬ (policy.shouldPin (pinMeta nowMs row) = false ∧ parse pin.cid = .ok cid) := fun h =>
        kept cid h.1 h.2
      rw [collected, Dropped, Dropped, exists_mem_cons_iff, or_iff_right none]
    rw [gcRunLoop]
    cases wanted : policy.shouldPin (pinMeta nowMs row) with
    | true => exact passed fun cid unwanted => by simp [wanted] at unwanted
    | false =>
      cases read : parse pin.cid with
      | error e => exact passed fun cid _ => by simp [read]
      | ok cid =>
        obtain ⟨client, unpinned'⟩ := exec_unpin unpins cid s
        simp only [Bool.false_eq_true, if_false, exec_bind, exec_attempt, unpinned',
          deleteArticle, deletePin, exec_onTransit, answers]
        generalize next : mk client _ _ _ = later
        obtain ⟨n, s', run, collected⟩ := ih (unpinned + 1) (by rw [← next] : later.transit.faults = [])
        refine ⟨n, s', run, fun c => ?_⟩
        rw [collected, ← next, Dropped, Dropped, exists_mem_cons_iff, mem_append,
          mem_singleton, or_assoc]
        simp [wanted, read, @eq_comm _ c cid]

theorem cmdGcRun_collects [PinClient P] (unpins : Unpins P) (policy : PinPolicy) (nowMs : Int) (client : P)
    (tables : TransitTables) (map : Table MsgIdRow MsgIdRow.messageId) :
    ∃ report s', (cmdGcRun parse policy nowMs).exec (start client tables map) = (.ok report, s') ∧
      ∀ cid, cid ∈ s'.collected ↔ Dropped parse policy nowMs (pinnedRows tables) cid := by
  obtain ⟨n, s', run, collected⟩ := @gcRunLoop_collects P parse
    (start client tables map) _ unpins policy nowMs (pinnedRows tables) 0 rfl
  have ensured : (ensurePinnedCidsTable (P := P)).exec (start client tables map) =
      (.ok (), start client tables map) := exec_onTransit _ rfl
  have selected : (onTransit fun t => (pinnedRows t, t)).exec (start client tables map) =
      (.ok (pinnedRows tables), start client tables map) := exec_onTransit _ rfl
  rw [cmdGcRun, exec_bind_ok _ ensured, exec_bind_ok _ selected, exec_bind_ok _ run]
  exact ⟨_, s', rfl, fun cid => (collected cid).trans (by simp [start])⟩

theorem pinned_of_dropped {policy : PinPolicy} {nowMs : Int}
    (dropped : Dropped parse policy nowMs (pinnedRows tables) cid) : Pinned parse tables cid := by
  obtain ⟨entry, listed, -, read⟩ := dropped
  obtain ⟨pin, present, rfl⟩ := mem_map.mp listed
  exact ⟨pin, present, read⟩

theorem dropped_of_pinned {policy : PinPolicy} (unwanted : ∀ m, policy.shouldPin m = false) (nowMs : Int)
    (pinned : Pinned parse tables cid) : Dropped parse policy nowMs (pinnedRows tables) cid := by
  obtain ⟨pin, present, read⟩ := pinned
  exact ⟨_, mem_map_of_mem present, unwanted _, read⟩

theorem cmdGcRun_clean_iff [PinClient P] (unpins : Unpins P) (policy : PinPolicy) (nowMs : Int) (client : P)
    (tables : TransitTables) (map : Table MsgIdRow MsgIdRow.messageId) :
    Clean parse tables map ((cmdGcRun parse policy nowMs).exec (start client tables map)).2 ↔
      ∀ cid, ¬ Dropped parse policy nowMs (pinnedRows tables) cid := by
  obtain ⟨report, s', run, collected⟩ := cmdGcRun_collects parse unpins policy nowMs client tables map
  rw [run]
  constructor
  · intro clean cid dropped
    exact clean.unpinned cid ((collected cid).mpr dropped) (pinned_of_dropped parse dropped)
  · intro none
    have nothing : ∀ cid, cid ∉ s'.collected := fun cid present => none cid ((collected cid).mp present)
    exact ⟨fun cid present => absurd present (nothing cid), fun cid present => absurd present (nothing cid),
      fun cid present => absurd present (nothing cid)⟩

/-- A CID that the scheduled collector takes is spelled in the tables as the collector spells it,
and the operator has pinned it under no other spelling. If a CID that it looks at cannot be read, it
takes nothing. -/
def OneSpelling (policy : PinPolicy) (nowMs gracePeriodMs : UInt64) (t : TransitTables) : Prop :=
  (∃ row ∈ unpinnedRows nowMs gracePeriodMs t, ∃ e, parse row.cid = .error e) ∨
    ∀ cid, Collectable parse policy nowMs gracePeriodMs t cid → ¬ Pinned parse t cid ∧
      ∀ row ∈ t.articles.rows, parse row.cid = .ok cid →
        ∃ other, Collectable parse policy nowMs gracePeriodMs t other ∧ row.cid = other.toString

theorem scheduledGc_clean_iff [PinClient P] (unpins : Unpins P) (policy : PinPolicy)
    (nowMs gracePeriodMs gcAtMs : UInt64) (client : P) (tables : TransitTables)
    (map : Table MsgIdRow MsgIdRow.messageId) :
    Clean parse tables map ((scheduledGc parse policy nowMs gracePeriodMs gcAtMs).exec
      (start client tables map)).2 ↔ OneSpelling parse policy nowMs gracePeriodMs tables := by
  obtain ⟨result, s', cids, run, ran, outcome⟩ :=
    scheduledGc_ran parse unpins policy nowMs gracePeriodMs gcAtMs client tables map
  rw [run, ran.cleared_iff]
  rcases outcome with ⟨rfl, row, listed, e, unread⟩ | ⟨readable, collected⟩
  · exact ⟨fun _ => .inl ⟨row, listed, e, unread⟩, fun _ => by simp⟩
  · simp only [collected, OneSpelling]
    refine ⟨.inr, fun spelled => spelled.resolve_left ?_⟩
    rintro ⟨row, listed, e, unread⟩
    obtain ⟨cid, read⟩ := readable row listed
    rw [read] at unread
    cases unread

theorem clean_iff [PinClient P] (unpins : Unpins P) (policy : PinPolicy)
    (nowMs gracePeriodMs gcAtMs : UInt64) (gcRunAtMs : Int) (client : P) (tables : TransitTables)
    (map : Table MsgIdRow MsgIdRow.messageId) :
    (Clean parse tables map ((scheduledGc parse policy nowMs gracePeriodMs gcAtMs).exec
        (Stores.start client tables map)).2 ∧
      Clean parse tables map ((cmdGcRun parse policy gcRunAtMs).exec (Stores.start client tables map)).2) ↔
      OneSpelling parse policy nowMs gracePeriodMs tables ∧
        ∀ cid, ¬ Dropped parse policy gcRunAtMs (pinnedRows tables) cid := by
  rw [scheduledGc_clean_iff parse unpins, cmdGcRun_clean_iff parse unpins]

namespace Sample

structure Node where

instance : PinClient Node where
  unpin _ := pure ()

theorem node_unpins : Unpins Node := fun _ _ => rfl

def article : Cid := rawCid [1]

def read (text : String) : Except String Cid :=
  if text = article.toString then .ok article else .error "Unknown base code"

def stored : TransitTables :=
  ⟨Table.empty.insertOrIgnore ⟨article.toString, "alt.test", 0, 1⟩, Table.empty, []⟩

def known : Table MsgIdRow MsgIdRow.messageId := Table.empty.insertOrIgnore ⟨"<1@a>", article.toBytes⟩

def pinned : TransitTables :=
  ((cmdPin read article.toString 0).exec (Stores.start Node.mk stored known)).2.transit.tables

def noRules : PinPolicy := ⟨[]⟩

def now : UInt64 := 86400000

theorem shouldPin_noRules (m : ArticleMeta) : noRules.shouldPin m = false := by
  simp [PinPolicy.shouldPin, noRules]

theorem read_article : read article.toString = .ok article := if_pos rfl

theorem article_dropped : Dropped read noRules 0 (pinnedRows pinned) article :=
  dropped_of_pinned read shouldPin_noRules 0 (pinned_cmdPin read read_article 0 rfl)

/-- The command collects what the operator has pinned. -/
theorem pin_collected : ¬ (Clean read pinned known ((scheduledGc read noRules now 0 now).exec
      (Stores.start Node.mk pinned known)).2 ∧
    Clean read pinned known ((cmdGcRun read noRules 0).exec (Stores.start Node.mk pinned known)).2) := by
  rintro ⟨-, clean⟩
  exact (cmdGcRun_clean_iff read node_unpins noRules 0 Node.mk pinned known).mp clean article article_dropped

theorem stored_rows : stored.articles.rows = [⟨article.toString, "alt.test", 0, 1⟩] := rfl

theorem stored_unpinned : unpinnedRows now 0 stored = stored.articles.rows := by
  simp only [unpinnedRows, Table.select, stored_rows, filter_cons, filter_nil]
  rfl

theorem article_collectable : Collectable read noRules now 0 stored article := by
  refine ⟨⟨article.toString, "alt.test", 0, 1⟩, ?_, ?_, read_article⟩
  · rw [stored_unpinned, stored_rows]
    exact mem_singleton_self _
  · simp [Wanted, shouldPin_noRules]

theorem stored_oneSpelling : OneSpelling read noRules now 0 stored := by
  right
  intro cid _
  refine ⟨?_, ?_⟩
  · rintro ⟨pin, present, -⟩
    cases present
  · intro row listed _
    rw [stored_rows, mem_singleton] at listed
    exact ⟨article, article_collectable, by rw [listed]⟩

theorem unpinned_collected : Collectable read noRules now 0 stored article ∧
    (Clean read stored known ((scheduledGc read noRules now 0 now).exec
        (Stores.start Node.mk stored known)).2 ∧
      Clean read stored known ((cmdGcRun read noRules 0).exec (Stores.start Node.mk stored known)).2) := by
  refine ⟨article_collectable, (clean_iff read node_unpins noRules now 0 now 0 Node.mk stored known).mpr
    ⟨stored_oneSpelling, ?_⟩⟩
  rintro cid ⟨entry, listed, -⟩
  cases listed

end Sample

end Stoa.Retention
