import Stoa.Core.GroupLog.MemStorage
import Stoa.Lib.Runs
import Stoa.Transit.Ingestion
import Stoa.Transit.Pipeline

/-! `restored_iff`: reindexing restores the table of Message-IDs exactly if no article had been
stored. -/
namespace Stoa

open Prog List Transit

structure ReindexSummary where
  totalScanned : Nat
  indexed : Nat
  skippedNotArticle : Nat
  skippedDuplicate : Nat

structure ReindexConfig where
  dryRun : Bool
  progressInterval : Nat

inductive ReindexExit
  | error (error : StorageError)
  | panic (panic : CharBoundaryPanic)
  /-- The progress interval is zero. -/
  | remainderByZero

def extractMessageIdBytes (raw : Bytes) : Except CharBoundaryPanic (Option String) := extractBodyMsgid raw

def insertText (messageId : String) (cid : Cid) : Prog MsgIdMap ReindexExit Bool :=
  (AnyPool.transaction fun (rows : Table MsgIdRow MsgIdRow.messageId) =>
    (decide (messageId ∉ rows.rows.map MsgIdRow.messageId),
      rows.insertOrIgnore ⟨messageId, Text.asBytes cid.toString⟩)).mapError fun e => .error (.database e)

def reindexLoop (config : ReindexConfig) :
    List (Cid × Bytes) → ReindexSummary → Prog MsgIdMap ReindexExit ReindexSummary
  | [], summary => pure summary
  | (cid, raw) :: articles, summary =>
    let summary := { summary with totalScanned := summary.totalScanned + 1 }
    let skipped := { summary with skippedNotArticle := summary.skippedNotArticle + 1 }
    let indexed := { summary with indexed := summary.indexed + 1 }
    if config.progressInterval = 0 then throw .remainderByZero
    else match extractMessageIdBytes raw with
      | .error panic => throw (.panic panic)
      | .ok none => reindexLoop config articles skipped
      | .ok (some messageId) =>
        match validateMessageId messageId with
        | .error _ => reindexLoop config articles skipped
        | .ok () =>
          if config.dryRun then reindexLoop config articles indexed
          else do
            let inserted ← insertText messageId cid
            reindexLoop config articles (if inserted then indexed
              else { summary with skippedDuplicate := summary.skippedDuplicate + 1 })

def runReindex (config : ReindexConfig) (articles : List (Cid × Bytes)) :
    Prog MsgIdMap ReindexExit ReindexSummary :=
  reindexLoop config articles ⟨0, 0, 0, 0⟩

theorem reindexLoop_rows (config : ReindexConfig) (articles : List (Cid × Bytes))
    (summary : ReindexSummary) (map : MsgIdMap) :
    ∀ row ∈ ((reindexLoop config articles summary).exec map).2.tables.rows, row ∈ map.tables.rows ∨
      ∃ article ∈ articles, row.cid = Text.asBytes article.1.toString := by
  induction articles generalizing summary map with
  | nil => exact fun row present => .inl present
  | cons article articles ih =>
    obtain ⟨cid, raw⟩ := article
    have later : ∀ summary map, ∀ row ∈ ((reindexLoop config articles summary).exec map).2.tables.rows,
        row ∈ map.tables.rows ∨ ∃ article ∈ (cid, raw) :: articles,
          row.cid = Text.asBytes article.1.toString := by
      intro summary map row present
      exact (ih summary map row present).imp_right fun ⟨article, listed, named⟩ =>
        ⟨article, List.mem_cons_of_mem _ listed, named⟩
    simp only [reindexLoop]
    split
    · exact fun row present => .inl present
    · split
      · exact fun row present => .inl present
      · exact later _ _
      · split
        · exact later _ _
        · split
          · exact later _ _
          · next messageId _ _ _ =>
            rw [Prog.exec_bind, insertText, Prog.exec_mapError, AnyPool.exec_transaction]
            cases map.fault with
            | some e => exact fun row present => .inl present
            | none =>
              intro row present
              rcases later _ _ row present with old | new
              · -- The row may be the one that was just inserted.
                rw [Table.rows_insertOrIgnore] at old
                split at old
                · exact .inl old
                · rcases List.mem_append.mp old with old | new
                  · exact .inl old
                  · rw [List.mem_singleton.mp new]
                    exact .inr ⟨_, List.mem_cons_self, rfl⟩
              · exact .inr new

section Recovery

variable (ed : Ed25519) {I S : Type} [IpfsStore I] [LogStorage S]

/-- An article that a peer offers, and what the pipeline is given for it. -/
structure Offer where
  envelopeMsgid : String
  call : PipelineCall

/-- The checks, and the pipeline for an article that they accept; whether it was stored. -/
def ingestStep (offer : Offer) (t : Transit I S) : Bool × Transit I S :=
  match (Transit.onMsgidMap (checkIngest offer.envelopeMsgid offer.call.articleBytes)).exec t with
  | (.ok .accepted, t) =>
    match (runPipeline ed offer.call.articleBytes offer.call.ctx offer.call.clock).exec t with
    | (.ok _, t) => (true, t)
    | (.error _, t) => (false, t)
  | (_, t) => (false, t)

def Stored (offer : Offer) (t : Transit I S) : Prop := (ingestStep ed offer t).1 = true

def Offer.block (offer : Offer) : Cid × Bytes := (rawCid offer.call.stored, offer.call.stored)

def SameMap (map map' : MsgIdMap) : Prop := ∀ row, row ∈ map.tables.rows ↔ row ∈ map'.tables.rows

omit [IpfsStore I] [LogStorage S] in
theorem tables_checkIngest (envelopeMsgid : String) (articleBytes : Bytes) (map : MsgIdMap) :
    ((checkIngest envelopeMsgid articleBytes).exec map).2.tables = map.tables := by
  rw [checkIngest]
  split
  · rfl
  · split
    · rfl
    · rw [exec_bind, exec_ofExcept]
      cases extractBodyMsgid articleBytes with
      | error panic => rfl
      | ok bodyMsgid =>
        simp only [checkDuplicate]
        split
        · rfl
        · have looked := (MsgIdMap.lookupByMsgid_outcome (bodyMsgid.getD "") map).1
          rw [exec_bind, exec_attempt]
          simp only
          split <;> exact looked

variable {ed}

theorem runPipeline_row {call : PipelineCall} {t t' : Transit I S}
    {result : PipelineResult × PipelineMetrics}
    (run : (runPipeline ed call.articleBytes call.ctx call.clock).exec t = (.ok result, t')) :
    (∃ messageId, ⟨messageId, (rawCid call.stored).toBytes⟩ ∈ t'.msgidMap.tables.rows) ∧
      ∀ row ∈ t.msgidMap.tables.rows, row ∈ t'.msgidMap.tables.rows := by
  have outcome := runPipeline_outcome ed call.articleBytes call.ctx call.clock t
  rw [run] at outcome
  cases outcome with
  | @recorded _ cid ipfs messageId names _ put parsed answers agrees ipfs_eq rows =>
    obtain rfl : cid = rawCid call.stored := IpfsStore.putRaw_returns _ _ _ _ put
    rw [rows, Table.rows_insertOrIgnore]
    split
    · next taken =>
      -- The Message-ID was mapped before, to the same CID.
      obtain ⟨row, present, named⟩ := mem_map.mp taken
      have same : row.cid = (rawCid call.stored).toBytes := by
        by_contra other
        exact agrees ⟨row, present, named, other⟩
      refine ⟨⟨messageId, ?_⟩, fun _ => id⟩
      rw [← same, ← show row.messageId = messageId from named]
      exact present
    · exact ⟨⟨messageId, by simp⟩, fun row present => mem_append_left _ present⟩

theorem of_stored {offer : Offer} {t : Transit I S} (stored : Stored ed offer t) :
    ∃ msgidMap result, (checkIngest offer.envelopeMsgid offer.call.articleBytes).exec t.msgidMap =
        (.ok .accepted, msgidMap) ∧
      (runPipeline ed offer.call.articleBytes offer.call.ctx offer.call.clock).exec { t with msgidMap } =
        (.ok result, (ingestStep ed offer t).2) := by
  rw [Stored] at stored
  rcases check : (checkIngest offer.envelopeMsgid offer.call.articleBytes).exec t.msgidMap with
    ⟨panic | _ | _ | _ | _, msgidMap⟩
  case ok.accepted =>
    rcases run : (runPipeline ed offer.call.articleBytes offer.call.ctx offer.call.clock).exec
      { t with msgidMap } with ⟨e | result, t'⟩
    · simp [ingestStep, onMsgidMap, check, run] at stored
    · exact ⟨msgidMap, result, rfl, by simp [ingestStep, onMsgidMap, check, run]⟩
  all_goals simp [ingestStep, onMsgidMap, check] at stored

theorem stored_row {offer : Offer} {t : Transit I S} (stored : Stored ed offer t) :
    (∃ messageId, ⟨messageId, offer.block.1.toBytes⟩ ∈ (ingestStep ed offer t).2.msgidMap.tables.rows) ∧
      ∀ row ∈ t.msgidMap.tables.rows, row ∈ (ingestStep ed offer t).2.msgidMap.tables.rows := by
  obtain ⟨msgidMap, result, checked, run⟩ := of_stored stored
  have tables := tables_checkIngest offer.envelopeMsgid offer.call.articleBytes t.msgidMap
  rw [checked] at tables
  obtain ⟨recorded, kept⟩ := runPipeline_row run
  exact ⟨recorded, fun row present => kept row (tables ▸ present)⟩

theorem stored_rows {offers : List Offer} {t : Transit I S}
    (along : AlongRun (ingestStep ed) (Stored ed) offers t) :
    (∀ row ∈ t.msgidMap.tables.rows, row ∈ (runAll (ingestStep ed) offers t).2.msgidMap.tables.rows) ∧
      ∀ offer ∈ offers, ∃ messageId, ⟨messageId, offer.block.1.toBytes⟩ ∈
        (runAll (ingestStep ed) offers t).2.msgidMap.tables.rows := by
  induction offers generalizing t with
  | nil => exact ⟨fun _ => id, by simp⟩
  | cons first offers ih =>
    obtain ⟨stored, rest⟩ := along
    obtain ⟨⟨messageId, recorded⟩, kept⟩ := stored_row stored
    obtain ⟨later, each⟩ := ih rest
    exact ⟨fun row present => later row (kept row present),
      forall_mem_cons.mpr ⟨⟨messageId, later _ recorded⟩, each⟩⟩

omit [IpfsStore I] [LogStorage S] in
theorem toBytes_ne_text (a b : Bytes) : (rawCid a).toBytes ≠ Text.asBytes (rawCid b).toString := by
  intro same
  have first : (rawCid a).toBytes.head? = some 1 := rfl
  have letter : (Text.asBytes (rawCid b).toString).head? = some 98 := by
    have text : (rawCid b).toString = "b" ++ Multibase.base32Lower (rawCid b).toBytes := rfl
    rw [text, Text.asBytes, String.toList_append, flatMap_append]
    rfl
  rw [same, letter] at first
  cases first

omit [IpfsStore I] [LogStorage S] in
theorem not_mem_reindexed (config : ReindexConfig) {blocks : List (Cid × Bytes)}
    (raw : ∀ block ∈ blocks, block.1 = rawCid block.2) (data : Bytes) (messageId : String) :
    ⟨messageId, (rawCid data).toBytes⟩ ∉ ((runReindex config blocks).exec .new).2.tables.rows := by
  intro present
  rcases reindexLoop_rows config blocks _ .new _ present with old | ⟨block, listed, text⟩
  · cases old
  · rw [raw block listed] at text
    exact toBytes_ne_text _ _ text

theorem restored_iff {offers : List Offer} {t : Transit I S} (empty : t.msgidMap.tables = Table.empty)
    (along : AlongRun (ingestStep ed) (Stored ed) offers t) {blocks : List (Cid × Bytes)}
    (all : ∀ block, block ∈ blocks ↔ block ∈ offers.map Offer.block) (config : ReindexConfig) :
    SameMap ((runReindex config blocks).exec .new).2 (runAll (ingestStep ed) offers t).2.msgidMap ↔
      offers = [] := by
  constructor
  · intro same
    by_contra some
    obtain ⟨offer, offered⟩ := exists_mem_of_ne_nil offers some
    obtain ⟨messageId, recorded⟩ := (stored_rows along).2 offer offered
    refine not_mem_reindexed config (fun block listed => ?_) _ messageId ((same _).mpr recorded)
    obtain ⟨other, -, rfl⟩ := mem_map.mp ((all block).mp listed)
    rfl
  · rintro rfl
    have none : blocks = [] := eq_nil_iff_forall_not_mem.mpr fun block => by simp [all]
    intro row
    rw [none, runAll_nil, empty]
    rfl

end Recovery

namespace Transit.Sample

/-- An article in no newsgroup, which is stored all the same. -/
def groupless : Offer :=
  ⟨"<1@a>", Text.asBytes "From: a\r\nDate: d\r\nMessage-ID: <1@a>\r\nNewsgroups: .\r\nSubject: s\r\n\r\n",
    ⟨.ofWallMs 1, .fill 32 7, "a", none⟩, ⟨0, 0⟩⟩

def plain : Ed25519 := .ofSignatures (.fill 32 7) (.fill 32 8) []

def bare : Transit MemIpfsStore MemLogStorage := ⟨.new, .new, .new, ⟨Table.empty, []⟩⟩

theorem parsed_groupless :
    parseMessageIdAndNewsgroups groupless.call.stored = .ok (some ("<1@a>", ["."])) := by rfl

theorem checked_groupless :
    (checkIngest groupless.envelopeMsgid groupless.call.articleBytes).exec .new = (.ok .accepted, .new) := by
  rfl

theorem inserted_groupless : ∃ msgidMap,
    (MsgIdMap.insert "<1@a>" (rawCid groupless.call.stored)).exec .new = (.ok (), msgidMap) :=
  ⟨_, MsgIdMap.insert_new _ rfl (by simp [MsgIdMap.Known, MsgIdMap.new, Table.empty])⟩

theorem stored_groupless : Stored plain groupless bare := by
  obtain ⟨msgidMap, inserted⟩ := inserted_groupless
  have put : (IpfsStore.putRaw groupless.call.stored).exec bare.ipfs =
      (.ok (rawCid groupless.call.stored), _) := rfl
  have skipped : acceptedGroup none "." = none := by rfl
  have run := @runPipeline_of_parsed plain MemIpfsStore MemLogStorage _ _ groupless.call.articleBytes
    groupless.call.ctx groupless.call.clock bare _ _ _ _ put parsed_groupless
  have checked := checked_groupless
  have map : bare.msgidMap = .new := rfl
  simp only [Stored, ingestStep, onMsgidMap, exec_zoom, map, checked]
  have fault : bare.pool.fault = none := rfl
  have ctx : groupless.call.ctx.groupFilter = none := rfl
  have same : ({ bare with msgidMap := .new } : Transit MemIpfsStore MemLogStorage) = bare := rfl
  rw [same, run]
  simp only [recordArticle, exec_bind, exec_attempt, onMsgidMap, onLogStorage,
    onPool, exec_zoom, map, inserted, appendToLogs, ctx, skipped, exec_mapError,
    exec_pure, AnyPool.exec_transaction, fault]

theorem along_groupless : AlongRun (ingestStep plain) (Stored plain) [groupless] bare :=
  ⟨stored_groupless, trivial⟩

/-- The one row of the old table is not in the new one. -/
theorem groupless_not_restored : ¬ SameMap ((runReindex ⟨false, 1000⟩ [groupless.block]).exec .new).2
    (runAll (ingestStep plain) [groupless] bare).2.msgidMap := by
  intro same
  obtain ⟨messageId, recorded⟩ := (stored_rows along_groupless).2 groupless mem_cons_self
  refine not_mem_reindexed ⟨false, 1000⟩ ?_ groupless.call.stored messageId ((same _).mpr recorded)
  exact forall_mem_singleton.mpr rfl

theorem groupless_restored_iff : AlongRun (ingestStep plain) (Stored plain) [groupless] bare ∧
    (SameMap ((runReindex ⟨false, 1000⟩ [groupless.block]).exec .new).2
      (runAll (ingestStep plain) [groupless] bare).2.msgidMap ↔ [groupless] = []) :=
  ⟨along_groupless, restored_iff rfl along_groupless (by simp) ⟨false, 1000⟩⟩

end Transit.Sample

end Stoa
