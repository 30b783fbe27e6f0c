import Stoa.Core.GroupLog.Append
import Stoa.Core.MsgIdMap
import Stoa.Core.Wildmat
import Stoa.Transit.HeaderFields
import Stoa.Transit.IpfsStore

/-! What the transit daemon does with an article it accepts: write the bytes to the block store, map
the Message-ID to the CID, append an entry to the log of each newsgroup, and record the article for
garbage collection. -/
namespace Stoa

open Prog IpfsStore Prog.ErrorsIn MsgIdMap LogEntryId
inductive PipelineError
  | permanent (message : String)
  | transient (message : String)
  deriving DecidableEq, Repr

def PipelineError.toString : PipelineError → String
  | permanent message => "permanent: " ++ message
  | transient message => "transient: " ++ message

/-- How a run may end other than by returning a result. -/
inductive PipelineExit
  | error (error : PipelineError)
  | panic (panic : CharBoundaryPanic)

structure PipelineCtx where
  timestamp : HlcTimestamp
  operatorSigningKey : SigningKey
  localHostname : String
  groupFilter : GroupPolicy

structure PipelineResult where
  cid : Cid
  groups : List String
  deriving DecidableEq

structure PipelineMetrics where
  articlesIngestedTotal : UInt64
  ipfsWriteLatencyMs : UInt64
  deriving DecidableEq

structure PipelineClock where
  ipfsWriteLatencyMs : UInt64
  ingestedAtMs : Int

structure ArticleRow where
  cid : String
  groupName : String
  ingestedAtMs : Int
  byteCount : Nat
  deriving DecidableEq

/-- `INSERT INTO articles .. ON CONFLICT (cid) DO UPDATE SET group_name`. -/
def upsertArticle (articles : Table ArticleRow ArticleRow.cid) (row : ArticleRow) :
    Table ArticleRow ArticleRow.cid :=
  match articles.insert row with
  | some articles => articles
  | none => articles.update (fun r => decide (r.cid = row.cid))
      (fun r => { r with groupName := row.groupName }) fun _ => rfl

structure Transit (I S : Type) where
  ipfs : I
  msgidMap : MsgIdMap
  logStorage : S
  pool : AnyPool (Table ArticleRow ArticleRow.cid)

section Logs

variable (ed : Ed25519) {S : Type} [LogStorage S]

def articleEntry (key : SigningKey) (timestamp : HlcTimestamp) (cid : Cid)
    (tipIds : List LogEntryId) : LogEntry :=
  let parentCids := tipIds.map LogEntryId.toCid
  let sig := ed.sign key (logEntryCanonicalBytes timestamp.wallMs cid parentCids)
  ⟨timestamp, cid, sig.toBytes, parentCids⟩

def acceptedGroup (filter : GroupPolicy) (name : String) : Option GroupName :=
  match GroupName.new name with
  | .error _ => none
  | .ok group =>
    match filter with
    | none => some group
    | some filter => if filter.accepts name then some group else none

/-- Append the article to one group's log; `none` when the log cannot be read or written. -/
def appendToLog (ctx : PipelineCtx) (cid : Cid) (group : GroupName) :
    Prog S PipelineError (Option LogEntryId) := do
  match ← Prog.attempt (LogStorage.listTips group) with
  | .error _ => return none
  | .ok tipIds =>
    let entry := articleEntry ed ctx.operatorSigningKey ctx.timestamp cid tipIds
    match verifySignature ed entry (ed.verifyingKey ctx.operatorSigningKey) with
    | .error e => throw (.permanent ("log entry signature self-check failed for " ++
        group.asStr ++ ": " ++ e.toString))
    | .ok verified =>
      match ← Prog.attempt (append group verified) with
      | .error _ => return none
      | .ok entryId => return some entryId

def appendToLogs (ctx : PipelineCtx) (cid : Cid) :
    List String → Prog S PipelineError (List (String × LogEntryId))
  | [] => pure []
  | name :: rest =>
    match acceptedGroup ctx.groupFilter name with
    | none => appendToLogs ctx cid rest
    | some group => do
      let appended ← appendToLog ed ctx cid group
      let later ← appendToLogs ctx cid rest
      match appended with
      | none => return later
      | some entryId => return (name, entryId) :: later

end Logs

section Run

variable (ed : Ed25519) {I S : Type} [IpfsStore I] [LogStorage S]

private def transient (context : String) (message : String) : PipelineExit :=
  .error (.transient (context ++ message))

namespace Transit

variable {ε α : Type}

def onIpfs (x : Prog I ε α) : Prog (Transit I S) ε α := x.zoom ipfs fun ipfs t => { t with ipfs }

def onMsgidMap (x : Prog MsgIdMap ε α) : Prog (Transit I S) ε α :=
  x.zoom msgidMap fun msgidMap t => { t with msgidMap }

def onLogStorage (x : Prog S ε α) : Prog (Transit I S) ε α :=
  x.zoom logStorage fun logStorage t => { t with logStorage }

def onPool (x : Prog (AnyPool (Table ArticleRow ArticleRow.cid)) ε α) : Prog (Transit I S) ε α :=
  x.zoom pool fun pool t => { t with pool }

end Transit

open Transit

def runPipeline (articleBytes : Bytes) (ctx : PipelineCtx) (clock : PipelineClock) :
    Prog (Transit I S) PipelineExit (PipelineResult × PipelineMetrics) := do
  let articleBytes := prependPathHeader articleBytes ctx.localHostname
  let cid ← onIpfs ((IpfsStore.putRaw articleBytes).mapError fun e =>
    transient "IPFS write failed: " e.toString)
  match parseMessageIdAndNewsgroups articleBytes with
  | .error panic => throw (.panic panic)
  | .ok none => throw (.error (.permanent "missing Message-ID header"))
  | .ok (some (messageId, groupNameStrs)) =>
    match ← Prog.attempt (onMsgidMap (MsgIdMap.insert messageId cid)) with
    | .error e =>
      -- The block would be out of the garbage collector's reach.
      let _ ← Prog.attempt (onIpfs (IpfsStore.delete cid))
      throw (transient "msgid insert failed: " e.toString)
    | .ok () =>
      let appendedGroups ← onLogStorage
        ((appendToLogs ed ctx cid groupNameStrs).mapError PipelineExit.error)
      let row : ArticleRow := ⟨cid.toString, String.intercalate "," groupNameStrs,
        clock.ingestedAtMs, articleBytes.length⟩
      onPool ((AnyPool.transaction fun articles => ((), upsertArticle articles row)).mapError fun e =>
        transient ("articles table insert failed for CID " ++ cid.toString ++ ": ") e)
      return (⟨cid, appendedGroups.map Prod.fst⟩, ⟨1, clock.ipfsWriteLatencyMs⟩)

def recordArticle (articleBytes : Bytes) (ctx : PipelineCtx) (clock : PipelineClock) (cid : Cid)
    (messageId : String) (groupNameStrs : List String) :
    Prog (Transit I S) PipelineExit (PipelineResult × PipelineMetrics) := do
  match ← Prog.attempt (onMsgidMap (MsgIdMap.insert messageId cid)) with
  | .error e =>
    let _ ← Prog.attempt (onIpfs (IpfsStore.delete cid))
    throw (transient "msgid insert failed: " e.toString)
  | .ok () =>
    let appendedGroups ← onLogStorage
      ((appendToLogs ed ctx cid groupNameStrs).mapError PipelineExit.error)
    let row : ArticleRow := ⟨cid.toString, String.intercalate "," groupNameStrs,
      clock.ingestedAtMs, articleBytes.length⟩
    onPool ((AnyPool.transaction fun articles => ((), upsertArticle articles row)).mapError fun e =>
      transient ("articles table insert failed for CID " ++ cid.toString ++ ": ") e)
    return (⟨cid, appendedGroups.map Prod.fst⟩, ⟨1, clock.ipfsWriteLatencyMs⟩)

theorem runPipeline_eq (articleBytes : Bytes) (ctx : PipelineCtx) (clock : PipelineClock) :
    (runPipeline ed articleBytes ctx clock :
        Prog (Transit I S) PipelineExit (PipelineResult × PipelineMetrics)) =
      onIpfs ((putRaw (prependPathHeader articleBytes ctx.localHostname)).mapError
        fun e => transient "IPFS write failed: " e.toString) >>= fun cid =>
      match parseMessageIdAndNewsgroups (prependPathHeader articleBytes ctx.localHostname) with
      | .error panic => throw (.panic panic)
      | .ok none => throw (.error (.permanent "missing Message-ID header"))
      | .ok (some (messageId, groupNameStrs)) =>
        recordArticle ed (prependPathHeader articleBytes ctx.localHostname) ctx clock cid messageId
          groupNameStrs := rfl

variable {articleBytes : Bytes} {ctx : PipelineCtx} {clock : PipelineClock} {t : Transit I S}

theorem runPipeline_of_parsed {cid : Cid} {ipfs : I} {messageId : String} {names : List String}
    (put : (putRaw (prependPathHeader articleBytes ctx.localHostname)).exec t.ipfs =
      (.ok cid, ipfs))
    (parsed : parseMessageIdAndNewsgroups (prependPathHeader articleBytes ctx.localHostname) =
      .ok (some (messageId, names))) : (runPipeline ed articleBytes ctx clock).exec t =
      (recordArticle ed (prependPathHeader articleBytes ctx.localHostname) ctx clock cid messageId
        names).exec { t with ipfs } := by
  rw [runPipeline_eq, exec_bind, onIpfs, exec_zoom, exec_mapError, put, parsed]

theorem recordArticle_errors (articleBytes : Bytes) (ctx : PipelineCtx) (clock : PipelineClock)
    (cid : Cid) (messageId : String) (groupNameStrs : List String) :
    Prog.ErrorsIn (fun e => ∀ panic, e ≠ .panic panic)
      (recordArticle ed articleBytes ctx clock cid messageId groupNameStrs :
        Prog (Transit I S) PipelineExit (PipelineResult × PipelineMetrics)) := by
  have attempted {ε α : Type} (x : Prog (Transit I S) ε α) :
      Prog.ErrorsIn (fun e : PipelineExit => ∀ panic, e ≠ .panic panic) (Prog.attempt x) := by
    intro t e t' run
    rw [exec_attempt] at run
    cases run
  apply (attempted _).bind
  rintro (e | ⟨⟩)
  · apply (attempted _).bind
    intro deleted
    exact errorsIn_throw (by simp [transient])
  · refine bind (zoom (errorsIn_mapError ?_ _)) fun appended => ?_
    · exact fun e panic same => by cases same
    refine bind (zoom (errorsIn_mapError ?_ _)) fun _ => ?_
    · exact fun e panic same => by cases same
    exact errorsIn_pure _

theorem runPipeline_panics_iff :
    (∃ panic, ((runPipeline ed articleBytes ctx clock).exec t).1 = .error (.panic panic)) ↔
      (∃ cid, ((putRaw (prependPathHeader articleBytes ctx.localHostname)).exec
        t.ipfs).1 = .ok cid) ∧
      ∃ panic, parseMessageIdAndNewsgroups (prependPathHeader articleBytes ctx.localHostname) =
        .error panic := by
  rw [runPipeline_eq, exec_bind, onIpfs, exec_zoom, exec_mapError]
  rcases (putRaw _).exec t.ipfs with ⟨e | cid, ipfs⟩
  · simp [transient]
  · simp only [Except.ok.injEq, exists_eq', true_and]
    rcases parseMessageIdAndNewsgroups _ with panic | _ | ⟨messageId, names⟩
    · simp
    · simp
    · simp only [reduceCtorEq, exists_false, iff_false]
      rintro ⟨panic, run⟩
      exact recordArticle_errors ed _ ctx clock cid messageId names _ _ _ (Prod.ext run rfl) panic rfl

structure PipelineCall where
  articleBytes : Bytes
  ctx : PipelineCtx
  clock : PipelineClock

def PipelineCall.stored (call : PipelineCall) : Bytes :=
  prependPathHeader call.articleBytes call.ctx.localHostname

def Puts (call : PipelineCall) (t : Transit I S) : Prop :=
  ∃ cid, ((IpfsStore.putRaw call.stored).exec t.ipfs).1 = .ok cid

inductive RunOutcome (articleBytes : Bytes) (ctx : PipelineCtx) (t : Transit I S) :
    Except PipelineExit (PipelineResult × PipelineMetrics) × Transit I S → Prop
  | unwritten {error : PipelineError} {e : IpfsError} {ipfs : I}
    (put : (IpfsStore.putRaw (prependPathHeader articleBytes ctx.localHostname)).exec t.ipfs =
      (.error e, ipfs)) : RunOutcome articleBytes ctx t (.error (.error error), { t with ipfs })
  | panicked {panic : CharBoundaryPanic} {cid : Cid} {ipfs : I}
    (put : (IpfsStore.putRaw (prependPathHeader articleBytes ctx.localHostname)).exec t.ipfs =
      (.ok cid, ipfs))
    (parsed : parseMessageIdAndNewsgroups (prependPathHeader articleBytes ctx.localHostname) =
      .error panic) : RunOutcome articleBytes ctx t (.error (.panic panic), { t with ipfs })
  | unnamed {error : PipelineError} {cid : Cid} {ipfs : I}
    (put : (IpfsStore.putRaw (prependPathHeader articleBytes ctx.localHostname)).exec t.ipfs =
      (.ok cid, ipfs))
    (parsed : parseMessageIdAndNewsgroups (prependPathHeader articleBytes ctx.localHostname) =
      .ok none) : RunOutcome articleBytes ctx t (.error (.error error), { t with ipfs })
  | refused {error : PipelineError} {cid : Cid} {ipfs : I} {messageId : String}
    {names : List String} {msgidMap : MsgIdMap}
    (put : (IpfsStore.putRaw (prependPathHeader articleBytes ctx.localHostname)).exec t.ipfs =
      (.ok cid, ipfs))
    (parsed : parseMessageIdAndNewsgroups (prependPathHeader articleBytes ctx.localHostname) =
      .ok (some (messageId, names)))
    (failed : t.msgidMap.fault ≠ none ∨ t.msgidMap.Conflicts messageId cid)
    (rows : msgidMap.tables = t.msgidMap.tables) :
    RunOutcome articleBytes ctx t (.error (.error error),
      { t with ipfs := ((IpfsStore.delete cid).exec ipfs).2, msgidMap })
  | recorded {r : Except PipelineExit (PipelineResult × PipelineMetrics)} {cid : Cid} {ipfs : I}
    {messageId : String} {names : List String} {t' : Transit I S}
    (put : (IpfsStore.putRaw (prependPathHeader articleBytes ctx.localHostname)).exec t.ipfs =
      (.ok cid, ipfs))
    (parsed : parseMessageIdAndNewsgroups (prependPathHeader articleBytes ctx.localHostname) =
      .ok (some (messageId, names)))
    (answers : t.msgidMap.fault = none) (agrees : ¬ t.msgidMap.Conflicts messageId cid)
    (ipfs_eq : t'.ipfs = ipfs)
    (rows : t'.msgidMap.tables = t.msgidMap.tables.insertOrIgnore ⟨messageId, cid.toBytes⟩)
    (logs : t'.logStorage = ((appendToLogs ed ctx cid names).exec t.logStorage).2)
    (articles : t'.pool.tables = t.pool.tables ∨ ∃ row : ArticleRow, row.cid = cid.toString ∧
      t'.pool.tables = upsertArticle t.pool.tables row) :
    RunOutcome articleBytes ctx t (r, t')

theorem recordArticle_inserted {cid : Cid} {messageId : String} {names : List String} {msgidMap : MsgIdMap}
    (inserted : (insert messageId cid).exec t.msgidMap = (.ok (), msgidMap)) :
    Prog.Satisfies (recordArticle ed articleBytes ctx clock cid messageId names) t fun _ t' =>
      t'.ipfs = t.ipfs ∧ t'.msgidMap = msgidMap ∧
      t'.logStorage = ((appendToLogs ed ctx cid names).exec t.logStorage).2 ∧
      (t'.pool.tables = t.pool.tables ∨ ∃ row : ArticleRow, row.cid = cid.toString ∧
        t'.pool.tables = upsertArticle t.pool.tables row) := by
  have mapped : Prog.Satisfies (onMsgidMap (I := I) (S := S) (insert messageId cid)) t
      fun r t' => r = .ok () ∧ t' = { t with msgidMap } :=
    satisfies_zoom (R := fun r map => r = .ok () ∧ map = msgidMap)
      (by rw [Prog.Satisfies, inserted]; exact ⟨rfl, rfl⟩) fun r map same => ⟨same.1, by rw [same.2]⟩
  apply satisfies_bind_attempt mapped
  rintro _ _ ⟨rfl, rfl⟩
  have appended : Prog.Satisfies (onLogStorage (I := I)
      ((appendToLogs ed ctx cid names).mapError PipelineExit.error)) { t with msgidMap }
      fun _ t' => t' = { t with
        msgidMap, logStorage := ((appendToLogs ed ctx cid names).exec t.logStorage).2 } := by
    refine satisfies_zoom (satisfies_mapError_state
      (Q := (· = ((appendToLogs ed ctx cid names).exec t.logStorage).2)) rfl) ?_
    rintro _ _ rfl
    rfl
  apply satisfies_bind appended
  · rintro groups _ rfl
    apply satisfies_bind (R := fun _ (t' : Transit I S) => t'.ipfs = t.ipfs ∧
      t'.msgidMap = msgidMap ∧ t'.logStorage = ((appendToLogs ed ctx cid names).exec t.logStorage).2 ∧
      (t'.pool.tables = t.pool.tables ∨ ∃ row : ArticleRow, row.cid = cid.toString ∧
        t'.pool.tables = upsertArticle t.pool.tables row))
    · refine satisfies_zoom (satisfies_mapError_state
        (Q := fun pool => pool.tables = t.pool.tables ∨ ∃ row : ArticleRow, row.cid = cid.toString ∧
          pool.tables = upsertArticle t.pool.tables row) ?_) ?_
      · refine (AnyPool.transaction_outcome _ _).imp fun r pool outcome => ?_
        cases r with
        | error e => exact .inl outcome
        | ok _ => exact .inr ⟨_, rfl, outcome.2⟩
      · exact fun _ _ pool => ⟨rfl, rfl, rfl, pool⟩
    · exact fun _ _ h => h
    · exact fun _ _ h => h
  · rintro _ _ rfl
    exact ⟨rfl, rfl, rfl, .inl rfl⟩

theorem runPipeline_msgidMap {cid : Cid} {ipfs : I} {messageId : String} {names : List String}
    {msgidMap : MsgIdMap}
    (put : (putRaw (prependPathHeader articleBytes ctx.localHostname)).exec t.ipfs =
      (.ok cid, ipfs))
    (parsed : parseMessageIdAndNewsgroups (prependPathHeader articleBytes ctx.localHostname) =
      .ok (some (messageId, names)))
    (inserted : (insert messageId cid).exec t.msgidMap = (.ok (), msgidMap)) :
    ((runPipeline ed articleBytes ctx clock).exec t).2.msgidMap = msgidMap := by
  have recorded := @recordArticle_inserted ed I S _ _
    (prependPathHeader articleBytes ctx.localHostname) ctx clock { t with ipfs } cid messageId names
    msgidMap inserted
  rw [runPipeline_of_parsed ed put parsed]
  exact recorded.2.1

theorem runPipeline_outcome (articleBytes : Bytes) (ctx : PipelineCtx) (clock : PipelineClock)
    (t : Transit I S) :
    RunOutcome ed articleBytes ctx t ((runPipeline ed articleBytes ctx clock).exec t) := by
  rcases put : (putRaw (prependPathHeader articleBytes ctx.localHostname)).exec t.ipfs
    with ⟨e | cid, ipfs⟩
  · rw [runPipeline_eq, exec_bind, onIpfs, exec_zoom, exec_mapError, put]
    exact .unwritten put
  · rcases parsed : parseMessageIdAndNewsgroups (prependPathHeader articleBytes ctx.localHostname)
      with panic | _ | ⟨messageId, names⟩
    · rw [runPipeline_eq, exec_bind, onIpfs, exec_zoom, exec_mapError, put, parsed]
      exact .panicked put parsed
    · rw [runPipeline_eq, exec_bind, onIpfs, exec_zoom, exec_mapError, put, parsed]
      exact .unnamed put parsed
    · rw [runPipeline_of_parsed ed put parsed]
      rcases insert_cases messageId cid t.msgidMap with
        ⟨failed, e, msgidMap, insert, rows⟩ | ⟨⟨answers, agrees⟩, msgidMap, insert, rows⟩
      · rw [recordArticle, exec_bind, exec_attempt, onMsgidMap, exec_zoom, insert]
        exact .refused put parsed failed rows
      · obtain ⟨ipfs_eq, map_eq, logs, articles⟩ := @recordArticle_inserted ed I S _ _
          (prependPathHeader articleBytes ctx.localHostname) ctx clock { t with ipfs } cid messageId
          names msgidMap insert
        exact .recorded put parsed answers agrees ipfs_eq (map_eq ▸ rows) logs articles

/-- What a returned run has done: it has named the article by its bytes, read its groups, and
appended to their logs. -/
theorem runPipeline_returned {t' : Transit I S} {result : PipelineResult} {metrics : PipelineMetrics}
    (run : (runPipeline ed articleBytes ctx clock).exec t = (.ok (result, metrics), t')) :
    ∃ messageId names appended,
      parseMessageIdAndNewsgroups (prependPathHeader articleBytes ctx.localHostname) =
        .ok (some (messageId, names)) ∧
      result.cid = rawCid (prependPathHeader articleBytes ctx.localHostname) ∧
      (appendToLogs ed ctx result.cid names).exec t.logStorage = (.ok appended, t'.logStorage) ∧
      result.groups = appended.map Prod.fst := by
  obtain ⟨cid, t₁, put, afterPut⟩ := of_exec_bind_ok run
  obtain ⟨ipfs, written, rfl⟩ := of_exec_zoom put
  have named := putRaw_returns _ _ _ _ (of_exec_mapError_ok written)
  split at afterPut
  · cases afterPut
  · cases afterPut
  · rename_i messageId names parsed
    obtain ⟨mapped, t₂, insert, afterMap⟩ := of_exec_bind_ok afterPut
    rw [exec_attempt] at insert
    cases insert
    split at afterMap
    · obtain ⟨_, _, _, failed⟩ := of_exec_bind_ok afterMap
      cases failed
    · obtain ⟨appended, t₃, onLogs, afterLogs⟩ := of_exec_bind_ok afterMap
      obtain ⟨logStorage, logs, rfl⟩ := of_exec_zoom onLogs
      obtain ⟨_, t₄, record, done⟩ := of_exec_bind_ok afterLogs
      obtain ⟨pool, _, rfl⟩ := of_exec_zoom record
      cases done
      exact ⟨messageId, names, appended, parsed, named, of_exec_mapError_ok logs, rfl⟩

theorem runPipeline_log {Q : S → Prop} (start : Q t.logStorage)
    (logs : ∀ names, Prog.Satisfies (appendToLogs ed ctx
      (rawCid (prependPathHeader articleBytes ctx.localHostname)) names) t.logStorage fun _ s' => Q s') :
    Prog.Satisfies (runPipeline ed articleBytes ctx clock) t fun _ t' => Q t'.logStorage := by
  have put : Prog.Satisfies (onIpfs (S := S) ((putRaw (prependPathHeader articleBytes
      ctx.localHostname)).mapError fun e => transient "IPFS write failed: " e.toString)) t
      fun r t' => t'.logStorage = t.logStorage ∧ ∀ cid, r = .ok cid →
        cid = rawCid (prependPathHeader articleBytes ctx.localHostname) := by
    refine ⟨rfl, fun cid returned => ?_⟩
    obtain ⟨ipfs, written, _⟩ := of_exec_zoom (Prod.ext returned rfl)
    exact putRaw_returns _ _ _ _ (of_exec_mapError_ok written)
  apply satisfies_bind put
  · rintro cid t₁ ⟨same₁, named⟩
    obtain rfl := named cid rfl
    split
    · exact satisfies_throw (same₁ ▸ start)
    · exact satisfies_throw (same₁ ▸ start)
    · rename_i messageId names _
      have mapped : Prog.Satisfies (onMsgidMap (insert messageId
          (rawCid (prependPathHeader articleBytes ctx.localHostname)))) t₁ fun _ t' =>
          t'.logStorage = t.logStorage := same₁
      apply satisfies_bind_attempt mapped
      rintro r t₂ same₂
      rcases r with e | ⟨⟩
      · have deleted : Prog.Satisfies (onIpfs (delete
            (rawCid (prependPathHeader articleBytes ctx.localHostname)))) t₂ fun _ t' =>
            t'.logStorage = t.logStorage := same₂
        apply satisfies_bind_attempt deleted
        exact fun _ t₃ same₃ => satisfies_throw (same₃ ▸ start)
      · have appended := satisfies_mapError_state (f := PipelineExit.error) (logs names)
        rw [← same₂] at appended
        have onLog : Prog.Satisfies (onLogStorage (I := I) ((appendToLogs ed ctx _ names).mapError
            PipelineExit.error)) t₂ fun _ t' => Q t'.logStorage :=
          satisfies_zoom appended fun _ _ kept => kept
        apply satisfies_bind onLog
        · intro appendedGroups t₃ kept
          have recorded (x : Prog (AnyPool (Table ArticleRow ArticleRow.cid)) PipelineExit Unit) :
              Prog.Satisfies (onPool x) t₃ fun _ t' => Q t'.logStorage := kept
          apply satisfies_bind (recorded _)
          · exact fun _ _ kept => satisfies_pure kept
          · exact fun _ _ kept => kept
        · exact fun _ _ kept => kept
  · exact fun _ t₁ ⟨same₁, _⟩ => same₁ ▸ start

end Run

section Spec

variable {ed : Ed25519} {S : Type} [LogStorage S] [LawfulLogStorage S]

open LawfulLogStorage

theorem checkSignature_articleEntry (key : SigningKey) (timestamp : HlcTimestamp) (cid : Cid)
    (tipIds : List LogEntryId) :
    checkSignature ed (articleEntry ed key timestamp cid tipIds) (ed.verifyingKey key) = .ok () :=
  checkSignature_sign key rfl

@[simp] theorem parentIds_articleEntry (key : SigningKey) (timestamp : HlcTimestamp) (cid : Cid)
    (tipIds : List LogEntryId) :
    parentIdsFromEntry (articleEntry ed key timestamp cid tipIds) = tipIds := by
  simp [parentIdsFromEntry, articleEntry, List.filterMap_map]

theorem fromEntry_articleEntry_perm {key : SigningKey} {timestamp : HlcTimestamp} {cid : Cid}
    {tips tips' : List LogEntryId} (perm : tips.Perm tips') :
    fromEntry (articleEntry ed key timestamp cid tips) =
      fromEntry (articleEntry ed key timestamp cid tips') := by
  have parents := (sortedParentBytes_eq_iff _ _).mpr (perm.map toCid)
  simp only [fromEntry, articleEntry, logEntryCanonicalBytes, entryIdBytes, parents]

/-- What appending an article to the log of `g` does: nothing, or an append on top of the tips. -/
structure LogOutcome (ed : Ed25519) (ctx : PipelineCtx) (cid : Cid) (g : GroupName) (s : S)
    (r : Except PipelineError (Option LogEntryId)) (s' : S) : Prop where
  stays_healthy : Healthy s → Healthy s'
  completes : ∃ appended, r = .ok appended
  skipped : r = .ok none → log s' = log s
  returned : ∀ id, r = .ok (some id) →
    let e := articleEntry ed ctx.operatorSigningKey ctx.timestamp cid ((log s).tips g)
    id = LogEntryId.fromEntry e ∧
      ((log s).Stored id ∧ log s' = log s ∨ AppendedTo (log s) (log s') g e)
  succeeds : Healthy s →
    Storable S (articleEntry ed ctx.operatorSigningKey ctx.timestamp cid ((log s).tips g)) →
    (∀ t ∈ (log s).tips g, (log s).Stored t) → ∃ id, r = .ok (some id)

theorem appendToLog_outcome (ctx : PipelineCtx) (cid : Cid) (g : GroupName) (s : S) :
    Prog.Satisfies (appendToLog ed ctx cid g) s (LogOutcome ed ctx cid g s) := by
  unfold appendToLog
  apply satisfies_bind_attempt (listTips_outcome s g)
  intro r s₁ read
  cases r with
  | error e =>
    apply satisfies_pure
    exact ⟨read.stays_healthy, ⟨none, rfl⟩, fun _ => read.log_eq, nofun,
      fun healthy => absurd healthy (read.failed e rfl)⟩
  | ok tipIds =>
    obtain rfl := read.returned tipIds rfl
    dsimp only
    rw [verifySignature_of_check (checkSignature_articleEntry _ _ _ _)]
    apply satisfies_bind_attempt (append_outcome s₁ g _)
    intro r s₂ outcome
    cases r with
    | error e =>
      apply satisfies_pure
      refine ⟨fun h => outcome.stays_healthy (read.stays_healthy h), ⟨none, rfl⟩,
        fun _ => (outcome.failed e rfl).trans read.log_eq, nofun, ?_⟩
      intro healthy storable stored
      have parents : ParentsStored (log s₁)
          (articleEntry ed ctx.operatorSigningKey ctx.timestamp cid ((log s).tips g)).parentCids := by
        intro c member
        obtain ⟨t, tip, rfl⟩ := List.mem_map.mp member
        exact ⟨t, ofCid_toCid t, read.log_eq ▸ stored t tip⟩
      obtain ⟨id, ok⟩ := outcome.succeeds (read.stays_healthy healthy) storable parents
      cases ok
    | ok entryId =>
      apply satisfies_pure
      refine ⟨fun h => outcome.stays_healthy (read.stays_healthy h), ⟨_, rfl⟩, nofun, ?_,
        fun _ _ _ => ⟨entryId, rfl⟩⟩
      rintro id ⟨⟩
      have returned := outcome.returned entryId rfl
      rwa [read.log_eq] at returned

end Spec

end Stoa
