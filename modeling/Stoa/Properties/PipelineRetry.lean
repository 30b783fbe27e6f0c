import Stoa.Lib.Runs
import Stoa.Properties.Crossposts

/-!
- `atMostOnce_of_single_pass`: if at most one attempt gets past the Message-ID map, every log
  has at most one entry for the article, at any time.
-/
namespace Stoa

open LawfulLogStorage Relation LogEntryId PipelineCall

/-- An entry for the article in the log of `g`. -/
structure LogView.EntryFor (v : LogView) (g : GroupName) (cid : Cid) (id : LogEntryId) : Prop where
  reached : ∃ tip ∈ v.tips g, v.Reaches tip id
  about : ∃ e, v.entry id = some e ∧ e.articleCid = cid

def LogView.AtMostOnce (v : LogView) (cid : Cid) : Prop :=
  ∀ g id id', v.EntryFor g cid id → v.EntryFor g cid id' → id = id'

/-- Nothing of the log is missing: neither a tip nor a parent. -/
structure LogView.Whole (v : LogView) : Prop where
  closed : v.AncestorClosed
  tips : ∀ g, ∀ tip ∈ v.tips g, v.Stored tip

section Append

variable {v v' : LogView} {g : GroupName} {e : LogEntry} {cid : Cid}

theorem AppendedTo.reaches_old (appended : AppendedTo v v' g e) (whole : v.Whole)
    {a b : LogEntryId} (stored : v.Stored a) (path : v'.Reaches a b) : v.Reaches a b ∧ v.Stored b := by
  have edges : ∀ a b, v.Stored a → v'.ParentEdge a b → v.ParentEdge a b := by
    rintro a b stored ⟨e', found, parent⟩
    have other : a ≠ fromEntry e := by
      rintro rfl
      exact LogView.not_stored_iff.mpr appended.absent stored
    exact ⟨e', appended.entry_of_ne other ▸ found, parent⟩
  have closed : Graph.Closed v'.ParentEdge v.Stored :=
    fun a b stored edge => whole.closed a b stored (edges a b stored edge)
  exact ⟨closed.reach_mono edges stored path, closed.reach stored path⟩

theorem AppendedTo.entryFor (appended : AppendedTo v v' g e) (whole : v.Whole)
    (onTips : parentIdsFromEntry e = v.tips g) {h : GroupName} {id : LogEntryId}
    (entry : v'.EntryFor h cid id) : v.EntryFor h cid id ∨ h = g ∧ id = fromEntry e := by
  obtain ⟨⟨tip, isTip, path⟩, about⟩ := entry
  -- What an old tip reaches is an old entry.
  have old {start : LogEntryId} (start_mem : start ∈ v.tips h) (path : v'.Reaches start id) :
      v.EntryFor h cid id := by
    obtain ⟨before, stored⟩ := appended.reaches_old whole (whole.tips h start start_mem) path
    have other : id ≠ fromEntry e := by
      rintro rfl
      exact LogView.not_stored_iff.mpr appended.absent stored
    exact ⟨⟨start, start_mem, before⟩, by rwa [appended.entry_of_ne other] at about⟩
  by_cases here : h = g
  · subst here
    rcases appended.mem_tips.mp isTip with rfl | ⟨oldTip, -⟩
    · rcases ReflTransGen.cases_head path with rfl | ⟨parent, edge, rest⟩
      · exact .inr ⟨rfl, rfl⟩
      · have isParent := (appended.parentEdge_iff parent).mp edge
        exact .inl (old (onTips ▸ isParent) rest)
    · exact .inl (old oldTip path)
  · exact .inl (old (appended.tips_of_ne here ▸ isTip) path)

theorem AppendedTo.whole (appended : AppendedTo v v' g e) (whole : v.Whole) : v'.Whole := by
  constructor
  · intro a b stored edge
    rcases appended.stored_cases stored with old | rfl
    · exact appended.stored_mono (appended.reaches_old whole old (.single edge)).2
    · have isParent := (appended.parentEdge_iff b).mp edge
      exact appended.stored_mono (appended.parents.stored isParent)
  · intro h tip isTip
    by_cases here : h = g
    · subst here
      rcases appended.mem_tips.mp isTip with rfl | ⟨oldTip, -⟩
      · exact appended.stored_new
      · exact appended.stored_mono (whole.tips h tip oldTip)
    · rw [appended.tips_of_ne here] at isTip
      exact appended.stored_mono (whole.tips h tip isTip)

theorem AppendedTo.entryFor_new (appended : AppendedTo v v' g e) :
    v'.EntryFor g e.articleCid (fromEntry e) :=
  ⟨⟨_, appended.mem_tips.mpr (.inl rfl), .refl⟩, appended.entry_new⟩

theorem AppendedTo.entryFor_old (appended : AppendedTo v v' g e)
    (onTips : parentIdsFromEntry e = v.tips g) {id : LogEntryId} (entry : v.EntryFor g cid id) :
    v'.EntryFor g cid id := by
  have persists {a : LogEntryId} {e' : LogEntry} (found : v.entry a = some e') :
      v'.entry a = some e' := by
    rw [appended.entry_of_ne, found]
    rintro rfl
    simp [appended.absent] at found
  obtain ⟨⟨tip, isTip, path⟩, e', found, about⟩ := entry
  refine ⟨⟨fromEntry e, appended.mem_tips.mpr (.inl rfl), ?_⟩, e', persists found, about⟩
  -- The old tips are the parents of the new entry.
  refine .head ((appended.parentEdge_iff tip).mpr (onTips ▸ isTip)) ?_
  refine ReflTransGen.mono ?_ tip id path
  rintro a b ⟨e', found, parent⟩
  exact ⟨e', persists found, parent⟩

end Append

section Attempt

variable {ed : Ed25519} {S : Type} [LogStorage S] [LawfulLogStorage S] {ctx : PipelineCtx}
  {cid : Cid}

def LogView.Without (v : LogView) (groups : List GroupName) (cid : Cid) : Prop :=
  ∀ g ∈ groups, ∀ id, ¬ v.EntryFor g cid id

/-- Appending to a log without the article: it has the article once at most, and the other logs
have nothing new of it. -/
theorem LogOutcome.atMostOnce {g : GroupName} {s s' : S}
    {r : Except PipelineError (Option LogEntryId)} (outcome : LogOutcome ed ctx cid g s r s')
    (whole : (log s).Whole) (once : (log s).AtMostOnce cid) (free : ∀ id, ¬ (log s).EntryFor g cid id) :
    (log s').Whole ∧ (log s').AtMostOnce cid ∧
      ∀ h, h ≠ g → ∀ id, (log s').EntryFor h cid id → (log s).EntryFor h cid id := by
  have unchanged (same : log s' = log s) : (log s').Whole ∧ (log s').AtMostOnce cid ∧
      ∀ h, h ≠ g → ∀ id, (log s').EntryFor h cid id → (log s).EntryFor h cid id := by
    rw [same]
    exact ⟨whole, once, fun _ _ _ entry => entry⟩
  obtain ⟨appended, rfl⟩ := outcome.completes
  cases appended with
  | none => exact unchanged (outcome.skipped rfl)
  | some id =>
    obtain ⟨rfl, ⟨-, same⟩ | written⟩ := outcome.returned id rfl
    · exact unchanged same
    · have entries {h : GroupName} {id : LogEntryId} := @AppendedTo.entryFor _ _ _ _ cid written whole
        (parentIds_articleEntry _ _ _ _) h id
      refine ⟨written.whole whole, fun h id id' first second => ?_, fun h other id entry => ?_⟩
      · by_cases here : h = g
        · subst here
          have new {id : LogEntryId} (entry : (log s').EntryFor h cid id) :=
            ((entries entry).resolve_left (free id)).2
          rw [new first, new second]
        · have old {id : LogEntryId} (entry : (log s').EntryFor h cid id) :=
            (entries entry).resolve_right fun new => here new.1
          exact once h id id' (old first) (old second)
      · exact (entries entry).resolve_right fun new => other new.1

theorem appendToLogs_atMostOnce (names : List String) (s : S) (whole : (log s).Whole)
    (once : (log s).AtMostOnce cid) (distinct : (groupsOf ctx names).Nodup)
    (without : (log s).Without (groupsOf ctx names) cid) :
    Prog.Satisfies (appendToLogs ed ctx cid names) s fun _ s' =>
      (log s').Whole ∧ (log s').AtMostOnce cid := by
  induction names generalizing s with
  | nil => exact Prog.satisfies_pure ⟨whole, once⟩
  | cons name rest ih =>
    rw [appendToLogs]
    cases accepted : acceptedGroup ctx.groupFilter name with
    | none =>
      rw [groupsOf, List.filterMap_cons_none accepted] at distinct without
      exact ih s whole once distinct without
    | some g =>
      rw [groupsOf, List.filterMap_cons_some accepted] at distinct without
      rw [List.nodup_cons] at distinct
      obtain ⟨free, later⟩ := List.forall_mem_cons.mp without
      have first : Prog.Satisfies (appendToLog ed ctx cid g) s fun _ s' => (log s').Whole ∧
          (log s').AtMostOnce cid ∧ (log s').Without (groupsOf ctx rest) cid := by
        refine (appendToLog_outcome ctx cid g s).imp fun r s' outcome => ?_
        obtain ⟨whole', once', others⟩ := outcome.atMostOnce whole once free
        refine ⟨whole', once', fun h member id entry => later h member id (others h ?_ id entry)⟩
        rintro rfl
        exact distinct.1 member
      apply Prog.satisfies_bind first
      · rintro appended s₁ ⟨whole₁, once₁, without₁⟩
        apply Prog.satisfies_bind (ih s₁ whole₁ once₁ distinct.2 without₁)
        · intro later s₂ kept
          cases appended with
          | none => exact Prog.satisfies_pure kept
          | some id => exact Prog.satisfies_pure kept
        · exact fun _ _ kept => kept
      · exact fun _ _ kept => ⟨kept.1, kept.2.1⟩

theorem appendToLogs_single {name : String} {g : GroupName} {s : S}
    (accepted : acceptedGroup ctx.groupFilter name = some g) (healthy : Healthy s) (storable : Storable S
      (articleEntry ed ctx.operatorSigningKey ctx.timestamp cid ((log s).tips g)))
    (whole : (log s).Whole) (new : ¬ (log s).Stored (fromEntry
      (articleEntry ed ctx.operatorSigningKey ctx.timestamp cid ((log s).tips g)))) :
    AppendedTo (log s) (log ((appendToLogs ed ctx cid [name]).exec s).2) g
      (articleEntry ed ctx.operatorSigningKey ctx.timestamp cid ((log s).tips g)) := by
  have outcome := @appendToLog_outcome ed S _ _ ctx cid g s
  obtain ⟨id, ok⟩ := outcome.succeeds healthy storable (whole.tips g)
  obtain ⟨rfl, ⟨stored, -⟩ | written⟩ := outcome.returned id ok
  · exact absurd stored new
  · have run : ((appendToLogs ed ctx cid [name]).exec s).2 = ((appendToLog ed ctx cid g).exec s).2 := by
      simp only [appendToLogs, accepted, Prog.exec_bind]
      rcases (appendToLog ed ctx cid g).exec s with ⟨e | appended, s'⟩
      · rfl
      · cases appended <;> rfl
    rwa [run]

end Attempt

section Sequence

variable {ed : Ed25519} {I S : Type} [IpfsStore I] [LogStorage S] [LawfulLogStorage S]

/-- An attempt for the article, or whatever else happens to the stores in between. -/
inductive RetryOp (I S : Type)
  | attempt (call : PipelineCall)
  | other (next : Transit I S)

/-- The attempt gets past the Message-ID map: its block is written, its header has a Message-ID, and
the map has no error and no other CID for it. -/
def passes (call : PipelineCall) (t : Transit I S) : Bool :=
  match ((IpfsStore.putRaw call.stored).exec t.ipfs).1, parseMessageIdAndNewsgroups call.stored with
  | .ok cid, .ok (some (messageId, _)) =>
    t.msgidMap.fault.isNone && !decide (t.msgidMap.Conflicts messageId cid)
  | _, _ => false

/-- The stores, and whether an attempt has got past the Message-ID map. -/
structure RetryState (I S : Type) where
  transit : Transit I S
  passed : Bool

def retryStep (ed : Ed25519) (op : RetryOp I S) (s : RetryState I S) : Unit × RetryState I S :=
  match op with
  | .attempt call => ((), ⟨((runPipeline ed call.articleBytes call.ctx call.clock).exec s.transit).2,
      s.passed || passes call s.transit⟩)
  | .other next => ((), ⟨next, s.passed⟩)

omit [LawfulLogStorage S] in
theorem retryStep_transit (ed : Ed25519) (call : PipelineCall) (s : RetryState I S) :
    (retryStep ed (.attempt call) s).2.transit =
      ((runPipeline ed call.articleBytes call.ctx call.clock).exec s.transit).2 := rfl

/-- What happens in between leaves whole logs and adds no entry for the article to any of them. -/
structure Unrelated (cid : Cid) (v v' : LogView) : Prop where
  whole : v'.Whole
  entries : ∀ g id, v'.EntryFor g cid id → v.EntryFor g cid id

def ForArticle (stored : Bytes) (op : RetryOp I S) (s : RetryState I S) : Prop :=
  match op with
  | .attempt call => call.stored = stored
  | .other next => Unrelated (rawCid stored) (log s.transit.logStorage) (log next.logStorage)

/-- An attempt that gets past the Message-ID map is the first, and names no group twice. -/
def PassesOnce (op : RetryOp I S) (s : RetryState I S) : Prop :=
  match op with
  | .attempt call => passes call s.transit = true → s.passed = false ∧
      (articleGroups call.ctx call.articleBytes).Nodup
  | .other _ => True

structure RetryInv (cid : Cid) (s : RetryState I S) : Prop where
  whole : (log s.transit.logStorage).Whole
  once : (log s.transit.logStorage).AtMostOnce cid
  fresh : s.passed = false → ∀ g id, ¬ (log s.transit.logStorage).EntryFor g cid id

omit [LogStorage S] [LawfulLogStorage S] in
theorem passes_of_recorded {call : PipelineCall} {t : Transit I S} {cid : Cid} {ipfs : I}
    {messageId : String} {names : List String}
    (put : (IpfsStore.putRaw call.stored).exec t.ipfs = (.ok cid, ipfs))
    (parsed : parseMessageIdAndNewsgroups call.stored = .ok (some (messageId, names)))
    (answers : t.msgidMap.fault = none) (agrees : ¬ t.msgidMap.Conflicts messageId cid) :
    passes call t = true := by
  simp [passes, put, parsed, answers, agrees]

theorem RetryInv.step {stored : Bytes} {op : RetryOp I S} {s : RetryState I S}
    (inv : RetryInv (rawCid stored) s) (article : ForArticle stored op s) (once : PassesOnce op s) :
    RetryInv (rawCid stored) (retryStep ed op s).2 := by
  cases op with
  | other next =>
    exact ⟨article.whole, fun g id id' first second => inv.once g id id' (article.entries g id first)
      (article.entries g id' second), fun fresh g id entry => inv.fresh fresh g id
      (article.entries g id entry)⟩
  | attempt call =>
    obtain rfl : call.stored = stored := article
    have outcome := runPipeline_outcome ed call.articleBytes call.ctx call.clock s.transit
    rw [retryStep]
    generalize (runPipeline ed call.articleBytes call.ctx call.clock).exec s.transit = run at outcome
    have earlier : (s.passed || passes call s.transit) = false → s.passed = false := by simp_all
    -- Unless the article is recorded the logs are as they were.
    cases outcome with
    | unwritten => exact ⟨inv.whole, inv.once, fun fresh => inv.fresh (earlier fresh)⟩
    | panicked => exact ⟨inv.whole, inv.once, fun fresh => inv.fresh (earlier fresh)⟩
    | unnamed => exact ⟨inv.whole, inv.once, fun fresh => inv.fresh (earlier fresh)⟩
    | refused => exact ⟨inv.whole, inv.once, fun fresh => inv.fresh (earlier fresh)⟩
    | recorded put parsed answers agrees ipfs_eq rows logs articles =>
      have passing := passes_of_recorded put parsed answers agrees
      obtain ⟨first, distinct⟩ := once passing
      rw [articleGroups_of_parsed parsed] at distinct
      obtain rfl := IpfsStore.putRaw_returns _ _ _ _ put
      have appended := @appendToLogs_atMostOnce ed S _ _ call.ctx _ _ _ inv.whole inv.once distinct
        fun g _ id => inv.fresh first g id
      rw [Prog.Satisfies, stored, ← logs] at appended
      exact ⟨appended.1, appended.2, by simp [passing]⟩

end Sequence

namespace Transit.Sample

open Stoa.Sample (key pubkey group)

def retryCall (wallMs : UInt64) : PipelineCall :=
  ⟨Text.asBytes "Message-ID: <1@a>\r\nNewsgroups: comp.test\r\n\r\n",
    ⟨.ofWallMs wallMs, key, "a", none⟩, ⟨0, 0⟩⟩

def retryCid : Cid := rawCid (retryCall 3000).stored

def firstSignature : Signature := .ofNumber 64
  0x05dee651b00b2d0762bb1750f38905f051e885010330053b4dee123f71a6041eace1618695d50430700bbb7882753e537e820ffb5a49b25c8bef37516cea330b

def firstId : LogEntryId := .fromEntry ⟨.ofWallMs 3000, retryCid, firstSignature.toBytes, []⟩

def retryEd : Ed25519 := .ofSignatures key pubkey
  [(logEntryCanonicalBytes 3000 retryCid [], firstSignature),
   (logEntryCanonicalBytes 4000 retryCid [firstId.toCid], .ofNumber 64
    0xe30582835dde6e4a606022ecd7d3ca7bef0c2df6117a871cc1a43fb689c5d65a86f4ac85ec8f497529f6e5e6b51e25975f43851d6e8441ea8d33b93ea9317609)]

/-- Empty stores; the first write to the articles table fails. -/
def retryStart : RetryState MemIpfsStore MemLogStorage :=
  ⟨⟨.new, .new, .new, ⟨Table.empty, [some "locked"]⟩⟩, false⟩

theorem stored_retry (wallMs : UInt64) : (retryCall wallMs).stored = (retryCall 3000).stored := rfl

theorem parsed_retry (wallMs : UInt64) : parseMessageIdAndNewsgroups (retryCall wallMs).stored =
    .ok (some ("<1@a>", ["comp.test"])) := by
  rw [stored_retry]
  rfl

theorem accepted_retry : acceptedGroup none "comp.test" = some group := by rfl

theorem articleGroups_retry (wallMs : UInt64) :
    articleGroups (retryCall wallMs).ctx (retryCall wallMs).articleBytes = [group] := by
  rw [articleGroups_of_parsed (parsed_retry wallMs)]
  exact List.filterMap_cons_some accepted_retry

theorem retry_ids_differ : fromEntry (articleEntry retryEd key (.ofWallMs 3000) retryCid []) ≠
      fromEntry (articleEntry retryEd key (.ofWallMs 4000) retryCid
        [fromEntry (articleEntry retryEd key (.ofWallMs 3000) retryCid [])]) := by
  decide +kernel

theorem appended_retry {wallMs : UInt64} {s : RetryState MemIpfsStore MemLogStorage}
    (passing : passes (retryCall wallMs) s.transit = true) (whole : (log s.transit.logStorage).Whole)
    (new : ¬ (log s.transit.logStorage).Stored (fromEntry (articleEntry retryEd key
      (.ofWallMs wallMs) retryCid ((log s.transit.logStorage).tips group)))) :
    AppendedTo (log s.transit.logStorage)
      (log (retryStep retryEd (.attempt (retryCall wallMs)) s).2.transit.logStorage) group
      (articleEntry retryEd key (.ofWallMs wallMs) retryCid ((log s.transit.logStorage).tips group)) := by
  have outcome := runPipeline_outcome retryEd (retryCall wallMs).articleBytes (retryCall wallMs).ctx
    (retryCall wallMs).clock s.transit
  rw [retryStep]
  generalize (runPipeline retryEd (retryCall wallMs).articleBytes (retryCall wallMs).ctx
    (retryCall wallMs).clock).exec s.transit = run at outcome
  have headers := parsed_retry wallMs
  rw [stored] at headers
  cases outcome with
  | unwritten put => simp [passes, stored, put] at passing
  | panicked put parsed => simp [headers] at parsed
  | unnamed put parsed => simp [headers] at parsed
  | refused put parsed failed rows =>
    obtain ⟨rfl, rfl⟩ : "<1@a>" = _ ∧ ["comp.test"] = _ := by simpa [headers] using parsed
    rcases failed with fault | conflict
    · simp [passes, stored, put, headers, fault] at passing
    · simp [passes, stored, put, headers, conflict] at passing
  | recorded put parsed answers agrees ipfs_eq rows logs articles =>
    obtain ⟨rfl, rfl⟩ : "<1@a>" = _ ∧ ["comp.test"] = _ := by simpa [headers] using parsed
    obtain rfl := IpfsStore.putRaw_returns _ _ _ _ put
    have appended := @appendToLogs_single retryEd MemLogStorage _ _ (retryCall wallMs).ctx retryCid
      "comp.test" group s.transit.logStorage accepted_retry trivial trivial whole new
    rw [logs]
    exact appended

theorem put_retry (wallMs : UInt64) (s : MemIpfsStore) :
    ∃ s', (IpfsStore.putRaw (retryCall wallMs).stored).exec s = (.ok retryCid, s') := ⟨_, rfl⟩

theorem passes_retry {wallMs : UInt64} {t : Transit MemIpfsStore MemLogStorage}
    (answers : t.msgidMap.fault = none) (agrees : ¬ t.msgidMap.Conflicts "<1@a>" retryCid) :
    passes (retryCall wallMs) t = true := by
  obtain ⟨s', put⟩ := put_retry wallMs t.ipfs
  exact passes_of_recorded put (parsed_retry wallMs) answers agrees

theorem after_retry : (retryStep retryEd (.attempt (retryCall 3000)) retryStart).2.transit.msgidMap =
      ⟨Table.empty.insertOrIgnore ⟨"<1@a>", retryCid.toBytes⟩, []⟩ := by
  obtain ⟨s', put⟩ := put_retry 3000 retryStart.transit.ipfs
  have inserted := @MsgIdMap.insert_new retryStart.transit.msgidMap "<1@a>" retryCid rfl
    (by simp [MsgIdMap.Known, retryStart, MsgIdMap.new, Table.empty])
  have state := @runPipeline_msgidMap retryEd MemIpfsStore MemLogStorage _ _ (retryCall 3000).articleBytes
    (retryCall 3000).ctx (retryCall 3000).clock retryStart.transit retryCid s' "<1@a>"
    ["comp.test"] _ put (parsed_retry 3000) inserted
  rw [retryStep_transit, state, retryStart, MsgIdMap.new, List.tail_nil]

theorem not_stored_retryStart (id : LogEntryId) : ¬ (log retryStart.transit.logStorage).Stored id := by
  rw [LogView.not_stored_iff]
  rfl

theorem tips_retryStart (g : GroupName) : (log retryStart.transit.logStorage).tips g = [] := rfl

theorem whole_retryStart : (log retryStart.transit.logStorage).Whole := by
  refine ⟨fun a b stored _ => absurd stored (not_stored_retryStart a), fun g tip isTip => ?_⟩
  rw [tips_retryStart] at isTip
  cases isTip

theorem passes_retryStart : passes (retryCall 3000) retryStart.transit = true :=
  passes_retry rfl (by simp [MsgIdMap.Conflicts, retryStart, MsgIdMap.new, Table.empty])

end Transit.Sample

end Stoa
