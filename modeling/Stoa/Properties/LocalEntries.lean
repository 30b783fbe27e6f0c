import Stoa.Core.GroupLog.RecordedStorage
import Stoa.Properties.Crossposts
import Stoa.Reader.LogAppend

/-! The transit daemon and the reader sign the entries they append, and `verify_entry` is what a
peer holds them against. -/
namespace Stoa

open LawfulLogStorage RecordedLogStorage List Prog LogEntryId Records

section General

variable {ed : Ed25519} {I S : Type} [IpfsStore I] [LogStorage S] [LawfulLogStorage S]

inductive WriteCall
  | runPipeline (articleBytes : Bytes) (timestamp : HlcTimestamp) (localHostname : String)
    (groupFilter : GroupPolicy) (clock : PipelineClock)
  | appendToGroups (hlcTimestamps : List UInt64) (articleCid : Cid) (newsgroups : List GroupName)
    (source : InjectionSource)

structure Node (I S : Type) where
  transit : Transit I S
  articleNumbers : ArticleNumberStore

namespace WriteCall

def after (ed : Ed25519) (key : SigningKey) : WriteCall → Node I S → Node I S
  | .runPipeline articleBytes timestamp localHostname groupFilter clock, n =>
    { n with transit := ((Stoa.runPipeline ed articleBytes
        ⟨timestamp, key, localHostname, groupFilter⟩ clock).exec n.transit).2 }
  | .appendToGroups hlcTimestamps articleCid newsgroups source, n =>
    let reader := ((Stoa.appendToGroups ed hlcTimestamps articleCid key newsgroups source).exec
      (⟨n.transit.logStorage, n.articleNumbers⟩ : Reader S)).2
    ⟨{ n.transit with logStorage := reader.logStorage }, reader.articleNumbers⟩

def articleCid : WriteCall → Cid
  | .runPipeline articleBytes _ localHostname _ _ =>
    rawCid (prependPathHeader articleBytes localHostname)
  | .appendToGroups _ articleCid _ _ => articleCid

def timestamps : WriteCall → List HlcTimestamp
  | .runPipeline _ timestamp _ _ _ => [timestamp]
  | .appendToGroups hlcTimestamps _ _ _ => hlcTimestamps.map HlcTimestamp.ofWallMs

end WriteCall

def Accepted (ed : Ed25519) (key : SigningKey) (r : AppendRecord S) : Prop :=
  ((verifyEntry ed r.entry r.id (ed.verifyingKey key)).exec r.before).1 = .ok ()

/-- `r` is the append of an entry for the article `cid`, on the tips of its group. -/
structure Produced (ed : Ed25519) (key : SigningKey) (cid : Cid) (timestamps : List HlcTimestamp)
    (r : AppendRecord S) : Prop where
  healthy : Healthy r.before
  timestamp : r.entry.hlcTimestamp ∈ timestamps
  id : r.id = LogEntryId.fromEntry r.entry
  entry : r.entry =
    articleEntry ed key r.entry.hlcTimestamp cid ((log r.before).tips r.group)
  parents : ParentsStored (log r.before) r.entry.parentCids

def TipsEarlier (r : AppendRecord S) : Prop :=
  ∀ tip ∈ (log r.before).tips r.group, ∀ e ∈ (log r.before).entry tip,
    r.entry.hlcTimestamp.le e.hlcTimestamp = false

variable {timestamps : List HlcTimestamp}

theorem Produced.accepted_iff {key : SigningKey} {cid : Cid}
    {r : AppendRecord S} (produced : Produced ed key cid timestamps r) :
    Accepted ed key r ↔ cid.codec = 0x71 ∧
      ((log r.before).tips r.group).length ≤ maxParentCids ∧ TipsEarlier r := by
  have cids : r.entry.parentCids = ((log r.before).tips r.group).map toCid := by
    rw [produced.entry]
    rfl
  have article : r.entry.articleCid = cid := by
    rw [produced.entry]
    rfl
  have signed : checkSignature ed r.entry (ed.verifyingKey key) = .ok () := by
    rw [produced.entry]
    exact checkSignature_articleEntry _ _ _ _
  -- The parents are the tips, which the append has found stored.
  have earlier : (∀ c ∈ r.entry.parentCids, ParentBefore (log r.before) r.entry c) ↔
      TipsEarlier r := by
    rw [cids, forall_mem_map]
    refine forall₂_congr fun tip isTip => ?_
    constructor
    · rintro ⟨p, e, names, found, later⟩ e' found'
      cases (ofCid_toCid tip).symm.trans names
      cases found.symm.trans found'
      exact later
    · intro later
      obtain ⟨p, names, stored⟩ := produced.parents tip.toCid
        (cids ▸ mem_map_of_mem isTip)
      cases (ofCid_toCid tip).symm.trans names
      obtain ⟨e, found⟩ := LogView.stored_iff.mp stored
      exact ⟨tip, e, ofCid_toCid tip, found, later e found⟩
  unfold Accepted
  rw [verifyEntry_ok_iff _ _ _ _ produced.healthy, article, earlier, cids, length_map,
    and_iff_right signed, and_iff_left produced.id.symm]
  exact and_left_comm

theorem records_of_append {key : SigningKey} {timestamp : HlcTimestamp} {cid : Cid}
    (g : GroupName) {s : RecordedLogStorage S}
    (member : timestamp ∈ timestamps) (healthy : Healthy s) (v : VerifiedEntry ed)
    (entry : v.intoInner = articleEntry ed key timestamp cid ((log s).tips g)) :
    Prog.Satisfies (append g v) s fun _ s' => Records (Produced ed key cid timestamps) s s' := by
  apply (append_records s g v).imp
  rintro _ s' ⟨new, appends, all⟩
  refine ⟨new, appends, fun r isNew => ?_⟩
  obtain ⟨⟨view, group, id, isEntry, parents⟩, stays⟩ := all r isNew
  rw [entry] at isEntry
  refine ⟨stays healthy, ?_, by rw [id, entry, isEntry], ?_, ?_⟩
  · rw [isEntry]
    exact member
  · rw [isEntry, view, group]
    rfl
  · rw [isEntry, view, ← entry]
    exact parents

theorem records_of_appendToLog (ctx : PipelineCtx) (cid : Cid) (g : GroupName)
    (s : RecordedLogStorage S) (healthy : Healthy s) :
    Prog.Satisfies (appendToLog ed ctx cid g) s fun _ s' =>
      Records (Produced ed ctx.operatorSigningKey cid [ctx.timestamp]) s s' := by
  unfold appendToLog
  apply satisfies_bind_attempt ((listTips_outcome s g).and (listTips_appends s g))
  rintro r s₁ ⟨read, same⟩
  cases r with
  | error e => exact satisfies_pure (refl same)
  | ok tipIds =>
    obtain rfl := read.returned tipIds rfl
    dsimp only
    rw [verifySignature_of_check (checkSignature_articleEntry _ _ _ _), ← read.log_eq]
    apply satisfies_bind_attempt (records_of_append g (mem_singleton_self _)
      (read.stays_healthy healthy) _ rfl)
    intro r s₂ records
    cases r with
    | error e => exact satisfies_pure ((refl same).trans records)
    | ok id => exact satisfies_pure ((refl same).trans records)

theorem records_of_appendToLogs (ctx : PipelineCtx) (cid : Cid) (names : List String)
    (s : RecordedLogStorage S) (healthy : Healthy s) :
    Prog.Satisfies (appendToLogs ed ctx cid names) s fun _ s' =>
      Records (Produced ed ctx.operatorSigningKey cid [ctx.timestamp]) s s' := by
  induction names generalizing s with
  | nil => exact satisfies_pure (refl rfl)
  | cons name rest ih =>
    unfold appendToLogs
    cases acceptedGroup ctx.groupFilter name with
    | none => exact ih s healthy
    | some g =>
      apply satisfies_bind ((appendToLog_outcome ctx cid g s).and
        (records_of_appendToLog ctx cid g s healthy))
      · rintro appended s₁ ⟨outcome, first⟩
        apply satisfies_bind (ih s₁ (outcome.stays_healthy healthy))
        · intro later s₂ next
          cases appended with
          | none => exact satisfies_pure (first.trans next)
          | some id => exact satisfies_pure (first.trans next)
        · exact fun _ s₂ next => first.trans next
      · rintro _ s₁ ⟨-, first⟩
        exact first

theorem records_of_runPipeline (articleBytes : Bytes) (ctx : PipelineCtx) (clock : PipelineClock)
    (t : Transit I (RecordedLogStorage S)) (healthy : Healthy t.logStorage) :
    Prog.Satisfies (runPipeline ed articleBytes ctx clock) t fun _ t' =>
      Records (Produced ed ctx.operatorSigningKey
        (rawCid (prependPathHeader articleBytes ctx.localHostname)) [ctx.timestamp])
        t.logStorage t'.logStorage := by
  apply runPipeline_log (Q := fun s' => Records _ t.logStorage s') ed (refl rfl)
  exact fun names => records_of_appendToLogs ctx _ names t.logStorage healthy

theorem postEntry_eq (key : SigningKey) (hlcTs : UInt64) (cid : Cid) (tips : List LogEntryId) :
    postEntry ed key hlcTs cid tips = articleEntry ed key (.ofWallMs hlcTs) cid tips :=
  rfl

theorem records_of_appendPost {key : SigningKey} {hlcTs : UInt64} {cid : Cid}
    (member : HlcTimestamp.ofWallMs hlcTs ∈ timestamps)
    (g : GroupName) (s : RecordedLogStorage S) (healthy : Healthy s) :
    Prog.Satisfies (appendPost ed key hlcTs cid g) s fun _ s' =>
      Records (Produced ed key cid timestamps) s s' ∧ Healthy s' := by
  unfold appendPost
  apply satisfies_bind ((read_mapError _ (listTips_outcome s g)).and
    (satisfies_mapError_state (listTips_appends s g)))
  · rintro tips s₁ ⟨read, same⟩
    obtain rfl := read.returned tips rfl
    have healthy₁ := read.stays_healthy healthy
    dsimp only
    rw [postEntry_eq, verifySignature_of_check (checkSignature_articleEntry _ _ _ _), ← read.log_eq]
    have checked : checkSignature ed
        (articleEntry ed key (.ofWallMs hlcTs) cid ((log s₁).tips g)) (ed.verifyingKey key) =
        .ok () := checkSignature_articleEntry key _ cid _
    have appended := (records_of_append g member healthy₁ ⟨_, _, checked⟩ rfl).and
      (append_outcome s₁ g _)
    apply satisfies_bind (satisfies_mapError_state (Q := fun s' =>
      Records (Produced ed key cid timestamps) s s' ∧ Healthy s') (appended.imp ?_))
    · exact fun _ _ done => satisfies_pure done
    · exact fun _ _ done => done
    · exact fun _ _ ⟨records, outcome⟩ =>
        ⟨(refl same).trans records, outcome.stays_healthy healthy₁⟩
  · exact fun _ _ ⟨read, same⟩ => ⟨refl same, read.stays_healthy healthy⟩

theorem records_of_appendToEach (articleCid : Cid) (key : SigningKey) (source : InjectionSource)
    (groups : List (GroupName × UInt64)) (stamps : ∀ p ∈ groups, HlcTimestamp.ofWallMs p.2 ∈ timestamps)
    (t : Reader (RecordedLogStorage S)) (healthy : Healthy t.logStorage) :
    Prog.Satisfies (appendToEach ed articleCid key source groups) t fun _ t' =>
      Records (Produced ed key articleCid timestamps) t.logStorage t'.logStorage := by
  induction groups generalizing t with
  | nil => exact satisfies_pure (refl rfl)
  | cons p rest ih =>
    obtain ⟨group, hlcTs⟩ := p
    obtain ⟨stamp, later⟩ := forall_mem_cons.mp stamps
    unfold appendToEach
    -- Posting to the first group, or not, keeps the storage healthy for the others.
    have posted : Prog.Satisfies (appendIfPeerable ed articleCid key source group hlcTs) t
        fun _ t' => Records (Produced ed key articleCid timestamps) t.logStorage t'.logStorage ∧
          Healthy t'.logStorage := by
      unfold appendIfPeerable
      split
      · exact satisfies_zoom (records_of_appendPost stamp group t.logStorage healthy)
          fun _ _ done => done
      · exact satisfies_pure ⟨refl rfl, healthy⟩
    apply satisfies_bind posted
    · rintro _ t₁ ⟨first, healthy₁⟩
      have numbered : Prog.Satisfies (Reader.onArticleNumbers (S := RecordedLogStorage S)
          ((ArticleNumberStore.assignNumber group.asStr articleCid).mapError fun e =>
            Response.new 441 ("article number assignment failed: " ++ e))) t₁ fun _ t' =>
          t'.logStorage = t₁.logStorage := rfl
      apply satisfies_bind numbered
      · intro number t₂ same
        apply satisfies_bind (ih later t₂ (same ▸ healthy₁))
        · exact fun _ _ next => satisfies_pure (first.trans (same ▸ next))
        · exact fun _ _ next => first.trans (same ▸ next)
      · exact fun _ _ same => same ▸ first
    · exact fun _ _ ⟨first, _⟩ => first

theorem records_of_appendToGroups (hlcTimestamps : List UInt64) (articleCid : Cid)
    (key : SigningKey) (newsgroups : List GroupName) (source : InjectionSource)
    (t : Reader (RecordedLogStorage S)) (healthy : Healthy t.logStorage) :
    Prog.Satisfies (appendToGroups ed hlcTimestamps articleCid key newsgroups source) t fun _ t' =>
      Records (Produced ed key articleCid (hlcTimestamps.map HlcTimestamp.ofWallMs))
        t.logStorage t'.logStorage := by
  unfold appendToGroups
  by_cases lengths : hlcTimestamps.length = newsgroups.length
  · rw [if_neg (not_not.mpr lengths)]
    apply satisfies_bind (records_of_appendToEach articleCid key source
      (newsgroups.zip hlcTimestamps) (fun p member => mem_map_of_mem
        (of_mem_zip member).2) t healthy)
    · exact fun _ _ records => satisfies_pure records
    · exact fun _ _ records => records
  · rw [if_pos lengths]
    exact satisfies_throw (refl rfl)

/-- Every entry that a call of the write paths appends to a group's log, from any healthy storage,
passes the check against the storage before the append if and only if its article CID has the
DAG-CBOR codec, the group has at most 100 tips and every tip is earlier than the entry. -/
theorem write_path_entries_verify_iff (key : SigningKey) (call : WriteCall)
    (n : Node I (RecordedLogStorage S)) (healthy : Healthy n.transit.logStorage) :
    ∃ new, (call.after ed key n).transit.logStorage.appends = n.transit.logStorage.appends ++ new ∧
      ∀ r ∈ new, r.entry.articleCid = call.articleCid ∧ r.entry.hlcTimestamp ∈ call.timestamps ∧
        (Accepted ed key r ↔ call.articleCid.codec = 0x71 ∧
          ((log r.before).tips r.group).length ≤ maxParentCids ∧ TipsEarlier r) := by
  have records : Records (Produced ed key call.articleCid call.timestamps) n.transit.logStorage
      (call.after ed key n).transit.logStorage := by
    cases call with
    | runPipeline articleBytes timestamp localHostname groupFilter clock =>
      exact records_of_runPipeline articleBytes ⟨timestamp, key, localHostname, groupFilter⟩ clock
        n.transit healthy
    | appendToGroups hlcTimestamps articleCid newsgroups source =>
      exact records_of_appendToGroups hlcTimestamps articleCid key newsgroups source
        ⟨n.transit.logStorage, n.articleNumbers⟩ healthy
  obtain ⟨new, appends, all⟩ := records
  refine ⟨new, appends, fun r isNew => ?_⟩
  have produced := all r isNew
  refine ⟨?_, produced.timestamp, produced.accepted_iff⟩
  rw [produced.entry]
  rfl

end General

namespace Sample

def readerEd : Ed25519 := .ofSignatures key pubkey
  [(logEntryCanonicalBytes 1000 (article 0xaa) [], rootSignature),
    (logEntryCanonicalBytes 2000 (article 0xbb) [rootId.toCid], childSignature),
    (logEntryCanonicalBytes 1000 (article 0xbb) [rootId.toCid], .ofNumber 64
      0x7737921fdb7cc6a787c63e2c806a52734ea8a2b80d14bf5975ccff63cb5176f4bb3a4094b6ba0015362add366816ea62c6e4d53edcbb760b054534de3e92d70d)]

def node : Node MemIpfsStore (RecordedLogStorage MemLogStorage) :=
  ⟨⟨.new, .new, ⟨.new, []⟩, ⟨Table.empty, []⟩⟩, .new⟩

def ingestCall : WriteCall := .runPipeline crosspost ctx.timestamp ctx.localHostname none clock

def post (hlcTs : UInt64) (x : UInt8) : WriteCall :=
  .appendToGroups [hlcTs] (article x) [group] .nntpPost

def rootPosted : Node MemIpfsStore (RecordedLogStorage MemLogStorage) :=
  (post 1000 0xaa).after readerEd key node

instance (ed : Ed25519) (r : AppendRecord MemLogStorage) : Decidable (Accepted ed key r) :=
  inferInstanceAs (Decidable (_ = _))

instance (r : AppendRecord MemLogStorage) : Decidable (TipsEarlier r) :=
  inferInstanceAs (Decidable (∀ tip ∈ (log r.before).tips r.group,
    ∀ e ∈ (log r.before).entry tip, r.entry.hlcTimestamp.le e.hlcTimestamp = false))

theorem rootPosted_appends : rootPosted.transit.logStorage.appends.length = 1 := by decide +kernel

theorem childPosted_appends :
    let appends := ((post 2000 0xbb).after readerEd key rootPosted).transit.logStorage.appends
    (appends.drop 1).length = 1 ∧ ∀ r ∈ appends.drop 1,
      ((log r.before).tips r.group).length ≤ maxParentCids ∧ TipsEarlier r := by
  decide +kernel

end Sample

open Sample in
/-- The entry of an article fed to the transit daemon has a raw article CID and is rejected; so is
the second of two posts to a group in the same millisecond. -/
theorem local_entries_rejected : (∃ r ∈ (ingestCall.after transitEd key node).transit.logStorage.appends,
      ¬Accepted transitEd key r) ∧
    ∃ r ∈ ((post 1000 0xbb).after readerEd key rootPosted).transit.logStorage.appends,
      r.entry.articleCid.codec = 0x71 ∧ ¬Accepted readerEd key r := by
  constructor <;> decide +kernel

open Sample in
/-- A post in a later millisecond than the group's tip is appended and accepted. -/
theorem later_post_accepted :
    ∃ r, ((post 2000 0xbb).after readerEd key rootPosted).transit.logStorage.appends =
        rootPosted.transit.logStorage.appends ++ [r] ∧ Accepted readerEd key r := by
  obtain ⟨new, appends, all⟩ := @write_path_entries_verify_iff readerEd _ _ _ _ _ key
    (post 2000 0xbb) rootPosted trivial
  have newOnes : ((post 2000 0xbb).after readerEd key rootPosted).transit.logStorage.appends.drop 1 =
      new := by
    rw [appends, ← rootPosted_appends, drop_left]
  obtain ⟨one, tips⟩ := childPosted_appends
  rw [newOnes] at one tips
  obtain ⟨r, rfl⟩ := length_eq_one_iff.mp one
  have isNew : r ∈ [r] := mem_singleton_self r
  exact ⟨r, appends, (all r isNew).2.2.mpr ⟨rfl, tips r isNew⟩⟩

end Stoa
