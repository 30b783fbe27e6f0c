import Stoa.Core.GroupLog.MemStorage
import Stoa.Lib.Runs
import Stoa.Transit.Pipeline

/-! `intact_iff`: all referenced blocks stay in the store and no failing run leaves a block behind,
along a sequence of runs in which no failure meets a block of the wrong kind. -/
namespace Stoa

open ImmediateStore List Table IpfsStore

section References

variable {I S : Type} {t t' : Transit I S}

/-- A CID is in the Message-ID map or in the articles table. -/
def Transit.Referenced (t : Transit I S) (cid : Cid) : Prop :=
  (∃ row ∈ t.msgidMap.tables.rows, row.cid = cid.toBytes) ∨
    ∃ row ∈ t.pool.tables.rows, row.cid = cid.toString

theorem referenced_congr (rows : t'.msgidMap.tables = t.msgidMap.tables)
    (articles : t'.pool.tables = t.pool.tables) (cid : Cid) : t'.Referenced cid ↔ t.Referenced cid := by
  rw [Transit.Referenced, Transit.Referenced, rows, articles]

theorem exists_upsertArticle (articles : Table ArticleRow ArticleRow.cid) (row : ArticleRow)
    (text : String) : (∃ r ∈ (upsertArticle articles row).rows, r.cid = text) ↔
      (∃ r ∈ articles.rows, r.cid = text) ∨ row.cid = text := by
  rw [upsertArticle]
  cases inserted : articles.insert row with
  | some articles' =>
    simp [rows_of_insert inserted, or_and_right, exists_or]
  | none =>
    -- The row of the CID is there already and keeps its CID.
    obtain ⟨old, member, same⟩ := (insert_eq_none_iff _ _).mp inserted
    simp only [update, mem_map]
    constructor
    · rintro ⟨_, ⟨r, present, rfl⟩, rfl⟩
      left
      refine ⟨r, present, ?_⟩
      split <;> rfl
    · rintro (⟨r, present, rfl⟩ | rfl)
      · refine ⟨_, ⟨r, present, rfl⟩, ?_⟩
        split <;> rfl
      · refine ⟨_, ⟨old, member, rfl⟩, ?_⟩
        rw [← same]
        split <;> rfl

theorem exists_insertOrIgnore_cid {map : MsgIdMap} {messageId : String} {cid : Cid}
    (agrees : ¬ map.Conflicts messageId cid) (bytes : Bytes) :
    (∃ r ∈ (map.tables.insertOrIgnore ⟨messageId, cid.toBytes⟩).rows, r.cid = bytes) ↔
      (∃ r ∈ map.tables.rows, r.cid = bytes) ∨ cid.toBytes = bytes := by
  rw [rows_insertOrIgnore]
  split
  · next taken =>
    obtain ⟨row, present, mapped⟩ := mem_map.mp taken
    refine ⟨.inl, fun h => h.elim id fun same => ⟨row, present, ?_⟩⟩
    rw [← same]
    by_contra other
    exact agrees ⟨row, present, mapped, other⟩
  · simp [or_and_right, exists_or]

theorem referenced_mono {messageId : String} {cid : Cid} (agrees : ¬ t.msgidMap.Conflicts messageId cid)
    (rows : t'.msgidMap.tables = t.msgidMap.tables.insertOrIgnore ⟨messageId, cid.toBytes⟩)
    (articles : t'.pool.tables = t.pool.tables ∨ ∃ row : ArticleRow, row.cid = cid.toString ∧
      t'.pool.tables = upsertArticle t.pool.tables row) {c : Cid} (old : t.Referenced c) :
    t'.Referenced c := by
  rcases old with mapped | listed
  · left
    rw [rows, exists_insertOrIgnore_cid agrees]
    exact .inl mapped
  · right
    rcases articles with same | ⟨row, -, upserted⟩
    · rwa [same]
    · rw [upserted, exists_upsertArticle]
      exact .inl listed

theorem referenced_recorded {messageId : String} {cid : Cid} (raw : cid.version = .v1)
    (agrees : ¬ t.msgidMap.Conflicts messageId cid)
    (rows : t'.msgidMap.tables = t.msgidMap.tables.insertOrIgnore ⟨messageId, cid.toBytes⟩)
    (articles : t'.pool.tables = t.pool.tables ∨ ∃ row : ArticleRow, row.cid = cid.toString ∧
      t'.pool.tables = upsertArticle t.pool.tables row) {c : Cid} (version : c.version = .v1) :
    t'.Referenced c ↔ t.Referenced c ∨ c = cid := by
  have named : cid.toBytes = c.toBytes ↔ c = cid :=
    ⟨fun same => (Cid.toBytes_injective same).symm, fun same => by rw [same]⟩
  have written : cid.toString = c.toString → c = cid :=
    fun same => (Cid.toString_injective_v1 raw version same).symm
  constructor
  · rintro (mapped | listed)
    · rw [rows, exists_insertOrIgnore_cid agrees, named] at mapped
      exact mapped.imp_left .inl
    · rcases articles with same | ⟨row, text, upserted⟩
      · rw [same] at listed
        exact .inl (.inr listed)
      · rw [upserted, exists_upsertArticle, text] at listed
        exact listed.imp .inr written
  · rintro (old | same)
    · exact referenced_mono agrees rows articles old
    · left
      rw [rows, exists_insertOrIgnore_cid agrees, named]
      exact .inr same

end References

section Failure

variable {ed : Ed25519} {I S : Type} [ImmediateStore I] [LogStorage S]

/-- The stores, and the CIDs of the blocks that calls put which then returned an error. -/
structure PipelineHistory (I S : Type) where
  transit : Transit I S
  failed : List Cid

def failedBlock (call : PipelineCall) (t : Transit I S) :
    Except PipelineExit (PipelineResult × PipelineMetrics) → List Cid
  | .error (.error _) => match ((IpfsStore.putRaw call.stored).exec t.ipfs).1 with
    | .ok cid => [cid]
    | .error _ => []
  | _ => []

def pipelineStep (ed : Ed25519) (call : PipelineCall) (h : PipelineHistory I S) :
    Except PipelineExit (PipelineResult × PipelineMetrics) × PipelineHistory I S :=
  let run := (runPipeline ed call.articleBytes call.ctx call.clock).exec h.transit
  (run.1, ⟨run.2, h.failed ++ failedBlock call h.transit run.1⟩)

theorem pipelineStep_transit (call : PipelineCall) (h : PipelineHistory I S) :
    (pipelineStep ed call h).2.transit =
      ((runPipeline ed call.articleBytes call.ctx call.clock).exec h.transit).2 := rfl

/-- Every CID of the tables has its block (all of the store's CIDs have version 1), and every block
of a failing call is in the tables or gone. -/
structure Intact (h : PipelineHistory I S) : Prop where
  kept : ∀ cid, cid.version = .v1 → h.transit.Referenced cid → Has h.transit.ipfs cid
  clean : ∀ cid ∈ h.failed, h.transit.Referenced cid ∨ ¬ Has h.transit.ipfs cid

/-- What a call must not do once its block is written: end without a Message-ID, or panic, with a
block that nothing refers to; or fail at the Message-ID map with a block that something refers to. -/
def Harmless (call : PipelineCall) (h : PipelineHistory I S) : Prop :=
  Puts call h.transit → match parseMessageIdAndNewsgroups call.stored with
    | .error _ => rawCid call.stored ∈ h.failed → h.transit.Referenced (rawCid call.stored)
    | .ok none => h.transit.Referenced (rawCid call.stored)
    | .ok (some (messageId, _)) =>
      (h.transit.msgidMap.fault ≠ none ∨
        h.transit.msgidMap.Conflicts messageId (rawCid call.stored)) →
      ¬ h.transit.Referenced (rawCid call.stored)

variable {call : PipelineCall}

omit [LogStorage S] in
theorem eq_of_mem_failedBlock {t : Transit I S}
    {r : Except PipelineExit (PipelineResult × PipelineMetrics)} {cid : Cid}
    (member : cid ∈ failedBlock call t r) : cid = rawCid call.stored := by
  rcases r with (e | panic) | result
  · rw [failedBlock] at member
    rcases put : (putRaw call.stored).exec t.ipfs with ⟨e | c, ipfs⟩
    · simp [put] at member
    · obtain rfl : cid = c := by simpa [put] using member
      exact putRaw_returns _ _ _ _ put
  · simp [failedBlock] at member
  · simp [failedBlock] at member

omit [LogStorage S] in
theorem failedBlock_of_put {t : Transit I S} {cid : Cid} {ipfs : I} (e : PipelineError)
    (put : (putRaw call.stored).exec t.ipfs = (.ok cid, ipfs)) :
    failedBlock call t (.error (.error e)) = [cid] := by
  rw [failedBlock, put]

theorem intact_step_iff {h : PipelineHistory I S} (intact : Intact h) :
    Intact (pipelineStep ed call h).2 ↔ Harmless call h := by
  have outcome := runPipeline_outcome ed call.articleBytes call.ctx call.clock h.transit
  rw [pipelineStep]
  generalize (runPipeline ed call.articleBytes call.ctx call.clock).exec h.transit = run at outcome
  have raw {cid : Cid} {ipfs : I} (put : (putRaw call.stored).exec h.transit.ipfs =
      (.ok cid, ipfs)) : cid = rawCid call.stored := putRaw_returns _ _ _ _ put
  cases outcome with
  | unwritten put =>
    have same := has_putRaw_failed _ _ _ _ put
    have nothing : ¬ Puts call h.transit := by
      rintro ⟨cid, ok⟩
      rw [PipelineCall.stored, put] at ok
      cases ok
    refine iff_of_true ⟨fun cid version referenced => ?_, fun cid member => ?_⟩
      fun puts => absurd puts nothing
    · exact (same cid).mpr (intact.kept cid version referenced)
    · rw [failedBlock, PipelineCall.stored, put, append_nil] at member
      exact (intact.clean cid member).imp_right (mt (same cid).mp)
  | panicked put parsed =>
    obtain rfl := raw put
    have has := has_putRaw _ _ _ _ put
    have parsed : parseMessageIdAndNewsgroups call.stored = _ := parsed
    simp only [Harmless, parsed, failedBlock, append_nil]
    constructor
    · intro after _ member
      exact (after.clean _ member).resolve_right fun gone => gone ((has _).mpr (.inr rfl))
    · intro harmless
      refine ⟨fun cid version referenced => (has cid).mpr (.inl (intact.kept cid version referenced)),
        fun cid member => ?_⟩
      -- The block is put back for an earlier failing call only if something refers to it.
      by_cases same : cid = rawCid call.stored
      · subst same
        exact .inl (harmless ⟨_, congrArg Prod.fst put⟩ member)
      · exact (intact.clean cid member).imp_right fun gone present =>
          ((has cid).mp present).elim gone same
  | unnamed put parsed =>
    obtain rfl := raw put
    have has := has_putRaw _ _ _ _ put
    have parsed : parseMessageIdAndNewsgroups call.stored = _ := parsed
    simp only [Harmless, parsed, failedBlock_of_put _ put]
    constructor
    · intro after _
      exact (after.clean _ (by simp)).resolve_right fun gone => gone ((has _).mpr (.inr rfl))
    · intro harmless
      have referenced := harmless ⟨_, congrArg Prod.fst put⟩
      refine ⟨fun cid version referenced => (has cid).mpr (.inl (intact.kept cid version referenced)),
        fun cid member => ?_⟩
      by_cases same : cid = rawCid call.stored
      · exact .inl (same ▸ referenced)
      · have old : cid ∈ h.failed := (mem_append.mp member).resolve_right (by simpa using same)
        exact (intact.clean cid old).imp_right fun gone present =>
          ((has cid).mp present).elim gone same
  | @refused _ _ ipfs messageId names msgidMap put parsed failed rows =>
    obtain rfl := raw put
    have has (c : Cid) : Has ((delete (rawCid call.stored)).exec ipfs).2 c ↔
        Has h.transit.ipfs c ∧ c ≠ rawCid call.stored := by
      rw [has_delete, has_putRaw _ _ _ _ put]
      exact ⟨fun h => ⟨h.1.resolve_right h.2, h.2⟩, fun h => ⟨.inl h.1, h.2⟩⟩
    have parsed : parseMessageIdAndNewsgroups call.stored = _ := parsed
    have referenced (cid : Cid) := @referenced_congr I S h.transit
      ⟨((delete (rawCid call.stored)).exec ipfs).2, msgidMap, h.transit.logStorage,
        h.transit.pool⟩ rows rfl cid
    simp only [Harmless, parsed, failedBlock_of_put _ put]
    constructor
    · intro after _ _ inUse
      exact ((has _).mp (after.kept _ rfl ((referenced _).mpr inUse))).2 rfl
    · intro harmless
      have unused := harmless ⟨_, congrArg Prod.fst put⟩ failed
      refine ⟨fun cid version inUse => (has cid).mpr ?_, fun cid member => ?_⟩
      · rw [referenced] at inUse
        refine ⟨intact.kept cid version inUse, ?_⟩
        rintro rfl
        exact unused inUse
      · by_cases same : cid = rawCid call.stored
        · exact .inr fun present => ((has cid).mp present).2 same
        · have old : cid ∈ h.failed := (mem_append.mp member).resolve_right (by simpa using same)
          exact (intact.clean cid old).imp (referenced cid).mpr
            fun gone present => gone ((has cid).mp present).1
  | recorded put parsed answers agrees ipfs_eq rows logs articles =>
    obtain rfl := raw put
    have has := has_putRaw _ _ _ _ put
    have parsed : parseMessageIdAndNewsgroups call.stored = _ := parsed
    simp only [Harmless, parsed]
    have referenced {c : Cid} := @referenced_recorded I S _ _ _ _ rfl agrees rows articles c
    refine iff_of_true ⟨fun cid version inUse => ?_, fun cid member => ?_⟩
      fun _ failed => absurd failed (by simp [answers, agrees])
    · rw [ipfs_eq, has]
      exact ((referenced version).mp inUse).imp_left (intact.kept cid version)
    · by_cases same : cid = rawCid call.stored
      · exact .inl ((referenced (same ▸ rfl)).mpr (.inr same))
      · have old : cid ∈ h.failed :=
          (mem_append.mp member).resolve_right fun new => same (eq_of_mem_failedBlock new)
        rw [ipfs_eq, has]
        exact (intact.clean cid old).imp (referenced_mono agrees rows articles)
          fun gone present => present.elim gone same

/-- Along a sequence of calls all referenced blocks stay and failing calls leave none behind exactly
if every call is harmless. -/
theorem intact_iff {calls : List PipelineCall} {h : PipelineHistory I S} (start : Intact h) :
    Throughout (pipelineStep ed) Intact calls h ↔ AlongRun (pipelineStep ed) Harmless calls h :=
  throughout_iff (fun _ _ => intact_step_iff) start

end Failure

namespace Transit.Sample

structure EagerStore where
  blocks : List (Cid × Bytes)

instance : ImmediateStore EagerStore where
  putRaw data := Prog.ofExec fun s => (.ok (rawCid data), ⟨(rawCid data, data) :: s.blocks⟩)
  getRaw cid := Prog.reads fun s => (s.blocks.find? fun block => decide (block.1 = cid)).map Prod.snd
  delete cid := Prog.ofExec fun s =>
    (.ok .immediate, ⟨s.blocks.filter fun block => decide (block.1 ≠ cid)⟩)
  putRaw_returns _ _ _ _ run := (Except.ok.inj (congrArg Prod.fst run)).symm
  Has s cid := cid ∈ s.blocks.map Prod.fst
  has_putRaw data s cid s' run c := by
    obtain rfl := (congrArg Prod.snd run).symm
    simp [or_comm]
  has_putRaw_failed data s e s' run := by cases congrArg Prod.fst run
  delete_immediate _ _ := rfl
  has_delete cid s c := by simp [and_comm]

def single : PipelineCall :=
  ⟨Text.asBytes "Message-ID: <1@a>\r\n\r\n", ⟨.ofWallMs 1, .fill 32 7, "a", none⟩, ⟨0, 0⟩⟩

/-- No stores are filled; the database errors on Message-IDs are given. -/
def unfilled (faults : List (Option String)) : PipelineHistory EagerStore MemLogStorage :=
  ⟨⟨⟨[]⟩, ⟨Table.empty, faults⟩, .new, ⟨Table.empty, []⟩⟩, []⟩

def keyless : Ed25519 := .ofSignatures (.fill 32 7) (.fill 32 8) []

theorem parsed_single :
    parseMessageIdAndNewsgroups single.stored = .ok (some ("<1@a>", [])) := by rfl

theorem intact_unfilled (faults : List (Option String)) : Intact (unfilled faults) := by
  refine ⟨fun cid _ referenced => ?_, by simp [unfilled]⟩
  simp [Transit.Referenced, unfilled, empty] at referenced

theorem harmless_single {faults : List (Option String)}
    (answers : (unfilled faults).transit.msgidMap.fault = none) : Harmless single (unfilled faults) := by
  intro puts
  rw [parsed_single]
  rintro (faulty | ⟨row, present, -⟩)
  · exact absurd answers faulty
  · simp [unfilled, empty] at present

theorem single_stays_intact : Intact (unfilled []) ∧
    Throughout (pipelineStep keyless) Intact [single] (unfilled []) :=
  ⟨intact_unfilled [], (intact_iff (intact_unfilled [])).mpr ⟨harmless_single rfl, trivial⟩⟩

theorem put_single (s : EagerStore) : (putRaw single.stored).exec s =
    (.ok (rawCid single.stored), ⟨(rawCid single.stored, single.stored) :: s.blocks⟩) := rfl

theorem after_single :
    (pipelineStep keyless single (unfilled [none, some "locked"])).2.transit.msgidMap =
      ⟨empty.insertOrIgnore ⟨"<1@a>", (rawCid single.stored).toBytes⟩, [some "locked"]⟩ := by
  have inserted := @MsgIdMap.insert_new (unfilled [none, some "locked"]).transit.msgidMap "<1@a>"
    (rawCid single.stored) rfl (by simp [MsgIdMap.Known, unfilled, empty])
  have state := @runPipeline_msgidMap keyless EagerStore MemLogStorage _ _ single.articleBytes
    single.ctx single.clock (unfilled [none, some "locked"]).transit (rawCid single.stored) _ "<1@a>"
    [] _ (put_single _) parsed_single inserted
  rw [pipelineStep_transit, state, unfilled, tail_cons]

/-- The second delivery fails at the Message-ID map and deletes the block of the first. -/
theorem repeated_destroys : ¬ Throughout (pipelineStep keyless) Intact [single, single]
    (unfilled [none, some "locked"]) := by
  rintro ⟨-, after, destroyed⟩
  have harmless := (intact_step_iff after).mp destroyed ⟨_, rfl⟩
  rw [parsed_single] at harmless
  apply harmless
  · left
    rw [after_single]
    simp [AnyPool.fault]
  · left
    rw [after_single]
    exact ⟨_, mem_singleton.mpr rfl, rfl⟩

end Transit.Sample

end Stoa
