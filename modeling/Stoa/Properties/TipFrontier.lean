import Stoa.Properties.BackfillCompleteness

/-! In a run of successful calls on one group the tips always cover the log: it is closed under
parents, has no cycles, and every stored entry is a tip or an ancestor of one. -/
namespace Stoa

open LawfulLogStorage Relation LogView List MemLogStorage LogEntryId

section General

variable {ed : Ed25519} {U : Set LogEntry} {g : GroupName} {v v' : LogView}

/-- What every run of successful calls on `g` keeps. -/
structure LogView.Covered (v : LogView) (U : Set LogEntry) (g : GroupName) : Prop where
  holds : v.HoldsFrom U
  covers : Graph.Covers v.ParentEdge v.Stored (· ∈ v.tips g)

theorem LogView.frontier_iff_antichain :
    v.Frontier g ↔ Graph.Antichain v.ParentEdge (· ∈ v.tips g) :=
  ⟨fun h a b ha hb => h b hb a ha, fun h a ha b hb => h b a hb ha⟩

theorem LogView.parentEdge_congr (same : v'.entry = v.entry) : v'.ParentEdge = v.ParentEdge := by
  funext a b
  simp only [ParentEdge, same]

theorem LogView.stored_congr (same : v'.entry = v.entry) : v'.Stored = v.Stored := by
  funext a
  simp only [Stored, same]

theorem AppendedTo.added {e : LogEntry} (appended : AppendedTo v v' g e) (covered : v.Covered U g) :
    Graph.Added v.ParentEdge v'.ParentEdge v.Stored v'.Stored (· ∈ v.tips g) (· ∈ v'.tips g)
      (fromEntry e) := by
  have fresh : ¬v.Stored (fromEntry e) := not_stored_iff.mpr appended.absent
  have old {a : LogEntryId} (h : v.Stored a) : v'.entry a = v.entry a :=
    appended.entry_of_ne fun same => fresh (same ▸ h)
  have parents (b : LogEntryId) (edge : v'.ParentEdge (fromEntry e) b) : v.Stored b :=
    appended.parents.stored ((appended.parentEdge_iff b).mp edge)
  refine ⟨?_, ?_, fun _ => appended.stored_mono, fresh, appended.stored_new, ?_, ⟨fun _ => 0, ?_⟩, ?_⟩
  · intro a b h
    rw [LogView.ParentEdge, LogView.ParentEdge, old h]
  · intro a b h edge
    rcases appended.stored_cases h with isOld | rfl
    · rw [LogView.ParentEdge, old isOld] at edge
      exact appended.stored_mono (covered.covers.closed a b isOld edge)
    · exact appended.stored_mono (parents b edge)
  · intro a h
    rcases appended.stored_cases h with isOld | rfl
    · exact Or.inl isOld
    · exact Or.inr ReflTransGen.refl
  · -- Between new nodes there is no edge: the parents were all stored before.
    intro a b notA notB edge
    rcases appended.stored_cases edge.stored with isOld | rfl
    · exact absurd isOld notA
    · exact absurd (parents b edge) notB
  · intro t
    rw [appended.mem_tips, appended.parentEdge_iff]

theorem AppendedTo.covered {e : LogEntry} (appended : AppendedTo v v' g e) (member : e ∈ U)
    (covered : v.Covered U g) : v'.Covered U g :=
  ⟨covered.holds.appended member appended, (appended.added covered).covers covered.covers⟩

theorem AppendedTo.frontier {e : LogEntry} (appended : AppendedTo v v' g e)
    (covered : v.Covered U g) (frontier : v.Frontier g) : v'.Frontier g := by
  rw [frontier_iff_antichain] at frontier ⊢
  apply (appended.added covered).antichain_of_old covered.covers frontier
  exact fun p edge => appended.parents.stored ((appended.parentEdge_iff p).mp edge)

/-- The entries that `fetch` serves form a DAG. -/
def ServesDag (fetch : Fetch ed) : Prop :=
  ∃ rank : LogEntryId → Nat, ∀ a b, FetchEdge fetch a b → rank b < rank a

section Fetched

variable {fetch : Fetch ed} {want : LogEntryId} {mid : LogView} {seen : List LogEntryId}
  {e : LogEntry}

theorem Searched.closed_seen (searched : Searched fetch v mid want seen) :
    Graph.Closed (FetchEdge fetch) (· ∈ seen) := by
  rintro a b member ⟨d, serves', parent⟩
  obtain ⟨e, serves, _, _, parents⟩ := searched.served a member
  exact parents b (serves.unique serves' ▸ parent)

variable (free : CollisionFree U) (signed : ∀ e ∈ U, e.operatorSignature.length = 64)
  (served : ∀ id e, Serves fetch id e → e ∈ U) (searched : Searched fetch v mid want seen)
include free signed served searched

theorem Searched.parentEdge_iff (holds : mid.HoldsFrom U) {a : LogEntryId} (member : a ∈ seen)
    (b : LogEntryId) : mid.ParentEdge a b ↔ FetchEdge fetch a b := by
  obtain ⟨e, serves, _, stored, _⟩ := searched.served a member
  rw [parentEdge_iff_of_serves free signed holds served serves stored]
  exact ⟨fun h => ⟨e, serves, h⟩, fun ⟨d, serves', h⟩ => serves.unique serves' ▸ h⟩

theorem Searched.added (covered : v.Covered U g) (dag : ServesDag fetch) (absent : v.entry want = none) (serves : Serves fetch want e)
    (advanced : mid.Advanced v' g (parentIdsFromEntry e) want) :
    Graph.Added v.ParentEdge v'.ParentEdge v.Stored v'.Stored (· ∈ v.tips g) (· ∈ v'.tips g)
      want := by
  have holds := covered.holds.grown served searched.grown
  rw [parentEdge_congr advanced.entry_eq, stored_congr advanced.entry_eq]
  have agree {a : LogEntryId} (h : a ∈ seen) (b : LogEntryId) :=
    searched.parentEdge_iff free signed served holds h b
  have seenStored {a : LogEntryId} (h : a ∈ seen) : mid.Stored a := by
    obtain ⟨_, _, _, stored, _⟩ := searched.served a h
    exact stored
  have old {a : LogEntryId} (h : v.Stored a) : mid.entry a = v.entry a := by
    obtain ⟨d, found⟩ := stored_iff.mp h
    rw [searched.grown.of_entry found, found]
  refine ⟨?_, ?_, fun a => searched.grown.stored, not_stored_iff.mpr absent,
    seenStored searched.start, ?_, ?_, ?_⟩
  · intro a b h
    rw [LogView.ParentEdge, LogView.ParentEdge, old h]
  · intro a b h edge
    rcases searched.only a h with isOld | member
    · rw [LogView.ParentEdge, old isOld] at edge
      exact searched.grown.stored (covered.covers.closed a b isOld edge)
    · exact seenStored (searched.closed_seen a b member ((agree member b).mp edge))
  · intro a h
    rcases searched.only a h with isOld | member
    · exact Or.inl isOld
    · refine Or.inr (searched.closed_seen.reach_mono ?_ searched.start (searched.reached a member))
      exact fun x y hx edge => (agree hx y).mpr edge
  · obtain ⟨rank, descends⟩ := dag
    refine ⟨rank, fun a b notA _ edge => ?_⟩
    rcases searched.only a edge.stored with isOld | member
    · exact absurd isOld notA
    · exact descends a b ((agree member b).mp edge)
  · intro t
    rw [advanced.mem_tips, searched.grown.tips_eq, parentEdge_iff_of_serves free signed holds served
      serves (seenStored searched.start)]

theorem Searched.trans_iff (holds : mid.HoldsFrom U) (t : LogEntryId) :
    TransGen mid.ParentEdge want t ↔ TransGen (FetchEdge fetch) want t := by
  have agree {a : LogEntryId} (h : a ∈ seen) (b : LogEntryId) :=
    searched.parentEdge_iff free signed served holds h b
  constructor
  · have closed : Graph.Closed mid.ParentEdge (· ∈ seen) := fun a b member edge =>
      searched.closed_seen a b member ((agree member b).mp edge)
    exact closed.trans_mono (fun a b h => (agree h b).mp) searched.start
  · exact searched.closed_seen.trans_mono (fun a b h => (agree h b).mpr) searched.start

end Fetched

def Call.KeepsFrontier (v : LogView) : Call ed → Prop
  | .append _ _ => True
  | .backfill g want fetch => want ∈ v.tips g ∨ v.entry want = none ∧
      ∀ t ∈ v.tips g, TransGen (FetchEdge fetch) want t → FetchEdge fetch want t

section Backfilled

variable {fetch : Fetch ed} {want : LogEntryId}

variable (free : CollisionFree U) (signed : ∀ e ∈ U, e.operatorSignature.length = 64)
  (served : ∀ id e, Serves fetch id e → e ∈ U) (done : BackfilledTo fetch g want v v')
include free signed served done

theorem BackfilledTo.covered (covered : v.Covered U g) (dag : ServesDag fetch) : v'.Covered U g := by
  refine ⟨done.holdsFrom covered.holds served, ?_⟩
  cases done with
  | isTip _ _ same => exact same ▸ covered.covers
  | promoted e found _ advanced =>
    rw [parentEdge_congr advanced.entry_eq, stored_congr advanced.entry_eq]
    apply covered.covers.promote (stored_iff.mpr ⟨e, found⟩)
    intro t
    rw [advanced.mem_tips, LogView.ParentEdge, found]
    simp
  | fetched e mid seen absent serves searched advanced =>
    exact (searched.added free signed served covered dag absent serves advanced).covers
      covered.covers

theorem BackfilledTo.frontier_iff (covered : v.Covered U g) (dag : ServesDag fetch)
    (frontier : v.Frontier g) : v'.Frontier g ↔ (Call.backfill g want fetch).KeepsFrontier v := by
  cases done with
  | isTip _ tip same => exact iff_of_true (same ▸ frontier) (Or.inl tip)
  | promoted e found notTip advanced =>
    have stored : v.Stored want := stored_iff.mpr ⟨e, found⟩
    refine iff_of_false ?_ ?_
    · rw [frontier_iff_antichain, parentEdge_congr advanced.entry_eq]
      apply covered.covers.not_antichain_promote stored notTip
      intro t
      rw [advanced.mem_tips, LogView.ParentEdge, found]
      simp
    · rintro (tip | ⟨absent, _⟩)
      · exact notTip tip
      · exact not_stored_iff.mpr absent stored
  | fetched e mid seen absent serves searched advanced =>
    have holds := covered.holds.grown served searched.grown
    have added := searched.added free signed served covered dag absent serves advanced
    have notTip : want ∉ v.tips g := fun tip =>
      not_stored_iff.mpr absent (covered.covers.inside want tip)
    rw [frontier_iff_antichain] at frontier ⊢
    rw [added.antichain_iff covered.covers frontier, parentEdge_congr advanced.entry_eq]
    simp only [searched.trans_iff free signed served holds,
      searched.parentEdge_iff free signed served holds searched.start]
    exact ⟨fun h => Or.inr ⟨absent, h⟩, fun h => (h.resolve_left notTip).2⟩

end Backfilled

variable {S : Type} [LogStorage S] [LawfulLogStorage S]

def Call.OnDag : Call ed → Prop
  | .append _ _ => True
  | .backfill _ _ fetch => ServesDag fetch

/-- Every call of the sequence returns `Ok`. -/
def AllReturn (s : S) : List (Call ed) → Prop
  | [] => True
  | c :: rest => c.Returns s ∧ AllReturn (c.after s) rest

theorem Call.frontier_step (c : Call ed) (s : S) (onGroup : c.group = g) (returns : c.Returns s)
    (onDag : c.OnDag) (entries : ∀ e ∈ c.entries, e ∈ U) (free : CollisionFree U)
    (signed : ∀ e ∈ U, e.operatorSignature.length = 64) (covered : (log s).Covered U g) :
    (log (c.after s)).Covered U g ∧ ((log s).Frontier g →
      ((log (c.after s)).Frontier g ↔ c.KeepsFrontier (log s))) := by
  cases c with
  | append h verified =>
    subst onGroup
    have outcome := append_outcome s h verified
    obtain ⟨id, ok⟩ := returns
    rcases (outcome.returned id ok).2 with ⟨_, same⟩ | appended
    · have unchanged : log ((Call.append h verified).after s) = log s := same
      rw [unchanged]
      exact ⟨covered, fun frontier => iff_of_true frontier trivial⟩
    · exact ⟨appended.covered (entries _ rfl) covered,
        fun frontier => iff_of_true (appended.frontier covered frontier) trivial⟩
  | backfill h want fetch =>
    subst onGroup
    have outcome := backfill_outcome h want fetch s
    obtain ⟨n, ok⟩ := returns
    have done := outcome.returned n ok
    have served (id : LogEntryId) (e : LogEntry) (h : Serves fetch id e) : e ∈ U :=
      entries e ⟨id, h⟩
    exact ⟨done.covered free signed served covered onDag,
      done.frontier_iff free signed served covered onDag⟩

theorem runCalls_frontier_iff (calls : List (Call ed)) (s : S) (onGroup : ∀ c ∈ calls, c.group = g)
    (returned : AllReturn s calls) (onDag : ∀ c ∈ calls, c.OnDag)
    (entries : ∀ c ∈ calls, ∀ e ∈ c.entries, e ∈ U) (free : CollisionFree U)
    (signed : ∀ e ∈ U, e.operatorSignature.length = 64) (covered : (log s).Covered U g)
    (frontier : (log s).Frontier g) :
    (∀ before rest, calls = before ++ rest → (log (runCalls s before)).Frontier g) ↔
      ∀ before c rest, calls = before ++ c :: rest → c.KeepsFrontier (log (runCalls s before)) := by
  induction calls generalizing s with
  | nil =>
    refine iff_of_true ?_ ?_
    · intro before rest split
      rw [(append_eq_nil_iff.mp split.symm).1]
      exact frontier
    · intro before c rest split
      cases before <;> cases split
  | cons c calls ih =>
    obtain ⟨returns, later⟩ := returned
    obtain ⟨coveredAfter, step⟩ := c.frontier_step s (onGroup c mem_cons_self) returns
      (onDag c mem_cons_self) (entries c mem_cons_self) free signed covered
    have tail (frontierAfter : (log (c.after s)).Frontier g) := ih (c.after s)
      (fun d hd => onGroup d (mem_cons_of_mem c hd)) later
      (fun d hd => onDag d (mem_cons_of_mem c hd))
      (fun d hd => entries d (mem_cons_of_mem c hd)) coveredAfter frontierAfter
    constructor
    · intro always before d rest split
      have frontierAfter : (log (c.after s)).Frontier g := always [c] calls rfl
      cases before with
      | nil =>
        cases split
        exact (step frontier).mp frontierAfter
      | cons b before =>
        cases split
        apply (tail frontierAfter).mp _ before d rest rfl
        exact fun before' rest' h => always (c :: before') rest' (by rw [h]; rfl)
    · intro meets before rest split
      have frontierAfter : (log (c.after s)).Frontier g :=
        (step frontier).mpr (meets [] c calls rfl)
      cases before with
      | nil => exact frontier
      | cons b before =>
        cases split
        apply (tail frontierAfter).mpr _ before rest rfl
        exact fun before' d rest' h => meets (c :: before') d rest' (by rw [h]; rfl)

/-- Along a run of successful calls on one group, from an empty storage and with remotes that serve
DAGs, no tip is ever a proper ancestor of another tip if and only if every backfill asks for a
current tip, or for an entry that is not stored and among whose ancestors every current tip is a
direct parent. -/
theorem tips_frontier_iff_calls_keep_frontier (s₀ : S) (empty : (log s₀).IsEmpty) (g : GroupName)
    (calls : List (Call ed)) (onGroup : ∀ c ∈ calls, c.group = g) (returned : AllReturn s₀ calls)
    (onDag : ∀ c ∈ calls, c.OnDag) (free : CollisionFree (callEntries calls)) :
    (∀ before rest, calls = before ++ rest → (log (runCalls s₀ before)).Frontier g) ↔
      ∀ before c rest, calls = before ++ c :: rest → c.KeepsFrontier (log (runCalls s₀ before)) := by
  have noEdge (a b : LogEntryId) : ¬(log s₀).ParentEdge a b := by
    rintro ⟨e, found, _⟩
    rw [empty.1 a] at found
    cases found
  have notStored (a : LogEntryId) : ¬(log s₀).Stored a := not_stored_iff.mpr (empty.1 a)
  have noTip (t : LogEntryId) : t ∉ (log s₀).tips g := by
    rw [empty.2 g]
    exact not_mem_nil
  apply runCalls_frontier_iff calls s₀ onGroup returned onDag _ free
    (fun e => signature_length_of_mem_callEntries)
  · refine ⟨holdsFrom_of_isEmpty empty, fun a b h => absurd h (notStored a), ?_,
      fun t tip => absurd tip (noTip t), fun a h => absurd h (notStored a)⟩
    intro a cycle
    obtain ⟨b, edge, _⟩ := TransGen.head'_iff.mp cycle
    exact noEdge a b edge
  · exact fun a tip => absurd tip (noTip a)
  · exact fun c hc e he => ⟨c, hc, he⟩

end General

namespace Sample

theorem fetchBoth_onDag : ServesDag fetchBoth := by
  refine ⟨fun id => if id = childId then 1 else 0, ?_⟩
  rintro a b ⟨e, serves, parent⟩
  rcases root_or_child_of_fetchBoth serves with rfl | rfl
  · simp at parent
  · rw [parentIds_child, mem_singleton] at parent
    subst parent
    dsimp only
    have atChild : a = childId := serves.fromEntry.symm
    rw [if_neg rootId_ne_childId, if_pos atChild]
    decide

def rootAppended : MemLogStorage := (Call.append group verifiedRoot).after MemLogStorage.new

theorem append_returns {v : VerifiedEntry ed} {s : MemLogStorage}
    (parents : ParentsStored (log s) v.intoInner.parentCids)
    (absent : (log s).entry (fromEntry v.intoInner) = none) : (Call.append group v).Returns s ∧
      AppendedTo (log s) (log ((Call.append group v).after s)) group v.intoInner := by
  have outcome := append_outcome s group v
  obtain ⟨id, ok⟩ := outcome.succeeds trivial trivial parents
  obtain ⟨rfl, done⟩ := outcome.returned id ok
  refine ⟨⟨_, ok⟩, done.resolve_left ?_⟩
  exact fun stored => not_stored_iff.mpr absent stored.1

theorem rootAppended_spec : (Call.append group verifiedRoot).Returns new ∧
    AppendedTo (log new) (log rootAppended) group root :=
  append_returns nofun rfl

theorem rootAppended_tips (t : LogEntryId) : t ∈ (log rootAppended).tips group ↔ t = rootId := by
  obtain ⟨_, mid, _, inserted, advanced⟩ := rootAppended_spec.2.written
  rw [advanced.mem_tips, inserted.tips_eq]
  exact or_iff_left fun h => not_mem_nil h.1

theorem rootAppended_child : (log rootAppended).entry childId = none :=
  rootAppended_spec.2.entry_of_ne rootId_ne_childId.symm

end Sample

open Sample in
/-- Append an entry, append its child, then backfill the first: it becomes a tip below a tip. -/
theorem append_append_backfill_not_frontier :
    AllReturn MemLogStorage.new [Call.append group verifiedRoot, .append group verifiedChild,
        .backfill group rootId fetchBoth] ∧ (Call.backfill group rootId fetchBoth).OnDag ∧
      ¬(log (runCalls MemLogStorage.new [Call.append group verifiedRoot,
        .append group verifiedChild, .backfill group rootId fetchBoth])).Frontier group := by
  obtain ⟨firstReturns, first⟩ := rootAppended_spec
  have rootStored : ParentsStored (log rootAppended) child.parentCids :=
    forall_mem_singleton.mpr ⟨rootId, ofCid_toCid rootId, first.stored_new⟩
  obtain ⟨secondReturns, second⟩ := append_returns (v := verifiedChild) rootStored rootAppended_child
  generalize state : (Call.append group verifiedChild).after rootAppended = s at secondReturns second
  have rootEntry : (log s).entry rootId = (log rootAppended).entry rootId :=
    second.entry_of_ne rootId_ne_childId
  have stored : (log s).Stored rootId := by
    rw [LogView.Stored, rootEntry]
    exact first.stored_new
  have tips (t : LogEntryId) : t ∈ (log s).tips group ↔ t = childId := by
    obtain ⟨_, mid, _, inserted, advanced⟩ := second.written
    rw [advanced.mem_tips, inserted.tips_eq, rootAppended_tips]
    exact or_iff_left fun h => h.2 (h.1 ▸ parentIds_child ▸ mem_singleton_self rootId)
  have outcome := backfill_outcome group rootId fetchBoth s
  obtain ⟨n, ok⟩ := outcome.succeeds trivial (Or.inl stored)
  refine ⟨⟨firstReturns, ?_⟩, fetchBoth_onDag, ?_⟩
  · change (Call.append group verifiedChild).Returns rootAppended ∧
      AllReturn ((Call.append group verifiedChild).after rootAppended) _
    rw [state]
    exact ⟨secondReturns, ⟨n, ok⟩, trivial⟩
  · change ¬(log ((Call.backfill group rootId fetchBoth).after
      ((Call.append group verifiedChild).after rootAppended))).Frontier group
    rw [state]
    intro frontier
    cases outcome.returned n ok with
    | isTip _ tip _ => exact rootId_ne_childId ((tips rootId).mp tip)
    | fetched e mid seen absent _ _ _ => exact not_stored_iff.mpr absent stored
    | promoted e found _ advanced =>
      have kept : childId ∉ parentIdsFromEntry e := by
        intro parent
        have edge : (log rootAppended).ParentEdge rootId childId := ⟨e, rootEntry ▸ found, parent⟩
        simpa using (first.parentEdge_iff childId).mp edge
      apply frontier rootId (advanced.mem_tips.mpr (Or.inl rfl)) childId
        (advanced.mem_tips.mpr (Or.inr ⟨(tips childId).mpr rfl, kept⟩))
      apply TransGen.single
      have edge := (second.parentEdge_iff rootId).mpr (parentIds_child ▸ mem_singleton_self rootId)
      exact parentEdge_congr advanced.entry_eq ▸ edge

open Sample in
/-- Append an entry, then backfill its child: the tips are a frontier throughout. -/
theorem append_backfill_frontier :
    AllReturn MemLogStorage.new [Call.append group verifiedRoot, .backfill group childId fetchBoth] ∧
      ∀ before rest, [Call.append group verifiedRoot, .backfill group childId fetchBoth] =
        before ++ rest → (log (runCalls MemLogStorage.new before)).Frontier group := by
  have outcome := backfill_outcome group childId fetchBoth rootAppended
  obtain ⟨n, ok⟩ := outcome.succeeds trivial
    (Or.inr ⟨[childId, rootId], mem_cons_self, by decide, fetchBoth_servesAll⟩)
  have returned : AllReturn new
      [Call.append group verifiedRoot, .backfill group childId fetchBoth] :=
    ⟨rootAppended_spec.1, ⟨n, ok⟩, trivial⟩
  refine ⟨returned, ?_⟩
  apply (tips_frontier_iff_calls_keep_frontier new ⟨fun _ => rfl, fun _ => rfl⟩ group
    _ ?_ returned ?_ ?_).mpr
  · intro before c rest split
    match before with
    | [] =>
      cases split
      trivial
    | [a] =>
      cases split
      refine Or.inr ⟨rootAppended_child, fun t tip _ => ?_⟩
      rw [(rootAppended_tips t).mp tip]
      exact ⟨child, fetchBoth_child, by simp⟩
    | a :: b :: more =>
      cases more <;> cases split
  · exact forall_mem_cons.mpr ⟨rfl, forall_mem_singleton.mpr rfl⟩
  · exact forall_mem_cons.mpr ⟨trivial, forall_mem_singleton.mpr fetchBoth_onDag⟩
  · apply collisionFree_of_root_or_child
    rintro e ⟨c, member, inCall⟩
    rcases mem_cons.mp member with rfl | member
    · exact Or.inl inCall
    · rw [mem_singleton] at member
      subst member
      obtain ⟨id, serves⟩ := inCall
      exact root_or_child_of_fetchBoth serves

end Stoa
