import Stoa.Properties.BackfillCompleteness
import Stoa.Transit.Pipeline

/-! A run of the pipeline appends one entry for each of the article's groups, on top of that group's
tips. -/
namespace Stoa

open LawfulLogStorage Relation List LogView Function LogEntryId

section General

variable {ed : Ed25519} {ctx : PipelineCtx} {cid : Cid}

/-- The log of `g` has an entry for the article: at a tip or below one. -/
def LogView.ContainsArticle (v : LogView) (g : GroupName) (cid : Cid) : Prop :=
  ∃ tip ∈ v.tips g, ∃ id e, v.Reaches tip id ∧ v.entry id = some e ∧ e.articleCid = cid

def groupsOf (ctx : PipelineCtx) (names : List String) : List GroupName :=
  names.filterMap (acceptedGroup ctx.groupFilter)

def articleGroups (ctx : PipelineCtx) (articleBytes : Bytes) : List GroupName :=
  match parseMessageIdAndNewsgroups (prependPathHeader articleBytes ctx.localHostname) with
  | .ok (some (_, names)) => groupsOf ctx names
  | _ => []

variable (ed ctx cid) in
/-- The tips of a group after the article has been appended `n` times. -/
def chainTips (tips : List LogEntryId) : Nat → List LogEntryId
  | 0 => tips
  | n + 1 => [LogEntryId.fromEntry (articleEntry ed ctx.operatorSigningKey ctx.timestamp cid
      (chainTips tips n))]

variable (ed ctx cid) in
def chainEntry (tips : List LogEntryId) (n : Nat) : LogEntry :=
  articleEntry ed ctx.operatorSigningKey ctx.timestamp cid (chainTips ed ctx cid tips n)

variable (ed ctx cid) in
def EntriesApart (v : LogView) (groups : List GroupName) : Prop :=
  ∀ g ∈ groups, v.ContainsArticle g cid ∨
    ¬v.Stored (LogEntryId.fromEntry (chainEntry ed ctx cid (v.tips g) 0)) ∧
      ∀ h ∈ groups, h ≠ g → ¬(v.tips h).Perm (v.tips g)

variable (ed ctx cid) in
/-- The log during a run that started from `v₀`: `count g` appends to `g` have written an entry. -/
structure Progress (v₀ v : LogView) (count : GroupName → Nat) : Prop where
  tips : ∀ g, v.tips g = chainTips ed ctx cid (v₀.tips g) (count g)
  old : ∀ id e, v₀.entry id = some e → v.entry id = some e
  new : ∀ id, v₀.entry id = none → v.Stored id →
    ∃ g n, n < count g ∧ id = LogEntryId.fromEntry (chainEntry ed ctx cid (v₀.tips g) n)
  written : ∀ g n, n < count g →
    v₀.entry (LogEntryId.fromEntry (chainEntry ed ctx cid (v₀.tips g) n)) = none ∧
      ∃ e', v.entry (LogEntryId.fromEntry (chainEntry ed ctx cid (v₀.tips g) n)) = some e' ∧
        e'.articleCid = cid
  apart : ∀ g h, 0 < count g → 0 < count h → (v₀.tips h).Perm (v₀.tips g) → h = g

variable {v₀ v v' : LogView} {count : GroupName → Nat} {g : GroupName}

theorem Progress.start (v : LogView) : Progress ed ctx cid v v fun _ => 0 := by
  refine ⟨fun _ => rfl, fun _ _ h => h, ?_, nofun, nofun⟩
  intro id absent stored
  exact absurd stored (not_stored_iff.mpr absent)

theorem AppendedTo.tips_of_articleEntry {tips : List LogEntryId} {key : SigningKey}
    {timestamp : HlcTimestamp} (same : v.tips g = tips)
    (appended : AppendedTo v v' g (articleEntry ed key timestamp cid tips)) :
    v'.tips g = [fromEntry (articleEntry ed key timestamp cid tips)] := by
  obtain ⟨e', mid, _, inserted, advanced⟩ := appended.written
  -- All the old tips are parents of the new entry.
  have retired : advance (mid.tips g) tips
      (fromEntry (articleEntry ed key timestamp cid tips)) =
      [fromEntry (articleEntry ed key timestamp cid tips)] := by
    rw [inserted.tips_eq, same]
    simp [advance]
  have perm := advanced.tips_perm
  rw [parentIds_articleEntry, retired] at perm
  exact perm_singleton.mp perm

theorem AppendedTo.tips_of_ne {e : LogEntry} {h : GroupName} (appended : AppendedTo v v' g e)
    (other : h ≠ g) : v'.tips h = v.tips h := by
  obtain ⟨e', mid, _, inserted, advanced⟩ := appended.written
  rw [advanced.others h other, inserted.tips_eq]

theorem AppendedTo.entry_new {e : LogEntry} (appended : AppendedTo v v' g e) :
    ∃ e', v'.entry (fromEntry e) = some e' ∧ e'.articleCid = e.articleCid := by
  obtain ⟨e', mid, stored, inserted, advanced⟩ := appended.written
  refine ⟨e', ?_, stored.articleCid⟩
  rw [advanced.entry_eq, inserted.entry_eq, update_self]

theorem Progress.appended (progress : Progress ed ctx cid v₀ v count)
    (appended : AppendedTo v v' g (chainEntry ed ctx cid (v₀.tips g) (count g))) :
    Progress ed ctx cid v₀ v' (Function.update count g (count g + 1)) := by
  have absent : ¬v.Stored (fromEntry (chainEntry ed ctx cid (v₀.tips g) (count g))) :=
    not_stored_iff.mpr appended.absent
  have persists {id : LogEntryId} {e : LogEntry} (found : v.entry id = some e) :
      v'.entry id = some e := by
    rw [appended.entry_of_ne, found]
    rintro rfl
    exact absent (stored_iff.mpr ⟨e, found⟩)
  have grows (h : GroupName) : count h ≤ Function.update count g (count g + 1) h := by
    by_cases same : h = g
    · subst same
      simp
    · rw [update_of_ne same]
  refine ⟨?_, fun id e found => persists (progress.old id e found), ?_, ?_, ?_⟩
  · intro h
    by_cases same : h = g
    · subst same
      rw [update_self]
      exact appended.tips_of_articleEntry (progress.tips h)
    · rw [update_of_ne same, appended.tips_of_ne same, progress.tips]
  · intro id notOld stored
    rcases appended.stored_cases stored with before | rfl
    · obtain ⟨h, n, bound, named⟩ := progress.new id notOld before
      exact ⟨h, n, lt_of_lt_of_le bound (grows h), named⟩
    · exact ⟨g, count g, by simp, rfl⟩
  · intro h n bound
    by_cases last : h = g ∧ n = count g
    · obtain ⟨rfl, rfl⟩ := last
      refine ⟨?_, appended.entry_new⟩
      by_contra found
      obtain ⟨e, found⟩ := Option.ne_none_iff_exists'.mp found
      exact absent (stored_iff.mpr ⟨e, progress.old _ e found⟩)
    · have earlier : n < count h := by
        by_cases same : h = g
        · subst same
          rw [update_self] at bound
          have : n ≠ count h := fun equal => last ⟨rfl, equal⟩
          omega
        · rwa [update_of_ne same] at bound
      obtain ⟨fresh, e', found, article⟩ := progress.written h n earlier
      exact ⟨fresh, e', persists found, article⟩
  · -- Another group on the same tips has written the entry that `g` has just written.
    have unshared (b : GroupName) (other : b ≠ g) (pos : 0 < count b)
        (perm : (v₀.tips b).Perm (v₀.tips g)) : False := by
      rcases Nat.eq_zero_or_pos (count g) with first | again
      · obtain ⟨_, e', found, _⟩ := progress.written b 0 pos
        have sameId : fromEntry (chainEntry ed ctx cid (v₀.tips b) 0) =
            fromEntry (chainEntry ed ctx cid (v₀.tips g) (count g)) := by
          rw [first]
          exact fromEntry_articleEntry_perm perm
        exact absent (stored_iff.mpr ⟨e', sameId ▸ found⟩)
      · exact other (progress.apart g b again pos perm)
    intro a b posA posB perm
    by_cases isA : a = g <;> by_cases isB : b = g
    · rw [isA, isB]
    · rw [update_of_ne isB] at posB
      exact (unshared b isB posB (isA ▸ perm)).elim
    · rw [update_of_ne isA] at posA
      exact (unshared a isA posA (isB ▸ perm.symm)).elim
    · rw [update_of_ne isA] at posA
      rw [update_of_ne isB] at posB
      exact progress.apart a b posA posB perm

section Run

variable {S : Type} [LogStorage S] [LawfulLogStorage S]

theorem asStr_of_acceptedGroup {filter : GroupPolicy} {name : String}
    (accepted : acceptedGroup filter name = some g) : g.asStr = name := by
  unfold acceptedGroup GroupName.new at accepted
  split at accepted
  · cases accepted
  · rename_i group made
    split at made
    · cases made
      split at accepted
      · cases accepted
        rfl
      · split at accepted
        · cases accepted
          rfl
        · cases accepted
    · cases made

theorem Progress.stored_mono {count' : GroupName → Nat}
    (progress : Progress ed ctx cid v₀ v count) (later : Progress ed ctx cid v₀ v' count')
    (grows : ∀ g, count g ≤ count' g) {id : LogEntryId} (stored : v.Stored id) : v'.Stored id := by
  cases before : v₀.entry id with
  | some e => exact stored_iff.mpr ⟨e, later.old id e before⟩
  | none =>
    obtain ⟨g, n, bound, rfl⟩ := progress.new id before stored
    obtain ⟨_, e', found, _⟩ := later.written g n (lt_of_lt_of_le bound (grows g))
    exact stored_iff.mpr ⟨e', found⟩

variable (ed ctx cid) in
/-- From `count` to `count'` by appends to `groups`; those that returned have a count, or their
entry was there. -/
structure Moves (v₀ v' : LogView) (count count' : GroupName → Nat) (groups : List GroupName)
    (returned : GroupName → Prop) : Prop where
  progress : Progress ed ctx cid v₀ v' count'
  grows : ∀ g, count g ≤ count' g
  bound : ∀ g, count' g ≤ count g + groups.count g
  recorded : ∀ g, returned g → 0 < count' g ∨
    v'.Stored (LogEntryId.fromEntry (chainEntry ed ctx cid (v₀.tips g) 0))

theorem Moves.trans {v₁ v₂ : LogView} {count₁ count₂ : GroupName → Nat}
    {groups₁ groups₂ : List GroupName} {returned₁ returned₂ : GroupName → Prop}
    (first : Moves ed ctx cid v₀ v₁ count count₁ groups₁ returned₁)
    (next : Moves ed ctx cid v₀ v₂ count₁ count₂ groups₂ returned₂) :
    Moves ed ctx cid v₀ v₂ count count₂ (groups₁ ++ groups₂) fun g => returned₁ g ∨ returned₂ g := by
  refine ⟨next.progress, fun g => (first.grows g).trans (next.grows g), ?_, ?_⟩
  · intro g
    have one := first.bound g
    have two := next.bound g
    rw [count_append]
    omega
  · rintro g (early | late)
    · rcases first.recorded g early with pos | stored
      · exact .inl (lt_of_lt_of_le pos (next.grows g))
      · exact .inr (first.progress.stored_mono next.progress next.grows stored)
    · exact next.recorded g late

theorem Moves.imp {count' : GroupName → Nat} {groups : List GroupName}
    {returned returned' : GroupName → Prop} (moves : Moves ed ctx cid v₀ v' count count' groups returned)
    (weaker : ∀ g, returned' g → returned g) : Moves ed ctx cid v₀ v' count count' groups returned' :=
  ⟨moves.progress, moves.grows, moves.bound, fun g h => moves.recorded g (weaker g h)⟩

theorem LogOutcome.moves {s s' : S} {r : Except PipelineError (Option LogEntryId)}
    (outcome : LogOutcome ed ctx cid g s r s') (progress : Progress ed ctx cid v₀ (log s) count) :
    ∃ count', Moves ed ctx cid v₀ (log s') count count' [g] fun h =>
      h = g ∧ ∃ id, r = .ok (some id) := by
  obtain ⟨appended, rfl⟩ := outcome.completes
  cases appended with
  | none =>
    rw [outcome.skipped rfl]
    exact ⟨count, progress, fun _ => le_rfl, fun _ => Nat.le_add_right _ _, nofun⟩
  | some id =>
    obtain ⟨rfl, effect⟩ := outcome.returned id rfl
    rw [progress.tips g] at effect
    rcases effect with ⟨stored, same⟩ | written
    · rw [same]
      refine ⟨count, progress, fun _ => le_rfl, fun _ => Nat.le_add_right _ _, ?_⟩
      rintro h ⟨rfl, _⟩
      -- With no append so far, the stored entry is the one on the tips before the run.
      rcases Nat.eq_zero_or_pos (count h) with first | again
      · rw [first] at stored
        exact .inr stored
      · exact .inl again
    · refine ⟨_, progress.appended written, ?_, ?_, ?_⟩
      · intro h
        by_cases same : h = g
        · subst same
          simp
        · rw [update_of_ne same]
      · intro h
        by_cases same : h = g
        · subst same
          simp
        · rw [update_of_ne same]
          exact Nat.le_add_right _ _
      · rintro h ⟨rfl, _⟩
        simp

theorem Progress.tips_stored (progress : Progress ed ctx cid v₀ v count)
    (stored : ∀ t ∈ v₀.tips g, v₀.Stored t) : ∀ t ∈ v.tips g, v.Stored t := by
  rw [progress.tips]
  cases reached : count g with
  | zero =>
    intro t tip
    obtain ⟨e, found⟩ := stored_iff.mp (stored t tip)
    exact stored_iff.mpr ⟨e, progress.old t e found⟩
  | succ n =>
    intro t tip
    obtain ⟨_, e', found, _⟩ := progress.written g n (by omega)
    rw [chainTips, mem_singleton] at tip
    exact tip ▸ stored_iff.mpr ⟨e', found⟩

theorem appendToLogs_outcome (names : List String) (s : S)
    (progress : Progress ed ctx cid v₀ (log s) count) :
    Prog.Satisfies (appendToLogs ed ctx cid names) s fun r s' =>
      ∃ appended, r = .ok appended ∧
        (∃ count', Moves ed ctx cid v₀ (log s') count count' (groupsOf ctx names) fun g =>
          g.asStr ∈ appended.map Prod.fst) ∧
        (Healthy s → (∀ tips, Storable S (articleEntry ed ctx.operatorSigningKey ctx.timestamp cid
          tips)) → (∀ g ∈ groupsOf ctx names, ∀ t ∈ v₀.tips g, v₀.Stored t) →
          ∀ g ∈ groupsOf ctx names, g.asStr ∈ appended.map Prod.fst) := by
  induction names generalizing s count with
  | nil =>
    apply Prog.satisfies_pure
    exact ⟨[], rfl, ⟨count, progress, fun _ => le_rfl, fun _ => le_rfl, nofun⟩, fun _ _ _ => nofun⟩
  | cons name rest ih =>
    unfold appendToLogs groupsOf
    cases accepted : acceptedGroup ctx.groupFilter name with
    | none =>
      rw [filterMap_cons_none accepted]
      exact ih s progress
    | some g =>
      rw [filterMap_cons_some accepted]
      have isName : g.asStr = name := asStr_of_acceptedGroup accepted
      apply Prog.satisfies_bind (appendToLog_outcome ctx cid g s)
      · intro first s₁ outcome
        obtain ⟨count₁, moved⟩ := outcome.moves progress
        apply Prog.satisfies_bind (ih s₁ moved.progress)
        · rintro later s₂ ⟨_, ⟨⟩, ⟨count₂, movedLater⟩, all⟩
          have both := moved.trans movedLater
          cases first with
          | none =>
            apply Prog.satisfies_pure
            refine ⟨later, rfl, ⟨count₂, both.imp fun _ => .inr⟩, ?_⟩
            intro healthy storable stored
            obtain ⟨id, ok⟩ := outcome.succeeds healthy (storable _)
              (progress.tips_stored (stored g mem_cons_self))
            cases ok
          | some id =>
            apply Prog.satisfies_pure
            refine ⟨(name, id) :: later, rfl, ⟨count₂, both.imp ?_⟩, ?_⟩
            · intro h member
              rcases mem_cons.mp member with same | inLater
              · exact .inl ⟨GroupName.ext_asStr (same.trans isName.symm), id, rfl⟩
              · exact .inr inLater
            · intro healthy storable stored
              refine forall_mem_cons.mpr ⟨isName ▸ mem_cons_self, fun h member => ?_⟩
              exact mem_cons_of_mem _ (all (outcome.stays_healthy healthy) storable
                (fun h member => stored h (mem_cons_of_mem g member)) h member)
        · rintro e s₂ ⟨_, ⟨⟩, _⟩
      · intro e s₁ outcome
        obtain ⟨_, ⟨⟩⟩ := outcome.completes

section Contains

variable {count' : GroupName → Nat} {groups : List GroupName} {returned : GroupName → Prop}

theorem Progress.reaches_mono (progress : Progress ed ctx cid v₀ v count) {a b : LogEntryId}
    (path : v₀.Reaches a b) : v.Reaches a b := by
  refine ReflTransGen.mono ?_ a b path
  rintro a b ⟨e, found, parent⟩
  exact ⟨e, progress.old a e found, parent⟩

theorem Progress.contains_of_pos (progress : Progress ed ctx cid v₀ v count)
    (pos : 0 < count g) : v.ContainsArticle g cid := by
  obtain ⟨n, reached⟩ := Nat.exists_eq_succ_of_ne_zero (Nat.ne_of_gt pos)
  obtain ⟨_, e', found, article⟩ := progress.written g n (by omega)
  refine ⟨_, ?_, _, e', ReflTransGen.refl, found, article⟩
  rw [progress.tips, reached]
  exact mem_singleton_self _

theorem Progress.contains_of_old (progress : Progress ed ctx cid v₀ v count)
    (contains : v₀.ContainsArticle g cid) : v.ContainsArticle g cid := by
  rcases Nat.eq_zero_or_pos (count g) with none | pos
  · obtain ⟨tip, isTip, id, e, path, found, article⟩ := contains
    refine ⟨tip, ?_, id, e, progress.reaches_mono path, progress.old id e found, article⟩
    rw [progress.tips, none]
    exact isTip
  · exact progress.contains_of_pos pos

theorem Progress.contains_old_of_zero (progress : Progress ed ctx cid v₀ v count)
    (closed : ∀ t ∈ v₀.tips g, v₀.Complete t) (zero : count g = 0)
    (contains : v.ContainsArticle g cid) : v₀.ContainsArticle g cid := by
  obtain ⟨tip, isTip, id, e, path, found, article⟩ := contains
  rw [progress.tips, zero] at isTip
  -- The new entries are not among the ids below the tip, so the path is an old one.
  have oldPath : v₀.Reaches tip id := by
    clear found article
    induction path with
    | refl => exact ReflTransGen.refl
    | tail _ edge ih =>
      obtain ⟨d, found, parent⟩ := edge
      obtain ⟨d', foundOld⟩ := stored_iff.mp (closed tip isTip _ ih)
      have same := (progress.old _ d' foundOld).symm.trans found
      cases same
      exact ih.tail ⟨d, foundOld, parent⟩
  obtain ⟨e', foundOld⟩ := stored_iff.mp (closed tip isTip id oldPath)
  have same := (progress.old id e' foundOld).symm.trans found
  cases same
  exact ⟨tip, isTip, id, e, oldPath, foundOld, article⟩

theorem Moves.contains_of_apart (moves : Moves ed ctx cid v₀ v (fun _ => 0) count' groups returned)
    (free : CollisionFree { e | ∃ g ∈ groups, ∃ n < groups.length,
      e = chainEntry ed ctx cid (v₀.tips g) n })
    (apart : EntriesApart ed ctx cid v₀ groups) (member : g ∈ groups) (isReturned : returned g) :
    v.ContainsArticle g cid := by
  rcases moves.recorded g isReturned with pos | stored
  · exact moves.progress.contains_of_pos pos
  rcases apart g member with before | ⟨fresh, unshared⟩
  · exact moves.progress.contains_of_old before
  -- The entry was written in this run, for a group `h`.
  obtain ⟨h, n, bound, sameId⟩ := moves.progress.new _ (not_stored_iff.mp fresh) stored
  have counted : count' h ≤ groups.count h := by simpa using moves.bound h
  have isGroup : h ∈ groups := count_pos_iff.mp (by omega)
  have length : groups.count h ≤ groups.length := count_le_length
  by_cases own : h = g
  · exact moves.progress.contains_of_pos (own ▸ (by omega : 0 < count' h))
  have bytes := free _ ⟨g, member, 0, by omega, rfl⟩ _ ⟨h, isGroup, n, by omega, rfl⟩ sameId
  have parents : ((v₀.tips g).map toCid).Perm
      ((chainTips ed ctx cid (v₀.tips h) n).map toCid) := by
    refine ((entryIdBytes_eq_iff _ _ _ _ _ _ _ _ ?_).mp bytes).2.2.2
    simp [chainEntry, articleEntry]
  have perm := (map_perm_map_iff toCid_injective).mp parents
  cases n with
  | zero => exact absurd perm.symm (unshared h isGroup own)
  | succ m =>
    -- The tip of `g` is an entry that this run has written for `h`.
    have tips := perm_singleton.mp perm
    rcases Nat.eq_zero_or_pos (count' g) with none | pos
    · obtain ⟨_, e', found, article⟩ := moves.progress.written h m (by omega)
      refine ⟨_, ?_, _, e', ReflTransGen.refl, found, article⟩
      rw [moves.progress.tips, none, chainTips, tips]
      exact mem_singleton_self _
    · exact moves.progress.contains_of_pos pos

theorem Moves.apart_of_contains (moves : Moves ed ctx cid v₀ v (fun _ => 0) count' groups returned)
    (closed : ∀ g ∈ groups, ∀ t ∈ v₀.tips g, v₀.Complete t)
    (contains : ∀ g ∈ groups, v.ContainsArticle g cid) : EntriesApart ed ctx cid v₀ groups := by
  intro g member
  by_cases before : v₀.ContainsArticle g cid
  · exact .inl before
  -- A group that had not the article has it from an append of its own.
  have pos (h : GroupName) (isGroup : h ∈ groups) (absent : ¬v₀.ContainsArticle h cid) :
      0 < count' h :=
    Nat.pos_of_ne_zero fun zero => absent
      (moves.progress.contains_old_of_zero (closed h isGroup) zero (contains h isGroup))
  have posG := pos g member before
  refine .inr ⟨not_stored_iff.mpr (moves.progress.written g 0 posG).1, ?_⟩
  intro h isGroup other perm
  have absent : ¬v₀.ContainsArticle h cid := by
    rintro ⟨tip, isTip, rest⟩
    exact before ⟨tip, perm.mem_iff.mp isTip, rest⟩
  exact other (moves.progress.apart g h posG (pos h isGroup absent) perm)

end Contains

theorem articleGroups_of_parsed {articleBytes : Bytes} {messageId : String} {names : List String}
    (parsed : parseMessageIdAndNewsgroups (prependPathHeader articleBytes ctx.localHostname) =
      .ok (some (messageId, names))) : articleGroups ctx articleBytes = groupsOf ctx names := by
  rw [articleGroups, parsed]

omit [LawfulLogStorage S] in
theorem mem_groupsOf_of_appended {names : List String} {appended : List (String × LogEntryId)}
    {s s' : S} (run : (appendToLogs ed ctx cid names).exec s = (.ok appended, s'))
    (member : g.asStr ∈ appended.map Prod.fst) : g ∈ groupsOf ctx names := by
  induction names generalizing appended s with
  | nil =>
    cases run
    cases member
  | cons name rest ih =>
    unfold appendToLogs at run
    unfold groupsOf
    cases accepted : acceptedGroup ctx.groupFilter name with
    | none =>
      rw [accepted] at run
      rw [filterMap_cons_none accepted]
      exact ih run member
    | some h =>
      rw [accepted] at run
      rw [filterMap_cons_some accepted]
      obtain ⟨first, s₁, _, afterFirst⟩ := Prog.of_exec_bind_ok run
      obtain ⟨later, s₂, runLater, done⟩ := Prog.of_exec_bind_ok afterFirst
      cases first with
      | none =>
        cases done
        exact mem_cons_of_mem h (ih runLater member)
      | some id =>
        cases done
        rcases mem_cons.mp member with same | inLater
        · have isName := asStr_of_acceptedGroup accepted
          exact GroupName.ext_asStr (same.trans isName.symm) ▸ mem_cons_self
        · exact mem_cons_of_mem h (ih runLater inLater)

/-- If the entries of the article's groups are told apart, every group that a returned run names
has the article in its log, from whatever state the run started. On a healthy storage in which
everything below the tips is stored, this is the only case in which they all do. -/
theorem run_pipeline_fills_logs_iff_entries_apart {I : Type} [IpfsStore I] (articleBytes : Bytes)
    (clock : PipelineClock) (t t' : Transit I S) (result : PipelineResult) (metrics : PipelineMetrics)
    (run : (runPipeline ed articleBytes ctx clock).exec t = (.ok (result, metrics), t'))
    (free : CollisionFree { e | ∃ g ∈ articleGroups ctx articleBytes,
      ∃ n < (articleGroups ctx articleBytes).length,
        e = chainEntry ed ctx (rawCid (prependPathHeader articleBytes ctx.localHostname))
          ((log t.logStorage).tips g) n }) :
    let apart := EntriesApart ed ctx
      (rawCid (prependPathHeader articleBytes ctx.localHostname)) (log t.logStorage)
      (articleGroups ctx articleBytes)
    let filled := ∀ g : GroupName, g.asStr ∈ result.groups →
      (log t'.logStorage).ContainsArticle g result.cid
    (apart → filled) ∧
      (Healthy t.logStorage →
        (∀ tips, Storable S (articleEntry ed ctx.operatorSigningKey ctx.timestamp
          (rawCid (prependPathHeader articleBytes ctx.localHostname)) tips)) →
        (∀ g ∈ articleGroups ctx articleBytes, ∀ tip ∈ (log t.logStorage).tips g,
          (log t.logStorage).Complete tip) →
        (filled ↔ apart)) := by
  obtain ⟨messageId, names, appended, parsed, named, runLogs, groups⟩ := runPipeline_returned ed run
  rw [articleGroups_of_parsed parsed] at free ⊢
  rw [← named] at free ⊢
  rw [groups]
  obtain ⟨_, ⟨⟩, ⟨count, moves⟩, all⟩ := (appendToLogs_outcome names t.logStorage
    (Progress.start (log t.logStorage))).of_exec runLogs
  intro apart filled
  have sufficient (h : apart) : filled := fun g member =>
    moves.contains_of_apart free h (mem_groupsOf_of_appended runLogs member) member
  refine ⟨sufficient, fun healthy storable closed => ⟨fun h => ?_, sufficient⟩⟩
  apply moves.apart_of_contains closed
  intro g member
  have stored (g : GroupName) (isGroup : g ∈ groupsOf ctx names) (tip : LogEntryId)
      (isTip : tip ∈ (log t.logStorage).tips g) : (log t.logStorage).Stored tip :=
    closed g isGroup tip isTip tip ReflTransGen.refl
  exact h g (all healthy storable stored g member)

end Run

end General

namespace Sample

def crosspost : Bytes := Text.asBytes
  "Message-ID: <1@example.com>\r\nNewsgroups: comp.test,comp.misc\r\n\r\nHello\r\n"

def misc : GroupName := ⟨"comp.misc", by decide⟩

def ctx : PipelineCtx := ⟨.ofWallMs 3000, key, "news.example.com", none⟩

def clock : PipelineClock := ⟨2, 3000⟩

def crosspostCid : Cid := .newV1 0x55 ⟨0x12, (FixedBytes.ofNumber 32
  0x026b1d9e79f0f2d84aed06af91bf078a025f63eccff13474e07d23cad8f03a90).toBytes, by simp⟩

theorem rawCid_crosspost : rawCid (prependPathHeader crosspost ctx.localHostname) = crosspostCid := by
  decide +kernel

def transitEd : Ed25519 := .ofSignatures key pubkey
  [(logEntryCanonicalBytes 3000 crosspostCid [], .ofNumber 64
    0xd97a2667cd73bacd498006ca774f676d0c757ca2876c93a4c4ca392979d8f0031df83bac1140a400c44225892898bc9e12f9ac34ed01e8678b58bf0cd1f11404),
   (logEntryCanonicalBytes 3000 crosspostCid [rootId.toCid], .ofNumber 64
    0x2a28df3c4ed6caa2b3aa05b501e4af94b0e8a131adca28f8d2115a84445b61bba08377ddff8c8db8c42eb35d86f86158e7fc924013ba2191dfdc8d59e1088202)]

def transit (logStorage : MemLogStorage) : Transit MemIpfsStore MemLogStorage :=
  ⟨.new, .new, logStorage, ⟨Table.empty, []⟩⟩

def ingest (logStorage : MemLogStorage) :=
  (runPipeline transitEd crosspost ctx clock).exec (transit logStorage)

/-- The root is in the log of `comp.misc`. -/
def miscRoot : MemLogStorage :=
  ⟨(∅ : AList _).insert rootId.asBytes root, (∅ : AList _).insert "comp.misc" [rootId.asBytes]⟩

theorem ingest_returned {logStorage : MemLogStorage} {result : PipelineResult × PipelineMetrics}
    (returned : (ingest logStorage).1.toOption = some result) :
    ingest logStorage = (.ok result, (ingest logStorage).2) := by
  rcases run : ingest logStorage with ⟨e | r, t⟩
  · rw [run] at returned
    cases returned
  · rw [run] at returned
    cases returned
    rfl

theorem ingest_empty : (ingest .new).1.toOption =
      some (⟨crosspostCid, ["comp.test", "comp.misc"]⟩, ⟨1, 2⟩) ∧
    (log (ingest .new).2.logStorage).tips misc = [] := by
  decide +kernel

theorem ingest_miscRoot : (ingest miscRoot).1.toOption =
    some (⟨crosspostCid, ["comp.test", "comp.misc"]⟩, ⟨1, 2⟩) := by
  decide +kernel

theorem articleGroups_crosspost : articleGroups ctx crosspost = [group, misc] := by decide +kernel

theorem collisionFree_miscRoot : CollisionFree { e | ∃ g ∈ articleGroups ctx crosspost,
    ∃ n < (articleGroups ctx crosspost).length,
      e = chainEntry transitEd ctx crosspostCid ((log miscRoot).tips g) n } := by
  rw [articleGroups_crosspost]
  have pairs : ∀ g ∈ [group, misc], ∀ m < 2, ∀ h ∈ [group, misc], ∀ n < 2,
      fromEntry (chainEntry transitEd ctx crosspostCid ((log miscRoot).tips g) m) =
        fromEntry (chainEntry transitEd ctx crosspostCid ((log miscRoot).tips h) n) →
      g = h ∧ m = n := by
    decide +kernel
  rintro _ ⟨g, hg, m, hm, rfl⟩ _ ⟨h, hh, n, hn, rfl⟩ same
  obtain ⟨rfl, rfl⟩ := pairs g hg m hm h hh n hn same
  rfl

theorem entriesApart_miscRoot : EntriesApart transitEd ctx crosspostCid (log miscRoot)
    (articleGroups ctx crosspost) := by
  rw [articleGroups_crosspost]
  refine fun g member => .inr ⟨?_, ?_⟩
  · revert g
    decide +kernel
  · revert g
    decide +kernel

end Sample

open Sample in
/-- Two groups without tips: the run names both, and the second one has no entry at all. -/
theorem crosspost_misses_second_group :
    ∃ t', (runPipeline transitEd crosspost ctx clock).exec (transit .new) =
        (.ok (⟨crosspostCid, ["comp.test", "comp.misc"]⟩, ⟨1, 2⟩), t') ∧
      ¬(log t'.logStorage).ContainsArticle misc crosspostCid := by
  obtain ⟨returned, noTips⟩ := ingest_empty
  refine ⟨_, ingest_returned returned, ?_⟩
  rintro ⟨tip, isTip, _⟩
  rw [noTips] at isTip
  cases isTip

open Sample in
/-- With the root in the log of one of the groups, the article reaches both logs. -/
theorem crosspost_fills_both_logs :
    ∃ t', (runPipeline transitEd crosspost ctx clock).exec (transit miscRoot) =
        (.ok (⟨crosspostCid, ["comp.test", "comp.misc"]⟩, ⟨1, 2⟩), t') ∧
      (log t'.logStorage).ContainsArticle group crosspostCid ∧
      (log t'.logStorage).ContainsArticle misc crosspostCid := by
  have run := ingest_returned ingest_miscRoot
  have filled := (run_pipeline_fills_logs_iff_entries_apart crosspost clock (transit miscRoot) _ _ _
    run (rawCid_crosspost ▸ collisionFree_miscRoot)).1 (rawCid_crosspost ▸ entriesApart_miscRoot)
  exact ⟨_, run, filled group (by decide), filled misc (by decide)⟩

end Stoa
