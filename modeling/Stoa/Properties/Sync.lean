import Stoa.Core.GroupLog.Reconcile
import Stoa.Properties.BackfillCompleteness

/-! What one side wants, the other side offers, and one round brings over everything that is
reachable from the other side's tips. -/
namespace Stoa

open LawfulLogStorage List LogView

section Offers

variable {A B : Type} [LogStorage A] [LawfulLogStorage A] [LogStorage B] [LawfulLogStorage B]

/-- Every id that one side wants is among those the other side offers, if the wanting side has its
tips stored and the offering side has no more tips than fit in an offer. -/
theorem reconcile_want_offered (a : A) (b : B) (g : GroupName)
    (tipsStored : ∀ t ∈ (log a).tips g, (log a).Stored t) (few : ((log b).tips g).length ≤ maxHave) :
    (Healthy a → ∃ x, ((reconcile g ((log b).tips g)).exec a).1 = .ok x) ∧
      (Healthy b → ∃ y, ((reconcile g ((log a).tips g)).exec b).1 = .ok y) ∧
      ∀ x y, ((reconcile g ((log b).tips g)).exec a).1 = .ok x →
        ((reconcile g ((log a).tips g)).exec b).1 = .ok y → ∀ id ∈ x.want, id ∈ y.have := by
  have wants := reconcile_outcome g ((log b).tips g) a
  have offers := reconcile_outcome g ((log a).tips g) b
  refine ⟨wants.succeeds, offers.succeeds, ?_⟩
  intro x y okX okY id wanted
  rw [(wants.returned x okX).want_eq, mem_filter, decide_eq_true_eq] at wanted
  obtain ⟨tip, missing⟩ := wanted
  -- A wanted id is not stored by the wanting side, so it is not one of its tips.
  exact (offers.returned y okY).offered few id tip fun known => missing (tipsStored id known)

end Offers

section Round

variable {ed : Ed25519}

def backfillEach {S : Type} [LogStorage S] (group : GroupName) (fetch : Fetch ed) :
    List LogEntryId → Prog S BackfillError Unit
  | [] => pure ()
  | wantId :: rest => do
    let _ ← backfill group wantId fetch
    backfillEach group fetch rest

def syncRound {S : Type} [LogStorage S] (group : GroupName) (remoteTips : List LogEntryId)
    (fetch : Fetch ed) : Prog S BackfillError Unit := do
  let result ← (reconcile group remoteTips).mapError BackfillError.storage
  backfillEach group fetch result.want

namespace LogView

/-- All tips are stored, and all parent CIDs name stored entries. -/
structure ClosedUnderAncestors (v : LogView) : Prop where
  tips : ∀ g, ∀ t ∈ v.tips g, v.Stored t
  parents : ∀ id e, v.entry id = some e → ∀ c ∈ e.parentCids,
    ∃ p, LogEntryId.ofCid c = some p ∧ v.Stored p

/-- The log of a replica: closed, each entry under its own id and with an Ed25519 signature. -/
structure Replica (v : LogView) : Prop extends v.ClosedUnderAncestors where
  addressed : ∀ id e, v.entry id = some e → LogEntryId.fromEntry e = id
  signed : ∀ id e, v.entry id = some e → e.operatorSignature.length = 64

variable {v v' w : LogView}

theorem ClosedUnderAncestors.stored_parent (closed : v.ClosedUnderAncestors) {id p : LogEntryId}
    {e : LogEntry} (found : v.entry id = some e) (parent : p ∈ parentIdsFromEntry e) : v.Stored p := by
  obtain ⟨c, member, named⟩ := mem_filterMap.mp parent
  obtain ⟨q, named', stored⟩ := closed.parents id e found c member
  rw [named] at named'
  cases named'
  exact stored

theorem ClosedUnderAncestors.advanced (closed : v.ClosedUnderAncestors) {g : GroupName}
    {parents : List LogEntryId} {new : LogEntryId} (stored : v.Stored new)
    (advanced : v.Advanced v' g parents new) : v'.ClosedUnderAncestors := by
  have same (id : LogEntryId) : v'.Stored id ↔ v.Stored id := by
    rw [Stored, Stored, advanced.entry_eq]
  constructor
  · intro h t tip
    rw [same]
    by_cases here : h = g
    · subst here
      rcases advanced.mem_tips.mp tip with rfl | ⟨old, _⟩
      · exact stored
      · exact closed.tips h t old
    · rw [advanced.others h here] at tip
      exact closed.tips h t tip
  · intro id e found c member
    rw [advanced.entry_eq] at found
    obtain ⟨p, named, stored⟩ := closed.parents id e found c member
    exact ⟨p, named, (same p).mpr stored⟩

/-- A finished search keeps the log closed: what it has added has its parents among what it has
visited, and all of that is stored. -/
theorem ClosedUnderAncestors.searched {fetch : Fetch ed} {want : LogEntryId}
    {seen : List LogEntryId} (closed : v.ClosedUnderAncestors)
    (searched : Searched fetch v w want seen) : w.ClosedUnderAncestors := by
  constructor
  · intro g t tip
    rw [searched.grown.tips_eq] at tip
    exact searched.grown.stored (closed.tips g t tip)
  · intro id e' found c member
    rcases searched.grown.entry id with kept | ⟨absent, e, d, serves, storedAs, added⟩
    · rw [kept] at found
      obtain ⟨p, named, stored⟩ := closed.parents id e' found c member
      exact ⟨p, named, searched.grown.stored stored⟩
    · rw [added] at found
      cases found
      have visited : id ∈ seen := (searched.only id (stored_iff.mpr ⟨e', added⟩)).resolve_left
        (not_stored_iff.mpr absent)
      obtain ⟨e₁, serves₁, formed, _, parents⟩ := searched.served id visited
      obtain rfl := serves.unique serves₁
      have parent : c ∈ e.parentCids := (storedAs.parents c).mp member
      obtain ⟨p, named⟩ := formed c parent
      obtain ⟨_, _, _, stored, _⟩ := searched.served p
        (parents p (mem_filterMap.mpr ⟨c, parent, named⟩))
      exact ⟨p, named, stored⟩

end LogView

/-- `fetch` serves the entries of `v`. -/
def ServesLog (fetch : Fetch ed) (v : LogView) : Prop :=
  ∀ id e, v.entry id = some e → ∃ verified, fetch id = .ok verified ∧ verified.intoInner = e

variable {fetch : Fetch ed}

variable {v : LogView}

theorem ServesLog.serves (servesLog : ServesLog fetch v)
    (replica : v.Replica) {id : LogEntryId} {e : LogEntry} (found : v.entry id = some e) :
    Serves fetch id e := by
  obtain ⟨verified, answer, inner⟩ := servesLog id e found
  exact ⟨verified, answer, inner, replica.addressed id e found⟩

variable {remote : LogView}

theorem ServesLog.seen_stored {mid : LogView} {want : LogEntryId}
    {seen : List LogEntryId} (servesLog : ServesLog fetch remote) (replica : remote.Replica)
    (start : remote.Stored want) (searched : Searched fetch v mid want seen) :
    ∀ a ∈ seen, remote.Stored a := by
  have closed : Graph.Closed (FetchEdge fetch) remote.Stored := by
    rintro a b stored ⟨e, serves, parent⟩
    obtain ⟨d, found⟩ := stored_iff.mp stored
    rw [serves.unique (servesLog.serves replica found)] at parent
    exact replica.stored_parent found parent
  exact fun a visited => closed.reach start (searched.reached a visited)

variable {ids : List LogEntryId}

theorem ServesLog.servesAll {storable : LogEntry → Prop}
    (servesLog : ServesLog fetch remote) (replica : remote.Replica)
    (fits : ∀ id e, remote.entry id = some e → storable e) (all : ∀ id, remote.Stored id → id ∈ ids) :
    ServesAll fetch storable (ids.filter fun id => decide (remote.Stored id)) := by
  intro a member
  rw [mem_filter, decide_eq_true_eq] at member
  obtain ⟨e, found⟩ := stored_iff.mp member.2
  refine ⟨e, servesLog.serves replica found, ?_, fits a e found, ?_⟩
  · intro c parent
    obtain ⟨p, named, _⟩ := replica.parents a e found c parent
    exact ⟨p, named⟩
  · intro p parent
    have stored := replica.stored_parent found parent
    exact mem_filter.mpr ⟨all p stored, decide_eq_true stored⟩

/-- What holds of the local log between two backfills from a remote. -/
structure Syncing (U : Set LogEntry) (v : LogView) : Prop where
  closed : v.ClosedUnderAncestors
  holds : v.HoldsFrom U

variable {U : Set LogEntry} {g : GroupName}

/-- A backfill from a remote replica: the invariant stays, nothing is lost, and the wanted entry
has arrived. -/
theorem Syncing.backfilled {v' : LogView}
    {want : LogEntryId} (syncing : Syncing U v) (servesLog : ServesLog fetch remote)
    (replica : remote.Replica) (remoteIn : ∀ id e, remote.entry id = some e → e ∈ U)
    (start : remote.Stored want) (done : BackfilledTo fetch g want v v') :
    Syncing U v' ∧ v'.Stored want ∧ ∀ id, v.Stored id → v'.Stored id := by
  cases done with
  | isTip stored _ same =>
    subst same
    exact ⟨syncing, stored, fun _ h => h⟩
  | promoted e found _ advanced =>
    have stored : v.Stored want := stored_iff.mpr ⟨e, found⟩
    have same (id : LogEntryId) (h : v.Stored id) : v'.Stored id := by
      rw [LogView.Stored, advanced.entry_eq]
      exact h
    exact ⟨⟨syncing.closed.advanced stored advanced, syncing.holds.congr advanced.entry_eq⟩,
      same want stored, same⟩
  | fetched e mid seen absent serves searched advanced =>
    have inRemote := servesLog.seen_stored replica start searched
    have same (id : LogEntryId) (h : mid.Stored id) : v'.Stored id := by
      rw [LogView.Stored, advanced.entry_eq]
      exact h
    obtain ⟨_, _, _, stored, _⟩ := searched.served want searched.start
    have holds : mid.HoldsFrom U := by
      apply syncing.holds.grown_of _ searched.grown
      intro id d after new serves
      obtain ⟨d', found⟩ := stored_iff.mp
        (inRemote id ((searched.only id after).resolve_left new))
      rw [serves.unique (servesLog.serves replica found)]
      exact remoteIn id d' found
    exact ⟨⟨(syncing.closed.searched searched).advanced stored advanced,
      holds.congr advanced.entry_eq⟩, same want stored,
      fun id h => same id (searched.grown.stored h)⟩

variable {B : Type} [LogStorage B] [LawfulLogStorage B]

theorem backfillEach_outcome (servesLog : ServesLog fetch remote) (replica : remote.Replica)
    (remoteIn : ∀ id e, remote.entry id = some e → e ∈ U)
    (fits : ∀ id e, remote.entry id = some e → Storable B e)
    (all : ∀ id, remote.Stored id → id ∈ ids) (few : ids.length < maxBackfillEntries)
    (wants : List LogEntryId) (inRemote : ∀ w ∈ wants, remote.Stored w) (s : B)
    (healthy : Healthy s) (syncing : Syncing U (log s)) :
    Prog.Satisfies (backfillEach g fetch wants) s fun r s' => r = .ok () ∧ Syncing U (log s') ∧
      Healthy s' ∧ (∀ w ∈ wants, (log s').Stored w) ∧ ∀ id, (log s).Stored id → (log s').Stored id := by
  -- Each backfill is a step that keeps the invariant; the ids it stored before stay stored.
  induction wants generalizing s with
  | nil => exact ⟨rfl, syncing, healthy, nofun, fun _ h => h⟩
  | cons want rest ih =>
    have here : remote.Stored want := inRemote want mem_cons_self
    have small : (ids.filter fun id => decide (remote.Stored id)).length < maxBackfillEntries :=
      Nat.lt_of_le_of_lt (length_filter_le _ _) few
    apply Prog.satisfies_bind (backfill_outcome g want fetch s)
    · intro n s₁ outcome
      obtain ⟨syncing₁, arrived, kept⟩ := syncing.backfilled servesLog replica remoteIn here
        (outcome.returned n rfl)
      apply (ih (fun w h => inRemote w (mem_cons_of_mem want h)) s₁
        (outcome.stays_healthy healthy) syncing₁).imp
      rintro r s₂ ⟨ok, syncing₂, healthy₂, arrivedRest, kept₂⟩
      exact ⟨ok, syncing₂, healthy₂, forall_mem_cons.mpr ⟨kept₂ want arrived, arrivedRest⟩,
        fun id h => kept₂ id (kept id h)⟩
    · intro e s₁ outcome
      obtain ⟨n, ok⟩ := outcome.succeeds healthy (.inr ⟨_,
        mem_filter.mpr ⟨all want here, decide_eq_true here⟩, small,
        servesLog.servesAll replica fits all⟩)
      cases ok

theorem syncRound_outcome (servesLog : ServesLog fetch remote) (replica : remote.Replica)
    (remoteIn : ∀ id e, remote.entry id = some e → e ∈ U)
    (fits : ∀ id e, remote.entry id = some e → Storable B e)
    (all : ∀ id, remote.Stored id → id ∈ ids) (few : ids.length < maxBackfillEntries) (s : B)
    (healthy : Healthy s) (syncing : Syncing U (log s)) :
    Prog.Satisfies (syncRound g (remote.tips g) fetch) s fun r s' => r = .ok () ∧
      Syncing U (log s') ∧ Healthy s' ∧ ∀ t ∈ remote.tips g, (log s').Stored t := by
  apply satisfies_bind_read (read_mapError _ (reconcile_outcome g (remote.tips g) s))
  · intro result s₁ view stays reconciled
    have wanted (t : LogEntryId) : t ∈ result.want ↔ t ∈ remote.tips g ∧ ¬(log s).Stored t := by
      rw [reconciled.want_eq, mem_filter, decide_eq_true_eq]
    rw [← view] at syncing
    apply (backfillEach_outcome servesLog replica remoteIn fits all few result.want
      (fun w h => replica.tips g w ((wanted w).mp h).1) s₁ (stays healthy) syncing).imp
    rintro r s₂ ⟨ok, syncing₂, healthy₂, arrived, kept⟩
    refine ⟨ok, syncing₂, healthy₂, fun t tip => ?_⟩
    by_cases before : (log s).Stored t
    · exact kept t (view ▸ before)
    · exact arrived t ((wanted t).mpr ⟨tip, before⟩)
  · exact fun _ _ _ unhealthy => absurd healthy unhealthy

/-- Two logs without colliding ids agree on the parents of what both store, so a closed log that
has the remote's tips has all that the remote reaches from them. -/
theorem Syncing.reached_stored (syncing : Syncing U v)
    (replica : remote.Replica) (remoteIn : ∀ id e, remote.entry id = some e → e ∈ U)
    (free : CollisionFree U) (signed : ∀ e ∈ U, e.operatorSignature.length = 64) {t x : LogEntryId}
    (stored : v.Stored t) (path : remote.Reaches t x) : v.Stored x := by
  have closed : Graph.Closed remote.ParentEdge v.Stored := by
    rintro a b here ⟨e, found, parent⟩
    obtain ⟨e', found'⟩ := stored_iff.mp here
    obtain ⟨d, member, addressed, storedAs⟩ := syncing.holds a e' found'
    have inU := remoteIn a e found
    apply syncing.closed.stored_parent found'
    rw [storedAs.mem_parentIds]
    exact (free.parents member inU (signed d member) (signed e inU)
      (addressed.trans (replica.addressed a e found).symm) b).mpr parent
  exact closed.reach stored path

/-- One round between two replicas returns, leaves the local log closed, and stores everything
that is reachable from the remote's tips; a second reconciliation then wants nothing. -/
theorem sync_round_transfers {A : Type} [LogStorage A] [LawfulLogStorage A] (a : A) (b : B)
    (g : GroupName) (fetch : Fetch ed) (remote : (log a).Replica) (replica : (log b).Replica)
    (free : CollisionFree {e | ∃ id, (log a).entry id = some e ∨ (log b).entry id = some e})
    (ids : List LogEntryId) (all : ∀ id, (log a).Stored id → id ∈ ids)
    (few : ids.length < maxBackfillEntries) (servesLog : ServesLog fetch (log a))
    (healthy : Healthy b) (fits : ∀ id e, (log a).entry id = some e → Storable B e) :
    ∃ b', (syncRound g ((log a).tips g) fetch).exec b = (.ok (), b') ∧ (log b').ClosedUnderAncestors ∧
      (∀ t ∈ (log a).tips g, ∀ x, (log a).Reaches t x → (log b').Stored x) ∧
      ∃ result, ((reconcile g ((log a).tips g)).exec b').1 = .ok result ∧ result.want = [] := by
  have inU (id : LogEntryId) (e : LogEntry) (found : (log a).entry id = some e) :
      e ∈ {e | ∃ id, (log a).entry id = some e ∨ (log b).entry id = some e} := ⟨id, .inl found⟩
  have signed (e : LogEntry)
      (member : e ∈ {e | ∃ id, (log a).entry id = some e ∨ (log b).entry id = some e}) :
      e.operatorSignature.length = 64 := by
    obtain ⟨id, found | found⟩ := member
    · exact remote.signed id e found
    · exact replica.signed id e found
  have start : Syncing {e | ∃ id, (log a).entry id = some e ∨ (log b).entry id = some e} (log b) :=
    ⟨replica.toClosedUnderAncestors, fun id e found =>
      ⟨e, ⟨id, .inr found⟩, replica.addressed id e found, StoredAs.refl e⟩⟩
  obtain ⟨ok, syncing, healthy', arrived⟩ :=
    syncRound_outcome (g := g) servesLog remote inU fits all few b healthy start
  refine ⟨_, Prod.ext ok rfl, syncing.closed, ?_, ?_⟩
  · intro t tip x path
    exact syncing.reached_stored remote inU free signed (arrived t tip) path
  · have again := reconcile_outcome g ((log a).tips g)
      ((syncRound g ((log a).tips g) fetch).exec b).2
    obtain ⟨result, ok⟩ := again.succeeds healthy'
    refine ⟨result, ok, ?_⟩
    rw [(again.returned result ok).want_eq, filter_eq_nil_iff]
    intro t tip
    rw [decide_eq_true_eq, not_not]
    exact arrived t tip

end Round

namespace Sample

def behind : MemLogStorage :=
  ⟨(∅ : AList _).insert rootId.asBytes root, (∅ : AList _).insert group.asStr [rootId.asBytes]⟩

def ahead : MemLogStorage :=
  ⟨behind.entries.insert childId.asBytes child, (∅ : AList _).insert group.asStr [childId.asBytes]⟩

theorem behind_entry {id : LogEntryId} {e : LogEntry} (found : (log behind).entry id = some e) :
    id = rootId ∧ e = root := by
  rw [MemLogStorage.log_entry, behind] at found
  by_cases same : id = rootId
  · subst same
    rw [AList.lookup_insert] at found
    exact ⟨rfl, (Option.some.inj found).symm⟩
  · have keys : id.asBytes ≠ rootId.asBytes := fun h => same (congrArg LogEntryId.mk h)
    rw [AList.lookup_insert_ne keys] at found
    cases found

theorem ahead_entry {id : LogEntryId} {e : LogEntry} (found : (log ahead).entry id = some e) :
    id = childId ∧ e = child ∨ id = rootId ∧ e = root := by
  rw [MemLogStorage.log_entry, ahead] at found
  by_cases same : id = childId
  · subst same
    rw [AList.lookup_insert] at found
    exact .inl ⟨rfl, (Option.some.inj found).symm⟩
  · have keys : id.asBytes ≠ childId.asBytes := fun h => same (congrArg LogEntryId.mk h)
    rw [AList.lookup_insert_ne keys] at found
    exact .inr (behind_entry found)

theorem eq_of_single_tip {entries : AList fun _ : FixedBytes 32 => LogEntry} {g h : GroupName}
    {x t : LogEntryId} (tip : t ∈ (log (⟨entries, (∅ : AList _).insert g.asStr [x.asBytes]⟩ :
      MemLogStorage)).tips h) : t = x := by
  rw [MemLogStorage.log_tips] at tip
  by_cases same : h.asStr = g.asStr
  · rw [same, AList.lookup_insert] at tip
    exact mem_singleton.mp tip
  · rw [AList.lookup_insert_ne same] at tip
    exact absurd tip not_mem_nil

theorem tips_stored : (log ahead).tips group = [childId] ∧ (log behind).Stored rootId ∧
    (log ahead).Stored rootId ∧ (log ahead).Stored childId ∧ ¬(log behind).Stored childId := by
  decide +kernel

theorem replica_of_root_or_child {v : LogView}
    (entries : ∀ id e, v.entry id = some e → id = childId ∧ e = child ∨ id = rootId ∧ e = root)
    (stored : v.Stored rootId) (tips : ∀ g, ∀ t ∈ v.tips g, v.Stored t) : v.Replica where
  tips := tips
  parents id e found c parent := by
    rcases entries id e found with ⟨rfl, rfl⟩ | ⟨rfl, rfl⟩
    · obtain rfl := mem_singleton.mp parent
      exact ⟨rootId, LogEntryId.ofCid_toCid rootId, stored⟩
    · exact absurd parent not_mem_nil
  addressed id e found := by
    rcases entries id e found with ⟨rfl, rfl⟩ | ⟨rfl, rfl⟩
    · rfl
    · rfl
  signed id e found := by
    rcases entries id e found with ⟨rfl, rfl⟩ | ⟨rfl, rfl⟩
    · exact childSignature.length_toBytes
    · exact rootSignature.length_toBytes

theorem behind_replica : (log behind).Replica := by
  apply replica_of_root_or_child (fun id e found => .inr (behind_entry found)) tips_stored.2.1
  intro g t tip
  rw [eq_of_single_tip tip]
  exact tips_stored.2.1

theorem ahead_replica : (log ahead).Replica := by
  apply replica_of_root_or_child (fun id e found => ahead_entry found) tips_stored.2.2.1
  intro g t tip
  rw [eq_of_single_tip tip]
  exact tips_stored.2.2.2.1

end Sample

open Sample in
/-- The replica that is behind wants the child, and the other one offers it. -/
theorem reconcile_child_offered :
    ∃ x y, ((reconcile group ((log ahead).tips group)).exec behind).1 = .ok x ∧
      ((reconcile group ((log behind).tips group)).exec ahead).1 = .ok y ∧
      childId ∈ x.want ∧ childId ∈ y.have := by
  obtain ⟨wants, offers, offered⟩ := reconcile_want_offered behind ahead group
    (behind_replica.tips group) (by rw [tips_stored.1]; decide)
  obtain ⟨x, okX⟩ := wants trivial
  obtain ⟨y, okY⟩ := offers trivial
  have wanted : childId ∈ x.want := by
    rw [((reconcile_outcome group _ behind).returned x okX).want_eq, tips_stored.1]
    exact mem_filter.mpr ⟨mem_singleton_self childId,
      decide_eq_true tips_stored.2.2.2.2⟩
  exact ⟨x, y, okX, okY, wanted, offered x y okX okY childId wanted⟩

open Sample in
/-- A round brings the child to the replica that is behind. -/
theorem sync_round_brings_child :
    ∃ b', (syncRound group ((log ahead).tips group) fetchBoth).exec behind = (.ok (), b') ∧
      (log b').Stored childId ∧
      ∃ result, ((reconcile group ((log ahead).tips group)).exec b').1 = .ok result ∧ result.want = [] := by
  have only (e : LogEntry)
      (member : e ∈ {e | ∃ id, (log ahead).entry id = some e ∨ (log behind).entry id = some e}) :
      e = root ∨ e = child := by
    obtain ⟨id, found | found⟩ := member
    · rcases ahead_entry found with ⟨_, rfl⟩ | ⟨_, rfl⟩
      · exact .inr rfl
      · exact .inl rfl
    · exact .inl (behind_entry found).2
  obtain ⟨b', ok, _, transferred, again⟩ := sync_round_transfers ahead behind group fetchBoth
    ahead_replica behind_replica (collisionFree_of_root_or_child only) [childId, rootId]
    (by
      intro id stored
      obtain ⟨e, found⟩ := stored_iff.mp stored
      rcases ahead_entry found with ⟨rfl, _⟩ | ⟨rfl, _⟩
      · exact mem_cons_self
      · exact mem_cons_of_mem _ mem_cons_self)
    (by decide)
    (by
      intro id e found
      rcases ahead_entry found with ⟨rfl, rfl⟩ | ⟨rfl, rfl⟩
      · exact ⟨verifiedChild, if_pos rfl, rfl⟩
      · exact ⟨verifiedRoot, (if_neg rootId_ne_childId).trans (if_pos rfl), rfl⟩)
    trivial (fun _ _ _ => trivial)
  refine ⟨b', ok, transferred childId ?_ childId Relation.ReflTransGen.refl, again⟩
  rw [tips_stored.1]
  exact mem_singleton_self childId

end Stoa
