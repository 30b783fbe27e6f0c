import Stoa.Properties.BackfillCompleteness

/-! `unalterable_iff`: all entries that are accepted under the id of an accepted entry are the same,
timestamp included, exactly if every other timestamp with its wall clock time is not after some
parent. -/
namespace Stoa

open LawfulLogStorage List FixedBytes

section General

variable {S : Type} [LogStorage S] [LawfulLogStorage S] {ed : Ed25519} {pubkey : VerifyingKey}
  {id : LogEntryId} {s : S}

/-- `verify_entry` has no objection. -/
def Accepts (ed : Ed25519) (s : S) (pubkey : VerifyingKey) (id : LogEntryId) (e : LogEntry) : Prop :=
  ((verifyEntry ed e id pubkey).exec s).1 = .ok ()

/-- The two agree in everything that is stored, parents up to their order. -/
structure SameEntry (e e' : LogEntry) : Prop where
  hlcTimestamp : e'.hlcTimestamp = e.hlcTimestamp
  articleCid : e'.articleCid = e.articleCid
  operatorSignature : e'.operatorSignature = e.operatorSignature
  parentCids : e'.parentCids.Perm e.parentCids

def OnlyTime (v : LogView) (e : LogEntry) : Prop :=
  ∀ ts : HlcTimestamp, ts.wallMs = e.hlcTimestamp.wallMs → ts ≠ e.hlcTimestamp →
    ∃ c ∈ e.parentCids, ∃ p parent, LogEntryId.ofCid c = some p ∧ v.entry p = some parent ∧
      ts.le parent.hlcTimestamp = true

theorem fixed_by_id (healthy : Healthy s) {e e' : LogEntry} (accepted : Accepts ed s pubkey id e)
    (accepted' : Accepts ed s pubkey id e') (noCollision : CollisionFree {e, e'}) :
    e'.hlcTimestamp.wallMs = e.hlcTimestamp.wallMs ∧ e'.articleCid = e.articleCid ∧
      e'.operatorSignature = e.operatorSignature ∧ e'.parentCids.Perm e.parentCids := by
  obtain ⟨-, -, signed, -, named⟩ := (verifyEntry_ok_iff e id pubkey s healthy).mp accepted
  obtain ⟨-, -, signed', -, named'⟩ := (verifyEntry_ok_iff e' id pubkey s healthy).mp accepted'
  have length : e'.operatorSignature.length = e.operatorSignature.length := by
    rw [length_of_checkSignature signed, length_of_checkSignature signed']
  have bytes : e'.idBytes = e.idBytes :=
    noCollision e' (by simp) e (by simp) (named'.trans named.symm)
  exact (entryIdBytes_eq_iff _ _ _ _ _ _ _ _ length).mp bytes

theorem Accepts.altered (healthy : Healthy s) {e : LogEntry} (accepted : Accepts ed s pubkey id e)
    {ts : HlcTimestamp} (sameWall : ts.wallMs = e.hlcTimestamp.wallMs)
    (later : ∀ c ∈ e.parentCids, ParentBefore (log s) { e with hlcTimestamp := ts } c) :
    Accepts ed s pubkey id { e with hlcTimestamp := ts } := by
  obtain ⟨bounded, codec, signed, -, named⟩ := (verifyEntry_ok_iff e id pubkey s healthy).mp accepted
  apply (verifyEntry_ok_iff _ id pubkey s healthy).mpr
  refine ⟨bounded, codec, ?_, later, ?_⟩
  · rw [← signed]
    simp only [checkSignature, sameWall]
  · rw [← named]
    simp only [LogEntryId.fromEntry, sameWall]

theorem collisionFree_of_bytes {e e' : LogEntry} (bytes : e'.idBytes = e.idBytes) :
    CollisionFree {e, e'} := by
  intro a ha b hb _
  simp only [Set.mem_insert_iff, Set.mem_singleton_iff] at ha hb
  rcases ha with rfl | rfl <;> rcases hb with rfl | rfl
  · rfl
  · exact bytes.symm
  · exact bytes
  · rfl

/-- An accepted entry is the only one under its id exactly if its parents leave no other time. -/
theorem unalterable_iff (healthy : Healthy s) {e : LogEntry} (accepted : Accepts ed s pubkey id e) :
    (∀ e', Accepts ed s pubkey id e' → CollisionFree {e, e'} → SameEntry e e') ↔ OnlyTime (log s) e := by
  obtain ⟨-, -, -, parents, -⟩ := (verifyEntry_ok_iff e id pubkey s healthy).mp accepted
  constructor
  · intro unique ts sameWall other
    by_contra free
    -- The entry with the other timestamp is accepted under the same id.
    have later : ∀ c ∈ e.parentCids, ParentBefore (log s) { e with hlcTimestamp := ts } c := by
      intro c mem
      obtain ⟨p, parent, names, stored, -⟩ := parents c mem
      refine ⟨p, parent, names, stored, ?_⟩
      rw [Bool.eq_false_iff]
      intro earlier
      exact free ⟨c, mem, p, parent, names, stored, earlier⟩
    have bytes : LogEntry.idBytes { e with hlcTimestamp := ts } = e.idBytes := by
      simp only [LogEntry.idBytes, sameWall]
    have same := unique _ (accepted.altered healthy sameWall later) (collisionFree_of_bytes bytes)
    exact other same.hlcTimestamp
  · intro only e' accepted' noCollision
    obtain ⟨sameWall, article, signature, sameParents⟩ := fixed_by_id healthy accepted accepted' noCollision
    refine ⟨?_, article, signature, sameParents⟩
    by_contra other
    obtain ⟨c, mem, p, parent, names, stored, earlier⟩ := only _ sameWall other
    obtain ⟨-, -, -, parents', -⟩ := (verifyEntry_ok_iff e' id pubkey s healthy).mp accepted'
    obtain ⟨p', parent', names', stored', later⟩ := parents' c (sameParents.mem_iff.mpr mem)
    cases names.symm.trans names'
    cases stored.symm.trans stored'
    rw [earlier] at later
    cases later

end General

namespace Sample

def alteredRoot : LogEntry := { root with hlcTimestamp := ⟨1000, 7, .fill 8 0⟩ }

theorem accepts_root : Accepts ed MemLogStorage.new pubkey rootId root := by
  apply (verifyEntry_ok_iff root rootId pubkey _ trivial).mpr
  refine ⟨by decide, rfl, ?_, by simp [root], rfl⟩
  unfold checkSignature
  simp only [root, tryFrom_toBytes, HlcTimestamp.ofWallMs]
  rw [ed, Ed25519.verify_ofSignatures mem_cons_self]

/-- Both are accepted under one id, and they are ordered differently. -/
theorem root_altered : Accepts ed MemLogStorage.new pubkey rootId root ∧
    Accepts ed MemLogStorage.new pubkey rootId alteredRoot ∧ CollisionFree {root, alteredRoot} ∧
    ¬ SameEntry root alteredRoot := by
  refine ⟨accepts_root, accepts_root.altered trivial rfl (by simp [root]),
    collisionFree_of_bytes rfl, ?_⟩
  intro same
  exact absurd same.hlcTimestamp (by decide)

def secondToLast : FixedBytes 8 := ⟨List.replicate 7 0xff ++ [0xfe], rfl⟩

theorem lt_last {b : UInt8} (other : b ≠ 0xff) : b < 0xff := by
  have bound := b.toNat_lt
  rw [Ne, ← UInt8.toNat_inj] at other
  rw [UInt8.lt_iff_toNat_lt]
  simp only [UInt8.reduceToNat] at other ⊢
  omega

theorem bytesLe_of_ne_last {n : Nat} {l : Bytes} (length : l.length = n + 1)
    (other : l ≠ List.replicate (n + 1) 0xff) : bytesLe l (List.replicate n 0xff ++ [0xfe]) = true := by
  obtain ⟨b, rest, rfl⟩ := exists_cons_of_length_eq_add_one length
  induction n generalizing b rest with
  | zero =>
    have none : rest = [] := by simpa using length
    subst none
    have small := UInt8.lt_iff_toNat_lt.mp (lt_last (show b ≠ 0xff by simpa using other))
    rw [replicate_zero, nil_append, bytesLe_cons_iff]
    by_cases less : b < 0xfe
    · exact .inl less
    · refine .inr ⟨?_, rfl⟩
      rw [UInt8.lt_iff_toNat_lt] at less
      rw [← UInt8.toNat_inj]
      simp only [UInt8.reduceToNat] at small less ⊢
      omega
  | succ n ih =>
    obtain ⟨next, others, rfl⟩ := exists_cons_of_length_eq_add_one (Nat.succ_inj.mp length)
    rw [replicate_succ, cons_append, bytesLe_cons_iff]
    by_cases largest : b = 0xff
    · subst largest
      refine .inr ⟨rfl, ih next others (by simpa using length) ?_⟩
      intro same
      exact other (by rw [same, ← replicate_succ])
    · exact .inl (lt_last largest)

def crowdedRoot : LogEntry := { root with hlcTimestamp := ⟨1000, 0xffffffff, secondToLast⟩ }

def lastSignature : Signature := .ofNumber 64
  0x7737921fdb7cc6a787c63e2c806a52734ea8a2b80d14bf5975ccff63cb5176f4bb3a4094b6ba0015362add366816ea62c6e4d53edcbb760b054534de3e92d70d

def lastEd : Ed25519 := .ofSignatures key pubkey
  [(logEntryCanonicalBytes 1000 (article 0xbb) [rootId.toCid], lastSignature)]

def lastEntry : LogEntry :=
  ⟨⟨1000, 0xffffffff, .fill 8 0xff⟩, article 0xbb, lastSignature.toBytes, [rootId.toCid]⟩

def crowded : MemLogStorage := ⟨(∅ : AList _).insert rootId.asBytes crowdedRoot, ∅⟩

theorem crowded_root : (log crowded).entry rootId = some crowdedRoot := by
  rw [MemLogStorage.log_entry, crowded, AList.lookup_insert]

theorem accepts_lastEntry : Accepts lastEd crowded pubkey (.fromEntry lastEntry) lastEntry := by
  apply (verifyEntry_ok_iff lastEntry _ pubkey _ trivial).mpr
  refine ⟨by decide, rfl, ?_, ?_, rfl⟩
  · unfold checkSignature
    simp only [lastEntry, tryFrom_toBytes]
    rw [lastEd, Ed25519.verify_ofSignatures mem_cons_self]
  · intro c mem
    rw [show c = rootId.toCid by simpa [lastEntry] using mem]
    exact ⟨rootId, crowdedRoot, LogEntryId.ofCid_toCid rootId, crowded_root, by decide⟩

theorem le_of_sameWall {wallMs : UInt64} {logical logical' : UInt32} {nodeId nodeId' : FixedBytes 8}
    (before : logical < logical' ∨ logical = logical' ∧ bytesLe nodeId.toBytes nodeId'.toBytes = true) :
    HlcTimestamp.le ⟨wallMs, logical, nodeId⟩ ⟨wallMs, logical', nodeId'⟩ = true := by
  simp only [HlcTimestamp.le, Bool.or_eq_true, Bool.and_eq_true, decide_eq_true_eq]
  exact .inr ⟨trivial, before⟩

theorem onlyTime_lastEntry : OnlyTime (log crowded) lastEntry := by
  intro ts sameWall other
  refine ⟨rootId.toCid, by simp [lastEntry], rootId, crowdedRoot, LogEntryId.ofCid_toCid rootId,
    crowded_root, ?_⟩
  obtain ⟨wallMs, logical, nodeId⟩ := ts
  cases sameWall
  apply le_of_sameWall
  by_cases most : logical = 0xffffffff
  · subst most
    refine .inr ⟨rfl, bytesLe_of_ne_last nodeId.length_toBytes ?_⟩
    intro largest
    apply other
    rw [show nodeId = fill 8 0xff from toBytes_injective largest]
    rfl
  · left
    have bound := logical.toNat_lt
    rw [← UInt32.toNat_inj] at most
    rw [UInt32.lt_iff_toNat_lt]
    simp only [UInt32.reduceToNat] at most ⊢
    omega

/-- Nothing else is accepted as the last entry of a millisecond. -/
theorem lastEntry_unalterable : Accepts lastEd crowded pubkey (.fromEntry lastEntry) lastEntry ∧
    ∀ e', Accepts lastEd crowded pubkey (.fromEntry lastEntry) e' → CollisionFree {lastEntry, e'} →
      SameEntry lastEntry e' :=
  ⟨accepts_lastEntry, (unalterable_iff trivial accepts_lastEntry).mpr onlyTime_lastEntry⟩

end Sample

end Stoa
