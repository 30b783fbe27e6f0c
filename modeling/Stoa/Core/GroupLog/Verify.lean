import Stoa.Core.GroupLog.Storage
import Stoa.Lib.Frontier

/-! The signature check that makes an entry a `VerifiedEntry`, and the full check of an entry
against a storage: bounds, codec, signature, parents, clock order and id. -/
namespace Stoa

open Relation Prog LogEntryId

namespace LogView

variable (v : LogView)

def ParentEdge (a b : LogEntryId) : Prop := ∃ e, v.entry a = some e ∧ b ∈ parentIdsFromEntry e

/-- `b` is `a` or an ancestor of `a`. -/
def Reaches (a b : LogEntryId) : Prop := ReflTransGen v.ParentEdge a b

/-- `b` is a proper ancestor of `a`. -/
def Below (b a : LogEntryId) : Prop := TransGen v.ParentEdge a b

/-- Everything reachable from `id` is stored. -/
def Complete (id : LogEntryId) : Prop := ∀ a, v.Reaches id a → v.Stored a

/-- No tip of `g` is a proper ancestor of another tip of `g`. -/
def Frontier (g : GroupName) : Prop := ∀ a ∈ v.tips g, ∀ b ∈ v.tips g, ¬v.Below a b

def AncestorClosed : Prop := Graph.Closed v.ParentEdge v.Stored

def IsEmpty : Prop := (∀ id, v.entry id = none) ∧ ∀ g, v.tips g = []

variable {v}

theorem ParentEdge.stored {a b : LogEntryId} (h : v.ParentEdge a b) : v.Stored a := by
  obtain ⟨e, found, _⟩ := h
  exact stored_iff.mpr ⟨e, found⟩

end LogView

def LogEntry.idBytes (e : LogEntry) : Bytes :=
  entryIdBytes e.hlcTimestamp.wallMs e.articleCid e.operatorSignature e.parentCids

/-- No two of the entries have different id bytes and the same id. -/
def CollisionFree (U : Set LogEntry) : Prop :=
  ∀ a ∈ U, ∀ b ∈ U, LogEntryId.fromEntry a = LogEntryId.fromEntry b → a.idBytes = b.idBytes

/-- Every stored entry is one of `U`, as its backend stores it, under its own id. -/
def LogView.HoldsFrom (v : LogView) (U : Set LogEntry) : Prop :=
  ∀ id e', v.entry id = some e' → ∃ e ∈ U, LogEntryId.fromEntry e = id ∧ StoredAs e e'

theorem CollisionFree.parents {U : Set LogEntry} (free : CollisionFree U) {a b : LogEntry}
    (ha : a ∈ U) (hb : b ∈ U) (sigA : a.operatorSignature.length = 64)
    (sigB : b.operatorSignature.length = 64)
    (same : LogEntryId.fromEntry a = LogEntryId.fromEntry b) (id : LogEntryId) :
    id ∈ parentIdsFromEntry a ↔ id ∈ parentIdsFromEntry b := by
  have bytes := free a ha b hb same
  obtain ⟨_, _, _, perm⟩ := (entryIdBytes_eq_iff _ _ _ _ _ _ _ _ (sigA.trans sigB.symm)).mp bytes
  exact (perm.filterMap _).mem_iff

def maxParentCids : Nat := 100

inductive VerifyError
  | storage (error : StorageError)
  | invalidSignature (error : SigningError)
  | missingParent (cid : String)
  | hlcNotMonotonic (entry parent : HlcTimestamp)
  | entryIdMismatch
  | tooManyParents (count : Nat)
  | invalidArticleCidCodec (codec : UInt64)
  deriving DecidableEq

def VerifyError.toString : VerifyError → String
  | storage error => "storage error: " ++ error.toString
  | invalidSignature error => "invalid signature: " ++ error.toString
  | missingParent cid => "parent entry not found: " ++ cid
  | hlcNotMonotonic entry parent => "HLC not monotonic: entry timestamp " ++ entry.debug ++
      " <= parent timestamp " ++ parent.debug
  | entryIdMismatch => "entry ID does not match entry content hash"
  | tooManyParents count => "entry has " ++ ToString.toString count ++
      " parent CIDs; maximum is " ++ ToString.toString maxParentCids
  | invalidArticleCidCodec codec => "article_cid codec 0x" ++
      String.ofList (Nat.toDigits 16 codec.toNat) ++ " is not DAG-CBOR (0x71)"

variable (ed : Ed25519)

def checkSignature (entry : LogEntry) (pubkey : VerifyingKey) : Except VerifyError Unit :=
  let canonical := logEntryCanonicalBytes entry.hlcTimestamp.wallMs entry.articleCid entry.parentCids
  match FixedBytes.tryFrom 64 entry.operatorSignature with
  | none => .error (.invalidSignature
      (.signatureLengthInvalid entry.operatorSignature.length 64))
  | some sig =>
    match ed.verify pubkey canonical sig with
    | .ok () => .ok ()
    | .error e => .error (.invalidSignature e)

structure VerifiedEntry where
  intoInner : LogEntry
  verified : ∃ pubkey, checkSignature ed intoInner pubkey = .ok ()

def verifySignature (entry : LogEntry) (pubkey : VerifyingKey) :
    Except VerifyError (VerifiedEntry ed) :=
  match h : checkSignature ed entry pubkey with
  | .ok () => .ok ⟨entry, pubkey, h⟩
  | .error e => .error e

variable {S : Type} [LogStorage S]

def verifyParents (entry : LogEntry) : List Cid → Prog S VerifyError Unit
  | [] => pure ()
  | parentCid :: rest =>
    match LogEntryId.ofCid parentCid with
    | none => throw (.missingParent ("parent CID " ++ parentCid.toString ++
        " has a non-32-byte digest (length " ++ toString parentCid.hash.digest.length ++ ")"))
    | some parentId => do
      match ← (LogStorage.getEntry parentId).mapError VerifyError.storage with
      | none => throw (.missingParent parentCid.toString)
      | some parentEntry =>
        if entry.hlcTimestamp.le parentEntry.hlcTimestamp then
          throw (.hlcNotMonotonic entry.hlcTimestamp parentEntry.hlcTimestamp)
        else verifyParents entry rest

def verifyEntry (entry : LogEntry) (entryId : LogEntryId) (pubkey : VerifyingKey) :
    Prog S VerifyError Unit := do
  if maxParentCids < entry.parentCids.length then
    throw (.tooManyParents entry.parentCids.length)
  else if entry.articleCid.codec ≠ 0x71 then
    throw (.invalidArticleCidCodec entry.articleCid.codec)
  else
    match checkSignature ed entry pubkey with
    | .error e => throw e
    | .ok () => do
      verifyParents entry entry.parentCids
      if LogEntryId.fromEntry entry ≠ entryId then throw .entryIdMismatch else pure ()

variable {ed}

theorem length_of_checkSignature {entry : LogEntry} {pubkey : VerifyingKey}
    (h : checkSignature ed entry pubkey = .ok ()) : entry.operatorSignature.length = 64 := by
  unfold checkSignature at h
  dsimp only at h
  split at h
  · cases h
  · rename_i sig read
    rw [← FixedBytes.toBytes_of_tryFrom read, FixedBytes.length_toBytes]

theorem VerifiedEntry.signature_length (v : VerifiedEntry ed) :
    v.intoInner.operatorSignature.length = 64 := by
  obtain ⟨pubkey, checked⟩ := v.verified
  exact length_of_checkSignature checked

theorem checkSignature_sign {entry : LogEntry} (key : SigningKey)
    (signed : entry.operatorSignature = (ed.sign key (logEntryCanonicalBytes
      entry.hlcTimestamp.wallMs entry.articleCid entry.parentCids)).toBytes) :
    checkSignature ed entry (ed.verifyingKey key) = .ok () := by
  unfold checkSignature
  dsimp only
  rw [signed, FixedBytes.tryFrom_toBytes]
  dsimp only
  rw [ed.verify_sign]

theorem verifySignature_of_check {entry : LogEntry} {pubkey : VerifyingKey}
    (h : checkSignature ed entry pubkey = .ok ()) :
    verifySignature ed entry pubkey = .ok ⟨entry, pubkey, h⟩ := by
  unfold verifySignature
  split
  · rfl
  · rename_i e failed
    rw [h] at failed
    cases failed

section Spec

variable [LawfulLogStorage S]

open LawfulLogStorage

def ParentBefore (v : LogView) (entry : LogEntry) (c : Cid) : Prop :=
  ∃ p e, LogEntryId.ofCid c = some p ∧ v.entry p = some e ∧
    entry.hlcTimestamp.le e.hlcTimestamp = false

theorem verifyParents_outcome (entry : LogEntry) (cids : List Cid) (s : S) (healthy : Healthy s) :
    Prog.Satisfies (verifyParents entry cids) s fun r _ =>
      r = .ok () ↔ ∀ c ∈ cids, ParentBefore (log s) entry c := by
  induction cids generalizing s with
  | nil => exact satisfies_pure (iff_of_true rfl nofun)
  | cons c rest ih =>
    -- What rejects the first parent rejects the list.
    have rejected (bad : ¬ParentBefore (log s) entry c) :
        ¬∀ d ∈ c :: rest, ParentBefore (log s) entry d := fun h => bad (h c List.mem_cons_self)
    unfold verifyParents
    cases named : ofCid c with
    | none =>
      apply satisfies_throw
      refine iff_of_false nofun (rejected ?_)
      rintro ⟨p, e, names, _⟩
      rw [named] at names
      cases names
    | some p =>
      apply satisfies_bind_read (read_mapError _ (getEntry_outcome s p))
      · intro found s₁ view keeps value
        subst value
        cases found : (log s).entry p with
        | none =>
          apply satisfies_throw
          refine iff_of_false nofun (rejected ?_)
          rintro ⟨p', e, names, stored, _⟩
          cases named.symm.trans names
          rw [found] at stored
          cases stored
        | some e =>
          dsimp only
          cases order : entry.hlcTimestamp.le e.hlcTimestamp with
          | true =>
            rw [if_pos rfl]
            apply satisfies_throw
            refine iff_of_false nofun (rejected ?_)
            rintro ⟨p', e', names, stored, later⟩
            cases named.symm.trans names
            cases found.symm.trans stored
            rw [order] at later
            cases later
          | false =>
            rw [if_neg Bool.false_ne_true]
            apply (ih s₁ (keeps healthy)).imp
            intro r _ iff
            rw [iff, view, List.forall_mem_cons]
            exact (and_iff_right ⟨p, e, named, found, order⟩).symm
      · intro e s₁ _ unhealthy
        exact absurd healthy unhealthy

theorem verifyEntry_ok_iff (entry : LogEntry) (entryId : LogEntryId) (pubkey : VerifyingKey) (s : S)
    (healthy : Healthy s) : ((verifyEntry ed entry entryId pubkey).exec s).1 = .ok () ↔
      entry.parentCids.length ≤ maxParentCids ∧ entry.articleCid.codec = 0x71 ∧
      checkSignature ed entry pubkey = .ok () ∧ (∀ c ∈ entry.parentCids, ParentBefore (log s) entry c) ∧
      fromEntry entry = entryId := by
  unfold verifyEntry
  by_cases bounded : maxParentCids < entry.parentCids.length
  · rw [if_pos bounded]
    exact iff_of_false nofun fun h => absurd h.1 (Nat.not_le.mpr bounded)
  rw [if_neg bounded, and_iff_right (Nat.not_lt.mp bounded)]
  by_cases codec : entry.articleCid.codec = 0x71
  · rw [if_neg (not_not.mpr codec), and_iff_right codec]
    rcases signed : checkSignature ed entry pubkey with e | ⟨⟩
    · exact iff_of_false nofun fun h => nomatch h.1
    rw [and_iff_right rfl]
    have parents := verifyParents_outcome entry entry.parentCids s healthy
    unfold Prog.Satisfies at parents
    dsimp only
    rw [exec_bind]
    rcases run : (verifyParents entry entry.parentCids).exec s with ⟨e | ⟨⟩, s'⟩ <;>
      rw [run] at parents
    · exact iff_of_false nofun fun h => nomatch parents.mpr h.1
    · rw [and_iff_right (parents.mp rfl)]
      by_cases same : fromEntry entry = entryId
      · exact iff_of_true (by simp [same]) same
      · exact iff_of_false (by simp [same]) same
  · rw [if_pos codec]
    exact iff_of_false nofun fun h => codec h.1

theorem verifyParents_congr {T : Type} [LogStorage T] [LawfulLogStorage T] (entry : LogEntry)
    (cids : List Cid) (s : S) (t : T) (healthyS : Healthy s) (healthyT : Healthy t)
    (same : ∀ c ∈ cids, ∀ p, ofCid c = some p →
      ((log s).entry p).map LogEntry.hlcTimestamp = ((log t).entry p).map LogEntry.hlcTimestamp) :
    ((verifyParents entry cids).exec s).1 = ((verifyParents entry cids).exec t).1 := by
  induction cids generalizing s t with
  | nil => rfl
  | cons c rest ih =>
    unfold verifyParents
    cases named : ofCid c with
    | none => rfl
    | some p =>
      obtain ⟨s₁, readS, viewS, healthyS₁⟩ :=
        exec_of_read (read_mapError VerifyError.storage (getEntry_outcome s p)) healthyS
      obtain ⟨t₁, readT, viewT, healthyT₁⟩ :=
        exec_of_read (read_mapError VerifyError.storage (getEntry_outcome t p)) healthyT
      have stamps := same c List.mem_cons_self p named
      dsimp only
      rw [exec_bind_ok _ readS, exec_bind_ok _ readT]
      -- Both storages have the parent or neither has it, and then with one timestamp.
      cases foundS : (log s).entry p with
      | none =>
        rw [foundS, Option.map_none, eq_comm, Option.map_eq_none_iff] at stamps
        rw [stamps]
        rfl
      | some e =>
        rw [foundS, Option.map_some, eq_comm, Option.map_eq_some_iff] at stamps
        obtain ⟨d, foundT, stamp⟩ := stamps
        rw [foundT]
        dsimp only
        rw [stamp]
        split
        · rfl
        · apply ih s₁ t₁ healthyS₁ healthyT₁
          rw [viewS, viewT]
          exact fun c h => same c (List.mem_cons_of_mem _ h)

theorem verifyEntry_congr {T : Type} [LogStorage T] [LawfulLogStorage T] (entry : LogEntry)
    (entryId : LogEntryId) (pubkey : VerifyingKey) (s : S) (t : T) (healthyS : Healthy s)
    (healthyT : Healthy t) (same : ∀ c ∈ entry.parentCids, ∀ p, ofCid c = some p →
      ((log s).entry p).map LogEntry.hlcTimestamp = ((log t).entry p).map LogEntry.hlcTimestamp) :
    ((verifyEntry ed entry entryId pubkey).exec s).1 =
      ((verifyEntry ed entry entryId pubkey).exec t).1 := by
  have parents := verifyParents_congr entry entry.parentCids s t healthyS healthyT same
  unfold verifyEntry
  split
  · rfl
  split
  · rfl
  rcases checkSignature ed entry pubkey with e | ⟨⟩
  · rfl
  dsimp only
  rw [exec_bind, exec_bind]
  rcases runS : (verifyParents entry entry.parentCids).exec s with ⟨rS, s'⟩
  rcases runT : (verifyParents entry entry.parentCids).exec t with ⟨rT, t'⟩
  rw [runS, runT] at parents
  dsimp only at parents
  subst parents
  rcases rS with e | ⟨⟩
  · rfl
  · dsimp only
    split
    · rfl
    · rfl

end Spec

end Stoa
