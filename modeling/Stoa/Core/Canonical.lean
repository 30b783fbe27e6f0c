import Stoa.Core.Article
import Stoa.Core.Cid

/-! The byte strings that articles and log entries are hashed and signed as. -/
namespace Stoa

open Text

abbrev SigningKey := FixedBytes 32
abbrev VerifyingKey := FixedBytes 32
abbrev Signature := FixedBytes 64

structure Ed25519 where
  verifyingKey : SigningKey → VerifyingKey
  signature : SigningKey → Bytes → Signature
  accepts : VerifyingKey → Bytes → Signature → Bool
  accepts_signature : ∀ key message, accepts (verifyingKey key) message (signature key message) = true

inductive SigningError
  | invalidKeyMaterial (message : String)
  | signatureLengthInvalid (got expected : Nat)
  | verificationFailed
  | keyNotLoaded
  | io (message : String)
  | invalidKey (message : String)
  deriving DecidableEq, Repr

def SigningError.toString : SigningError → String
  | invalidKeyMaterial message => "invalid key material: " ++ message
  | signatureLengthInvalid got expected => "signature length invalid: got " ++
      ToString.toString got ++ " bytes, expected " ++ ToString.toString expected
  | verificationFailed => "signature verification failed"
  | keyNotLoaded => "signing key not loaded"
  | io message => "signing key I/O error: " ++ message
  | invalidKey message => "invalid signing key: " ++ message

namespace Ed25519

def sign (ed : Ed25519) (key : SigningKey) (canonicalBytes : Bytes) : Signature :=
  ed.signature key canonicalBytes

def verify (ed : Ed25519) (pubkey : VerifyingKey) (canonicalBytes : Bytes) (sig : Signature) :
    Except SigningError Unit :=
  if ed.accepts pubkey canonicalBytes sig then .ok () else .error .verificationFailed

theorem verify_sign (ed : Ed25519) (key : SigningKey) (message : Bytes) :
    ed.verify (ed.verifyingKey key) message (ed.sign key message) = .ok () :=
  if_pos (ed.accepts_signature key message)

def ofSignatures (key : SigningKey) (pubkey : VerifyingKey) (signed : List (Bytes × Signature)) :
    Ed25519 where
  verifyingKey k := if k = key then pubkey else k
  signature k message := if k = key then (signed.lookup message).getD (FixedBytes.fill 64 0)
    else FixedBytes.fill 64 0
  accepts k message sig := (decide (k = pubkey) && decide ((message, sig) ∈ signed)) ||
    decide (sig = FixedBytes.fill 64 0)
  accepts_signature k message := by
    rw [Bool.or_eq_true, Bool.and_eq_true, decide_eq_true_eq, decide_eq_true_eq, decide_eq_true_eq]
    split
    · cases found : signed.lookup message with
      | none => exact Or.inr rfl
      | some sig =>
        obtain ⟨before, after, rfl, _⟩ := List.lookup_eq_some_iff.mp found
        exact Or.inl ⟨rfl, List.mem_append_right before List.mem_cons_self⟩
    · exact Or.inr rfl

theorem verify_ofSignatures {key : SigningKey} {pubkey : VerifyingKey}
    {signed : List (Bytes × Signature)} {message : Bytes} {sig : Signature}
    (known : (message, sig) ∈ signed) :
    (ofSignatures key pubkey signed).verify pubkey message sig = .ok () := by
  apply if_pos
  simp [ofSignatures, known]

end Ed25519

def pushHeader (name value : String) : Bytes :=
  asBytes name ++ asBytes ": " ++ asBytes value ++ asBytes "\r\n"

/-- `str::cmp`: texts are ordered by their bytes. -/
def strLe (a b : String) : Bool := bytesLe (asBytes a) (asBytes b)

def headerLe (a b : String × String) : Bool :=
  if a.1 = b.1 then strLe a.2 b.2 else strLe a.1 b.1

def canonicalBytes (article : Article) : Bytes :=
  let h := article.header
  let groups := (h.newsgroups.map GroupName.asStr).insertionSort (fun a b => strLe a b = true)
  let extra := h.extraHeaders.insertionSort (fun a b => headerLe a b = true)
  pushHeader "From" h.from ++
  pushHeader "Date" h.date ++
  pushHeader "Message-ID" h.messageId ++
  pushHeader "Newsgroups" (String.intercalate "," groups) ++
  pushHeader "Subject" h.subject ++
  pushHeader "Path" h.path ++
  extra.flatMap (fun header => pushHeader header.1 header.2) ++
  asBytes "\x00\n" ++
  article.body

def sortedParentBytes (parentCids : List Cid) : Bytes :=
  (sortBytes (parentCids.map Cid.toBytes)).flatten

def logEntryCanonicalBytes (hlcTimestamp : UInt64) (articleCid : Cid) (parentCids : List Cid) :
    Bytes :=
  toBeBytes hlcTimestamp ++ articleCid.toBytes ++ sortedParentBytes parentCids

def entryIdBytes (hlcTimestamp : UInt64) (articleCid : Cid) (operatorSignature : Bytes)
    (parentCids : List Cid) : Bytes :=
  toBeBytes hlcTimestamp ++ articleCid.toBytes ++ operatorSignature ++ sortedParentBytes parentCids

theorem sortedParentBytes_eq_iff (p q : List Cid) : sortedParentBytes p = sortedParentBytes q ↔ p.Perm q :=
  Cid.selfDelimiting_toBytes.flatten_sorted_eq_iff _ Cid.toBytes_ne_nil p q

theorem logEntryCanonicalBytes_eq_iff (t u : UInt64) (a b : Cid) (p q : List Cid) :
    logEntryCanonicalBytes t a p = logEntryCanonicalBytes u b q ↔ t = u ∧ a = b ∧ p.Perm q := by
  unfold logEntryCanonicalBytes
  constructor
  · intro text
    simp only [List.append_assoc] at text
    obtain ⟨time, text⟩ := selfDelimiting_toBeBytes.tail text
    obtain ⟨article, text⟩ := Cid.selfDelimiting_toBytes.tail text
    exact ⟨time, article, (sortedParentBytes_eq_iff p q).mp text⟩
  · rintro ⟨rfl, rfl, parents⟩
    rw [(sortedParentBytes_eq_iff p q).mpr parents]

theorem entryIdBytes_eq_iff (t u : UInt64) (a b : Cid) (s r : Bytes) (p q : List Cid)
    (length : s.length = r.length) :
    entryIdBytes t a s p = entryIdBytes u b r q ↔ t = u ∧ a = b ∧ s = r ∧ p.Perm q := by
  unfold entryIdBytes
  constructor
  · intro text
    simp only [List.append_assoc] at text
    obtain ⟨time, text⟩ := selfDelimiting_toBeBytes.tail text
    obtain ⟨article, text⟩ := Cid.selfDelimiting_toBytes.tail text
    obtain ⟨signature, text⟩ := List.append_inj text length
    exact ⟨time, article, signature, (sortedParentBytes_eq_iff p q).mp text⟩
  · rintro ⟨rfl, rfl, rfl, parents⟩
    rw [(sortedParentBytes_eq_iff p q).mpr parents]

end Stoa
