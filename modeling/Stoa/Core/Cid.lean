import Stoa.Lib.Multibase
import Stoa.Lib.Sha256
import Stoa.Lib.Varint

/-! The CID and multihash types the log is built on. -/
namespace Stoa

open List Varint
/-- A digest with the code of the hash function it comes from. -/
structure Multihash where
  code : UInt64
  digest : Bytes
  /-- `Multihash<64>` has room for 64 bytes. -/
  size_le : digest.length ≤ 64
  deriving DecidableEq

theorem Sha256.length_digest_le (d : FixedBytes 32) : d.toBytes.length ≤ 64 := by
  rw [FixedBytes.length_toBytes]
  decide

namespace Multihash

/-- `Multihash::wrap`. -/
def wrap (code : UInt64) (digest : Bytes) : Option Multihash :=
  if h : digest.length ≤ 64 then some ⟨code, digest, h⟩ else none

def toBytes (mh : Multihash) : Bytes :=
  Varint.encode mh.code ++ Varint.encode (UInt64.ofNat mh.digest.length) ++ mh.digest

/-- `Multihash::read`: `none` for every malformed or oversized input. -/
def read (b : Bytes) : Option (Multihash × Bytes) := do
  let (code, b) ← (Varint.decode b).toOption
  let (size, b) ← (Varint.decode b).toOption
  if h : size.toNat ≤ 64 ∧ size.toNat ≤ b.length then
    some (⟨code, b.take size.toNat, by rw [length_take]; omega⟩, b.drop size.toNat)
  else none

theorem read_toBytes (mh : Multihash) (rest : Bytes) : read (mh.toBytes ++ rest) = some (mh, rest) := by
  have size : (UInt64.ofNat mh.digest.length).toNat = mh.digest.length := by
    have := mh.size_le
    rw [UInt64.toNat_ofNat']
    omega
  unfold read toBytes
  simp only [append_assoc, decode_encode, Except.toOption, Option.bind_eq_bind,
    Option.bind_some, size]
  have room : mh.digest.length ≤ 64 ∧ mh.digest.length ≤ (mh.digest ++ rest).length :=
    ⟨mh.size_le, by simp⟩
  rw [dif_pos room]
  simp

def ofDigest (d : FixedBytes 32) : Multihash := ⟨0x12, d.toBytes, Sha256.length_digest_le d⟩

@[simp] theorem ofDigest_digest (d : FixedBytes 32) : (ofDigest d).digest = d.toBytes := rfl

/-- `Code::Sha2_256.digest`. -/
def sha256 (b : Bytes) : Multihash := ofDigest (Sha256.digest b)

end Multihash

inductive Version
  | v0
  | v1
  deriving DecidableEq, Repr

def Version.Admits (codec : UInt64) (hash : Multihash) : Version → Prop
  | .v0 => codec = 0x70 ∧ hash.code = 0x12 ∧ hash.digest.length = 32
  | .v1 => True

instance (codec : UInt64) (hash : Multihash) : DecidablePred (Version.Admits codec hash) := fun v =>
  match v with
  | .v0 => inferInstanceAs (Decidable (codec = 0x70 ∧ hash.code = 0x12 ∧ hash.digest.length = 32))
  | .v1 => isTrue trivial

structure Cid where
  version : Version
  codec : UInt64
  hash : Multihash
  valid : version.Admits codec hash
  deriving DecidableEq

namespace Cid

/-- `Cid::new_v1`. -/
def newV1 (codec : UInt64) (hash : Multihash) : Cid := ⟨.v1, codec, hash, trivial⟩

theorem newV1_sha256_inj {codec codec' : UInt64} {b b' : Bytes} :
    newV1 codec (Multihash.sha256 b) = newV1 codec' (Multihash.sha256 b') ↔
      codec = codec' ∧ Sha256.digest b = Sha256.digest b' := by
  simp [newV1, Multihash.sha256, Multihash.ofDigest, FixedBytes.toBytes_injective.eq_iff]

def toBytes (c : Cid) : Bytes :=
  match c.version with
  | .v0 => [0x12, 0x20] ++ c.hash.digest
  | .v1 => Varint.encode 1 ++ Varint.encode c.codec ++ c.hash.toBytes

/-- The text form: base 58 for a CIDv0, multibase base 32 for a CIDv1. -/
def toString (c : Cid) : String :=
  match c.version with
  | .v0 => Multibase.base58Btc c.toBytes
  | .v1 => "b" ++ Multibase.base32Lower c.toBytes

inductive Error
  | varIntDecodeError
  | io
  | invalidCidVersion
  | invalidExplicitCidV0
  | invalidCidV0Multihash
  | parsingError
  deriving DecidableEq, Repr

def Error.toString : Error → String
  | .varIntDecodeError => "Failed to decode unsigned varint format"
  | .io => "failed to fill whole buffer"
  | .invalidCidVersion => "Unrecognized CID version"
  | .invalidExplicitCidV0 => "CIDv0 cannot be specified in CIDv1 format"
  | .invalidCidV0Multihash => "CIDv0 requires a Sha-256 multihash"
  | .parsingError => "Failed to parse multihash"

def readVarint (b : Bytes) : Except Error (UInt64 × Bytes) :=
  match Varint.decode b with
  | .ok r => .ok r
  | .error _ => .error .varIntDecodeError

/-- `Cid::read_bytes`: one CID and the bytes after it. -/
def readBytes (b : Bytes) : Except Error (Cid × Bytes) := do
  let (version, b) ← readVarint b
  let (codec, b) ← readVarint b
  if version = 0x12 ∧ codec = 0x20 then
    if h : 32 ≤ b.length then
      .ok (⟨.v0, 0x70, ⟨0x12, b.take 32, by rw [length_take]; omega⟩,
        ⟨rfl, rfl, by rw [length_take]; omega⟩⟩, b.drop 32)
    else .error .io
  else if version = 0 then .error .invalidExplicitCidV0
  else if version = 1 then
    match Multihash.read b with
    | some (hash, b) => .ok (newV1 codec hash, b)
    | none => .error .parsingError
  else .error .invalidCidVersion

/-- `Cid::try_from(&[u8])`: bytes after the CID are ignored. -/
def tryFrom (b : Bytes) : Except Error Cid := (readBytes b).map Prod.fst

theorem readVarint_encode (n : UInt64) (rest : Bytes) :
    readVarint (encode n ++ rest) = .ok (n, rest) := by
  simp only [readVarint, decode_encode]

theorem readBytes_toBytes (c : Cid) (rest : Bytes) : readBytes (c.toBytes ++ rest) = .ok (c, rest) := by
  obtain ⟨version, codec, hash, valid⟩ := c
  cases version with
  | v0 =>
    obtain ⟨rfl, code, size⟩ := valid
    obtain ⟨hashCode, digest, size_le⟩ := hash
    dsimp only at code size
    subst code
    -- The two fixed bytes are the varints of the hash code and the digest length.
    have fixedBytes : ([0x12, 0x20] : Bytes) ++ digest ++ rest =
        encode 0x12 ++ (encode 0x20 ++ (digest ++ rest)) := by
      have head : ([0x12, 0x20] : Bytes) = encode 0x12 ++ encode 0x20 := by decide
      rw [head]
      simp only [append_assoc]
    simp only [readBytes, toBytes, fixedBytes, readVarint_encode, bind, Except.bind]
    have taken : (digest ++ rest).take 32 = digest := by rw [← size, take_left]
    have dropped : (digest ++ rest).drop 32 = rest := by rw [← size, drop_left]
    have room : 32 ≤ (digest ++ rest).length := by rw [length_append]; omega
    simp only [taken, dropped, and_self, if_true, dif_pos room]
  | v1 =>
    simp only [readBytes, toBytes, append_assoc, readVarint_encode, Multihash.read_toBytes,
      bind, Except.bind]
    rfl

theorem tryFrom_toBytes (c : Cid) : tryFrom c.toBytes = .ok c := by
  have whole := readBytes_toBytes c []
  rw [append_nil] at whole
  simp only [tryFrom, whole, Except.map]

theorem selfDelimiting_toBytes : SelfDelimiting toBytes := by
  apply SelfDelimiting.of_decoder (fun b => (readBytes b).toOption)
  intro c rest
  rw [readBytes_toBytes]
  rfl

theorem toBytes_injective : Function.Injective toBytes := selfDelimiting_toBytes.injective

theorem toString_injective_v1 {c d : Cid} (first : c.version = .v1) (second : d.version = .v1)
    (same : c.toString = d.toString) : c = d := by
  simp only [toString, first, second] at same
  have text : Multibase.base32Lower c.toBytes = Multibase.base32Lower d.toBytes := by
    have chars := congrArg String.toList same
    rw [String.toList_append, String.toList_append] at chars
    exact String.toList_injective (append_cancel_left chars)
  exact toBytes_injective (Multibase.base32Lower_injective text)

theorem toBytes_ne_nil (c : Cid) : c.toBytes ≠ [] := by
  unfold toBytes
  split
  · simp
  · simp [encode_ne_nil]

end Cid

end Stoa
