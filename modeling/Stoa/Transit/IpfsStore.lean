import Stoa.Core.Cid
import Stoa.Lib.Prog
import Mathlib.Data.List.AList

/-! Where the transit daemon writes article bytes. Every backend names a block by the CIDv1 of its
bytes under the raw codec. -/
namespace Stoa

inductive IpfsError
  | writeFailed (message : String)
  | readFailed (message : String)
  deriving DecidableEq, Repr

def IpfsError.toString : IpfsError → String
  | writeFailed message => "IPFS write failed: " ++ message
  | readFailed message => "IPFS read failed: " ++ message

inductive DeletionOutcome
  | immediate
  | deferred (readableForApproxSecs : Option UInt64)
  deriving DecidableEq, Repr

def rawCid (data : Bytes) : Cid := .newV1 0x55 (Multihash.sha256 data)

/-- A block store with state `I`. -/
class IpfsStore (I : Type) where
  putRaw : Bytes → Prog I IpfsError Cid
  getRaw : Cid → Prog I IpfsError (Option Bytes)
  delete : Cid → Prog I IpfsError DeletionOutcome
  putRaw_returns : ∀ data s cid s', (putRaw data).exec s = (.ok cid, s') → cid = rawCid data

/-- A block store whose deletions take effect at once and never fail. -/
class ImmediateStore (I : Type) extends IpfsStore I where
  Has : I → Cid → Prop
  has_putRaw : ∀ data s cid s', (putRaw data).exec s = (.ok cid, s') →
    ∀ c, Has s' c ↔ Has s c ∨ c = rawCid data
  has_putRaw_failed : ∀ data s e s', (putRaw data).exec s = (.error e, s') →
    ∀ c, Has s' c ↔ Has s c
  delete_immediate : ∀ cid s, ((delete cid).exec s).1 = .ok .immediate
  has_delete : ∀ cid s c, Has ((delete cid).exec s).2 c ↔ Has s c ∧ c ≠ cid

/-- Such a store that gives a block back under its CID as long as it has the block. -/
class ReadableStore (I : Type) extends ImmediateStore I where
  getRaw_some : ∀ cid s b s', (getRaw cid).exec s = (.ok (some b), s') → rawCid b = cid ∧ Has s cid
  getRaw_none : ∀ cid s s', (getRaw cid).exec s = (.ok none, s') → ¬ Has s cid
  has_getRaw : ∀ cid s c, Has ((getRaw cid).exec s).2 c ↔ Has s c

structure MemIpfsStore where
  blocks : AList fun _ : String => Bytes

namespace MemIpfsStore

def new : MemIpfsStore := ⟨∅⟩

instance : IpfsStore MemIpfsStore where
  putRaw data := Prog.ofExec fun s =>
    (.ok (rawCid data), ⟨s.blocks.insert (rawCid data).toString data⟩)
  getRaw cid := Prog.reads fun s => s.blocks.lookup cid.toString
  -- The trait's own `delete`: the block stays.
  delete _ := pure (.deferred none)
  putRaw_returns _ _ _ _ run := (Except.ok.inj (congrArg Prod.fst run)).symm

end MemIpfsStore

end Stoa
