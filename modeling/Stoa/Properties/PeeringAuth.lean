import Stoa.Core.Canonical
import Stoa.Lib.Runs

/-!
`signed_of_accepted`: whenever a session accepts a node's key, a session of that node has
received its nonce.

`agreement_of_connected`: the two sessions have received each other's nonces if the network
delivers nonces only between the two ends of a connection.
-/
namespace Stoa.Transit

inductive PeeringAuthError
  | io (message : String)
  | signatureVerificationFailed
  | peerNotTrusted
  | timeout
  deriving DecidableEq, Repr

abbrev Nonce := FixedBytes 32

structure AuthFrame where
  pubkey : VerifyingKey
  sig : Signature
  deriving DecidableEq

section Handshake

variable (ed : Ed25519)

def signedMessage (nonce : Nonce) (pubkey : VerifyingKey) : Bytes := nonce.toBytes ++ pubkey.toBytes

def outFrame (signingKey : SigningKey) (theirNonce : Nonce) : AuthFrame :=
  ⟨ed.verifyingKey signingKey,
    ed.sign signingKey (signedMessage theirNonce (ed.verifyingKey signingKey))⟩

def checkFrame (trustedKeys : List VerifyingKey) (myNonce : Nonce) (inFrame : AuthFrame) :
    Except PeeringAuthError VerifyingKey :=
  -- All keys are compared, so that the time does not tell which one fits.
  let isTrusted := trustedKeys.foldl (fun found k => found || decide (k = inFrame.pubkey)) false
  if !isTrusted then .error .peerNotTrusted
  else match ed.verify inFrame.pubkey (signedMessage myNonce inFrame.pubkey) inFrame.sig with
    | .error _ => .error .signatureVerificationFailed
    | .ok () => .ok inFrame.pubkey

end Handshake

/-- A run of the handshake by a node: its nonce, the nonce it has received and signed, and its
result. -/
structure AuthSession (ν : Type) where
  node : ν
  trustedKeys : List VerifyingKey
  nonce : Nonce
  received : Option Nonce
  result : Option (Except PeeringAuthError VerifyingKey)

abbrev AuthWorld (ν : Type) := Nat → Option (AuthSession ν)

/-- What happens next: a node begins a session with a nonce, or the network delivers a nonce or a
frame to a session, or a session fails. -/
inductive AuthLabel (ν : Type)
  | start (i : Nat) (node : ν) (trustedKeys : List VerifyingKey) (nonce : Nonce)
  | nonce (i : Nat) (theirNonce : Nonce)
  | frame (i : Nat) (inFrame : AuthFrame)
  | fail (i : Nat) (error : PeeringAuthError)

section Sessions

variable {ν : Type} (ed : Ed25519) (key : ν → SigningKey)

/-- A session takes a nonce and then a frame; whatever else it is sent stays unread. -/
def AuthSession.step (session : AuthSession ν) (label : AuthLabel ν) : AuthSession ν :=
  match label, session.result, session.received with
  | .nonce _ theirNonce, none, none => { session with received := some theirNonce }
  | .frame _ inFrame, none, some _ =>
    { session with result := some (checkFrame ed session.trustedKeys session.nonce inFrame) }
  | .fail _ error, none, _ => { session with result := some (.error error) }
  | _, _, _ => session

def AuthLabel.session : AuthLabel ν → Nat
  | .start i _ _ _ | .nonce i _ | .frame i _ | .fail i _ => i

def AuthSession.sends (session : AuthSession ν) : AuthLabel ν → Option AuthFrame
  | .nonce _ theirNonce => match session.result, session.received with
    | none, none => some (outFrame ed (key session.node) theirNonce)
    | _, _ => none
  | _ => none

def authStep (label : AuthLabel ν) (world : AuthWorld ν) : Option AuthFrame × AuthWorld ν :=
  match world label.session with
  | some session =>
    (session.sends ed key label, Function.update world label.session (some (session.step ed label)))
  | none => match label with
    | .start i node trustedKeys nonce =>
      (none, Function.update world i (some ⟨node, trustedKeys, nonce, none, none⟩))
    | _ => (none, world)

end Sessions

variable {ν : Type}

section Runs

variable (ed : Ed25519) (key : ν → SigningKey)

def Signed (world : AuthWorld ν) (node : ν) (message : Bytes) : Prop :=
  ∃ j b r, world j = some b ∧ b.node = node ∧ b.received = some r ∧
    signedMessage r (ed.verifyingKey (key node)) = message

/-- A frame is delivered with a valid signature of a node only if the node has made it. -/
def Unforged (label : AuthLabel ν) (world : AuthWorld ν) : Prop :=
  match label with
  | .frame i inFrame => ∀ a, world i = some a → ∀ node, ed.verifyingKey (key node) = inFrame.pubkey →
      ed.accepts inFrame.pubkey (signedMessage a.nonce inFrame.pubkey) inFrame.sig = true →
      Signed ed key world node (signedMessage a.nonce inFrame.pubkey)
  | _ => True

def Fresh (world : AuthWorld ν) : Prop :=
  ∀ i j a b, world i = some a → world j = some b → a.nonce = b.nonce → i = j

def Connected (world : AuthWorld ν) : Prop :=
  ∃ peer : Nat → Nat, (∀ i, peer (peer i) = i) ∧
    ∀ i a r, world i = some a → a.received = some r → ∃ b, world (peer i) = some b ∧ b.nonce = r

/-- Whenever a session accepts a node's key, it and a session of that node have received each
other's nonces. -/
def Agreement (world : AuthWorld ν) : Prop :=
  ∀ i a node, world i = some a → a.result = some (.ok (ed.verifyingKey (key node))) →
    ∃ j b, world j = some b ∧ b.node = node ∧ b.received = some a.nonce ∧ a.received = some b.nonce

end Runs

variable {ed : Ed25519} {key : ν → SigningKey}

theorem signedMessage_injective {r n : Nonce} {pubkey : VerifyingKey}
    (same : signedMessage r pubkey = signedMessage n pubkey) : r = n :=
  FixedBytes.toBytes_injective (List.append_cancel_right same)

theorem accepts_of_checkFrame {trustedKeys : List VerifyingKey} {nonce : Nonce} {inFrame : AuthFrame}
    {pubkey : VerifyingKey} (accepted : checkFrame ed trustedKeys nonce inFrame = .ok pubkey) :
    inFrame.pubkey = pubkey ∧
      ed.accepts inFrame.pubkey (signedMessage nonce inFrame.pubkey) inFrame.sig = true := by
  unfold checkFrame Ed25519.verify at accepted
  dsimp only at accepted
  split at accepted
  · cases accepted
  · by_cases valid : ed.accepts inFrame.pubkey (signedMessage nonce inFrame.pubkey) inFrame.sig = true
    · rw [if_pos valid] at accepted
      cases accepted
      exact ⟨rfl, valid⟩
    · rw [if_neg valid] at accepted
      cases accepted

theorem AuthSession.step_cases (a : AuthSession ν) (label : AuthLabel ν) : a.step ed label = a ∨
    (∃ n, a.received = none ∧ a.result = none ∧ a.step ed label = { a with received := some n }) ∨
    (∃ i inFrame, label = .frame i inFrame ∧ a.received ≠ none ∧
      a.step ed label = { a with result := some (checkFrame ed a.trustedKeys a.nonce inFrame) }) ∨
    (∃ error, a.step ed label = { a with result := some (.error error) }) := by
  unfold AuthSession.step
  split
  · next result received => exact .inr (.inl ⟨_, received, result, rfl⟩)
  · next result received =>
    exact .inr (.inr (.inl ⟨_, _, rfl, by rw [received]; exact Option.some_ne_none _, rfl⟩))
  · exact .inr (.inr (.inr ⟨_, rfl⟩))
  · exact .inl rfl

theorem authStep_cases (label : AuthLabel ν) (world : AuthWorld ν) (i : Nat) :
    (authStep ed key label world).2 i = world i ∨ (world i = none ∧ ∃ node trustedKeys nonce,
      (authStep ed key label world).2 i = some ⟨node, trustedKeys, nonce, none, none⟩) ∨
    (∃ a, world i = some a ∧ label.session = i ∧
      (authStep ed key label world).2 i = some (a.step ed label)) := by
  unfold authStep
  by_cases here : label.session = i
  · rw [here]
    cases found : world i with
    | some a => exact .inr (.inr ⟨a, rfl, rfl, Function.update_self ..⟩)
    | none =>
      cases label with
      | start j node trustedKeys nonce =>
        obtain rfl : j = i := here
        exact .inr (.inl ⟨rfl, node, trustedKeys, nonce, Function.update_self ..⟩)
      | nonce j theirNonce => exact .inl found
      | frame j inFrame => exact .inl found
      | fail j error => exact .inl found
  · refine .inl ?_
    cases world label.session with
    | some a => exact Function.update_of_ne (Ne.symm here) ..
    | none =>
      cases label with
      | start j node trustedKeys nonce => exact Function.update_of_ne (Ne.symm here) ..
      | nonce j theirNonce => rfl
      | frame j inFrame => rfl
      | fail j error => rfl

def GoesOn (a b : AuthSession ν) : Prop :=
  b.node = a.node ∧ b.nonce = a.nonce ∧ ∀ r, a.received = some r → b.received = some r

theorem goesOn_step (a : AuthSession ν) (label : AuthLabel ν) : GoesOn a (a.step ed label) := by
  rcases @AuthSession.step_cases ν ed a label with
    same | ⟨n, idle, -, next⟩ | ⟨i, inFrame, -, -, next⟩ | ⟨error, next⟩
  · rw [same]
    exact ⟨rfl, rfl, fun _ received => received⟩
  · rw [next]
    exact ⟨rfl, rfl, fun r received => absurd (idle.symm.trans received) (by simp)⟩
  · rw [next]
    exact ⟨rfl, rfl, fun _ received => received⟩
  · rw [next]
    exact ⟨rfl, rfl, fun _ received => received⟩

theorem goesOn_authStep {label : AuthLabel ν} {world : AuthWorld ν} {i : Nat} {a : AuthSession ν}
    (found : world i = some a) : ∃ b, (authStep ed key label world).2 i = some b ∧ GoesOn a b := by
  rcases @authStep_cases ν ed key label world i with same | ⟨missing, -⟩ | ⟨a', found', -, next⟩
  · exact ⟨a, same.trans found, rfl, rfl, fun _ received => received⟩
  · rw [found] at missing
    cases missing
  · cases found.symm.trans found'
    exact ⟨_, next, goesOn_step a label⟩

theorem Signed.authStep {world : AuthWorld ν} {node : ν} {message : Bytes}
    (signed : Signed ed key world node message) (label : AuthLabel ν) :
    Signed ed key (authStep ed key label world).2 node message := by
  obtain ⟨j, b, r, found, owner, received, same⟩ := signed
  obtain ⟨b', found', node', -, kept⟩ := @goesOn_authStep ν ed key label world j b found
  exact ⟨j, b', r, found', node'.trans owner, kept r received, same⟩

def AcceptedSigned (ed : Ed25519) (key : ν → SigningKey) (world : AuthWorld ν) : Prop :=
  ∀ i a node, world i = some a → a.result = some (.ok (ed.verifyingKey (key node))) →
    a.received ≠ none ∧ Signed ed key world node (signedMessage a.nonce (ed.verifyingKey (key node)))

theorem AcceptedSigned.authStep {world : AuthWorld ν} (inv : AcceptedSigned ed key world)
    {label : AuthLabel ν} (unforged : Unforged ed key label world) :
    AcceptedSigned ed key (authStep ed key label world).2 := by
  intro i b node found accepted
  rcases @authStep_cases ν ed key label world i with
    same | ⟨-, node', trustedKeys, nonce, next⟩ | ⟨a, found', here, next⟩
  · rw [same] at found
    exact (inv i b node found accepted).imp_right fun signed => signed.authStep label
  · rw [next] at found
    cases found
    cases accepted
  · rw [next] at found
    cases found
    rcases @AuthSession.step_cases ν ed a label with
      same | ⟨n, -, pending, received⟩ | ⟨j, inFrame, rfl, received, checked⟩ | ⟨error, failed⟩
    · rw [same] at accepted ⊢
      exact (inv i a node found' accepted).imp_right fun signed => signed.authStep label
    · rw [received] at accepted
      exact absurd (pending.symm.trans accepted) (by simp)
    · -- The frame is accepted now, so that its signature is one of the node's.
      rw [checked] at accepted ⊢
      obtain ⟨pubkey, valid⟩ := accepts_of_checkFrame (Option.some.inj accepted)
      obtain rfl : j = i := here
      have signed := unforged a found' node pubkey.symm valid
      rw [pubkey] at signed
      exact ⟨received, signed.authStep _⟩
    · rw [failed] at accepted
      cases accepted

theorem AcceptedSigned.run {labels : List (AuthLabel ν)} {world : AuthWorld ν}
    (inv : AcceptedSigned ed key world)
    (unforged : AlongRun (Transit.authStep ed key) (Unforged ed key) labels world) :
    AcceptedSigned ed key (runAll (Transit.authStep ed key) labels world).2 := by
  induction labels generalizing world with
  | nil => exact inv
  | cons label labels ih => exact ih (inv.authStep unforged.1) unforged.2

def AuthWorld.start : AuthWorld ν := fun _ => none

theorem signed_of_accepted {labels : List (AuthLabel ν)}
    (unforged : AlongRun (authStep ed key) (Unforged ed key) labels .start) {i : Nat} {a : AuthSession ν}
    {node : ν} (found : (runAll (authStep ed key) labels .start).2 i = some a)
    (accepted : a.result = some (.ok (ed.verifyingKey (key node)))) :
    ∃ j b, (runAll (authStep ed key) labels .start).2 j = some b ∧ b.node = node ∧
      b.received = some a.nonce := by
  have start : AcceptedSigned ed key (AuthWorld.start : AuthWorld ν) := by rintro i a node ⟨⟩
  obtain ⟨-, j, b, r, there, owner, received, same⟩ := (start.run unforged) i a node found accepted
  rw [signedMessage_injective same] at received
  exact ⟨j, b, there, owner, received⟩

theorem agreement_of_connected (ed : Ed25519) (key : ν → SigningKey) (labels : List (AuthLabel ν))
    (unforged : AlongRun (authStep ed key) (Unforged ed key) labels .start)
    (fresh : Fresh (runAll (authStep ed key) labels .start).2)
    (connected : Connected (runAll (authStep ed key) labels .start).2) :
    Agreement ed key (runAll (authStep ed key) labels .start).2 := by
  intro i a node found accepted
  obtain ⟨j, b, there, owner, received⟩ := signed_of_accepted unforged found accepted
  have start : AcceptedSigned ed key (AuthWorld.start : AuthWorld ν) := by rintro i a node ⟨⟩
  obtain ⟨answered, -⟩ := (start.run unforged) i a node found accepted
  obtain ⟨peer, twice, delivered⟩ := connected
  refine ⟨j, b, there, owner, received, ?_⟩
  -- The other end of the signer's connection has this nonce, so it is this session.
  obtain ⟨a', found', nonce⟩ := delivered j b a.nonce there received
  obtain rfl : peer j = i := fresh (peer j) i a' a found' found nonce
  obtain ⟨r, taken⟩ := Option.ne_none_iff_exists'.mp answered
  obtain ⟨b', there', nonce'⟩ := delivered (peer j) a r found taken
  rw [twice, there] at there'
  cases there'
  rw [taken, nonce']

namespace Sample

def toySignature (k : SigningKey) (message : Bytes) : Signature :=
  FixedBytes.fill 64 (message.headD 0 + k.toBytes.headD 0)

def toyEd : Ed25519 where
  verifyingKey k := k
  signature := toySignature
  accepts k message sig := decide (sig = toySignature k message)
  accepts_signature _ _ := decide_eq_true rfl

def nodeKey (second : Bool) : SigningKey := FixedBytes.fill 32 (if second then 2 else 1)

def nonceOf (x : UInt8) : Nonce := FixedBytes.fill 32 x

/-- The nonce of the first node is delivered to the second, whose answer is delivered back; the
first node gets the nonce `given`. -/
def exchange (given : Nonce) : List (AuthLabel Bool) :=
  [.start 0 false [nodeKey true] (nonceOf 3), .start 1 true [] (nonceOf 4), .nonce 1 (nonceOf 3),
    .nonce 0 given, .frame 0 (outFrame toyEd (nodeKey true) (nonceOf 3))]

def afterExchange (given : Nonce) : AuthWorld Bool
  | 0 => some ⟨false, [nodeKey true], nonceOf 3, some given, some (.ok (nodeKey true))⟩
  | 1 => some ⟨true, [], nonceOf 4, some (nonceOf 3), none⟩
  | _ => none

theorem run_exchange (given : Nonce) :
    (runAll (authStep toyEd nodeKey) (exchange given) .start).2 = afterExchange given := by
  funext i
  rcases i with _ | _ | i <;> rfl

theorem unforged_exchange (given : Nonce) :
    AlongRun (authStep toyEd nodeKey) (Unforged toyEd nodeKey) (exchange given) .start := by
  refine ⟨trivial, trivial, trivial, trivial, ?_, trivial⟩
  rintro a ⟨⟩ node owner -
  cases node with
  | false => exact absurd owner (by decide)
  | true => exact ⟨1, _, nonceOf 3, rfl, rfl, rfl, rfl⟩

theorem nonces_differ : nonceOf 3 ≠ nonceOf 4 := by decide

theorem fresh_exchange (given : Nonce) : Fresh (afterExchange given) := by
  intro i j a b
  rcases i with _ | _ | i <;> rcases j with _ | _ | j <;> rintro ⟨⟩ ⟨⟩ same
  · rfl
  · exact absurd same nonces_differ
  · exact absurd same.symm nonces_differ
  · rfl

theorem connected_direct : Connected (afterExchange (nonceOf 4)) := by
  refine ⟨fun i => if i = 0 then 1 else if i = 1 then 0 else i, ?_, ?_⟩
  · intro i
    rcases i with _ | _ | i <;> simp
  · intro i a r
    rcases i with _ | _ | i <;> rintro ⟨⟩ ⟨⟩
    · exact ⟨_, rfl, rfl⟩
    · exact ⟨_, rfl, rfl⟩

theorem direct_agrees : Connected (runAll (authStep toyEd nodeKey) (exchange (nonceOf 4)) .start).2 ∧
    Agreement toyEd nodeKey (runAll (authStep toyEd nodeKey) (exchange (nonceOf 4)) .start).2 := by
  have connected : Connected (runAll (authStep toyEd nodeKey) (exchange (nonceOf 4)) .start).2 := by
    rw [run_exchange]
    exact connected_direct
  refine ⟨connected, agreement_of_connected toyEd nodeKey _ (unforged_exchange _) ?_ connected⟩
  rw [run_exchange]
  exact fresh_exchange _

/-- With a nonce of the attacker's the first node accepts the second all the same, which has never
heard of that nonce. -/
theorem relayed_disagrees :
    AlongRun (authStep toyEd nodeKey) (Unforged toyEd nodeKey) (exchange (nonceOf 5)) .start ∧
      Fresh (runAll (authStep toyEd nodeKey) (exchange (nonceOf 5)) .start).2 ∧
      ¬ Agreement toyEd nodeKey (runAll (authStep toyEd nodeKey) (exchange (nonceOf 5)) .start).2 := by
  rw [run_exchange]
  refine ⟨unforged_exchange _, fresh_exchange _, fun agreement => ?_⟩
  obtain ⟨j, b, there, -, -, other⟩ := agreement 0 _ true rfl rfl
  have nonce : nonceOf 5 = b.nonce := Option.some.inj other
  rcases j with _ | _ | j
  · cases there
    exact absurd nonce (by decide)
  · cases there
    exact absurd nonce (by decide)
  · cases there

end Sample

end Stoa.Transit
