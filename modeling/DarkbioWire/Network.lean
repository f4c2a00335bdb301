import DarkbioWire.Symbolic
import DarkbioWire.Steps
import Mathlib.Logic.Function.Basic

/-!
# Arks and hosts on a network of the attacker

Any number of Arks and hosts, each in its calls, over a network of packets that is the attacker: it sees every packet a
side sends, decides whether the send fails, and has a side receive any packet it can build, or a failure of the framer.
A run is any list of such steps; its trace keeps the state before each of them, the latest first.
-/

namespace DarkbioWire

open Symbolic

variable {Blob : Type}

/-- The attacker's end of a side's transport: the packets it took, and what it will answer. Without an answer left it
takes everything. A packet is seen also when sending it fails. -/
structure Net (Blob : Type) (limit : Nat) where
  sent : List Blob
  answers : List (Option Error)

variable {limit : Nat}

namespace Net

def answer (net : Net Blob limit) : Except Error Unit × Net Blob limit :=
  match net.answers with
  | [] => (.ok (), net)
  | none :: answers => (.ok (), { net with answers })
  | some err :: answers => (.error err, { net with answers })

instance : Transport (Net Blob limit) Blob where
  sendReset := answer
  sendPacket net packet := answer { net with sent := packet :: net.sent }
  maxMessageSize := limit

theorem answer_sent (net : Net Blob limit) : net.answer.2.sent = net.sent := by
  rw [answer]
  split <;> rfl

theorem sent_of_sendReset {net net' : Net Blob limit} {result : Except Error Unit}
    (h : Transport.sendReset net = (result, net')) : net'.sent = net.sent := by
  have hsent := net.answer_sent
  rw [show net.answer = (result, net') from h] at hsent
  exact hsent

theorem sent_of_sendPacket {net net' : Net Blob limit} {packet : Blob} {result : Except Error Unit}
    (h : Transport.sendPacket net packet = (result, net')) : net'.sent = packet :: net.sent := by
  have hsent := ({ net with sent := packet :: net.sent } : Net Blob limit).answer_sent
  rw [show answer { net with sent := packet :: net.sent } = (result, net') from h] at hsent
  exact hsent

end Net

variable {c : Crypto Blob} {hpke : Contexts c} {proto : Protocol Blob} {A Info : Type} [Attester c A]

/-! ### An Ark -/

/-- An Ark with the call of `next_message` it is in. -/
structure ArkNode {Blob : Type} (c : Crypto Blob) (A : Type) (limit : Nat) where
  side : ArkSide c A (Net Blob limit)
  call : Option (MessagePoint c)
  /-- The host key the last HostAck that was accepted is signed with; no code reads it. -/
  hostSigner : Option c.XdsaPublicKey

/-- What happens to an Ark. -/
inductive ArkInput (proto : Protocol Blob)
  | nextMessage
  | deliver (packet : Except Error (Option Blob))
  | sendMessage (res : proto.ArkToHost)
  | answers (answers : List (Option Error))

namespace ArkNode

/-- The point at which a call goes on. -/
def next : Flow (MessagePoint c) proto.HostToArk → Option (MessagePoint c)
  | .wait point => some point
  | .done _ => none

/-- The host key of the session there is once a packet was delivered. -/
def signerAfter (node : ArkNode c A limit) : MessagePoint c → Except Error (Option Blob) → Option c.XdsaPublicKey
  | .handshake (.ack wait), .ok (some packet) =>
      match node.side.acceptAck wait packet with
      | .ok _ => some wait.hostHello.hostSigner
      | .error _ => node.hostSigner
  | _, _ => node.hostSigner

/-- One input. A method is only called while no call is under way, and a packet only goes to a call that waits. -/
def step (coins : Nat → Coins c) (node : ArkNode c A limit) : ArkInput proto → ArkNode c A limit
  | .nextMessage =>
    match node.call with
    | none => { node with call := some .packet }
    | some _ => node
  | .deliver packet =>
    match node.call with
    | none => node
    | some point =>
      let (flow, side) := node.side.nextMessageStep proto (coins node.side.draws) point packet
      { side, call := next flow, hostSigner := node.signerAfter point packet }
  | .sendMessage res =>
    match node.call with
    | none => { node with side := (node.side.sendMessage proto res).2 }
    | some _ => node
  | .answers answers => { node with side := { node.side with framing := { node.side.framing with answers } } }

end ArkNode

/-! ### A host -/

/-- A host with the call of `handshake` it is in. -/
structure HostNode {Blob : Type} (c : Crypto Blob) (Info : Type) (limit : Nat) where
  side : HostSide c (Net Blob limit)
  call : Option (HelloWait c Info)
  /-- The identity the verifier returned in the last handshake that succeeded; no code reads it. -/
  arkIdentity : Option c.XdsaPublicKey

/-- What happens to a host. -/
inductive HostInput (c : Crypto Blob) (proto : Protocol Blob) (Info : Type)
  | handshake (verifier : Verifier c Info)
  | deliver (packet : Except Error (Option Blob))
  | nextMessage (packet : Except Error (Option Blob))
  | sendMessage (req : proto.HostToArk)
  | answers (answers : List (Option Error))

namespace HostNode

/-- The call after its first half. -/
def started : Except Error (HelloWait c Info) → Option (HelloWait c Info)
  | .ok wait => some wait
  | .error _ => none

/-- The point at which a call goes on. -/
def next : Flow (HelloWait c Info) Info → Option (HelloWait c Info)
  | .wait wait => some wait
  | .done _ => none

/-- The identity of the session there is once a handshake went on with this packet. -/
def identityAfter (node : HostNode c Info limit) (wait : HelloWait c Info) (packet : Except Error (Option Blob)) :
    Flow (HelloWait c Info) Info → Option c.XdsaPublicKey
  | .done (.ok _) =>
      match packet with
      | .ok packet =>
        match wait.openHello (packet.getD c.empty) with
        | .ok verified => some verified.arkIdentity
        | .error _ => node.arkIdentity
      | .error _ => node.arkIdentity
  | _ => node.arkIdentity

/-- One input. A method is only called while no call is under way, and a packet only goes to a call that waits. -/
def step (coins : Nat → Coins c) (node : HostNode c Info limit) : HostInput c proto Info → HostNode c Info limit
  | .handshake verifier =>
    match node.call with
    | none =>
      let (result, side) := node.side.handshakeStart (coins node.side.draws) verifier
      { node with side, call := started result }
    | some _ => node
  | .deliver packet =>
    match node.call with
    | none => node
    | some wait =>
      let (flow, side) := node.side.handshakeStep (coins node.side.draws) wait packet
      { side, call := next flow, arkIdentity := node.identityAfter wait packet flow }
  | .nextMessage packet =>
    match node.call with
    | none => { node with side := (node.side.nextMessageStep proto packet).2 }
    | some _ => node
  | .sendMessage req =>
    match node.call with
    | none => { node with side := (node.side.sendMessage proto req).2 }
    | some _ => node
  | .answers answers => { node with side := { node.side with framing := { node.side.framing with answers } } }

end HostNode

/-! ### The network -/

/-- The identity keys, which of them each Ark holds and which of them others hold too, and everyone's coins. -/
structure Parties {Blob : Type} (c : Crypto Blob) where
  signers : Nat → c.XdsaSecretKey
  identity : Nat → Nat
  leaked : Set Nat
  arkCoins : Nat → Nat → Coins c
  hostCoins : Nat → Nat → Coins c

/-- The Arks and the hosts. -/
structure World {Blob : Type} (c : Crypto Blob) (A Info : Type) (limit : Nat) where
  ark : Nat → ArkNode c A limit
  host : Nat → HostNode c Info limit

/-- The identity keys that did not leak have their names, and so have those of the Arks that answered. What a party has
drawn by now has the name of the draw, so it is fresh and nobody else's. -/
structure Parties.Named (parties : Parties c) (reading : Reading hpke) (w : World c A Info limit) : Prop where
  unleaked : ∀ n ∉ parties.leaked, reading.signKey (parties.signers n) = .signer n
  identity : ∀ a, 0 < (w.ark a).side.draws →
    reading.signKey (parties.signers (parties.identity a)) = .signer (parties.identity a)
  arkFirst : ∀ a, ∀ n < (w.ark a).side.draws, reading.seed (parties.arkCoins a n).first = .ark a n .first
  arkSecond : ∀ a, ∀ n < (w.ark a).side.draws, reading.seed (parties.arkCoins a n).second = .ark a n .second
  hostFirst : ∀ h, ∀ n < (w.host h).side.draws, reading.seed (parties.hostCoins h n).first = .host h n .first
  hostSecond : ∀ h, ∀ n < (w.host h).side.draws, reading.seed (parties.hostCoins h n).second = .host h n .second

/-- The `n`-th draw of this host, made by now, generated this host key. -/
def World.Generated (parties : Parties c) (w : World c A Info limit) (h n : Nat) (hostKey : c.XdsaPublicKey) : Prop :=
  n < (w.host h).side.draws ∧ hostKey = c.xdsaPublicKey (c.xdsaGenerate (parties.hostCoins h n).first)

omit [Attester c A] in
theorem World.Generated.name {parties : Parties c} {reading : Reading hpke} {w : World c A Info limit} {h n : Nat}
    {hostKey : c.XdsaPublicKey} (hgenerated : w.Generated parties h n hostKey) (hnamed : parties.Named reading w) :
    reading.verifyKey hostKey = .host h n .first := by
  rw [hgenerated.2, reading.verifyKey_public, reading.signKey_generate, hnamed.hostFirst h n hgenerated.1]

/-- A step of the network. -/
inductive Action (c : Crypto Blob) (proto : Protocol Blob) (Info : Type)
  | ark (a : Nat) (input : ArkInput proto)
  | host (h : Nat) (input : HostInput c proto Info)

/-- A run so far, the latest step first, each with the state it was taken in. -/
abbrev Trace (c : Crypto Blob) (proto : Protocol Blob) (A Info : Type) (limit : Nat) :=
  List (World c A Info limit × Action c proto Info)

namespace World

/-- Everyone was just created. -/
def start (parties : Parties c) (attesters : Nat → A) : World c A Info limit where
  ark a := { side := .new ⟨[], []⟩ (parties.signers (parties.identity a)) (attesters a), call := none, hostSigner := none }
  host _ := { side := .new ⟨[], []⟩, call := none, arkIdentity := none }

def step (parties : Parties c) (w : World c A Info limit) : Action c proto Info → World c A Info limit
  | .ark a input => { w with ark := Function.update w.ark a ((w.ark a).step (parties.arkCoins a) input) }
  | .host h input => { w with host := Function.update w.host h ((w.host h).step (parties.hostCoins h) input) }

theorem step_ark_self (parties : Parties c) (w : World c A Info limit) (a : Nat) (input : ArkInput proto) :
    (w.step parties (.ark a input : Action c proto Info)).ark a = (w.ark a).step (parties.arkCoins a) input :=
  Function.update_self ..

theorem step_ark_other (parties : Parties c) (w : World c A Info limit) {a : Nat} {action : Action c proto Info}
    (hother : ∀ input, action ≠ .ark a input) : (w.step parties action).ark a = w.ark a := by
  cases action with
  | ark b input => exact Function.update_of_ne (fun h => hother input (by rw [h])) _ _
  | host h input => rfl

theorem step_host_self (parties : Parties c) (w : World c A Info limit) (h : Nat) (input : HostInput c proto Info) :
    (w.step parties (.host h input)).host h = (w.host h).step (parties.hostCoins h) input :=
  Function.update_self ..

theorem step_host_other (parties : Parties c) (w : World c A Info limit) {h : Nat} {action : Action c proto Info}
    (hother : ∀ input, action ≠ .host h input) : (w.step parties action).host h = w.host h := by
  cases action with
  | ark a input => rfl
  | host i input => exact Function.update_of_ne (fun h => hother input (by rw [h])) _ _

/-- A packet somebody sent. -/
def Sent (w : World c A Info limit) (packet : Blob) : Prop :=
  (∃ a, packet ∈ (w.ark a).side.framing.sent) ∨ ∃ h, packet ∈ (w.host h).side.framing.sent

/-- What the attacker saw: the public identity keys, those that leaked, and what was sent. -/
def known (reading : Reading hpke) (parties : Parties c) (w : World c A Info limit) : Set (Term Name) :=
  {t | (∃ n, t = .verifyKey (.signer n)) ∨ (∃ n ∈ parties.leaked, t = .signKey (.signer n)) ∨
    ∃ packet, w.Sent packet ∧ t = reading.term packet}

/-- The attacker can build this packet. -/
def Builds (reading : Reading hpke) (parties : Parties c) (w : World c A Info limit) (packet : Blob) : Prop :=
  Derives (w.known reading parties) Name.own (reading.term packet)

omit [Attester c A] in
theorem builds_of_sent {reading : Reading hpke} {parties : Parties c} {w : World c A Info limit} {packet : Blob}
    (h : w.Sent packet) : w.Builds reading parties packet :=
  .known (Or.inr (Or.inr ⟨packet, h, rfl⟩))

end World

/-- What an action has a side receive. -/
def Action.received : Action c proto Info → Option Blob
  | .ark _ (.deliver (.ok packet)) => packet
  | .host _ (.deliver (.ok packet)) => packet
  | .host _ (.nextMessage (.ok packet)) => packet
  | _ => none

/-- The runs of the network, for any attestations the Arks present. -/
inductive Run (reading : Reading hpke) (parties : Parties c) : Trace c proto A Info limit → World c A Info limit → Prop
  | start (attesters) : Run reading parties [] (.start parties attesters)
  | step {trace w action} : Run reading parties trace w →
      (∀ packet, Action.received action = some packet → w.Builds reading parties packet) →
      Run reading parties ((w, action) :: trace) (w.step parties action)

theorem Run.before {reading : Reading hpke} {parties : Parties c} {trace : Trace c proto A Info limit}
    {w : World c A Info limit} (h : Run reading parties trace w) {past : World c A Info limit × Action c proto Info}
    (hmem : past ∈ trace) : ∃ earlier, Run reading parties earlier past.1 ∧ earlier ⊆ trace ∧
      ∀ packet, past.2.received = some packet → past.1.Builds reading parties packet := by
  induction h with
  | start attesters => cases hmem
  | step hrun hbuilds ih =>
      rcases List.mem_cons.mp hmem with rfl | hmem
      · exact ⟨_, hrun, List.subset_cons_self _ _, hbuilds⟩
      · obtain ⟨earlier, hearlier, hsub, hbuilt⟩ := ih hmem
        exact ⟨earlier, hearlier, fun step hstep => List.mem_cons_of_mem _ (hsub hstep), hbuilt⟩

end DarkbioWire
