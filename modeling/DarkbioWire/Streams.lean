import DarkbioWire.Reference.Coded
import DarkbioWire.Simulation
import DarkbioWire.Trust

/-!
# The network over byte streams

Any number of Arks and hosts over byte streams, in any order of their actions, and beside them the packet network they are:
every action of a process is a few steps of its node. What the attacker can do is decided there, packet by packet: it sees
what is handed to the framers, and what a framer finds in its stream has to be a packet it can build. So what holds of
packets holds of the processes and of the histories they leave (`streams_refine`, `streams_hear`).
-/

namespace DarkbioWire

open Era Framing Symbolic

variable {c : Crypto (List UInt8)} {proto : Protocol (List UInt8)} {A Info : Type} [Attester c A] {cobs : Cobs}
  {maxFrameSize : Nat}

/-- The processes of the Arks and the hosts. -/
structure Streams (c : Crypto (List UInt8)) (proto : Protocol (List UInt8)) (A Info : Type) (cobs : Cobs)
    (maxFrameSize : Nat) where
  ark : Nat → ArkProc c proto A cobs maxFrameSize
  host : Nat → HostProc c proto Info cobs maxFrameSize

/-- An action of one of them. -/
inductive StreamAction (c : Crypto (List UInt8)) (proto : Protocol (List UInt8)) (Info : Type)
  | ark (a : Nat) (action : ArkAction proto)
  | host (h : Nat) (action : HostAction c proto Info)

namespace Streams

/-- Everyone was just created around a stream. -/
def start (parties : Parties c) (attesters : Nat → A) (arkStreams hostStreams : Nat → Reader × Writer) :
    Streams c proto A Info cobs maxFrameSize where
  ark a := .new (arkStreams a).1 (arkStreams a).2 (parties.signers (parties.identity a)) (attesters a)
  host h := .new (hostStreams h).1 (hostStreams h).2

def step (parties : Parties c) (b : Streams c proto A Info cobs maxFrameSize) :
    StreamAction c proto Info → Streams c proto A Info cobs maxFrameSize
  | .ark a action => { b with ark := Function.update b.ark a ((b.ark a).step (parties.arkCoins a) action) }
  | .host h action => { b with host := Function.update b.host h ((b.host h).step (parties.hostCoins h) action) }

/-- The steps of the packet network that an action is. -/
def actions (parties : Parties c) (b : Streams c proto A Info cobs maxFrameSize) :
    StreamAction c proto Info → List (Action c proto Info)
  | .ark a action => ((b.ark a).inputs (parties.arkCoins a) action).map (.ark a)
  | .host h action => ((b.host h).inputs (parties.hostCoins h) action).map (.host h)

end Streams

/-- The processes, and the packet network with its trace. -/
structure Coupled (c : Crypto (List UInt8)) (proto : Protocol (List UInt8)) (A Info : Type) (cobs : Cobs)
    (maxFrameSize : Nat) where
  streams : Streams c proto A Info cobs maxFrameSize
  trace : Trace c proto A Info (maxMessageSize cobs maxFrameSize)
  world : World c A Info (maxMessageSize cobs maxFrameSize)

/-- A trace and its world after some steps. -/
def World.follow {limit : Nat} (parties : Parties c) (sofar : Trace c proto A Info limit × World c A Info limit)
    (actions : List (Action c proto Info)) : Trace c proto A Info limit × World c A Info limit :=
  actions.foldl (fun sofar action => ((sofar.2, action) :: sofar.1, sofar.2.step parties action)) sofar

namespace Coupled

def start (parties : Parties c) (attesters : Nat → A) (arkStreams hostStreams : Nat → Reader × Writer) :
    Coupled c proto A Info cobs maxFrameSize where
  streams := .start parties attesters arkStreams hostStreams
  trace := []
  world := .start parties attesters

def step (parties : Parties c) (x : Coupled c proto A Info cobs maxFrameSize) (action : StreamAction c proto Info) :
    Coupled c proto A Info cobs maxFrameSize :=
  let sofar := World.follow parties (x.trace, x.world) (x.streams.actions parties action)
  { streams := x.streams.step parties action, trace := sofar.1, world := sofar.2 }

def run (parties : Parties c) (x : Coupled c proto A Info cobs maxFrameSize) (actions : List (StreamAction c proto Info)) :
    Coupled c proto A Info cobs maxFrameSize := actions.foldl (step parties) x

end Coupled

/-- The attacker could build whatever was received. -/
def Built {Blob : Type} {c : Crypto Blob} {hpke : Contexts c} {proto : Protocol Blob} {A Info : Type} {limit : Nat}
    (reading : Reading hpke) (parties : Parties c) (trace : Trace c proto A Info limit) : Prop :=
  ∀ past ∈ trace, ∀ packet, past.2.received = some packet → past.1.Builds reading parties packet

/-! ### Following the packet network -/

namespace World

variable {limit : Nat} {parties : Parties c} {trace : Trace c proto A Info limit} {w : World c A Info limit}
  {actions : List (Action c proto Info)} {a h : Nat}

theorem follow_suffix (parties : Parties c) (trace : Trace c proto A Info limit) (w : World c A Info limit)
    (actions : List (Action c proto Info)) : trace <:+ (follow parties (trace, w) actions).1 := by
  induction actions generalizing trace w with
  | nil => exact List.suffix_rfl
  | cons action actions ih => exact (List.suffix_cons _ _).trans (ih _ _)

/-- What is received on the way being built, steps go on with a run. -/
theorem follow_run {hpke : Contexts c} {reading : Reading hpke} (hrun : Run reading parties trace w)
    (hbuilt : Built reading parties (follow parties (trace, w) actions).1) :
    Run reading parties (follow parties (trace, w) actions).1 (follow parties (trace, w) actions).2 := by
  induction actions generalizing trace w with
  | nil => exact hrun
  | cons action actions ih =>
      have hmem : (w, action) ∈ (follow parties (trace, w) (action :: actions)).1 :=
        (follow_suffix parties ((w, action) :: trace) (w.step parties action) actions).subset List.mem_cons_self
      exact ih (hrun.step (hbuilt _ hmem)) hbuilt

theorem follow_ark_other (trace : Trace c proto A Info limit) (w : World c A Info limit)
    (hother : ∀ action ∈ actions, ∀ input, action ≠ .ark a input) :
    (follow parties (trace, w) actions).2.ark a = w.ark a ∧
      arkEras a (follow parties (trace, w) actions).1 = arkEras a trace := by
  induction actions generalizing trace w with
  | nil => exact ⟨rfl, rfl⟩
  | cons action actions ih =>
      obtain ⟨hhead, htail⟩ := List.forall_mem_cons.mp hother
      obtain ⟨hnode, heras⟩ := ih ((w, action) :: trace) (w.step parties action) htail
      exact ⟨hnode.trans (step_ark_other parties w hhead), heras.trans (arkEras_other w hhead)⟩

theorem follow_host_other (trace : Trace c proto A Info limit) (w : World c A Info limit)
    (hother : ∀ action ∈ actions, ∀ input, action ≠ .host h input) :
    (follow parties (trace, w) actions).2.host h = w.host h ∧
      hostEras parties h (follow parties (trace, w) actions).1 = hostEras parties h trace := by
  induction actions generalizing trace w with
  | nil => exact ⟨rfl, rfl⟩
  | cons action actions ih =>
      obtain ⟨hhead, htail⟩ := List.forall_mem_cons.mp hother
      obtain ⟨hnode, heras⟩ := ih ((w, action) :: trace) (w.step parties action) htail
      exact ⟨hnode.trans (step_host_other parties w hhead), heras.trans (hostEras_other w hhead)⟩

theorem follow_ark_self (parties : Parties c) (trace : Trace c proto A Info limit) (w : World c A Info limit) (a : Nat)
    (inputs : List (ArkInput proto)) :
    (follow parties (trace, w) (inputs.map (.ark a : ArkInput proto → Action c proto Info))).2.ark a =
        (ArkNode.follow (parties.arkCoins a) (w.ark a, arkEras a trace) inputs).1 ∧
      arkEras a (follow parties (trace, w) (inputs.map (.ark a : ArkInput proto → Action c proto Info))).1 =
        (ArkNode.follow (parties.arkCoins a) (w.ark a, arkEras a trace) inputs).2 := by
  induction inputs generalizing trace w with
  | nil => exact ⟨rfl, rfl⟩
  | cons input inputs ih =>
      have hrest := ih ((w, .ark a input) :: trace) (w.step parties (.ark a input))
      rw [step_ark_self, arkEras_self] at hrest
      exact hrest

theorem follow_host_self (parties : Parties c) (trace : Trace c proto A Info limit) (w : World c A Info limit) (h : Nat)
    (inputs : List (HostInput c proto Info)) :
    (follow parties (trace, w) (inputs.map (.host h))).2.host h =
        (HostNode.follow (parties.hostCoins h) (w.host h, hostEras parties h trace) inputs).1 ∧
      hostEras parties h (follow parties (trace, w) (inputs.map (.host h))).1 =
        (HostNode.follow (parties.hostCoins h) (w.host h, hostEras parties h trace) inputs).2 := by
  induction inputs generalizing trace w with
  | nil => exact ⟨rfl, rfl⟩
  | cons input inputs ih =>
      have hrest := ih ((w, .host h input) :: trace) (w.step parties (.host h input))
      rw [step_host_self, hostEras_self] at hrest
      exact hrest

end World

/-! ### Every run over streams is a run of packets -/

namespace Coupled

variable {parties : Parties c} {arkStreams hostStreams : Nat → Reader × Writer}
  {x : Coupled c proto A Info cobs maxFrameSize}

/-- Every process is an endpoint and in the state of its node. -/
structure Simulates (parties : Parties c) (arkStreams hostStreams : Nat → Reader × Writer)
    (x : Coupled c proto A Info cobs maxFrameSize) : Prop where
  arkAbstracts : ∀ a, ∃ e, (x.streams.ark a).Abstracts (parties.arkCoins a) e
  hostAbstracts : ∀ h, ∃ e, (x.streams.host h).Abstracts (parties.hostCoins h) e
  ark : ∀ a, (x.streams.ark a).Simulates (arkStreams a).2.wire (x.world.ark a) (arkEras a x.trace)
  host : ∀ h, (x.streams.host h).Simulates (hostStreams h).2.wire (x.world.host h) (hostEras parties h x.trace)

omit [Attester c A] in
theorem start_simulates (parties : Parties c) (attesters : Nat → A) (arkStreams hostStreams : Nat → Reader × Writer) :
    Simulates parties arkStreams hostStreams
      (start parties attesters arkStreams hostStreams : Coupled c proto A Info cobs maxFrameSize) where
  arkAbstracts _ := ⟨_, ArkProc.new_abstracts _ _ _ _ _⟩
  hostAbstracts _ := ⟨_, HostProc.new_abstracts _ _ _⟩
  ark _ := ⟨rfl, rfl, .start, .nil⟩
  host _ := ⟨rfl, rfl, .start, .nil⟩

theorem step_ark_self (parties : Parties c) (x : Coupled c proto A Info cobs maxFrameSize) (a : Nat)
    (action : ArkAction proto) :
    (x.step parties (.ark a action)).streams.ark a = (x.streams.ark a).step (parties.arkCoins a) action ∧
      (x.step parties (.ark a action)).world.ark a = (ArkNode.follow (parties.arkCoins a)
        (x.world.ark a, arkEras a x.trace) ((x.streams.ark a).inputs (parties.arkCoins a) action)).1 ∧
      arkEras a (x.step parties (.ark a action)).trace = (ArkNode.follow (parties.arkCoins a)
        (x.world.ark a, arkEras a x.trace) ((x.streams.ark a).inputs (parties.arkCoins a) action)).2 :=
  ⟨Function.update_self .., World.follow_ark_self parties x.trace x.world a _⟩

theorem step_ark_other (parties : Parties c) (x : Coupled c proto A Info cobs maxFrameSize) {a : Nat}
    {action : StreamAction c proto Info} (hother : ∀ own, action ≠ .ark a own) :
    (x.step parties action).streams.ark a = x.streams.ark a ∧ (x.step parties action).world.ark a = x.world.ark a ∧
      arkEras a (x.step parties action).trace = arkEras a x.trace := by
  cases action with
  | ark b action =>
      have hne : a ≠ b := fun h => hother action (by rw [h])
      refine ⟨Function.update_of_ne hne _ _, World.follow_ark_other _ _ fun step hstep input hinput => ?_⟩
      obtain ⟨_, _, rfl⟩ := List.mem_map.mp hstep
      injection hinput with hb
      exact hne hb.symm
  | host h action =>
      refine ⟨rfl, World.follow_ark_other _ _ fun step hstep input hinput => ?_⟩
      obtain ⟨_, _, rfl⟩ := List.mem_map.mp hstep
      cases hinput

theorem step_host_self (parties : Parties c) (x : Coupled c proto A Info cobs maxFrameSize) (h : Nat)
    (action : HostAction c proto Info) :
    (x.step parties (.host h action)).streams.host h = (x.streams.host h).step (parties.hostCoins h) action ∧
      (x.step parties (.host h action)).world.host h = (HostNode.follow (parties.hostCoins h)
        (x.world.host h, hostEras parties h x.trace) ((x.streams.host h).inputs (parties.hostCoins h) action)).1 ∧
      hostEras parties h (x.step parties (.host h action)).trace = (HostNode.follow (parties.hostCoins h)
        (x.world.host h, hostEras parties h x.trace) ((x.streams.host h).inputs (parties.hostCoins h) action)).2 :=
  ⟨Function.update_self .., World.follow_host_self parties x.trace x.world h _⟩

theorem step_host_other (parties : Parties c) (x : Coupled c proto A Info cobs maxFrameSize) {h : Nat}
    {action : StreamAction c proto Info} (hother : ∀ own, action ≠ .host h own) :
    (x.step parties action).streams.host h = x.streams.host h ∧ (x.step parties action).world.host h = x.world.host h ∧
      hostEras parties h (x.step parties action).trace = hostEras parties h x.trace := by
  cases action with
  | ark a action =>
      refine ⟨rfl, World.follow_host_other _ _ fun step hstep input hinput => ?_⟩
      obtain ⟨_, _, rfl⟩ := List.mem_map.mp hstep
      cases hinput
  | host i action =>
      have hne : h ≠ i := fun h => hother action (by rw [h])
      refine ⟨Function.update_of_ne hne _ _, World.follow_host_other _ _ fun step hstep input hinput => ?_⟩
      obtain ⟨_, _, rfl⟩ := List.mem_map.mp hstep
      injection hinput with hi
      exact hne hi.symm

theorem step_simulates (hcobs : cobs.Lawful) (hx : x.Simulates parties arkStreams hostStreams)
    (action : StreamAction c proto Info) :
    (x.step parties action).Simulates parties arkStreams hostStreams := by
  have hark : ∀ a, (∃ e, ((x.step parties action).streams.ark a).Abstracts (parties.arkCoins a) e) ∧
      ((x.step parties action).streams.ark a).Simulates (arkStreams a).2.wire ((x.step parties action).world.ark a)
        (arkEras a (x.step parties action).trace) := by
    intro a
    obtain ⟨e, habs⟩ := hx.arkAbstracts a
    by_cases hmine : ∃ own, action = .ark a own
    · obtain ⟨own, rfl⟩ := hmine
      obtain ⟨hproc, hnode, heras⟩ := step_ark_self parties x a own
      obtain ⟨e', _, habs'⟩ := ArkProc.step_abstracts hcobs habs own
      rw [hproc, hnode, heras]
      exact ⟨⟨e', habs'⟩, (hx.ark a).step hcobs habs own⟩
    · obtain ⟨hproc, hnode, heras⟩ := step_ark_other parties x fun own h => hmine ⟨own, h⟩
      rw [hproc, hnode, heras]
      exact ⟨⟨e, habs⟩, hx.ark a⟩
  have hhost : ∀ h, (∃ e, ((x.step parties action).streams.host h).Abstracts (parties.hostCoins h) e) ∧
      ((x.step parties action).streams.host h).Simulates (hostStreams h).2.wire ((x.step parties action).world.host h)
        (hostEras parties h (x.step parties action).trace) := by
    intro h
    obtain ⟨e, habs⟩ := hx.hostAbstracts h
    by_cases hmine : ∃ own, action = .host h own
    · obtain ⟨own, rfl⟩ := hmine
      obtain ⟨hproc, hnode, heras⟩ := step_host_self parties x h own
      obtain ⟨e', _, habs'⟩ := HostProc.step_abstracts hcobs habs own
      rw [hproc, hnode, heras]
      exact ⟨⟨e', habs'⟩, (hx.host h).step hcobs habs own⟩
    · obtain ⟨hproc, hnode, heras⟩ := step_host_other parties x fun own hown => hmine ⟨own, hown⟩
      rw [hproc, hnode, heras]
      exact ⟨⟨e, habs⟩, hx.host h⟩
  exact ⟨fun a => (hark a).1, fun h => (hhost h).1, fun a => (hark a).2, fun h => (hhost h).2⟩

theorem run_simulates (hcobs : cobs.Lawful) (hx : x.Simulates parties arkStreams hostStreams)
    (actions : List (StreamAction c proto Info)) : (x.run parties actions).Simulates parties arkStreams hostStreams := by
  induction actions generalizing x with
  | nil => exact hx
  | cons action actions ih => exact ih (step_simulates hcobs hx action)

theorem run_suffix (parties : Parties c) (x : Coupled c proto A Info cobs maxFrameSize)
    (actions : List (StreamAction c proto Info)) : x.trace <:+ (x.run parties actions).trace := by
  induction actions generalizing x with
  | nil => exact List.suffix_rfl
  | cons action actions ih => exact (World.follow_suffix parties x.trace x.world _).trans (ih (x.step parties action))

theorem run_packets {hpke : Contexts c} {reading : Reading hpke} (hrun : Run reading parties x.trace x.world)
    (actions : List (StreamAction c proto Info)) (hbuilt : Built reading parties (x.run parties actions).trace) :
    Run reading parties (x.run parties actions).trace (x.run parties actions).world := by
  induction actions generalizing x with
  | nil => exact hrun
  | cons action actions ih =>
      have hsofar : Built reading parties (x.step parties action).trace := fun past hmem =>
        hbuilt past ((run_suffix parties (x.step parties action) actions).subset hmem)
      exact ih (World.follow_run hrun hsofar) hbuilt

end Coupled

/-- In every run over byte streams, with any reads and any writers, each process is at every moment in the state of its node
over the packets that its wire carries, with the same sessions and payloads behind it; and if the attacker could build what
was received, what the nodes did is a run of the packet network. -/
theorem streams_refine (hcobs : cobs.Lawful) (parties : Parties c) (attesters : Nat → A)
    (arkStreams hostStreams : Nat → Reader × Writer) (actions : List (StreamAction c proto Info))
    {x : Coupled c proto A Info cobs maxFrameSize}
    (hx : x = (Coupled.start parties attesters arkStreams hostStreams).run parties actions) :
    (∀ a, (x.streams.ark a).Simulates (arkStreams a).2.wire (x.world.ark a) (arkEras a x.trace)) ∧
      (∀ h, (x.streams.host h).Simulates (hostStreams h).2.wire (x.world.host h) (hostEras parties h x.trace)) ∧
      ∀ {hpke : Contexts c} (reading : Reading hpke), Built reading parties x.trace →
        Run reading parties x.trace x.world := by
  have hsimulates : x.Simulates parties arkStreams hostStreams := by
    rw [hx]
    exact Coupled.run_simulates hcobs (Coupled.start_simulates parties attesters arkStreams hostStreams) actions
  refine ⟨hsimulates.ark, hsimulates.host, fun reading hbuilt => ?_⟩
  rw [hx] at hbuilt ⊢
  exact Coupled.run_packets (.start attesters) actions hbuilt

/-! ### What joined sessions open -/

/-- What an Ark and a host opened in two sessions that are joined, the other sealed there, in this order and from the first
one on, whoever else holds the identity of the Ark. -/
theorem Run.joined_hear {Blob : Type} {c : Crypto Blob} {hpke : Contexts c} {proto : Protocol Blob} {A Info : Type}
    [Attester c A] {limit : Nat} {reading : Reading hpke} {parties : Parties c} {trace : Trace c proto A Info limit}
    {w : World c A Info limit}
    {a h : Nat} (hnamed : parties.Named reading w) (hplain : PlainMessages reading proto) (hopens : reading.Opens)
    (hrun : Run reading parties trace w) {era era' : Era c} (hera : era ∈ arkEras a trace)
    (hera' : era' ∈ hostEras parties h trace)
    (hjoined : Joined hpke era.session era'.session) : era.opened <+: era'.sealed ∧ era'.opened <+: era.sealed := by
  obtain ⟨accepted, haccepted, packet, wait, haccepts, _⟩ := hrun.arkOrigins a _ (mem_origins hera)
  obtain ⟨acked, hacked, reply, hostWait, verified, ack, hacks, _⟩ := hrun.hostOrigins h _ (mem_origins hera')
  obtain ⟨before, hbefore, hsub, _⟩ := hrun.before haccepted
  obtain ⟨before', hbefore', _, _⟩ := hrun.before hacked
  constructor
  · -- the Ark receives with its own key what was encapsulated with the host's randomness
    have hseed := hacks.seed hnamed hrun hacked
    rw [hjoined.there] at hseed
    have hclosed := Closed.towardsArk (hnamed.before hrun haccepted) hbefore haccepts.accepts.call haccepts.accepts.accepts hseed
    refine prefix_of_getElem? fun {i payload} hi => ?_
    have hvouched := hrun.arkVouched hplain hopens a era hera hclosed hi
    rw [← hjoined.there] at hvouched
    obtain ⟨sender, hsender, hsession, _, hpayload⟩ := hrun.sealed_host hnamed hacked hacks hvouched
    obtain rfl := (hrun.hostApart hnamed h).unique hsender hera' (by rw [hsession])
    exact hpayload
  · obtain ⟨n, _, _, hsecret⟩ := hbefore'.hostKeys (hnamed.before hrun hacked) hacks.acks.call
    obtain ⟨_, _, hcontexts, _⟩ := HelloWait.answer_ok hacks.acks.answer
    obtain ⟨_, hreceiver, _⟩ := HelloWait.contexts_ok hcontexts
    obtain ⟨_, _, hseed⟩ := hrun.accepted_seed hnamed haccepted haccepts
    obtain ⟨answered, hanswered, _, _, _, hanswers, _⟩ := (hbefore.arkInv a).waits wait haccepts.accepts.call
    have hsame : hpke.sendChannel era.session.sender = hpke.sendChannel wait.sender := by
      obtain ⟨_, receiver, _, _, hsession⟩ := ArkSide.acceptAck_opens haccepts.accepts.accepts
      rw [show era.session = _ from hsession]
    rw [hjoined.here] at hseed
    have hclosed : Closed reading (hpke.recvChannel era'.session.receiver) := by
      constructor
      · rw [(hpke.newReceiver_spec hreceiver).1, reading.publicKey_public, hsecret]
        exact Name.host_not_own _ _ _
      · intro m seed hterm
        rw [hseed] at hterm
        obtain ⟨_, rfl⟩ := Term.encap.inj hterm
        exact Name.ark_not_own _ _ _
    refine prefix_of_getElem? fun {i payload} hi => ?_
    have hvouched := hrun.hostVouched hplain hopens h era' hera' hclosed hi
    rw [← hjoined.here, hsame] at hvouched
    obtain ⟨sender, hsender, hpayload, hchannel, _⟩ := hrun.sealed_ark hnamed (hsub hanswered) hanswers hvouched
    obtain rfl := (hrun.arkApart hnamed a).unique hsender hera (hchannel.trans hsame.symm)
    exact hpayload

/-! ### From packets back to bytes -/

namespace Coupled

variable {parties : Parties c} {x : Coupled c proto A Info cobs maxFrameSize} {h : Nat}

theorem follow_mem {limit : Nat} {trace : Trace c proto A Info limit} {w : World c A Info limit}
    {actions : List (Action c proto Info)} {past : World c A Info limit × Action c proto Info}
    (hmem : past ∈ (World.follow parties (trace, w) actions).1) : past ∈ trace ∨ past.2 ∈ actions := by
  induction actions generalizing trace w with
  | nil => exact Or.inl hmem
  | cons action actions ih =>
      rcases ih hmem with hsofar | hrest
      · rcases List.mem_cons.mp hsofar with rfl | hold
        · exact Or.inr List.mem_cons_self
        · exact Or.inl hold
      · exact Or.inr (List.mem_cons_of_mem _ hrest)

theorem run_called (actions : List (StreamAction c proto Info)) {past : _ × Action c proto Info} {verifier : Verifier c Info}
    (hmem : past ∈ (x.run parties actions).trace) (haction : past.2 = .host h (.handshake verifier)) :
    past ∈ x.trace ∨ .host h (.handshake verifier) ∈ actions := by
  induction actions generalizing x with
  | nil => exact Or.inl hmem
  | cons action actions ih =>
      rcases ih hmem with hsofar | hrest
      swap
      · exact Or.inr (List.mem_cons_of_mem _ hrest)
      rcases follow_mem hsofar with hold | hnew
      · exact Or.inl hold
      refine Or.inr (List.mem_cons.mpr (Or.inl ?_))
      rw [haction] at hnew
      cases action with
      | ark a own =>
          obtain ⟨_, _, hinput⟩ := List.mem_map.mp hnew
          cases hinput
      | host i own =>
          obtain ⟨input, hinput, hsame⟩ := List.mem_map.mp hnew
          injection hsame with hi hsame
          rw [hsame] at hinput
          rw [hi, HostProc.inputs_handshake hinput]

end Coupled

/-- A verifier that accepts only identities that honest Arks alone hold. -/
def Verifier.Honest (parties : Parties c) (verifier : Verifier c Info) : Prop :=
  ∀ attestation identity info, verifier attestation = .ok (identity, info) →
    ∃ s ∉ parties.leaked, identity = c.xdsaPublicKey (parties.signers s)

/-- In every run over byte streams against the attacker, with any reads and any writers: what an Ark and a host opened in two
sessions that are joined, the other sealed there, in this order and from the first payload on; and every session in which a
host opened anything, if it calls `handshake` with honest verifiers only, is joined with a session of an honest Ark. -/
theorem streams_hear {hpke : Contexts c} {reading : Reading hpke} {parties : Parties c} (hcobs : cobs.Lawful)
    (hplain : PlainMessages reading proto) (hopens : reading.Opens) (attesters : Nat → A)
    (arkStreams hostStreams : Nat → Reader × Writer) (actions : List (StreamAction c proto Info))
    {x : Coupled c proto A Info cobs maxFrameSize}
    (hx : x = (Coupled.start parties attesters arkStreams hostStreams).run parties actions)
    (hnamed : parties.Named reading x.world) (hbuilt : Built reading parties x.trace) :
    (∀ a h, ∀ epoch ∈ (x.streams.ark a).history.epochs, ∀ epoch' ∈ (x.streams.host h).history.epochs,
        Joined hpke epoch.session epoch'.session →
        epoch.openedPayloads <+: epoch'.sealedPayloads ∧ epoch'.openedPayloads <+: epoch.sealedPayloads) ∧
      ∀ h, (∀ verifier, .host h (.handshake verifier) ∈ actions → Verifier.Honest parties verifier) →
        ∀ epoch' ∈ (x.streams.host h).history.epochs, epoch'.opened ≠ [] →
          ∃ a, parties.identity a ∉ parties.leaked ∧ ∃ epoch ∈ (x.streams.ark a).history.epochs,
            Joined hpke epoch.session epoch'.session := by
  obtain ⟨harks, hhosts, hpackets⟩ := streams_refine hcobs parties attesters arkStreams hostStreams actions hx
  have hrun := hpackets reading hbuilt
  constructor
  · intro a h epoch hepoch epoch' hepoch' hjoined
    obtain ⟨era, hera, htells⟩ := (harks a).tells.era hepoch
    obtain ⟨era', hera', htells'⟩ := (hhosts h).tells.era hepoch'
    rw [htells.session, htells'.session] at hjoined
    rw [htells.opened, htells.sealed, htells'.opened, htells'.sealed]
    exact hrun.joined_hear hnamed hplain hopens hera hera' hjoined
  · intro h hhonest epoch' hepoch' hopened
    obtain ⟨era', hera', htells'⟩ := (hhosts h).tells.era hepoch'
    obtain ⟨past, hmem, reply, hostWait, verified, ack, hacks, _⟩ := hrun.hostOrigins h _ (mem_origins hera')
    obtain ⟨earlier, hearlier, hsub, _⟩ := hrun.before hmem
    obtain ⟨called, hcalled, haction⟩ := hearlier.called hacks.acks.call
    have hverifier : Verifier.Honest parties hostWait.verifier := by
      have hmine := hsub hcalled
      rw [hx] at hmine
      rcases Coupled.run_called actions hmine haction with hstart | hmine
      · cases hstart
      · exact hhonest _ hmine
    obtain ⟨_, hopen, _, _⟩ := HelloWait.answer_ok hacks.acks.answer
    obtain ⟨_, attestation, _, _, haccepts, _⟩ := opened_signed reading hopen
    obtain ⟨s, hunleaked, hsigner⟩ := hverifier _ _ _ haccepts
    have hheard : era'.opened ≠ [] := by
      intro hnone
      exact hopened (List.map_eq_nil_iff.mp (htells'.opened.trans hnone))
    obtain ⟨a, rfl, _, sender, hsender, hjoined, _, _⟩ :=
      hrun.host_hears hnamed hplain hopens hunleaked hera' hmem hacks hsigner hheard
    obtain ⟨epoch, hepoch, htells⟩ := (harks a).tells.epoch hsender
    refine ⟨a, hunleaked, epoch, hepoch, ?_⟩
    rw [htells.session, htells'.session]
    exact ⟨hjoined.there, hjoined.here⟩

/-! ### A session over bytes -/

namespace Coded

abbrev Networks := Coupled crypto protocol (Attestation crypto) (Attestation crypto) Cobs.stuffing 512

abbrev Act := StreamAction crypto protocol (Attestation crypto)

/-- Streams that serve nothing yet and take everything. -/
def idle (_ : Nat) : Reader × Writer := ([], ⟨[], []⟩)

def after (actions : List Act) : Networks := (Coupled.start parties (fun _ => attestation) idle idle).run parties actions

def arkWire (actions : List Act) : List UInt8 := ((after actions).streams.ark 0).side.framing.writer.wire

def hostWire (actions : List Act) : List UInt8 := ((after actions).streams.host 0).side.framing.writer.wire

/-- The host greets, and its reset and HostHello reach the Ark in two reads, the first of which ends within the HostHello. -/
def greeted : List Act := [.host 0 (.handshake (Verifier.pinned (Name.signer 0)))]

def answered : List Act :=
  greeted ++ [.ark 0 .nextMessage, .ark 0 (.arrive [.data ((hostWire greeted).take 5)]), .ark 0 .poll, .ark 0 .poll,
    .ark 0 .poll, .ark 0 (.arrive [.data ((hostWire greeted).drop 5)]), .ark 0 .poll]

/-- The host acknowledges and sends a message. -/
def asked : List Act :=
  answered ++ [.host 0 (.arrive (Reader.chunk (arkWire answered))), .host 0 .poll, .host 0 (.sendMessage (5 : Nat))]

/-- The Ark reads it and sends another one. -/
def replied : List Act :=
  asked ++ [.ark 0 (.arrive (Reader.chunk ((hostWire asked).drop (hostWire greeted).length))), .ark 0 .poll, .ark 0 .poll,
    .ark 0 (.sendMessage (6 : Nat))]

/-- The host reads that. -/
def talked : List Act :=
  replied ++ [.host 0 .nextMessage, .host 0 (.arrive (Reader.chunk ((arkWire replied).drop (arkWire answered).length))),
    .host 0 .poll]

theorem opens : Reading.Opens reading := by
  intro receiver packet payload receiver' key encap info hchannel hopen
  obtain ⟨rfl, hrest⟩ := Prod.mk.inj hchannel
  obtain ⟨rfl, rfl⟩ := Prod.mk.inj hrest
  exact congrArg Ideal.seen (Context.open_ok hopen).1

/-- A packet of the first Ark or the first host. -/
def theirs (w : World crypto (Attestation crypto) (Attestation crypto) (maxMessageSize Cobs.stuffing 512))
    (packet : List UInt8) :
    Bool := (w.ark 0).side.framing.sent.contains packet || (w.host 0).side.framing.sent.contains packet

theorem talked_built : Built reading parties (after talked).trace := by
  have hall : ((after talked).trace.all fun past => past.2.received.all (theirs past.1)) = true := by decide +kernel
  intro past hmem packet hreceived
  have hpacket := List.all_eq_true.mp hall past hmem
  rw [hreceived, Option.all_some, theirs, Bool.or_eq_true, List.contains_iff_mem, List.contains_iff_mem] at hpacket
  exact World.builds_of_sent (hpacket.imp (fun hsent => ⟨0, hsent⟩) fun hsent => ⟨0, hsent⟩)

def calledWith : Act → Option (Verifier crypto (Attestation crypto))
  | .host _ (.handshake verifier) => some verifier
  | _ => none

theorem talked_honest : ∀ verifier, .host 0 (.handshake verifier) ∈ talked → Verifier.Honest parties verifier := by
  intro verifier hmem
  have hverifier : verifier ∈ talked.filterMap calledWith := List.mem_filterMap.mpr ⟨_, hmem, rfl⟩
  have hone : talked.filterMap calledWith = [Verifier.pinned (Name.signer 0)] := rfl
  rw [hone, List.mem_singleton] at hverifier
  rw [hverifier]
  intro attestation identity info haccepts
  exact ⟨0, Set.notMem_empty 0, (Prod.mk.inj (Except.ok.inj haccepts)).1.symm⟩

end Coded

open Coded in
theorem streams_refine_reference :
    ((after talked).streams.ark 0).Simulates [] ((after talked).world.ark 0) (arkEras 0 (after talked).trace) ∧
      Run Coded.reading Coded.parties (after talked).trace (after talked).world :=
  have hrefines := streams_refine Cobs.stuffing_lawful Coded.parties (fun _ => Coded.attestation) idle idle talked
    (rfl : after talked = _)
  ⟨hrefines.1 0, hrefines.2.2 Coded.reading talked_built⟩

open Coded in
/-- Each of the two reads what the other sent, over a stream that was cut. -/
theorem streams_hear_reference :
    ((after talked).streams.ark 0).history.epochs.map Epoch.openedPayloads = [[blob (.atom (.message 5))]] ∧
      ((after talked).streams.host 0).history.epochs.map Epoch.openedPayloads = [[blob (.atom (.message 6))]] ∧
      (∀ epoch ∈ ((after talked).streams.ark 0).history.epochs, ∀ epoch' ∈ ((after talked).streams.host 0).history.epochs,
        Joined Coded.contexts epoch.session epoch'.session →
        epoch.openedPayloads <+: epoch'.sealedPayloads ∧ epoch'.openedPayloads <+: epoch.sealedPayloads) ∧
      ∀ epoch' ∈ ((after talked).streams.host 0).history.epochs, epoch'.opened ≠ [] →
        ∃ a, a ∉ (∅ : Set Nat) ∧ ∃ epoch ∈ ((after talked).streams.ark a).history.epochs,
          Joined Coded.contexts epoch.session epoch'.session :=
  have hhear := streams_hear Cobs.stuffing_lawful ⟨codec_plain, codec_plain⟩ opens (fun _ => Coded.attestation) idle idle talked
    (rfl : after talked = _) (parties_named _) talked_built
  ⟨by decide +kernel, by decide +kernel, hhear.1 0 0, hhear.2 0 talked_honest⟩

end DarkbioWire
