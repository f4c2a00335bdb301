import DarkbioWire.Rounds

/-!
# What passes through the sessions of a network

The payloads that are opened and sealed in each session of a side, read off the trace of a run. A step opens one payload,
seals one, begins a session or does none of it (`Passes`); from this the session there is stands where its payloads end,
and every session of a side was set up in a round of its own.
-/

namespace DarkbioWire

open Symbolic

variable {Blob : Type} {c : Crypto Blob} {hpke : Contexts c} {proto : Protocol Blob} {A Info : Type} [Attester c A]
  {limit : Nat}

/-- The life of one session. -/
structure Era {Blob : Type} (c : Crypto Blob) where
  /-- The contexts it started from. -/
  session : Session c
  /-- The key its peer signed the handshake with. -/
  peer : Option c.XdsaPublicKey
  /-- The payloads opened in it, oldest first. -/
  opened : List Blob
  /-- The payloads sealed in it, oldest first. -/
  sealed : List Blob

/-- The payload a session opens a packet to. -/
def Session.opens (session : Option (Session c)) (packet : Except Error (Option Blob)) : Option Blob :=
  match session, packet with
  | some session, .ok (some packet) =>
    match c.receiverOpen session.receiver packet with
    | (.ok payload, _) => some payload
    | (.error _, _) => none
  | _, _ => none

namespace Session

@[simp] theorem opens_none (packet : Except Error (Option Blob)) : opens (none : Option (Session c)) packet = none := rfl

@[simp] theorem opens_error (session : Option (Session c)) (err : Error) : opens session (.error err) = none := by
  cases session <;> rfl

@[simp] theorem opens_reset (session : Option (Session c)) : opens session (.ok none) = none := by
  cases session <;> rfl

theorem opens_some {session : Session c} {packet payload : Blob} {receiver : c.Receiver}
    (hopen : c.receiverOpen session.receiver packet = (.ok payload, receiver)) :
    opens (some session) (.ok (some packet)) = some payload := by
  rw [opens, hopen]

theorem opens_broken {session : Session c} {packet : Blob} {err : String} {receiver : c.Receiver}
    (hopen : c.receiverOpen session.receiver packet = (.error err, receiver)) :
    opens (some session) (.ok (some packet)) = none := by
  rw [opens, hopen]

end Session

/-- The payload a session seals for a message. -/
def Session.seals {M : Type} (limit : Nat) (codec : Codec Blob M) (session : Option (Session c)) (msg : M) :
    Option Blob :=
  match session with
  | none => none
  | some session =>
    match codec.encode msg, session.seal limit codec msg with
    | .ok payload, (.ok _, _) => some payload
    | _, _ => none

namespace Era

/-- The newest session opened this payload. -/
def noteOpened (eras : List (Era c)) : Option Blob → List (Era c)
  | some payload => eras.modifyHead fun era => { era with opened := era.opened ++ [payload] }
  | none => eras

/-- The newest session sealed this payload. -/
def noteSealed (eras : List (Era c)) : Option Blob → List (Era c)
  | some payload => eras.modifyHead fun era => { era with sealed := era.sealed ++ [payload] }
  | none => eras

/-- A session begins. -/
def begins (eras : List (Era c)) (session : Session c) (peer : Option c.XdsaPublicKey) : List (Era c) :=
  { session, peer, opened := [], sealed := [] } :: eras

/-- The session has gone on, or it is the same. -/
structure Grows (era era' : Era c) : Prop where
  session : era'.session = era.session
  peer : era'.peer = era.peer
  opened : era.opened <+: era'.opened
  sealed : era.sealed <+: era'.sealed

theorem Grows.refl (era : Era c) : era.Grows era := ⟨rfl, rfl, List.prefix_rfl, List.prefix_rfl⟩

/-- The session there is, advanced by what was opened and sealed in it. -/
structure Current (hpke : Contexts c) (session : Session c) (era : Era c) : Prop where
  recvChannel : hpke.recvChannel session.receiver = hpke.recvChannel era.session.receiver
  recvSeq : hpke.recvSeq session.receiver = era.opened.length
  sendChannel : hpke.sendChannel session.sender = hpke.sendChannel era.session.sender
  sendSeq : hpke.sendSeq session.sender = era.sealed.length

/-- If there is a session, it is the newest. -/
def Counted (hpke : Contexts c) (session : Option (Session c)) (eras : List (Era c)) : Prop :=
  ∀ s, session = some s → ∃ era rest, eras = era :: rest ∧ Current hpke s era

/-- What tells the eras apart: the contexts they started from, and the peer. -/
def origins (eras : List (Era c)) : List (Session c × Option c.XdsaPublicKey) := eras.map fun era => (era.session, era.peer)

theorem origins_noteOpened (eras : List (Era c)) (payload : Option Blob) :
    origins (noteOpened eras payload) = origins eras := by
  cases payload <;> cases eras <;> rfl

theorem origins_noteSealed (eras : List (Era c)) (payload : Option Blob) :
    origins (noteSealed eras payload) = origins eras := by
  cases payload <;> cases eras <;> rfl

end Era

open Era

/-- What a step does to the session of a side and to its eras when this packet is received. -/
inductive Passes (hpke : Contexts c) (received : Option Blob) (session : Option (Session c)) (eras : List (Era c)) :
    Option (Session c) → List (Era c) → Prop
  | kept : Passes hpke received session eras session eras
  | dropped : Passes hpke received session eras none eras
  | opened {old receiver packet payload} : received = some packet → session = some old →
      c.receiverOpen old.receiver packet = (.ok payload, receiver) →
      Passes hpke received session eras (some { old with receiver }) (noteOpened eras (some payload))
  | sealed {old sender packet payload session'} : session = some old →
      c.senderSeal old.sender payload = (.ok packet, sender) →
      (session' = none ∨ session' = some { old with sender }) →
      Passes hpke received session eras session' (noteSealed eras (some payload))
  | began {new peer} : hpke.recvSeq new.receiver = 0 → hpke.sendSeq new.sender = 0 →
      Passes hpke received session eras (some new) (begins eras new peer)

section Passes

variable {received : Option Blob} {session session' : Option (Session c)} {eras eras' : List (Era c)}

omit [Attester c A] in
theorem Passes.counted (h : Passes hpke received session eras session' eras') (hcounted : Counted hpke session eras) :
    Counted hpke session' eras' := by
  intro s hs
  cases h with
  | kept => exact hcounted s hs
  | dropped => cases hs
  | opened _ hsession hopen =>
      obtain rfl := Option.some.inj hs
      obtain ⟨era, rest, rfl, hcurrent⟩ := hcounted _ hsession
      obtain ⟨hchannel, hseq⟩ := hpke.receiverOpen_spec hopen
      refine ⟨_, rest, rfl, hchannel.trans hcurrent.recvChannel, ?_, hcurrent.sendChannel, hcurrent.sendSeq⟩
      rw [hseq, hcurrent.recvSeq, List.length_append, List.length_singleton]
  | sealed hsession hseal hnext =>
      rcases hnext with rfl | rfl
      · cases hs
      · obtain rfl := Option.some.inj hs
        obtain ⟨era, rest, rfl, hcurrent⟩ := hcounted _ hsession
        obtain ⟨hchannel, hseq⟩ := hpke.senderSeal_spec hseal
        refine ⟨_, rest, rfl, hcurrent.recvChannel, hcurrent.recvSeq, hchannel.trans hcurrent.sendChannel, ?_⟩
        rw [hseq, hcurrent.sendSeq, List.length_append, List.length_singleton]
  | began hrecv hsend =>
      obtain rfl := Option.some.inj hs
      exact ⟨_, eras, rfl, rfl, hrecv, rfl, hsend⟩

omit [Attester c A] in
theorem Passes.grows (h : Passes hpke received session eras session' eras') :
    ∀ {era : Era c}, era ∈ eras → ∃ era' ∈ eras', era.Grows era' := by
  intro era hmem
  have hhead : ∀ {change : Era c → Era c}, (∀ era : Era c, era.Grows (change era)) →
      ∃ era' ∈ eras.modifyHead change, era.Grows era' := by
    intro change hchange
    cases eras with
    | nil => cases hmem
    | cons first rest =>
        rcases List.mem_cons.mp hmem with rfl | hmem
        · exact ⟨_, List.mem_cons_self, hchange era⟩
        · exact ⟨era, List.mem_cons_of_mem _ hmem, .refl era⟩
  cases h with
  | kept => exact ⟨era, hmem, .refl era⟩
  | dropped => exact ⟨era, hmem, .refl era⟩
  | opened _ _ _ => exact hhead fun era => ⟨rfl, rfl, List.prefix_append _ _, List.prefix_rfl⟩
  | sealed _ _ _ => exact hhead fun era => ⟨rfl, rfl, List.prefix_rfl, List.prefix_append _ _⟩
  | began _ _ => exact ⟨era, List.mem_cons_of_mem _ hmem, .refl era⟩

end Passes

/-! ### Sealing a message -/

omit [Attester c A] in
theorem SendStep.traffic {M : Type} {codec : Codec Blob M} {framing framing' : Net Blob limit} {msg : M}
    {session session' : Option (Session c)} {result : Except Error Unit}
    (h : SendStep codec framing msg session result framing' session') :
    (framing'.sent = framing.sent ∧ Session.seals limit codec session msg = none ∧
        (session' = none ∨ session' = session)) ∨
      ∃ old payload packet sender, session = some old ∧ codec.encode msg = .ok payload ∧
        c.senderSeal old.sender payload = (.ok packet, sender) ∧ framing'.sent = packet :: framing.sent ∧
        Session.seals limit codec session msg = some payload ∧
        (session' = none ∨ session' = some { old with sender }) := by
  have hseals : ∀ {old : Session c} {payload : Blob}, codec.encodedLen msg ≤ limit → codec.encode msg = .ok payload →
      Session.seals limit codec (some old) msg =
        match c.senderSeal old.sender payload with
        | (.ok _, _) => some payload
        | (.error _, _) => none := by
    intro old payload hfits hencode
    rw [Session.seals, hencode, old.seal_eq hfits hencode]
    rcases c.senderSeal old.sender payload with ⟨err | packet, sender⟩ <;> rfl
  cases h with
  | inactive => exact Or.inl ⟨rfl, rfl, Or.inl rfl⟩
  | @tooLarge old hlarge =>
      refine Or.inl ⟨rfl, ?_, Or.inr rfl⟩
      have hrefused : old.seal limit codec msg = (.error (.packetTooLarge (codec.encodedLen msg)), old) := if_pos hlarge
      rw [Session.seals, hrefused]
      rcases codec.encode msg <;> rfl
  | unencodable hencode =>
      refine Or.inl ⟨rfl, ?_, Or.inr rfl⟩
      rw [Session.seals, hencode]
  | unsealed hfits hencode hseal =>
      refine Or.inl ⟨rfl, ?_, Or.inl rfl⟩
      rw [hseals hfits hencode, hseal]
  | lost hfits hencode hseal hsend =>
      refine Or.inr ⟨_, _, _, _, rfl, hencode, hseal, Net.sent_of_sendPacket hsend, ?_, Or.inl rfl⟩
      rw [hseals hfits hencode, hseal]
  | sent hfits hencode hseal hsend =>
      refine Or.inr ⟨_, _, _, _, rfl, hencode, hseal, Net.sent_of_sendPacket hsend, ?_, Or.inr rfl⟩
      rw [hseals hfits hencode, hseal]

/-! ### An Ark -/

/-- The packet an Ark receives. -/
def ArkInput.received : ArkInput proto → Option Blob
  | .deliver (.ok packet) => packet
  | _ => none

namespace ArkNode

/-- The eras of an Ark after this input. -/
def pass (node : ArkNode c A limit) (eras : List (Era c)) : ArkInput proto → List (Era c)
  | .deliver packet =>
    match node.call with
    | some .packet => noteOpened eras (Session.opens node.side.session packet)
    | some (.handshake (.ack wait)) =>
      match packet with
      | .ok (some taken) =>
        match node.side.acceptAck wait taken with
        | .ok session => begins eras session (some wait.hostHello.hostSigner)
        | .error _ => eras
      | _ => eras
    | _ => eras
  | .sendMessage res =>
    match node.call with
    | none => noteSealed eras (Session.seals limit proto.arkToHost node.side.session res)
    | some _ => eras
  | _ => eras

variable {coins : Nat → Coins c} {node : ArkNode c A limit} {eras : List (Era c)}

omit [Attester c A] in
theorem pass_packet (hcall : node.call = some .packet) (packet : Except Error (Option Blob)) :
    node.pass eras (.deliver packet : ArkInput proto) =
      noteOpened eras (Session.opens node.side.session packet) := by
  rw [pass, hcall]

omit [Attester c A] in
theorem pass_handshake {point : HandshakePoint c} (hcall : node.call = some (.handshake point))
    {packet : Except Error (Option Blob)}
    (hnone : ∀ wait taken, point = .ack wait → packet = .ok (some taken) → ∃ err, node.side.acceptAck wait taken = .error err) :
    node.pass eras (.deliver packet : ArkInput proto) = eras := by
  rw [pass, hcall]
  rcases point with _ | wait
  · rfl
  rcases packet with err | _ | taken
  · rfl
  · rfl
  obtain ⟨err, haccept⟩ := hnone wait taken rfl rfl
  dsimp only
  rw [haccept]

/-- What a step of an Ark does to its session and its eras. -/
theorem step_passes (hpke : Contexts c) (coins : Nat → Coins c) (node : ArkNode c A limit) (eras : List (Era c))
    (hfresh : ∀ wait, node.call = some (.handshake (.ack wait)) → hpke.sendSeq wait.sender = 0) (input : ArkInput proto) :
    Passes hpke input.received node.side.session eras (node.step coins input).side.session (node.pass eras input) := by
  cases input with
  | nextMessage =>
      rw [step]
      split <;> exact .kept
  | answers answers => exact .kept
  | sendMessage res =>
      rw [step, pass]
      rcases hcall : node.call with _ | point
      · dsimp only
        have htraffic := (sendThrough_step proto.arkToHost node.side.framing node.side.session res).traffic
        change Passes hpke _ _ _ (sendThrough proto.arkToHost node.side.framing node.side.session res).2.2 _
        rcases htraffic with
          ⟨_, hseals, hsession | hsession⟩ | ⟨old, payload, packet, sender, hold, _, hseal, _, hseals, hsession⟩
        · rw [hseals, hsession]
          exact .dropped
        · rw [hseals, hsession]
          exact .kept
        · rw [hseals]
          exact .sealed hold hseal hsession
      · exact .kept
  | deliver packet =>
      rw [step]
      rcases hcall : node.call with _ | point
      · rw [pass, hcall]
        exact .kept
      dsimp only
      have hstep := ArkSide.nextMessageStep_step proto (coins node.side.draws) node.side point packet
      generalize node.side.nextMessageStep proto (coins node.side.draws) point packet = r at hstep
      obtain ⟨flow, side⟩ := r
      dsimp only at hstep ⊢
      cases hstep with
      | terminated | recvFailed =>
          rw [pass_packet hcall, Session.opens_error]
          exact .kept
      | undecodable _ _ =>
          rw [pass_packet hcall, Session.opens_error]
          exact .dropped
      | reset =>
          rw [pass_packet hcall, Session.opens_reset]
          exact .dropped
      | junk hnone =>
          rw [pass_packet hcall, hnone, Session.opens_none]
          exact .kept
      | broken hsession hopen =>
          rw [pass_packet hcall, hsession, Session.opens_broken hopen]
          exact .dropped
      | opened hsession hopen =>
          rw [pass_packet hcall, hsession, Session.opens_some hopen]
          exact .opened rfl rfl hopen
      | @aborted point err =>
          have hpass : node.pass eras (.deliver (.error err) : ArkInput proto) = eras :=
            pass_handshake hcall fun _ _ _ htaken => by cases htaken
          rw [hpass]
          exact .kept
      | restarted =>
          have hpass : node.pass eras (.deliver (.ok none) : ArkInput proto) = eras :=
            pass_handshake hcall fun _ _ _ htaken => by cases htaken
          rw [hpass]
          exact .kept
      | refused hsame _ _ | answered hsame _ _ | unanswered hsame _ _ =>
          rw [pass_handshake hcall fun _ _ hwait => by cases hwait]
          rw [hsame.session]
          exact .kept
      | @accepted packet wait session haccept =>
          rw [pass, hcall]
          dsimp only
          rw [haccept]
          obtain ⟨_, receiver, _, _, hreceiver, rfl⟩ := ArkSide.acceptAck_ok haccept
          exact .began (hpke.newReceiver_spec hreceiver).2 (hfresh wait hcall)
      | rejected haccept =>
          have hnone : node.pass eras (.deliver (.ok (some _)) : ArkInput proto) = eras :=
            pass_handshake hcall fun wait taken hwait htaken => by
              obtain rfl := HandshakePoint.ack.inj hwait
              obtain rfl := Option.some.inj (Except.ok.inj htaken)
              exact ⟨_, haccept⟩
          rw [hnone]
          exact .kept

omit [Attester c A] in
/-- A session begins where the wait for a HostAck accepts one, and nowhere else. -/
theorem pass_origins (node : ArkNode c A limit) (eras : List (Era c)) (input : ArkInput proto) :
    origins (node.pass eras input) = origins eras ∨
      ∃ packet wait session, node.Accepts input packet wait session ∧
        node.pass eras input = begins eras session (some wait.hostHello.hostSigner) := by
  cases input with
  | nextMessage => exact Or.inl rfl
  | answers answers => exact Or.inl rfl
  | sendMessage res =>
      rw [pass]
      split
      · exact Or.inl (origins_noteSealed _ _)
      · exact Or.inl rfl
  | deliver packet =>
      rw [pass]
      split
      · exact Or.inl (origins_noteOpened _ _)
      · rename_i wait hcall
        rcases packet with err | _ | taken
        · exact Or.inl rfl
        · exact Or.inl rfl
        dsimp only
        rcases haccept : node.side.acceptAck wait taken with err | session
        · exact Or.inl rfl
        · exact Or.inr ⟨taken, wait, session, ⟨rfl, hcall, haccept⟩, rfl⟩
      · exact Or.inl rfl

/-- All that an Ark sends are its answers and what it sealed, of which the newest era tells. -/
theorem step_sends (hpke : Contexts c) (coins : Nat → Coins c) (node : ArkNode c A limit) (eras : List (Era c))
    (input : ArkInput proto) {packet : Blob} (hmem : packet ∈ (node.step coins input).side.framing.sent) :
    packet ∈ node.side.framing.sent ∨
      (∃ taken wait arkHello, node.Answers coins input taken wait arkHello packet) ∨
      ∃ old payload sender res, input = .sendMessage res ∧ node.side.session = some old ∧ proto.arkToHost.encode res = .ok payload ∧
        c.senderSeal old.sender payload = (.ok packet, sender) ∧
        node.pass eras input = noteSealed eras (some payload) := by
  by_cases hsend : ∃ res, input = .sendMessage res
  · obtain ⟨res, rfl⟩ := hsend
    rw [step] at hmem
    rw [pass]
    rcases hcall : node.call with _ | point
    · rw [hcall] at hmem
      have hmem : packet ∈ (sendThrough proto.arkToHost node.side.framing node.side.session res).2.1.sent := hmem
      rcases (sendThrough_step proto.arkToHost node.side.framing node.side.session res).traffic with
        ⟨hsent, _, _⟩ | ⟨old, payload, packet', sender, hold, hencode, hseal, hsent, hseals, _⟩
      · exact Or.inl (hsent ▸ hmem)
      · rw [hsent] at hmem
        rcases List.mem_cons.mp hmem with rfl | hmem
        · exact Or.inr (Or.inr ⟨old, payload, sender, res, rfl, hold, hencode, hseal, by rw [hseals]⟩)
        · exact Or.inl hmem
    · rw [hcall] at hmem
      exact Or.inl hmem
  · rcases (step_step hpke coins node input).sends hmem with hold | hanswers | ⟨session, payload, hseals⟩
    · exact Or.inl hold
    · exact Or.inr (Or.inl hanswers)
    · obtain ⟨res, hinput, _⟩ := hseals.input
      exact absurd ⟨res, hinput⟩ hsend

end ArkNode

/-! ### A host -/

/-- The packet a host receives. -/
def HostInput.received : HostInput c proto Info → Option Blob
  | .deliver (.ok packet) => packet
  | .nextMessage (.ok packet) => packet
  | _ => none

namespace HostNode

/-- The eras of a host after this input. -/
def pass (coins : Nat → Coins c) (node : HostNode c Info limit) (eras : List (Era c)) :
    HostInput c proto Info → List (Era c)
  | .deliver packet =>
    match node.call with
    | none => eras
    | some wait =>
      match node.side.handshakeStep (coins node.side.draws) wait packet with
      | (.done (.ok info), side) =>
        match side.session with
        | some session => begins eras session (node.identityAfter wait packet (.done (.ok info)))
        | none => eras
      | _ => eras
  | .nextMessage packet =>
    match node.call with
    | none => noteOpened eras (Session.opens node.side.session packet)
    | some _ => eras
  | .sendMessage req =>
    match node.call with
    | none => noteSealed eras (Session.seals limit proto.hostToArk node.side.session req)
    | some _ => eras
  | _ => eras

variable {coins : Nat → Coins c} {node : HostNode c Info limit} {eras : List (Era c)}

omit [Attester c A] in
theorem pass_handshake {wait : HelloWait c Info} (hcall : node.call = some wait) {packet : Except Error (Option Blob)}
    {flow : Flow (HelloWait c Info) Info} {side : HostSide c (Net Blob limit)}
    (hflow : node.side.handshakeStep (coins node.side.draws) wait packet = (flow, side))
    (hnone : ∀ info, flow ≠ .done (.ok info)) :
    node.pass coins eras (.deliver packet : HostInput c proto Info) = eras := by
  rw [pass, hcall]
  dsimp only
  rw [hflow]
  rcases flow with wait' | err | info
  · rfl
  · rfl
  · exact absurd rfl (hnone info)

omit [Attester c A] in
theorem pass_answered {wait : HelloWait c Info} (hcall : node.call = some wait) {packet : Option Blob} {ack : Blob}
    {verified : Verified c Info} {session : Session c} {framing : Net Blob limit}
    (hanswer : wait.answer (coins node.side.draws) (packet.getD c.empty) = .ok (verified, session, ack))
    (hflow : node.side.handshakeStep (coins node.side.draws) wait (.ok packet) =
      (.done (.ok verified.info), { framing, session := some session, draws := node.side.draws + 1 })) :
    node.pass coins eras (.deliver (.ok packet) : HostInput c proto Info) =
      begins eras session (some verified.arkIdentity) := by
  obtain ⟨_, hopen, _, _⟩ := HelloWait.answer_ok hanswer
  rw [pass, hcall]
  dsimp only
  rw [hflow]
  dsimp only
  rw [identityAfter, hopen]

omit [Attester c A] in
/-- What a step of a host does to its session and its eras. -/
theorem step_passes (hpke : Contexts c) (coins : Nat → Coins c) (node : HostNode c Info limit) (eras : List (Era c))
    (input : HostInput c proto Info) :
    Passes hpke input.received node.side.session eras (node.step coins input).side.session (node.pass coins eras input) := by
  cases input with
  | answers answers => exact .kept
  | handshake verifier =>
      rw [step, pass]
      · rcases node.call with _ | wait
        · dsimp only
          have hstart := HostSide.handshakeStart_step (coins node.side.draws) node.side verifier
          generalize node.side.handshakeStart (coins node.side.draws) verifier = r at hstart
          obtain ⟨result, side⟩ := r
          dsimp only at hstart ⊢
          cases hstart <;> exact .dropped
        · exact .kept
      all_goals
        intros
        contradiction
  | sendMessage req =>
      rw [step, pass]
      rcases node.call with _ | wait
      · dsimp only
        change Passes hpke _ _ _ (sendThrough proto.hostToArk node.side.framing node.side.session req).2.2 _
        rcases (sendThrough_step proto.hostToArk node.side.framing node.side.session req).traffic with
          ⟨_, hseals, hsession | hsession⟩ | ⟨old, payload, packet, sender, hold, _, hseal, _, hseals, hsession⟩
        · rw [hseals, hsession]
          exact .dropped
        · rw [hseals, hsession]
          exact .kept
        · rw [hseals]
          exact .sealed hold hseal hsession
      · exact .kept
  | nextMessage packet =>
      rw [step, pass]
      rcases node.call with _ | wait
      · dsimp only
        have hstep := HostSide.nextMessageStep_step proto node.side packet
        generalize node.side.nextMessageStep proto packet = r at hstep
        obtain ⟨result, side⟩ := r
        dsimp only at hstep ⊢
        cases hstep with
        | failed =>
            rw [Session.opens_error]
            exact .dropped
        | empty =>
            rw [Session.opens_reset]
            exact .kept
        | inactive hnone =>
            rw [hnone, Session.opens_none]
            exact .kept
        | broken hsession hopen =>
            rw [hsession, Session.opens_broken hopen]
            exact .dropped
        | opened hsession hopen =>
            rw [hsession, Session.opens_some hopen]
            exact .opened rfl rfl hopen
      · exact .kept
  | deliver packet =>
      rcases hcall : node.call with _ | wait
      · rw [step, pass, hcall]
        exact .kept
      have hstep := HostSide.handshakeStep_step (coins node.side.draws) node.side wait packet
      rcases hflow : node.side.handshakeStep (coins node.side.draws) wait packet with ⟨flow, side⟩
      have hside : (node.step coins (.deliver packet : HostInput c proto Info)).side = side := by
        rw [step, hcall]
        dsimp only
        rw [hflow]
      rw [hside]
      rw [hflow] at hstep
      dsimp only at hstep
      cases hstep with
      | failed | skipped _ _ | gaveUp _ _ | rejected _ _ | unanswered _ _ _ =>
          rw [pass_handshake hcall hflow fun _ h => by cases h]
          exact .kept
      | answered hours hanswer hsend =>
          rw [pass_answered hcall hanswer hflow]
          obtain ⟨_, _, hcontexts, _⟩ := HelloWait.answer_ok hanswer
          obtain ⟨_, hreceiver, hsender⟩ := HelloWait.contexts_ok hcontexts
          exact .began (hpke.newReceiver_spec hreceiver).2 (hpke.newSender_spec hsender).2

omit [Attester c A] in
/-- A session begins where a handshake acknowledges an ArkHello, and nowhere else. -/
theorem pass_origins (coins : Nat → Coins c) (node : HostNode c Info limit) (eras : List (Era c))
    (input : HostInput c proto Info) :
    origins (node.pass coins eras input) = origins eras ∨
      ∃ packet wait verified session ack, node.Acks coins input packet wait verified session ack ∧
        node.pass coins eras input = begins eras session (some verified.arkIdentity) := by
  cases input with
  | answers answers => exact Or.inl rfl
  | handshake verifier => exact Or.inl rfl
  | sendMessage req =>
      rw [pass]
      split
      · exact Or.inl (origins_noteSealed _ _)
      · exact Or.inl rfl
  | nextMessage packet =>
      rw [pass]
      split
      · exact Or.inl (origins_noteOpened _ _)
      · exact Or.inl rfl
  | deliver packet =>
      rcases hcall : node.call with _ | wait
      · rw [pass, hcall]
        exact Or.inl rfl
      have hstep := HostSide.handshakeStep_step (coins node.side.draws) node.side wait packet
      rcases hflow : node.side.handshakeStep (coins node.side.draws) wait packet with ⟨flow, side⟩
      rw [hflow] at hstep
      dsimp only at hstep
      cases hstep with
      | failed | skipped _ _ | gaveUp _ _ | rejected _ _ | unanswered _ _ _ =>
          rw [pass_handshake hcall hflow fun _ h => by cases h]
          exact Or.inl rfl
      | @answered packet verified session ack framing hours hanswer hsend =>
          exact Or.inr ⟨packet, wait, verified, session, ack, ⟨rfl, hcall, hours, hanswer⟩,
            pass_answered hcall hanswer hflow⟩

omit [Attester c A] in
/-- All that a host sends are its hellos, its acks and what it sealed, of which the newest era tells. -/
theorem step_sends (hpke : Contexts c) (coins : Nat → Coins c) (node : HostNode c Info limit) (eras : List (Era c))
    (input : HostInput c proto Info) {packet : Blob} (hmem : packet ∈ (node.step coins input).side.framing.sent) :
    packet ∈ node.side.framing.sent ∨
      (∃ wait : HelloWait c Info, c.cborEncode wait.hostHello.toCbor = .ok packet) ∨
      (∃ taken wait verified session, node.Acks coins input taken wait verified session packet) ∨
      ∃ old payload sender req, input = .sendMessage req ∧ node.side.session = some old ∧ proto.hostToArk.encode req = .ok payload ∧
        c.senderSeal old.sender payload = (.ok packet, sender) ∧
        node.pass coins eras input = noteSealed eras (some payload) := by
  by_cases hsend : ∃ req, input = .sendMessage req
  · obtain ⟨req, rfl⟩ := hsend
    rw [step] at hmem
    rw [pass]
    rcases hcall : node.call with _ | wait
    · rw [hcall] at hmem
      have hmem : packet ∈ (sendThrough proto.hostToArk node.side.framing node.side.session req).2.1.sent := hmem
      rcases (sendThrough_step proto.hostToArk node.side.framing node.side.session req).traffic with
        ⟨hsent, _, _⟩ | ⟨old, payload, packet', sender, hold, hencode, hseal, hsent, hseals, _⟩
      · exact Or.inl (hsent ▸ hmem)
      · rw [hsent] at hmem
        rcases List.mem_cons.mp hmem with rfl | hmem
        · exact Or.inr (Or.inr (Or.inr ⟨old, payload, sender, req, rfl, hold, hencode, hseal, by rw [hseals]⟩))
        · exact Or.inl hmem
    · rw [hcall] at hmem
      exact Or.inl hmem
  · rcases (step_step hpke coins node input).sends hmem with hold | hhello | hacks | ⟨session, payload, hseals⟩
    · exact Or.inl hold
    · exact Or.inr (Or.inl hhello)
    · exact Or.inr (Or.inr (Or.inl hacks))
    · obtain ⟨req, hinput, _⟩ := hseals.input
      exact absurd ⟨req, hinput⟩ hsend

end HostNode

/-! ### Runs -/

variable {parties : Parties c} {trace : Trace c proto A Info limit} {w : World c A Info limit}
  {action : Action c proto Info} {reading : Reading hpke} {a h : Nat}

/-- The eras of an Ark in a run, the newest first. -/
def arkEras (a : Nat) : Trace c proto A Info limit → List (Era c)
  | [] => []
  | (w, .ark b input) :: trace => if b = a then (w.ark a).pass (arkEras a trace) input else arkEras a trace
  | (_, .host _ _) :: trace => arkEras a trace

/-- The eras of a host in a run, the newest first. -/
def hostEras (parties : Parties c) (h : Nat) : Trace c proto A Info limit → List (Era c)
  | [] => []
  | (_, .ark _ _) :: trace => hostEras parties h trace
  | (w, .host i input) :: trace =>
    if i = h then (w.host h).pass (parties.hostCoins h) (hostEras parties h trace) input else hostEras parties h trace

omit [Attester c A] in
theorem arkEras_self (w : World c A Info limit) (input : ArkInput proto) :
    arkEras a ((w, .ark a input) :: trace) = (w.ark a).pass (arkEras a trace) input := if_pos rfl

omit [Attester c A] in
theorem arkEras_other (w : World c A Info limit) (hother : ∀ input, action ≠ .ark a input) :
    arkEras a ((w, action) :: trace) = arkEras a trace := by
  cases action with
  | ark b input => exact if_neg fun h => hother input (by rw [h])
  | host i input => rfl

omit [Attester c A] in
theorem hostEras_self (w : World c A Info limit) (input : HostInput c proto Info) :
    hostEras parties h ((w, .host h input) :: trace) =
      (w.host h).pass (parties.hostCoins h) (hostEras parties h trace) input := if_pos rfl

omit [Attester c A] in
theorem hostEras_other (w : World c A Info limit) (hother : ∀ input, action ≠ .host h input) :
    hostEras parties h ((w, action) :: trace) = hostEras parties h trace := by
  cases action with
  | ark a input => rfl
  | host i input => exact if_neg fun h => hother input (by rw [h])

omit [Attester c A] in
theorem received_ark (a : Nat) (input : ArkInput proto) :
    (Action.ark a input : Action c proto Info).received = input.received := by
  rcases input with _ | (_ | _) | _ | _ <;> rfl

omit [Attester c A] in
theorem received_host (h : Nat) (input : HostInput c proto Info) :
    (Action.host h input : Action c proto Info).received = input.received := by
  rcases input with _ | (_ | _) | (_ | _) | _ | _ <;> rfl

theorem Run.arkSender_fresh (hrun : Run reading parties trace w) {wait : AckWait c}
    (hcall : (w.ark a).call = some (.handshake (.ack wait))) : hpke.sendSeq wait.sender = 0 := by
  obtain ⟨past, _, _, _, _, hanswers, _⟩ := (hrun.arkInv a).waits wait hcall
  exact (hpke.newSender_spec hanswers.answers.answers.sender).2

theorem Run.ark_passes (hrun : Run reading parties trace w) (a : Nat) (action : Action c proto Info) :
    Passes hpke action.received (w.ark a).side.session (arkEras a trace) ((w.step parties action).ark a).side.session
      (arkEras a ((w, action) :: trace)) := by
  by_cases hmine : ∃ input, action = .ark a input
  · obtain ⟨input, rfl⟩ := hmine
    rw [World.step_ark_self, arkEras_self, received_ark]
    exact ArkNode.step_passes hpke _ _ _ (fun _ hcall => hrun.arkSender_fresh hcall) input
  · have hother : ∀ input, action ≠ .ark a input := fun input h => hmine ⟨input, h⟩
    rw [World.step_ark_other parties w hother, arkEras_other w hother]
    exact .kept

omit [Attester c A] in
theorem host_passes [Attester c A] (hpke : Contexts c) (parties : Parties c) (trace : Trace c proto A Info limit)
    (w : World c A Info limit) (h : Nat) (action : Action c proto Info) :
    Passes hpke action.received (w.host h).side.session (hostEras parties h trace)
      ((w.step parties action).host h).side.session (hostEras parties h ((w, action) :: trace)) := by
  by_cases hmine : ∃ input, action = .host h input
  · obtain ⟨input, rfl⟩ := hmine
    rw [World.step_host_self, hostEras_self, received_host]
    exact HostNode.step_passes hpke _ _ _ input
  · have hother : ∀ input, action ≠ .host h input := fun input h => hmine ⟨input, h⟩
    rw [World.step_host_other parties w hother, hostEras_other w hother]
    exact .kept

theorem Run.arkCounted (hrun : Run reading parties trace w) (a : Nat) :
    Counted hpke (w.ark a).side.session (arkEras a trace) := by
  induction hrun with
  | start attesters => exact nofun
  | step hrun _ ih => exact (hrun.ark_passes a _).counted ih

theorem Run.hostCounted (hrun : Run reading parties trace w) (h : Nat) :
    Counted hpke (w.host h).side.session (hostEras parties h trace) := by
  induction hrun with
  | start attesters => exact nofun
  | step hrun _ ih => exact (host_passes hpke parties _ _ h _).counted ih

theorem Run.arkOrigins (hrun : Run reading parties trace w) (a : Nat) :
    ∀ origin ∈ origins (arkEras a trace), ∃ past ∈ trace, ∃ packet wait,
      AcceptsAt a past packet wait origin.1 ∧ origin.2 = some wait.hostHello.hostSigner := by
  induction hrun with
  | start attesters => exact nofun
  | @step trace w action _ _ ih =>
      have hold : ∀ origin ∈ origins (arkEras a trace), ∃ past ∈ (w, action) :: trace, ∃ packet wait,
          AcceptsAt a past packet wait origin.1 ∧ origin.2 = some wait.hostHello.hostSigner := fun origin hmem => by
        obtain ⟨past, hpast, h⟩ := ih origin hmem
        exact ⟨past, List.mem_cons_of_mem _ hpast, h⟩
      intro origin hmem
      by_cases hmine : ∃ input, action = .ark a input
      · obtain ⟨input, rfl⟩ := hmine
        rw [arkEras_self] at hmem
        rcases (w.ark a).pass_origins (arkEras a trace) input with hsame | ⟨packet, wait, session, haccepts, hbegins⟩
        · rw [hsame] at hmem
          exact hold origin hmem
        · rw [hbegins] at hmem
          rcases List.mem_cons.mp hmem with rfl | hmem
          · obtain rfl := haccepts.input
            exact ⟨_, List.mem_cons_self, packet, wait, ⟨rfl, haccepts⟩, rfl⟩
          · exact hold origin hmem
      · rw [arkEras_other w fun input h => hmine ⟨input, h⟩] at hmem
        exact hold origin hmem

theorem Run.hostOrigins (hrun : Run reading parties trace w) (h : Nat) :
    ∀ origin ∈ origins (hostEras parties h trace), ∃ past ∈ trace, ∃ packet wait verified ack,
      AcksAt parties h past packet wait verified origin.1 ack ∧ origin.2 = some verified.arkIdentity := by
  induction hrun with
  | start attesters => exact nofun
  | @step trace w action _ _ ih =>
      have hold : ∀ origin ∈ origins (hostEras parties h trace), ∃ past ∈ (w, action) :: trace,
          ∃ packet wait verified ack, AcksAt parties h past packet wait verified origin.1 ack ∧
            origin.2 = some verified.arkIdentity := fun origin hmem => by
        obtain ⟨past, hpast, h⟩ := ih origin hmem
        exact ⟨past, List.mem_cons_of_mem _ hpast, h⟩
      intro origin hmem
      by_cases hmine : ∃ input, action = .host h input
      · obtain ⟨input, rfl⟩ := hmine
        rw [hostEras_self] at hmem
        rcases (w.host h).pass_origins (parties.hostCoins h) (hostEras parties h trace) input with
          hsame | ⟨packet, wait, verified, session, ack, hacks, hbegins⟩
        · rw [hsame] at hmem
          exact hold origin hmem
        · rw [hbegins] at hmem
          rcases List.mem_cons.mp hmem with rfl | hmem
          · obtain rfl := hacks.input
            exact ⟨_, List.mem_cons_self, packet, wait, verified, ack, ⟨rfl, hacks⟩, rfl⟩
          · exact hold origin hmem
      · rw [hostEras_other w fun input h => hmine ⟨input, h⟩] at hmem
        exact hold origin hmem


end DarkbioWire
