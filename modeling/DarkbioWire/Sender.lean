import DarkbioWire.Endpoint.Ark
import DarkbioWire.Endpoint.Host
import DarkbioWire.Reference.Crypto

/-!
# The sender never runs ahead of the wire

As long as a session is held, what was written since it was established is the frames of what was sealed in it, one for
each sequence number below the sender's. A message that is too large changes nothing, and after any other failure of a
`send_message` nothing is sealed or written until a handshake succeeds.
-/

namespace DarkbioWire

variable {c : Crypto (List UInt8)} {Msg M : Type} {cobs : Cobs} {maxFrameSize : Nat}

/-- What a side has written in the session it holds: the complete frames of the packets sealed at the sequence numbers
below its sender's, in order, and nothing else. -/
def InStep (cobs : Cobs) (maxFrameSize : Nat) (hpke : Contexts c) (session : Option (Session c)) (wire : List UInt8)
    (history : History c Msg) : Prop :=
  ∀ current, session = some current → ∃ epoch older, history.epochs = epoch :: older ∧
    (epoch.sealed.map fun entry => hpke.sendSeq entry.1) = List.range (hpke.sendSeq current.sender) ∧
    (∀ entry ∈ epoch.sealed, ∃ frame, Framing.frameOf cobs maxFrameSize entry.2.2 = .ok frame) ∧
    wire = epoch.wire ++ Endpoint.frames cobs maxFrameSize (epoch.sealed.map fun entry => entry.2.2)

theorem Endpoint.Inv.inStep {hpke : Contexts c} {role : Role c} {codec : Codec (List UInt8) Msg} {e : Endpoint c Msg}
    (h : Inv cobs maxFrameSize hpke role codec e) : InStep cobs maxFrameSize hpke e.session e.wire e.history := by
  intro current hcurrent
  obtain ⟨epoch, older, hepochs, hnow⟩ := h.current current hcurrent
  have hnumbered := (h.numbered epoch (hepochs ▸ List.mem_cons_self)).sealed
  refine ⟨epoch, older, hepochs, ?_, hnow.framed, hnow.wire⟩
  have hseqs := congrArg (List.map Prod.snd) hnumbered
  rw [List.map_map, List.map_map] at hseqs
  rw [hnow.sendSeq]
  exact hseqs.trans (List.map_id _)

/-! ### The ways a message is refused -/

variable {f f' : Framing cobs maxFrameSize} {session session' : Option (Session c)} {codec : Codec (List UInt8) M} {msg : M}

theorem sendThrough_tooLarge (hcobs : cobs.Lawful) (hf : f.Wf) {size : Nat}
    (h : sendThrough codec f session msg = (.error (.packetTooLarge size), f', session')) :
    f' = f ∧ session' = session := by
  have hstep := sendThrough_step codec f session msg
  rw [h] at hstep
  cases hstep with
  | tooLarge => exact ⟨rfl, rfl⟩
  | lost _ _ _ hsend =>
      rcases Framing.sendPacket_error_kind hcobs hf hsend with ⟨_, h⟩ | ⟨_, h⟩ | ⟨_, h⟩ <;> cases h

theorem sendThrough_failed {err : Error} (h : sendThrough codec f session msg = (.error err, f', session'))
    (hlarge : ∀ size, err ≠ .packetTooLarge size) (hencode : ∀ cause, err ≠ .packetEncodingFailed cause) :
    session' = none := by
  have hstep := sendThrough_step codec f session msg
  rw [h] at hstep
  cases hstep with
  | inactive => rfl
  | tooLarge => exact absurd rfl (hlarge _)
  | unencodable => exact absurd rfl (hencode _)
  | unsealed => rfl
  | lost => rfl

/-- Until a handshake succeeds, an endpoint out of its session stays out and seals nothing. -/
theorem Endpoint.Run.epochs_same {role : Role c} {codec : Codec (List UInt8) Msg} {e e' : Endpoint c Msg}
    (hrun : Run cobs maxFrameSize role codec e e') (hnone : e.session = none)
    (hlength : e'.history.epochs.length = e.history.epochs.length) :
    e'.session = none ∧ e'.history.epochs = e.history.epochs := by
  rcases hrun.epochs_after hnone with hsame | ⟨epoch, later, hcons, hsuffix⟩
  · exact hsame
  · have hle := hsuffix.length_le
    rw [hcons, List.length_cons] at hlength
    omega

variable {proto : Protocol (List UInt8)} {A Info : Type} [Attester c A]

/-- For an Ark after any run: the wire is in step with the session; a message that is too large changes nothing; any other
failure after the message was encoded ends the session; and out of a session every `send_message` fails, seals nothing
and writes nothing, until a handshake succeeds. -/
structure ArkProc.SendsInStep (hpke : Contexts c) (coins : Nat → Coins c) (p : ArkProc c proto A cobs maxFrameSize) :
    Prop where
  inStep : InStep cobs maxFrameSize hpke p.side.session p.side.framing.writer.wire p.history
  tooLarge : ∀ res size side, p.side.sendMessage proto res = (.error (.packetTooLarge size), side) → side = p.side
  failed : ∀ res err side, p.side.sendMessage proto res = (.error err, side) → (∀ size, err ≠ .packetTooLarge size) →
    (∀ cause, err ≠ .packetEncodingFailed cause) → side.session = none
  stopped : p.side.session = none → ∀ actions,
    (p.run coins actions).history.epochs.length = p.history.epochs.length →
    (p.run coins actions).history.epochs = p.history.epochs ∧
      ∀ res, (p.run coins actions).side.sendMessage proto res =
        (.error (.encryptionFailed "no active session"), (p.run coins actions).side)

/-- The same for a host. -/
structure HostProc.SendsInStep (hpke : Contexts c) (coins : Nat → Coins c) (p : HostProc c proto Info cobs maxFrameSize) :
    Prop where
  inStep : InStep cobs maxFrameSize hpke p.side.session p.side.framing.writer.wire p.history
  tooLarge : ∀ req size side, p.side.sendMessage proto req = (.error (.packetTooLarge size), side) → side = p.side
  failed : ∀ req err side, p.side.sendMessage proto req = (.error err, side) → (∀ size, err ≠ .packetTooLarge size) →
    (∀ cause, err ≠ .packetEncodingFailed cause) → side.session = none
  stopped : p.side.session = none → ∀ actions,
    (p.run coins actions).history.epochs.length = p.history.epochs.length →
    (p.run coins actions).history.epochs = p.history.epochs ∧
      ∀ req, (p.run coins actions).side.sendMessage proto req =
        (.error (.encryptionFailed "no active session"), (p.run coins actions).side)

omit [Attester c A] in
theorem ArkSide.sendMessage_inactive {side : ArkSide c A (Framing cobs maxFrameSize)} (hnone : side.session = none)
    (res : proto.ArkToHost) :
    side.sendMessage proto res = (.error (.encryptionFailed "no active session"), side) := by
  obtain ⟨framing, signer, attester, session, draws⟩ := side
  obtain rfl : session = none := hnone
  rfl

theorem HostSide.sendMessage_inactive {side : HostSide c (Framing cobs maxFrameSize)} (hnone : side.session = none)
    (req : proto.HostToArk) :
    side.sendMessage proto req = (.error (.encryptionFailed "no active session"), side) := by
  obtain ⟨framing, session, draws⟩ := side
  obtain rfl : session = none := hnone
  rfl

omit [Attester c A] in
theorem ArkSide.sendMessage_through {side side' : ArkSide c A (Framing cobs maxFrameSize)} {res : proto.ArkToHost}
    {result : Except Error Unit} (h : side.sendMessage proto res = (result, side')) :
    sendThrough proto.arkToHost side.framing side.session res = (result, side'.framing, side'.session) ∧
      side' = { side with framing := side'.framing, session := side'.session } := by
  obtain ⟨rfl, rfl⟩ := Prod.mk.inj h
  exact ⟨rfl, rfl⟩

theorem HostSide.sendMessage_through {side side' : HostSide c (Framing cobs maxFrameSize)} {req : proto.HostToArk}
    {result : Except Error Unit} (h : side.sendMessage proto req = (result, side')) :
    sendThrough proto.hostToArk side.framing side.session req = (result, side'.framing, side'.session) ∧
      side' = { side with framing := side'.framing, session := side'.session } := by
  obtain ⟨rfl, rfl⟩ := Prod.mk.inj h
  exact ⟨rfl, rfl⟩

theorem ArkProc.sendsInStep (hcobs : cobs.Lawful) {hpke : Contexts c} {coins : Nat → Coins c}
    {p : ArkProc c proto A cobs maxFrameSize} {e : Endpoint c proto.HostToArk} (h : p.Abstracts coins e)
    (hinv : Endpoint.Inv cobs maxFrameSize hpke (arkRole coins) proto.hostToArk e) : p.SendsInStep hpke coins where
  inStep := by
    rw [← h.session, ← h.wire, ← h.history]
    exact hinv.inStep
  tooLarge := by
    intro res size side hsend
    obtain ⟨hout, hside⟩ := ArkSide.sendMessage_through hsend
    obtain ⟨hframing, hsession⟩ := sendThrough_tooLarge hcobs h.wf.framing hout
    rw [hside, hframing, hsession]
  failed := by
    intro res err side hsend hlarge hencode
    exact sendThrough_failed (ArkSide.sendMessage_through hsend).1 hlarge hencode
  stopped := by
    intro hnone actions hlength
    obtain ⟨later, hrun, hlater⟩ := run_abstracts hcobs h actions
    rw [← hlater.history, ← h.history] at hlength
    obtain ⟨hstay, hsame⟩ := hrun.epochs_same (h.session.trans hnone) hlength
    rw [hlater.history, h.history] at hsame
    exact ⟨hsame, fun res => ArkSide.sendMessage_inactive (hlater.session.symm.trans hstay) res⟩

theorem HostProc.sendsInStep (hcobs : cobs.Lawful) {hpke : Contexts c} {coins : Nat → Coins c}
    {p : HostProc c proto Info cobs maxFrameSize} {e : Endpoint c proto.ArkToHost} (h : p.Abstracts coins e)
    (hinv : Endpoint.Inv cobs maxFrameSize hpke (hostRole coins) proto.arkToHost e) : p.SendsInStep hpke coins where
  inStep := by
    rw [← h.session, ← h.wire, ← h.history]
    exact hinv.inStep
  tooLarge := by
    intro req size side hsend
    obtain ⟨hout, hside⟩ := HostSide.sendMessage_through hsend
    obtain ⟨hframing, hsession⟩ := sendThrough_tooLarge hcobs h.wf.framing hout
    rw [hside, hframing, hsession]
  failed := by
    intro req err side hsend hlarge hencode
    exact sendThrough_failed (HostSide.sendMessage_through hsend).1 hlarge hencode
  stopped := by
    intro hnone actions hlength
    obtain ⟨later, hrun, hlater⟩ := run_abstracts hcobs h actions
    rw [← hlater.history, ← h.history] at hlength
    obtain ⟨hstay, hsame⟩ := hrun.epochs_same (h.session.trans hnone) hlength
    rw [hlater.history, h.history] at hsame
    exact ⟨hsame, fun req => HostSide.sendMessage_inactive (hlater.session.symm.trans hstay) req⟩

/-- The sender never runs ahead of the wire, on either side, over every run with any reader and any writer. -/
theorem sends_in_step (hcobs : cobs.Lawful) (hpke : Contexts c) (arkCoins hostCoins : Nat → Coins c)
    (reader : Reader) (writer : Writer) (signer : c.XdsaSecretKey) (attester : A) (arkActions : List (ArkAction proto))
    (hostActions : List (HostAction c proto Info)) :
    ((ArkProc.new reader writer signer attester : ArkProc c proto A cobs maxFrameSize).run arkCoins
        arkActions).SendsInStep hpke arkCoins ∧
      ((HostProc.new reader writer : HostProc c proto Info cobs maxFrameSize).run hostCoins
        hostActions).SendsInStep hpke hostCoins := by
  obtain ⟨eark, harkInv, hark⟩ := ArkProc.run_inv hcobs maxFrameSize hpke arkCoins reader writer signer attester arkActions
  obtain ⟨ehost, hhostInv, hhost⟩ := HostProc.run_inv hcobs maxFrameSize hpke hostCoins reader writer hostActions
  exact ⟨ArkProc.sendsInStep hcobs hark harkInv, HostProc.sendsInStep hcobs hhost hhostInv⟩

open Reference in
theorem sends_in_step_reference :
    ((ark []).run coins arkReceives).SendsInStep contexts coins ∧ (host.run coins hostSends).SendsInStep contexts coins :=
  sends_in_step Cobs.stuffing_lawful contexts coins coins [] ⟨[], []⟩ (7 : Nat) attestation arkReceives hostSends

end DarkbioWire
