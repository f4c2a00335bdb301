import DarkbioWire.Endpoint.Ark
import DarkbioWire.Endpoint.Host
import DarkbioWire.Reference.Crypto

/-!
# In-order prefix delivery

Whatever reaches a side's reader, the payloads it opens in a session are a prefix of those the peer sealed in the paired
session, and they are what its `next_message` calls deliver; once the session is gone nothing is opened in it any more.
The one assumption about the AEAD is `Authentic`: what is opened on the peer's channel is what the peer sealed there
under the same sequence number.
-/

namespace DarkbioWire

variable {c : Crypto (List UInt8)} {Msg Msg' : Type} {cobs : Cobs} {maxFrameSize : Nat}

/-- Every packet opened on the channel of a peer's sender is the packet the peer sealed in that session at the same
sequence number, and opens to what was sealed. -/
def Authentic (hpke : Contexts c) (epochs : List (Epoch c)) (peer : Epoch c) : Prop :=
  ∀ epoch ∈ epochs, ∀ opened ∈ epoch.opened, hpke.recvChannel opened.1 = hpke.sendChannel peer.session.sender →
    ∃ sealed ∈ peer.sealed, hpke.sendSeq sealed.1 = hpke.recvSeq opened.1 ∧ sealed.2.2 = opened.2.1 ∧
      sealed.2.1 = opened.2.2

/-- A side with this session and history, towards peers with these sessions: the session is the newest in the history,
its `next_message` calls deliver what it opened, and what it opened in a session paired with one of a peer's is a prefix
of what the peer sealed in that, nothing of which is opened in any other session. -/
structure InOrder (hpke : Contexts c) (codec : Codec (List UInt8) Msg) (session : Option (Session c))
    (history : History c Msg) (peers : List (Epoch c)) : Prop where
  holds : ∀ current, session = some current → ∃ epoch older, history.epochs = epoch :: older ∧
    hpke.recvChannel current.receiver = hpke.recvChannel epoch.session.receiver ∧
    hpke.recvSeq current.receiver = epoch.opened.length
  delivered : history.delivered = (Endpoint.openedPayloads history.epochs).map codec.deliver
  opened_prefix : ∀ newer epoch older, history.epochs = newer ++ epoch :: older → ∀ peer ∈ peers,
    hpke.recvChannel epoch.session.receiver = hpke.sendChannel peer.session.sender →
    Authentic hpke history.epochs peer →
    (epoch.opened.map fun entry => entry.2.2) <+: (peer.sealed.map fun entry => entry.2.1) ∧
      ∀ other ∈ newer ++ older, ∀ entry ∈ other.opened,
        hpke.recvChannel entry.1 ≠ hpke.sendChannel peer.session.sender

namespace Endpoint

variable {hpke : Contexts c} {role role' : Role c} {codec : Codec (List UInt8) Msg} {codec' : Codec (List UInt8) Msg'}
  {e e' : Endpoint c Msg} {peer : Endpoint c Msg'}

theorem Numbered.opened_at {epoch : Epoch c} (h : Numbered hpke epoch) {i : Nat} (hi : i < epoch.opened.length) :
    hpke.recvChannel (epoch.opened[i]).1 = hpke.recvChannel epoch.session.receiver ∧
      hpke.recvSeq (epoch.opened[i]).1 = i := by
  have hat := congrArg (fun numbers => numbers[i]?) h.opened
  simp only [List.getElem?_map, List.getElem?_eq_getElem hi, List.getElem?_range hi, Option.map_some,
    Option.some.injEq, Prod.mk.injEq] at hat
  exact hat

theorem Numbered.sealed_at {epoch : Epoch c} (h : Numbered hpke epoch) {i : Nat} (hi : i < epoch.sealed.length) :
    hpke.sendSeq (epoch.sealed[i]).1 = i := by
  have hat := congrArg (fun numbers => numbers[i]?) h.sealed
  simp only [List.getElem?_map, List.getElem?_eq_getElem hi, List.getElem?_range hi, Option.map_some,
    Option.some.injEq, Prod.mk.injEq] at hat
  exact hat.2

theorem opened_prefix_sealed {epoch sealing : Epoch c} (hopened : Numbered hpke epoch) (hsealed : Numbered hpke sealing)
    (hpair : hpke.recvChannel epoch.session.receiver = hpke.sendChannel sealing.session.sender) {epochs : List (Epoch c)}
    (hmem : epoch ∈ epochs) (hauthentic : Authentic hpke epochs sealing) :
    (epoch.opened.map fun entry => entry.2.2) <+: (sealing.sealed.map fun entry => entry.2.1) := by
  rw [List.prefix_iff_getElem?]
  intro i hi
  rw [List.length_map] at hi
  obtain ⟨hchannel, hseq⟩ := hopened.opened_at hi
  obtain ⟨entry, hentry, hnumber, _, hpayload⟩ :=
    hauthentic epoch hmem _ (List.getElem_mem hi) (hchannel.trans hpair)
  obtain ⟨j, hj, rfl⟩ := List.mem_iff_getElem.mp hentry
  obtain rfl : j = i := by
    rw [hsealed.sealed_at hj, hseq] at hnumber
    exact hnumber
  rw [List.getElem?_map, List.getElem?_eq_getElem hj, List.getElem_map, ← hpayload]
  rfl

theorem Inv.inOrder (hfresh : role.Fresh e.round) (h : Inv cobs maxFrameSize hpke role codec e)
    (hpeer : Inv cobs maxFrameSize hpke role' codec' peer) :
    InOrder hpke codec e.session e.history peer.history.epochs where
  holds := by
    intro current hcurrent
    obtain ⟨epoch, older, hepochs, hnow⟩ := h.current current hcurrent
    exact ⟨epoch, older, hepochs, hnow.recvChannel, hnow.recvSeq⟩
  delivered := h.delivered
  opened_prefix := by
    intro newer epoch older hepochs sealing hsealing hpair hauthentic
    have hmem : epoch ∈ e.history.epochs := by
      rw [hepochs]
      exact List.mem_append_right _ List.mem_cons_self
    refine ⟨opened_prefix_sealed (h.numbered epoch hmem) (hpeer.numbered sealing hsealing) hpair hmem hauthentic, ?_⟩
    intro other hother entry hentry heq
    have hpairwise := Ordered.pairwise hpke hfresh h.ordered
    rw [hepochs, List.pairwise_append, List.pairwise_cons] at hpairwise
    have hother' : other ∈ e.history.epochs := by
      rw [hepochs]
      rcases List.mem_append.mp hother with hnew | hold
      · exact List.mem_append_left _ hnew
      · exact List.mem_append_right _ (List.mem_cons_of_mem _ hold)
    obtain ⟨i, hi, rfl⟩ := List.mem_iff_getElem.mp hentry
    have hchannel := ((h.numbered other hother').opened_at hi).1
    have hsame : hpke.recvChannel other.session.receiver = hpke.recvChannel epoch.session.receiver :=
      hchannel.symm.trans (heq.trans hpair.symm)
    rcases List.mem_append.mp hother with hnew | hold
    · exact (hpairwise.2.2 other hnew epoch List.mem_cons_self).1 hsame
    · exact (hpairwise.2.1.1 other hold).1 hsame.symm

end Endpoint

variable {proto : Protocol (List UInt8)} {A Info : Type} [Attester c A]

/-- In-order prefix delivery, for an Ark and a host over any two transports: whatever the readers serve and the writers
answer, each opens in a session a prefix of what the other sealed in the paired one, delivers exactly that, and never
opens anything of a session that is gone. -/
theorem delivers_in_order (hcobs : cobs.Lawful) (hpke : Contexts c) {arkCoins hostCoins : Nat → Coins c}
    (arkReader hostReader : Reader) (arkWriter hostWriter : Writer) (signer : c.XdsaSecretKey) (attester : A)
    (arkActions : List (ArkAction proto)) (hostActions : List (HostAction c proto Info)) :
    let ark := (ArkProc.new arkReader arkWriter signer attester : ArkProc c proto A cobs maxFrameSize).run arkCoins
      arkActions
    let host := (HostProc.new hostReader hostWriter : HostProc c proto Info cobs maxFrameSize).run hostCoins hostActions
    (arkRole arkCoins).Fresh ark.side.draws → (hostRole hostCoins).Fresh host.side.draws →
      InOrder hpke proto.hostToArk ark.side.session ark.history host.history.epochs ∧
      InOrder hpke proto.arkToHost host.side.session host.history ark.history.epochs ∧
      (ark.side.session = none → ∀ actions, ark.history.epochs <:+ (ark.run arkCoins actions).history.epochs) ∧
      (host.side.session = none → ∀ actions, host.history.epochs <:+ (host.run hostCoins actions).history.epochs) := by
  intro ark host hark hhost
  obtain ⟨eark, harkInv, harkAbs⟩ :=
    ArkProc.run_inv hcobs maxFrameSize hpke arkCoins arkReader arkWriter signer attester arkActions
  obtain ⟨ehost, hhostInv, hhostAbs⟩ := HostProc.run_inv hcobs maxFrameSize hpke hostCoins hostReader hostWriter hostActions
  have harkOrder := harkInv.inOrder (hark.mono harkAbs.round) hhostInv
  have hhostOrder := hhostInv.inOrder (hhost.mono hhostAbs.round) harkInv
  rw [harkAbs.session, harkAbs.history, hhostAbs.history] at harkOrder
  rw [hhostAbs.session, harkAbs.history, hhostAbs.history] at hhostOrder
  refine ⟨harkOrder, hhostOrder, ?_, ?_⟩
  · intro hnone actions
    obtain ⟨later, hlaterRun, hlaterAbs⟩ := ArkProc.run_abstracts hcobs harkAbs actions
    have hfinal := hlaterRun.epochs_final (harkAbs.session.trans hnone)
    rwa [harkAbs.history, hlaterAbs.history] at hfinal
  · intro hnone actions
    obtain ⟨later, hlaterRun, hlaterAbs⟩ := HostProc.run_abstracts hcobs hhostAbs actions
    have hfinal := hlaterRun.epochs_final (hhostAbs.session.trans hnone)
    rwa [hhostAbs.history, hlaterAbs.history] at hfinal

open Reference in
/-- The two messages the host sealed, delivered and reported. -/
theorem delivers_in_order_reference :
    ((ark []).run coins arkReceives).history.delivered = [.ok [5], .error (.packetDecodingFailed "invalid tag")] ∧
      InOrder contexts protocol.hostToArk ((ark []).run coins arkReceives).side.session
        ((ark []).run coins arkReceives).history (host.run coins hostSends).history.epochs := by
  refine ⟨by decide +kernel, ?_⟩
  rw [ark, host]
  exact (delivers_in_order Cobs.stuffing_lawful contexts [] [] ⟨[], []⟩ ⟨[], []⟩ (7 : Nat) attestation arkReceives hostSends
    (arkRole_fresh _) (hostRole_fresh _)).1

end DarkbioWire
