import DarkbioWire.Delivery
import Mathlib.Data.List.Nodup

/-!
# No nonce twice

HPKE numbers the packets of a context and makes the nonce of a packet from its number, so a side must never seal two packets
under one number of one channel. Within a session that is the context's counter; across handshakes, whatever failed in
between, it is the fresh coins; and the two sides of a session are kept apart by the info strings of their contexts.
-/

namespace DarkbioWire

namespace Endpoint

section Numbers

variable {E F C : Type}

/-- Lists that are numbered from zero in channels of their own have no number in common. -/
theorem nodup_numbers {entries : E → List F} {number : F → C × Nat} {channel : E → C} {epochs : List E}
    (hnumbered : ∀ epoch ∈ epochs,
      (entries epoch).map number = (List.range (entries epoch).length).map fun i => (channel epoch, i))
    (hapart : epochs.Pairwise fun epoch epoch' => channel epoch ≠ channel epoch') :
    (epochs.flatMap fun epoch => (entries epoch).map number).Nodup := by
  rw [List.nodup_flatMap]
  constructor
  · intro epoch hepoch
    rw [hnumbered epoch hepoch]
    refine List.Nodup.map ?_ List.nodup_range
    intro i j h
    exact (Prod.mk.inj h).2
  · refine hapart.imp_of_mem ?_
    intro epoch epoch' hepoch hepoch' hne place hplace hplace'
    dsimp only at hplace hplace'
    rw [hnumbered epoch hepoch] at hplace
    rw [hnumbered epoch' hepoch'] at hplace'
    obtain ⟨i, _, rfl⟩ := List.mem_map.mp hplace
    obtain ⟨j, _, hsame⟩ := List.mem_map.mp hplace'
    exact hne (Prod.mk.inj hsame).1.symm

end Numbers

variable {c : Crypto (List UInt8)} {Msg : Type} {cobs : Cobs} {maxFrameSize : Nat} {hpke : Contexts c}
  {role : Role c} {codec : Codec (List UInt8) Msg} {e : Endpoint c Msg}

/-- The channels and numbers under which packets were sealed. -/
def sealings (hpke : Contexts c) (epochs : List (Epoch c)) : List (Channel c × Nat) :=
  epochs.flatMap fun epoch => epoch.sealed.map fun entry => (hpke.sendChannel entry.1, hpke.sendSeq entry.1)

/-- The channels and numbers under which packets were opened. -/
def openings (hpke : Contexts c) (epochs : List (Epoch c)) : List (Channel c × Nat) :=
  epochs.flatMap fun epoch => epoch.opened.map fun entry => (hpke.recvChannel entry.1, hpke.recvSeq entry.1)

theorem Inv.nodup_sealings (hfresh : role.Fresh e.round) (h : Inv cobs maxFrameSize hpke role codec e) :
    (sealings hpke e.history.epochs).Nodup :=
  nodup_numbers (fun epoch hepoch => (h.numbered epoch hepoch).sealed)
    ((Ordered.pairwise hpke hfresh h.ordered).imp fun hchannels => hchannels.2)

theorem Inv.nodup_openings (hfresh : role.Fresh e.round) (h : Inv cobs maxFrameSize hpke role codec e) :
    (openings hpke e.history.epochs).Nodup :=
  nodup_numbers (fun epoch hepoch => (h.numbered epoch hepoch).opened)
    ((Ordered.pairwise hpke hfresh h.ordered).imp fun hchannels => hchannels.1)

/-- What a side seals is in channels with its own info string. -/
theorem Inv.sealings_info (h : Inv cobs maxFrameSize hpke role codec e) {place : Channel c × Nat}
    (hplace : place ∈ sealings hpke e.history.epochs) : place.1.2.2 = role.infoOut := by
  obtain ⟨epoch, hepoch, hentry⟩ := List.mem_flatMap.mp hplace
  rw [(h.numbered epoch hepoch).sealed] at hentry
  obtain ⟨i, _, rfl⟩ := List.mem_map.mp hentry
  obtain ⟨m, n, hmakes, _, _⟩ := h.ordered.mem hepoch
  obtain ⟨key, encap, hsender⟩ := hmakes.sender
  rw [(hpke.newSender_spec hsender).1]

theorem Inv.openings_info (h : Inv cobs maxFrameSize hpke role codec e) {place : Channel c × Nat}
    (hplace : place ∈ openings hpke e.history.epochs) : place.1.2.2 = role.infoIn := by
  obtain ⟨epoch, hepoch, hentry⟩ := List.mem_flatMap.mp hplace
  rw [(h.numbered epoch hepoch).opened] at hentry
  obtain ⟨i, _, rfl⟩ := List.mem_map.mp hentry
  obtain ⟨m, n, hmakes, _, _⟩ := h.ordered.mem hepoch
  obtain ⟨encap, hreceiver⟩ := hmakes.receiver
  rw [(hpke.newReceiver_spec hreceiver).1]

end Endpoint

open Endpoint

variable {c : Crypto (List UInt8)} {proto : Protocol (List UInt8)} {A Info : Type} [Attester c A] {cobs : Cobs}
  {maxFrameSize : Nat}

/-- Whatever an Ark and a host are served and told to do, whatever fails, and however often they shake hands: no two packets
are sealed under one number of one channel, by one of them or by both, and none are opened. -/
theorem nonces_once (hcobs : cobs.Lawful) (hpke : Contexts c) {arkCoins hostCoins : Nat → Coins c}
    (arkReader hostReader : Reader) (arkWriter hostWriter : Writer) (signer : c.XdsaSecretKey) (attester : A)
    (arkActions : List (ArkAction proto)) (hostActions : List (HostAction c proto Info)) :
    let ark := (ArkProc.new arkReader arkWriter signer attester : ArkProc c proto A cobs maxFrameSize).run arkCoins
      arkActions
    let host := (HostProc.new hostReader hostWriter : HostProc c proto Info cobs maxFrameSize).run hostCoins hostActions
    (arkRole arkCoins).Fresh ark.side.draws → (hostRole hostCoins).Fresh host.side.draws →
      (sealings hpke ark.history.epochs ++ sealings hpke host.history.epochs).Nodup ∧
      (openings hpke ark.history.epochs ++ openings hpke host.history.epochs).Nodup := by
  intro ark host hark hhost
  obtain ⟨eark, harkInv, harkAbs⟩ :=
    ArkProc.run_inv hcobs maxFrameSize hpke arkCoins arkReader arkWriter signer attester arkActions
  obtain ⟨ehost, hhostInv, hhostAbs⟩ := HostProc.run_inv hcobs maxFrameSize hpke hostCoins hostReader hostWriter hostActions
  have hark := hark.mono harkAbs.round
  have hhost := hhost.mono hhostAbs.round
  rw [← harkAbs.history, ← hhostAbs.history]
  have hstrings : CRYPTO_DOMAIN_WIRE_ARK_TO_HOST ≠ CRYPTO_DOMAIN_WIRE_HOST_TO_ARK := by decide
  constructor
  · rw [List.nodup_append']
    refine ⟨harkInv.nodup_sealings hark, hhostInv.nodup_sealings hhost, ?_⟩
    intro place hplace hplace'
    exact hstrings ((harkInv.sealings_info hplace).symm.trans (hhostInv.sealings_info hplace'))
  · rw [List.nodup_append']
    refine ⟨harkInv.nodup_openings hark, hhostInv.nodup_openings hhost, ?_⟩
    intro place hplace hplace'
    exact hstrings.symm ((harkInv.openings_info hplace).symm.trans (hhostInv.openings_info hplace'))

open Reference in
/-- The numbers of the two packets a host sealed. -/
theorem nonces_once_reference :
    (sealings contexts ((ark []).run coins arkReceives).history.epochs ++
        sealings contexts (host.run coins hostSends).history.epochs).Nodup ∧
      (sealings contexts (host.run coins hostSends).history.epochs).map Prod.snd = [0, 1] := by
  refine ⟨?_, by decide +kernel⟩
  rw [ark, host]
  exact (nonces_once Cobs.stuffing_lawful contexts [] [] ⟨[], []⟩ ⟨[], []⟩ (7 : Nat) attestation arkReceives hostSends
    (arkRole_fresh _) (hostRole_fresh _)).1

end DarkbioWire
