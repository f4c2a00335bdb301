import DarkbioWire.Interrupted

/-!
# Who writes resets

An empty frame is a reset, and it ends whatever session its reader is in. The Ark never writes one, whatever its writer does
and however often it fails (`ark_never_resets`); the host takes an empty frame from the Ark for junk because of this. The host
writes them in `handshake` only: at most the two zeros of each call, and at least one for each call that comes to wait for
the ArkHello (`host_resets`).
-/

namespace DarkbioWire

open Delimited

namespace Framing

variable {cobs : Cobs} {maxFrameSize : Nat} {f f' : Framing cobs maxFrameSize}

/-- A result of `next_packet` that reports a reset. -/
def isReset : PacketResult → Bool
  | .ok none => true
  | _ => false

theorem readsPackets_resets {reads : List (List UInt8)} (hreads : ∀ read ∈ reads, read ≠ []) (sink : Writer) :
    ∃ results, ReadsPackets (new (streamOf reads) sink : Framing cobs maxFrameSize) results .terminated ∧
      results.countP isReset = empties 0 true reads.flatten := by
  refine ⟨_, readsPackets_new hreads sink, ?_⟩
  rw [← count_accepted 0 maxFrameSize, List.countP_map]
  congr 1
  funext frame
  rw [Function.comp_apply, decodeFrame]
  split
  · rename_i hnil
    rw [hnil]
    rfl
  · rename_i hne
    rw [List.isEmpty_eq_false_iff.mpr hne]
    split <;> rfl

/-- What was written comes out of a framer with so many resets, however it is cut into reads. -/
def Resets (cobs : Cobs) (maxFrameSize : Nat) (wire : List UInt8) (count : Nat) : Prop :=
  ∀ reads : List (List UInt8), (∀ read ∈ reads, read ≠ []) → reads.flatten = wire → ∀ sink : Writer, ∃ results,
    ReadsPackets (new (streamOf reads) sink : Framing cobs maxFrameSize) results .terminated ∧
      results.countP isReset = count

theorem resets_empties (cobs : Cobs) (maxFrameSize : Nat) (wire : List UInt8) :
    Resets cobs maxFrameSize wire (empties 0 true wire) := by
  intro reads hreads hflatten sink
  rw [← hflatten]
  exact readsPackets_resets hreads sink

theorem sendPacket_empties (hcobs : cobs.Lawful) (hf : f.Wf) {packet : List UInt8} {result : Except Error Unit}
    (hsend : f.sendPacket packet = (result, f')) :
    empties 0 true f'.writer.wire = empties 0 true f.writer.wire := by
  rcases result with err | _
  · obtain ⟨rfl | ⟨frame, count, hframe, _, hwire⟩, _⟩ := sendPacket_error hcobs hf hsend
    · rfl
    · obtain ⟨hclean, _, hne, _⟩ := frameOf_ok hcobs hframe
      rw [hwire, empties_append, empties_take _ hclean hne, Nat.add_zero]
  · obtain ⟨frame, hframe, hwire, _⟩ := sendPacket_ok hcobs hf hsend
    obtain ⟨hclean, _, hne, _⟩ := frameOf_ok hcobs hframe
    have htake := empties_take (begins 0 true f.writer.wire) hclean hne (frame ++ [0]).length
    rw [List.take_length] at htake
    rw [hwire, empties_append, htake, Nat.add_zero]

/-- A reset is two zeros, of which the second ends an empty frame. -/
theorem sendReset_empties (hf : f.Wf) :
    empties 0 true f.writer.wire ≤ empties 0 true f.sendReset.2.writer.wire ∧
      empties 0 true f.sendReset.2.writer.wire ≤ empties 0 true f.writer.wire + 2 ∧
      (f.sendReset.1 = .ok () → empties 0 true f.writer.wire < empties 0 true f.sendReset.2.writer.wire) := by
  obtain ⟨hresult, hwriter, _⟩ := sendReset_spec f hf
  rw [hresult, hwriter]
  rcases Writer.send_cases f.writer [0, 0] with ⟨hok, hwire⟩ | ⟨err, count, herr, hcount, hwire⟩
  · rw [hwire, empties_append]
    have htwo := empties_le_length (0 : UInt8) (begins 0 true f.writer.wire) [0, 0]
    have hone : 0 < empties (0 : UInt8) (begins 0 true f.writer.wire) [0, 0] := by
      rw [empties, empties, if_pos rfl, if_pos rfl, if_pos rfl]
      omega
    rw [List.length_cons, List.length_singleton] at htwo
    omega
  · rw [herr, hwire, empties_append]
    have htwo := empties_le_length (0 : UInt8) (begins 0 true f.writer.wire) ([0, 0].take count)
    rw [List.length_take, List.length_cons, List.length_singleton] at htwo
    refine ⟨Nat.le_add_right _ _, by omega, ?_⟩
    intro hok
    cases hok

end Framing

section Sides

variable {c : Crypto (List UInt8)} {proto : Protocol (List UInt8)} {A Info : Type} {cobs : Cobs} {maxFrameSize : Nat}

/-! ### The Ark -/

namespace ArkProc

variable [Attester c A] {coins : Nat → Coins c} {p : ArkProc c proto A cobs maxFrameSize}

theorem step_empties (hcobs : cobs.Lawful) (hwf : p.Wf) (action : ArkAction proto) :
    empties 0 true (p.step coins action).side.framing.writer.wire = empties 0 true p.side.framing.writer.wire := by
  rcases step_sends coins hwf action with hsame | ⟨f, packet, _, hf, hwriter, hsent⟩
  · rw [hsame]
  · have hsend : f.sendPacket packet = ((f.sendPacket packet).1, (f.sendPacket packet).2) := rfl
    rw [hsent, Framing.sendPacket_empties hcobs hf hsend, hwriter]

theorem run_empties (hcobs : cobs.Lawful) {e : Endpoint c proto.HostToArk} (h : p.Abstracts coins e)
    (actions : List (ArkAction proto)) :
    empties 0 true (p.run coins actions).side.framing.writer.wire = empties 0 true p.side.framing.writer.wire := by
  induction actions generalizing p e with
  | nil => rfl
  | cons action actions ih =>
      obtain ⟨e', _, h'⟩ := step_abstracts hcobs h action
      rw [run_cons, ih h', step_empties hcobs h.wf action]

end ArkProc

/-- Of all that an Ark writes, in any run and with any writer, nothing comes out of a framer as a reset, however the stream is
cut and wherever it stops. -/
theorem ark_never_resets [Attester c A] (hcobs : cobs.Lawful) (coins : Nat → Coins c) (reader : Reader)
    (answers : List WriteEvent) (signer : c.XdsaSecretKey) (attester : A) (actions : List (ArkAction proto))
    {p : ArkProc c proto A cobs maxFrameSize} (hp : p = (ArkProc.new reader ⟨[], answers⟩ signer attester).run coins actions)
    {reads : List (List UInt8)} (hreads : ∀ read ∈ reads, read ≠ []) (hstream : reads.flatten <+: p.side.framing.writer.wire)
    (sink : Writer) :
    ∃ results, Framing.ReadsPackets (Framing.new (Framing.streamOf reads) sink : Framing cobs maxFrameSize) results
        .terminated ∧ .ok none ∉ results := by
  have hnone := ArkProc.run_empties hcobs
    (ArkProc.new_abstracts coins reader ⟨[], answers⟩ signer attester :
      ArkProc.Abstracts coins (_ : ArkProc c proto A cobs maxFrameSize) _) actions
  rw [← hp] at hnone
  obtain ⟨rest, hrest⟩ := hstream
  rw [← hrest, empties_append] at hnone
  obtain ⟨results, hresults, hcount⟩ :=
    (Framing.readsPackets_resets hreads sink : ∃ results, Framing.ReadsPackets (_ : Framing cobs maxFrameSize) results _ ∧ _)
  refine ⟨results, hresults, fun hreset => ?_⟩
  have hpositive : 0 < results.countP Framing.isReset := List.countP_pos_iff.mpr ⟨_, hreset, rfl⟩
  have hstart : empties 0 true (ArkProc.new reader ⟨[], answers⟩ signer attester :
      ArkProc c proto A cobs maxFrameSize).side.framing.writer.wire = 0 := rfl
  omega

open Reference in
/-- Two ArkHellos of which the first is cut behind its first byte. -/
theorem ark_never_resets_reference :
    ∃ results, Framing.ReadsPackets (Framing.new (Framing.streamOf
        [((ark [.accept 1, .fail (.other "unplugged")]).run coins greetedTwice).side.framing.writer.wire]) ⟨[], []⟩ :
        Framing Cobs.stuffing 512) results .terminated ∧ .ok none ∉ results := by
  have hsome : ((ark [.accept 1, .fail (.other "unplugged")]).run coins greetedTwice).side.framing.writer.wire ≠ [] := by
    decide +kernel
  refine ark_never_resets Cobs.stuffing_lawful coins [] [.accept 1, .fail (.other "unplugged")] (7 : Nat) attestation
    greetedTwice rfl ?_ ?_ ⟨[], []⟩
  · intro read hread
    rw [List.mem_singleton.mp hread]
    exact hsome
  · exact ⟨[], by rw [List.append_nil, List.flatten_singleton]; rfl⟩

/-! ### The host -/

namespace HostProc

variable {coins : Nat → Coins c} {p : HostProc c proto Info cobs maxFrameSize}

/-- An action that calls `handshake`. -/
def attempt (p : HostProc c proto Info cobs maxFrameSize) : HostAction c proto Info → Nat
  | .handshake _ => if p.call.isNone then 1 else 0
  | _ => 0

/-- One that comes to wait for the ArkHello. -/
def greeting (coins : Nat → Coins c) (p : HostProc c proto Info cobs maxFrameSize) : HostAction c proto Info → Nat
  | .handshake verifier => if p.call.isNone ∧ (p.step coins (.handshake verifier)).call.isSome then 1 else 0
  | _ => 0

/-- The calls of `handshake` in a run. -/
def attempts (coins : Nat → Coins c) (p : HostProc c proto Info cobs maxFrameSize) : List (HostAction c proto Info) → Nat
  | [] => 0
  | action :: actions => p.attempt action + attempts coins (p.step coins action) actions

/-- Those that come to wait for the ArkHello. -/
def greetings (coins : Nat → Coins c) (p : HostProc c proto Info cobs maxFrameSize) : List (HostAction c proto Info) → Nat
  | [] => 0
  | action :: actions => p.greeting coins action + greetings coins (p.step coins action) actions

theorem sendMessage_empties (hcobs : cobs.Lawful) (hf : p.side.framing.Wf) (req : proto.HostToArk) :
    empties 0 true (p.side.sendMessage proto req).2.framing.writer.wire = empties 0 true p.side.framing.writer.wire := by
  have hstep := sendThrough_step proto.hostToArk p.side.framing p.side.session req
  rw [HostSide.sendMessage]
  generalize p.side.session = session at hstep ⊢
  generalize sendThrough proto.hostToArk p.side.framing session req = outcome at hstep ⊢
  obtain ⟨result, framing, session'⟩ := outcome
  dsimp only at hstep ⊢
  cases hstep with
  | lost _ _ _ hsend => exact Framing.sendPacket_empties hcobs hf hsend
  | sent _ _ _ hsend => exact Framing.sendPacket_empties hcobs hf hsend
  | _ => rfl

theorem poll_empties (hcobs : cobs.Lawful) (hwf : p.Wf) {call : HostCall c Info} {discard : Nat}
    (hcall : p.call = some (call, discard)) :
    empties 0 true (p.poll coins call discard).2.side.framing.writer.wire = empties 0 true p.side.framing.writer.wire := by
  obtain ⟨hwriter, hpoll⟩ := Framing.nextPacketLoop_poll (hwf.at hcall)
  rcases hpacket : Framing.packetOf (p.side.framing.nextPacketLoop discard) with packet | discard' | _
  · rw [hpacket] at hpoll
    dsimp only at hpoll
    cases call with
    | handshake wait =>
        obtain ⟨flow, side, hstep, hsettle⟩ := poll_handshake coins p wait hpacket
        have hside : (settleHandshake p.history p.side.session (flow, side) :
            Option (Returned proto Info) × HostProc c proto Info cobs maxFrameSize).2.side = side := by
          cases flow <;> rfl
        rw [hsettle, hside, ← hwriter]
        cases hstep with
        | unanswered _ _ hsend => exact Framing.sendPacket_empties hcobs hpoll hsend
        | answered _ _ hsend => exact Framing.sendPacket_empties hcobs hpoll hsend
        | _ => rfl
    | nextMessage =>
        obtain ⟨result, side, hstep, hsettle⟩ := poll_message coins p hpacket
        rw [hsettle, settleMessage, ← hwriter]
        cases hstep <;> rfl
  · rw [poll_pending coins p call hpacket]
    dsimp only
    rw [hwriter]
  · rw [hpacket] at hpoll
    exact hpoll.elim

/-- A `handshake` writes the two zeros of its reset at most, both where it goes on. -/
theorem handshake_empties (hcobs : cobs.Lawful) (coins : Nat → Coins c) (hf : p.side.framing.Wf) (hcall : p.call = none)
    (verifier : Verifier c Info) :
    empties 0 true p.side.framing.writer.wire ≤
        empties 0 true (p.step coins (.handshake verifier)).side.framing.writer.wire ∧
      empties 0 true (p.step coins (.handshake verifier)).side.framing.writer.wire ≤
        empties 0 true p.side.framing.writer.wire + 2 ∧
      ((p.step coins (.handshake verifier)).call.isSome →
        empties 0 true p.side.framing.writer.wire <
          empties 0 true (p.step coins (.handshake verifier)).side.framing.writer.wire) := by
  obtain ⟨result, side, hstep, hafter⟩ := step_handshake coins hcall verifier
  obtain ⟨hless, hmost, hreset⟩ := Framing.sendReset_empties hf
  obtain ⟨_, _, hwf, _⟩ := Framing.sendReset_spec p.side.framing hf
  have hout : ∀ {result framing}, Transport.sendReset p.side.framing = (result, framing) →
      p.side.framing.sendReset = (result, framing) := id
  rw [hafter]
  dsimp only
  cases hstep with
  | unreset hsent =>
      rw [hout hsent] at hless hmost
      refine ⟨hless, hmost, ?_⟩
      intro hcalled
      cases hcalled
  | unencodable hsent =>
      rw [hout hsent] at hless hmost hreset
      exact ⟨hless, hmost, fun _ => hreset rfl⟩
  | unsent _ hsent _ hsend =>
      rw [hout hsent] at hless hmost hreset hwf
      rw [Framing.sendPacket_empties hcobs hwf hsend]
      exact ⟨hless, hmost, fun _ => hreset rfl⟩
  | started _ hsent _ hsend =>
      rw [hout hsent] at hless hmost hreset hwf
      rw [Framing.sendPacket_empties hcobs hwf hsend]
      exact ⟨hless, hmost, fun _ => hreset rfl⟩

theorem step_empties (hcobs : cobs.Lawful) (coins : Nat → Coins c) (hwf : p.Wf) (action : HostAction c proto Info) :
    empties 0 true p.side.framing.writer.wire + p.greeting coins action ≤
        empties 0 true (p.step coins action).side.framing.writer.wire ∧
      empties 0 true (p.step coins action).side.framing.writer.wire ≤
        empties 0 true p.side.framing.writer.wire + 2 * p.attempt action := by
  have hkept : empties 0 true (p.step coins action).side.framing.writer.wire = empties 0 true p.side.framing.writer.wire →
      p.greeting coins action = 0 →
      empties 0 true p.side.framing.writer.wire + p.greeting coins action ≤
          empties 0 true (p.step coins action).side.framing.writer.wire ∧
        empties 0 true (p.step coins action).side.framing.writer.wire ≤
          empties 0 true p.side.framing.writer.wire + 2 * p.attempt action := by
    intro hsame hnone
    rw [hsame, hnone]
    omega
  cases action with
  | arrive reads => exact hkept rfl rfl
  | plan answers => exact hkept rfl rfl
  | nextMessage =>
      refine hkept ?_ rfl
      rw [step]
      split <;> rfl
  | sendMessage req =>
      refine hkept ?_ rfl
      rw [step]
      split
      · exact sendMessage_empties hcobs hwf.framing req
      · rfl
  | poll =>
      refine hkept ?_ rfl
      rcases hcall : p.call with _ | ⟨call, discard⟩
      · rw [step, hcall]
      · rw [step_poll hcall, poll_empties hcobs hwf hcall]
  | handshake verifier =>
      rcases hcall : p.call with _ | ⟨call, discard⟩
      · obtain ⟨hless, hmost, hreset⟩ := handshake_empties hcobs coins hwf.framing hcall verifier
        rw [attempt, greeting, hcall]
        refine ⟨?_, hmost⟩
        split
        · rename_i hcalled
          exact hreset hcalled.2
        · exact hless
      · refine hkept ?_ ?_
        · rw [step, hcall]
        · rw [greeting, hcall]
          rfl

theorem run_empties (hcobs : cobs.Lawful) {e : Endpoint c proto.ArkToHost} (h : p.Abstracts coins e)
    (actions : List (HostAction c proto Info)) :
    empties 0 true p.side.framing.writer.wire + greetings coins p actions ≤
        empties 0 true (p.run coins actions).side.framing.writer.wire ∧
      empties 0 true (p.run coins actions).side.framing.writer.wire ≤
        empties 0 true p.side.framing.writer.wire + 2 * attempts coins p actions := by
  induction actions generalizing p e with
  | nil => exact ⟨Nat.le_refl _, Nat.le_refl _⟩
  | cons action actions ih =>
      obtain ⟨e', _, h'⟩ := step_abstracts hcobs h action
      obtain ⟨hless, hmost⟩ := ih h'
      obtain ⟨hgreeted, hattempted⟩ := step_empties hcobs coins h.wf action
      have hrun : p.run coins (action :: actions) = (p.step coins action).run coins actions := rfl
      rw [hrun, attempts, greetings]
      omega

end HostProc

/-- What a host writes, in any run and with any writer, comes out of a framer with a reset for each `handshake` that came to
wait for the ArkHello, and with no more than two for each that was called. No other action of the run adds one. -/
theorem host_resets (hcobs : cobs.Lawful) (coins : Nat → Coins c) (reader : Reader) (answers : List WriteEvent)
    (actions : List (HostAction c proto Info)) {start p : HostProc c proto Info cobs maxFrameSize}
    (hstart : start = .new reader ⟨[], answers⟩) (hp : p = start.run coins actions) {reads : List (List UInt8)}
    (hreads : ∀ read ∈ reads, read ≠ []) (hstream : reads.flatten = p.side.framing.writer.wire) (sink : Writer) :
    ∃ results, Framing.ReadsPackets (Framing.new (Framing.streamOf reads) sink : Framing cobs maxFrameSize) results
        .terminated ∧
      start.greetings coins actions ≤ results.countP Framing.isReset ∧
      results.countP Framing.isReset ≤ 2 * start.attempts coins actions ∧
      ∀ earlier action later, actions = earlier ++ action :: later → (start.run coins earlier).attempt action = 0 →
        ∃ resets, Framing.Resets cobs maxFrameSize (start.run coins earlier).side.framing.writer.wire resets ∧
          Framing.Resets cobs maxFrameSize ((start.run coins earlier).step coins action).side.framing.writer.wire
            resets := by
  have habstracts : start.Abstracts coins { session := none, wire := [], round := 0, history := .empty } := by
    rw [hstart]
    exact HostProc.new_abstracts coins reader ⟨[], answers⟩
  have hwire : empties 0 true start.side.framing.writer.wire = 0 := by
    rw [hstart]
    rfl
  obtain ⟨hless, hmost⟩ := HostProc.run_empties hcobs habstracts actions
  obtain ⟨results, hresults, hcount⟩ :=
    (Framing.readsPackets_resets hreads sink : ∃ results, Framing.ReadsPackets (_ : Framing cobs maxFrameSize) results _ ∧ _)
  rw [← hp, ← hstream] at hless hmost
  refine ⟨results, hresults, by omega, by omega, ?_⟩
  intro earlier action _ _ hattempt
  obtain ⟨_, _, hreached⟩ := HostProc.run_abstracts hcobs habstracts earlier
  obtain ⟨hgreeted, hattempted⟩ := HostProc.step_empties hcobs coins hreached.wf action
  have hkept : empties 0 true ((start.run coins earlier).step coins action).side.framing.writer.wire =
      empties 0 true (start.run coins earlier).side.framing.writer.wire := by
    omega
  refine ⟨_, Framing.resets_empties cobs maxFrameSize _, ?_⟩
  rw [← hkept]
  exact Framing.resets_empties cobs maxFrameSize _

namespace Reference

/-- A host whose writer fails behind the first zero. -/
def hostCut : HostProc crypto protocol (Attestation crypto) Cobs.stuffing 512 :=
  .new [] ⟨[], [.accept 1, .fail (.other "unplugged")]⟩

end Reference

open Reference in
/-- A handshake that is cut in its reset, one that waits for the ArkHello, and a look at the empty stream. -/
theorem host_resets_reference :
    (∃ results, Framing.ReadsPackets (Framing.new (Framing.streamOf
        [(hostCut.run coins (hostGreets ++ hostGreets ++ [.poll])).side.framing.writer.wire]) ⟨[], []⟩ :
        Framing Cobs.stuffing 512) results .terminated ∧ 1 ≤ results.countP Framing.isReset ∧
        results.countP Framing.isReset ≤ 2 * 2) ∧
      ∃ resets, Framing.Resets Cobs.stuffing 512 (hostCut.run coins (hostGreets ++ hostGreets)).side.framing.writer.wire
          resets ∧
        Framing.Resets Cobs.stuffing 512
          ((hostCut.run coins (hostGreets ++ hostGreets)).step coins .poll).side.framing.writer.wire resets := by
  have hsome : (hostCut.run coins (hostGreets ++ hostGreets ++ [.poll])).side.framing.writer.wire ≠ [] := by
    decide +kernel
  have hcounts : hostCut.greetings coins (hostGreets ++ hostGreets ++ [.poll]) = 1 ∧
      hostCut.attempts coins (hostGreets ++ hostGreets ++ [.poll]) = 2 := by
    decide +kernel
  have hreads : ∀ read ∈ [(hostCut.run coins (hostGreets ++ hostGreets ++ [.poll])).side.framing.writer.wire],
      read ≠ [] := by
    intro read hread
    rw [List.mem_singleton.mp hread]
    exact hsome
  obtain ⟨results, hresults, hless, hmost, hkept⟩ := host_resets Cobs.stuffing_lawful coins []
    [.accept 1, .fail (.other "unplugged")] (hostGreets ++ hostGreets ++ [.poll]) (rfl : hostCut = _) rfl hreads
    (by rw [List.flatten_singleton]) ⟨[], []⟩
  rw [hcounts.1] at hless
  rw [hcounts.2] at hmost
  exact ⟨⟨results, hresults, hless, hmost⟩, hkept (hostGreets ++ hostGreets) .poll [] rfl rfl⟩

end Sides

end DarkbioWire
