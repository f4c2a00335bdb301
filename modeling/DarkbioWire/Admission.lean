import DarkbioWire.Resets
import DarkbioWire.Stale
import Mathlib.Data.List.Induction

/-!
# Whom a host admits

Whatever bytes an Ark sends, a `handshake` of the host reads at most 33 frames of them, writes nothing before it has checked
an ArkHello, and returns (`handshake_concludes`). A host that holds a session has checked the ArkHello it comes from in the
last `handshake` it called, with the verifier of that call, and has sent the whole of its HostAck (`sessions_admitted`).
-/

namespace DarkbioWire

open Delimited Framing

variable {c : Crypto (List UInt8)} {proto : Protocol (List UInt8)} {Info : Type} {cobs : Cobs} {maxFrameSize : Nat}

/-- Where the reads end or fail, a `next_packet` returns; and they still do behind a packet. -/
theorem Framing.poll_stopped {f : Framing cobs maxFrameSize} {discard : Nat} (hf : f.WfAt discard)
    (hstop : f.reader.stop ≠ []) :
    ∃ packet, packetOf (f.nextPacketLoop discard) = .ready packet ∧
      ∀ ok, packet = .ok ok → (f.nextPacketLoop discard).2.reader.stop ≠ [] := by
  have hspec := (nextPacketLoop_spec hf).1
  rw [NextPacketSpec] at hspec
  split at hspec
  · obtain ⟨hready, _, hsame⟩ := hspec
    exact ⟨_, hready, fun _ _ => hsame ▸ hstop⟩
  · obtain ⟨discard', _, _, hend⟩ := hspec
    split at hend
    · rename_i hnil
      exact absurd hnil hstop
    · refine ⟨_, hend.1, ?_⟩
      intro ok hok
      cases hok
    · refine ⟨_, hend.1, ?_⟩
      intro ok hok
      cases hok

namespace HelloWait

/-- All that `handshake` checks of an ArkHello: it decrypts, the verifier takes the attestation in it for an identity, and
that identity has signed it. -/
def Checked (wait : HelloWait c Info) (packet : List UInt8) (verified : Verified c Info) : Prop :=
  ∃ sign1 unverified attestation,
    c.coseDecrypt packet wait.hostHello.auth.toCbor wait.hostXhpkeSk CRYPTO_DOMAIN_WIRE = .ok sign1 ∧
    c.cosePeek sign1 >>= ArkHello.ofCbor c = .ok unverified ∧
    Attestation.new c unverified.arkAttest = .ok attestation ∧
    wait.verifier attestation = .ok (verified.arkIdentity, verified.info) ∧
    c.coseVerify sign1 wait.hostHello.auth.toCbor verified.arkIdentity CRYPTO_DOMAIN_WIRE >>= ArkHello.ofCbor c =
      .ok verified.arkHello

variable {wait : HelloWait c Info} {coins : Coins c} {packet : List UInt8} {err : Error}

theorem openHello_error (h : wait.openHello packet = .error err) :
    err = .invalidAttestation ∨ ∃ message, err = .handshakeFailed message := by
  rw [openHello] at h
  split at h
  · exact Or.inr ⟨_, (Except.error.inj h).symm⟩
  split at h
  · exact Or.inr ⟨_, (Except.error.inj h).symm⟩
  split at h
  · rename_i hattestation
    rw [Attestation.new] at hattestation
    split at hattestation
    · cases hattestation
    · exact Or.inl ((Except.error.inj h).symm.trans (Except.error.inj hattestation).symm)
  split at h
  · exact Or.inr ⟨_, (Except.error.inj h).symm⟩
  split at h
  · exact Or.inr ⟨_, (Except.error.inj h).symm⟩
  · cases h

theorem answer_error (h : wait.answer coins packet = .error err) :
    err = .invalidAttestation ∨ ∃ message, err = .handshakeFailed message := by
  rw [answer] at h
  split at h
  · rename_i hopen
    exact Except.error.inj h ▸ openHello_error hopen
  split at h
  · rename_i hcontexts
    rw [contexts] at hcontexts
    split at hcontexts
    swap
    · exact Or.inr ⟨_, (Except.error.inj h).symm.trans (Except.error.inj hcontexts).symm⟩
    split at hcontexts
    · exact Or.inr ⟨_, (Except.error.inj h).symm.trans (Except.error.inj hcontexts).symm⟩
    split at hcontexts
    · exact Or.inr ⟨_, (Except.error.inj h).symm.trans (Except.error.inj hcontexts).symm⟩
    · cases hcontexts
  split at h
  · rename_i hseal
    rw [sealAck] at hseal
    split at hseal
    · exact Or.inr ⟨_, (Except.error.inj h).symm.trans (Except.error.inj hseal).symm⟩
    · cases hseal
  · cases h

end HelloWait

namespace HostProc

variable {coins : Nat → Coins c} {p : HostProc c proto Info cobs maxFrameSize} {wait : HelloWait c Info} {discard : Nat}

/-- The poll that comes next finds an ArkHello that is sealed to the key of this `handshake`, checks it, and makes of it this
session and this HostAck. -/
structure Admits (coins : Nat → Coins c) (p : HostProc c proto Info cobs maxFrameSize) (wait : HelloWait c Info)
    (packet : Option (List UInt8)) (verified : Verified c Info) (session : Session c) (ack : List UInt8) : Prop where
  waiting : ∃ discard, p.call = some (.handshake wait, discard) ∧
    packetOf (p.side.framing.nextPacketLoop discard) = .ready (.ok packet)
  ours : wait.Ours packet
  checked : wait.Checked (packet.getD c.empty) verified
  made : ∃ encH2a, wait.contexts (coins p.side.draws) verified.arkHello = .ok (session, encH2a) ∧
    wait.sealAck (coins p.side.draws) verified encH2a = .ok ack

/-- The errors of a `handshake` that waits for the ArkHello. -/
inductive Refusal : Error → Prop
  | terminated : Refusal .terminated
  | recvFailed (err : IoError) : Refusal (.recvFailed err)
  | frameDecodingFailed (err : DecodeError) : Refusal (.frameDecodingFailed err)
  | invalidAttestation : Refusal .invalidAttestation
  | handshakeFailed (message : String) : Refusal (.handshakeFailed message)
  | frameTooLarge (size : Nat) : Refusal (.frameTooLarge size)
  | frameEncodingFailed (err : String) : Refusal (.frameEncodingFailed err)
  | sendFailed (err : IoError) : Refusal (.sendFailed err)

/-- What a poll of a `handshake` leaves that returns: the session it admitted, with the whole HostAck written, or none. -/
structure Ends (coins : Nat → Coins c) (p : HostProc c proto Info cobs maxFrameSize) (wait : HelloWait c Info)
    (result : Except Error Info) : Prop where
  returns : p.outcome coins .poll = some (.handshake result)
  idle : (p.step coins .poll).call = none
  admitted : ∀ info, result = .ok info → ∃ packet verified session ack frame,
    p.Admits coins wait packet verified session ack ∧ info = verified.info ∧
    (p.step coins .poll).side.session = some session ∧ frameOf cobs maxFrameSize ack = .ok frame ∧
    (p.step coins .poll).side.framing.writer.wire = p.side.framing.writer.wire ++ (frame ++ [0])
  refused : ∀ err, result = .error err → (p.step coins .poll).side.session = none ∧ Refusal err

/-- A poll of a `handshake` goes on to the next frame, one more skipped, with nothing written and no session. -/
structure Skips (coins : Nat → Coins c) (p : HostProc c proto Info cobs maxFrameSize) (wait : HelloWait c Info) : Prop where
  few : wait.stale + 1 ≤ MAX_STALE_FRAMES
  waits : (p.step coins .poll).call = some (.handshake { wait with stale := wait.stale + 1 }, 0)
  session : (p.step coins .poll).side.session = none
  writer : (p.step coins .poll).side.framing.writer = p.side.framing.writer
  stop : (p.step coins .poll).side.framing.reader.stop ≠ []

/-- Where the reads end or fail, a poll of a `handshake` skips a frame or returns. -/
theorem poll_skips_or_ends (hcobs : cobs.Lawful) (coins : Nat → Coins c) (hwf : p.Wf) (hnone : p.side.session = none)
    (hcall : p.call = some (.handshake wait, discard)) (hstop : p.side.framing.reader.stop ≠ []) :
    p.Skips coins wait ∨ ∃ result, p.Ends coins wait result := by
  obtain ⟨packet, hready, hmore⟩ := Framing.poll_stopped (hwf.at hcall) hstop
  obtain ⟨hwriter, hpoll⟩ := Framing.nextPacketLoop_poll (hwf.at hcall)
  rw [hready] at hpoll
  obtain ⟨flow, side, hstep, hsettle⟩ := poll_handshake coins p wait hready
  have hafter : p.step coins .poll = (settleHandshake p.history p.side.session (flow, side)).2 := by
    rw [step_poll hcall, hsettle]
  have hreturned : p.outcome coins .poll =
      (settleHandshake p.history p.side.session (flow, side) :
        Option (Returned proto Info) × HostProc c proto Info cobs maxFrameSize).1.map Returned.outcome := by
    rw [outcome, hcall]
    dsimp only
    rw [hsettle]
  -- a handshake that is over without a session
  have hrefused : ∀ {err}, flow = .done (.error err) → side.session = none → Refusal err →
      ∃ result, p.Ends coins wait result := by
    rintro err rfl hsession hkind
    refine ⟨.error err, hreturned, by rw [hafter]; rfl, ?_, ?_⟩
    · intro info hinfo
      cases hinfo
    · intro err' herr
      obtain rfl := Except.error.inj herr
      rw [hafter]
      exact ⟨hsession, hkind⟩
  cases hstep with
  | failed =>
      refine Or.inr (hrefused rfl hnone ?_)
      rcases nextPacketLoop_error (hwf.at hcall) hready with rfl | ⟨cause, rfl⟩ | ⟨cause, rfl⟩
      · exact .terminated
      · exact .recvFailed cause
      · exact .frameDecodingFailed cause
  | skipped hother hfew =>
      refine Or.inl ⟨hfew, by rw [hafter]; rfl, by rw [hafter]; exact hnone, by rw [hafter]; exact hwriter, ?_⟩
      rw [hafter]
      exact hmore _ rfl
  | gaveUp => exact Or.inr (hrefused rfl hnone (.handshakeFailed _))
  | rejected _ hanswer =>
      refine Or.inr (hrefused rfl hnone ?_)
      rcases HelloWait.answer_error hanswer with rfl | ⟨message, rfl⟩
      · exact .invalidAttestation
      · exact .handshakeFailed message
  | unanswered _ _ hsend =>
      refine Or.inr (hrefused rfl hnone ?_)
      rcases sendPacket_error_kind hcobs hpoll hsend with ⟨size, rfl⟩ | ⟨cause, rfl⟩ | ⟨cause, rfl⟩
      · exact .frameTooLarge size
      · exact .frameEncodingFailed cause
      · exact .sendFailed cause
  | @answered packet verified session ack framing hours hanswer hsend =>
      obtain ⟨encH2a, hopen, hcontexts, hseal⟩ := HelloWait.answer_ok hanswer
      obtain ⟨frame, hframe, hwire, _⟩ := sendPacket_ok hcobs hpoll hsend
      refine Or.inr ⟨.ok verified.info, hreturned, by rw [hafter]; rfl, ?_, ?_⟩
      · rintro _ ⟨rfl⟩
        have hadmits : p.Admits coins wait packet verified session ack :=
          ⟨⟨discard, hcall, hready⟩, hours, HelloWait.openHello_ok hopen, encH2a, hcontexts, hseal⟩
        rw [hafter]
        exact ⟨packet, verified, session, ack, frame, hadmits, rfl, rfl, hframe, hwriter ▸ hwire⟩
      · intro err herr
        cases herr

/-- The process after so many polls. -/
def polled (coins : Nat → Coins c) (p : HostProc c proto Info cobs maxFrameSize) (n : Nat) :
    HostProc c proto Info cobs maxFrameSize := p.run coins (List.replicate n .poll)

theorem polled_succ (p : HostProc c proto Info cobs maxFrameSize) (n : Nat) :
    p.polled coins (n + 1) = (p.step coins .poll).polled coins n := rfl

/-- A `handshake` that waits skips this many frames, one with each poll, and ends with the next. -/
structure Concludes (coins : Nat → Coins c) (p : HostProc c proto Info cobs maxFrameSize) (wait : HelloWait c Info) (n : Nat)
    (result : Except Error Info) : Prop where
  few : wait.stale + n ≤ MAX_STALE_FRAMES
  skips : ∀ k < n, (p.polled coins k).Skips coins { wait with stale := wait.stale + k }
  ends : (p.polled coins n).Ends coins { wait with stale := wait.stale + n } result

theorem Concludes.now {result : Except Error Info} (hfew : wait.stale ≤ MAX_STALE_FRAMES) (h : p.Ends coins wait result) :
    p.Concludes coins wait 0 result where
  few := hfew
  skips := fun k hk => absurd hk (Nat.not_lt_zero k)
  ends := h

theorem Concludes.later {n : Nat} {result : Except Error Info} (hskips : p.Skips coins wait)
    (h : (p.step coins .poll).Concludes coins { wait with stale := wait.stale + 1 } n result) :
    p.Concludes coins wait (n + 1) result where
  few := by
    have hfew := h.few
    dsimp only at hfew
    omega
  skips := by
    intro k hk
    rcases k with _ | k
    · exact hskips
    · have hlater := h.skips k (Nat.lt_of_succ_lt_succ hk)
      rw [polled_succ, Nat.add_comm k 1, ← Nat.add_assoc]
      exact hlater
  ends := by
    have hends := h.ends
    rw [polled_succ, Nat.add_comm n 1, ← Nat.add_assoc]
    exact hends

theorem concludes (hcobs : cobs.Lawful) {e : Endpoint c proto.ArkToHost} (h : p.Abstracts coins e)
    (hcall : p.call = some (.handshake wait, discard)) (hfew : wait.stale ≤ MAX_STALE_FRAMES)
    (hstop : p.side.framing.reader.stop ≠ []) : ∃ n result, p.Concludes coins wait n result := by
  induction hleft : MAX_STALE_FRAMES - wait.stale generalizing p e wait discard with
  | zero =>
      rcases poll_skips_or_ends hcobs coins h.wf (h.waiting wait discard hcall).1 hcall hstop with hskips | ⟨result, hends⟩
      · have hmore := hskips.few
        omega
      · exact ⟨0, result, .now hfew hends⟩
  | succ left ih =>
      rcases poll_skips_or_ends hcobs coins h.wf (h.waiting wait discard hcall).1 hcall hstop with hskips | ⟨result, hends⟩
      · obtain ⟨e', _, h'⟩ := step_abstracts hcobs h .poll
        have hleft' : MAX_STALE_FRAMES - (wait.stale + 1) = left := by omega
        obtain ⟨n, result, hlater⟩ := ih h' hskips.waits hskips.few hskips.stop hleft'
        exact ⟨n + 1, result, .later hskips hlater⟩
      · exact ⟨0, result, .now hfew hends⟩

/-- A `handshake` that waits behind an action has just been begun, or waited before, for the same verifier and with the same
keys. -/
inductive WaitStep (coins : Nat → Coins c) (p : HostProc c proto Info cobs maxFrameSize) (action : HostAction c proto Info)
    (wait : HelloWait c Info) : Prop
  | begun (hcall : p.call = none) (haction : action = .handshake wait.verifier)
      (hxdsa : wait.hostXdsaSk = c.xdsaGenerate (coins p.side.draws).first)
      (hxhpke : wait.hostXhpkeSk = c.xhpkeGenerate (coins p.side.draws).second) (hstale : wait.stale = 0)
  | waited {stale discard : Nat} (hcall : p.call = some (.handshake { wait with stale }, discard))
      (hattempt : p.attempt action = 0) (hstale : stale = wait.stale ∨ wait.stale ≤ MAX_STALE_FRAMES)

theorem step_waits {action : HostAction c proto Info} (hafter : (p.step coins action).call = some (.handshake wait, discard)) :
    WaitStep coins p action wait := by
  have hsame : p.call = some (.handshake wait, discard) → p.attempt action = 0 → WaitStep coins p action wait :=
    fun hcall hnone => .waited hcall hnone (Or.inl rfl)
  cases action with
  | arrive reads => exact hsame hafter rfl
  | plan answers => exact hsame hafter rfl
  | nextMessage =>
      rw [step] at hafter
      split at hafter
      · cases hafter
      · exact hsame hafter rfl
  | sendMessage req =>
      rw [step] at hafter
      split at hafter
      · rename_i hcall
        cases hcall.symm.trans hafter
      · exact hsame hafter rfl
  | handshake verifier =>
      rcases hcall : p.call with _ | call
      · obtain ⟨result, side, hstep, hstarted⟩ := step_handshake coins hcall verifier
        rw [hstarted] at hafter
        cases hstep with
        | started hwait =>
            simp only [Except.toOption, Option.map_some, Option.some.injEq, Prod.mk.injEq, HostCall.handshake.injEq] at hafter
            obtain ⟨rfl, _⟩ := hafter
            subst hwait
            exact .begun hcall rfl rfl rfl rfl
        | _ => cases hafter
      · rw [step, hcall] at hafter
        refine hsame hafter ?_
        rw [attempt, hcall]
        rfl
  | poll =>
      rcases hcall : p.call with _ | ⟨call, discard'⟩
      · rw [step, hcall] at hafter
        cases hcall.symm.trans hafter
      rw [step_poll hcall] at hafter
      rcases hpacket : packetOf (p.side.framing.nextPacketLoop discard') with packet | discard'' | _
      · cases call with
        | handshake wait' =>
            obtain ⟨flow, side, hstep, hsettle⟩ := poll_handshake coins p wait' hpacket
            rw [hsettle] at hafter
            cases hstep with
            | skipped _ hfew =>
                simp only [settleHandshake, Option.some.injEq, Prod.mk.injEq, HostCall.handshake.injEq] at hafter
                obtain ⟨rfl, _⟩ := hafter
                exact .waited hcall rfl (Or.inr hfew)
            | _ => cases hafter
        | nextMessage =>
            obtain ⟨result, side, _, hsettle⟩ := poll_message coins p hpacket
            rw [hsettle] at hafter
            cases hafter
      · rw [poll_pending coins p call hpacket] at hafter
        simp only [Option.some.injEq, Prod.mk.injEq] at hafter
        obtain ⟨rfl, _⟩ := hafter
        exact .waited hcall rfl (Or.inl rfl)
      · rw [poll] at hafter
        dsimp only at hafter
        rw [hpacket] at hafter
        exact hsame hafter rfl

/-- A `handshake` under way has not skipped more frames than it may. -/
def Patient (p : HostProc c proto Info cobs maxFrameSize) : Prop :=
  ∀ wait discard, p.call = some (.handshake wait, discard) → wait.stale ≤ MAX_STALE_FRAMES

theorem step_patient (h : p.Patient) (action : HostAction c proto Info) : (p.step coins action).Patient := by
  intro wait discard hafter
  cases step_waits hafter with
  | begun _ _ _ _ hstale => exact hstale ▸ Nat.zero_le _
  | waited hcall _ hstale =>
      rcases hstale with rfl | hfew
      · exact h _ _ hcall
      · exact hfew

theorem run_patient (h : p.Patient) (actions : List (HostAction c proto Info)) : (p.run coins actions).Patient := by
  induction actions generalizing p with
  | nil => exact h
  | cons action actions ih => exact ih (step_patient h action)

end HostProc

/-- Whatever an Ark sends, once the reads end or fail: a `handshake` that waits for the ArkHello skips at most 32 frames,
writing nothing, and returns with the next one. -/
theorem handshake_concludes (hcobs : cobs.Lawful) (coins : Nat → Coins c) (reader : Reader) (writer : Writer)
    (actions : List (HostAction c proto Info)) {p : HostProc c proto Info cobs maxFrameSize}
    (hp : p = (HostProc.new reader writer).run coins actions) {wait : HelloWait c Info} {discard : Nat}
    (hcall : p.call = some (.handshake wait, discard)) (hstop : p.side.framing.reader.stop ≠ []) :
    ∃ n result, p.Concludes coins wait n result := by
  obtain ⟨e, _, h⟩ := HostProc.run_abstracts hcobs
    (HostProc.new_abstracts coins reader writer : HostProc.Abstracts coins (_ : HostProc c proto Info cobs maxFrameSize) _)
    actions
  have hpatient : p.Patient := by
    rw [hp]
    refine HostProc.run_patient ?_ actions
    intro wait discard hcall
    cases hcall
  rw [← hp] at h
  exact HostProc.concludes hcobs h hcall (hpatient wait discard hcall) hstop

namespace Reference

/-- The host begins in front of these reads. -/
def hostMeets (reads : List ReadEvent) : HostProc crypto protocol (Attestation crypto) Cobs.stuffing 512 :=
  (host.step coins (.arrive reads)).step coins (.handshake (Verifier.pinned (7 : Nat)))

theorem hostMeets_eq (reads : List ReadEvent) :
    hostMeets reads =
      (HostProc.new [] ⟨[], []⟩).run coins [.arrive reads, .handshake (Verifier.pinned (7 : Nat))] := rfl

theorem hostMeets_waits {reads : List ReadEvent} (h : (hostMeets reads).call.isSome = true) :
    (hostMeets reads).call = some (.handshake helloWait, 0) :=
  (HostProc.handshake_waits rfl h).1

/-- Two frames to skip and the ArkHello, where the stream ends. -/
def arkStops : List ReadEvent := [.data (delimited [[], [1]] ++ (arkHello ++ [0])), .data []]

end Reference

open Reference in
theorem handshake_concludes_reference : ∃ n result, (hostMeets arkStops).Concludes coins helloWait n result := by
  have hsome : (hostMeets arkStops).call.isSome = true := by decide +kernel
  have hstop : (hostMeets arkStops).side.framing.reader.stop ≠ [] := by decide +kernel
  have hcall := hostMeets_waits hsome
  exact handshake_concludes Cobs.stuffing_lawful coins [] ⟨[], []⟩ _ (hostMeets_eq arkStops) hcall hstop

/-! ### Where a session comes from -/

/-- Two states of one session: the channels are the same, the sequence numbers need not be. -/
def Session.SameChannels (hpke : Contexts c) (before after : Session c) : Prop :=
  hpke.recvChannel after.receiver = hpke.recvChannel before.receiver ∧
    hpke.sendChannel after.sender = hpke.sendChannel before.sender

theorem Session.SameChannels.refl (hpke : Contexts c) (session : Session c) : SameChannels hpke session session :=
  ⟨rfl, rfl⟩

theorem Session.SameChannels.trans {hpke : Contexts c} {first second third : Session c} (h : SameChannels hpke first second)
    (h' : SameChannels hpke second third) : SameChannels hpke first third :=
  ⟨h'.1.trans h.1, h'.2.trans h.2⟩

theorem SendStep.same_channels {T M : Type} [Transport T (List UInt8)] (hpke : Contexts c) {codec : Codec (List UInt8) M}
    {framing framing' : T} {msg : M} {held left : Option (Session c)} {result : Except Error Unit} {session : Session c}
    (h : SendStep codec framing msg held result framing' left) (hsession : left = some session) :
    ∃ before, held = some before ∧ before.SameChannels hpke session := by
  cases h with
  | inactive => cases hsession
  | tooLarge =>
      obtain rfl := Option.some.inj hsession
      exact ⟨_, rfl, .refl hpke _⟩
  | unencodable =>
      obtain rfl := Option.some.inj hsession
      exact ⟨_, rfl, .refl hpke _⟩
  | unsealed => cases hsession
  | lost => cases hsession
  | sent _ _ hseal =>
      obtain rfl := Option.some.inj hsession
      exact ⟨_, rfl, rfl, (hpke.senderSeal_spec hseal).1⟩

namespace HostProc

variable {coins : Nat → Coins c} {p start : HostProc c proto Info cobs maxFrameSize} {wait : HelloWait c Info}
  {actions : List (HostAction c proto Info)}

theorem run_concat (p : HostProc c proto Info cobs maxFrameSize) (actions : List (HostAction c proto Info))
    (action : HostAction c proto Info) : p.run coins (actions ++ [action]) = (p.run coins actions).step coins action :=
  List.foldl_append

theorem attempts_concat (p : HostProc c proto Info cobs maxFrameSize) (actions : List (HostAction c proto Info))
    (action : HostAction c proto Info) :
    p.attempts coins (actions ++ [action]) = p.attempts coins actions + (p.run coins actions).attempt action := by
  induction actions generalizing p with
  | nil => exact (Nat.zero_add _).symm
  | cons first actions ih => rw [List.cons_append, attempts, attempts, ih, Nat.add_assoc]; rfl

/-- The `handshake` that waits with this was called in these actions, with this verifier and fresh keys, and none since. -/
def Begun (coins : Nat → Coins c) (start : HostProc c proto Info cobs maxFrameSize)
    (actions : List (HostAction c proto Info)) (wait : HelloWait c Info) : Prop :=
  ∃ before after, actions = before ++ .handshake wait.verifier :: after ∧ (start.run coins before).call = none ∧
    wait.hostXdsaSk = c.xdsaGenerate (coins (start.run coins before).side.draws).first ∧
    wait.hostXhpkeSk = c.xhpkeGenerate (coins (start.run coins before).side.draws).second ∧
    ((start.run coins before).step coins (.handshake wait.verifier)).attempts coins after = 0

/-- A session that this poll admits, with all of its HostAck written. -/
def Establishes (coins : Nat → Coins c) (p : HostProc c proto Info cobs maxFrameSize) (wait : HelloWait c Info)
    (session : Session c) : Prop :=
  ∃ packet verified ack frame, p.Admits coins wait packet verified session ack ∧
    frameOf cobs maxFrameSize ack = .ok frame ∧
    (p.step coins .poll).side.framing.writer.wire = p.side.framing.writer.wire ++ (frame ++ [0])

theorem sendMessage_session (hpke : Contexts c) {req : proto.HostToArk} {session : Session c}
    (hsession : (p.side.sendMessage proto req).2.session = some session) :
    ∃ before, p.side.session = some before ∧ before.SameChannels hpke session ∧ p.attempt (.sendMessage req) = 0 := by
  obtain ⟨before, hbefore, hsame⟩ :=
    (sendThrough_step proto.hostToArk p.side.framing p.side.session req).same_channels hpke hsession
  exact ⟨before, hbefore, hsame, rfl⟩

theorem step_session (hcobs : cobs.Lawful) (hpke : Contexts c) (hwf : p.Wf) {action : HostAction c proto Info}
    {session : Session c} (hsession : (p.step coins action).side.session = some session) :
    (∃ before, p.side.session = some before ∧ before.SameChannels hpke session ∧ p.attempt action = 0) ∨
      action = .poll ∧ ∃ wait, p.Establishes coins wait session := by
  have hkept : p.side.session = some session → p.attempt action = 0 →
      ∃ before, p.side.session = some before ∧ before.SameChannels hpke session ∧ p.attempt action = 0 :=
    fun hsame hnone => ⟨session, hsame, .refl hpke session, hnone⟩
  cases action with
  | arrive reads => exact Or.inl (hkept hsession rfl)
  | plan answers => exact Or.inl (hkept hsession rfl)
  | nextMessage =>
      rw [step] at hsession
      split at hsession <;> exact Or.inl (hkept hsession rfl)
  | handshake verifier =>
      rcases hcall : p.call with _ | call
      · obtain ⟨result, side, hstep, hafter⟩ := step_handshake coins hcall verifier
        rw [hafter] at hsession
        cases hstep <;> cases hsession
      · rw [step, hcall] at hsession
        refine Or.inl (hkept hsession ?_)
        rw [attempt, hcall]
        rfl
  | sendMessage req =>
      rw [step] at hsession
      split at hsession
      · exact Or.inl (sendMessage_session hpke hsession)
      · exact Or.inl (hkept hsession rfl)
  | poll =>
      rcases hcall : p.call with _ | ⟨call, discard⟩
      · rw [step, hcall] at hsession
        exact Or.inl (hkept hsession rfl)
      obtain ⟨hwriter, hpoll⟩ := Framing.nextPacketLoop_poll (hwf.at hcall)
      have hafter : p.step coins .poll = (p.poll coins call discard).2 := step_poll hcall
      rcases hpacket : packetOf (p.side.framing.nextPacketLoop discard) with packet | discard' | _
      · rw [hpacket] at hpoll
        cases call with
        | handshake wait =>
            obtain ⟨flow, side, hstep, hsettle⟩ := poll_handshake coins p wait hpacket
            have hside : (settleHandshake p.history p.side.session (flow, side) :
                Option (Returned proto Info) × HostProc c proto Info cobs maxFrameSize).2.side = side := by
              cases flow <;> rfl
            rw [hafter, hsettle, hside] at hsession
            cases hstep with
            | @answered packet verified made ack framing hours hanswer hsend =>
                obtain rfl := Option.some.inj hsession
                obtain ⟨encH2a, hopen, hcontexts, hseal⟩ := HelloWait.answer_ok hanswer
                obtain ⟨frame, hframe, hwire, _⟩ := sendPacket_ok hcobs hpoll hsend
                have hadmits : p.Admits coins wait packet verified made ack :=
                  ⟨⟨discard, hcall, hpacket⟩, hours, HelloWait.openHello_ok hopen, encH2a, hcontexts, hseal⟩
                refine Or.inr ⟨rfl, wait, packet, verified, ack, frame, hadmits, hframe, ?_⟩
                rw [hafter, hsettle, hside, ← hwriter]
                exact hwire
            | _ => exact Or.inl (hkept hsession rfl)
        | nextMessage =>
            obtain ⟨result, side, hstep, hsettle⟩ := poll_message coins p hpacket
            rw [hafter, hsettle, settleMessage] at hsession
            dsimp only at hsession
            cases hstep with
            | failed => cases hsession
            | broken => cases hsession
            | @opened packet before payload receiver hbefore hopen =>
                obtain rfl := Option.some.inj hsession
                exact Or.inl ⟨before, hbefore, ⟨(hpke.receiverOpen_spec hopen).1, rfl⟩, rfl⟩
            | _ => exact Or.inl (hkept hsession rfl)
      · rw [hafter, poll_pending coins p call hpacket] at hsession
        exact Or.inl (hkept hsession rfl)
      · rw [hpacket] at hpoll
        exact hpoll.elim

theorem Begun.extend (h : Begun coins start actions wait) {action : HostAction c proto Info}
    (hnone : (start.run coins actions).attempt action = 0) : Begun coins start (actions ++ [action]) wait := by
  obtain ⟨before, after, rfl, hcall, hxdsa, hxhpke, hattempts⟩ := h
  refine ⟨before, after ++ [action], by rw [List.append_assoc]; rfl, hcall, hxdsa, hxhpke, ?_⟩
  have hrun : start.run coins (before ++ HostAction.handshake wait.verifier :: after) =
      ((start.run coins before).step coins (.handshake wait.verifier)).run coins after := List.foldl_append
  rw [hrun] at hnone
  rw [attempts_concat, hattempts, hnone]

theorem run_begun (hidle : start.call = none) {discard : Nat}
    (hcall : (start.run coins actions).call = some (.handshake wait, discard)) : Begun coins start actions wait := by
  induction actions using List.reverseRecOn generalizing wait discard with
  | nil => cases hidle.symm.trans hcall
  | append_singleton actions action ih =>
      rw [run_concat] at hcall
      cases step_waits hcall with
      | begun hnone haction hxdsa hxhpke _ => exact ⟨actions, [], by rw [haction], hnone, hxdsa, hxhpke, rfl⟩
      | waited hbefore hattempt _ =>
          obtain ⟨before, after, hactions, hbegun⟩ := (ih hbefore).extend hattempt
          exact ⟨before, after, hactions, hbegun⟩

end HostProc

/-- A host that holds a session called `handshake` with a verifier, and no other since; a poll of that call found an ArkHello
sealed to its fresh key, which decrypted, with an attestation that this verifier took for an identity, signed by that
identity over the keys of the call; it made this session of its keys and wrote the whole HostAck. -/
theorem sessions_admitted (hcobs : cobs.Lawful) (hpke : Contexts c) (coins : Nat → Coins c) (reader : Reader) (writer : Writer)
    (actions : List (HostAction c proto Info)) {start : HostProc c proto Info cobs maxFrameSize}
    (hstart : start = .new reader writer) {session : Session c}
    (hsession : (start.run coins actions).side.session = some session) :
    ∃ before after wait made, actions = before ++ .poll :: after ∧ HostProc.Begun coins start before wait ∧
      (start.run coins before).Establishes coins wait made ∧
      ((start.run coins before).step coins .poll).attempts coins after = 0 ∧ made.SameChannels hpke session := by
  have habstracts : start.Abstracts coins { session := none, wire := writer.wire, round := 0, history := .empty } := by
    rw [hstart]
    exact HostProc.new_abstracts coins reader writer
  have hidle : start.call = none := by
    rw [hstart]
    rfl
  induction actions using List.reverseRecOn generalizing session with
  | nil =>
      rw [hstart] at hsession
      cases hsession
  | append_singleton actions action ih =>
      obtain ⟨e, _, h⟩ := HostProc.run_abstracts hcobs habstracts actions
      rw [HostProc.run_concat] at hsession
      rcases HostProc.step_session hcobs hpke h.wf hsession with ⟨held, hheld, hsame, hattempt⟩ | ⟨rfl, wait, hestablishes⟩
      · obtain ⟨before, after, wait, made, rfl, hbegun, hestablishes, hattempts, hmade⟩ := ih hheld
        refine ⟨before, after ++ [action], wait, made, List.append_assoc _ _ _, hbegun, hestablishes, ?_, hmade.trans hsame⟩
        have hrun : start.run coins (before ++ .poll :: after) =
            ((start.run coins before).step coins .poll).run coins after := List.foldl_append
        rw [hrun] at hattempt
        rw [HostProc.attempts_concat, hattempts, hattempt]
      · obtain ⟨packet, verified, ack, frame, hadmits, hrest⟩ := hestablishes
        obtain ⟨discard, hcall, _⟩ := hadmits.waiting
        exact ⟨actions, [], wait, session, rfl, HostProc.run_begun hidle hcall,
          ⟨packet, verified, ack, frame, hadmits, hrest⟩, rfl, .refl hpke session⟩

open Reference in
/-- The host that has come into a session with the Ark. -/
theorem sessions_admitted_reference :
    ∃ session, (host.run coins hostOpens).side.session = some session ∧
      ∃ before after wait made, hostOpens = before ++ .poll :: after ∧ HostProc.Begun coins host before wait ∧
        (host.run coins before).Establishes coins wait made ∧
        ((host.run coins before).step coins .poll).attempts coins after = 0 ∧ made.SameChannels contexts session := by
  have hsome : (host.run coins hostOpens).side.session.isSome := by decide +kernel
  obtain ⟨session, hsession⟩ := Option.isSome_iff_exists.mp hsome
  exact ⟨session, hsession, sessions_admitted Cobs.stuffing_lawful contexts coins [] ⟨[], []⟩ hostOpens (rfl : host = _) hsession⟩

end DarkbioWire
