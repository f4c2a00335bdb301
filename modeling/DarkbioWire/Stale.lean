import DarkbioWire.Shut

/-!
# Stale frames in front of the ArkHello

While `handshake` waits for the ArkHello it reads packets and skips those that are not sealed to its fresh key. One poll
of the waiting call takes one frame (`WaitsFor.takes`), so the frames in front of the ArkHello are taken one by one. A
frame that does not decode is no packet to skip: `next_packet` fails with it, and the call with `next_packet`.
-/

namespace DarkbioWire

open Delimited Framing

variable {c : Crypto (List UInt8)} {proto : Protocol (List UInt8)} {Info : Type} {cobs : Cobs} {maxFrameSize : Nat}

/-- Frames as they are on the wire. -/
def delimited (frames : List (List UInt8)) : List UInt8 := frames.flatMap fun frame => frame ++ [0]

@[simp] theorem delimited_nil : delimited [] = [] := rfl

theorem delimited_cons (frame : List UInt8) (frames : List (List UInt8)) (rest : List UInt8) :
    delimited (frame :: frames) ++ rest = frame ++ 0 :: (delimited frames ++ rest) := by
  simp [delimited]

theorem History.noteSession_self {Msg : Type} (history : History c Msg) (session : Option (Session c))
    (wire : List UInt8) : history.noteSession session session wire = history := by
  cases session <;> rfl

namespace HostProc

/-- `handshake` waits for the ArkHello between two packets, these bytes in front of it. -/
structure WaitsFor (p : HostProc c proto Info cobs maxFrameSize) (wait : HelloWait c Info) (unread : List UInt8) :
    Prop where
  call : p.call = some (.handshake wait, 0)
  wf : p.side.framing.Wf
  unread : p.side.framing.unread = unread

/-- A process with the bytes of some frames read, and nothing else done. -/
def framed (p : HostProc c proto Info cobs maxFrameSize) (f : Framing cobs maxFrameSize) :
    HostProc c proto Info cobs maxFrameSize := { p with side := { p.side with framing := f } }

/-- The framer has read up to here, and is otherwise as it was. -/
structure ReadTo (f f' : Framing cobs maxFrameSize) (rest : List UInt8) : Prop where
  wf : f'.Wf
  unread : f'.unread = rest
  writer : f'.writer = f.writer
  stop : f'.reader.stop = f.reader.stop

variable {coins : Nat → Coins c} {p : HostProc c proto Info cobs maxFrameSize} {wait : HelloWait c Info}
  {frame rest : List UInt8}

theorem WaitsFor.takes (h : p.WaitsFor wait (frame ++ 0 :: rest)) (hclean : 0 ∉ frame)
    (hfit : frame.length ≤ maxFrameSize) :
    packetOf (p.side.framing.nextPacketLoop 0) = .ready (decodeFrame cobs maxFrameSize frame) ∧
      ReadTo p.side.framing (p.side.framing.nextPacketLoop 0).2 rest := by
  have hnext : next 0 maxFrameSize (decide (0 < 0)) p.side.framing.unread = some (frame, rest) := by
    rw [h.unread, next_append_sep hclean, if_neg (by simpa using hfit)]
  obtain ⟨hpacket, hwf, hwriter, hrest, hstop⟩ := nextPacketLoop_frame h.wf.wfAt hnext
  exact ⟨hpacket, hwf, hrest, hwriter, hstop⟩

section

variable {discard : Nat} {packet : Option (List UInt8)}

theorem poll_settles (coins : Nat → Coins c) (hcall : p.call = some (.handshake wait, discard))
    {received : Except Error (Option (List UInt8))}
    (hready : packetOf (p.side.framing.nextPacketLoop discard) = .ready received) :
    ∃ flow side, HostSide.HandshakeStep (coins p.side.draws) (p.framed (p.side.framing.nextPacketLoop discard).2).side wait
        received flow side ∧
      p.step coins .poll = (settleHandshake p.history p.side.session (flow, side)).2 ∧
      p.outcome coins .poll = (settleHandshake p.history p.side.session (flow, side)).1.map Returned.outcome := by
  obtain ⟨flow, side, hstep, hsettle⟩ := poll_handshake coins p wait hready
  refine ⟨flow, side, hstep, ?_, ?_⟩
  · rw [step_poll hcall, hsettle]
  · rw [poll_outcome hcall, hsettle]

theorem poll_skips (coins : Nat → Coins c) (hcall : p.call = some (.handshake wait, discard))
    (hready : packetOf (p.side.framing.nextPacketLoop discard) = .ready (.ok packet)) (hother : ¬ wait.Ours packet)
    (hlimit : wait.stale < MAX_STALE_FRAMES) :
    p.step coins .poll = { p.framed (p.side.framing.nextPacketLoop discard).2 with
        call := some (.handshake { wait with stale := wait.stale + 1 }, 0) } ∧
      p.outcome coins .poll = none := by
  obtain ⟨flow, side, hstep, hafter, houtcome⟩ := poll_settles coins hcall hready
  rw [hafter, houtcome]
  cases hstep with
  | skipped => exact ⟨rfl, rfl⟩
  | gaveUp _ hover => omega
  | rejected hours => exact absurd hours hother
  | unanswered hours => exact absurd hours hother
  | answered hours => exact absurd hours hother

theorem poll_gives_up (coins : Nat → Coins c) (hcall : p.call = some (.handshake wait, discard))
    (hready : packetOf (p.side.framing.nextPacketLoop discard) = .ready (.ok packet)) (hother : ¬ wait.Ours packet)
    (hlimit : wait.stale = MAX_STALE_FRAMES) :
    p.step coins .poll = { p.framed (p.side.framing.nextPacketLoop discard).2 with call := none } ∧
      p.outcome coins .poll =
        some (.handshake (.error (.handshakeFailed "too many stale frames before ark hello"))) := by
  obtain ⟨flow, side, hstep, hafter, houtcome⟩ := poll_settles coins hcall hready
  rw [hafter, houtcome]
  cases hstep with
  | skipped _ hle => omega
  | gaveUp =>
      rw [settleHandshake, show (p.framed (p.side.framing.nextPacketLoop discard).2).side.session = p.side.session from rfl,
        History.noteSession_self]
      exact ⟨rfl, rfl⟩
  | rejected hours => exact absurd hours hother
  | unanswered hours => exact absurd hours hother
  | answered hours => exact absurd hours hother

theorem poll_undecodable (coins : Nat → Coins c) (hcall : p.call = some (.handshake wait, discard)) {err : Error}
    (hready : packetOf (p.side.framing.nextPacketLoop discard) = .ready (.error err)) :
    (p.step coins .poll).call = none ∧ p.outcome coins .poll = some (.handshake (.error err)) := by
  obtain ⟨flow, side, hstep, hafter, houtcome⟩ := poll_settles coins hcall hready
  rw [hafter, houtcome]
  cases hstep
  exact ⟨rfl, rfl⟩

end

/-! ### Skipping them all -/

/-- The call goes on, poll by poll, until it decrypts this packet as the ArkHello, the bytes behind it unread. -/
def Decrypts (coins : Nat → Coins c) (p : HostProc c proto Info cobs maxFrameSize) (packet rest : List UInt8) : Prop :=
  ∃ polls wait discard, (p.run coins (List.replicate polls .poll)).call = some (.handshake wait, discard) ∧
    wait.Ours (some packet) ∧
    packetOf ((p.run coins (List.replicate polls .poll)).side.framing.nextPacketLoop discard) =
      .ready (.ok (some packet)) ∧
    ((p.run coins (List.replicate polls .poll)).side.framing.nextPacketLoop discard).2.unread = rest

/-- A frame of the kind a handshake finds in front of its ArkHello: of any contents but sealed to its fresh key. -/
structure StaleFrame (cobs : Cobs) (maxFrameSize : Nat) (wait : HelloWait c Info) (frame : List UInt8) : Prop where
  clean : 0 ∉ frame
  fits : frame.length ≤ maxFrameSize
  other : ∀ packet, decodeFrame cobs maxFrameSize frame = .ok packet → ¬ wait.Ours packet

variable {packet : List UInt8}

theorem run_poll (coins : Nat → Coins c) (p : HostProc c proto Info cobs maxFrameSize) (polls : Nat) :
    p.run coins (List.replicate (polls + 1) .poll) = (p.step coins .poll).run coins (List.replicate polls .poll) := by
  rw [List.replicate_succ]
  rfl

theorem run_poll_idle (hcall : p.call = none) (polls : Nat) : p.run coins (List.replicate polls .poll) = p := by
  induction polls with
  | zero => rfl
  | succ polls ih =>
      rw [run_poll, step, hcall]
      exact ih

theorem not_decrypts_idle (hcall : p.call = none) : ¬ p.Decrypts coins packet rest := by
  rintro ⟨polls, wait, discard, hwaits, _⟩
  rw [run_poll_idle hcall, hcall] at hwaits
  cases hwaits

/-- A call in front of something else than the packet decrypts it if the poll that follows leads there. -/
theorem decrypts_step (hcall : p.call = some (.handshake wait, 0))
    (hother : ∀ packet, packetOf (p.side.framing.nextPacketLoop 0) = .ready (.ok (some packet)) →
      ¬ wait.Ours (some packet)) :
    p.Decrypts coins packet rest ↔ (p.step coins .poll).Decrypts coins packet rest := by
  constructor
  · rintro ⟨polls, wait', discard, hwaits, hours, hpacket, hrest⟩
    cases polls with
    | zero =>
        change p.call = _ at hwaits
        rw [hcall] at hwaits
        cases hwaits
        exact absurd hours (hother packet hpacket)
    | succ polls =>
        rw [run_poll] at hwaits hpacket hrest
        exact ⟨polls, wait', discard, hwaits, hours, hpacket, hrest⟩
  · rintro ⟨polls, wait', discard, hwaits, hours, hpacket, hrest⟩
    rw [← run_poll] at hwaits hpacket hrest
    exact ⟨polls + 1, wait', discard, hwaits, hours, hpacket, hrest⟩

theorem WaitsFor.decrypts {hello : List UInt8} (h : p.WaitsFor wait (hello ++ 0 :: rest)) (hclean : 0 ∉ hello)
    (hfit : hello.length ≤ maxFrameSize) (hdecode : decodeFrame cobs maxFrameSize hello = .ok (some packet))
    (hours : wait.Ours (some packet)) : p.Decrypts coins packet rest := by
  obtain ⟨hpacket, hread⟩ := h.takes hclean hfit
  rw [hdecode] at hpacket
  exact ⟨0, wait, 0, h.call, hours, hpacket, hread.unread⟩

theorem WaitsFor.decrypts_iff_decodes {hello : List UInt8} {stale : List (List UInt8)}
    (h : p.WaitsFor wait (delimited stale ++ (hello ++ 0 :: rest))) (hclean : 0 ∉ hello)
    (hfit : hello.length ≤ maxFrameSize) (hdecode : decodeFrame cobs maxFrameSize hello = .ok (some packet))
    (hours : wait.Ours (some packet)) (hstale : ∀ frame ∈ stale, StaleFrame cobs maxFrameSize wait frame)
    (hlimit : wait.stale + stale.length ≤ MAX_STALE_FRAMES) :
    p.Decrypts coins packet rest ↔ ∀ frame ∈ stale, ∃ packet, decodeFrame cobs maxFrameSize frame = .ok packet := by
  induction stale generalizing p wait with
  | nil => exact iff_of_true (h.decrypts hclean hfit hdecode hours) (by simp)
  | cons frame stale ih =>
      rw [delimited_cons] at h
      obtain ⟨hframe, hlength, hother⟩ := hstale frame List.mem_cons_self
      rw [List.length_cons] at hlimit
      obtain ⟨hpacket, hread⟩ := h.takes hframe hlength
      have hstep : p.Decrypts coins packet rest ↔ (p.step coins .poll).Decrypts coins packet rest := by
        apply decrypts_step h.call
        intro packet' hpacket'
        rw [hpacket] at hpacket'
        exact hother (some packet') (Poll.ready.inj hpacket')
      rw [hstep]
      rcases @decodeFrame_cases cobs maxFrameSize frame with ⟨skipped, hskipped⟩ | ⟨err, herr⟩
      · rw [hskipped] at hpacket
        obtain ⟨hafter, _⟩ := poll_skips coins h.call hpacket (hother skipped hskipped) (by omega)
        have hnext : (p.step coins .poll).WaitsFor { wait with stale := wait.stale + 1 }
            (delimited stale ++ (hello ++ 0 :: rest)) := by
          rw [hafter]
          exact ⟨rfl, hread.wf, hread.unread⟩
        have hiff := ih hnext hours (fun frame hmem => ?_) (by change wait.stale + 1 + stale.length ≤ _; omega)
        · rw [hiff, List.forall_mem_cons]
          exact ⟨fun hall => ⟨⟨skipped, hskipped⟩, hall⟩, And.right⟩
        · obtain ⟨hframe', hlength', hother'⟩ := hstale frame (List.mem_cons_of_mem _ hmem)
          exact ⟨hframe', hlength', hother'⟩
      · rw [herr] at hpacket
        refine iff_of_false (not_decrypts_idle (poll_undecodable coins h.call hpacket).1) ?_
        intro hall
        obtain ⟨skipped, hskipped⟩ := hall frame List.mem_cons_self
        rw [herr] at hskipped
        cases hskipped

theorem handshake_waits (hcall : p.call = none) {verifier : Verifier c Info}
    (hwaits : (p.step coins (.handshake verifier)).call.isSome = true) :
    (p.step coins (.handshake verifier)).call =
        some (.handshake (HelloWait.mk verifier (c.xdsaGenerate (coins p.side.draws).first)
          (c.xhpkeGenerate (coins p.side.draws).second) 0), 0) ∧
      (p.step coins (.handshake verifier)).side.session = none := by
  obtain ⟨result, side, hstep, hafter⟩ := step_handshake coins hcall verifier
  rw [hafter] at hwaits ⊢
  cases hstep with
  | started hwait =>
      rw [← hwait]
      exact ⟨rfl, rfl⟩
  | _ => cases hwaits

theorem exists_decodeFrame_iff (cobs : Cobs) (maxFrameSize : Nat) (frame : List UInt8) :
    (∃ packet, decodeFrame cobs maxFrameSize frame = .ok packet) ↔
      frame = [] ∨ ∃ packet, cobs.decodeNonzero frame maxFrameSize = .ok packet := by
  rw [decodeFrame]
  by_cases hframe : frame = []
  · rw [if_pos hframe]
    exact iff_of_true ⟨none, rfl⟩ (Or.inl hframe)
  · rw [if_neg hframe]
    rcases cobs.decodeNonzero frame maxFrameSize with err | packet
    · simp [hframe]
    · exact iff_of_true ⟨some packet, rfl⟩ (Or.inr ⟨packet, rfl⟩)

/-- The frames in front of the ArkHello are all skipped if and only if each of them is empty or decodes. -/
theorem decrypts_iff (hcobs : cobs.Lawful) (coins : Nat → Coins c) (reader : Reader) (writer : Writer)
    (actions : List (HostAction c proto Info)) {p q : HostProc c proto Info cobs maxFrameSize}
    (hp : p = (new reader writer).run coins actions) (hcall : p.call = none) {verifier : Verifier c Info}
    (hq : q = p.step coins (.handshake verifier)) {discard : Nat} (hwaits : q.call = some (.handshake wait, discard))
    {stale : List (List UInt8)} (hlimit : stale.length ≤ MAX_STALE_FRAMES)
    (hstale : ∀ frame ∈ stale, StaleFrame cobs maxFrameSize wait frame) {hello : List UInt8} (hclean : 0 ∉ hello)
    (hfit : hello.length ≤ maxFrameSize) (hdecode : decodeFrame cobs maxFrameSize hello = .ok (some packet))
    (hours : wait.Ours (some packet)) (hunread : q.side.framing.unread = delimited stale ++ (hello ++ 0 :: rest)) :
    q.Decrypts coins packet rest ↔
      ∀ frame ∈ stale, frame = [] ∨ ∃ packet, cobs.decodeNonzero frame maxFrameSize = .ok packet := by
  obtain ⟨e, _, h⟩ := run_abstracts hcobs
    (new_abstracts coins reader writer : Abstracts coins (_ : HostProc c proto Info cobs maxFrameSize) _) actions
  rw [← hp] at h
  obtain ⟨e', _, h'⟩ := step_abstracts hcobs h (.handshake verifier)
  rw [← hq] at h'
  have hstarted := (@handshake_waits _ _ _ _ _ coins p hcall verifier (by rw [← hq, hwaits]; rfl)).1
  rw [← hq, hwaits] at hstarted
  cases hstarted
  have hwaitsFor : q.WaitsFor _ (delimited stale ++ (hello ++ 0 :: rest)) := ⟨hwaits, h'.wf.framing, hunread⟩
  rw [hwaitsFor.decrypts_iff_decodes hclean hfit hdecode hours hstale (by simpa using hlimit)]
  exact forall₂_congr fun frame _ => exists_decodeFrame_iff cobs maxFrameSize frame

end HostProc

namespace Reference

/-- The Ark's answer to the first HostHello of the host, as a frame and as a packet. -/
def arkHello : List UInt8 := ((ark []).run coins arkAnswers).side.framing.writer.wire.dropLast

def arkHelloPacket : List UInt8 := (Stuffing.decode arkHello).getD []

theorem arkHello_decodes : 0 ∉ arkHello ∧ arkHello.length ≤ 512 ∧
    decodeFrame Cobs.stuffing 512 arkHello = .ok (some arkHelloPacket) := by
  decide +kernel

/-- What the first handshake of the host waits with. -/
def helloWait : HelloWait crypto (Attestation crypto) :=
  ⟨Verifier.pinned (7 : Nat), crypto.xdsaGenerate (coins 0).first, crypto.xhpkeGenerate (coins 0).second, 0⟩

theorem arkHello_ours : helloWait.Ours (some arkHelloPacket) := by
  change crypto.coseRecipient arkHelloPacket = .ok (crypto.fingerprint helloWait.hostHello.hostCrypto)
  decide +kernel

/-- The host with frames queued in front of the answer. -/
def hostFinds (stale : List (List UInt8)) : HostProc crypto protocol (Attestation crypto) Cobs.stuffing 512 :=
  host.run coins [.arrive [.data (delimited stale ++ (arkHello ++ [0]))]]

/-- It has sent its HostHello. -/
def hostGreeting (stale : List (List UInt8)) : HostProc crypto protocol (Attestation crypto) Cobs.stuffing 512 :=
  (hostFinds stale).step coins (.handshake (Verifier.pinned (7 : Nat)))

theorem hostGreeting_waits {stale : List (List UInt8)} (h : (hostGreeting stale).call.isSome = true) :
    (hostGreeting stale).call = some (.handshake helloWait, 0) :=
  (HostProc.handshake_waits rfl h).1

theorem hostGreeting_wf (stale : List (List UInt8)) : (hostGreeting stale).side.framing.Wf := by
  obtain ⟨e, _, h⟩ := HostProc.run_abstracts Cobs.stuffing_lawful (HostProc.new_abstracts coins [] ⟨[], []⟩)
    [.arrive [.data (delimited stale ++ (arkHello ++ [0]))], .handshake (Verifier.pinned (7 : Nat))]
  exact h.wf.framing

theorem staleFrame_of_packet {frame : List UInt8} {packet : Option (List UInt8)} (hclean : 0 ∉ frame)
    (hfit : frame.length ≤ 512) (hdecode : decodeFrame Cobs.stuffing 512 frame = .ok packet)
    (hother : crypto.coseRecipient (packet.getD []) ≠ .ok (crypto.fingerprint helloWait.hostHello.hostCrypto)) :
    HostProc.StaleFrame Cobs.stuffing 512 helloWait frame := by
  refine ⟨hclean, hfit, fun packet' hdecode' => ?_⟩
  rw [hdecode] at hdecode'
  cases hdecode'
  exact hother

end Reference

open Reference in
/-- An empty frame and one of an empty packet in front of the ArkHello. -/
theorem decrypts_iff_reference : (hostGreeting [[], [1]]).Decrypts coins arkHelloPacket [] := by
  have hwaits : (hostGreeting [[], [1]]).call = some (.handshake helloWait, 0) :=
    hostGreeting_waits (by decide +kernel)
  have hstale : ∀ frame ∈ [[], [1]], HostProc.StaleFrame Cobs.stuffing 512 helloWait frame := by
    rw [List.forall_mem_cons, List.forall_mem_singleton]
    constructor
    · exact @staleFrame_of_packet [] none (by decide) (by decide) rfl (by decide +kernel)
    · exact @staleFrame_of_packet [1] (some []) (by decide) (by decide) (by decide +kernel) (by decide +kernel)
  obtain ⟨hclean, hfit, hdecode⟩ := arkHello_decodes
  refine (HostProc.decrypts_iff Cobs.stuffing_lawful coins [] ⟨[], []⟩ _ rfl rfl rfl hwaits (by decide) hstale hclean
    hfit hdecode arkHello_ours (by decide +kernel)).mpr ?_
  rw [List.forall_mem_cons, List.forall_mem_singleton]
  exact ⟨Or.inl rfl, Or.inr ⟨[], by decide +kernel⟩⟩

open Reference in
/-- The tail of a frame in front of the ArkHello is of the kind to skip, and the handshake fails with it. -/
theorem decrypts_iff_aborted :
    HostProc.StaleFrame Cobs.stuffing 512 helloWait [5, 1] ∧
      (hostGreeting [[5, 1]]).call = some (.handshake helloWait, 0) ∧
      (hostGreeting [[5, 1]]).side.framing.unread = delimited [[5, 1]] ++ (arkHello ++ 0 :: []) ∧
      (hostGreeting [[5, 1]]).outcome coins .poll =
        some (.handshake (.error (.frameDecodingFailed (.invalid "truncated block")))) ∧
      ¬ (hostGreeting [[5, 1]]).Decrypts coins arkHelloPacket [] := by
  have hwaits : (hostGreeting [[5, 1]]).call = some (.handshake helloWait, 0) := hostGreeting_waits (by decide +kernel)
  have hunread : (hostGreeting [[5, 1]]).side.framing.unread = delimited [[5, 1]] ++ (arkHello ++ 0 :: []) := by
    decide +kernel
  have hdecode : decodeFrame Cobs.stuffing 512 [5, 1] = .error (.frameDecodingFailed (.invalid "truncated block")) := by
    decide +kernel
  have hfront : (hostGreeting [[5, 1]]).WaitsFor helloWait ([5, 1] ++ 0 :: (arkHello ++ 0 :: [])) :=
    ⟨hwaits, hostGreeting_wf [[5, 1]], hunread⟩
  obtain ⟨htaken, _⟩ := hfront.takes (by decide) (by decide)
  rw [hdecode] at htaken
  obtain ⟨hcall, houtcome⟩ := HostProc.poll_undecodable coins hwaits htaken
  refine ⟨⟨by decide, by decide, ?_⟩, hwaits, hunread, houtcome, ?_⟩
  · rintro packet hpacket
    rw [hdecode] at hpacket
    cases hpacket
  · rw [HostProc.decrypts_step hwaits]
    · exact HostProc.not_decrypts_idle hcall
    · intro packet hpacket
      rw [htaken] at hpacket
      cases hpacket

end DarkbioWire
