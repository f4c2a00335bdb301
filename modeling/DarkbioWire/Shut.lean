import DarkbioWire.Reference.Crypto

/-!
# A host whose receive failed

A host without a session neither sends nor receives until a `handshake` gives it another. A receive that fails leaves it
without one on every way but one: an empty frame is reported like the decode failure it would have been, and leaves the
session as it was.
-/

namespace DarkbioWire

open Delimited Framing

variable {c : Crypto (List UInt8)} {proto : Protocol (List UInt8)} {Info : Type} {cobs : Cobs} {maxFrameSize : Nat}

namespace HostProc

/-- What a method of the host returned to its caller. -/
inductive Outcome (proto : Protocol (List UInt8)) (Info : Type)
  | handshake (result : Except Error Info)
  | nextMessage (result : Except Error proto.ArkToHost)
  | sendMessage (result : Except Error Unit)

/-- The waiting calls are those of two of the methods. -/
def Returned.outcome : Returned proto Info → Outcome proto Info
  | .handshake result => .handshake result
  | .nextMessage result => .nextMessage result

/-- What an action makes a method return, if it makes one return. -/
def outcome (coins : Nat → Coins c) (p : HostProc c proto Info cobs maxFrameSize) :
    HostAction c proto Info → Option (Outcome proto Info)
  | .arrive _ => none
  | .plan _ => none
  | .nextMessage => none
  | .handshake verifier =>
    match p.call with
    | none =>
      match (p.side.handshakeStart (coins p.side.draws) verifier).1 with
      | .error err => some (.handshake (.error err))
      | .ok _ => none
    | some _ => none
  | .poll =>
    match p.call with
    | none => none
    | some (call, discard) => (p.poll coins call discard).1.map Returned.outcome
  | .sendMessage req =>
    match p.call with
    | none => some (.sendMessage (p.side.sendMessage proto req).1)
    | some _ => none

/-- An action is the beginning or the poll of a `handshake`. -/
inductive Shakes (p : HostProc c proto Info cobs maxFrameSize) : HostAction c proto Info → Prop
  | start (verifier : Verifier c Info) : Shakes p (.handshake verifier)
  | poll {wait : HelloWait c Info} {discard : Nat} : p.call = some (.handshake wait, discard) → Shakes p .poll

/-- An action gets nothing through: where it makes `send_message` or `next_message` return, that is an error, and only a
`handshake` writes. -/
structure Refuses (coins : Nat → Coins c) (p : HostProc c proto Info cobs maxFrameSize) (action : HostAction c proto Info) :
    Prop where
  sendMessage : ∀ result, p.outcome coins action = some (.sendMessage result) → ∃ err, result = .error err
  nextMessage : ∀ result, p.outcome coins action = some (.nextMessage result) → ∃ err, result = .error err
  wire : ¬ p.Shakes action → (p.step coins action).side.framing.writer.wire = p.side.framing.writer.wire

/-- Some action of these makes a `handshake` return `Ok`. -/
def Reopens (coins : Nat → Coins c) (p : HostProc c proto Info cobs maxFrameSize) (actions : List (HostAction c proto Info)) :
    Prop :=
  ∃ before action after info, actions = before ++ action :: after ∧
    (p.run coins before).outcome coins action = some (.handshake (.ok info))

/-- A host has no session, and nothing gets through in any continuation until a `handshake` returns `Ok`. -/
def Shut (coins : Nat → Coins c) (p : HostProc c proto Info cobs maxFrameSize) : Prop :=
  p.side.session = none ∧ ∀ actions, ¬ p.Reopens coins actions → ∀ action, (p.run coins actions).Refuses coins action

variable {coins : Nat → Coins c} {p : HostProc c proto Info cobs maxFrameSize}

/-! ### Without a session -/

theorem step_shut (hnone : p.side.session = none) {action : HostAction c proto Info}
    (hopen : ∀ info, p.outcome coins action ≠ some (.handshake (.ok info))) :
    (p.step coins action).side.session = none := by
  cases action with
  | arrive reads => exact hnone
  | plan answers => exact hnone
  | nextMessage =>
      rw [step]
      split <;> exact hnone
  | handshake verifier =>
      rcases hcall : p.call with _ | call
      · obtain ⟨result, side, hstep, hafter⟩ := step_handshake coins hcall verifier
        rw [hafter]
        cases hstep <;> rfl
      · rw [step, hcall]
        exact hnone
  | sendMessage req =>
      rw [step]
      rcases hcall : p.call with _ | call
      · change (sendThrough proto.hostToArk p.side.framing p.side.session req).2.2 = none
        rw [hnone]
        rfl
      · exact hnone
  | poll =>
      rw [outcome] at hopen
      rw [step]
      rcases hcall : p.call with _ | ⟨call, discard⟩
      · exact hnone
      rw [hcall] at hopen
      dsimp only at hopen ⊢
      by_cases hwaits : ∃ packet, packetOf (p.side.framing.nextPacketLoop discard) = .ready packet
      · obtain ⟨packet, hpacket⟩ := hwaits
        cases call with
        | nextMessage =>
            obtain ⟨result, side, hstep, hsettle⟩ := poll_message coins p hpacket
            rw [hsettle]
            cases hstep with
            | opened hsome => exact absurd (hnone.symm.trans hsome) (by simp)
            | failed => rfl
            | empty => exact hnone
            | inactive => exact hnone
            | broken => rfl
        | handshake wait =>
            obtain ⟨flow, side, hstep, hsettle⟩ := poll_handshake coins p wait hpacket
            rw [hsettle] at hopen ⊢
            cases hstep with
            | answered => exact absurd rfl (hopen _)
            | _ => exact hnone
      · obtain ⟨_, _, _, hside⟩ := poll_waits coins p call fun packet hpacket => hwaits ⟨packet, hpacket⟩
        rw [hside]
        exact hnone

theorem run_shut (hnone : p.side.session = none) {actions : List (HostAction c proto Info)}
    (hshut : ¬ p.Reopens coins actions) : (p.run coins actions).side.session = none := by
  induction actions generalizing p with
  | nil => exact hnone
  | cons action actions ih =>
      refine ih (step_shut hnone fun info hopen => hshut ⟨[], action, actions, info, rfl, hopen⟩) ?_
      rintro ⟨before, next, after, info, rfl, hopen⟩
      exact hshut ⟨action :: before, next, after, info, rfl, hopen⟩

theorem refuses_idle {action : HostAction c proto Info} (houtcome : p.outcome coins action = none)
    (hstep : p.step coins action = p) : p.Refuses coins action := by
  refine ⟨fun result hresult => ?_, fun result hresult => ?_, fun _ => by rw [hstep]⟩
  · rw [houtcome] at hresult
    cases hresult
  · rw [houtcome] at hresult
    cases hresult

theorem sendMessage_refuses (hcall : p.call = none) (hnone : p.side.session = none) (req : proto.HostToArk) :
    p.Refuses coins (.sendMessage req) := by
  have hsend : p.side.sendMessage proto req =
      (.error (.encryptionFailed "no active session"), { p.side with session := none }) := by
    rw [HostSide.sendMessage, hnone]
    rfl
  have houtcome : p.outcome coins (.sendMessage req) =
      some (.sendMessage (.error (.encryptionFailed "no active session"))) := by
    rw [outcome, hcall]
    dsimp only
    rw [hsend]
  refine ⟨fun result hresult => ?_, fun result hresult => ?_, fun _ => ?_⟩
  · rw [houtcome] at hresult
    injection hresult with hresult
    injection hresult with hresult
    exact ⟨_, hresult.symm⟩
  · rw [houtcome] at hresult
    cases hresult
  · rw [step, hcall]
    dsimp only
    rw [hsend]

theorem poll_message_refuses {discard : Nat} (hwf : p.side.framing.WfAt discard) (hnone : p.side.session = none) :
    (∀ result, (p.poll coins .nextMessage discard).1 = some (.nextMessage result) → ∃ err, result = .error err) ∧
      (p.poll coins .nextMessage discard).2.side.framing.writer.wire = p.side.framing.writer.wire := by
  obtain ⟨hwriter, hpoll⟩ := nextPacketLoop_poll hwf
  rcases hpolled : packetOf (p.side.framing.nextPacketLoop discard) with packet | discard' | _
  · obtain ⟨result, side, hstep, hsettle⟩ := poll_message coins p hpolled
    rw [hsettle, ← hwriter]
    refine ⟨?_, by cases hstep <;> rfl⟩
    rintro _ ⟨⟩
    cases hstep with
    | opened hsome => exact absurd (hnone.symm.trans hsome) (by simp)
    | _ => exact ⟨_, rfl⟩
  · rw [poll_pending coins p .nextMessage hpolled]
    exact ⟨nofun, congrArg Writer.wire hwriter⟩
  · rw [hpolled] at hpoll
    exact hpoll.elim

theorem poll_handshake_ne (coins : Nat → Coins c) (p : HostProc c proto Info cobs maxFrameSize) (wait : HelloWait c Info)
    (discard : Nat) (result : Except Error proto.ArkToHost) :
    (p.poll coins (.handshake wait) discard).1 ≠ some (.nextMessage result) := by
  intro hresult
  by_cases hready : ∃ packet, packetOf (p.side.framing.nextPacketLoop discard) = .ready packet
  · obtain ⟨packet, hpacket⟩ := hready
    obtain ⟨flow, side, _, hsettle⟩ := poll_handshake coins p wait hpacket
    rw [hsettle] at hresult
    cases flow <;> cases hresult
  · rw [(poll_waits coins p _ fun packet hpacket => hready ⟨packet, hpacket⟩).1] at hresult
    cases hresult

theorem poll_outcome {call : HostCall c Info} {discard : Nat} (hcall : p.call = some (call, discard)) :
    p.outcome coins .poll = (p.poll coins call discard).1.map Returned.outcome := by
  rw [outcome, hcall]

/-- Whatever is called of a host without a session, it gets nothing through. -/
theorem refuses (hwf : p.Wf) (hnone : p.side.session = none) (action : HostAction c proto Info) :
    p.Refuses coins action := by
  cases action with
  | arrive reads => exact ⟨nofun, nofun, fun _ => rfl⟩
  | plan answers => exact ⟨nofun, nofun, fun _ => rfl⟩
  | nextMessage =>
      refine ⟨nofun, nofun, fun _ => ?_⟩
      rw [step]
      split <;> rfl
  | handshake verifier =>
      refine ⟨fun result hresult => ?_, fun result hresult => ?_, fun hshakes => absurd (.start verifier) hshakes⟩ <;>
        rw [outcome] at hresult <;> split at hresult <;> try cases hresult
      · split at hresult <;> cases hresult
      · split at hresult <;> cases hresult
  | sendMessage req =>
      rcases hcall : p.call with _ | call
      · exact sendMessage_refuses hcall hnone req
      · exact refuses_idle (by rw [outcome, hcall]) (by rw [step, hcall])
  | poll =>
      rcases hcall : p.call with _ | ⟨call, discard⟩
      · exact refuses_idle (by rw [outcome, hcall]) (by rw [step, hcall])
      have hmessage : ∀ result, p.outcome coins .poll = some (.nextMessage result) →
          (p.poll coins call discard).1 = some (.nextMessage result) := by
        intro result hresult
        rw [poll_outcome hcall] at hresult
        obtain ⟨returned, hpoll, hreturned⟩ := Option.map_eq_some_iff.mp hresult
        cases returned <;> cases hreturned
        exact hpoll
      refine ⟨fun result hresult => ?_, fun result hresult => ?_, fun hshakes => ?_⟩
      · rw [poll_outcome hcall] at hresult
        obtain ⟨returned, _, hreturned⟩ := Option.map_eq_some_iff.mp hresult
        cases returned <;> cases hreturned
      · cases call with
        | handshake wait => exact absurd (hmessage result hresult) (poll_handshake_ne coins p wait discard result)
        | nextMessage => exact (poll_message_refuses (hwf.at hcall) hnone).1 result (hmessage result hresult)
      · cases call with
        | handshake wait => exact absurd (.poll hcall) hshakes
        | nextMessage =>
            rw [step_poll hcall]
            exact (poll_message_refuses (hwf.at hcall) hnone).2

theorem shut_of_none (hcobs : cobs.Lawful) {e : Endpoint c proto.ArkToHost} (h : p.Abstracts coins e)
    (hnone : p.side.session = none) : p.Shut coins := by
  refine ⟨hnone, fun actions hshut action => ?_⟩
  obtain ⟨e', _, h'⟩ := run_abstracts hcobs h actions
  exact refuses h'.wf (run_shut hnone hshut) action

/-- Of all failures to receive only the one with an empty frame keeps a session. -/
theorem failed_keeps {side side' : HostSide c (Framing cobs maxFrameSize)} {packet : Except Error (Option (List UInt8))}
    {err : Error} (hstep : HostSide.MessageStep proto side packet (.error err) side')
    (hkind : (∃ cause, err = .frameDecodingFailed cause) ∨ ∃ message, err = .encryptionFailed message) :
    side'.session ≠ none ↔ side.session ≠ none ∧ packet = .ok none := by
  generalize hresult : (.error err : Except Error proto.ArkToHost) = result at hstep
  cases hstep with
  | failed => simp
  | empty => simp
  | inactive hnone => simp [hnone]
  | broken => simp
  | opened hsome hopen =>
      obtain ⟨message, rfl⟩ := Codec.deliver_ne _ _ hresult.symm
      obtain ⟨_, hkind⟩ | ⟨_, hkind⟩ := hkind <;> cases hkind

/-- A `next_message` that fails to receive leaves the host shut, unless it took an empty frame in a session. -/
theorem shut_iff (hcobs : cobs.Lawful) (coins : Nat → Coins c) (reader : Reader) (writer : Writer)
    (actions : List (HostAction c proto Info)) {p : HostProc c proto Info cobs maxFrameSize}
    (hp : p = (new reader writer).run coins actions) {discard : Nat} (hcall : p.call = some (.nextMessage, discard))
    {err : Error} (hfailed : p.outcome coins .poll = some (.nextMessage (.error err)))
    (hkind : (∃ cause, err = .frameDecodingFailed cause) ∨ ∃ message, err = .encryptionFailed message) :
    (p.step coins .poll).Shut coins ↔
      ¬ (p.side.session ≠ none ∧
        ∃ rest, next 0 maxFrameSize (decide (0 < discard)) p.side.framing.unread = some ([], rest)) := by
  obtain ⟨e, _, h⟩ := run_abstracts hcobs
    (new_abstracts coins reader writer : Abstracts coins (_ : HostProc c proto Info cobs maxFrameSize) _) actions
  rw [← hp] at h
  rw [poll_outcome hcall] at hfailed
  obtain ⟨returned, hpoll, hreturned⟩ := Option.map_eq_some_iff.mp hfailed
  have hready : ∃ packet, packetOf (p.side.framing.nextPacketLoop discard) = .ready packet := by
    by_contra hready
    rw [(poll_waits coins p .nextMessage fun packet hpacket => hready ⟨packet, hpacket⟩).1] at hpoll
    cases hpoll
  obtain ⟨packet, hpacket⟩ := hready
  obtain ⟨result, side, hstep, hsettle⟩ := poll_message coins p hpacket
  rw [hsettle] at hpoll
  obtain rfl := Option.some.inj hpoll
  injection hreturned with hresult
  subst hresult
  have hside : (p.step coins .poll).side = side := by
    rw [step_poll hcall, hsettle]
    rfl
  have hkeeps := failed_keeps hstep hkind
  rw [← Poll.ready.injEq, ← hpacket, nextPacketLoop_reset (h.wf.at hcall), ← hside] at hkeeps
  constructor
  · rintro ⟨hnone, _⟩ hempty
    exact hkeeps.mpr hempty hnone
  · intro hcondition
    obtain ⟨e', _, h'⟩ := step_abstracts hcobs h .poll
    exact shut_of_none hcobs h' (not_ne_iff.mp fun hsome => hcondition (hkeeps.mp hsome))

theorem nextMessage_arrive (hcall : p.call = none) (reads : List ReadEvent) :
    ((p.step coins .nextMessage).step coins (.arrive reads)).call = some (.nextMessage, 0) ∧
      ((p.step coins .nextMessage).step coins (.arrive reads)).side =
        { p.side with framing := p.side.framing.arrive reads } := by
  have hstep : p.step coins .nextMessage = { p with call := some (.nextMessage, 0) } := by rw [step, hcall]
  rw [hstep]
  exact ⟨rfl, rfl⟩

end HostProc

namespace Reference

/-- The host comes into the session. -/
def hostOpens : List (HostAction crypto protocol (Attestation crypto)) :=
  hostGreets ++ [.arrive (Reader.chunk ((ark []).run coins arkAnswers).side.framing.writer.wire), .poll]

/-- It calls `next_message`, and these bytes reach it. -/
def hostReads (bytes : List UInt8) : List (HostAction crypto protocol (Attestation crypto)) :=
  hostOpens ++ [.nextMessage, .arrive [.data bytes]]

/-- What a poll returns that fails to decode a frame. -/
def undecoded (p : HostProc crypto protocol (Attestation crypto) Cobs.stuffing 512) : Option DecodeError :=
  match p.outcome coins .poll with
  | some (.nextMessage (.error (.frameDecodingFailed err))) => some err
  | _ => none

theorem undecoded_outcome {p : HostProc crypto protocol (Attestation crypto) Cobs.stuffing 512} {err : DecodeError}
    (h : undecoded p = some err) : p.outcome coins .poll = some (.nextMessage (.error (.frameDecodingFailed err))) := by
  rw [undecoded] at h
  split at h
  · rename_i heq
    rw [heq, Option.some.inj h]
  · cases h

theorem hostReads_call (bytes : List UInt8) : (host.run coins (hostReads bytes)).call = some (.nextMessage, 0) := by
  have hnone : (host.run coins hostOpens).call = none := by
    rw [← Option.isNone_iff_eq_none]
    decide +kernel
  have hrun : host.run coins (hostReads bytes) =
      ((host.run coins hostOpens).step coins .nextMessage).step coins (.arrive [.data bytes]) := by
    rw [hostReads, HostProc.run, HostProc.run, List.foldl_append, List.foldl_cons, List.foldl_cons, List.foldl_nil]
  rw [hrun]
  exact (HostProc.nextMessage_arrive hnone _).1

end Reference

open Reference in
/-- A host in a session reads the tail of a frame. -/
theorem shut_iff_reference : ((host.run coins (hostReads [5, 1, 0])).step coins .poll).Shut coins := by
  have hunread : (host.run coins (hostReads [5, 1, 0])).side.framing.unread = [5, 1] ++ 0 :: [] := by
    decide +kernel
  have hfailed : undecoded (host.run coins (hostReads [5, 1, 0])) = some (.invalid "truncated block") := by
    decide +kernel
  refine (HostProc.shut_iff Cobs.stuffing_lawful coins [] ⟨[], []⟩ (hostReads [5, 1, 0]) rfl (hostReads_call _)
    (undecoded_outcome hfailed) (Or.inl ⟨_, rfl⟩)).mpr ?_
  rintro ⟨_, rest, hempty⟩
  rw [show HostProc.new [] ⟨[], []⟩ = host from rfl, hunread, next_append_sep (by decide), if_neg (by decide)] at hempty
  cases hempty

open Reference in
/-- The empty frame is reported as a frame that did not decode, and the session is still there. -/
theorem shut_iff_kept :
    (host.run coins (hostReads [0])).outcome coins .poll =
        some (.nextMessage (.error (.frameDecodingFailed .emptyInput))) ∧
      ¬ ((host.run coins (hostReads [0])).step coins .poll).Shut coins := by
  have hfailed : undecoded (host.run coins (hostReads [0])) = some .emptyInput := by decide +kernel
  refine ⟨undecoded_outcome hfailed, fun hshut => ?_⟩
  have hsome : ((host.run coins (hostReads [0])).step coins .poll).side.session.isSome = true := by decide +kernel
  rw [hshut.1] at hsome
  cases hsome

end DarkbioWire
