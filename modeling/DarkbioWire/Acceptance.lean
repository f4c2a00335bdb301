import DarkbioWire.Admission
import DarkbioWire.Lib.Onset
import DarkbioWire.Serving

/-!
# Whom an Ark serves

An Ark that holds a session owes it to one host: an empty frame took its call into the handshake, the call answered a HostHello
there with the attestation of that moment, and the next packet it read was the HostAck that completed the session, signed with
the key of that HostHello. Nothing has taken the session since (`sessions_acknowledged`).
-/

namespace DarkbioWire

open Framing Onset

variable {c : Crypto (List UInt8)} {proto : Protocol (List UInt8)} {A : Type} [Attester c A] {cobs : Cobs}
  {maxFrameSize : Nat}

namespace ArkProc

variable {coins : Nat → Coins c} {p start : ArkProc c proto A cobs maxFrameSize} {action : ArkAction proto}
  {actions : List (ArkAction proto)} {point : MessagePoint c}

/-! ### Where a call waits -/

/-- A call that waits behind an action waited there before, or was just called, or a poll took it there with the result of a
`next_packet`. -/
inductive Reaches (coins : Nat → Coins c) (p : ArkProc c proto A cobs maxFrameSize) (action : ArkAction proto)
    (point : MessagePoint c) : Prop
  | stayed {discard : Nat} (hcall : p.call = some (point, discard))
  | called (haction : action = .nextMessage) (hpoint : point = .packet)
  | polled {before : MessagePoint c} {discard : Nat} {packet : Except Error (Option (List UInt8))}
      {side : ArkSide c A (Framing cobs maxFrameSize)} (haction : action = .poll) (hcall : p.call = some (before, discard))
      (hpacket : packetOf (p.side.framing.nextPacketLoop discard) = .ready packet)
      (hstep : ArkSide.Step proto (coins p.side.draws)
        ({ p.side with framing := (p.side.framing.nextPacketLoop discard).2 } : ArkSide c A (Framing cobs maxFrameSize))
        before packet (.wait point) side)
      (hside : (p.step coins .poll).side = side)

theorem step_reaches {discard : Nat} (hafter : (p.step coins action).call = some (point, discard)) :
    p.Reaches coins action point := by
  cases action with
  | arrive reads => exact .stayed hafter
  | plan answers => exact .stayed hafter
  | nextMessage =>
      rw [step] at hafter
      split at hafter
      · simp only [Option.some.injEq, Prod.mk.injEq] at hafter
        exact .called rfl hafter.1.symm
      · exact .stayed hafter
  | sendMessage res =>
      rw [step] at hafter
      split at hafter
      · rename_i hcall
        cases hcall.symm.trans hafter
      · exact .stayed hafter
  | poll =>
      rcases hcall : p.call with _ | ⟨before, discard'⟩
      · rw [step, hcall] at hafter
        cases hcall.symm.trans hafter
      rw [step_poll hcall] at hafter
      rcases hpacket : packetOf (p.side.framing.nextPacketLoop discard') with packet | discard'' | _
      · obtain ⟨flow, side, hstep, hsettle⟩ := poll_ready coins p before hpacket
        rw [hsettle] at hafter
        cases flow with
        | wait point' =>
            simp only [settle, Option.some.injEq, Prod.mk.injEq] at hafter
            obtain ⟨rfl, _⟩ := hafter
            exact .polled rfl hcall hpacket hstep (by rw [step_poll hcall, hsettle, settle_side])
        | done result => cases hafter
      · rw [poll_pending coins p before hpacket] at hafter
        simp only [Option.some.injEq, Prod.mk.injEq] at hafter
        obtain ⟨rfl, _⟩ := hafter
        exact .stayed hcall
      · rw [poll] at hafter
        dsimp only at hafter
        rw [hpacket] at hafter
        exact .stayed hafter

/-- The call is in the handshake. -/
def Handshaking (p : ArkProc c proto A cobs maxFrameSize) : Prop :=
  ∃ point discard, p.call = some (.handshake point, discard)

/-- The call waits for the HostAck to this answer. -/
def Expects (wait : AckWait c) (p : ArkProc c proto A cobs maxFrameSize) : Prop :=
  ∃ discard, p.call = some (.handshake (.ack wait), discard)

/-- The poll that comes next finds a HostHello in the handshake and answers it, with all of the ArkHello written. -/
structure Replies (coins : Nat → Coins c) (p : ArkProc c proto A cobs maxFrameSize) (wait : AckWait c) (request : List UInt8)
    (arkHello : ArkHello c) (answer : List UInt8) : Prop where
  waiting : ∃ discard, p.call = some (.handshake .hello, discard) ∧
    packetOf (p.side.framing.nextPacketLoop discard) = .ready (.ok (some request))
  answers : ArkSide.Answers (coins p.side.draws) p.side request wait arkHello answer
  written : ∃ frame, frameOf cobs maxFrameSize answer = .ok frame ∧
    (p.step coins .poll).side.framing.writer.wire = p.side.framing.writer.wire ++ (frame ++ [0])

theorem step_handshaking (hafter : (p.step coins action).Handshaking) :
    p.Handshaking ∨ action = .poll ∧ p.Resets := by
  obtain ⟨point, discard, hcall⟩ := hafter
  cases step_reaches hcall with
  | stayed hcall => exact Or.inl ⟨point, _, hcall⟩
  | called _ hpoint => cases hpoint
  | @polled before discard' packet side haction hcall hpacket hstep _ =>
      rcases before with _ | before
      · generalize hflow : (.wait (.handshake point) : Flow (MessagePoint c) proto.HostToArk) = flow at hstep
        cases hstep with
        | reset => exact Or.inr ⟨haction, _, _, hcall, hpacket⟩
        | _ => cases hflow
      · exact Or.inl ⟨before, discard', hcall⟩

theorem step_expects (hcobs : cobs.Lawful) (hwf : p.Wf) {wait : AckWait c} (hafter : (p.step coins action).Expects wait) :
    p.Expects wait ∨ action = .poll ∧ ∃ request arkHello answer, p.Replies coins wait request arkHello answer := by
  obtain ⟨discard, hcall⟩ := hafter
  cases step_reaches hcall with
  | stayed hcall => exact Or.inl ⟨_, hcall⟩
  | called _ hpoint => cases hpoint
  | @polled before discard' packet side haction hcall hpacket hstep hside =>
      obtain ⟨hwriter, hpoll⟩ := Framing.nextPacketLoop_poll (hwf.at hcall)
      rw [hpacket] at hpoll
      generalize hflow : (.wait (.handshake (.ack wait)) : Flow (MessagePoint c) proto.HostToArk) = flow at hstep
      cases hstep with
      | @answered request _ wait' arkHello answer _ hanswers hsend =>
          obtain rfl : wait = wait' := by
            injection hflow with hpoint
            injection hpoint with hpoint
            injection hpoint
          obtain ⟨frame, hframe, hwire, _⟩ := sendPacket_ok hcobs hpoll hsend
          refine Or.inr ⟨haction, request, arkHello, answer, ⟨discard', hcall, hpacket⟩, hanswers.congr rfl rfl, frame,
            hframe, ?_⟩
          rw [hside, ← hwriter]
          exact hwire
      | aborted => exact absurd hflow.symm abort_ne
      | unanswered => exact absurd hflow.symm abort_ne
      | _ => cases hflow

/-! ### Where a session comes from -/

theorem step_session (hpke : Contexts c) {session : Session c} (hsession : (p.step coins action).side.session = some session) :
    (∃ before, p.side.session = some before ∧ before.SameChannels hpke session) ∨
      action = .poll ∧ p.Negotiates session := by
  have hkept : p.side.session = some session →
      ∃ before, p.side.session = some before ∧ before.SameChannels hpke session :=
    fun hsame => ⟨session, hsame, .refl hpke session⟩
  cases action with
  | arrive reads => exact Or.inl (hkept hsession)
  | plan answers => exact Or.inl (hkept hsession)
  | nextMessage =>
      rw [step] at hsession
      split at hsession <;> exact Or.inl (hkept hsession)
  | sendMessage res =>
      rw [step] at hsession
      split at hsession
      · exact Or.inl ((sendThrough_step proto.arkToHost p.side.framing p.side.session res).same_channels hpke hsession)
      · exact Or.inl (hkept hsession)
  | poll =>
      rcases hcall : p.call with _ | ⟨point, discard⟩
      · rw [step, hcall] at hsession
        exact Or.inl (hkept hsession)
      rw [step_poll hcall] at hsession
      rcases hpacket : packetOf (p.side.framing.nextPacketLoop discard) with packet | discard' | _
      · obtain ⟨flow, side, hstep, hsettle⟩ := poll_ready coins p point hpacket
        rw [hsettle, settle_side] at hsession
        dsimp only at hsession
        cases hstep with
        | undecodable => cases hsession
        | reset => cases hsession
        | broken => cases hsession
        | refused hsame => exact Or.inl (hkept (hsame.session ▸ hsession))
        | answered hsame => exact Or.inl (hkept (hsame.session ▸ hsession))
        | unanswered hsame => exact Or.inl (hkept (hsame.session ▸ hsession))
        | opened hbefore hopen =>
            obtain rfl := Option.some.inj hsession
            exact Or.inl ⟨_, hbefore, (hpke.receiverOpen_spec hopen).1, rfl⟩
        | accepted haccept =>
            obtain rfl := Option.some.inj hsession
            exact Or.inr ⟨rfl, _, _, _, hcall, hpacket, haccept⟩
        | _ => exact Or.inl (hkept hsession)
      · rw [poll_pending coins p point hpacket] at hsession
        exact Or.inl (hkept hsession)
      · rw [poll] at hsession
        dsimp only at hsession
        rw [hpacket] at hsession
        exact Or.inl (hkept hsession)

theorem step_signer (coins : Nat → Coins c) (p : ArkProc c proto A cobs maxFrameSize) (action : ArkAction proto) :
    (p.step coins action).side.signer = p.side.signer := by
  cases action with
  | arrive reads => rfl
  | plan answers => rfl
  | nextMessage =>
      rw [step]
      split <;> rfl
  | sendMessage res =>
      rw [step]
      split <;> rfl
  | poll =>
      rcases hcall : p.call with _ | ⟨point, discard⟩
      · rw [step, hcall]
      rw [step_poll hcall]
      rcases hpacket : packetOf (p.side.framing.nextPacketLoop discard) with packet | discard' | _
      · obtain ⟨flow, side, hstep, hsettle⟩ := poll_ready coins p point hpacket
        rw [hsettle, settle_side]
        exact hstep.signer
      · rw [poll_pending coins p point hpacket]
      · rw [poll]
        dsimp only
        rw [hpacket]

theorem run_signer (coins : Nat → Coins c) (p : ArkProc c proto A cobs maxFrameSize) (actions : List (ArkAction proto)) :
    (p.run coins actions).side.signer = p.side.signer := by
  induction actions generalizing p with
  | nil => rfl
  | cons action actions ih => rw [run_cons, ih, step_signer]

/-- The process in front of the action of this number. -/
def upTo (coins : Nat → Coins c) (start : ArkProc c proto A cobs maxFrameSize) (actions : List (ArkAction proto)) (n : Nat) :
    ArkProc c proto A cobs maxFrameSize := start.run coins (actions.take n)

theorem upTo_length (coins : Nat → Coins c) (start : ArkProc c proto A cobs maxFrameSize) (actions : List (ArkAction proto)) :
    start.upTo coins actions actions.length = start.run coins actions := stateAt_length

/-- What holds now and did not at the start began with an action, and has held since. -/
theorem upTo_since {P : ArkProc c proto A cobs maxFrameSize → Prop} {n : Nat} (hstart : ¬ P start) (hn : n ≤ actions.length)
    (hnow : P (start.upTo coins actions n)) :
    ∃ m < n, (∃ action, actions[m]? = some action ∧ ¬ P (start.upTo coins actions m) ∧
      P ((start.upTo coins actions m).step coins action)) ∧ ∀ i, m < i → i ≤ n → P (start.upTo coins actions i) := by
  obtain ⟨m, hsince⟩ := exists_since hstart hnow
  obtain ⟨hm, hbegun⟩ := hsince.action hn
  exact ⟨m, hsince.lt, ⟨actions[m], List.getElem?_eq_getElem hm, hsince.begins, hbegun⟩, hsince.holds⟩

theorem upTo_handshaking {n : Nat} (hidle : start.call = none) (hn : n ≤ actions.length)
    (hnow : (start.upTo coins actions n).Handshaking) :
    ∃ i < n, actions[i]? = some .poll ∧ ¬ (start.upTo coins actions i).Handshaking ∧ (start.upTo coins actions i).Resets ∧
      ∀ m, i < m → m ≤ n → (start.upTo coins actions m).Handshaking := by
  have hstart : ¬ start.Handshaking := by
    rintro ⟨point, discard, hcall⟩
    cases hidle.symm.trans hcall
  obtain ⟨i, hlt, ⟨action, haction, hbefore, hafter⟩, hholds⟩ := upTo_since hstart hn hnow
  rcases step_handshaking hafter with hsame | ⟨rfl, hresets⟩
  · exact absurd hsame hbefore
  · exact ⟨i, hlt, haction, hbefore, hresets, hholds⟩

theorem upTo_expects (hcobs : cobs.Lawful) {n : Nat} {wait : AckWait c} (hwf : ∀ m, (start.upTo coins actions m).Wf)
    (hidle : start.call = none) (hn : n ≤ actions.length) (hnow : (start.upTo coins actions n).Expects wait) :
    ∃ j < n, actions[j]? = some .poll ∧
      (∃ request arkHello answer, (start.upTo coins actions j).Replies coins wait request arkHello answer) ∧
      ∀ m, j < m → m ≤ n → (start.upTo coins actions m).Expects wait := by
  have hstart : ¬ start.Expects wait := by
    rintro ⟨discard, hcall⟩
    cases hidle.symm.trans hcall
  obtain ⟨j, hlt, ⟨action, haction, hbefore, hafter⟩, hholds⟩ := upTo_since hstart hn hnow
  rcases step_expects hcobs (hwf j) hafter with hsame | ⟨rfl, hreplies⟩
  · exact absurd hsame hbefore
  · exact ⟨j, hlt, haction, hreplies, hholds⟩

theorem upTo_session (hpke : Contexts c) {session : Session c} (hnone : start.side.session = none)
    (hsession : (start.run coins actions).side.session = some session) :
    ∃ k < actions.length, ∃ made, actions[k]? = some .poll ∧ (start.upTo coins actions k).Negotiates made ∧
      made.SameChannels hpke session ∧ ∀ m, k < m → m ≤ actions.length →
        ∃ now, (start.upTo coins actions m).side.session = some now ∧ now.SameChannels hpke session := by
  have hstart : ¬ ∃ now, start.side.session = some now ∧ now.SameChannels hpke session := by
    rintro ⟨now, hsome, _⟩
    cases hnone.symm.trans hsome
  have hnow : ∃ now, (start.upTo coins actions actions.length).side.session = some now ∧ now.SameChannels hpke session := by
    rw [upTo_length]
    exact ⟨session, hsession, .refl hpke session⟩
  obtain ⟨k, hlt, ⟨action, haction, hbefore, made, hmade, hsame⟩, hholds⟩ :=
    upTo_since (P := fun p => ∃ now, p.side.session = some now ∧ now.SameChannels hpke session) hstart (le_refl _) hnow
  rcases step_session hpke hmade with ⟨before, hsome, hchannels⟩ | ⟨rfl, hnegotiates⟩
  · exact absurd ⟨before, hsome, hchannels.trans hsame⟩ hbefore
  · exact ⟨k, hlt, made, haction, hnegotiates, hsame, hholds⟩

/-- How a session came about that there is at the end of a run: the polls of one call of `next_message` that found the empty
frame, the HostHello and the HostAck, and what held in between and since. -/
structure Came (hpke : Contexts c) (coins : Nat → Coins c) (start : ArkProc c proto A cobs maxFrameSize)
    (actions : List (ArkAction proto)) (session : Session c) (i j k : Nat) (wait : AckWait c) (made : Session c) : Prop where
  order : i < j ∧ j < k
  polls : ∀ n, n = i ∨ n = j ∨ n = k → actions[n]? = some .poll
  outside : ¬ (start.upTo coins actions i).Handshaking
  resets : (start.upTo coins actions i).Resets
  handshaking : ∀ n, i < n → n ≤ k → (start.upTo coins actions n).Handshaking
  replies : ∃ request arkHello answer, (start.upTo coins actions j).Replies coins wait request arkHello answer
  expects : ∀ n, j < n → n ≤ k → (start.upTo coins actions n).Expects wait
  accepts : ∃ discard packet, (start.upTo coins actions k).call = some (.handshake (.ack wait), discard) ∧
    packetOf ((start.upTo coins actions k).side.framing.nextPacketLoop discard) = .ready (.ok (some packet)) ∧
    (start.upTo coins actions k).side.acceptAck wait packet = .ok made
  channels : made.SameChannels hpke session
  held : ∀ n, k < n → n ≤ actions.length → ∃ now, (start.upTo coins actions n).side.session = some now ∧
    now.SameChannels hpke session
  signer : ∀ n, (start.upTo coins actions n).side.signer = start.side.signer

end ArkProc

/-- An Ark that holds a session had its call of `next_message` taken into the handshake by an empty frame; a later poll of that
call found a HostHello and wrote the whole ArkHello, with the attestation of its attester at that moment; the next packet it
found is the HostAck from which it made the session, which it has had ever since. -/
theorem sessions_acknowledged (hcobs : cobs.Lawful) (hpke : Contexts c) (coins : Nat → Coins c) (reader : Reader)
    (writer : Writer) (signer : c.XdsaSecretKey) (attester : A) (actions : List (ArkAction proto))
    {start : ArkProc c proto A cobs maxFrameSize} (hstart : start = .new reader writer signer attester) {session : Session c}
    (hsession : (start.run coins actions).side.session = some session) :
    ∃ i j k wait made, start.Came hpke coins actions session i j k wait made := by
  have hwf : ∀ n, (start.upTo coins actions n).Wf := by
    intro n
    rw [hstart]
    obtain ⟨e, _, h⟩ := ArkProc.run_abstracts hcobs
      (ArkProc.new_abstracts coins reader writer signer attester :
        ArkProc.Abstracts coins (_ : ArkProc c proto A cobs maxFrameSize) _) (actions.take n)
    exact h.wf
  have hidle : start.call = none := by rw [hstart]; rfl
  have hnone : start.side.session = none := by rw [hstart]; rfl
  -- backwards from the session: the HostAck, the HostHello, the empty frame
  obtain ⟨k, hk, made, hack, hnegotiates, hsame, hheld⟩ := ArkProc.upTo_session hpke hnone hsession
  obtain ⟨wait, discard, packet, hcall, haccepts⟩ := hnegotiates
  obtain ⟨j, hjk, hhello, hreplies, hexpects⟩ := ArkProc.upTo_expects hcobs hwf hidle (Nat.le_of_lt hk) ⟨discard, hcall⟩
  obtain ⟨i, hik, hreset, houtside, hresets, hhandshaking⟩ :=
    ArkProc.upTo_handshaking hidle (Nat.le_of_lt hk) ⟨.ack wait, discard, hcall⟩
  -- the call was in the handshake when it answered and has been since, so it came there before
  have hij : i < j := by
    refine Nat.lt_of_not_le fun hji => houtside ?_
    rcases Nat.lt_or_eq_of_le hji with hlater | rfl
    · obtain ⟨discard', hwaits⟩ := hexpects i hlater (Nat.le_of_lt hik)
      exact ⟨.ack wait, discard', hwaits⟩
    · obtain ⟨request, arkHello, answer, hreplies⟩ := hreplies
      obtain ⟨discard', hwaits, _⟩ := hreplies.waiting
      exact ⟨.hello, discard', hwaits⟩
  refine ⟨i, j, k, wait, made, ⟨hij, hjk⟩, ?_, houtside, hresets, hhandshaking, hreplies, hexpects,
    ⟨discard, packet, hcall, haccepts⟩, hsame, hheld, ?_⟩
  · rintro n (rfl | rfl | rfl)
    · exact hreset
    · exact hhello
    · exact hack
  · exact fun n => ArkProc.run_signer coins start (actions.take n)

open Reference in
/-- The Ark that has come into a session with the host. -/
theorem sessions_acknowledged_reference :
    ∃ session, ((ark []).run coins arkReceives).side.session = some session ∧
      ∃ i j k wait made, (ark []).Came contexts coins arkReceives session i j k wait made := by
  have hsome : ((ark []).run coins arkReceives).side.session.isSome := by decide +kernel
  obtain ⟨session, hsession⟩ := Option.isSome_iff_exists.mp hsome
  exact ⟨session, hsession, sessions_acknowledged Cobs.stuffing_lawful contexts coins [] ⟨[], []⟩ (7 : Nat) attestation
    arkReceives (rfl : ark [] = _) hsession⟩

end DarkbioWire
