import DarkbioWire.Lib.Schedule
import DarkbioWire.Reference.Codec
import DarkbioWire.Shut

/-!
# Fragmentation is not observed

How the bytes of a stream are cut into reads, when they arrive and how often a waiting call is polled in vain show in nothing
a side does: not in what its calls return, nor in what it writes, seals, opens or holds (`ark_rescheduled`,
`host_rescheduled`). Two framers are alike when they stand at the same place in front of the same stream, however much of it
they hold, and one that gets a part of the stream later does what one does that has it already. Sides over framers alike take
the same branches: what a side does depends on its transport only through what that returns (`Bisimilar`).
-/

namespace DarkbioWire

open Delimited

/-! ### Transports that cannot be told apart -/

section Transports

variable {Blob : Type} {c : Crypto Blob} {A Info T T' : Type} [Transport T Blob] [Transport T' Blob]

/-- Sending through two transports returns the same and leaves two such transports. -/
structure Bisimilar (Rel : T → T' → Prop) : Prop where
  reset : ∀ {t t'}, Rel t t' → (Transport.sendReset t').1 = (Transport.sendReset t).1 ∧
    Rel (Transport.sendReset t).2 (Transport.sendReset t').2
  packet : ∀ {t t'}, Rel t t' → ∀ packet, (Transport.sendPacket t' packet).1 = (Transport.sendPacket t packet).1 ∧
    Rel (Transport.sendPacket t packet).2 (Transport.sendPacket t' packet).2
  limit : Transport.maxMessageSize T' = Transport.maxMessageSize T

/-- Two sides that differ in their transports only. -/
structure ArkSide.Alike (Rel : T → T' → Prop) (side : ArkSide c A T) (side' : ArkSide c A T') : Prop where
  framing : Rel side.framing side'.framing
  signer : side'.signer = side.signer
  attester : side'.attester = side.attester
  session : side'.session = side.session
  draws : side'.draws = side.draws

structure HostSide.Alike (Rel : T → T' → Prop) (side : HostSide c T) (side' : HostSide c T') : Prop where
  framing : Rel side.framing side'.framing
  session : side'.session = side.session
  draws : side'.draws = side.draws

variable {Rel : T → T' → Prop} (hrel : Bisimilar Rel)

include hrel in
theorem sendThrough_alike {M : Type} (codec : Codec Blob M) {t : T} {t' : T'} (ht : Rel t t')
    (session : Option (Session c)) (msg : M) :
    (sendThrough codec t' session msg).1 = (sendThrough codec t session msg).1 ∧
      (sendThrough codec t' session msg).2.2 = (sendThrough codec t session msg).2.2 ∧
      Rel (sendThrough codec t session msg).2.1 (sendThrough codec t' session msg).2.1 := by
  rcases session with _ | session
  · exact ⟨rfl, rfl, ht⟩
  rw [sendThrough, sendThrough, hrel.limit]
  rcases session.seal (Transport.maxMessageSize T) codec msg with ⟨err | packet, session'⟩
  · cases err <;> exact ⟨rfl, rfl, ht⟩
  · obtain ⟨hresult, hu⟩ := hrel.packet ht packet
    dsimp only
    generalize Transport.sendPacket t packet = sent at hresult hu ⊢
    generalize Transport.sendPacket t' packet = sent' at hresult hu ⊢
    obtain ⟨result, u⟩ := sent
    obtain ⟨result', u'⟩ := sent'
    obtain rfl : result' = result := hresult
    rcases result' with err | _ <;> exact ⟨rfl, rfl, hu⟩

namespace ArkSide

variable {side : ArkSide c A T} {side' : ArkSide c A T'}

omit [Transport T Blob] [Transport T' Blob] in
theorem Alike.withSession (h : Alike Rel side side') (session : Option (Session c)) :
    Alike Rel { side with session } { side' with session } := ⟨h.framing, h.signer, h.attester, rfl, h.draws⟩

include hrel in
theorem Alike.sendMessage (h : Alike Rel side side') (proto : Protocol Blob) (res : proto.ArkToHost) :
    (side'.sendMessage proto res).1 = (side.sendMessage proto res).1 ∧
      Alike Rel (side.sendMessage proto res).2 (side'.sendMessage proto res).2 := by
  obtain ⟨t, signer, attester, session, draws⟩ := side
  obtain ⟨t', signer', attester', session', draws'⟩ := side'
  obtain ⟨ht, rfl, rfl, rfl, rfl⟩ := h
  obtain ⟨hresult, hsession, hframing⟩ := sendThrough_alike hrel proto.arkToHost ht session' res
  exact ⟨hresult, hframing, rfl, rfl, hsession, rfl⟩

variable [Attester c A]

include hrel in
theorem Alike.answerHello (h : Alike Rel side side') (coins : Coins c) (packet : Blob) :
    (side'.answerHello coins packet).1 = (side.answerHello coins packet).1 ∧
      Alike Rel (side.answerHello coins packet).2 (side'.answerHello coins packet).2 := by
  obtain ⟨t, signer, attester, session, draws⟩ := side
  obtain ⟨t', signer', attester', session', draws'⟩ := side'
  obtain ⟨ht, rfl, rfl, rfl, rfl⟩ := h
  rw [ArkSide.answerHello, ArkSide.answerHello]
  dsimp only
  rcases HostHello.decode c packet with err | hostHello
  · exact ⟨rfl, ht, rfl, rfl, rfl, rfl⟩
  dsimp only
  rcases c.newSender hostHello.hostCrypto CRYPTO_DOMAIN_WIRE_ARK_TO_HOST coins.second with err | ⟨sender, encap⟩
  · exact ⟨rfl, ht, rfl, rfl, rfl, rfl⟩
  dsimp only
  generalize c.coseSeal _ _ _ _ _ _ = answer
  rcases answer with err | answer
  · exact ⟨rfl, ht, rfl, rfl, rfl, rfl⟩
  obtain ⟨hresult, hu⟩ := hrel.packet ht answer
  dsimp only at ht hresult hu ⊢
  generalize Transport.sendPacket t answer = sent at hresult hu ⊢
  generalize Transport.sendPacket t' answer = sent' at hresult hu ⊢
  obtain ⟨result, u⟩ := sent
  obtain ⟨result', u'⟩ := sent'
  obtain rfl : result' = result := hresult
  rcases result' with err | _ <;> exact ⟨rfl, hu, rfl, rfl, rfl, rfl⟩

include hrel in
theorem Alike.handshakeStep (h : Alike Rel side side') (coins : Coins c) (point : HandshakePoint c)
    (packet : Except Error (Option Blob)) :
    (side'.handshakeStep coins point packet).1 = (side.handshakeStep coins point packet).1 ∧
      Alike Rel (side.handshakeStep coins point packet).2 (side'.handshakeStep coins point packet).2 := by
  rcases point with _ | wait
  · rcases packet with err | _ | packet
    · exact ⟨rfl, h⟩
    · exact ⟨rfl, h⟩
    · obtain ⟨hresult, halike⟩ := h.answerHello hrel coins packet
      rw [ArkSide.handshakeStep, ArkSide.handshakeStep]
      generalize side.answerHello coins packet = answered at hresult halike ⊢
      generalize side'.answerHello coins packet = answered' at hresult halike ⊢
      obtain ⟨result, side⟩ := answered
      obtain ⟨result', side'⟩ := answered'
      obtain rfl : result' = result := hresult
      rcases result' with err | wait <;> exact ⟨rfl, halike⟩
  · rcases packet with err | _ | packet
    · exact ⟨rfl, h⟩
    · exact ⟨rfl, h⟩
    · refine ⟨?_, h⟩
      change Flow.done (acceptAck side' wait packet) = Flow.done (acceptAck side wait packet)
      rw [acceptAck, acceptAck, h.signer]

include hrel in
theorem Alike.nextMessageStep (h : Alike Rel side side') (proto : Protocol Blob) (coins : Coins c)
    (point : MessagePoint c) (packet : Except Error (Option Blob)) :
    (side'.nextMessageStep proto coins point packet).1 = (side.nextMessageStep proto coins point packet).1 ∧
      Alike Rel (side.nextMessageStep proto coins point packet).2 (side'.nextMessageStep proto coins point packet).2 := by
  rcases point with _ | point
  · rcases packet with err | _ | packet
    · cases err <;> exact ⟨rfl, by first | exact h | exact h.withSession none⟩
    · exact ⟨rfl, h.withSession none⟩
    · rw [ArkSide.nextMessageStep, ArkSide.nextMessageStep, h.session]
      rcases side.session with _ | session
      · exact ⟨rfl, h⟩
      dsimp only
      rcases session.open proto.hostToArk packet with ⟨err | req, session'⟩
      · cases err <;> exact ⟨rfl, h.withSession _⟩
      · exact ⟨rfl, h.withSession _⟩
  · obtain ⟨hresult, halike⟩ := h.handshakeStep hrel coins point packet
    rw [ArkSide.nextMessageStep, ArkSide.nextMessageStep]
    generalize side.handshakeStep coins point packet = stepped at hresult halike ⊢
    generalize side'.handshakeStep coins point packet = stepped' at hresult halike ⊢
    obtain ⟨flow, side⟩ := stepped
    obtain ⟨flow', side'⟩ := stepped'
    obtain rfl : flow' = flow := hresult
    rcases flow' with point | err | session
    · exact ⟨rfl, halike⟩
    · cases err <;> exact ⟨rfl, halike⟩
    · exact ⟨rfl, halike.withSession _⟩

end ArkSide

namespace HostSide

variable {side : HostSide c T} {side' : HostSide c T'}

omit [Transport T Blob] [Transport T' Blob] in
theorem Alike.withSession (h : Alike Rel side side') (session : Option (Session c)) :
    Alike Rel { side with session } { side' with session } := ⟨h.framing, rfl, h.draws⟩

include hrel in
theorem Alike.sendMessage (h : Alike Rel side side') (proto : Protocol Blob) (req : proto.HostToArk) :
    (side'.sendMessage proto req).1 = (side.sendMessage proto req).1 ∧
      Alike Rel (side.sendMessage proto req).2 (side'.sendMessage proto req).2 := by
  obtain ⟨t, session, draws⟩ := side
  obtain ⟨t', session', draws'⟩ := side'
  obtain ⟨ht, rfl, rfl⟩ := h
  obtain ⟨hresult, hsession, hframing⟩ := sendThrough_alike hrel proto.hostToArk ht session' req
  exact ⟨hresult, hframing, hsession, rfl⟩

include hrel in
theorem Alike.handshakeStart (h : Alike Rel side side') (coins : Coins c) (verifier : Verifier c Info) :
    (side'.handshakeStart coins verifier).1 = (side.handshakeStart coins verifier).1 ∧
      Alike Rel (side.handshakeStart coins verifier).2 (side'.handshakeStart coins verifier).2 := by
  obtain ⟨t, session, draws⟩ := side
  obtain ⟨t', session', draws'⟩ := side'
  obtain ⟨ht, rfl, rfl⟩ := h
  rw [HostSide.handshakeStart, HostSide.handshakeStart]
  obtain ⟨hreset, hu⟩ := hrel.reset ht
  dsimp only at ht hreset hu ⊢
  generalize Transport.sendReset t = sent at hreset hu ⊢
  generalize Transport.sendReset t' = sent' at hreset hu ⊢
  obtain ⟨result, u⟩ := sent
  obtain ⟨result', u'⟩ := sent'
  obtain rfl : result' = result := hreset
  rcases result' with err | _
  · exact ⟨rfl, hu, rfl, rfl⟩
  dsimp only at hu ⊢
  generalize c.cborEncode _ = hello
  rcases hello with err | hello
  · exact ⟨rfl, hu, rfl, rfl⟩
  obtain ⟨hsend, hv⟩ := hrel.packet hu hello
  dsimp only
  generalize Transport.sendPacket u hello = sent at hsend hv ⊢
  generalize Transport.sendPacket u' hello = sent' at hsend hv ⊢
  obtain ⟨result, v⟩ := sent
  obtain ⟨result', v'⟩ := sent'
  obtain rfl : result' = result := hsend
  rcases result' with err | _ <;> exact ⟨rfl, hv, rfl, rfl⟩

include hrel in
theorem Alike.handshakeFinish (h : Alike Rel side side') (coins : Coins c) (wait : HelloWait c Info) (packet : Blob) :
    (side'.handshakeFinish coins wait packet).1 = (side.handshakeFinish coins wait packet).1 ∧
      Alike Rel (side.handshakeFinish coins wait packet).2 (side'.handshakeFinish coins wait packet).2 := by
  obtain ⟨t, session, draws⟩ := side
  obtain ⟨t', session', draws'⟩ := side'
  obtain ⟨ht, rfl, rfl⟩ := h
  rw [HostSide.handshakeFinish, HostSide.handshakeFinish]
  dsimp only
  rcases wait.answer coins packet with err | ⟨verified, session, ack⟩
  · exact ⟨rfl, ht, rfl, rfl⟩
  obtain ⟨hsend, hu⟩ := hrel.packet ht ack
  dsimp only at ht hsend hu ⊢
  generalize Transport.sendPacket t ack = sent at hsend hu ⊢
  generalize Transport.sendPacket t' ack = sent' at hsend hu ⊢
  obtain ⟨result, u⟩ := sent
  obtain ⟨result', u'⟩ := sent'
  obtain rfl : result' = result := hsend
  rcases result' with err | _ <;> exact ⟨rfl, hu, rfl, rfl⟩

include hrel in
theorem Alike.handshakeStep (h : Alike Rel side side') (coins : Coins c) (wait : HelloWait c Info)
    (packet : Except Error (Option Blob)) :
    (side'.handshakeStep coins wait packet).1 = (side.handshakeStep coins wait packet).1 ∧
      Alike Rel (side.handshakeStep coins wait packet).2 (side'.handshakeStep coins wait packet).2 := by
  rcases packet with err | packet
  · exact ⟨rfl, h⟩
  have hskip : (HostSide.handshakeStep.skip side' wait).1 = (HostSide.handshakeStep.skip side wait).1 ∧
      Alike Rel (HostSide.handshakeStep.skip side wait).2 (HostSide.handshakeStep.skip side' wait).2 := by
    rw [HostSide.handshakeStep.skip, HostSide.handshakeStep.skip]
    split <;> exact ⟨rfl, h⟩
  rw [HostSide.handshakeStep, HostSide.handshakeStep]
  rcases c.coseRecipient (packet.getD c.empty) with err | recipient
  · exact hskip
  dsimp only
  split
  · obtain ⟨hresult, halike⟩ := h.handshakeFinish hrel coins wait (packet.getD c.empty)
    exact ⟨congrArg Flow.done hresult, halike⟩
  · exact hskip

omit [Transport T Blob] [Transport T' Blob] in
theorem Alike.nextMessageStep (h : Alike Rel side side') (proto : Protocol Blob) (packet : Except Error (Option Blob)) :
    (side'.nextMessageStep proto packet).1 = (side.nextMessageStep proto packet).1 ∧
      Alike Rel (side.nextMessageStep proto packet).2 (side'.nextMessageStep proto packet).2 := by
  rcases packet with err | _ | packet
  · exact ⟨rfl, h.withSession none⟩
  · exact ⟨rfl, h⟩
  rw [HostSide.nextMessageStep, HostSide.nextMessageStep, h.session]
  rcases side.session with _ | session
  · exact ⟨rfl, h⟩
  dsimp only
  rcases session.open proto.arkToHost packet with ⟨err | res, session'⟩
  · cases err <;> exact ⟨rfl, h.withSession _⟩
  · exact ⟨rfl, h.withSession _⟩

end HostSide

end Transports

/-! ### Readers of the same stream -/

/-- What comes out of a reader, read by read or at once. -/
inductive Token
  | byte (b : UInt8)
  | ended
  | failed (err : IoError)
  deriving DecidableEq, Repr

namespace Reader

/-- The stream of a reader, its cuts forgotten. -/
def tokens : Reader → List Token
  | [] => []
  | .data [] :: reader => .ended :: tokens reader
  | .data (b :: bs) :: reader => (b :: bs).map .byte ++ tokens reader
  | .fail err :: reader => .failed err :: tokens reader

theorem tokens_append (reader more : Reader) : tokens (reader ++ more) = tokens reader ++ tokens more := by
  induction reader using tokens.induct with
  | case1 => rfl
  | case2 reader ih => rw [List.cons_append, tokens, tokens, ih, List.cons_append]
  | case3 b bs reader ih => rw [List.cons_append, tokens, tokens, ih, List.append_assoc]
  | case4 err reader ih => rw [List.cons_append, tokens, tokens, ih, List.cons_append]

theorem tokens_eq_nil {reader : Reader} (h : tokens reader = []) : reader = [] := by
  rcases reader with _ | ⟨served | err, reader⟩
  · rfl
  · cases served <;> cases h
  · cases h

theorem tokens_eq (reader : Reader) : tokens reader = (bytes reader).map .byte ++ tokens (stop reader) := by
  induction reader using stop.induct with
  | case1 b bs reader ih => rw [tokens, bytes, stop, ih, List.map_append, List.append_assoc]
  | case2 reader hne =>
      obtain ⟨hbytes, hstop⟩ := stopped hne
      rw [hbytes, hstop]
      rfl

theorem stop_cases (reader : Reader) :
    stop reader = [] ∨ (∃ rest, stop reader = .data [] :: rest) ∨ ∃ err rest, stop reader = .fail err :: rest := by
  rcases hstop : stop reader with _ | ⟨served | err, rest⟩
  · exact Or.inl rfl
  · rcases served with _ | ⟨b, bs⟩
    · exact Or.inr (Or.inl ⟨rest, rfl⟩)
    · have hbytes := bytes_stop reader
      rw [hstop] at hbytes
      cases hbytes
  · exact Or.inr (Or.inr ⟨err, rest, rfl⟩)

/-- A stream that does not go on with a byte. -/
def Halts (stream : List Token) : Prop := ∀ b rest, stream ≠ .byte b :: rest

theorem halts_stop (reader : Reader) : Halts (tokens (stop reader)) := by
  intro b rest htokens
  rcases stop_cases reader with hstop | ⟨rest', hstop⟩ | ⟨err, rest', hstop⟩ <;> rw [hstop] at htokens <;> cases htokens

theorem split_unique {bytes bytes' : List UInt8} {rest rest' : List Token} (hrest : Halts rest) (hrest' : Halts rest')
    (h : bytes.map .byte ++ rest = bytes'.map .byte ++ rest') : bytes = bytes' ∧ rest = rest' := by
  induction bytes generalizing bytes' with
  | nil =>
      rcases bytes' with _ | ⟨b', bs'⟩
      · exact ⟨rfl, h⟩
      · exact absurd h (hrest b' _)
  | cons b bs ih =>
      rcases bytes' with _ | ⟨b', bs'⟩
      · exact absurd h.symm (hrest' b _)
      · obtain ⟨hb, hbs⟩ := List.cons.inj h
        obtain rfl := Token.byte.inj hb
        obtain ⟨rfl, hsame⟩ := ih hbs
        exact ⟨rfl, hsame⟩

theorem bytes_append_stopped {reader : Reader} (h : stop reader ≠ []) (more : Reader) :
    bytes (reader ++ more) = bytes reader ∧ stop (reader ++ more) = stop reader ++ more := by
  induction reader using stop.induct with
  | case1 b bs reader ih =>
      obtain ⟨hbytes, hstop⟩ := ih h
      rw [List.cons_append, bytes, bytes, stop, stop, hbytes, hstop]
      exact ⟨rfl, rfl⟩
  | case2 reader hne =>
      rw [(stopped hne).1, (stopped hne).2] at *
      rcases reader with _ | ⟨served | err, reader⟩
      · exact absurd rfl h
      · rcases served with _ | ⟨b, bs⟩
        · exact ⟨rfl, rfl⟩
        · exact absurd rfl (hne b bs reader)
      · exact ⟨rfl, rfl⟩

end Reader

/-! ### Framers alike -/

namespace Framing

variable {cobs : Cobs} {maxFrameSize : Nat} {f g : Framing cobs maxFrameSize} {d e : Nat}

theorem WfAt.of_arrive {reads : List ReadEvent} (h : (f.arrive reads).WfAt d) : f.WfAt d :=
  ⟨⟨h.offset_le, h.search_le, h.filled_le, h.reader_length, h.scanned, h.decobs_length, h.encobs_length⟩, h.discarding⟩

/-- Two framers, in calls with these discard counters, that stand at the same place in front of the same stream. -/
structure Alike (f : Framing cobs maxFrameSize) (d : Nat) (g : Framing cobs maxFrameSize) (e : Nat) : Prop where
  left : f.WfAt d
  right : g.WfAt e
  front : settled 0 maxFrameSize (decide (0 < d)) f.unread = settled 0 maxFrameSize (decide (0 < e)) g.unread
  stop : f.reader.stop.tokens = g.reader.stop.tokens
  writer : g.writer = f.writer
  encobs : g.encobsBuffer = f.encobsBuffer

theorem Alike.refl (hf : f.WfAt d) : Alike f d f d := ⟨hf, hf, rfl, rfl, rfl, rfl⟩

theorem Alike.symm (h : Alike f d g e) : Alike g e f d :=
  ⟨h.right, h.left, h.front.symm, h.stop.symm, h.writer.symm, h.encobs.symm⟩

theorem Alike.trans {k : Framing cobs maxFrameSize} {i : Nat} (h : Alike f d g e) (h' : Alike g e k i) : Alike f d k i :=
  ⟨h.left, h'.right, h.front.trans h'.front, h.stop.trans h'.stop, h'.writer.trans h.writer, h'.encobs.trans h.encobs⟩

theorem arrive_open (hopen : f.reader.stop = []) (reads : List ReadEvent) :
    (f.arrive reads).unread = f.unread ++ Reader.bytes reads ∧ (f.arrive reads).reader.stop = Reader.stop reads := by
  obtain ⟨hbytes, hstop⟩ := Reader.bytes_append hopen reads
  refine ⟨?_, hstop⟩
  change f.pending ++ (f.reader ++ reads).bytes = f.pending ++ f.reader.bytes ++ Reader.bytes reads
  rw [hbytes, List.append_assoc]

theorem arrive_stopped (hstopped : f.reader.stop ≠ []) (reads : List ReadEvent) :
    (f.arrive reads).unread = f.unread ∧ (f.arrive reads).reader.stop = f.reader.stop ++ reads := by
  obtain ⟨hbytes, hstop⟩ := Reader.bytes_append_stopped hstopped reads
  refine ⟨?_, hstop⟩
  change f.pending ++ (f.reader ++ reads).bytes = f.pending ++ f.reader.bytes
  rw [hbytes]

theorem arrive_arrive (f : Framing cobs maxFrameSize) (reads more : List ReadEvent) :
    f.arrive (reads ++ more) = (f.arrive reads).arrive more := by
  rw [Framing.arrive, Framing.arrive, Framing.arrive, List.append_assoc]

theorem Alike.arrive (h : Alike f d g e) {reads reads' : List ReadEvent}
    (hreads : Reader.tokens reads = Reader.tokens reads') : Alike (f.arrive reads) d (g.arrive reads') e := by
  obtain ⟨hbytes, htokens⟩ : Reader.bytes reads = Reader.bytes reads' ∧
      (Reader.stop reads).tokens = (Reader.stop reads').tokens := by
    rw [Reader.tokens_eq reads, Reader.tokens_eq reads'] at hreads
    exact Reader.split_unique (Reader.halts_stop reads) (Reader.halts_stop reads') hreads
  by_cases hopen : f.reader.stop = []
  · have hopen' : g.reader.stop = [] := Reader.tokens_eq_nil (by rw [← h.stop, hopen]; rfl)
    obtain ⟨hunread, hstop⟩ := arrive_open hopen reads
    obtain ⟨hunread', hstop'⟩ := arrive_open hopen' reads'
    refine ⟨h.left.arrive reads, h.right.arrive reads', ?_, ?_, h.writer, h.encobs⟩
    · rw [hunread, hunread', hbytes, settled_append 0 maxFrameSize _ f.unread, h.front, ← settled_append]
    · rw [hstop, hstop', htokens]
  · have hstopped' : g.reader.stop ≠ [] := fun hnil => hopen (Reader.tokens_eq_nil (by rw [h.stop, hnil]; rfl))
    obtain ⟨hunread, hstop⟩ := arrive_stopped hopen reads
    obtain ⟨hunread', hstop'⟩ := arrive_stopped hstopped' reads'
    refine ⟨h.left.arrive reads, h.right.arrive reads', ?_, ?_, h.writer, h.encobs⟩
    · rw [hunread, hunread']
      exact h.front
    · rw [hstop, hstop', Reader.tokens_append, Reader.tokens_append, h.stop, hreads]

theorem Alike.wait (hf : f.WfAt d) {d' : Nat} (hpending : packetOf (f.nextPacketLoop d) = .pending d') :
    Alike f d (f.nextPacketLoop d).2 d' := by
  obtain ⟨hspec, _, hsame⟩ := nextPacketLoop_spec hf
  rw [NextPacketSpec] at hspec
  cases hnext : next 0 maxFrameSize (decide (0 < d)) f.unread with
  | some front =>
      rw [hnext] at hspec
      cases hspec.1.symm.trans hpending
  | none =>
      rw [hnext] at hspec
      obtain ⟨d'', hresidue, hwf, hend⟩ := hspec
      rcases hstop : f.reader.stop with _ | ⟨served | err, rest⟩
      · rw [hstop] at hend
        cases hend.1.symm.trans hpending
        have hunread : (f.nextPacketLoop d).2.unread = (f.nextPacketLoop d).2.pending := by
          rw [unread, hend.2, Reader.bytes_nil, List.append_nil]
        refine ⟨hf, hwf, ?_, ?_, hsame.writer, hsame.encobs⟩
        · have hsettled := settled_of_none hnext
          have hagain := settled_settled 0 maxFrameSize (decide (0 < d)) f.unread
          rw [hsettled, hresidue] at hagain
          rw [hsettled, hresidue, hunread, hagain]
        · rw [hend.2, hstop]
          rfl
      · rw [hstop] at hend
        cases hend.1.symm.trans hpending
      · rw [hstop] at hend
        cases hend.1.symm.trans hpending

theorem Alike.poll (h : Alike f d g e) :
    (∃ d' e', packetOf (f.nextPacketLoop d) = .pending d' ∧ packetOf (g.nextPacketLoop e) = .pending e' ∧
        Alike (f.nextPacketLoop d).2 d' (g.nextPacketLoop e).2 e') ∨
      ∃ packet, packetOf (f.nextPacketLoop d) = .ready packet ∧ packetOf (g.nextPacketLoop e) = .ready packet ∧
        Alike (f.nextPacketLoop d).2 0 (g.nextPacketLoop e).2 0 := by
  obtain ⟨hspec, hwf, hsame⟩ := nextPacketLoop_spec h.left
  obtain ⟨hspec', hwf', hsame'⟩ := nextPacketLoop_spec h.right
  have hwriter : (g.nextPacketLoop e).2.writer = (f.nextPacketLoop d).2.writer := by
    rw [hsame.writer, hsame'.writer, h.writer]
  have hencobs : (g.nextPacketLoop e).2.encobsBuffer = (f.nextPacketLoop d).2.encobsBuffer := by
    rw [hsame.encobs, hsame'.encobs, h.encobs]
  have hfront : next 0 maxFrameSize (decide (0 < d)) f.unread = next 0 maxFrameSize (decide (0 < e)) g.unread := by
    rw [← next_settled, h.front, next_settled]
  rw [NextPacketSpec] at hspec hspec'
  rw [← hfront] at hspec'
  cases hnext : next 0 maxFrameSize (decide (0 < d)) f.unread with
  | some front =>
      rw [hnext] at hspec hspec'
      refine Or.inr ⟨_, hspec.1, hspec'.1, hwf.wfAt, hwf'.wfAt, ?_, ?_, hwriter, hencobs⟩
      · rw [hspec.2.1, hspec'.2.1]
      · rw [hspec.2.2, hspec'.2.2, h.stop]
  | none =>
      rw [hnext] at hspec hspec'
      obtain ⟨d', hresidue, hat, hend⟩ := hspec
      obtain ⟨e', hresidue', hat', hend'⟩ := hspec'
      obtain ⟨hmode, hpending⟩ : decide (0 < d') = decide (0 < e') ∧
          (f.nextPacketLoop d).2.pending = (g.nextPacketLoop e).2.pending := by
        have hsettled := h.front
        rw [settled_of_none hnext, settled_of_none (hfront.symm.trans hnext), hresidue, hresidue'] at hsettled
        exact Prod.mk.inj hsettled
      have htokens := h.stop
      -- a call that is over forgets its discard counter
      have hover : ∀ {rest rest'}, (f.nextPacketLoop d).2.reader = rest → (g.nextPacketLoop e).2.reader = rest' →
          rest.tokens = rest'.tokens → Alike (f.nextPacketLoop d).2 0 (g.nextPacketLoop e).2 0 := by
        intro rest rest' hrest hrest' hsame
        rw [Reader.tokens_eq rest, Reader.tokens_eq rest'] at hsame
        obtain ⟨hbytes, hstop⟩ := Reader.split_unique (Reader.halts_stop rest) (Reader.halts_stop rest') hsame
        refine ⟨hwf.wfAt, hwf'.wfAt, ?_, ?_, hwriter, hencobs⟩
        · rw [unread, unread, hrest, hrest', hpending, hbytes]
        · rw [hrest, hrest', hstop]
      rcases Reader.stop_cases f.reader with hstop | ⟨rest, hstop⟩ | ⟨err, rest, hstop⟩ <;>
        rcases Reader.stop_cases g.reader with hstop' | ⟨rest', hstop'⟩ | ⟨err', rest', hstop'⟩ <;>
        rw [hstop, hstop'] at htokens <;> rw [hstop] at hend <;> rw [hstop'] at hend' <;>
        simp only [Reader.tokens, List.cons.injEq, reduceCtorEq, false_and, true_and] at htokens
      · refine Or.inl ⟨d', e', hend.1, hend'.1, hat, hat', ?_, ?_, hwriter, hencobs⟩
        · rw [unread, unread, hend.2, hend'.2, hpending, hmode]
        · rw [hend.2, hend'.2]
      · exact Or.inr ⟨_, hend.1, hend'.1, hover hend.2 hend'.2 htokens⟩
      · obtain ⟨herr, hrest⟩ := htokens
        obtain rfl := Token.failed.inj herr
        exact Or.inr ⟨_, hend.1, hend'.1, hover hend.2 hend'.2 hrest⟩

theorem ready_arrive (hf : f.WfAt d) {packet : Except Error (Option (List UInt8))}
    (hready : packetOf (f.nextPacketLoop d) = .ready packet) (reads : List ReadEvent) :
    packetOf ((f.arrive reads).nextPacketLoop d) = .ready packet ∧
      Alike ((f.nextPacketLoop d).2.arrive reads) 0 ((f.arrive reads).nextPacketLoop d).2 0 := by
  obtain ⟨hspec, hwf, hsame⟩ := nextPacketLoop_spec hf
  obtain ⟨hspec', hwf', hsame'⟩ := nextPacketLoop_spec (hf.arrive reads)
  have halike : ∀ {packet'}, packetOf ((f.arrive reads).nextPacketLoop d) = .ready packet' → packet' = packet →
      ((f.nextPacketLoop d).2.arrive reads).unread = ((f.arrive reads).nextPacketLoop d).2.unread →
      ((f.nextPacketLoop d).2.arrive reads).reader.stop = ((f.arrive reads).nextPacketLoop d).2.reader.stop →
      packetOf ((f.arrive reads).nextPacketLoop d) = .ready packet ∧
        Alike ((f.nextPacketLoop d).2.arrive reads) 0 ((f.arrive reads).nextPacketLoop d).2 0 := by
    intro packet' hready' hpacket hunread hstop
    exact ⟨hpacket ▸ hready', (hwf.arrive reads).wfAt, hwf'.wfAt, by rw [hunread], by rw [hstop],
      hsame'.writer.trans hsame.writer.symm, hsame'.encobs.trans hsame.encobs.symm⟩
  rw [NextPacketSpec] at hspec hspec'
  by_cases hopen : f.reader.stop = []
  · obtain ⟨hunread, hstop⟩ := arrive_open hopen reads
    cases hnext : next 0 maxFrameSize (decide (0 < d)) f.unread with
    | some front =>
        rw [hnext] at hspec
        rw [hunread, next_append_of_some hnext] at hspec'
        obtain ⟨hunread', hstop'⟩ := arrive_open (hspec.2.2.trans hopen) reads
        refine halike hspec'.1 (Poll.ready.inj (hspec.1.symm.trans hready)) ?_ ?_
        · rw [hunread', hspec.2.1, hspec'.2.1]
        · rw [hstop', hspec'.2.2, hstop]
    | none =>
        rw [hnext] at hspec
        obtain ⟨d', _, _, hend⟩ := hspec
        rw [hopen] at hend
        cases hend.1.symm.trans hready
  · obtain ⟨hunread, hstop⟩ := arrive_stopped hopen reads
    rw [hunread, hstop] at hspec'
    cases hnext : next 0 maxFrameSize (decide (0 < d)) f.unread with
    | some front =>
        rw [hnext] at hspec hspec'
        obtain ⟨hunread', hstop'⟩ := arrive_stopped (fun hnil => hopen (hspec.2.2.symm.trans hnil)) reads
        refine halike hspec'.1 (Poll.ready.inj (hspec.1.symm.trans hready)) ?_ ?_
        · rw [hunread', hspec.2.1, hspec'.2.1]
        · rw [hstop', hspec.2.2, hspec'.2.2]
    | none =>
        rw [hnext] at hspec hspec'
        obtain ⟨d', hresidue, _, hend⟩ := hspec
        obtain ⟨d'', hresidue', _, hend'⟩ := hspec'
        have hpending : (f.nextPacketLoop d).2.pending = ((f.arrive reads).nextPacketLoop d).2.pending :=
          congrArg Prod.snd (hresidue.symm.trans hresidue')
        have hreader : ∀ {rest}, (f.nextPacketLoop d).2.reader = rest →
            ((f.arrive reads).nextPacketLoop d).2.reader = rest ++ reads →
            ((f.nextPacketLoop d).2.arrive reads).unread = ((f.arrive reads).nextPacketLoop d).2.unread ∧
              ((f.nextPacketLoop d).2.arrive reads).reader.stop = ((f.arrive reads).nextPacketLoop d).2.reader.stop := by
          intro rest hrest hrest'
          have hsame : ((f.nextPacketLoop d).2.arrive reads).reader = ((f.arrive reads).nextPacketLoop d).2.reader := by
            rw [hrest', ← hrest]
            rfl
          refine ⟨?_, by rw [hsame]⟩
          rw [unread, unread, hsame, ← hpending]
          rfl
        rcases hstopped : f.reader.stop with _ | ⟨served | err, rest⟩ <;> rw [hstopped] at hend hend'
        · exact absurd hstopped hopen
        all_goals
          obtain ⟨hunread', hstop'⟩ := hreader hend.2 hend'.2
          exact halike hend'.1 (Poll.ready.inj (hend.1.symm.trans hready)) hunread' hstop'

/-- A framer that gets the rest of the stream later waits, or returns what the one that has it returns. -/
theorem Alike.poll_arrive {reads : List ReadEvent} (h : Alike (f.arrive reads) d g e) :
    (∃ d', packetOf (f.nextPacketLoop d) = .pending d' ∧ Alike ((f.nextPacketLoop d).2.arrive reads) d' g e) ∨
      ∃ packet, packetOf (f.nextPacketLoop d) = .ready packet ∧ packetOf (g.nextPacketLoop e) = .ready packet ∧
        Alike ((f.nextPacketLoop d).2.arrive reads) 0 (g.nextPacketLoop e).2 0 := by
  have hf : f.WfAt d := h.left.of_arrive
  rcases (Alike.refl hf).poll with ⟨d', _, hpending, _, _⟩ | ⟨packet, hready, _, _⟩
  · exact Or.inl ⟨d', hpending, ((Alike.wait hf hpending).arrive rfl).symm.trans h⟩
  · obtain ⟨hready', halike⟩ := ready_arrive hf hready reads
    rcases h.poll with ⟨d', _, hpending, _, _⟩ | ⟨packet', hready'', hpoll, hnext⟩
    · cases hready'.symm.trans hpending
    · obtain rfl := Poll.ready.inj (hready'.symm.trans hready'')
      exact Or.inr ⟨packet, hready, hpoll, halike.trans hnext⟩

theorem SameReceiver.arrive (h : SameReceiver f g) (reads : List ReadEvent) :
    SameReceiver (f.arrive reads) (g.arrive reads) :=
  ⟨congrArg (· ++ reads) h.reader, h.readerBuffer, h.readerFilled, h.readerOffset, h.readerSearch, h.decobs⟩

theorem Alike.sent (h : Alike f 0 g 0) {f' g' : Framing cobs maxFrameSize} (hf' : f'.Wf) (hg' : g'.Wf)
    (hsame : SameReceiver f f') (hsame' : SameReceiver g g') (hwriter : g'.writer = f'.writer)
    (hencobs : g'.encobsBuffer = f'.encobsBuffer) : Alike f' 0 g' 0 := by
  refine ⟨hf'.wfAt, hg'.wfAt, ?_, ?_, hwriter, hencobs⟩
  · rw [hsame.unread, hsame'.unread]
    exact h.front
  · rw [hsame.reader, hsame'.reader]
    exact h.stop

theorem bisimilar (reads : List ReadEvent) :
    Bisimilar fun f g : Framing cobs maxFrameSize => Alike (f.arrive reads) 0 g 0 where
  reset := by
    intro f g h
    obtain ⟨hresult, hwriter, hwf, hsame⟩ := sendReset_spec f h.left.of_arrive.toWf
    obtain ⟨hresult', hwriter', hwf', hsame'⟩ := sendReset_spec g h.right.toWf
    have hsent : g.writer = f.writer := h.writer
    rw [hsent] at hresult' hwriter'
    exact ⟨hresult'.trans hresult.symm,
      h.sent (hwf.arrive reads) hwf' (hsame.arrive reads) hsame' (hwriter'.trans hwriter.symm) h.encobs⟩
  packet := by
    intro f g h packet
    obtain ⟨hwf, hsame⟩ := h.left.of_arrive.toWf.sendPacket packet
    obtain ⟨hwf', hsame'⟩ := h.right.toWf.sendPacket packet
    have hwriter : g.writer = f.writer := h.writer
    have hencobs : g.encobsBuffer = f.encobsBuffer := h.encobs
    have heq : (g.sendPacket packet).1 = (f.sendPacket packet).1 ∧
        (g.sendPacket packet).2.writer = (f.sendPacket packet).2.writer ∧
        (g.sendPacket packet).2.encobsBuffer = (f.sendPacket packet).2.encobsBuffer := by
      rw [sendPacket, sendPacket, hencobs]
      split
      · exact ⟨rfl, hwriter, hencobs⟩
      split
      · exact ⟨rfl, hwriter, hencobs⟩
      · rw [sendFrame, sendFrame]
        dsimp only
        rw [hwriter]
        exact ⟨rfl, rfl, rfl⟩
    exact ⟨heq.1, h.sent (hwf.arrive reads) hwf' (hsame.arrive reads) hsame' heq.2.1 heq.2.2⟩
  limit := rfl

end Framing

/-! ### The Ark -/

section Sides

variable {c : Crypto (List UInt8)} {proto : Protocol (List UInt8)} {A Info : Type} {cobs : Cobs} {maxFrameSize : Nat}

/-- The methods of the Ark. -/
inductive ArkMethod (proto : Protocol (List UInt8))
  | nextMessage
  | sendMessage (res : proto.ArkToHost)

/-- What they return. -/
inductive ArkReturn (proto : Protocol (List UInt8))
  | nextMessage (result : Except Error proto.HostToArk)
  | sendMessage (result : Except Error Unit)

namespace ArkProc

open Schedule

variable {coins : Nat → Coins c} {reads : List ReadEvent} {p q : ArkProc c proto A cobs maxFrameSize}

/-- An event of a schedule as an action on the process. -/
def action : Event ReadEvent (ArkMethod proto) → ArkAction proto
  | .feed reads => .arrive reads
  | .invoke .nextMessage => .nextMessage
  | .invoke (.sendMessage res) => .sendMessage res
  | .poll => .poll

/-- The poll that comes next finds what `next_packet` returns. -/
def Ready (p : ArkProc c proto A cobs maxFrameSize) : Prop :=
  ∃ point discard packet, p.call = some (point, discard) ∧
    Framing.packetOf (p.side.framing.nextPacketLoop discard) = .ready packet

/-- The process as a machine that reads a stream. -/
def machine [Attester c A] (coins : Nat → Coins c) :
    Machine (ArkProc c proto A cobs maxFrameSize) ReadEvent (ArkMethod proto) (ArkReturn proto) where
  feed reads p := p.step coins (.arrive reads)
  invoke
    | .nextMessage, p => (none, p.step coins .nextMessage)
    | .sendMessage res, p => (some (.sendMessage (p.side.sendMessage proto res).1), p.step coins (.sendMessage res))
  poll p :=
    (match p.call with
      | none => none
      | some (point, discard) => (p.poll coins point discard).1.map .nextMessage,
    p.step coins .poll)
  Idle p := p.call = none
  Ready p := p.Ready

theorem machine_run [Attester c A] (p : ArkProc c proto A cobs maxFrameSize)
    (events : List (Event ReadEvent (ArkMethod proto))) :
    (machine coins).run p events = p.run coins (events.map action) := by
  induction events generalizing p with
  | nil => rfl
  | cons event events ih =>
      rw [List.map_cons, run_cons, ← ih]
      rcases event with reads | (_ | res) | _ <;> rfl

/-- Two processes in the same call, that have the same stream in front of them once these reads have arrived at the first,
and differ in nothing else but what their framers hold. -/
inductive Ahead (reads : List ReadEvent) :
    ArkProc c proto A cobs maxFrameSize → ArkProc c proto A cobs maxFrameSize → Prop
  | idle {side side' history} (hside : ArkSide.Alike (fun f g => Framing.Alike (f.arrive reads) 0 g 0) side side') :
      Ahead reads ⟨side, none, history⟩ ⟨side', none, history⟩
  | waiting {side side' point d e history}
      (hside : ArkSide.Alike (fun f g => Framing.Alike (f.arrive reads) d g e) side side') :
      Ahead reads ⟨side, some (point, d), history⟩ ⟨side', some (point, e), history⟩

theorem settle_ahead (history : History c proto.HostToArk) (before : Option (Session c))
    {outcome outcome' : Flow (MessagePoint c) proto.HostToArk × ArkSide c A (Framing cobs maxFrameSize)}
    (hflow : outcome'.1 = outcome.1)
    (h : ArkSide.Alike (fun f g => Framing.Alike (f.arrive reads) 0 g 0) outcome.2 outcome'.2) :
    (settle history before outcome).1 = (settle history before outcome').1 ∧
      Ahead reads (settle history before outcome).2 (settle history before outcome').2 := by
  obtain ⟨flow, side⟩ := outcome
  obtain ⟨flow', side'⟩ := outcome'
  obtain rfl : flow' = flow := hflow
  rcases flow' with point | result
  · refine ⟨rfl, ?_⟩
    have hwriter : side'.framing.writer = side.framing.writer := h.framing.writer
    have hsession : side'.session = side.session := h.session
    rw [settle, settle, hwriter, hsession]
    exact .waiting h
  · exact ⟨rfl, .idle h⟩

variable [Attester c A]

/-- A call that waits for the rest of the stream, or that gets as far as the one that has it. -/
theorem poll_ahead (coins : Nat → Coins c) (point : MessagePoint c) {side side' : ArkSide c A (Framing cobs maxFrameSize)} {d e : Nat}
    (history : History c proto.HostToArk)
    (h : ArkSide.Alike (fun f g => Framing.Alike (f.arrive reads) d g e) side side') :
    (¬ Ready ⟨side, some (point, d), history⟩ ∧ (poll coins ⟨side, some (point, d), history⟩ point d).1 = none ∧
        Ahead reads (poll coins ⟨side, some (point, d), history⟩ point d).2 ⟨side', some (point, e), history⟩) ∨
      Ready ⟨side, some (point, d), history⟩ ∧ Ready ⟨side', some (point, e), history⟩ ∧
        (poll coins ⟨side, some (point, d), history⟩ point d).1 =
          (poll coins ⟨side', some (point, e), history⟩ point e).1 ∧
        Ahead reads (poll coins ⟨side, some (point, d), history⟩ point d).2
          (poll coins ⟨side', some (point, e), history⟩ point e).2 := by
  obtain ⟨f, signer, attester, session, draws⟩ := side
  obtain ⟨g, signer', attester', session', draws'⟩ := side'
  obtain ⟨hframing, rfl, rfl, rfl, rfl⟩ := h
  rcases Framing.Alike.poll_arrive hframing with ⟨d', hpending, halike⟩ | ⟨packet, hready, hready', halike⟩
  · refine Or.inl ⟨?_, ?_⟩
    · rintro ⟨point', discard, packet, hcall, hready⟩
      cases hcall
      cases hpending.symm.trans hready
    · rw [poll_pending coins _ point hpending]
      exact ⟨rfl, .waiting ⟨halike, rfl, rfl, rfl, rfl⟩⟩
  · refine Or.inr ⟨⟨point, d, packet, rfl, hready⟩, ⟨point, e, packet, rfl, hready'⟩, ?_⟩
    have hside : ArkSide.Alike (fun f g => Framing.Alike (f.arrive reads) 0 g 0)
        (⟨(f.nextPacketLoop d).2, signer', attester', session', draws'⟩ : ArkSide c A (Framing cobs maxFrameSize))
        ⟨(g.nextPacketLoop e).2, signer', attester', session', draws'⟩ := ⟨halike, rfl, rfl, rfl, rfl⟩
    obtain ⟨hflow, hnext⟩ := hside.nextMessageStep (Framing.bisimilar reads) proto (coins draws') point packet
    rw [ArkProc.poll, ArkProc.poll]
    dsimp only at hready hready' ⊢
    rw [hready, hready']
    exact settle_ahead _ _ hflow hnext

/-- A process does not tell from how its stream is cut what it is going to do. -/
theorem lookahead (coins : Nat → Coins c) :
    Lookahead (machine coins) (Ahead : _ → ArkProc c proto A cobs maxFrameSize → _ → Prop) where
  feed := by
    intro chunks more p q h
    cases h with
    | idle h => exact .idle ⟨Framing.arrive_arrive _ _ _ ▸ h.framing, h.signer, h.attester, h.session, h.draws⟩
    | waiting h => exact .waiting ⟨Framing.arrive_arrive _ _ _ ▸ h.framing, h.signer, h.attester, h.session, h.draws⟩
  idle := by
    intro chunks p q h hidle
    cases h with
    | idle h => rfl
    | waiting h => cases hidle
  invoke := by
    intro chunks p q call h hidle
    cases h with
    | waiting h => cases hidle
    | @idle side side' history h =>
        cases call with
        | nextMessage => exact ⟨rfl, .waiting h⟩
        | sendMessage res =>
            obtain ⟨hresult, halike⟩ := h.sendMessage (Framing.bisimilar chunks) proto res
            have hsession : side'.session = side.session := h.session
            refine ⟨congrArg (fun result => some (ArkReturn.sendMessage result)) hresult.symm, ?_⟩
            change Ahead chunks ⟨_, none, History.noteSeal _ _ _ side.session res⟩
              ⟨_, none, History.noteSeal _ _ _ side'.session res⟩
            rw [hsession]
            exact .idle halike
  ready := by
    intro chunks p q h hready
    cases h with
    | idle h =>
        obtain ⟨point, discard, packet, hcall, _⟩ := hready
        cases hcall
    | @waiting _ _ point _ _ history h =>
        rcases poll_ahead coins point history h with ⟨hwaits, _⟩ | ⟨_, hready', hret, hnext⟩
        · exact absurd hready hwaits
        · exact ⟨hready', congrArg (Option.map ArkReturn.nextMessage) hret, hnext⟩
  waits := by
    intro chunks p q h hwaits
    cases h with
    | idle h => exact ⟨rfl, .idle h⟩
    | @waiting _ _ point _ _ history h =>
        rcases poll_ahead coins point history h with ⟨_, hret, hnext⟩ | ⟨hready, _⟩
        · exact ⟨congrArg (Option.map ArkReturn.nextMessage) hret, hnext⟩
        · exact absurd hready hwaits
  busy := by
    intro p hready hidle
    obtain ⟨point, discard, packet, hcall, _⟩ := hready
    cases hidle.symm.trans hcall

theorem ahead_new (coins : Nat → Coins c) {reader : Reader} {writer : Writer} {signer : c.XdsaSecretKey} {attester : A}
    (hnew : p = new reader writer signer attester) {reads' : List ReadEvent}
    (hstream : Reader.tokens reads = Reader.tokens reads') : Ahead reads p (p.step coins (.arrive reads')) := by
  subst hnew
  exact .idle ⟨(Framing.Alike.refl (Framing.new_wf reader writer).wfAt).arrive hstream, rfl, rfl, rfl, rfl⟩

omit [Attester c A] in
theorem Ahead.observed {more : List ReadEvent} {u : ArkProc c proto A cobs maxFrameSize} (h : Ahead reads p u)
    (h' : Ahead more q u) :
    p.side.session = q.side.session ∧ p.side.framing.writer = q.side.framing.writer ∧ p.history = q.history := by
  have hwith : ∀ {reads p}, Ahead reads p u →
      u.side.session = p.side.session ∧ u.side.framing.writer = p.side.framing.writer ∧ u.history = p.history := by
    intro reads p hahead
    cases hahead with
    | idle hside => exact ⟨hside.session, hside.framing.writer, rfl⟩
    | waiting hside => exact ⟨hside.session, hside.framing.writer, rfl⟩
  obtain ⟨hsession, hwriter, hhistory⟩ := hwith h
  obtain ⟨hsession', hwriter', hhistory'⟩ := hwith h'
  exact ⟨hsession.symm.trans hsession', hwriter.symm.trans hwriter', hhistory.symm.trans hhistory'⟩

end ArkProc

open Schedule in
/-- An Ark under two schedules. The calls of one are the first of the other's and its stream the front of the other's. What
its calls return are then the first of what the other's return, provided that these are over in the end. If they are the same
calls and over in both, both hold the same session, have written the same and sealed and opened the same. -/
theorem ark_rescheduled [Attester c A] (coins : Nat → Coins c) (reader : Reader) (writer : Writer)
    (signer : c.XdsaSecretKey) (attester : A) {p : ArkProc c proto A cobs maxFrameSize}
    (hnew : p = .new reader writer signer attester) {events events' : List (Event ReadEvent (ArkMethod proto))}
    (horderly : (ArkProc.machine coins).Orderly p events) (horderly' : (ArkProc.machine coins).Orderly p events')
    (rest : List ReadEvent) (hstream : Reader.tokens (arrivals events ++ rest) = Reader.tokens (arrivals events'))
    (hcalls : calls events <+: calls events') (hover' : (p.run coins (events'.map ArkProc.action)).call = none) :
    (ArkProc.machine coins).results p events <+: (ArkProc.machine coins).results p events' ∧
      (calls events = calls events' → (p.run coins (events.map ArkProc.action)).call = none →
        (ArkProc.machine coins).results p events = (ArkProc.machine coins).results p events' ∧
          (p.run coins (events.map ArkProc.action)).side.session =
            (p.run coins (events'.map ArkProc.action)).side.session ∧
          (p.run coins (events.map ArkProc.action)).side.framing.writer =
            (p.run coins (events'.map ArkProc.action)).side.framing.writer ∧
          (p.run coins (events.map ArkProc.action)).history = (p.run coins (events'.map ArkProc.action)).history) := by
  rw [← ArkProc.machine_run] at hover'
  rw [← ArkProc.machine_run, ← ArkProc.machine_run]
  have hahead := ArkProc.ahead_new coins hnew hstream
  have hahead' := ArkProc.ahead_new coins hnew (congrArg Reader.tokens (List.append_nil (arrivals events')))
  refine ⟨(ArkProc.lookahead coins).results_extend horderly horderly' hahead hahead' hcalls hover', ?_⟩
  intro hsame hover
  obtain ⟨hresults, u, hend, hend'⟩ :=
    (ArkProc.lookahead coins).results_eq horderly horderly' hahead hahead' hsame hover hover'
  exact ⟨hresults, hend.observed hend'⟩

namespace Reference

open Schedule

/-- Bytes that arrive one by one, with a poll after each. -/
def bytewise {Method : Type} (bytes : List UInt8) : List (Event ReadEvent Method) :=
  bytes.flatMap fun b => [.feed [.data [b]], .poll]

theorem calls_bytewise {Method : Type} (bytes : List UInt8) : calls (bytewise bytes : List (Event ReadEvent Method)) = [] := by
  induction bytes with
  | nil => rfl
  | cons b bytes ih => exact ih

/-- What is written by a host that sends two messages. -/
def hostWrites : List UInt8 := (host.run coins hostSends).side.framing.writer.wire

/-- The Ark waits for the first of them, and gets what the host writes byte by byte. -/
def arkWaits : List (Event ReadEvent (ArkMethod protocol)) :=
  .invoke .nextMessage :: bytewise hostWrites ++ [.invoke .nextMessage, .poll]

/-- All of it is there when the Ark looks for the first message. -/
def arkLooks : List (Event ReadEvent (ArkMethod protocol)) :=
  [.feed (Reader.chunk hostWrites), .invoke .nextMessage, .poll, .poll, .poll, .poll, .poll]

/-- And for the second. -/
def arkCollects : List (Event ReadEvent (ArkMethod protocol)) := arkLooks ++ [.invoke .nextMessage, .poll]

theorem arkWaits_orderly : (ArkProc.machine coins).Orderly (ark []) arkWaits := by
  have hidle : ((ark []).run coins ((.invoke .nextMessage :: bytewise hostWrites).map ArkProc.action)).call = none := by
    rw [← Option.isNone_iff_eq_none]
    decide +kernel
  rw [← ArkProc.machine_run] at hidle
  exact (Machine.orderly_append _ _ _ _).mpr ⟨Machine.orderly_invoke _ rfl _ (calls_bytewise _),
    Machine.orderly_invoke _ hidle _ rfl⟩

theorem arkCollects_orderly : (ArkProc.machine coins).Orderly (ark []) arkCollects := by
  have hidle : ((ark []).run coins (arkLooks.map ArkProc.action)).call = none := by
    rw [← Option.isNone_iff_eq_none]
    decide +kernel
  rw [← ArkProc.machine_run] at hidle
  refine (Machine.orderly_append _ _ _ _).mpr ⟨⟨?_, ?_⟩, Machine.orderly_invoke _ hidle _ rfl⟩
  · intro call hcall
    cases hcall
  · exact Machine.orderly_invoke _ rfl _ rfl

end Reference

open Schedule Reference in
/-- The Ark that gets a handshake and two messages byte by byte returns what the one does that finds them. -/
theorem ark_rescheduled_reference :
    (ArkProc.machine coins).results (ark []) arkWaits = (ArkProc.machine coins).results (ark []) arkCollects ∧
      ((ark []).run coins (arkWaits.map ArkProc.action)).side.session =
        ((ark []).run coins (arkCollects.map ArkProc.action)).side.session := by
  have hcalls : calls arkWaits = calls arkCollects := by
    rw [arkWaits, calls_append, calls, calls_bytewise]
    rfl
  have hstream : Reader.tokens (arrivals arkWaits ++ []) = Reader.tokens (arrivals arkCollects) := by
    decide +kernel
  have hover : ((ark []).run coins (arkWaits.map ArkProc.action)).call = none := by
    rw [← Option.isNone_iff_eq_none]
    decide +kernel
  have hover' : ((ark []).run coins (arkCollects.map ArkProc.action)).call = none := by
    rw [← Option.isNone_iff_eq_none]
    decide +kernel
  have hprefix : calls arkWaits <+: calls arkCollects := ⟨[], (List.append_nil _).trans hcalls⟩
  obtain ⟨_, hall⟩ := ark_rescheduled coins [] ⟨[], []⟩ (7 : Nat) attestation (rfl : ark [] = _) arkWaits_orderly
    arkCollects_orderly [] hstream hprefix hover'
  obtain ⟨hresults, hsession, _⟩ := hall hcalls hover
  exact ⟨hresults, hsession⟩

/-! ### The host -/

/-- The methods of the host. -/
inductive HostMethod (c : Crypto (List UInt8)) (proto : Protocol (List UInt8)) (Info : Type)
  | handshake (verifier : Verifier c Info)
  | nextMessage
  | sendMessage (req : proto.HostToArk)

namespace HostProc

open Schedule

variable {coins : Nat → Coins c} {reads : List ReadEvent} {p q : HostProc c proto Info cobs maxFrameSize}

/-- An event of a schedule as an action on the process. -/
def action : Event ReadEvent (HostMethod c proto Info) → HostAction c proto Info
  | .feed reads => .arrive reads
  | .invoke (.handshake verifier) => .handshake verifier
  | .invoke .nextMessage => .nextMessage
  | .invoke (.sendMessage req) => .sendMessage req
  | .poll => .poll

/-- The poll that comes next finds what `next_packet` returns. -/
def Ready (p : HostProc c proto Info cobs maxFrameSize) : Prop :=
  ∃ call discard packet, p.call = some (call, discard) ∧
    Framing.packetOf (p.side.framing.nextPacketLoop discard) = .ready packet

/-- The process as a machine that reads a stream. -/
def machine (coins : Nat → Coins c) :
    Machine (HostProc c proto Info cobs maxFrameSize) ReadEvent (HostMethod c proto Info) (Outcome proto Info) where
  feed reads p := p.step coins (.arrive reads)
  invoke method p := (p.outcome coins (action (.invoke method)), p.step coins (action (.invoke method)))
  poll p := (p.outcome coins .poll, p.step coins .poll)
  Idle p := p.call = none
  Ready p := p.Ready

theorem machine_run (p : HostProc c proto Info cobs maxFrameSize)
    (events : List (Event ReadEvent (HostMethod c proto Info))) :
    (machine coins).run p events = p.run coins (events.map action) := by
  induction events generalizing p with
  | nil => rfl
  | cons event events ih =>
      rw [List.map_cons]
      change (machine coins).run _ events = run coins (p.step coins (action event)) (events.map action)
      rw [← ih]
      rcases event with reads | (verifier | _ | req) | _ <;> rfl

/-- Two processes in the same call, that have the same stream in front of them once these reads have arrived at the first,
and differ in nothing else but what their framers hold. -/
inductive Ahead (reads : List ReadEvent) :
    HostProc c proto Info cobs maxFrameSize → HostProc c proto Info cobs maxFrameSize → Prop
  | idle {side side' history} (hside : HostSide.Alike (fun f g => Framing.Alike (f.arrive reads) 0 g 0) side side') :
      Ahead reads ⟨side, none, history⟩ ⟨side', none, history⟩
  | waiting {side side' call d e history}
      (hside : HostSide.Alike (fun f g => Framing.Alike (f.arrive reads) d g e) side side') :
      Ahead reads ⟨side, some (call, d), history⟩ ⟨side', some (call, e), history⟩

theorem settleHandshake_ahead (history : History c proto.ArkToHost) (before : Option (Session c))
    {outcome outcome' : Flow (HelloWait c Info) Info × HostSide c (Framing cobs maxFrameSize)}
    (hflow : outcome'.1 = outcome.1)
    (h : HostSide.Alike (fun f g => Framing.Alike (f.arrive reads) 0 g 0) outcome.2 outcome'.2) :
    ((settleHandshake history before outcome).1 : Option (Returned proto Info)) =
        (settleHandshake history before outcome').1 ∧
      Ahead reads (settleHandshake history before outcome).2 (settleHandshake history before outcome').2 := by
  obtain ⟨flow, side⟩ := outcome
  obtain ⟨flow', side'⟩ := outcome'
  obtain rfl : flow' = flow := hflow
  rcases flow' with wait | result
  · exact ⟨rfl, .waiting h⟩
  · refine ⟨rfl, ?_⟩
    have hwriter : side'.framing.writer = side.framing.writer := h.framing.writer
    have hsession : side'.session = side.session := h.session
    rw [settleHandshake, settleHandshake, hwriter, hsession]
    exact .idle h

theorem settleMessage_ahead (history : History c proto.ArkToHost)
    {outcome outcome' : Except Error proto.ArkToHost × HostSide c (Framing cobs maxFrameSize)}
    (hresult : outcome'.1 = outcome.1)
    (h : HostSide.Alike (fun f g => Framing.Alike (f.arrive reads) 0 g 0) outcome.2 outcome'.2) :
    ((settleMessage history outcome).1 : Option (Returned proto Info)) = (settleMessage history outcome').1 ∧
      Ahead reads ((settleMessage history outcome).2 : HostProc c proto Info cobs maxFrameSize)
        (settleMessage history outcome').2 := by
  obtain ⟨result, side⟩ := outcome
  obtain ⟨result', side'⟩ := outcome'
  obtain rfl : result' = result := hresult
  exact ⟨rfl, .idle h⟩

theorem handshake_ahead (coins : Nat → Coins c) (verifier : Verifier c Info)
    {side side' : HostSide c (Framing cobs maxFrameSize)} (history : History c proto.ArkToHost)
    (h : HostSide.Alike (fun f g => Framing.Alike (f.arrive reads) 0 g 0) side side') :
    (side'.handshakeStart (coins side'.draws) verifier).1 = (side.handshakeStart (coins side.draws) verifier).1 ∧
      Ahead reads (step coins ⟨side, none, history⟩ (.handshake verifier))
        (step coins ⟨side', none, history⟩ (.handshake verifier)) := by
  rw [h.draws]
  obtain ⟨hresult, hnext⟩ := h.handshakeStart (Framing.bisimilar reads) (coins side.draws) verifier
  refine ⟨hresult, ?_⟩
  rw [step, step]
  dsimp only
  rw [h.draws]
  generalize side.handshakeStart (coins side.draws) verifier = started at hresult hnext ⊢
  generalize side'.handshakeStart (coins side.draws) verifier = started' at hresult hnext ⊢
  obtain ⟨result, side⟩ := started
  obtain ⟨result', side'⟩ := started'
  obtain rfl : result' = result := hresult
  rcases result' with err | wait
  · exact .idle hnext
  · exact .waiting hnext

/-- A call that waits for the rest of the stream, or that gets as far as the one that has it. -/
theorem poll_ahead (coins : Nat → Coins c) (call : HostCall c Info) {side side' : HostSide c (Framing cobs maxFrameSize)}
    {d e : Nat} (history : History c proto.ArkToHost)
    (h : HostSide.Alike (fun f g => Framing.Alike (f.arrive reads) d g e) side side') :
    (¬ Ready ⟨side, some (call, d), history⟩ ∧ (poll coins ⟨side, some (call, d), history⟩ call d).1 = none ∧
        Ahead reads (poll coins ⟨side, some (call, d), history⟩ call d).2 ⟨side', some (call, e), history⟩) ∨
      Ready ⟨side, some (call, d), history⟩ ∧ Ready ⟨side', some (call, e), history⟩ ∧
        (poll coins ⟨side, some (call, d), history⟩ call d).1 =
          (poll coins ⟨side', some (call, e), history⟩ call e).1 ∧
        Ahead reads (poll coins ⟨side, some (call, d), history⟩ call d).2
          (poll coins ⟨side', some (call, e), history⟩ call e).2 := by
  obtain ⟨f, session, draws⟩ := side
  obtain ⟨g, session', draws'⟩ := side'
  obtain ⟨hframing, rfl, rfl⟩ := h
  rcases Framing.Alike.poll_arrive hframing with ⟨d', hpending, halike⟩ | ⟨packet, hready, hready', halike⟩
  · refine Or.inl ⟨?_, ?_⟩
    · rintro ⟨call', discard, packet, hcall, hready⟩
      cases hcall
      cases hpending.symm.trans hready
    · rw [poll_pending coins _ call hpending]
      exact ⟨rfl, .waiting ⟨halike, rfl, rfl⟩⟩
  · refine Or.inr ⟨⟨call, d, packet, rfl, hready⟩, ⟨call, e, packet, rfl, hready'⟩, ?_⟩
    have hside : HostSide.Alike (fun f g => Framing.Alike (f.arrive reads) 0 g 0)
        (⟨(f.nextPacketLoop d).2, session', draws'⟩ : HostSide c (Framing cobs maxFrameSize))
        ⟨(g.nextPacketLoop e).2, session', draws'⟩ := ⟨halike, rfl, rfl⟩
    rw [HostProc.poll, HostProc.poll]
    dsimp only at hready hready' ⊢
    rw [hready, hready']
    cases call with
    | handshake wait =>
        obtain ⟨hflow, hnext⟩ := hside.handshakeStep (Framing.bisimilar reads) (coins draws') wait packet
        exact settleHandshake_ahead _ _ hflow hnext
    | nextMessage =>
        obtain ⟨hresult, hnext⟩ := hside.nextMessageStep proto packet
        exact settleMessage_ahead _ hresult hnext

/-- A process does not tell from how its stream is cut what it is going to do. -/
theorem lookahead (coins : Nat → Coins c) :
    Lookahead (machine coins) (Ahead : _ → HostProc c proto Info cobs maxFrameSize → _ → Prop) where
  feed := by
    intro chunks more p q h
    cases h with
    | idle h => exact .idle ⟨Framing.arrive_arrive _ _ _ ▸ h.framing, h.session, h.draws⟩
    | waiting h => exact .waiting ⟨Framing.arrive_arrive _ _ _ ▸ h.framing, h.session, h.draws⟩
  idle := by
    intro chunks p q h hidle
    cases h with
    | idle h => rfl
    | waiting h => cases hidle
  invoke := by
    intro chunks p q method h hidle
    cases h with
    | waiting h => cases hidle
    | @idle side side' history h =>
        cases method with
        | nextMessage => exact ⟨rfl, .waiting h⟩
        | handshake verifier =>
            obtain ⟨hresult, hnext⟩ := handshake_ahead coins verifier history h
            refine ⟨?_, hnext⟩
            dsimp only [machine, action, outcome]
            rw [hresult]
        | sendMessage req =>
            obtain ⟨hresult, halike⟩ := h.sendMessage (Framing.bisimilar chunks) proto req
            have hsession : side'.session = side.session := h.session
            refine ⟨congrArg (fun result => some (Outcome.sendMessage result)) hresult.symm, ?_⟩
            change Ahead chunks ⟨_, none, History.noteSeal _ _ _ side.session req⟩
              ⟨_, none, History.noteSeal _ _ _ side'.session req⟩
            rw [hsession]
            exact .idle halike
  ready := by
    intro chunks p q h hready
    cases h with
    | idle h =>
        obtain ⟨call, discard, packet, hcall, _⟩ := hready
        cases hcall
    | @waiting _ _ call _ _ history h =>
        rcases poll_ahead coins call history h with ⟨hwaits, _⟩ | ⟨_, hready', hret, hnext⟩
        · exact absurd hready hwaits
        · exact ⟨hready', congrArg (Option.map Returned.outcome) hret, hnext⟩
  waits := by
    intro chunks p q h hwaits
    cases h with
    | idle h => exact ⟨rfl, .idle h⟩
    | @waiting _ _ call _ _ history h =>
        rcases poll_ahead coins call history h with ⟨_, hret, hnext⟩ | ⟨hready, _⟩
        · exact ⟨congrArg (Option.map Returned.outcome) hret, hnext⟩
        · exact absurd hready hwaits
  busy := by
    intro p hready hidle
    obtain ⟨call, discard, packet, hcall, _⟩ := hready
    cases hidle.symm.trans hcall

theorem ahead_new (coins : Nat → Coins c) {reader : Reader} {writer : Writer} (hnew : p = new reader writer)
    {reads' : List ReadEvent} (hstream : Reader.tokens reads = Reader.tokens reads') :
    Ahead reads p (p.step coins (.arrive reads')) := by
  subst hnew
  exact .idle ⟨(Framing.Alike.refl (Framing.new_wf reader writer).wfAt).arrive hstream, rfl, rfl⟩

theorem Ahead.observed {more : List ReadEvent} {u : HostProc c proto Info cobs maxFrameSize} (h : Ahead reads p u)
    (h' : Ahead more q u) :
    p.side.session = q.side.session ∧ p.side.framing.writer = q.side.framing.writer ∧ p.history = q.history := by
  have hwith : ∀ {reads p}, Ahead reads p u →
      u.side.session = p.side.session ∧ u.side.framing.writer = p.side.framing.writer ∧ u.history = p.history := by
    intro reads p hahead
    cases hahead with
    | idle hside => exact ⟨hside.session, hside.framing.writer, rfl⟩
    | waiting hside => exact ⟨hside.session, hside.framing.writer, rfl⟩
  obtain ⟨hsession, hwriter, hhistory⟩ := hwith h
  obtain ⟨hsession', hwriter', hhistory'⟩ := hwith h'
  exact ⟨hsession.symm.trans hsession', hwriter.symm.trans hwriter', hhistory.symm.trans hhistory'⟩

end HostProc

open Schedule in
/-- The same for a host: what its handshakes verify and what its calls return is in the stream and the calls. -/
theorem host_rescheduled (coins : Nat → Coins c) (reader : Reader) (writer : Writer)
    {p : HostProc c proto Info cobs maxFrameSize} (hnew : p = .new reader writer)
    {events events' : List (Event ReadEvent (HostMethod c proto Info))}
    (horderly : (HostProc.machine coins).Orderly p events) (horderly' : (HostProc.machine coins).Orderly p events')
    (rest : List ReadEvent) (hstream : Reader.tokens (arrivals events ++ rest) = Reader.tokens (arrivals events'))
    (hcalls : calls events <+: calls events') (hover' : (p.run coins (events'.map HostProc.action)).call = none) :
    (HostProc.machine coins).results p events <+: (HostProc.machine coins).results p events' ∧
      (calls events = calls events' → (p.run coins (events.map HostProc.action)).call = none →
        (HostProc.machine coins).results p events = (HostProc.machine coins).results p events' ∧
          (p.run coins (events.map HostProc.action)).side.session =
            (p.run coins (events'.map HostProc.action)).side.session ∧
          (p.run coins (events.map HostProc.action)).side.framing.writer =
            (p.run coins (events'.map HostProc.action)).side.framing.writer ∧
          (p.run coins (events.map HostProc.action)).history = (p.run coins (events'.map HostProc.action)).history) := by
  rw [← HostProc.machine_run] at hover'
  rw [← HostProc.machine_run, ← HostProc.machine_run]
  have hahead := HostProc.ahead_new coins hnew hstream
  have hahead' := HostProc.ahead_new coins hnew (congrArg Reader.tokens (List.append_nil (arrivals events')))
  refine ⟨(HostProc.lookahead coins).results_extend horderly horderly' hahead hahead' hcalls hover', ?_⟩
  intro hsame hover
  obtain ⟨hresults, u, hend, hend'⟩ :=
    (HostProc.lookahead coins).results_eq horderly horderly' hahead hahead' hsame hover hover'
  exact ⟨hresults, hend.observed hend'⟩

namespace Reference

open Schedule

/-- What is written by an Ark that answers the hello of a host. -/
def arkWrites : List UInt8 := ((ark []).run coins arkAnswers).side.framing.writer.wire

/-- The host gets it byte by byte. -/
def hostWaits : List (Event ReadEvent (HostMethod crypto protocol (Attestation crypto))) :=
  .invoke (.handshake (Verifier.pinned (7 : Nat))) :: bytewise arkWrites

/-- All of it is there before the host begins. -/
def hostCollects : List (Event ReadEvent (HostMethod crypto protocol (Attestation crypto))) :=
  [.feed (Reader.chunk arkWrites), .invoke (.handshake (Verifier.pinned (7 : Nat))), .poll]

end Reference

open Schedule Reference in
/-- A host that gets the ArkHello byte by byte comes into the session of the one that finds it. -/
theorem host_rescheduled_reference :
    (HostProc.machine coins).results host hostWaits = (HostProc.machine coins).results host hostCollects ∧
      (host.run coins (hostWaits.map HostProc.action)).side.session =
        (host.run coins (hostCollects.map HostProc.action)).side.session := by
  have hwaits : (HostProc.machine coins).Orderly host hostWaits :=
    Machine.orderly_invoke _ rfl _ (calls_bytewise _)
  have hfinds : (HostProc.machine coins).Orderly host hostCollects := by
    refine ⟨?_, Machine.orderly_invoke _ rfl _ rfl⟩
    intro call hcall
    cases hcall
  have hcalls : calls hostWaits = calls hostCollects := by
    rw [hostWaits, calls, calls_bytewise]
    rfl
  have hprefix : calls hostWaits <+: calls hostCollects := ⟨[], (List.append_nil _).trans hcalls⟩
  have hstream : Reader.tokens (arrivals hostWaits ++ []) = Reader.tokens (arrivals hostCollects) := by
    decide +kernel
  have hover : (host.run coins (hostWaits.map HostProc.action)).call = none := by
    rw [← Option.isNone_iff_eq_none]
    decide +kernel
  have hover' : (host.run coins (hostCollects.map HostProc.action)).call = none := by
    rw [← Option.isNone_iff_eq_none]
    decide +kernel
  obtain ⟨_, hall⟩ := host_rescheduled coins [] ⟨[], []⟩ (rfl : host = _) hwaits hfinds [] hstream hprefix hover'
  obtain ⟨hresults, hsession, _⟩ := hall hcalls hover
  exact ⟨hresults, hsession⟩

end Sides

end DarkbioWire
