import DarkbioWire.Secrecy
import DarkbioWire.Traffic

/-!
# Integrity of payloads

What the sessions open, against the attacker of the network. In a channel neither end of which is the attacker's a packet
opens only if a side sealed it there, under the number the receiver has come to (`Run.arkVouched`, `Run.hostVouched`). By
agreement such a channel belongs to one session of the peer, so the payloads a protected session opens are a prefix of
those its peer sealed in the session paired with it: nothing is forged, left out, repeated or put out of order.
-/

namespace DarkbioWire

open Symbolic Era

section Integrity

variable {Blob : Type} {c : Crypto Blob} {hpke : Contexts c} {proto : Protocol Blob} {A Info : Type} [Attester c A]
  {limit : Nat} {reading : Reading hpke} {parties : Parties c} {trace : Trace c proto A Info limit}
  {w : World c A Info limit} {action : Action c proto Info} {a h : Nat}

/-- What a receiver opens was sealed in its channel under its number. -/
def Reading.Opens (reading : Reading hpke) : Prop :=
  ∀ {receiver packet payload receiver' key encap info}, hpke.recvChannel receiver = (key, encap, info) →
    c.receiverOpen receiver packet = (.ok payload, receiver') →
    reading.term packet = .sealed (reading.publicKey key) (reading.term encap) info (hpke.recvSeq receiver)
      (reading.term payload)

/-- Neither end of the channel is the attacker's. -/
structure Closed (reading : Reading hpke) (channel : Channel c) : Prop where
  key : reading.publicKey channel.1 ∉ Name.own
  seed : ∀ n seed, reading.term channel.2.1 = .encap n seed → seed ∉ Name.own

/-- A side sealed this payload in this channel, under this number. -/
def Sealed (hpke : Contexts c) (parties : Parties c) (trace : Trace c proto A Info limit) (channel : Channel c) (seq : Nat)
    (payload : Blob) : Prop :=
  (∃ a, ∃ era ∈ arkEras a trace, hpke.sendChannel era.session.sender = channel ∧ era.sealed[seq]? = some payload) ∨
    ∃ h, ∃ era ∈ hostEras parties h trace,
      hpke.sendChannel era.session.sender = channel ∧ era.sealed[seq]? = some payload

theorem Era.Grows.getElem? {era era' : Era c} (h : era.Grows era') {i : Nat} {payload : Blob}
    (hsealed : era.sealed[i]? = some payload) : era'.sealed[i]? = some payload := by
  obtain ⟨more, hmore⟩ := h.sealed
  rw [← hmore, List.getElem?_append_left (List.getElem?_eq_some_iff.mp hsealed).1]
  exact hsealed

theorem Sealed.step {channel : Channel c} {seq : Nat} {payload : Blob} (hrun : Run reading parties trace w)
    (h : Sealed hpke parties trace channel seq payload) (action : Action c proto Info) :
    Sealed hpke parties ((w, action) :: trace) channel seq payload := by
  rcases h with ⟨a, era, hmem, hchannel, hsealed⟩ | ⟨i, era, hmem, hchannel, hsealed⟩
  · obtain ⟨era', hmem', hgrows⟩ := (hrun.ark_passes a action).grows hmem
    exact Or.inl ⟨a, era', hmem', hgrows.session ▸ hchannel, hgrows.getElem? hsealed⟩
  · obtain ⟨era', hmem', hgrows⟩ := (host_passes hpke parties trace w i action).grows hmem
    exact Or.inr ⟨i, era', hmem', hgrows.session ▸ hchannel, hgrows.getElem? hsealed⟩

/-! ### What is sent -/

/-- In this step an Ark sealed a payload in its session, as this packet. -/
structure ArkSealed (hpke : Contexts c) (parties : Parties c) (trace : Trace c proto A Info limit)
    (past : World c A Info limit × Action c proto Info) (a : Nat) (session : Session c) (payload packet : Blob) : Prop where
  given : ∃ res, past.2 = .ark a (.sendMessage res) ∧ proto.arkToHost.encode res = .ok payload
  active : (past.1.ark a).side.session = some session
  sealing : ∃ sender, c.senderSeal session.sender payload = (.ok packet, sender)
  sealed : Sealed hpke parties trace (hpke.sendChannel session.sender) (hpke.sendSeq session.sender) payload

/-- In this step a host sealed a payload in its session, as this packet. -/
structure HostSealed (hpke : Contexts c) (parties : Parties c) (trace : Trace c proto A Info limit)
    (past : World c A Info limit × Action c proto Info) (h : Nat) (session : Session c) (payload packet : Blob) : Prop where
  given : ∃ req, past.2 = .host h (.sendMessage req) ∧ proto.hostToArk.encode req = .ok payload
  active : (past.1.host h).side.session = some session
  sealing : ∃ sender, c.senderSeal session.sender payload = (.ok packet, sender)
  sealed : Sealed hpke parties trace (hpke.sendChannel session.sender) (hpke.sendSeq session.sender) payload

/-- What a packet that was sent in a run is. -/
inductive Origin (hpke : Contexts c) (parties : Parties c) (trace : Trace c proto A Info limit) (packet : Blob) : Prop
  | hello {hello : HostHello c} : c.cborEncode hello.toCbor = .ok packet → Origin hpke parties trace packet
  | answer {past a taken wait arkHello} : past ∈ trace → AnswersAt parties a past taken wait arkHello packet →
      Origin hpke parties trace packet
  | ack {past h taken wait verified session} : past ∈ trace → AcksAt parties h past taken wait verified session packet →
      Origin hpke parties trace packet
  | arkSealed {past a session payload} : past ∈ trace → ArkSealed hpke parties trace past a session payload packet →
      Origin hpke parties trace packet
  | hostSealed {past h session payload} : past ∈ trace → HostSealed hpke parties trace past h session payload packet →
      Origin hpke parties trace packet

theorem Origin.step {packet : Blob} (hrun : Run reading parties trace w) (h : Origin hpke parties trace packet)
    (action : Action c proto Info) : Origin hpke parties ((w, action) :: trace) packet := by
  cases h with
  | hello hencode => exact .hello hencode
  | answer hmem hanswers => exact .answer (List.mem_cons_of_mem _ hmem) hanswers
  | ack hmem hacks => exact .ack (List.mem_cons_of_mem _ hmem) hacks
  | arkSealed hmem h =>
      exact .arkSealed (List.mem_cons_of_mem _ hmem) ⟨h.given, h.active, h.sealing, h.sealed.step hrun action⟩
  | hostSealed hmem h =>
      exact .hostSealed (List.mem_cons_of_mem _ hmem) ⟨h.given, h.active, h.sealing, h.sealed.step hrun action⟩

theorem sealed_noted {session : Session c} {eras : List (Era c)} (hcounted : Counted hpke (some session) eras)
    (payload : Blob) : ∃ era ∈ noteSealed eras (some payload),
      hpke.sendChannel era.session.sender = hpke.sendChannel session.sender ∧
        era.sealed[hpke.sendSeq session.sender]? = some payload := by
  obtain ⟨era, rest, rfl, hcurrent⟩ := hcounted session rfl
  refine ⟨_, List.mem_cons_self, hcurrent.sendChannel.symm, ?_⟩
  rw [hcurrent.sendSeq]
  exact List.getElem?_concat_length

/-- Everything that is sent in a run has an origin in it. -/
theorem Run.origin (hrun : Run reading parties trace w) {packet : Blob} (hsent : w.Sent packet) :
    Origin hpke parties trace packet := by
  induction hrun with
  | start attesters =>
      rcases hsent with ⟨a, hsent⟩ | ⟨h, hsent⟩
      · cases hsent
      · cases hsent
  | @step trace w action hrun _ ih =>
      rcases hsent with ⟨a, hsent⟩ | ⟨h, hsent⟩
      · by_cases hmine : ∃ input, action = .ark a input
        · obtain ⟨input, rfl⟩ := hmine
          rw [World.step_ark_self] at hsent
          rcases (w.ark a).step_sends hpke _ (arkEras a trace) input hsent with
            hsent | ⟨taken, wait, arkHello, hanswers⟩ | ⟨session, payload, sender, res, hinput, hsession, hencode, hseal, hnoted⟩
          · exact (ih (Or.inl ⟨a, hsent⟩)).step hrun _
          · obtain rfl := hanswers.input
            exact .answer List.mem_cons_self ⟨rfl, hanswers⟩
          · have hcounted := hrun.arkCounted a
            rw [hsession] at hcounted
            obtain ⟨era, hmem, hchannel, hsealed⟩ := sealed_noted hcounted payload
            rw [← hnoted, ← arkEras_self] at hmem
            exact .arkSealed List.mem_cons_self
              ⟨⟨res, by rw [hinput], hencode⟩, hsession, ⟨sender, hseal⟩, Or.inl ⟨a, era, hmem, hchannel, hsealed⟩⟩
        · rw [World.step_ark_other parties w fun input h => hmine ⟨input, h⟩] at hsent
          exact (ih (Or.inl ⟨a, hsent⟩)).step hrun _
      · by_cases hmine : ∃ input, action = .host h input
        · obtain ⟨input, rfl⟩ := hmine
          rw [World.step_host_self] at hsent
          rcases (w.host h).step_sends hpke _ (hostEras parties h trace) input hsent with
            hsent | ⟨wait, hencode⟩ | ⟨taken, wait, verified, session, hacks⟩ |
              ⟨session, payload, sender, req, hinput, hsession, hencode, hseal, hnoted⟩
          · exact (ih (Or.inr ⟨h, hsent⟩)).step hrun _
          · exact .hello hencode
          · obtain rfl := hacks.input
            exact .ack List.mem_cons_self ⟨rfl, hacks⟩
          · have hcounted := hrun.hostCounted h
            rw [hsession] at hcounted
            obtain ⟨era, hmem, hchannel, hsealed⟩ := sealed_noted hcounted payload
            rw [← hnoted, ← hostEras_self] at hmem
            exact .hostSealed List.mem_cons_self
              ⟨⟨req, by rw [hinput], hencode⟩, hsession, ⟨sender, hseal⟩, Or.inr ⟨h, era, hmem, hchannel, hsealed⟩⟩
        · rw [World.step_host_other parties w fun input h => hmine ⟨input, h⟩] at hsent
          exact (ih (Or.inr ⟨h, hsent⟩)).step hrun _

theorem answer_term (reading : Reading hpke) {coins : Coins c} {T : Type} {side : ArkSide c A T} {packet answer : Blob}
    {wait : AckWait c} {arkHello : ArkHello c} (h : ArkSide.Answers coins side packet wait arkHello answer) :
    ∃ key signer aad data n m seed, reading.term answer = .envelope key aad CRYPTO_DOMAIN_WIRE
      (.signed signer (.ofList [.bytes data, .publicKey n, .encap m seed]) aad CRYPTO_DOMAIN_WIRE) := by
  obtain ⟨data, hdata⟩ := reading.attestation_spec (Attester.attest side.attester : Attestation c × A).1.shape
  have hterm := reading.coseSeal_spec h.sealed
  rw [ArkHello.toCbor, List.map_cons, List.map_cons, List.map_cons, List.map_nil, reading.term_xhpkeItem,
    reading.newSender_spec h.sender, h.attest, hdata] at hterm
  exact ⟨_, _, _, data, _, _, _, hterm⟩

omit [Attester c A] in
theorem ack_term (reading : Reading hpke) {coins : Coins c} {wait : HelloWait c Info} {packet ack : Blob}
    {verified : Verified c Info} {session : Session c} (h : wait.answer coins packet = .ok (verified, session, ack)) :
    ∃ key signer aad n seed, reading.term ack = .envelope key aad CRYPTO_DOMAIN_WIRE
      (.signed signer (.ofList [.encap n seed]) aad CRYPTO_DOMAIN_WIRE) := by
  obtain ⟨encap, _, hcontexts, hseal⟩ := HelloWait.answer_ok h
  obtain ⟨_, _, hsender⟩ := HelloWait.contexts_ok hcontexts
  have hterm := reading.coseSeal_spec (HelloWait.sealAck_ok hseal)
  rw [HostAck.toCbor, List.map_cons, List.map_nil, reading.newSender_spec hsender] at hterm
  exact ⟨_, _, _, _, _, hterm⟩

omit [Attester c A] in
theorem hello_term (reading : Reading hpke) {hello : HostHello c} {packet : Blob}
    (hencode : c.cborEncode hello.toCbor = .ok packet) :
    ∃ n m, reading.term packet = .ofList [.verifyKey n, .publicKey m] := by
  have hterm := reading.cborEncode_spec hencode
  rw [HostHello.toCbor, List.map_cons, List.map_cons, List.map_nil, reading.term_xdsaItem, reading.term_xhpkeItem] at hterm
  exact ⟨_, _, hterm⟩

/-! ### The encapsulated keys -/

theorem AnswersAt.encap (reading : Reading hpke) {past : World c A Info limit × Action c proto Info} {packet answer : Blob}
    {wait : AckWait c} {arkHello : ArkHello c} (hanswers : AnswersAt parties a past packet wait arkHello answer) :
    reading.term (hpke.sendChannel wait.sender).2.1 = .encap (reading.publicKey wait.hostHello.hostCrypto)
      (reading.seed (parties.arkCoins a (past.1.ark a).side.draws).second) := by
  have hsender := hanswers.answers.answers.sender
  rw [(hpke.newSender_spec hsender).1, reading.newSender_spec hsender]

omit [Attester c A] in
theorem AcksAt.encap (reading : Reading hpke) {past : World c A Info limit × Action c proto Info} {packet : Option Blob}
    {wait : HelloWait c Info} {verified : Verified c Info} {session : Session c} {ack : Blob}
    (hacks : AcksAt parties h past packet wait verified session ack) :
    reading.term (hpke.sendChannel session.sender).2.1 = .encap (reading.publicKey verified.arkHello.arkCrypto)
      (reading.seed (parties.hostCoins h (past.1.host h).side.draws).first) := by
  obtain ⟨_, _, hcontexts, _⟩ := HelloWait.answer_ok hacks.acks.answer
  obtain ⟨_, _, hsender⟩ := HelloWait.contexts_ok hcontexts
  rw [(hpke.newSender_spec hsender).1, reading.newSender_spec hsender]

theorem Run.arkEncap (hrun : Run reading parties trace w) {session : Session c}
    (hsession : (w.ark a).side.session = some session) :
    (reading.term (hpke.sendChannel session.sender).2.1).Bare := by
  obtain ⟨past, hmem, packet, wait, established, haccepts, _, hchannel⟩ := (hrun.arkInv a).session session hsession
  obtain ⟨earlier, hearlier, _, _⟩ := hrun.before hmem
  obtain ⟨_, _, _, _, _, hanswers, _⟩ := (hearlier.arkInv a).waits wait haccepts.accepts.call
  obtain ⟨_, _, _, _, rfl⟩ := ArkSide.acceptAck_opens haccepts.accepts.accepts
  rw [hchannel, hanswers.encap reading]
  trivial

theorem Run.hostEncap (hrun : Run reading parties trace w) {session : Session c}
    (hsession : (w.host h).side.session = some session) :
    (reading.term (hpke.sendChannel session.sender).2.1).Bare := by
  obtain ⟨_, _, _, _, _, _, _, hacks, _, hchannel⟩ := (hrun.hostInv h).session session hsession
  rw [hchannel, hacks.encap reading]
  trivial

/-! ### What the attacker has of seals -/

/-- What the sides sealed, as messages. -/
def seals (reading : Reading hpke) (parties : Parties c) (trace : Trace c proto A Info limit) : Seals Name where
  own := Name.own
  made n key info seq payload := key.Bare ∧ payload.Bare ∧ ∃ channel packet, reading.publicKey channel.1 = n ∧
    reading.term channel.2.1 = key ∧ channel.2.2 = info ∧ reading.term packet = payload ∧
    Sealed hpke parties trace channel seq packet

omit [Attester c A] in
theorem packet_genuine {session : Session c} {sender : c.Sender} {payload packet : Blob}
    (hseal : c.senderSeal session.sender payload = (.ok packet, sender))
    (hencap : (reading.term (hpke.sendChannel session.sender).2.1).Bare) (hpayload : (reading.term payload).Bare)
    (hsealed : Sealed hpke parties trace (hpke.sendChannel session.sender) (hpke.sendSeq session.sender) payload) :
    (seals reading parties trace).Genuine (reading.term packet) := by
  rcases hchannel : hpke.sendChannel session.sender with ⟨key, encap, info⟩
  rw [hchannel] at hsealed hencap
  rw [reading.senderSeal_spec hchannel hseal]
  exact ⟨.of_bare hpayload, Or.inr ⟨hencap, hpayload, (key, encap, info), payload, rfl, rfl, rfl, rfl, hsealed⟩⟩

/-- All that the attacker sees is genuine. -/
theorem Run.known_genuine (hplain : PlainMessages reading proto) (hrun : Run reading parties trace w) :
    ∀ t ∈ w.known reading parties, (seals reading parties trace).Genuine t := by
  rintro t (⟨n, rfl⟩ | ⟨n, _, rfl⟩ | ⟨packet, hsent, rfl⟩)
  · trivial
  · trivial
  cases hrun.origin hsent with
  | hello hencode =>
      obtain ⟨n, m, hterm⟩ := hello_term reading hencode
      rw [hterm]
      exact ⟨trivial, trivial, trivial⟩
  | answer _ hanswers =>
      obtain ⟨_, _, _, _, _, _, _, hterm⟩ := answer_term reading hanswers.answers.answers
      rw [hterm]
      exact ⟨trivial, trivial, trivial, trivial⟩
  | ack _ hacks =>
      obtain ⟨_, _, _, _, _, hterm⟩ := ack_term reading hacks.acks.answer
      rw [hterm]
      exact ⟨trivial, trivial⟩
  | arkSealed hmem h =>
      obtain ⟨res, _, hencode⟩ := h.given
      obtain ⟨sender, hseal⟩ := h.sealing
      obtain ⟨earlier, hearlier, _, _⟩ := hrun.before hmem
      exact packet_genuine hseal (hearlier.arkEncap h.active) (Reading.Plain.bare hplain.arkToHost hencode) h.sealed
  | hostSealed hmem h =>
      obtain ⟨req, _, hencode⟩ := h.given
      obtain ⟨sender, hseal⟩ := h.sealing
      obtain ⟨earlier, hearlier, _, _⟩ := hrun.before hmem
      exact packet_genuine hseal (hearlier.hostEncap h.active) (Reading.Plain.bare hplain.hostToArk hencode) h.sealed

/-! ### What is opened -/

/-- What the attacker builds opens in a closed channel only if it was sealed there, under the receiver's number. -/
theorem Run.opens_sealed (hplain : PlainMessages reading proto) (hopens : reading.Opens)
    (hrun : Run reading parties trace w) {receiver receiver' : c.Receiver} {packet payload : Blob}
    (hbuilds : w.Builds reading parties packet) (hopen : c.receiverOpen receiver packet = (.ok payload, receiver'))
    (hclosed : Closed reading (hpke.recvChannel receiver)) :
    Sealed hpke parties trace (hpke.recvChannel receiver) (hpke.recvSeq receiver) payload := by
  have hgenuine : (seals reading parties trace).Genuine (reading.term packet) :=
    Derives.genuine (hrun.known_genuine hplain) hbuilds
  rcases hchannel : hpke.recvChannel receiver with ⟨key, encap, info⟩
  rw [hchannel] at hclosed
  rw [hopens hchannel hopen] at hgenuine
  rcases hgenuine.2 with (hkey | ⟨seed, hseed, hencap⟩) |
    ⟨hbare, hbare', ⟨key', encap', info'⟩, packet', hkey, hencap, hinfo, hpayload, hsealed⟩
  · exact absurd hkey hclosed.key
  · exact absurd hseed (hclosed.seed _ seed hencap)
  · obtain rfl := reading.publicKey_inj hkey
    obtain rfl := reading.term_inj hbare hencap
    obtain rfl : info' = info := hinfo
    obtain rfl := reading.term_inj hbare' hpayload
    exact hsealed

/-- All that was opened in closed channels was sealed there, under the number of its place. -/
def Vouched (reading : Reading hpke) (parties : Parties c) (trace : Trace c proto A Info limit) (eras : List (Era c)) :
    Prop :=
  ∀ era ∈ eras, Closed reading (hpke.recvChannel era.session.receiver) → ∀ {i : Nat} {payload}, era.opened[i]? = some payload →
    Sealed hpke parties trace (hpke.recvChannel era.session.receiver) i payload

theorem Run.vouched_step (hplain : PlainMessages reading proto) (hopens : reading.Opens)
    (hrun : Run reading parties trace w)
    (hbuilds : ∀ packet, action.received = some packet → w.Builds reading parties packet)
    {session session' : Option (Session c)} {eras eras' : List (Era c)} (hcounted : Counted hpke session eras)
    (hpasses : Passes hpke action.received session eras session' eras') (h : Vouched reading parties trace eras) :
    Vouched reading parties ((w, action) :: trace) eras' := by
  have hold : Vouched reading parties ((w, action) :: trace) eras := fun era hmem hclosed _ _ hopened =>
    (h era hmem hclosed hopened).step hrun action
  -- a change that leaves alone what was opened
  have hhead : ∀ {change : Era c → Era c}, (∀ era, (change era).session = era.session ∧ (change era).opened = era.opened) →
      Vouched reading parties ((w, action) :: trace) (eras.modifyHead change) := by
    intro change hchange
    cases eras with
    | nil => exact nofun
    | cons first rest =>
        intro era hmem hclosed i payload hopened
        rcases List.mem_cons.mp hmem with rfl | hmem
        · rw [(hchange first).1] at hclosed ⊢
          rw [(hchange first).2] at hopened
          exact hold first List.mem_cons_self hclosed hopened
        · exact hold era (List.mem_cons_of_mem _ hmem) hclosed hopened
  cases hpasses with
  | kept => exact hold
  | dropped => exact hold
  | sealed _ _ _ => exact hhead fun _ => ⟨rfl, rfl⟩
  | began _ _ =>
      intro era hmem hclosed i payload hopened
      rcases List.mem_cons.mp hmem with rfl | hmem
      · cases hopened
      · exact hold era hmem hclosed hopened
  | @opened old receiver packet payload hreceived hsession hopen =>
      obtain ⟨first, rest, rfl, hcurrent⟩ := hcounted old hsession
      intro era hmem hclosed i payload' hopened
      rcases List.mem_cons.mp hmem with rfl | hmem
      · have hlast : Closed reading (hpke.recvChannel old.receiver) := hcurrent.recvChannel ▸ hclosed
        have hsealed := (hrun.opens_sealed hplain hopens (hbuilds packet hreceived) hopen hlast).step hrun action
        rw [hcurrent.recvChannel, hcurrent.recvSeq] at hsealed
        rcases Nat.lt_or_ge i first.opened.length with hlt | hge
        · refine hold first List.mem_cons_self hclosed ?_
          rw [← List.getElem?_append_left hlt]
          exact hopened
        · obtain ⟨hlt, hlast⟩ := List.getElem?_eq_some_iff.mp hopened
          have hi : i = first.opened.length := by
            rw [List.length_append, List.length_singleton] at hlt
            omega
          subst hi
          rw [List.getElem_concat_length rfl] at hlast
          exact hlast ▸ hsealed
      · exact hold era (List.mem_cons_of_mem _ hmem) hclosed hopened

theorem Run.arkVouched (hplain : PlainMessages reading proto) (hopens : reading.Opens)
    (hrun : Run reading parties trace w) (a : Nat) : Vouched reading parties trace (arkEras a trace) := by
  induction hrun with
  | start attesters => exact nofun
  | step hrun hbuilds ih => exact hrun.vouched_step hplain hopens hbuilds (hrun.arkCounted a) (hrun.ark_passes a _) ih

theorem Run.hostVouched (hplain : PlainMessages reading proto) (hopens : reading.Opens)
    (hrun : Run reading parties trace w) (h : Nat) : Vouched reading parties trace (hostEras parties h trace) := by
  induction hrun with
  | start attesters => exact nofun
  | step hrun hbuilds ih =>
      exact hrun.vouched_step hplain hopens hbuilds (hrun.hostCounted h) (host_passes hpke parties _ _ h _) ih

/-! ### One channel, one session -/

theorem AnswersAt.seed (hnamed : parties.Named reading w) (hrun : Run reading parties trace w)
    {past : World c A Info limit × Action c proto Info} (hmem : past ∈ trace) {packet answer : Blob} {wait : AckWait c}
    {arkHello : ArkHello c} (hanswers : AnswersAt parties a past packet wait arkHello answer) :
    reading.term (hpke.sendChannel wait.sender).2.1 =
      .encap (reading.publicKey wait.hostHello.hostCrypto) (.ark a (past.1.ark a).side.draws .second) := by
  rw [hanswers.encap reading, hnamed.arkSecond a _ ((hrun.arkInv a).answered past hmem hanswers).1]

theorem Run.wait_seed (hnamed : parties.Named reading w) (hrun : Run reading parties trace w) {wait : AckWait c}
    (hcall : (w.ark a).call = some (.handshake (.ack wait))) :
    ∃ n, n + 1 = (w.ark a).side.draws ∧ reading.term (hpke.sendChannel wait.sender).2.1 =
      .encap (reading.publicKey wait.hostHello.hostCrypto) (.ark a n .second) := by
  obtain ⟨answered, hanswered, _, _, _, hanswers, hdraws⟩ := (hrun.arkInv a).waits wait hcall
  exact ⟨_, hdraws, hanswers.seed hnamed hrun hanswered⟩

theorem Run.accepted_seed (hnamed : parties.Named reading w) (hrun : Run reading parties trace w)
    {past : World c A Info limit × Action c proto Info} (hmem : past ∈ trace) {packet : Blob} {wait : AckWait c}
    {session : Session c} (haccepts : AcceptsAt a past packet wait session) :
    ∃ n, n + 1 = (past.1.ark a).side.draws ∧ reading.term (hpke.sendChannel session.sender).2.1 =
      .encap (reading.publicKey wait.hostHello.hostCrypto) (.ark a n .second) := by
  obtain ⟨earlier, hearlier, _, _⟩ := hrun.before hmem
  obtain ⟨_, receiver, _, _, rfl⟩ := ArkSide.acceptAck_opens haccepts.accepts.accepts
  exact hearlier.wait_seed (hnamed.before hrun hmem) haccepts.accepts.call

theorem AcksAt.seed (hnamed : parties.Named reading w) (hrun : Run reading parties trace w)
    {past : World c A Info limit × Action c proto Info} (hmem : past ∈ trace) {packet : Option Blob} {wait : HelloWait c Info}
    {verified : Verified c Info} {session : Session c} {ack : Blob}
    (hacks : AcksAt parties h past packet wait verified session ack) :
    reading.term (hpke.sendChannel session.sender).2.1 =
      .encap (reading.publicKey verified.arkHello.arkCrypto) (.host h (past.1.host h).side.draws .first) := by
  rw [hacks.encap reading, hnamed.hostFirst h _ ((hrun.hostInv h).acked past hmem hacks)]

/-- No two eras of these send in one channel. -/
def Apart (hpke : Contexts c) (eras : List (Era c)) : Prop :=
  (origins eras).Pairwise fun origin origin' => hpke.sendChannel origin.1.sender ≠ hpke.sendChannel origin'.1.sender

theorem Run.arkApart (hnamed : parties.Named reading w) (hrun : Run reading parties trace w) (a : Nat) :
    Apart hpke (arkEras a trace) := by
  induction hrun with
  | start attesters => exact List.Pairwise.nil
  | @step trace w action hrun _ ih =>
      have hnamed' := hnamed.older (World.older_step hpke parties w action)
      by_cases hmine : ∃ input, action = .ark a input
      · obtain ⟨input, rfl⟩ := hmine
        rw [Apart, arkEras_self]
        rcases (w.ark a).pass_origins (arkEras a trace) input with hsame | ⟨packet, wait, session, haccepts, hbegins⟩
        · rw [hsame]
          exact ih hnamed'
        rw [hbegins]
        refine List.Pairwise.cons (fun origin hmem => ?_) (ih hnamed')
        -- the older sessions were set up with draws before the one this HostAck answers
        obtain ⟨past, hpast, _, _, haccepts', _⟩ := hrun.arkOrigins a origin hmem
        obtain ⟨n, hn, hterm⟩ := hrun.accepted_seed hnamed' hpast haccepts'
        obtain ⟨n', hn', hterm'⟩ := hrun.wait_seed hnamed' haccepts.call
        have hlt := (hrun.arkInv a).accepted past hpast haccepts' wait haccepts.call
        obtain ⟨_, receiver, _, _, rfl⟩ := ArkSide.acceptAck_opens haccepts.accepts
        intro hsame
        have hseed := hterm'.symm.trans ((congrArg (fun channel => reading.term channel.2.1) hsame).trans hterm)
        obtain ⟨_, hname⟩ := Term.encap.inj hseed
        obtain ⟨_, hdraw, _⟩ := Name.ark.inj hname
        omega
      · rw [Apart, arkEras_other w fun input h => hmine ⟨input, h⟩]
        exact ih hnamed'

theorem Run.hostApart (hnamed : parties.Named reading w) (hrun : Run reading parties trace w) (h : Nat) :
    Apart hpke (hostEras parties h trace) := by
  induction hrun with
  | start attesters => exact List.Pairwise.nil
  | @step trace w action hrun hbuilds ih =>
      have hnamed' := hnamed.older (World.older_step hpke parties w action)
      by_cases hmine : ∃ input, action = .host h input
      · obtain ⟨input, rfl⟩ := hmine
        rw [Apart, hostEras_self]
        rcases (w.host h).pass_origins (parties.hostCoins h) (hostEras parties h trace) input with
          hsame | ⟨packet, wait, verified, session, ack, hacks, hbegins⟩
        · rw [hsame]
          exact ih hnamed'
        rw [hbegins]
        refine List.Pairwise.cons (fun origin hmem => ?_) (ih hnamed')
        obtain rfl := hacks.input
        obtain ⟨past, hpast, _, _, _, _, hacks', _⟩ := hrun.hostOrigins h origin hmem
        have hlt := (hrun.hostInv h).acked past hpast hacks'
        have hterm := hacks'.seed hnamed' hrun hpast
        have hterm' := AcksAt.seed hnamed (hrun.step hbuilds) List.mem_cons_self
          (⟨rfl, hacks⟩ : AcksAt parties h (w, _) packet wait verified session ack)
        intro hsame
        have hseed := hterm'.symm.trans ((congrArg (fun channel => reading.term channel.2.1) hsame).trans hterm)
        obtain ⟨_, hname⟩ := Term.encap.inj hseed
        obtain ⟨_, hdraw, _⟩ := Name.host.inj hname
        exact absurd hdraw.symm (Nat.ne_of_lt hlt)
      · rw [Apart, hostEras_other w fun input h => hmine ⟨input, h⟩]
        exact ih hnamed'

theorem Apart.unique {eras : List (Era c)} (h : Apart hpke eras) {era era' : Era c} (hmem : era ∈ eras)
    (hmem' : era' ∈ eras) (hsame : hpke.sendChannel era.session.sender = hpke.sendChannel era'.session.sender) :
    era = era' := by
  induction eras with
  | nil => cases hmem
  | cons first rest ih =>
      have happart := List.pairwise_cons.mp h
      have hfirst : ∀ other ∈ rest, hpke.sendChannel first.session.sender ≠ hpke.sendChannel other.session.sender :=
        fun other hother => happart.1 (other.session, other.peer) (List.mem_map.mpr ⟨other, hother, rfl⟩)
      rcases List.mem_cons.mp hmem with rfl | hrest <;> rcases List.mem_cons.mp hmem' with rfl | hrest'
      · rfl
      · exact absurd hsame (hfirst era' hrest')
      · exact absurd hsame.symm (hfirst era hrest)
      · exact ih happart.2 hrest hrest'

theorem mem_origins {eras : List (Era c)} {era : Era c} (h : era ∈ eras) : (era.session, era.peer) ∈ origins eras :=
  List.mem_map.mpr ⟨era, h, rfl⟩

theorem prefix_of_getElem? {α : Type} {front whole : List α}
    (h : ∀ {i : Nat} {x}, front[i]? = some x → whole[i]? = some x) : front <+: whole := by
  rw [List.prefix_iff_getElem?]
  exact fun i hi => h (List.getElem?_eq_getElem hi)

/-! ### The peers -/

/-- Each of two sessions sends where the other receives. -/
structure Joined (hpke : Contexts c) (session session' : Session c) : Prop where
  here : hpke.sendChannel session.sender = hpke.recvChannel session'.receiver
  there : hpke.sendChannel session'.sender = hpke.recvChannel session.receiver

omit [Attester c A] in
theorem AcksAt.session_unique {past : World c A Info limit × Action c proto Info} {packet packet' : Option Blob}
    {wait wait' : HelloWait c Info} {verified verified' : Verified c Info} {session session' : Session c} {ack ack' : Blob}
    (hacks : AcksAt parties h past packet wait verified session ack)
    (hacks' : AcksAt parties h past packet' wait' verified' session' ack') : verified = verified' ∧ session = session' := by
  have hinput := hacks.action.symm.trans hacks'.action
  injection hinput with _ hinput
  injection hinput with hinput
  obtain rfl := Except.ok.inj hinput
  obtain rfl := Option.some.inj (hacks.acks.call.symm.trans hacks'.acks.call)
  obtain ⟨hverified, hrest⟩ := Prod.mk.inj (Except.ok.inj (hacks.acks.answer.symm.trans hacks'.acks.answer))
  exact ⟨hverified, (Prod.mk.inj hrest).1⟩

/-- What was sealed in a channel a host sends in, that host sealed in the one session it sends there in. -/
theorem Run.sealed_host (hnamed : parties.Named reading w) (hrun : Run reading parties trace w)
    {past : World c A Info limit × Action c proto Info} (hmem : past ∈ trace) {packet : Option Blob}
    {wait : HelloWait c Info} {verified : Verified c Info} {session : Session c} {ack : Blob}
    (hacks : AcksAt parties h past packet wait verified session ack) {i : Nat} {payload : Blob}
    (hsealed : Sealed hpke parties trace (hpke.sendChannel session.sender) i payload) :
    ∃ era ∈ hostEras parties h trace, era.session = session ∧ era.peer = some verified.arkIdentity ∧
      era.sealed[i]? = some payload := by
  have hseed := hacks.seed hnamed hrun hmem
  rcases hsealed with ⟨a, era, hera, hchannel, hpayload⟩ | ⟨h', era, hera, hchannel, hpayload⟩
  · -- an Ark draws other randomness
    obtain ⟨accepted, haccepted, _, _, haccepts, _⟩ := hrun.arkOrigins a _ (mem_origins hera)
    obtain ⟨_, _, hseed'⟩ := hrun.accepted_seed hnamed haccepted haccepts
    rw [hchannel, hseed] at hseed'
    exact nomatch (Term.encap.inj hseed').2
  · obtain ⟨acked, hacked, _, _, _, _, hacks', hpeer⟩ := hrun.hostOrigins h' _ (mem_origins hera)
    have hseed' := hacks'.seed hnamed hrun hacked
    rw [hchannel, hseed] at hseed'
    obtain ⟨rfl, hdraws, _⟩ := Name.host.inj (Term.encap.inj hseed').2
    obtain rfl := (hrun.hostInv h).once past hmem acked hacked hacks hacks' hdraws
    obtain ⟨rfl, hsession⟩ := hacks.session_unique hacks'
    exact ⟨era, hera, hsession.symm, hpeer, hpayload⟩

/-- The channel between an Ark's iteration and the host that answered it is closed towards the Ark. -/
theorem Closed.towardsArk (hnamed : parties.Named reading w) (hrun : Run reading parties trace w) {wait : AckWait c}
    (hcall : (w.ark a).call = some (.handshake (.ack wait))) {packet : Blob} {session : Session c}
    (haccept : (w.ark a).side.acceptAck wait packet = .ok session) {m : Nat} {name : Name}
    (hseed : reading.term (hpke.recvChannel session.receiver).2.1 = .encap name (.host h m .first)) :
    Closed reading (hpke.recvChannel session.receiver) := by
  obtain ⟨n, _, hkey⟩ := hrun.arkKey hnamed hcall
  obtain ⟨_, receiver, _, hreceiver, rfl⟩ := ArkSide.acceptAck_opens haccept
  constructor
  · rw [(hpke.newReceiver_spec hreceiver).1, hkey]
    exact Name.ark_not_own _ _ _
  · intro n' seed hterm
    rw [hseed] at hterm
    obtain ⟨_, rfl⟩ := Term.encap.inj hterm
    exact Name.host_not_own _ _ _

/-- What an Ark opens in a session whose host key a host generated, when only honest Arks hold its identity, that host
sealed, in the session paired with it and believing to speak with this Ark, in this order and from the first one on. -/
theorem ark_opens_sent (hnamed : parties.Named reading w) (hplain : PlainMessages reading proto) (hopens : reading.Opens)
    (hrun : Run reading parties trace w) (hunleaked : parties.identity a ∉ parties.leaked) {era : Era c}
    (hera : era ∈ arkEras a trace) {n : Nat} {hostKey : c.XdsaPublicKey} (hpeer : era.peer = some hostKey)
    (hgenerated : w.Generated parties h n hostKey) (hopened : era.opened ≠ []) :
    ∃ sender ∈ hostEras parties h trace, Joined hpke era.session sender.session ∧
      sender.peer = some (c.xdsaPublicKey (parties.signers (parties.identity a))) ∧ era.opened <+: sender.sealed := by
  obtain ⟨past, hmem, packet, wait, haccepts, hsigner⟩ := hrun.arkOrigins a _ (mem_origins hera)
  obtain ⟨earlier, hearlier, hsub, hbuilds⟩ := hrun.before hmem
  have hnamed' := hnamed.before hrun hmem
  obtain rfl := Option.some.inj (hsigner.symm.trans hpeer)
  have hpublic := hearlier.builds_public hplain (hbuilds packet (by rw [haccepts.action]; rfl))
  obtain ⟨_, _, _, _, _, _, _, acked, hacked, _, _, verified, hostSession, _, hacks, _, _, _, hidentity, _, hhere,
    hthere⟩ := hearlier.peer hnamed' haccepts.accepts.call hunleaked hpublic haccepts.accepts.accepts
      (hgenerated.name hnamed) (hearlier.received_public hplain)
  have hseed := hacks.seed hnamed' hearlier hacked
  rw [hthere] at hseed
  have hclosed := Closed.towardsArk hnamed' hearlier haccepts.accepts.call haccepts.accepts.accepts hseed
  -- whatever is opened, the host sealed in its session
  have hsealed : ∀ {i : Nat} {payload}, era.opened[i]? = some payload →
      ∃ sender ∈ hostEras parties h trace, sender.session = hostSession ∧ sender.peer = some verified.arkIdentity ∧
        sender.sealed[i]? = some payload := fun hi => by
    have hvouched := hrun.arkVouched hplain hopens a era hera hclosed hi
    rw [← hthere] at hvouched
    exact hrun.sealed_host hnamed (hsub hacked) hacks hvouched
  obtain ⟨first, rest, hfirst⟩ := List.exists_cons_of_ne_nil hopened
  obtain ⟨sender, hsender, hsession, hknown, _⟩ := hsealed (i := 0) (by rw [hfirst]; rfl)
  refine ⟨sender, hsender, ⟨hsession ▸ hhere, hsession ▸ hthere⟩, ?_, prefix_of_getElem? fun {i payload} hi => ?_⟩
  · rw [hknown, hidentity, (hearlier.arkInv a).signer]
  · obtain ⟨sender', hsender', hsession', _, hpayload⟩ := hsealed hi
    obtain rfl := (hrun.hostApart hnamed h).unique hsender hsender' (by rw [hsession, hsession'])
    exact hpayload

theorem Run.sealed_ark (hnamed : parties.Named reading w) (hrun : Run reading parties trace w)
    {past : World c A Info limit × Action c proto Info} (hmem : past ∈ trace) {taken answer : Blob} {wait : AckWait c}
    {arkHello : ArkHello c} (hanswers : AnswersAt parties a past taken wait arkHello answer) {i : Nat} {payload : Blob}
    (hsealed : Sealed hpke parties trace (hpke.sendChannel wait.sender) i payload) :
    ∃ era ∈ arkEras a trace, era.sealed[i]? = some payload ∧ hpke.sendChannel era.session.sender = hpke.sendChannel wait.sender ∧
      era.peer = some wait.hostHello.hostSigner ∧ ∃ accepted ∈ trace, ∃ packet, AcceptsAt a accepted packet wait era.session := by
  have hseed := hanswers.seed hnamed hrun hmem
  rcases hsealed with ⟨a', era, hera, hchannel, hpayload⟩ | ⟨h', era, hera, hchannel, hpayload⟩
  · obtain ⟨accepted, haccepted, packet, wait', haccepts, hpeer⟩ := hrun.arkOrigins a' _ (mem_origins hera)
    obtain ⟨earlier, hearlier, hsub, _⟩ := hrun.before haccepted
    obtain ⟨answered, hanswered, _, _, _, hanswers', hdraws⟩ := (hearlier.arkInv a').waits wait' haccepts.accepts.call
    obtain ⟨m, hm, hseed'⟩ := hrun.accepted_seed hnamed haccepted haccepts
    rw [hchannel, hseed] at hseed'
    obtain ⟨rfl, hdraw, _⟩ := Name.ark.inj (Term.encap.inj hseed').2
    -- the draw is the one of this answer, which answered one packet
    obtain rfl := (hrun.arkInv a).once past hmem answered (hsub hanswered) hanswers hanswers' (by omega)
    have hinput := hanswers.action.symm.trans hanswers'.action
    injection hinput with _ hinput
    injection hinput with hinput
    obtain rfl := Option.some.inj (Except.ok.inj hinput)
    obtain ⟨rfl, _, _⟩ := hanswers.answers.answers.unique hanswers'.answers.answers
    exact ⟨era, hera, hpayload, hchannel, hpeer, accepted, haccepted, packet, haccepts⟩
  · -- a host draws other randomness
    obtain ⟨acked, hacked, _, _, _, _, hacks, _⟩ := hrun.hostOrigins h' _ (mem_origins hera)
    have hseed' := hacks.seed hnamed hrun hacked
    rw [hchannel, hseed] at hseed'
    exact nomatch (Term.encap.inj hseed').2

/-- What a host opens in the session it made of an ArkHello with an identity that only honest Arks hold, the Ark that answered
its HostHello with this ArkHello sealed. -/
theorem Run.host_hears (hnamed : parties.Named reading w) (hplain : PlainMessages reading proto) (hopens : reading.Opens)
    (hrun : Run reading parties trace w) {s : Nat} (hunleaked : s ∉ parties.leaked) {era : Era c}
    (hera : era ∈ hostEras parties h trace) {past : World c A Info limit × Action c proto Info} (hmem : past ∈ trace)
    {reply : Option Blob} {hostWait : HelloWait c Info} {verified : Verified c Info} {ack : Blob}
    (hacks : AcksAt parties h past reply hostWait verified era.session ack)
    (hidentity : verified.arkIdentity = c.xdsaPublicKey (parties.signers s)) (hopened : era.opened ≠ []) :
    ∃ a, parties.identity a = s ∧
      (∃ answered ∈ trace, ∃ taken wait answer, AnswersAt parties a answered taken wait verified.arkHello answer ∧
        wait.hostHello = hostWait.hostHello) ∧
      ∃ sender ∈ arkEras a trace, Joined hpke era.session sender.session ∧
        (∃ n hostKey, sender.peer = some hostKey ∧ w.Generated parties h n hostKey) ∧
        era.opened <+: sender.sealed := by
  obtain ⟨earlier, hearlier, hsub, hbuilds⟩ := hrun.before hmem
  have hnamed' := hnamed.before hrun hmem
  have hname : reading.verifyKey verified.arkIdentity = .signer s := by
    rw [hidentity, reading.verifyKey_public, hnamed.unleaked s hunleaked]
  have hpublic : (leaks reading parties earlier messages).Public (reading.term (reply.getD c.empty)) := by
    cases reply with
    | none =>
        rw [Option.getD_none, reading.term_empty]
        trivial
    | some taken => exact hearlier.builds_public hplain (hbuilds taken (by rw [hacks.action]; rfl))
  obtain ⟨encap, hopen, hcontexts, _⟩ := HelloWait.answer_ok hacks.acks.answer
  obtain ⟨_, hreceiver, _⟩ := HelloWait.contexts_ok hcontexts
  obtain ⟨answered, hanswered, a, taken, wait, answer, hanswers, rfl, hhello⟩ :=
    hearlier.opened hnamed' hpublic hopen hname hunleaked
  obtain ⟨n, hn, hsign, hsecret⟩ := hearlier.hostKeys hnamed' hacks.acks.call
  have hsender := hanswers.answers.answers.sender
  have hchannel : hpke.recvChannel era.session.receiver = hpke.sendChannel wait.sender := by
    rw [(hpke.newReceiver_spec hreceiver).1, (hpke.newSender_spec hsender).1, hhello]
    rfl
  have hclosed : Closed reading (hpke.recvChannel era.session.receiver) := by
    constructor
    · rw [(hpke.newReceiver_spec hreceiver).1, reading.publicKey_public, hsecret]
      exact Name.host_not_own _ _ _
    · intro m seed hterm
      rw [hchannel, hanswers.seed hnamed' hearlier hanswered] at hterm
      obtain ⟨_, rfl⟩ := Term.encap.inj hterm
      exact Name.ark_not_own _ _ _
  have hsealed : ∀ {i : Nat} {payload}, era.opened[i]? = some payload →
      ∃ sender ∈ arkEras a trace, sender.sealed[i]? = some payload ∧
        hpke.sendChannel sender.session.sender = hpke.sendChannel wait.sender ∧
        sender.peer = some wait.hostHello.hostSigner ∧
        ∃ accepted ∈ trace, ∃ packet, AcceptsAt a accepted packet wait sender.session := fun hi => by
    have hvouched := hrun.hostVouched hplain hopens h era hera hclosed hi
    rw [hchannel] at hvouched
    exact hrun.sealed_ark hnamed (hsub hanswered) hanswers hvouched
  obtain ⟨first, rest, hfirst⟩ := List.exists_cons_of_ne_nil hopened
  obtain ⟨sender, hsender', _, hsame, hknown, accepted, haccepted, packet, haccepts⟩ :=
    hsealed (i := 0) (by rw [hfirst]; rfl)
  -- the HostAck behind that session is this host's, whose sender is the one of this session
  obtain ⟨before, hbefore, hsub', hbuilds'⟩ := hrun.before haccepted
  have hgenerated : reading.verifyKey wait.hostHello.hostSigner = .host h n .first := by
    rw [hhello]
    change reading.verifyKey (c.xdsaPublicKey hostWait.hostXdsaSk) = _
    rw [reading.verifyKey_public, hsign]
  have hpublic' := hbefore.builds_public hplain (hbuilds' packet (by rw [haccepts.action]; rfl))
  obtain ⟨_, _, _, _, _, _, _, acked, hacked, _, _, _, hostSession, _, hacks', hn', _, _, _, _, _, hthere⟩ :=
    hbefore.peer (hnamed.before hrun haccepted) haccepts.accepts.call hunleaked hpublic' haccepts.accepts.accepts hgenerated
      (hbefore.received_public hplain)
  obtain rfl := (hrun.hostInv h).once past hmem acked (hsub' hacked) hacks hacks' (by omega)
  obtain ⟨_, hsession⟩ := hacks.session_unique hacks'
  refine ⟨a, rfl, ⟨answered, hsub hanswered, taken, wait, answer, hanswers, hhello⟩, sender, hsender',
    ⟨by rw [← hthere, ← hsession], hsame.trans hchannel.symm⟩, ⟨n, _, hknown, ?_, ?_⟩,
    prefix_of_getElem? fun {i payload} hi => ?_⟩
  · have hdraws := (hrun.older hmem).host h
    omega
  · obtain ⟨m, hm, hxdsa, _⟩ := (hearlier.hostInv h).waits hostWait hacks.acks.call
    obtain rfl : n = m := by omega
    rw [hhello]
    change c.xdsaPublicKey hostWait.hostXdsaSk = _
    rw [hxdsa]
  · obtain ⟨sender', hsender'', hpayload, hsame', _⟩ := hsealed hi
    obtain rfl := (hrun.arkApart hnamed a).unique hsender' hsender'' (by rw [hsame, hsame'])
    exact hpayload

/-- What a host opens in a session with an identity that only honest Arks hold, an Ark with that identity sealed, in the
session paired with it and believing to speak with this host, in this order and from the first one on. -/
theorem host_opens_sent (hnamed : parties.Named reading w) (hplain : PlainMessages reading proto) (hopens : reading.Opens)
    (hrun : Run reading parties trace w) {s : Nat} (hunleaked : s ∉ parties.leaked) {era : Era c}
    (hera : era ∈ hostEras parties h trace) (hpeer : era.peer = some (c.xdsaPublicKey (parties.signers s)))
    (hopened : era.opened ≠ []) :
    ∃ a, parties.identity a = s ∧ ∃ sender ∈ arkEras a trace, Joined hpke era.session sender.session ∧
      (∃ n hostKey, sender.peer = some hostKey ∧ w.Generated parties h n hostKey) ∧
      era.opened <+: sender.sealed := by
  obtain ⟨past, hmem, reply, hostWait, verified, ack, hacks, hidentity⟩ := hrun.hostOrigins h _ (mem_origins hera)
  obtain ⟨a, hs, _, hsender⟩ := hrun.host_hears hnamed hplain hopens hunleaked hera hmem hacks
    (Option.some.inj (hidentity.symm.trans hpeer)) hopened
  exact ⟨a, hs, hsender⟩

end Integrity

/-! ### An echo that is heard -/

namespace Ideal

theorem Context.eq_of_open {context context' : Context} {packet payload : Term Name}
    (h : context.open packet = (.ok payload, context')) :
    packet = .sealed context.key context.encap context.info context.seq payload := by
  cases packet with
  | «sealed» key encap info seq inner =>
      rw [Context.open] at h
      split at h
      · rename_i hsame
        obtain ⟨rfl, rfl, rfl, rfl⟩ := hsame
        rw [Except.ok.inj (Prod.mk.inj h).1]
      · cases h
  | _ => cases h

theorem opens : Reading.Opens reading := by
  intro receiver packet payload receiver' key encap info hchannel hopen
  obtain ⟨rfl, hrest⟩ := Prod.mk.inj hchannel
  obtain ⟨rfl, rfl⟩ := Prod.mk.inj hrest
  exact congrArg seen (Context.eq_of_open hopen)

/-- A message of the first Ark to the first host. -/
def toHost (d : Nat) : Term Name :=
  .sealed (.host 0 0 .second) (.encap (.host 0 0 .second) (.ark 0 0 .second)) CRYPTO_DOMAIN_WIRE_ARK_TO_HOST 0
    (.atom (.message d))

/-- The host reads what the Ark echoed. -/
def heard : List Step := echoed ++ [.host 0 (.nextMessage (.ok (some (toHost 5))))]

theorem heard_run : Run reading (numbered ∅) (traced ∅ heard.reverse) (after ∅ heard) := by
  refine .step echoed_run fun packet hreceived => ?_
  obtain rfl := Option.some.inj hreceived
  exact World.builds_of_sent (Or.inl ⟨0, List.mem_cons_self⟩)

end Ideal

open DarkbioWire.Ideal in
theorem ark_opens_sent_reference : ∃ era ∈ arkEras 0 (traced ∅ heard.reverse), era.opened = [.atom (.message 5)] ∧
    ∃ sender ∈ hostEras (numbered ∅) 0 (traced ∅ heard.reverse), Joined contexts era.session sender.session ∧
      sender.peer = some (.signer 0) ∧ era.opened <+: sender.sealed :=
  ⟨_, List.mem_cons_self, rfl, ark_opens_sent (numbered_named ∅ _) ⟨codec_plain, codec_plain⟩ opens heard_run
    (Set.notMem_empty _) List.mem_cons_self (n := 0) rfl ⟨by decide, rfl⟩ nofun⟩

open DarkbioWire.Ideal in
theorem host_opens_sent_reference : ∃ era ∈ hostEras (numbered ∅) 0 (traced ∅ heard.reverse),
    era.opened = [.atom (.message 5)] ∧ ∃ a, a = 0 ∧ ∃ sender ∈ arkEras a (traced ∅ heard.reverse),
      Joined contexts era.session sender.session ∧
      (∃ n hostKey, sender.peer = some hostKey ∧ (after ∅ heard).Generated (numbered ∅) 0 n hostKey) ∧
      era.opened <+: sender.sealed :=
  ⟨_, List.mem_cons_self, rfl, host_opens_sent (numbered_named ∅ _) ⟨codec_plain, codec_plain⟩ opens heard_run
    (Set.notMem_empty 0) List.mem_cons_self rfl nofun⟩

end DarkbioWire
