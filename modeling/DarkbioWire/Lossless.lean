import DarkbioWire.Link
import DarkbioWire.Recovery

/-!
# Exactly-once delivery over a lossless link

Whatever a host and an Ark on a lossless link went through before, once a `handshake` of the host returns `Ok` the Ark is
about to take the HostAck of that handshake, and from there on every message sealed on one side is returned by the other,
once and in order. What is in front of the two sides carries this: while the host waits, nothing on its way to it is
sealed to its key but the answer to its HostHello; in the session, what is on the way was sealed under the sequence
numbers from the reader's to the writer's.
-/

namespace DarkbioWire

variable {c : Crypto (List UInt8)} {proto : Protocol (List UInt8)} {A Info : Type} [Attester c A] {cobs : Cobs}
  {maxFrameSize : Nat}

/-! ### Assumptions -/

/-- Seals never fail, add `SEAL_OVERHEAD` bytes, and open at the paired context with the same sequence number. -/
structure Contexts.Faithful (hpke : Contexts c) : Prop where
  seal_ok : ∀ (sender : c.Sender) (payload : List UInt8), ∃ packet sender', c.senderSeal sender payload = (.ok packet, sender')
  seal_length : ∀ {sender payload packet sender'}, c.senderSeal sender payload = (.ok packet, sender') →
    packet.length = payload.length + SEAL_OVERHEAD
  open_seal : ∀ {sender payload packet sender' receiver}, c.senderSeal sender payload = (.ok packet, sender') →
    hpke.recvChannel receiver = hpke.sendChannel sender → hpke.recvSeq receiver = hpke.sendSeq sender →
    ∃ receiver', c.receiverOpen receiver packet = (.ok payload, receiver')

/-- The size `prost` announces is the size of what it encodes. -/
def Codec.Sized {M : Type} (codec : Codec (List UInt8) M) : Prop :=
  ∀ {msg payload}, codec.encode msg = .ok payload → payload.length = codec.encodedLen msg

/-- The fingerprint of the key the host draws n-th. -/
def hostPrint (hostCoins : Nat → Coins c) (n : Nat) : c.Fingerprint :=
  c.fingerprint (c.xhpkePublicKey ((hostRole hostCoins).key n))

/-- A packet is an envelope for the key the host draws n-th. -/
def Names (hostCoins : Nat → Coins c) (n : Nat) (packet : List UInt8) : Prop :=
  c.coseRecipient packet = .ok (hostPrint hostCoins n)

/-- A packet reads as a HostHello with the key the host draws n-th. -/
def Greets (hostCoins : Nat → Coins c) (n : Nat) (packet : List UInt8) : Prop :=
  ∃ hello, HostHello.decode c packet = .ok hello ∧ c.fingerprint hello.hostCrypto = hostPrint hostCoins n

/-- The host's keys of so many draws are told apart, and a sealed message is neither an envelope for one nor a HostHello with
one, which an envelope is not either. -/
structure Telling (hostCoins : Nat → Coins c) (bound : Nat) : Prop where
  print_inj : ∀ {m n}, m < bound → n < bound → hostPrint hostCoins m = hostPrint hostCoins n → m = n
  sealed_names : ∀ {sender payload packet sender' n}, c.senderSeal sender payload = (.ok packet, sender') →
    ¬ Names hostCoins n packet
  sealed_greets : ∀ {sender payload packet sender' n}, c.senderSeal sender payload = (.ok packet, sender') →
    ¬ Greets hostCoins n packet
  envelope_greets : ∀ {payload aad signer key domain seed packet n},
    c.coseSeal payload aad signer key domain seed = .ok packet → ¬ Greets hostCoins n packet

/-! ### The size limit -/

theorem messageSizeLoop_fits (hfits : cobs.encodeBuffer SEAL_OVERHEAD ≤ maxFrameSize) (size : Nat) :
    cobs.encodeBuffer (messageSizeLoop cobs maxFrameSize size + SEAL_OVERHEAD) ≤ maxFrameSize := by
  induction size with
  | zero => rwa [messageSizeLoop, Nat.zero_add]
  | succ size ih =>
      rw [messageSizeLoop]
      split
      · exact ih
      · omega

theorem Contexts.Faithful.sealable (hcobs : cobs.Lawful)
    (hmono : ∀ {m n : Nat}, m ≤ n → cobs.encodeBuffer m ≤ cobs.encodeBuffer n)
    (hfits : cobs.encodeBuffer SEAL_OVERHEAD ≤ maxFrameSize) {hpke : Contexts c} (hfaithful : hpke.Faithful) {M : Type}
    {codec : Codec (List UInt8) M} (hsized : codec.Sized) : Sealable c cobs maxFrameSize codec := by
  intro msg payload sender hlimit hencode
  obtain ⟨packet, sender', hseal⟩ := hfaithful.seal_ok sender payload
  have hlength : packet.length ≤ maxMessageSize cobs maxFrameSize + SEAL_OVERHEAD := by
    rw [hfaithful.seal_length hseal, hsized hencode]
    omega
  have hroom := le_trans (hmono hlength) (messageSizeLoop_fits hfits maxFrameSize)
  rcases Framing.frameOf_cases hcobs packet with ⟨hlarge, _⟩ | ⟨_, frame, hframe, _⟩
  · exact absurd hlarge (Nat.not_lt_of_le hroom)
  · exact ⟨packet, sender', frame, hseal, hframe⟩

/-! ### Packets in flight -/

/-- These payloads were sealed into these packets on a channel, under the sequence numbers from one up to another. -/
inductive Flight (hpke : Contexts c) (channel : Channel c) : Nat → List (List UInt8 × List UInt8) → Nat → Prop
  | nil {n : Nat} : Flight hpke channel n [] n
  | cons {n m : Nat} {sender payload packet sender' rest} : hpke.sendChannel sender = channel → hpke.sendSeq sender = n →
      c.senderSeal sender payload = (.ok packet, sender') → Flight hpke channel (n + 1) rest m →
      Flight hpke channel n ((payload, packet) :: rest) m

theorem Flight.concat {hpke : Contexts c} {channel : Channel c} {n m : Nat} {entries : List (List UInt8 × List UInt8)}
    (h : Flight hpke channel n entries m) {sender sender' : c.Sender} {payload packet : List UInt8}
    (hchannel : hpke.sendChannel sender = channel) (hseq : hpke.sendSeq sender = m)
    (hseal : c.senderSeal sender payload = (.ok packet, sender')) :
    Flight hpke channel n (entries ++ [(payload, packet)]) (hpke.sendSeq sender') := by
  rw [(hpke.senderSeal_spec hseal).2, hseq]
  induction h with
  | nil => exact .cons hchannel hseq hseal .nil
  | cons hchannel' hseq' hseal' _ ih => exact .cons hchannel' hseq' hseal' (ih hseq)

theorem Flight.opens {hpke : Contexts c} (hfaithful : hpke.Faithful) {receiver : c.Receiver} {m : Nat}
    {payload packet : List UInt8} {rest : List (List UInt8 × List UInt8)}
    (h : Flight hpke (hpke.recvChannel receiver) (hpke.recvSeq receiver) ((payload, packet) :: rest) m) :
    ∃ receiver', c.receiverOpen receiver packet = (.ok payload, receiver') ∧
      hpke.recvChannel receiver' = hpke.recvChannel receiver ∧
      Flight hpke (hpke.recvChannel receiver') (hpke.recvSeq receiver') rest m := by
  cases h with
  | cons hchannel hseq hseal hrest =>
      obtain ⟨receiver', hopen⟩ := hfaithful.open_seal hseal hchannel.symm hseq.symm
      obtain ⟨hsame, hnext⟩ := hpke.receiverOpen_spec hopen
      refine ⟨receiver', hopen, hsame, ?_⟩
      rw [hsame, hnext]
      exact hrest

/-- Everything that was sealed, oldest first. -/
def sealedPayloads (epochs : List (Epoch c)) : List (List UInt8) :=
  epochs.reverse.flatMap fun epoch => epoch.sealed.map fun entry => entry.2.1

@[simp] theorem sealedPayloads_new (session : Session c) (wire : List UInt8) (epochs : List (Epoch c)) :
    sealedPayloads ({ session, wire, opened := [], sealed := [] } :: epochs) = sealedPayloads epochs := by
  simp [sealedPayloads]

theorem sealedPayloads_opened {Msg : Type} (history : History c Msg) (entry : c.Receiver × List UInt8 × List UInt8)
    (result : Except Error Msg) :
    sealedPayloads ((history.inEpoch fun epoch => { epoch with opened := epoch.opened ++ [entry] }).noteResult
      result).epochs = sealedPayloads history.epochs := by
  have hepochs : ((history.inEpoch fun epoch => { epoch with opened := epoch.opened ++ [entry] }).noteResult
      result).epochs = history.epochs.modifyHead fun epoch => { epoch with opened := epoch.opened ++ [entry] } := by
    rw [History.noteResult]
    split <;> rfl
  rw [hepochs]
  cases history.epochs <;> simp [sealedPayloads]

theorem sealedPayloads_sealed {Msg : Type} {history : History c Msg} {epoch : Epoch c} {epochs : List (Epoch c)}
    (hepochs : history.epochs = epoch :: epochs) (sender : c.Sender) (payload packet : List UInt8) :
    sealedPayloads (history.inEpoch fun epoch =>
      { epoch with sealed := epoch.sealed ++ [(sender, payload, packet)] }).epochs =
        sealedPayloads history.epochs ++ [payload] := by
  simp [sealedPayloads, History.inEpoch, hepochs]

theorem delivered_opened {Msg : Type} (history : History c Msg) (codec : Codec (List UInt8) Msg)
    (entry : c.Receiver × List UInt8 × List UInt8) (payload : List UInt8) :
    ((history.inEpoch fun epoch => { epoch with opened := epoch.opened ++ [entry] }).noteResult
      (codec.deliver payload)).delivered = history.delivered ++ [codec.deliver payload] := by
  rw [History.noteResult, if_pos (Endpoint.reports_deliver payload)]
  rfl

namespace Link

variable {arkCoins hostCoins : Nat → Coins c} {hpke : Contexts c} {l l' : Link c proto A Info cobs maxFrameSize}
  {action : LinkAction c proto Info} {arkQueue hostQueue arkQueue' hostQueue' : List (Option (List UInt8))} {bound : Nat}

/-! ### Before the handshake returns -/

/-- The host has only packets in front of it, and nothing on either way concerns a key it draws from here on, up to a
bound. -/
structure Untold (hostCoins : Nat → Coins c) (bound draws : Nat) (arkQueue hostQueue : List (Option (List UInt8))) : Prop where
  packets : ∀ entry ∈ hostQueue, ∃ packet, entry = some packet
  names : ∀ packet, some packet ∈ hostQueue → ∀ n, draws ≤ n → n < bound → ¬ Names hostCoins n packet
  greets : ∀ packet, some packet ∈ arkQueue → ∀ n, draws ≤ n → n < bound → ¬ Greets hostCoins n packet

omit [Attester c A] in
theorem Untold.mono {draws draws' : Nat} (h : Untold hostCoins bound draws arkQueue hostQueue) (hle : draws ≤ draws') :
    Untold hostCoins bound draws' arkQueue hostQueue :=
  ⟨h.packets, fun packet hmem n hn => h.names packet hmem n (le_trans hle hn),
    fun packet hmem n hn => h.greets packet hmem n (le_trans hle hn)⟩

omit [Attester c A] in
theorem Untold.host_append {draws : Nat} (h : Untold hostCoins bound draws arkQueue hostQueue)
    {sent : List (Option (List UInt8))}
    (hsent : ∀ entry ∈ sent, ∃ packet, entry = some packet ∧ ∀ n, draws ≤ n → n < bound → ¬ Names hostCoins n packet) :
    Untold hostCoins bound draws arkQueue (hostQueue ++ sent) := by
  refine ⟨fun entry hmem => ?_, fun packet hmem n hn => ?_, h.greets⟩
  · rcases List.mem_append.mp hmem with hmem | hmem
    · exact h.packets entry hmem
    · obtain ⟨packet, rfl, _⟩ := hsent entry hmem
      exact ⟨packet, rfl⟩
  · rcases List.mem_append.mp hmem with hmem | hmem
    · exact h.names packet hmem n hn
    · obtain ⟨other, heq, hnames⟩ := hsent _ hmem
      exact Option.some.inj heq ▸ hnames n hn

omit [Attester c A] in
theorem Untold.ark_append {draws : Nat} (h : Untold hostCoins bound draws arkQueue hostQueue)
    {sent : List (Option (List UInt8))}
    (hsent : ∀ packet, some packet ∈ sent → ∀ n, draws ≤ n → n < bound → ¬ Greets hostCoins n packet) :
    Untold hostCoins bound draws (arkQueue ++ sent) hostQueue := by
  refine ⟨h.packets, h.names, fun packet hmem n hn => ?_⟩
  rcases List.mem_append.mp hmem with hmem | hmem
  · exact h.greets packet hmem n hn
  · exact hsent packet hmem n hn

theorem Answers.names_greets (hc : c.Correct) {T : Type} {coins : Coins c} {side : ArkSide c A T} {packet answer : List UInt8}
    {wait : AckWait c} {arkHello : ArkHello c} (h : ArkSide.Answers coins side packet wait arkHello answer) {n : Nat}
    (hnames : Names hostCoins n answer) : Greets hostCoins n packet := by
  have hrecipient := hc.coseRecipient_seal h.sealed
  rw [Names, hrecipient] at hnames
  exact ⟨wait.hostHello, h.decode, Except.ok.inj hnames⟩

/-- What an Ark sends when it takes a packet names only a key that the packet greets with. -/
theorem polled_names (hostCoins : Nat → Coins c) (hc : c.Correct) {p p' : ArkProc c proto A cobs maxFrameSize} {point : MessagePoint c}
    {packet : Option (List UInt8)} {sent : List (Option (List UInt8))} (h : p.Polled arkCoins p' point packet sent) :
    ∀ entry ∈ sent, ∃ answer, entry = some answer ∧
      ∀ n, Names hostCoins n answer → ∃ taken, packet = some taken ∧ Greets hostCoins n taken := by
  cases h with
  | answered hanswers _ =>
      intro entry hentry
      rw [List.mem_singleton.mp hentry]
      exact ⟨_, rfl, fun n hnames => ⟨_, rfl, Answers.names_greets hc hanswers hnames⟩⟩
  | _ => simp

theorem polled_greets (htelling : Telling hostCoins bound) {p p' : HostProc c proto Info cobs maxFrameSize}
    {call : HostCall c Info} {packet : Option (List UInt8)} {sent : List (Option (List UInt8))}
    (h : p.Polled hostCoins p' call packet sent) :
    p.side.draws ≤ p'.side.draws ∧ ∀ ack, some ack ∈ sent → ∀ n, ¬ Greets hostCoins n ack := by
  cases h with
  | answered _ _ hanswer hdraws _ =>
      refine ⟨hdraws, fun other hmem n => ?_⟩
      obtain rfl := Option.some.inj (List.mem_singleton.mp hmem)
      obtain ⟨_, _, _, hseal⟩ := HelloWait.answer_ok hanswer
      exact htelling.envelope_greets (HelloWait.sealAck_ok hseal)
  | skipped _ hdraws _ => exact ⟨le_of_eq hdraws.symm, by simp⟩
  | failed hdraws _ => exact ⟨hdraws, by simp⟩
  | opened _ _ hdraws _ => exact ⟨le_of_eq hdraws.symm, by simp⟩
  | kept _ hdraws _ => exact ⟨le_of_eq hdraws.symm, by simp⟩
  | broken _ _ hdraws _ => exact ⟨le_of_eq hdraws.symm, by simp⟩

theorem Untold.moved (hc : c.Correct) (htelling : Telling hostCoins bound)
    (h : Untold hostCoins bound l.host.side.draws arkQueue hostQueue)
    (hmoved : Moved arkCoins hostCoins l l' arkQueue hostQueue arkQueue' hostQueue') :
    Untold hostCoins bound l'.host.side.draws arkQueue' hostQueue' := by
  cases hmoved with
  | ark _ _ hhost =>
      rw [hhost]
      exact h
  | host _ _ hdraws _ =>
      rw [hdraws]
      exact h
  | @arkPolled packet _ _ point sent _ hpolled hhost =>
      have hrest : Untold hostCoins bound l.host.side.draws arkQueue' hostQueue :=
        ⟨h.packets, h.names, fun packet hmem => h.greets packet (List.mem_cons_of_mem _ hmem)⟩
      rw [hhost]
      refine hrest.host_append fun entry hmem => ?_
      obtain ⟨answer, rfl, hgreets⟩ := polled_names hostCoins hc hpolled entry hmem
      refine ⟨answer, rfl, fun n hn hbound hnames => ?_⟩
      obtain ⟨taken, rfl, htaken⟩ := hgreets n hnames
      exact h.greets taken List.mem_cons_self n hn hbound htaken
  | arkSent _ _ hseal _ hhost =>
      rw [hhost]
      refine h.host_append fun entry hmem => ?_
      rw [List.mem_singleton.mp hmem]
      exact ⟨_, rfl, fun n _ _ => htelling.sealed_names hseal⟩
  | hostPolled _ hpolled _ =>
      obtain ⟨hdraws, hacks⟩ := polled_greets htelling hpolled
      have hrest : Untold hostCoins bound l.host.side.draws arkQueue hostQueue' :=
        ⟨fun entry hmem => h.packets entry (List.mem_cons_of_mem _ hmem),
          fun packet hmem => h.names packet (List.mem_cons_of_mem _ hmem), h.greets⟩
      exact (hrest.mono hdraws).ark_append fun ack hmem n _ _ => hacks ack hmem n
  | hostSent _ _ hseal _ hdraws _ =>
      rw [hdraws]
      refine h.ark_append fun packet hmem n _ _ => ?_
      rw [Option.some.inj (List.mem_singleton.mp hmem)]
      exact htelling.sealed_greets hseal

omit [Attester c A] in
theorem Untold.started (hc : c.Correct) (htelling : Telling hostCoins bound)
    (h : Untold hostCoins bound l.host.side.draws arkQueue hostQueue) (hstarted : Started hostCoins l l' arkQueue arkQueue') :
    Untold hostCoins bound l'.host.side.draws arkQueue' hostQueue := by
  cases hstarted with
  | failed hdraws _ _ => exact (h.mono hdraws).ark_append (by simp)
  | @greeted wait hello hkey hencode hdraws _ _ =>
      refine (h.mono (by omega)).ark_append fun packet hmem n hn hbound => ?_
      obtain rfl : packet = hello := by simpa using hmem
      rintro ⟨other, hdecode, hprint⟩
      rw [HostHello.decode_encode hc hencode] at hdecode
      rw [← Except.ok.inj hdecode, HelloWait.hostHello, hkey] at hprint
      have := htelling.print_inj (by omega) hbound hprint
      omega

/-- No packet in a queue is an envelope for the key the host drew n-th. -/
def Stale (hostCoins : Nat → Coins c) (n : Nat) (queue : List (Option (List UInt8))) : Prop :=
  ∀ packet, some packet ∈ queue → ¬ Names hostCoins n packet

/-- Where a HostHello is while the host waits for its answer: behind a reset and what was sent before it, next but for the
second empty frame, next, answered, or refused. -/
inductive Awaiting (hostCoins : Nat → Coins c) (n : Nat) (hostHello : HostHello c) (hello : List UInt8)
    (ark : ArkProc c proto A cobs maxFrameSize) : List (Option (List UInt8)) → List (Option (List UInt8)) → Prop
  | behind {earlier queue} : (∀ packet, some packet ∈ earlier → ¬ Greets hostCoins n packet) →
      Stale hostCoins n queue → Awaiting hostCoins n hostHello hello ark (earlier ++ [none, none, some hello]) queue
  | reset {queue} : ark.call.map Prod.fst = some (.handshake .hello) → Stale hostCoins n queue →
      Awaiting hostCoins n hostHello hello ark [none, some hello] queue
  | next {queue} : ark.call.map Prod.fst = some (.handshake .hello) → Stale hostCoins n queue →
      Awaiting hostCoins n hostHello hello ark [some hello] queue
  | answered {coins side packet wait arkHello answer stale} : ark.call.map Prod.fst = some (.handshake (.ack wait)) →
      ArkSide.Answers (T := Framing cobs maxFrameSize) (A := A) coins side packet wait arkHello answer → ark.side.signer = side.signer →
      wait.hostHello = hostHello → Stale hostCoins n stale →
      Awaiting hostCoins n hostHello hello ark [] (stale ++ [some answer])
  | refused {queue} : ark.side.session = none → Stale hostCoins n queue →
      Awaiting hostCoins n hostHello hello ark [] queue

omit [Attester c A] in
theorem Stale.append {n : Nat} {queue sent : List (Option (List UInt8))} (h : Stale hostCoins n queue)
    (hsent : ∀ packet, some packet ∈ sent → ¬ Names hostCoins n packet) : Stale hostCoins n (queue ++ sent) := by
  intro packet hmem
  rcases List.mem_append.mp hmem with hmem | hmem
  · exact h packet hmem
  · exact hsent packet hmem

omit [Attester c A] in
theorem Stale.tail {n : Nat} {entry : Option (List UInt8)} {queue : List (Option (List UInt8))}
    (h : Stale hostCoins n (entry :: queue)) : Stale hostCoins n queue :=
  fun packet hmem => h packet (List.mem_cons_of_mem _ hmem)

variable {n : Nat} {hostHello : HostHello c} {hello : List UInt8} {p p' : ArkProc c proto A cobs maxFrameSize}

theorem Awaiting.stays (h : Awaiting hostCoins n hostHello hello p arkQueue hostQueue)
    {point : Option (MessagePoint c)} (hpoint : p.call.map Prod.fst = point ∨ p.call = none ∧ point = some .packet)
    {history : History c proto.HostToArk} (hleft : p.Left p' p.side.session point history) :
    Awaiting hostCoins n hostHello hello p' arkQueue hostQueue := by
  have hsame : ∀ place, p.call.map Prod.fst = some place → p'.call.map Prod.fst = some place := by
    intro place hplace
    rcases hpoint with hsame | ⟨hnone, _⟩
    · rw [hleft.point, ← hsame, hplace]
    · rw [hnone] at hplace
      cases hplace
  cases h with
  | behind hearlier hstale => exact .behind hearlier hstale
  | reset hwait hstale => exact .reset (hsame _ hwait) hstale
  | next hwait hstale => exact .next (hsame _ hwait) hstale
  | answered hwait hanswers hsigner hhello hstale =>
      exact .answered (hsame _ hwait) hanswers (hleft.signer.trans hsigner) hhello hstale
  | refused hnone hstale => exact .refused (hleft.session.trans hnone) hstale

theorem Awaiting.takes (hc : c.Correct) (hdecode : HostHello.decode c hello = .ok hostHello)
    {packet : Option (List UInt8)} (h : Awaiting hostCoins n hostHello hello p (packet :: arkQueue) hostQueue)
    {point : MessagePoint c} {sent : List (Option (List UInt8))} (hpoint : p.call.map Prod.fst = some point)
    (hpolled : p.Polled arkCoins p' point packet sent) :
    Awaiting hostCoins n hostHello hello p' arkQueue (hostQueue ++ sent) := by
  have hnames := polled_names hostCoins hc hpolled
  generalize hqueue : packet :: arkQueue = queue at h
  cases h with
  | @behind earlier _ hearlier hstale =>
      rcases earlier with _ | ⟨head, earlier⟩
      · obtain ⟨rfl, rfl⟩ := List.cons.inj hqueue
        cases hpolled with
        | toHello hleft => exact .reset hleft.point (hstale.append (by simp))
      · obtain ⟨rfl, rfl⟩ := List.cons.inj hqueue
        refine .behind (fun other hmem => hearlier other (List.mem_cons_of_mem _ hmem)) (hstale.append fun answer hmem => ?_)
        intro hnamed
        obtain ⟨other, heq, hgreets⟩ := hnames _ hmem
        obtain ⟨taken, rfl, htaken⟩ := hgreets n (Option.some.inj heq ▸ hnamed)
        exact hearlier taken List.mem_cons_self htaken
  | reset hwait hstale =>
      obtain ⟨rfl, rfl⟩ := List.cons.inj hqueue
      cases hpolled with
      | toHello hleft => exact .next hleft.point (hstale.append (by simp))
  | next hwait hstale =>
      obtain ⟨rfl, rfl⟩ := List.cons.inj hqueue
      obtain rfl := Option.some.inj (hwait.symm.trans hpoint)
      cases hpolled with
      | dropped _ hleft => exact .refused hleft.session (hstale.append (by simp))
      | answered hanswers hleft =>
          exact .answered hleft.point hanswers hleft.signer (Except.ok.inj (hanswers.decode.symm.trans hdecode)) hstale
  | answered => cases hqueue
  | refused => cases hqueue

theorem Awaiting.sends (htelling : Telling hostCoins bound) (h : Awaiting hostCoins n hostHello hello p arkQueue hostQueue)
    (hcall : p.call = none) {session : Session c} (hsession : p.side.session = some session) {payload packet : List UInt8}
    {sender : c.Sender} (hseal : c.senderSeal session.sender payload = (.ok packet, sender)) :
    Awaiting hostCoins n hostHello hello p' arkQueue (hostQueue ++ [some packet]) := by
  have hwaits : ∀ place, p.call.map Prod.fst ≠ some place := by
    intro place hplace
    rw [hcall] at hplace
    cases hplace
  cases h with
  | behind hearlier hstale =>
      refine .behind hearlier (hstale.append fun other hmem => ?_)
      rw [Option.some.inj (List.mem_singleton.mp hmem)]
      exact htelling.sealed_names hseal
  | reset hwait => exact absurd hwait (hwaits _)
  | next hwait => exact absurd hwait (hwaits _)
  | answered hwait => exact absurd hwait (hwaits _)
  | refused hnone =>
      rw [hnone] at hsession
      cases hsession

/-- What the host takes while it waits is stale, or it is the answer to its HostHello and the last packet there is. -/
theorem Awaiting.head {packet : List UInt8}
    (h : Awaiting hostCoins n hostHello hello p arkQueue (some packet :: hostQueue)) :
    (¬ Names hostCoins n packet ∧ Awaiting hostCoins n hostHello hello p arkQueue hostQueue) ∨
      (hostQueue = [] ∧ arkQueue = [] ∧ ∃ coins side hello wait arkHello,
        p.call.map Prod.fst = some (.handshake (.ack wait)) ∧
        ArkSide.Answers (T := Framing cobs maxFrameSize) (A := A) coins side hello wait arkHello packet ∧ p.side.signer = side.signer ∧
        wait.hostHello = hostHello) := by
  generalize hqueue : some packet :: hostQueue = queue at h
  cases h with
  | behind hearlier hstale =>
      subst hqueue
      exact Or.inl ⟨hstale packet List.mem_cons_self, .behind hearlier hstale.tail⟩
  | reset hwait hstale =>
      subst hqueue
      exact Or.inl ⟨hstale packet List.mem_cons_self, .reset hwait hstale.tail⟩
  | next hwait hstale =>
      subst hqueue
      exact Or.inl ⟨hstale packet List.mem_cons_self, .next hwait hstale.tail⟩
  | refused hnone hstale =>
      subst hqueue
      exact Or.inl ⟨hstale packet List.mem_cons_self, .refused hnone hstale.tail⟩
  | @answered coins side hello wait arkHello answer stale hwait hanswers hsigner hhello hstale =>
      rcases stale with _ | ⟨head, stale⟩
      · obtain ⟨heq, rfl⟩ := List.cons.inj hqueue
        obtain rfl := Option.some.inj heq
        exact Or.inr ⟨rfl, rfl, coins, side, hello, wait, arkHello, hwait, hanswers, hsigner, hhello⟩
      · obtain ⟨rfl, rfl⟩ := List.cons.inj hqueue
        exact Or.inl ⟨hstale packet List.mem_cons_self, .answered hwait hanswers hsigner hhello hstale.tail⟩

/-! ### In the session -/

/-- One direction of a session: the contexts of its two ends are paired, what is between them was sealed under the
numbers between theirs, and what was delivered since the start is what was opened of what was sealed since. -/
structure Way {Msg : Type} (hpke : Contexts c) (codec : Codec (List UInt8) Msg) (sender : c.Sender) (receiver : c.Receiver)
    (flying : List (List UInt8 × List UInt8)) (delivered delivered' : List (Except Error Msg))
    (sealed sealed' : List (List UInt8)) : Prop where
  channel : hpke.sendChannel sender = hpke.recvChannel receiver
  flight : Flight hpke (hpke.recvChannel receiver) (hpke.recvSeq receiver) flying (hpke.sendSeq sender)
  ledger : ∃ opened, delivered' = delivered ++ opened.map codec.deliver ∧
    sealed' = sealed ++ (opened ++ flying.map Prod.fst)

variable {Msg : Type} {codec : Codec (List UInt8) Msg} {sender sender' : c.Sender} {receiver : c.Receiver}
  {flying : List (List UInt8 × List UInt8)} {delivered delivered' : List (Except Error Msg)}
  {sealed sealed' : List (List UInt8)} {payload packet : List UInt8}

omit [Attester c A] in
theorem Way.send (h : Way hpke codec sender receiver flying delivered delivered' sealed sealed')
    (hseal : c.senderSeal sender payload = (.ok packet, sender')) :
    Way hpke codec sender' receiver (flying ++ [(payload, packet)]) delivered delivered' sealed (sealed' ++ [payload]) := by
  obtain ⟨opened, hdelivered, hsealed⟩ := h.ledger
  refine ⟨(hpke.senderSeal_spec hseal).1.trans h.channel, h.flight.concat h.channel rfl hseal, opened, hdelivered, ?_⟩
  rw [hsealed]
  simp

omit [Attester c A] in
theorem Way.receive (hfaithful : hpke.Faithful)
    (h : Way hpke codec sender receiver ((payload, packet) :: flying) delivered delivered' sealed sealed') :
    ∃ receiver', c.receiverOpen receiver packet = (.ok payload, receiver') ∧
      Way hpke codec sender receiver' flying delivered (delivered' ++ [codec.deliver payload]) sealed sealed' := by
  obtain ⟨opened, hdelivered, hsealed⟩ := h.ledger
  obtain ⟨receiver', hopen, hsame, hflight⟩ := h.flight.opens hfaithful
  refine ⟨receiver', hopen, h.channel.trans hsame.symm, hflight, opened ++ [payload], ?_, ?_⟩
  · rw [hdelivered]
    simp
  · rw [hsealed]
    simp

/-- The Ark's end of the host's session: about to take the HostAck for it, or in it. -/
inductive Joins (ark : ArkProc c proto A cobs maxFrameSize) (session : Session c)
    (flying : List (List UInt8 × List UInt8)) : Bool → List (Option (List UInt8)) → Prop
  | joining {wait ack queue} : ark.call.map Prod.fst = some (.handshake (.ack wait)) →
      ark.side.acceptAck wait ack = .ok session → queue = some ack :: flying.map (fun entry => some entry.2) →
      Joins ark session flying false queue
  | joined {queue} : ark.call.map Prod.fst = none ∨ ark.call.map Prod.fst = some .packet →
      ark.side.session = some session → queue = flying.map (fun entry => some entry.2) →
      Joins ark session flying true queue

/-- The two sides are in one session, or the Ark is about to be, since this start. -/
structure Synced (hpke : Contexts c) (start l : Link c proto A Info cobs maxFrameSize) (joined : Bool)
    (arkQueue hostQueue : List (Option (List UInt8))) : Prop where
  call : l.host.call.map Prod.fst = none ∨ l.host.call.map Prod.fst = some .nextMessage
  ends : ∃ hostSession arkSession toArk toHost, l.host.side.session = some hostSession ∧
    Joins l.ark arkSession toArk joined arkQueue ∧ hostQueue = toHost.map (fun entry => some entry.2) ∧
    Way hpke proto.hostToArk hostSession.sender arkSession.receiver toArk start.ark.history.delivered
      l.ark.history.delivered (sealedPayloads start.host.history.epochs) (sealedPayloads l.host.history.epochs) ∧
    Way hpke proto.arkToHost arkSession.sender hostSession.receiver toHost start.host.history.delivered
      l.host.history.delivered (sealedPayloads start.ark.history.epochs) (sealedPayloads l.ark.history.epochs)

omit [Attester c A] in
theorem Holds.arkEpoch (h : Holds hpke arkCoins hostCoins l arkQueue hostQueue) {session : Session c}
    (hsession : l.ark.side.session = some session) : ∃ epoch epochs, l.ark.history.epochs = epoch :: epochs := by
  obtain ⟨e, hinv, habstracts⟩ := h.ark
  obtain ⟨epoch, epochs, hepochs, _⟩ := hinv.current session (habstracts.session.trans hsession)
  exact ⟨epoch, epochs, habstracts.history ▸ hepochs⟩

omit [Attester c A] in
theorem Holds.hostEpoch (h : Holds hpke arkCoins hostCoins l arkQueue hostQueue) {session : Session c}
    (hsession : l.host.side.session = some session) : ∃ epoch epochs, l.host.history.epochs = epoch :: epochs := by
  obtain ⟨e, hinv, habstracts⟩ := h.host
  obtain ⟨epoch, epochs, hepochs, _⟩ := hinv.current session (habstracts.session.trans hsession)
  exact ⟨epoch, epochs, habstracts.history ▸ hepochs⟩

section

variable {p p' : ArkProc c proto A cobs maxFrameSize} {session : Session c} {joined : Bool}
  {queue sent : List (Option (List UInt8))}

omit [Attester c A] in
theorem Joins.stays (h : Joins p session flying joined queue) {point : Option (MessagePoint c)}
    (hpoint : p.call.map Prod.fst = point ∨ p.call = none ∧ point = some .packet)
    {history : History c proto.HostToArk} (hleft : p.Left p' p.side.session point history) :
    Joins p' session flying joined queue := by
  cases h with
  | joining hwait haccept hqueue =>
      refine .joining ?_ (by rw [ArkSide.acceptAck_congr hleft.signer, haccept]) hqueue
      rcases hpoint with hsame | ⟨hnone, _⟩
      · rw [hleft.point, ← hsame, hwait]
      · rw [hnone] at hwait
        cases hwait
  | joined hwait hsession hqueue =>
      refine .joined ?_ (hleft.session.trans hsession) hqueue
      rw [hleft.point]
      rcases hpoint with hsame | ⟨_, hpacket⟩
      · rw [← hsame]
        exact hwait
      · exact Or.inr hpacket

omit [Attester c A] in
theorem Joins.send (h : Joins p session flying joined queue) :
    Joins p session (flying ++ [(payload, packet)]) joined (queue ++ [some packet]) := by
  cases h with
  | joining hwait haccept hqueue => exact .joining hwait haccept (by rw [hqueue]; simp)
  | joined hwait hsession hqueue => exact .joined hwait hsession (by rw [hqueue]; simp)

/-- The Ark takes the HostAck, with which it joins, or a packet of the session, which it opens. -/
theorem Joins.takes (hfaithful : hpke.Faithful) {head : Option (List UInt8)} {point : MessagePoint c}
    {delivered : List (Except Error proto.HostToArk)} (h : Joins p session flying joined (head :: queue))
    (hpoint : p.call.map Prod.fst = some point) (hpolled : p.Polled arkCoins p' point head sent)
    (hway : Way hpke proto.hostToArk sender session.receiver flying delivered p.history.delivered sealed sealed') :
    sent = [] ∧ sealedPayloads p'.history.epochs = sealedPayloads p.history.epochs ∧ ∃ session' flying',
      session'.sender = session.sender ∧ Joins p' session' flying' true queue ∧
      Way hpke proto.hostToArk sender session'.receiver flying' delivered p'.history.delivered sealed sealed' := by
  cases h with
  | joining hwait haccept hqueue =>
      obtain rfl := Option.some.inj (hwait.symm.trans hpoint)
      obtain ⟨rfl, rfl⟩ := List.cons.inj hqueue
      cases hpolled with
      | dropped hdrops _ =>
          cases hdrops with
          | rejected hreject =>
              rw [hreject] at haccept
              cases haccept
      | accepted wire haccepted hleft =>
          obtain rfl := Except.ok.inj (haccepted.symm.trans haccept)
          refine ⟨rfl, ?_, _, flying, rfl, .joined (Or.inr hleft.point) hleft.session rfl, ?_⟩
          · rw [hleft.history, sealedPayloads_new]
          · rw [hleft.history]
            exact hway
  | joined hwait hsession hqueue =>
      obtain rfl : point = .packet := by
        rcases hwait with hnone | hpacket
        · rw [hnone] at hpoint
          cases hpoint
        · exact (Option.some.inj (hpacket.symm.trans hpoint)).symm
      rcases flying with _ | ⟨⟨payload, packet⟩, flying⟩
      · cases hqueue
      obtain ⟨rfl, rfl⟩ := List.cons.inj hqueue
      obtain ⟨receiver', hopen, hway'⟩ := hway.receive hfaithful
      cases hpolled with
      | dropped hdrops _ =>
          cases hdrops with
          | junk hnone =>
              rw [hnone] at hsession
              cases hsession
          | broken hsome hfailed =>
              obtain rfl := Option.some.inj (hsome.symm.trans hsession)
              rw [hfailed] at hopen
              cases hopen
      | @opened _ current _ receiver hsome hopened hleft =>
          obtain rfl := Option.some.inj (hsome.symm.trans hsession)
          obtain ⟨hpayload, rfl⟩ := Prod.mk.inj (hopened.symm.trans hopen)
          obtain rfl := Except.ok.inj hpayload
          refine ⟨rfl, ?_, { current with receiver }, flying, rfl, .joined (Or.inl hleft.point) hleft.session rfl, ?_⟩
          · rw [hleft.history, sealedPayloads_opened]
          · rw [hleft.history, delivered_opened]
            exact hway'

end

omit [Attester c A] in
theorem hostPolled_opens (hfaithful : hpke.Faithful) {q q' : HostProc c proto Info cobs maxFrameSize} {session : Session c}
    {sent : List (Option (List UInt8))} {delivered : List (Except Error proto.ArkToHost)}
    (hsession : q.side.session = some session) (hpolled : q.Polled hostCoins q' .nextMessage (some packet) sent)
    (hway : Way hpke proto.arkToHost sender session.receiver ((payload, packet) :: flying) delivered q.history.delivered sealed
      sealed') :
    sent = [] ∧ sealedPayloads q'.history.epochs = sealedPayloads q.history.epochs ∧
      q'.history.delivered ≠ q.history.delivered ∧ q'.call.map Prod.fst = none ∧ ∃ receiver,
      q'.side.session = some { session with receiver } ∧
      Way hpke proto.arkToHost sender receiver flying delivered q'.history.delivered sealed sealed' := by
  obtain ⟨receiver', hopen, hway'⟩ := hway.receive hfaithful
  cases hpolled with
  | kept hkept =>
      rcases hkept with hnone | hnone
      · cases hnone
      · rw [hnone] at hsession
        cases hsession
  | broken hsome hfailed =>
      obtain rfl := Option.some.inj (hsome.symm.trans hsession)
      rw [hfailed] at hopen
      cases hopen
  | opened hsome hopened _ hleft =>
      obtain rfl := Option.some.inj (hsome.symm.trans hsession)
      obtain ⟨hpayload, rfl⟩ := Prod.mk.inj (hopened.symm.trans hopen)
      obtain rfl := Except.ok.inj hpayload
      rw [hleft.history, sealedPayloads_opened, delivered_opened]
      exact ⟨rfl, rfl, by simp, hleft.call, _, hleft.session, hway'⟩

theorem Synced.moved (hfaithful : hpke.Faithful) {start : Link c proto A Info cobs maxFrameSize} {joined : Bool}
    (hholds : Holds hpke arkCoins hostCoins l arkQueue hostQueue) (h : Synced hpke start l joined arkQueue hostQueue)
    (hmoved : Moved arkCoins hostCoins l l' arkQueue hostQueue arkQueue' hostQueue') :
    (∃ joined', (joined = true → joined' = true) ∧ Synced hpke start l' joined' arkQueue' hostQueue') ∧
      (l'.host.call = none → l.host.call = none ∨ l'.host.history.delivered ≠ l.host.history.delivered) := by
  obtain ⟨hostSession, arkSession, toArk, toHost, hhostSession, hjoins, hhostQueue, hway, hback⟩ := h.ends
  cases hmoved with
  | ark hpoint hleft hhost =>
      refine ⟨⟨joined, id, by rw [hhost]; exact h.call, hostSession, arkSession, toArk, toHost, by rw [hhost, hhostSession],
        hjoins.stays hpoint hleft, hhostQueue, ?_, ?_⟩, fun hnone => Or.inl (hhost ▸ hnone)⟩
      · rw [hleft.history, hhost]
        exact hway
      · rw [hleft.history, hhost]
        exact hback
  | arkPolled hpoint hpolled hhost =>
      obtain ⟨rfl, hsealed, session', toArk', hsender, hjoins', hway'⟩ := hjoins.takes hfaithful hpoint hpolled hway
      refine ⟨⟨true, fun _ => rfl, by rw [hhost]; exact h.call, hostSession, session', toArk', toHost,
        by rw [hhost, hhostSession], hjoins', ?_, ?_, ?_⟩, fun hnone => Or.inl (hhost ▸ hnone)⟩
      · rw [List.append_nil, hhostQueue]
      · rw [hhost]
        exact hway'
      · rw [hhost, hsealed, hsender]
        exact hback
  | @arkSent _ _ _ payload packet _ hcall hsome hseal hleft hhost =>
      obtain ⟨epoch, epochs, hepochs⟩ := hholds.arkEpoch hsome
      cases hjoins with
      | joining hwait _ _ =>
          rw [hcall] at hwait
          cases hwait
      | joined _ hsession hqueue =>
          obtain rfl := Option.some.inj (hsome.symm.trans hsession)
          refine ⟨⟨true, fun _ => rfl, by rw [hhost]; exact h.call, hostSession, _, toArk, toHost ++ [(payload, packet)],
            by rw [hhost, hhostSession], .joined (Or.inl hleft.point) hleft.session hqueue, ?_, ?_, ?_⟩,
            fun hnone => Or.inl (hhost ▸ hnone)⟩
          · rw [hhostQueue, List.map_append, List.map_singleton]
          · rw [hleft.history, hhost]
            exact hway
          · rw [hleft.history, hhost, sealedPayloads_sealed hepochs]
            exact hback.send hseal
  | host hcall hleft _ hark =>
      refine ⟨⟨joined, id, ?_, hostSession, arkSession, toArk, toHost, hleft.session.trans hhostSession,
        by rw [hark]; exact hjoins, hhostQueue, ?_, ?_⟩, fun hnone => Or.inl ?_⟩
      · rw [hleft.call]
        rcases hcall with hsame | ⟨_, hnext⟩
        · rw [← hsame]
          exact h.call
        · exact Or.inr hnext
      · rw [hleft.history, hark]
        exact hway
      · rw [hleft.history, hark]
        exact hback
      · have hplace := hleft.call
        rw [hnone] at hplace
        rcases hcall with hsame | ⟨hout, _⟩
        · exact Option.map_eq_none_iff.mp (hsame.trans hplace.symm)
        · exact hout
  | @hostPolled head _ _ call sent hcall hpolled hark =>
      obtain rfl : call = .nextMessage := by
        rcases h.call with hnone | hnext
        · rw [hnone] at hcall
          cases hcall
        · exact (Option.some.inj (hnext.symm.trans hcall)).symm
      rcases toHost with _ | ⟨⟨payload, packet⟩, toHost⟩
      · cases hhostQueue
      obtain ⟨rfl, rfl⟩ := List.cons.inj hhostQueue
      obtain ⟨rfl, hsealed, hdelivers, hplace, receiver, hsession', hback'⟩ :=
        hostPolled_opens hfaithful hhostSession hpolled hback
      refine ⟨⟨joined, id, Or.inl hplace, _, arkSession, toArk, toHost, hsession', ?_, rfl, ?_, ?_⟩,
        fun _ => Or.inr hdelivers⟩
      · rw [hark, List.append_nil]
        exact hjoins
      · rw [hark, hsealed]
        exact hway
      · rw [hark]
        exact hback'
  | @hostSent _ _ _ payload packet _ hcall hsome hseal hleft _ hark =>
      obtain ⟨epoch, epochs, hepochs⟩ := hholds.hostEpoch hsome
      obtain rfl := Option.some.inj (hsome.symm.trans hhostSession)
      refine ⟨⟨joined, id, Or.inl hleft.call, _, arkSession, toArk ++ [(payload, packet)], toHost, hleft.session,
        by rw [hark]; exact hjoins.send, hhostQueue, ?_, ?_⟩, fun _ => Or.inl hcall⟩
      · rw [hleft.history, hark, sealedPayloads_sealed hepochs]
        exact hway.send hseal
      · rw [hleft.history, hark]
        exact hback

omit [Attester c A] in
theorem ours_iff_names {wait : HelloWait c Info} (hkey : wait.hostXhpkeSk = (hostRole hostCoins).key n)
    (packet : List UInt8) : wait.Ours (some packet) ↔ Names hostCoins n packet := by
  rw [HelloWait.Ours, HelloWait.hostHello, hkey]
  rfl

/-- What a host does with the head of its queue while it waits for the answer to its HostHello: it waits on, it fails, or
it comes into a session that the Ark is about to join. -/
theorem Awaiting.hostPolled (hc : c.Correct) {wait : HelloWait c Info}
    (hkey : wait.hostXhpkeSk = (hostRole hostCoins).key n) {packet : List UInt8}
    (h : Awaiting hostCoins n wait.hostHello hello l.ark arkQueue (some packet :: hostQueue)) (hark : l'.ark = l.ark)
    {sent : List (Option (List UInt8))}
    (hpolled : l.host.Polled hostCoins l'.host (.handshake wait) (some packet) sent) :
    (∃ wait', l'.host.call.map Prod.fst = some (.handshake wait') ∧ wait'.hostXhpkeSk = wait.hostXhpkeSk ∧
        wait'.hostHello = wait.hostHello ∧
        Awaiting hostCoins n wait.hostHello hello l'.ark (arkQueue ++ sent) hostQueue) ∨
      (l'.host.side.session = none ∧ l'.host.call.map Prod.fst = none) ∨
      arkQueue = [] ∧ Synced hpke l' l' false (arkQueue ++ sent) hostQueue := by
  have hprint : c.fingerprint wait.hostHello.hostCrypto = hostPrint hostCoins n := by
    rw [HelloWait.hostHello, hkey]
    rfl
  have hours := ours_iff_names hkey packet
  cases hpolled with
  | failed _ hleft => exact Or.inr (Or.inl ⟨hleft.session, hleft.call⟩)
  | skipped hother _ hleft =>
      rcases h.head with ⟨_, hrest⟩ | ⟨_, _, coins, side, _, arkWait, arkHello, _, hanswers, _, hhello⟩
      · exact Or.inl ⟨_, hleft.call, rfl, rfl, by rw [hark, List.append_nil]; exact hrest⟩
      · refine absurd (hours.mpr ?_) hother
        rw [Names, hc.coseRecipient_seal hanswers.sealed, hhello, hprint]
  | @answered _ _ verified session ack wire htaken hanswer _ hleft =>
      rcases h.head with ⟨hstale, _⟩ | ⟨rfl, rfl, coins, side, _, arkWait, arkHello, hwait, hanswers, hsigner, hhello⟩
      · exact absurd (hours.mp htaken) hstale
      · obtain ⟨arkSession, haccept, hpaired⟩ := ack_accepted hc hpke hanswers hhello hanswer
        obtain ⟨hout, hback, hsend, hrecv, hpeerSend, hpeerRecv⟩ : _ ∧ _ ∧ _ ∧ _ ∧ _ ∧ _ :=
          ⟨hpaired.out, hpaired.back, hpaired.start⟩
        refine Or.inr (Or.inr ⟨rfl, Or.inl hleft.call, session, arkSession, [], [], hleft.session, ?_, rfl, ?_, ?_⟩)
        · refine .joining (by rw [hark]; exact hwait) ?_ rfl
          rw [hark, ArkSide.acceptAck_congr hsigner, haccept]
        · refine ⟨hback.symm, ?_, [], by simp, by simp⟩
          rw [hrecv, hpeerSend]
          exact .nil
        · refine ⟨hout, ?_, [], by simp, by simp⟩
          rw [hpeerRecv, hsend]
          exact .nil

/-- Where a link is: the host has no session and calls no `handshake`, it waits for an answer, or it is in a session. -/
inductive Phase (hpke : Contexts c) (hostCoins : Nat → Coins c) (l : Link c proto A Info cobs maxFrameSize)
    (arkQueue hostQueue : List (Option (List UInt8))) : Prop
  | apart : l.host.side.session = none →
      l.host.call.map Prod.fst = none ∨ l.host.call.map Prod.fst = some .nextMessage → Phase hpke hostCoins l arkQueue hostQueue
  | awaiting {n wait hello} : l.host.call.map Prod.fst = some (.handshake wait) →
      wait.hostXhpkeSk = (hostRole hostCoins).key n → HostHello.decode c hello = .ok wait.hostHello →
      Awaiting hostCoins n wait.hostHello hello l.ark arkQueue hostQueue → Phase hpke hostCoins l arkQueue hostQueue
  | synced {start joined} : Synced hpke start l joined arkQueue hostQueue → Phase hpke hostCoins l arkQueue hostQueue

theorem Phase.started (hc : c.Correct) (huntold : Untold hostCoins bound l.host.side.draws arkQueue hostQueue)
    (hbound : l'.host.side.draws ≤ bound) (hstarted : Started hostCoins l l' arkQueue arkQueue') :
    Phase hpke hostCoins l' arkQueue' hostQueue := by
  cases hstarted with
  | failed _ hleft _ => exact .apart hleft.session (Or.inl hleft.call)
  | greeted hkey hencode hdraws hleft hark =>
      have hdrawn : l.host.side.draws < bound := by omega
      exact .awaiting hleft.call hkey (HostHello.decode_encode hc hencode)
        (.behind (fun packet hmem => huntold.greets packet hmem _ (le_refl _) hdrawn)
          fun packet hmem => huntold.names packet hmem _ (le_refl _) hdrawn)

theorem apart_moved (hnone : l.host.side.session = none)
    (hcall : l.host.call.map Prod.fst = none ∨ l.host.call.map Prod.fst = some .nextMessage)
    (hmoved : Moved arkCoins hostCoins l l' arkQueue hostQueue arkQueue' hostQueue') :
    l'.host.side.session = none ∧ (l'.host.call.map Prod.fst = none ∨ l'.host.call.map Prod.fst = some .nextMessage) := by
  cases hmoved with
  | ark _ _ hhost => exact ⟨by rw [hhost, hnone], by rw [hhost]; exact hcall⟩
  | arkPolled _ _ hhost => exact ⟨by rw [hhost, hnone], by rw [hhost]; exact hcall⟩
  | arkSent _ _ _ _ hhost => exact ⟨by rw [hhost, hnone], by rw [hhost]; exact hcall⟩
  | host hplace hleft _ _ =>
      refine ⟨hleft.session.trans hnone, ?_⟩
      rw [hleft.call]
      rcases hplace with hsame | ⟨_, hnext⟩
      · rw [← hsame]
        exact hcall
      · exact Or.inr hnext
  | hostPolled hplace hpolled _ =>
      rcases hcall with hout | hnext
      · rw [hout] at hplace
        cases hplace
      · obtain rfl := Option.some.inj (hnext.symm.trans hplace)
        cases hpolled with
        | opened hsome => exact absurd (hsome.symm.trans hnone) (by simp)
        | broken hsome => exact absurd (hsome.symm.trans hnone) (by simp)
        | kept _ _ hleft => exact ⟨hleft.session.trans hnone, Or.inl hleft.call⟩
  | hostSent _ hsome => exact absurd (hsome.symm.trans hnone) (by simp)

theorem Phase.moved (hc : c.Correct) (hfaithful : hpke.Faithful) (htelling : Telling hostCoins bound)
    (hholds : Holds hpke arkCoins hostCoins l arkQueue hostQueue)
    (huntold : Untold hostCoins bound l.host.side.draws arkQueue hostQueue) (h : Phase hpke hostCoins l arkQueue hostQueue)
    (hmoved : Moved arkCoins hostCoins l l' arkQueue hostQueue arkQueue' hostQueue') :
    Phase hpke hostCoins l' arkQueue' hostQueue' := by
  cases h with
  | synced hsynced =>
      obtain ⟨⟨_, _, hsynced'⟩, _⟩ := hsynced.moved hfaithful hholds hmoved
      exact .synced hsynced'
  | apart hnone hcall =>
      obtain ⟨hnone', hcall'⟩ := apart_moved hnone hcall hmoved
      exact .apart hnone' hcall'
  | awaiting hwait hkey hdecode hawaiting =>
      cases hmoved with
      | ark hpoint hleft hhost => exact .awaiting (by rw [hhost, hwait]) hkey hdecode (hawaiting.stays hpoint hleft)
      | arkPolled hpoint hpolled hhost =>
          exact .awaiting (by rw [hhost, hwait]) hkey hdecode (hawaiting.takes hc hdecode hpoint hpolled)
      | arkSent hcall hsome hseal _ hhost =>
          exact .awaiting (by rw [hhost, hwait]) hkey hdecode (hawaiting.sends htelling hcall hsome hseal)
      | host hplace hleft _ hark =>
          refine .awaiting ?_ hkey hdecode (by rw [hark]; exact hawaiting)
          rcases hplace with hsame | ⟨hnone, _⟩
          · rw [hleft.call, ← hsame, hwait]
          · rw [hnone] at hwait
            cases hwait
      | hostPolled hplace hpolled hark =>
          obtain rfl := Option.some.inj (hwait.symm.trans hplace)
          obtain ⟨packet, rfl⟩ := huntold.packets _ List.mem_cons_self
          rcases hawaiting.hostPolled hc hkey hark hpolled with
            ⟨wait', hcall, hkey', hhello, hawaiting'⟩ | ⟨hnone, hcall⟩ | ⟨_, hsynced⟩
          · exact .awaiting hcall (hkey'.trans hkey) (by rw [hdecode, hhello]) (by rw [hhello]; exact hawaiting')
          · exact .apart hnone (Or.inl hcall)
          · exact .synced hsynced
      | hostSent hcall =>
          rw [hcall] at hwait
          cases hwait

end Link

end DarkbioWire
