import DarkbioWire.Process

/-!
# Session endpoints

What a side is for its peer, whichever side it is: it holds a session or none, opens and seals in it, loses it, and sets
up another from fresh coins. `Endpoint.Step` is that machine, with the bytes it writes and the history it leaves;
`Inv` is what holds of it over every run, given that HPKE contexts count what they open and seal and that coins are
fresh. The two processes are shown to be such machines in the modules that import this one.
-/

namespace DarkbioWire

/-- The public key a context was set up towards, the encapsulated key and the info string. -/
abbrev Channel {Blob : Type} (c : Crypto Blob) := c.XhpkePublicKey × Blob × List UInt8

/-- HPKE contexts as the wire relies on them: a context belongs to the channel it was set up for, starts at sequence
number zero and advances by one with each packet it seals or opens. -/
structure Contexts {Blob : Type} (c : Crypto Blob) where
  sendChannel : c.Sender → Channel c
  sendSeq : c.Sender → Nat
  recvChannel : c.Receiver → Channel c
  recvSeq : c.Receiver → Nat
  newSender_spec : ∀ {key info seed sender encap}, c.newSender key info seed = .ok (sender, encap) →
    sendChannel sender = (key, encap, info) ∧ sendSeq sender = 0
  newReceiver_spec : ∀ {key encap info receiver}, c.newReceiver key encap info = .ok receiver →
    recvChannel receiver = (c.xhpkePublicKey key, encap, info) ∧ recvSeq receiver = 0
  senderSeal_spec : ∀ {sender payload packet sender'}, c.senderSeal sender payload = (.ok packet, sender') →
    sendChannel sender' = sendChannel sender ∧ sendSeq sender' = sendSeq sender + 1
  receiverOpen_spec : ∀ {receiver packet payload receiver'}, c.receiverOpen receiver packet = (.ok payload, receiver') →
    recvChannel receiver' = recvChannel receiver ∧ recvSeq receiver' = recvSeq receiver + 1

/-- Which of its coins a side uses in a handshake: a key pair to receive with and a seed to encapsulate with. -/
structure Role (c : Crypto (List UInt8)) where
  key : Nat → c.XhpkeSecretKey
  seed : Nat → c.Seed
  infoIn : List UInt8
  infoOut : List UInt8

/-- Of this many draws no two give one key or one encapsulated key. -/
structure Role.Fresh {c : Crypto (List UInt8)} (role : Role c) (draws : Nat) : Prop where
  key_inj : ∀ {m n}, m < draws → n < draws → c.xhpkePublicKey (role.key m) = c.xhpkePublicKey (role.key n) → m = n
  encap_inj : ∀ {m n key key' sender sender' encap}, m < draws → n < draws →
    c.newSender key role.infoOut (role.seed m) = .ok (sender, encap) →
    c.newSender key' role.infoOut (role.seed n) = .ok (sender', encap) → m = n

theorem Role.Fresh.mono {c : Crypto (List UInt8)} {role : Role c} {draws draws' : Nat} (h : role.Fresh draws)
    (hle : draws' ≤ draws) : role.Fresh draws' where
  key_inj hm hn := h.key_inj (Nat.lt_of_lt_of_le hm hle) (Nat.lt_of_lt_of_le hn hle)
  encap_inj hm hn := h.encap_inj (Nat.lt_of_lt_of_le hm hle) (Nat.lt_of_lt_of_le hn hle)

/-- A session endpoint. `round` bounds the coins of the sessions it set up so far. -/
structure Endpoint (c : Crypto (List UInt8)) (Msg : Type) where
  session : Option (Session c)
  wire : List UInt8
  round : Nat
  history : History c Msg

variable {c : Crypto (List UInt8)} {Msg : Type} {cobs : Cobs} {maxFrameSize : Nat}

/-- A session set up with the key of one draw and the encapsulation of another. -/
structure Role.Makes (role : Role c) (session : Session c) (m n : Nat) : Prop where
  receiver : ∃ encap, c.newReceiver (role.key m) encap role.infoIn = .ok session.receiver
  sender : ∃ key encap, c.newSender key role.infoOut (role.seed n) = .ok (session.sender, encap)

namespace Endpoint

/-- One step of an endpoint. -/
inductive Step (cobs : Cobs) (maxFrameSize : Nat) (role : Role c) (codec : Codec (List UInt8) Msg) (e : Endpoint c Msg) :
    Endpoint c Msg → Prop
  | quiet : Step cobs maxFrameSize role codec e e
  | opened {session receiver packet payload} : e.session = some session →
      c.receiverOpen session.receiver packet = (.ok payload, receiver) →
      Step cobs maxFrameSize role codec e
        { e with
          session := some { session with receiver }
          history := (e.history.inEpoch fun epoch =>
            { epoch with opened := epoch.opened ++ [(session.receiver, packet, payload)] }).noteResult
              (codec.deliver payload) }
  | sent {session sender payload packet frame} : e.session = some session →
      c.senderSeal session.sender payload = (.ok packet, sender) →
      Framing.frameOf cobs maxFrameSize packet = .ok frame →
      Step cobs maxFrameSize role codec e
        { e with
          session := some { session with sender }
          wire := e.wire ++ (frame ++ [0])
          history := e.history.inEpoch fun epoch =>
            { epoch with sealed := epoch.sealed ++ [(session.sender, payload, packet)] } }
  | lost {session sender payload packet wire} : e.session = some session →
      c.senderSeal session.sender payload = (.ok packet, sender) → e.wire <+: wire →
      Step cobs maxFrameSize role codec e
        { e with
          session := none
          wire
          history := e.history.inEpoch fun epoch =>
            { epoch with sealed := epoch.sealed ++ [(session.sender, payload, packet)] } }
  | out {wire round} : e.wire <+: wire → e.round ≤ round →
      Step cobs maxFrameSize role codec e { e with session := none, wire, round }
  | established {session wire m n} : e.session = none → e.wire <+: wire → e.round ≤ m → m ≤ n →
      role.Makes session m n →
      Step cobs maxFrameSize role codec e
        { session := some session
          wire
          round := n + 1
          history :=
            { e.history with
              epochs := { session, wire, opened := [], sealed := [] } :: e.history.epochs } }

/-- The bytes of the frames of these packets, delimiters included. -/
def frames (cobs : Cobs) (maxFrameSize : Nat) (packets : List (List UInt8)) : List UInt8 :=
  packets.flatMap fun packet =>
    match Framing.frameOf cobs maxFrameSize packet with
    | .ok frame => frame ++ [0]
    | .error _ => []

theorem frames_append {packets : List (List UInt8)} {packet frame : List UInt8}
    (hframe : Framing.frameOf cobs maxFrameSize packet = .ok frame) :
    frames cobs maxFrameSize (packets ++ [packet]) = frames cobs maxFrameSize packets ++ (frame ++ [0]) := by
  simp [frames, hframe]

/-- Everything that was opened, oldest first. -/
def openedPayloads (epochs : List (Epoch c)) : List (List UInt8) :=
  epochs.reverse.flatMap fun epoch => epoch.opened.map fun entry => entry.2.2

/-- What was opened and sealed in an epoch stays in its channels and is numbered from zero without a gap. -/
structure Numbered (hpke : Contexts c) (epoch : Epoch c) : Prop where
  opened : epoch.opened.map (fun entry => (hpke.recvChannel entry.1, hpke.recvSeq entry.1)) =
    (List.range epoch.opened.length).map fun i => (hpke.recvChannel epoch.session.receiver, i)
  sealed : epoch.sealed.map (fun entry => (hpke.sendChannel entry.1, hpke.sendSeq entry.1)) =
    (List.range epoch.sealed.length).map fun i => (hpke.sendChannel epoch.session.sender, i)

/-- The epochs were set up from coins that grow towards the newest, all below the bound. -/
def Ordered (role : Role c) : List (Epoch c) → Nat → Prop
  | [], _ => True
  | epoch :: epochs, bound =>
      ∃ m n, role.Makes epoch.session m n ∧ m ≤ n ∧ n < bound ∧ Ordered role epochs m

/-- The session is the newest epoch's, advanced by what was opened and sealed in it, and what was written since is the
frames of what was sealed. -/
structure Current (cobs : Cobs) (maxFrameSize : Nat) (hpke : Contexts c) (wire : List UInt8) (session : Session c)
    (epoch : Epoch c) : Prop where
  recvChannel : hpke.recvChannel session.receiver = hpke.recvChannel epoch.session.receiver
  recvSeq : hpke.recvSeq session.receiver = epoch.opened.length
  sendChannel : hpke.sendChannel session.sender = hpke.sendChannel epoch.session.sender
  sendSeq : hpke.sendSeq session.sender = epoch.sealed.length
  framed : ∀ entry ∈ epoch.sealed, ∃ frame, Framing.frameOf cobs maxFrameSize entry.2.2 = .ok frame
  wire : wire = epoch.wire ++ frames cobs maxFrameSize (epoch.sealed.map fun entry => entry.2.2)

/-- What holds of an endpoint over every run. -/
structure Inv (cobs : Cobs) (maxFrameSize : Nat) (hpke : Contexts c) (role : Role c) (codec : Codec (List UInt8) Msg)
    (e : Endpoint c Msg) : Prop where
  numbered : ∀ epoch ∈ e.history.epochs, Numbered hpke epoch
  ordered : Ordered role e.history.epochs e.round
  delivered : e.history.delivered = (openedPayloads e.history.epochs).map codec.deliver
  current : ∀ session, e.session = some session →
    ∃ epoch epochs, e.history.epochs = epoch :: epochs ∧ Current cobs maxFrameSize hpke e.wire session epoch

variable {hpke : Contexts c} {role : Role c} {codec : Codec (List UInt8) Msg} {e e' : Endpoint c Msg}

theorem Ordered.mono {epochs : List (Epoch c)} {bound bound' : Nat} (h : Ordered role epochs bound)
    (hle : bound ≤ bound') : Ordered role epochs bound' := by
  cases epochs with
  | nil => trivial
  | cons epoch epochs =>
      obtain ⟨m, n, hmakes, hmn, hn, hrest⟩ := h
      exact ⟨m, n, hmakes, hmn, Nat.lt_of_lt_of_le hn hle, hrest⟩

theorem Ordered.congr {epoch epoch' : Epoch c} {epochs : List (Epoch c)} {bound : Nat}
    (h : Ordered role (epoch :: epochs) bound) (hsession : epoch'.session = epoch.session) :
    Ordered role (epoch' :: epochs) bound := by
  rw [Ordered, hsession]
  exact h

theorem Ordered.mem {epochs : List (Epoch c)} {bound : Nat} (h : Ordered role epochs bound) {epoch : Epoch c}
    (hmem : epoch ∈ epochs) : ∃ m n, role.Makes epoch.session m n ∧ m ≤ n ∧ n < bound := by
  induction epochs generalizing bound with
  | nil => cases hmem
  | cons head epochs ih =>
      obtain ⟨m, n, hmakes, hmn, hn, hrest⟩ := h
      rcases List.mem_cons.mp hmem with rfl | hmem
      · exact ⟨m, n, hmakes, hmn, hn⟩
      · obtain ⟨m', n', hmakes', hmn', hn'⟩ := ih hrest hmem
        exact ⟨m', n', hmakes', hmn', by omega⟩

theorem Ordered.pairwise (hpke : Contexts c) {epochs : List (Epoch c)} {bound : Nat} (hfresh : role.Fresh bound)
    (h : Ordered role epochs bound) :
    epochs.Pairwise fun epoch epoch' =>
      hpke.recvChannel epoch.session.receiver ≠ hpke.recvChannel epoch'.session.receiver ∧
        hpke.sendChannel epoch.session.sender ≠ hpke.sendChannel epoch'.session.sender := by
  induction epochs generalizing bound with
  | nil => exact List.Pairwise.nil
  | cons epoch epochs ih =>
      obtain ⟨m, n, hmakes, hmn, hn, hrest⟩ := h
      refine List.Pairwise.cons (fun epoch' hmem => ?_) (ih (hfresh.mono (by omega)) hrest)
      obtain ⟨m', n', hmakes', hmn', hn'⟩ := hrest.mem hmem
      obtain ⟨encap, hreceiver⟩ := hmakes.receiver
      obtain ⟨encap', hreceiver'⟩ := hmakes'.receiver
      obtain ⟨key, out, hsender⟩ := hmakes.sender
      obtain ⟨key', out', hsender'⟩ := hmakes'.sender
      constructor
      · rw [(hpke.newReceiver_spec hreceiver).1, (hpke.newReceiver_spec hreceiver').1]
        intro heq
        have := hfresh.key_inj (by omega) (by omega) (Prod.mk.inj heq).1
        omega
      · rw [(hpke.newSender_spec hsender).1, (hpke.newSender_spec hsender').1]
        intro heq
        obtain ⟨_, hrest⟩ := Prod.mk.inj heq
        obtain ⟨rfl, _⟩ := Prod.mk.inj hrest
        have := hfresh.encap_inj (by omega) (by omega) hsender hsender'
        omega

theorem openedPayloads_cons (epoch : Epoch c) (epochs : List (Epoch c)) :
    openedPayloads (epoch :: epochs) = openedPayloads epochs ++ epoch.opened.map fun entry => entry.2.2 := by
  simp [openedPayloads]

theorem reports_deliver (payload : List UInt8) : reports (codec.deliver payload) = true := by
  rw [Codec.deliver]
  split <;> rfl

theorem Inv.init (wire : List UInt8) :
    Inv cobs maxFrameSize hpke role codec { session := none, wire, round := 0, history := History.empty } where
  numbered := by simp [History.empty]
  ordered := trivial
  delivered := rfl
  current := by simp

theorem numbered_append {E C : Type} {number : E → C × Nat} {entries : List E} {channel : C} {entry : E}
    (h : entries.map number = (List.range entries.length).map fun i => (channel, i))
    (hentry : number entry = (channel, entries.length)) :
    (entries ++ [entry]).map number = (List.range (entries ++ [entry]).length).map fun i => (channel, i) := by
  rw [List.map_append, h, List.length_append, List.length_singleton, List.range_succ, List.map_append, List.map_singleton,
    List.map_singleton, hentry]

theorem Inv.step (h : Inv cobs maxFrameSize hpke role codec e) (hstep : Step cobs maxFrameSize role codec e e') :
    Inv cobs maxFrameSize hpke role codec e' := by
  cases hstep with
  | quiet => exact h
  | out _ hround =>
      exact ⟨h.numbered, h.ordered.mono hround, h.delivered, by simp⟩
  | @opened session receiver packet payload hsession hopen =>
      obtain ⟨epoch, epochs, hepochs, hcurrent⟩ := h.current session hsession
      obtain ⟨hchannel, hseq⟩ := hpke.receiverOpen_spec hopen
      have hnumbered := h.numbered
      have hordered := h.ordered
      have hdelivered := h.delivered
      rw [hepochs] at hnumbered hordered hdelivered
      have hhead := hnumbered epoch List.mem_cons_self
      rw [History.noteResult, if_pos (reports_deliver payload), History.inEpoch, hepochs, List.modifyHead_cons]
      refine ⟨?_, hordered.congr rfl, ?_, ?_⟩
      · intro other hmem
        rcases List.mem_cons.mp hmem with rfl | hmem
        · exact ⟨numbered_append hhead.opened (by rw [hcurrent.recvChannel, hcurrent.recvSeq]), hhead.sealed⟩
        · exact hnumbered other (List.mem_cons_of_mem _ hmem)
      · change e.history.delivered ++ _ = _
        rw [hdelivered, openedPayloads_cons, openedPayloads_cons, List.map_append, List.map_append, List.map_append,
          List.map_append, List.append_assoc]
        rfl
      · intro current hcurrent'
        obtain rfl := Option.some.inj hcurrent'
        refine ⟨_, epochs, rfl, ?_, ?_, hcurrent.sendChannel, hcurrent.sendSeq, hcurrent.framed, hcurrent.wire⟩
        · rw [hchannel, hcurrent.recvChannel]
        · rw [hseq, hcurrent.recvSeq]
          simp
  | @sent session sender payload packet frame hsession hseal hframe =>
      obtain ⟨epoch, epochs, hepochs, hcurrent⟩ := h.current session hsession
      obtain ⟨hchannel, hseq⟩ := hpke.senderSeal_spec hseal
      have hnumbered := h.numbered
      have hordered := h.ordered
      have hdelivered := h.delivered
      rw [hepochs] at hnumbered hordered hdelivered
      have hhead := hnumbered epoch List.mem_cons_self
      rw [History.inEpoch, hepochs, List.modifyHead_cons]
      refine ⟨?_, hordered.congr rfl, ?_, ?_⟩
      · intro other hmem
        rcases List.mem_cons.mp hmem with rfl | hmem
        · exact ⟨hhead.opened, numbered_append hhead.sealed (by rw [hcurrent.sendChannel, hcurrent.sendSeq])⟩
        · exact hnumbered other (List.mem_cons_of_mem _ hmem)
      · change e.history.delivered = _
        rw [hdelivered, openedPayloads_cons, openedPayloads_cons]
      · intro current hcurrent'
        obtain rfl := Option.some.inj hcurrent'
        refine ⟨_, epochs, rfl, hcurrent.recvChannel, hcurrent.recvSeq, ?_, ?_, ?_, ?_⟩
        · rw [hchannel, hcurrent.sendChannel]
        · rw [hseq, hcurrent.sendSeq]
          simp
        · intro entry hentry
          rcases List.mem_append.mp hentry with hentry | hentry
          · exact hcurrent.framed entry hentry
          · rw [List.mem_singleton.mp hentry]
            exact ⟨frame, hframe⟩
        · rw [List.map_append, List.map_singleton, frames_append hframe, hcurrent.wire, List.append_assoc]
  | @lost session sender payload packet wire hsession hseal _ =>
      obtain ⟨epoch, epochs, hepochs, hcurrent⟩ := h.current session hsession
      have hnumbered := h.numbered
      have hordered := h.ordered
      have hdelivered := h.delivered
      rw [hepochs] at hnumbered hordered hdelivered
      have hhead := hnumbered epoch List.mem_cons_self
      rw [History.inEpoch, hepochs, List.modifyHead_cons]
      refine ⟨?_, hordered.congr rfl, ?_, by simp⟩
      · intro other hmem
        rcases List.mem_cons.mp hmem with rfl | hmem
        · exact ⟨hhead.opened, numbered_append hhead.sealed (by rw [hcurrent.sendChannel, hcurrent.sendSeq])⟩
        · exact hnumbered other (List.mem_cons_of_mem _ hmem)
      · change e.history.delivered = _
        rw [hdelivered, openedPayloads_cons, openedPayloads_cons]
  | @established session wire m n hsession _ hm hmn hmakes =>
      obtain ⟨encap, hreceiver⟩ := hmakes.receiver
      obtain ⟨key, out, hsender⟩ := hmakes.sender
      refine ⟨?_, ⟨m, n, hmakes, hmn, Nat.lt_succ_self n, h.ordered.mono hm⟩, ?_, ?_⟩
      · intro other hmem
        rcases List.mem_cons.mp hmem with rfl | hmem
        · exact ⟨rfl, rfl⟩
        · exact h.numbered other hmem
      · change e.history.delivered = _
        rw [openedPayloads_cons, h.delivered]
        simp
      · intro current hcurrent
        obtain rfl := Option.some.inj hcurrent
        exact ⟨_, _, rfl, rfl, (hpke.newReceiver_spec hreceiver).2, rfl, (hpke.newSender_spec hsender).2,
          by simp, by simp [frames]⟩

/-- `send_message` is a step of the endpoint, whatever the writer answers. -/
theorem sendThrough_endpoint {M : Type} (hcobs : cobs.Lawful) {f : Framing cobs maxFrameSize} (hf : f.Wf)
    (hwire : e.wire = f.writer.wire) (sealing : Codec (List UInt8) M) (msg : M) :
    ∃ e', e.Step cobs maxFrameSize role codec e' ∧ e'.session = (sendThrough sealing f e.session msg).2.2 ∧
      e'.wire = (sendThrough sealing f e.session msg).2.1.writer.wire ∧ e'.round = e.round ∧
      e'.history = e.history.noteSeal (maxMessageSize cobs maxFrameSize) sealing e.session msg ∧
      (sendThrough sealing f e.session msg).2.1.Wf ∧
      Framing.SameReceiver f (sendThrough sealing f e.session msg).2.1 := by
  have hstep := sendThrough_step sealing f e.session msg
  generalize sendThrough sealing f e.session msg = outcome at hstep ⊢
  obtain ⟨result, f', session'⟩ := outcome
  dsimp only at hstep ⊢
  rcases hsession : e.session with _ | session
  · rw [hsession] at hstep
    cases hstep with
    | inactive => exact ⟨e, .quiet, hsession, hwire, rfl, rfl, hf, .refl f⟩
  rw [hsession] at hstep
  cases hstep with
  | tooLarge hlarge =>
      refine ⟨e, .quiet, hsession, hwire, rfl, ?_, hf, .refl f⟩
      have hseal : (session.seal (maxMessageSize cobs maxFrameSize) sealing msg) =
          (.error (.packetTooLarge (sealing.encodedLen msg)), session) := by
        rw [Session.seal]
        exact if_pos hlarge
      rw [History.noteSeal, hseal]
      cases sealing.encode msg <;> rfl
  | unencodable hencode =>
      refine ⟨e, .quiet, hsession, hwire, rfl, ?_, hf, .refl f⟩
      rw [History.noteSeal, hencode]
  | @unsealed _ payload err sender hfits hencode hseal =>
      refine ⟨_, .out List.prefix_rfl (le_refl _), rfl, hwire, rfl, ?_, hf, .refl f⟩
      change _ ≤ maxMessageSize cobs maxFrameSize at hfits
      rw [History.noteSeal, session.seal_eq hfits hencode, hencode, hseal]
      rfl
  | @lost _ payload packet sender err framing hfits hencode hseal hsend =>
      obtain ⟨hgrow, hwf, hsame⟩ := Framing.sendPacket_wire hcobs hf hsend
      refine ⟨_, .lost hsession hseal (hwire ▸ hgrow), rfl, rfl, rfl, ?_, hwf, hsame⟩
      change _ ≤ maxMessageSize cobs maxFrameSize at hfits
      rw [History.noteSeal, session.seal_eq hfits hencode, hencode, hseal]
      rfl
  | @sent _ payload packet sender framing hfits hencode hseal hsend =>
      obtain ⟨frame, hframe, hsent, hwf, hsame⟩ := Framing.sendPacket_ok hcobs hf hsend
      refine ⟨_, .sent hsession hseal hframe, rfl, by rw [hsent, hwire], rfl, ?_, hwf, hsame⟩
      change _ ≤ maxMessageSize cobs maxFrameSize at hfits
      rw [History.noteSeal, session.seal_eq hfits hencode, hencode, hseal]
      rfl

/-- A run of an endpoint. -/
inductive Run (cobs : Cobs) (maxFrameSize : Nat) (role : Role c) (codec : Codec (List UInt8) Msg) :
    Endpoint c Msg → Endpoint c Msg → Prop
  | refl {e : Endpoint c Msg} : Run cobs maxFrameSize role codec e e
  | tail {e e' e'' : Endpoint c Msg} : Run cobs maxFrameSize role codec e e' →
      e'.Step cobs maxFrameSize role codec e'' → Run cobs maxFrameSize role codec e e''

theorem Run.head (hstep : e.Step cobs maxFrameSize role codec e') {e'' : Endpoint c Msg}
    (hrun : Run cobs maxFrameSize role codec e' e'') : Run cobs maxFrameSize role codec e e'' := by
  induction hrun with
  | refl => exact .tail .refl hstep
  | tail _ hlast ih => exact .tail ih hlast

theorem Inv.run (h : Inv cobs maxFrameSize hpke role codec e) (hrun : Run cobs maxFrameSize role codec e e') :
    Inv cobs maxFrameSize hpke role codec e' := by
  induction hrun with
  | refl => exact h
  | tail _ hstep ih => exact ih.step hstep

/-- Out of a session a step only adds an epoch, by a handshake that succeeds; within one it changes the newest epoch. -/
theorem Step.epochs (hstep : e.Step cobs maxFrameSize role codec e') :
    (e.session = none → (e'.session = none ∧ e'.history.epochs = e.history.epochs) ∨
      ∃ epoch, e'.history.epochs = epoch :: e.history.epochs) ∧
    e.history.epochs.tail <:+ e'.history.epochs.tail := by
  cases hstep with
  | quiet => exact ⟨fun hnone => Or.inl ⟨hnone, rfl⟩, List.suffix_rfl⟩
  | out => exact ⟨fun _ => Or.inl ⟨rfl, rfl⟩, List.suffix_rfl⟩
  | opened hsome =>
      refine ⟨fun hnone => absurd (hsome.symm.trans hnone) (by simp), ?_⟩
      rw [History.noteResult, if_pos (reports_deliver _), History.inEpoch]
      cases e.history.epochs <;> exact List.suffix_rfl
  | sent hsome =>
      refine ⟨fun hnone => absurd (hsome.symm.trans hnone) (by simp), ?_⟩
      rw [History.inEpoch]
      cases e.history.epochs <;> exact List.suffix_rfl
  | lost hsome =>
      refine ⟨fun hnone => absurd (hsome.symm.trans hnone) (by simp), ?_⟩
      rw [History.inEpoch]
      cases e.history.epochs <;> exact List.suffix_rfl
  | established => exact ⟨fun _ => Or.inr ⟨_, rfl⟩, List.tail_suffix _⟩

theorem Step.epochs_length (hstep : e.Step cobs maxFrameSize role codec e') :
    e.history.epochs.length ≤ e'.history.epochs.length := by
  cases hstep with
  | quiet => exact le_refl _
  | out => exact le_refl _
  | opened => simp [History.noteResult, reports_deliver, History.inEpoch]
  | sent => simp [History.inEpoch]
  | lost => simp [History.inEpoch]
  | established => exact Nat.le_succ _

/-- Once an endpoint is out of its session it stays out with its history as it is, until a handshake adds an epoch. -/
theorem Run.epochs_after (hrun : Run cobs maxFrameSize role codec e e') (hnone : e.session = none) :
    (e'.session = none ∧ e'.history.epochs = e.history.epochs) ∨
      ∃ epoch later, e'.history.epochs = epoch :: later ∧ e.history.epochs <:+ later := by
  induction hrun with
  | refl => exact Or.inl ⟨hnone, rfl⟩
  | tail _ hstep ih =>
      rcases ih with ⟨hout, hsame⟩ | ⟨epoch, later, hcons, hsuffix⟩
      · rcases hstep.epochs.1 hout with ⟨hstay, hsame'⟩ | ⟨epoch, hcons⟩
        · exact Or.inl ⟨hstay, hsame'.trans hsame⟩
        · exact Or.inr ⟨epoch, _, hcons, hsame ▸ List.suffix_rfl⟩
      · have htail := hstep.epochs.2
        rw [hcons, List.tail_cons] at htail
        refine Or.inr ?_
        rename_i e'' _
        rcases hepochs : e''.history.epochs with _ | ⟨epoch', later'⟩
        · have hgrow := hstep.epochs_length
          rw [hcons, hepochs] at hgrow
          exact absurd hgrow (by simp)
        · rw [hepochs, List.tail_cons] at htail
          exact ⟨epoch', later', rfl, hsuffix.trans htail⟩

theorem Run.epochs_final (hrun : Run cobs maxFrameSize role codec e e') (hnone : e.session = none) :
    e.history.epochs <:+ e'.history.epochs := by
  rcases hrun.epochs_after hnone with ⟨_, hsame⟩ | ⟨epoch, later, hcons, hsuffix⟩
  · exact hsame ▸ List.suffix_rfl
  · rw [hcons]
    exact hsuffix.trans (List.suffix_cons _ _)

end Endpoint

end DarkbioWire
