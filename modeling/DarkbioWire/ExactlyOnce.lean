import DarkbioWire.Lossless
import DarkbioWire.Reference.Codec
import DarkbioWire.Reference.Crypto

/-!
# What the calls return on a lossless link

The results of the `next_message` calls of a run, against what the other side sealed in it. In a session on a lossless link
a call only returns what it opens, so the results are the reported ones the histories keep.
-/

namespace DarkbioWire

variable {c : Crypto (List UInt8)} {proto : Protocol (List UInt8)} {A Info : Type} [Attester c A] {cobs : Cobs}
  {maxFrameSize : Nat}

/-! ### Results -/

namespace History

variable {Msg : Type} (history : History c Msg)

theorem noteOpen_delivered (session : Option (Session c)) (packet : Except Error (Option (List UInt8))) :
    (history.noteOpen session packet).delivered = history.delivered := by
  unfold noteOpen
  split
  · split <;> rfl
  · rfl

theorem noteSession_delivered (before after : Option (Session c)) (wire : List UInt8) :
    (history.noteSession before after wire).delivered = history.delivered := by
  unfold noteSession
  split <;> rfl

theorem noteSeal_delivered {M : Type} (limit : Nat) (codec : Codec (List UInt8) M) (session : Option (Session c)) (msg : M) :
    (history.noteSeal limit codec session msg).delivered = history.delivered := by
  unfold noteSeal
  split
  · rfl
  · split <;> rfl

theorem noteResult_delivered (result : Except Error Msg) :
    (history.noteResult result).delivered = history.delivered ++ [result].filter reports := by
  rw [noteResult]
  cases hreports : reports result <;> simp [hreports]

end History

namespace ArkProc

variable {coins : Nat → Coins c} {p : ArkProc c proto A cobs maxFrameSize}

/-- What a poll returns to the caller of `next_message`. -/
def returned (coins : Nat → Coins c) (p : ArkProc c proto A cobs maxFrameSize) : List (Except Error proto.HostToArk) :=
  match p.call with
  | none => []
  | some (point, discard) => (p.poll coins point discard).1.toList

theorem poll_returned (coins : Nat → Coins c) :
    (p.step coins .poll).history.delivered = p.history.delivered ++ (p.returned coins).filter reports ∧
      (p.returned coins ≠ [] → p.call ≠ none ∧ (p.step coins .poll).call = none) := by
  rw [returned]
  rcases hcall : p.call with _ | ⟨point, discard⟩
  · rw [step, hcall]
    simp
  rw [step_poll hcall]
  dsimp only
  by_cases hready : ∃ packet, Framing.packetOf (p.side.framing.nextPacketLoop discard) = .ready packet
  · obtain ⟨packet, hpacket⟩ := hready
    obtain ⟨flow, side', _, hsettle⟩ := poll_ready coins p point hpacket
    have hopen : (noteOpen p.history p.side.session point packet).delivered = p.history.delivered := by
      cases point with
      | packet => exact History.noteOpen_delivered p.history p.side.session packet
      | handshake _ => rfl
    rw [hsettle]
    cases flow with
    | wait place =>
        refine ⟨?_, by simp [settle]⟩
        rw [settle]
        dsimp only
        rw [Option.toList_none, List.filter_nil, List.append_nil, History.noteSession_delivered, hopen]
    | done result =>
        refine ⟨?_, by simp [settle]⟩
        rw [settle]
        dsimp only
        rw [Option.toList_some, History.noteResult_delivered, hopen]
  · obtain ⟨hnone, hhistory, _⟩ := poll_waits coins p point fun packet hpacket => hready ⟨packet, hpacket⟩
    rw [hnone, hhistory]
    simp

theorem step_delivered {action : ArkAction proto} (hpoll : action ≠ .poll) :
    (p.step coins action).history.delivered = p.history.delivered := by
  cases action with
  | poll => exact absurd rfl hpoll
  | arrive _ => rfl
  | plan _ => rfl
  | nextMessage =>
      rw [step]
      cases p.call <;> rfl
  | sendMessage res =>
      rw [step]
      rcases p.call with _ | _
      · exact History.noteSeal_delivered _ _ _ _ _
      · rfl

end ArkProc

namespace HostProc

variable {coins : Nat → Coins c} {p : HostProc c proto Info cobs maxFrameSize}

/-- What a poll returns to the caller of `next_message`. -/
def returned (coins : Nat → Coins c) (p : HostProc c proto Info cobs maxFrameSize) : List (Except Error proto.ArkToHost) :=
  match p.call with
  | none => []
  | some (call, discard) =>
    match (p.poll coins call discard).1 with
    | some (.nextMessage result) => [result]
    | _ => []

omit [Attester c A] in
theorem poll_returned (coins : Nat → Coins c) :
    (p.step coins .poll).history.delivered = p.history.delivered ++ (p.returned coins).filter reports ∧
      (p.returned coins ≠ [] → p.call ≠ none ∧ (p.step coins .poll).call = none) := by
  rw [returned]
  rcases hcall : p.call with _ | ⟨call, discard⟩
  · rw [step, hcall]
    simp
  rw [step_poll hcall]
  dsimp only
  by_cases hready : ∃ packet, Framing.packetOf (p.side.framing.nextPacketLoop discard) = .ready packet
  · obtain ⟨packet, hpacket⟩ := hready
    cases call with
    | handshake wait =>
        obtain ⟨flow, side', _, hsettle⟩ := poll_handshake coins p wait hpacket
        rw [hsettle]
        cases flow with
        | wait _ => simp [settleHandshake]
        | done _ => simp [settleHandshake, History.noteSession_delivered]
    | nextMessage =>
        obtain ⟨result, side', _, hsettle⟩ := poll_message coins p hpacket
        rw [hsettle]
        refine ⟨?_, by simp [settleMessage]⟩
        simp only [settleMessage]
        rw [History.noteResult_delivered, History.noteOpen_delivered]
  · obtain ⟨hnone, hhistory, _⟩ := poll_waits coins p call fun packet hpacket => hready ⟨packet, hpacket⟩
    rw [hnone, hhistory]
    simp

omit [Attester c A] in
theorem step_delivered {action : HostAction c proto Info} (hpoll : action ≠ .poll) :
    (p.step coins action).history.delivered = p.history.delivered := by
  cases action with
  | poll => exact absurd rfl hpoll
  | arrive _ => rfl
  | plan _ => rfl
  | handshake verifier =>
      rw [step]
      rcases p.call with _ | _
      · dsimp only
        rcases p.side.handshakeStart (coins p.side.draws) verifier with ⟨_ | _, _⟩ <;> rfl
      · rfl
  | nextMessage =>
      rw [step]
      cases p.call <;> rfl
  | sendMessage res =>
      rw [step]
      rcases p.call with _ | _
      · exact History.noteSeal_delivered _ _ _ _ _
      · rfl

end HostProc

namespace Link

variable {arkCoins hostCoins : Nat → Coins c} {hpke : Contexts c} {l l' : Link c proto A Info cobs maxFrameSize}
  {arkQueue hostQueue arkQueue' hostQueue' : List (Option (List UInt8))}

/-- What an action returns to the caller of the Ark's `next_message`. -/
def arkResult (arkCoins : Nat → Coins c) (l : Link c proto A Info cobs maxFrameSize) :
    LinkAction c proto Info → List (Except Error proto.HostToArk)
  | .arkPoll => l.ark.returned arkCoins
  | _ => []

/-- What an action returns to the caller of the host's `next_message`. -/
def hostResult (hostCoins : Nat → Coins c) (l : Link c proto A Info cobs maxFrameSize) :
    LinkAction c proto Info → List (Except Error proto.ArkToHost)
  | .hostPoll => l.host.returned hostCoins
  | _ => []

/-- The results of the Ark's `next_message` calls in a run. -/
def arkResults (arkCoins hostCoins : Nat → Coins c) (l : Link c proto A Info cobs maxFrameSize) :
    List (LinkAction c proto Info) → List (Except Error proto.HostToArk)
  | [] => []
  | action :: actions =>
    l.arkResult arkCoins action ++ (l.step arkCoins hostCoins action).arkResults arkCoins hostCoins actions

/-- The results of the host's `next_message` calls in a run. -/
def hostResults (arkCoins hostCoins : Nat → Coins c) (l : Link c proto A Info cobs maxFrameSize) :
    List (LinkAction c proto Info) → List (Except Error proto.ArkToHost)
  | [] => []
  | action :: actions =>
    l.hostResult hostCoins action ++ (l.step arkCoins hostCoins action).hostResults arkCoins hostCoins actions

/-- Whether the host's `handshake` returns `Ok` when it is polled. -/
def establishes (hostCoins : Nat → Coins c) (l : Link c proto A Info cobs maxFrameSize) : Bool :=
  match l.host.call with
  | none => false
  | some (call, discard) =>
    match (l.host.poll hostCoins call discard).1 with
    | some (.handshake (.ok _)) => true
    | _ => false

omit [Attester c A] in
theorem establishes_ok (h : l.establishes hostCoins = true) :
    ∃ call discard info, l.host.call = some (call, discard) ∧
      (l.host.poll hostCoins call discard).1 = some (.handshake (.ok info)) := by
  unfold establishes at h
  split at h
  · cases h
  · split at h
    · exact ⟨_, _, _, ‹_›, ‹_›⟩
    · cases h

theorem Moved.ark_over (h : Moved arkCoins hostCoins l l' arkQueue hostQueue arkQueue' hostQueue')
    (hover : l'.ark.call = none) : l.ark.call = none ∨ l'.ark.history.delivered ≠ l.ark.history.delivered := by
  have hplace : l'.ark.call.map Prod.fst = none := by rw [hover]; rfl
  cases h with
  | ark hpoint hleft _ =>
      rw [hleft.point] at hplace
      subst hplace
      rcases hpoint with hsame | ⟨_, hpacket⟩
      · exact Or.inl (Option.map_eq_none_iff.mp hsame)
      · cases hpacket
  | arkPolled _ hpolled _ =>
      cases hpolled with
      | opened _ _ hleft => exact Or.inr (by rw [hleft.history, delivered_opened]; simp)
      | toHello hleft => exact absurd (hleft.point.symm.trans hplace) (by simp)
      | dropped _ hleft => exact absurd (hleft.point.symm.trans hplace) (by simp)
      | answered _ hleft => exact absurd (hleft.point.symm.trans hplace) (by simp)
      | accepted _ _ hleft => exact absurd (hleft.point.symm.trans hplace) (by simp)
  | arkSent hcall _ _ _ _ => exact Or.inl hcall
  | host _ _ _ hark => exact Or.inl (hark ▸ hover)
  | hostPolled _ _ hark => exact Or.inl (hark ▸ hover)
  | hostSent _ _ _ _ _ hark => exact Or.inl (hark ▸ hover)

theorem filter_reports {Msg : Type} {results : List (Except Error Msg)} {delivered delivered' : List (Except Error Msg)}
    (hlength : results.length ≤ 1) (hdelivered : delivered' = delivered ++ results.filter reports)
    (hreported : results ≠ [] → delivered' ≠ delivered) : delivered' = delivered ++ results := by
  rcases results with _ | ⟨result, _ | _⟩
  · exact hdelivered
  · cases hreports : reports result
    · exact absurd (by simp [hdelivered, hreports]) (hreported (by simp))
    · simp [hdelivered, hreports]
  · simp at hlength

variable {action : LinkAction c proto Info} {start : Link c proto A Info cobs maxFrameSize} {joined : Bool} {bound : Nat}

theorem Moved.ark_reported
    (h : Moved arkCoins hostCoins l (l.step arkCoins hostCoins action) arkQueue hostQueue arkQueue' hostQueue') :
    (l.step arkCoins hostCoins action).ark.history.delivered =
      l.ark.history.delivered ++ l.arkResult arkCoins action := by
  cases action with
  | arkPoll =>
      obtain ⟨hdelivered, hover⟩ := l.ark.poll_returned arkCoins
      refine filter_reports ?_ hdelivered fun hreturned => ?_
      · rw [arkResult, ArkProc.returned]
        split
        · simp
        · exact Option.length_toList_le
      · exact (h.ark_over (hover hreturned).2).resolve_left (hover hreturned).1
  | arkNextMessage => exact (ArkProc.step_delivered (by simp)).trans (List.append_nil _).symm
  | arkSendMessage res => exact (ArkProc.step_delivered (by simp)).trans (List.append_nil _).symm
  | carryToArk count => exact (ArkProc.step_delivered (by simp)).trans (List.append_nil _).symm
  | _ => exact (List.append_nil _).symm

theorem Synced.host_reported (hfaithful : hpke.Faithful) (hholds : Holds hpke arkCoins hostCoins l arkQueue hostQueue)
    (h : Synced hpke start l joined arkQueue hostQueue)
    (hmoved : Moved arkCoins hostCoins l (l.step arkCoins hostCoins action) arkQueue hostQueue arkQueue' hostQueue') :
    (l.step arkCoins hostCoins action).host.history.delivered =
      l.host.history.delivered ++ l.hostResult hostCoins action := by
  cases action with
  | hostPoll =>
      obtain ⟨hdelivered, hover⟩ := l.host.poll_returned hostCoins
      refine filter_reports ?_ hdelivered fun hreturned => ?_
      · rw [hostResult, HostProc.returned]
        split
        · simp
        · split <;> simp
      · exact ((h.moved hfaithful hholds hmoved).2 (hover hreturned).2).resolve_left (hover hreturned).1
  | hostHandshake _ => exact (HostProc.step_delivered (by simp)).trans (List.append_nil _).symm
  | hostNextMessage => exact (HostProc.step_delivered (by simp)).trans (List.append_nil _).symm
  | hostSendMessage _ => exact (HostProc.step_delivered (by simp)).trans (List.append_nil _).symm
  | carryToHost count => exact (HostProc.step_delivered (by simp)).trans (List.append_nil _).symm
  | _ => exact (List.append_nil _).symm

/-! ### Runs -/

theorem run_append (l : Link c proto A Info cobs maxFrameSize) (actions actions' : List (LinkAction c proto Info)) :
    l.run arkCoins hostCoins (actions ++ actions') = (l.run arkCoins hostCoins actions).run arkCoins hostCoins actions' :=
  List.foldl_append

theorem step_draws (arkCoins hostCoins : Nat → Coins c) (l : Link c proto A Info cobs maxFrameSize)
    (action : LinkAction c proto Info) :
    l.host.side.draws ≤ (l.step arkCoins hostCoins action).host.side.draws := by
  cases action with
  | hostHandshake verifier => exact HostProc.step_draws hostCoins l.host _
  | hostNextMessage => exact HostProc.step_draws hostCoins l.host _
  | hostPoll => exact HostProc.step_draws hostCoins l.host _
  | hostSendMessage req => exact HostProc.step_draws hostCoins l.host _
  | carryToHost bytes => exact HostProc.step_draws hostCoins l.host _
  | _ => exact le_refl _

theorem run_draws (arkCoins hostCoins : Nat → Coins c) (l : Link c proto A Info cobs maxFrameSize)
    (actions : List (LinkAction c proto Info)) :
    l.host.side.draws ≤ (l.run arkCoins hostCoins actions).host.side.draws := by
  induction actions generalizing l with
  | nil => exact le_refl _
  | cons action actions ih => exact le_trans (l.step_draws arkCoins hostCoins action) (ih _)

/-- What a run keeps: the queues in front of the sides, what they cannot hold yet, and where the link is. -/
def Going (hpke : Contexts c) (arkCoins hostCoins : Nat → Coins c) (bound : Nat)
    (l : Link c proto A Info cobs maxFrameSize) : Prop :=
  ∃ arkQueue hostQueue, Holds hpke arkCoins hostCoins l arkQueue hostQueue ∧
    Untold hostCoins bound l.host.side.draws arkQueue hostQueue ∧ Phase hpke hostCoins l arkQueue hostQueue

theorem new_going (signer : c.XdsaSecretKey) (attester : A) :
    Going hpke arkCoins hostCoins bound (new signer attester : Link c proto A Info cobs maxFrameSize) :=
  ⟨[], [], new_holds arkCoins hostCoins signer attester, ⟨by simp, by simp, by simp⟩, .apart rfl (Or.inl rfl)⟩

/-- What is assumed of the codecs and of the cryptography, for so many draws of the host. -/
structure Assumed (hpke : Contexts c) (proto : Protocol (List UInt8)) (cobs : Cobs) (maxFrameSize : Nat)
    (hostCoins : Nat → Coins c) (bound : Nat) : Prop where
  lawful : cobs.Lawful
  mono : ∀ {m n : Nat}, m ≤ n → cobs.encodeBuffer m ≤ cobs.encodeBuffer n
  fits : cobs.encodeBuffer SEAL_OVERHEAD ≤ maxFrameSize
  correct : c.Correct
  faithful : hpke.Faithful
  telling : Telling hostCoins bound
  arkToHost : proto.arkToHost.Sized
  hostToArk : proto.hostToArk.Sized

variable (hlink : Assumed hpke proto cobs maxFrameSize hostCoins bound)
include hlink

theorem Assumed.goes (hholds : Holds hpke arkCoins hostCoins l arkQueue hostQueue) (action : LinkAction c proto Info) :
    Goes hpke arkCoins hostCoins l arkQueue hostQueue action :=
  hholds.goes hlink.lawful (hlink.faithful.sealable hlink.lawful hlink.mono hlink.fits hlink.arkToHost)
    (hlink.faithful.sealable hlink.lawful hlink.mono hlink.fits hlink.hostToArk) action

theorem Going.step (h : Going hpke arkCoins hostCoins bound l) (action : LinkAction c proto Info)
    (hbound : (l.step arkCoins hostCoins action).host.side.draws ≤ bound) :
    Going hpke arkCoins hostCoins bound (l.step arkCoins hostCoins action) := by
  obtain ⟨arkQueue, hostQueue, hholds, huntold, hphase⟩ := h
  obtain ⟨arkQueue', hostQueue', hmoved | ⟨_, rfl, hstarted⟩, hholds'⟩ :=
    hlink.goes hholds action
  · exact ⟨arkQueue', hostQueue', hholds', huntold.moved hlink.correct hlink.telling hmoved,
      hphase.moved hlink.correct hlink.faithful hlink.telling hholds huntold hmoved⟩
  · exact ⟨arkQueue', hostQueue', hholds', huntold.started hlink.correct hlink.telling hstarted,
      .started hlink.correct huntold hbound hstarted⟩

theorem Going.run (h : Going hpke arkCoins hostCoins bound l) (actions : List (LinkAction c proto Info))
    (hbound : (l.run arkCoins hostCoins actions).host.side.draws ≤ bound) :
    Going hpke arkCoins hostCoins bound (l.run arkCoins hostCoins actions) := by
  induction actions generalizing l with
  | nil => exact h
  | cons action actions ih =>
      have hstep := run_draws arkCoins hostCoins (l.step arkCoins hostCoins action) actions
      exact ih (h.step hlink action (le_trans hstep hbound)) hbound

/-- The poll in which `handshake` returns `Ok` brings the link into a session. -/
theorem Going.established (h : Going hpke arkCoins hostCoins bound l) (hok : l.establishes hostCoins = true) :
    ∃ arkQueue hostQueue,
      Holds hpke arkCoins hostCoins (l.step arkCoins hostCoins .hostPoll) arkQueue hostQueue ∧
        Synced hpke (l.step arkCoins hostCoins .hostPoll) (l.step arkCoins hostCoins .hostPoll) false arkQueue hostQueue := by
  obtain ⟨arkQueue, hostQueue, hholds, huntold, hphase⟩ := h
  obtain ⟨call, discard, info, hcall, hreturned⟩ := establishes_ok hok
  obtain ⟨wait, rfl, hover, hsession⟩ := HostProc.poll_ok hreturned
  have hwait : l.host.call.map Prod.fst = some (.handshake wait) := by rw [hcall]; rfl
  have hhost : (l.step arkCoins hostCoins .hostPoll).host = (l.host.poll hostCoins (.handshake wait) discard).2 := by
    exact HostProc.step_poll hcall
  rw [← hhost] at hover hsession
  obtain ⟨arkQueue', hostQueue', hmoved | ⟨⟨_, hother⟩, _⟩, hholds'⟩ :=
    hlink.goes hholds .hostPoll
  swap
  · cases hother
  refine ⟨arkQueue', hostQueue', hholds', ?_⟩
  generalize l.step arkCoins hostCoins .hostPoll = l' at *
  have hplace : l'.host.call.map Prod.fst = none := by rw [hover]; rfl
  cases hmoved with
  | ark _ _ hsame => rw [hsame, hcall] at hover; cases hover
  | arkPolled _ _ hsame => rw [hsame, hcall] at hover; cases hover
  | arkSent _ _ _ _ hsame => rw [hsame, hcall] at hover; cases hover
  | hostSent hnone => rw [hcall] at hnone; cases hnone
  | host hpoint hleft =>
      rw [hleft.call] at hplace
      subst hplace
      rcases hpoint with hnone | ⟨_, hnext⟩
      · rw [hwait] at hnone
        cases hnone
      · cases hnext
  | hostPolled hpoint hpolled hark =>
      obtain rfl := Option.some.inj (hwait.symm.trans hpoint)
      obtain ⟨packet, rfl⟩ := huntold.packets _ List.mem_cons_self
      cases hphase with
      | apart _ hapart => rcases hapart with h | h <;> rw [hwait] at h <;> cases h
      | synced hsynced => rcases hsynced.call with h | h <;> rw [hwait] at h <;> cases h
      | awaiting hwait' hkey hdecode hawaiting =>
          obtain rfl : _ = wait := by
            injection Option.some.inj (hwait'.symm.trans hwait)
          rcases hawaiting.hostPolled hlink.correct hkey hark hpolled with
            ⟨_, hcall', _⟩ | ⟨hnone, _⟩ | ⟨_, hsynced⟩
          · exact absurd (hplace.symm.trans hcall') (by simp)
          · exact absurd hnone hsession
          · exact hsynced

/-- A run without a new handshake stays in the session, and its results are what the sides deliver in it. -/
theorem Synced.run {start : Link c proto A Info cobs maxFrameSize} {joined : Bool}
    (hholds : Holds hpke arkCoins hostCoins l arkQueue hostQueue) (h : Synced hpke start l joined arkQueue hostQueue)
    {actions : List (LinkAction c proto Info)} (hactions : ∀ verifier, .hostHandshake verifier ∉ actions) :
    let last := l.run arkCoins hostCoins actions
    ∃ joined' arkQueue' hostQueue', (joined = true → joined' = true) ∧
      Holds hpke arkCoins hostCoins last arkQueue' hostQueue' ∧ Synced hpke start last joined' arkQueue' hostQueue' ∧
      last.ark.history.delivered = l.ark.history.delivered ++ l.arkResults arkCoins hostCoins actions ∧
      last.host.history.delivered = l.host.history.delivered ++ l.hostResults arkCoins hostCoins actions := by
  induction actions generalizing l joined arkQueue hostQueue with
  | nil =>
      exact ⟨joined, arkQueue, hostQueue, id, hholds, h, (List.append_nil _).symm, (List.append_nil _).symm⟩
  | cons action actions ih =>
      obtain ⟨arkQueue₁, hostQueue₁, hmoved | ⟨⟨verifier, rfl⟩, _⟩, hholds₁⟩ :=
        hlink.goes hholds action
      swap
      · exact absurd List.mem_cons_self (hactions verifier)
      obtain ⟨⟨joined₁, hjoined₁, hsynced₁⟩, _⟩ := h.moved hlink.faithful hholds hmoved
      obtain ⟨joined', arkQueue', hostQueue', hjoined', hholds', hsynced', hark, hhost⟩ :=
        ih hholds₁ hsynced₁ fun verifier hmem => hactions verifier (List.mem_cons_of_mem _ hmem)
      refine ⟨joined', arkQueue', hostQueue', fun hjoined => hjoined' (hjoined₁ hjoined), hholds', hsynced', ?_, ?_⟩
      · refine hark.trans ?_
        rw [hmoved.ark_reported, arkResults, List.append_assoc]
      · refine hhost.trans ?_
        rw [h.host_reported hlink.faithful hholds hmoved, hostResults, List.append_assoc]

omit hlink

/-- A side returned what was opened of what the other one sealed since a start, oldest first, and what is left of that is
still on its way. -/
def Delivers {Msg : Type} (codec : Codec (List UInt8) Msg) (results : List (Except Error Msg)) (start last : List (Epoch c))
    (f : Framing cobs maxFrameSize) (coming : List UInt8) : Prop :=
  ∃ opened pending, results = opened.map codec.deliver ∧
    sealedPayloads last = sealedPayloads start ++ (opened ++ pending) ∧ (coming = [] → 0 ∉ f.unread → pending = [])

omit [Attester c A] in
theorem Way.delivers {Msg : Type} {codec : Codec (List UInt8) Msg} {sender : c.Sender} {receiver : c.Receiver}
    {flying : List (List UInt8 × List UInt8)} {delivered delivered' results : List (Except Error Msg)}
    {start last : List (Epoch c)} (h : Way hpke codec sender receiver flying delivered delivered' (sealedPayloads start)
      (sealedPayloads last)) (hresults : delivered' = delivered ++ results) {f : Framing cobs maxFrameSize} {discard : Nat}
    {coming : List UInt8} {queue : List (Option (List UInt8))} (hqueue : f.Queue discard coming queue)
    (hflying : queue = [] → flying = []) : Delivers codec results start last f coming := by
  obtain ⟨opened, hdelivered, hsealed⟩ := h.ledger
  refine ⟨opened, flying.map Prod.fst, List.append_cancel_left (hresults.symm.trans hdelivered), hsealed, ?_⟩
  rintro rfl hunread
  rw [hflying (hqueue.drained hunread), List.map_nil]

omit [Attester c A] in
theorem Synced.ark_session {joined : Bool} (hholds : Holds hpke arkCoins hostCoins l arkQueue hostQueue)
    (h : Synced hpke start l joined arkQueue hostQueue) :
    (joined = true ↔ l.ark.side.session ≠ none) ∧
      (joined = false → ∃ wait, l.ark.call.map Prod.fst = some (.handshake (.ack wait))) := by
  obtain ⟨_, _, _, _, _, hjoins, _⟩ := h.ends
  obtain ⟨e, _, habstracts⟩ := hholds.ark
  cases hjoins with
  | joined _ hsession _ => simp [hsession]
  | @joining wait _ _ hwait _ _ =>
      obtain ⟨⟨place, discard⟩, hcall, rfl⟩ := Option.map_eq_some_iff.mp hwait
      simp [habstracts.inside _ _ hcall, hwait]

/-- A run from a start leaves both sides in the session, the Ark once it took the HostAck, and each returned what the other
sealed, once and in order. -/
structure ExactlyOnce (arkCoins hostCoins : Nat → Coins c) (start : Link c proto A Info cobs maxFrameSize)
    (actions : List (LinkAction c proto Info)) : Prop where
  host : (start.run arkCoins hostCoins actions).host.side.session ≠ none
  ark : (start.run arkCoins hostCoins actions).ark.side.session = none →
    ∃ wait, (start.run arkCoins hostCoins actions).ark.call.map Prod.fst = some (.handshake (.ack wait))
  keeps : ∀ earlier later, actions = earlier ++ later → (start.run arkCoins hostCoins earlier).ark.side.session ≠ none →
    (start.run arkCoins hostCoins actions).ark.side.session ≠ none
  toArk : Delivers proto.hostToArk (start.arkResults arkCoins hostCoins actions) start.host.history.epochs
    (start.run arkCoins hostCoins actions).host.history.epochs (start.run arkCoins hostCoins actions).ark.side.framing
    (start.run arkCoins hostCoins actions).comingToArk
  toHost : Delivers proto.arkToHost (start.hostResults arkCoins hostCoins actions) start.ark.history.epochs
    (start.run arkCoins hostCoins actions).ark.history.epochs (start.run arkCoins hostCoins actions).host.side.framing
    (start.run arkCoins hostCoins actions).comingToHost

include hlink

theorem Synced.keeps (hholds : Holds hpke arkCoins hostCoins l arkQueue hostQueue)
    (h : Synced hpke start l joined arkQueue hostQueue) {actions : List (LinkAction c proto Info)}
    (hactions : ∀ verifier, .hostHandshake verifier ∉ actions) (hsession : l.ark.side.session ≠ none) :
    (l.run arkCoins hostCoins actions).ark.side.session ≠ none := by
  obtain rfl := (h.ark_session hholds).1.mpr hsession
  obtain ⟨joined', _, _, hjoined, hholds', hsynced', _⟩ := h.run hlink hholds hactions
  exact (hsynced'.ark_session hholds').1.mp (hjoined rfl)

theorem Synced.exactlyOnce (hholds : Holds hpke arkCoins hostCoins start arkQueue hostQueue)
    (h : Synced hpke start start joined arkQueue hostQueue) {actions : List (LinkAction c proto Info)}
    (hactions : ∀ verifier, .hostHandshake verifier ∉ actions) : ExactlyOnce arkCoins hostCoins start actions := by
  obtain ⟨joined', arkQueue', hostQueue', _, hholds', hsynced', hark, hhost⟩ := h.run hlink hholds hactions
  obtain ⟨hostSession, arkSession, toArk, toHost, hsession, hjoins, hhostQueue, hway, hback⟩ := hsynced'.ends
  obtain ⟨hjoined, hwaits⟩ := hsynced'.ark_session hholds'
  constructor
  case host => rw [hsession]; simp
  case ark =>
    intro hnone
    refine hwaits ?_
    by_contra hne
    exact hjoined.mp (by simpa using hne) hnone
  case keeps =>
    intro earlier later hsplit hearlier
    rw [hsplit] at hactions ⊢
    obtain ⟨joined₁, _, _, _, hholds₁, hsynced₁, _⟩ :=
      h.run hlink hholds fun verifier hmem => hactions verifier (List.mem_append_left later hmem)
    rw [run_append]
    exact hsynced₁.keeps hlink hholds₁ (fun verifier hmem => hactions verifier (List.mem_append_right earlier hmem)) hearlier
  case toArk =>
    refine hway.delivers hark hholds'.arkQueue fun hempty => ?_
    cases hjoins with
    | joining _ _ hqueue => exact absurd (hqueue.symm.trans hempty) (by simp)
    | joined _ _ hqueue => exact List.map_eq_nil_iff.mp (hqueue.symm.trans hempty)
  case toHost =>
    exact hback.delivers hhost hholds'.hostQueue fun hempty => List.map_eq_nil_iff.mp (hhostQueue.symm.trans hempty)

/-- Once a `handshake` of the host returned `Ok`, no run without a new one drops the session on either side, and both sides
return exactly what the other one sealed, once and in order. -/
theorem exactly_once (signer : c.XdsaSecretKey) (attester : A) (earlier later : List (LinkAction c proto Info))
    {l : Link c proto A Info cobs maxFrameSize} (hl : l = (new signer attester).run arkCoins hostCoins earlier)
    (hbound : l.host.side.draws ≤ bound) (hok : l.establishes hostCoins = true)
    (hlater : ∀ verifier, .hostHandshake verifier ∉ later) :
    ExactlyOnce arkCoins hostCoins (l.step arkCoins hostCoins .hostPoll) later := by
  have hgoing : Going hpke arkCoins hostCoins bound l := by
    rw [hl] at hbound ⊢
    exact (new_going signer attester).run hlink earlier hbound
  obtain ⟨arkQueue, hostQueue, hholds, hsynced⟩ := hgoing.established hlink hok
  exact hsynced.exactlyOnce hlink hholds hlater

omit hlink

/-! ### A link that is run -/

open Reference

theorem reference_faithful : contexts.Faithful where
  seal_ok _ _ := ⟨_, _, rfl⟩
  seal_length := by
    intro sender payload packet sender' h
    obtain ⟨hpacket, _⟩ := Prod.mk.inj h
    obtain rfl := Except.ok.inj hpacket
    exact Context.length_sealed _ _
  open_seal := by
    intro sender payload packet sender' receiver h hchannel hseq
    obtain ⟨hpacket, _⟩ := Prod.mk.inj h
    obtain rfl := Except.ok.inj hpacket
    obtain ⟨hkey, hrest⟩ := Prod.mk.inj hchannel
    obtain ⟨hencap, hinfo⟩ := Prod.mk.inj hrest
    obtain rfl : receiver = sender := by
      cases receiver
      cases sender
      exact Context.mk.injEq .. ▸ ⟨hkey, hencap, hinfo, hseq⟩
    exact ⟨_, Context.open_seal _ _⟩

theorem reference_telling (bound : Nat) : Telling coins bound where
  print_inj := by
    intro m n _ _ h
    have hkey : 3 * m + 1 = 3 * n + 1 := h
    omega
  sealed_names := by
    intro sender payload packet sender' n h hnames
    obtain ⟨hpacket, _⟩ := Prod.mk.inj h
    obtain rfl := Except.ok.inj hpacket
    cases hnames
  sealed_greets := by
    rintro sender payload packet sender' n h ⟨hello, hdecode, _⟩
    obtain ⟨hpacket, _⟩ := Prod.mk.inj h
    obtain rfl := Except.ok.inj hpacket
    cases hdecode
  envelope_greets := by
    rintro payload aad signer key domain seed packet n h ⟨hello, hdecode, _⟩
    obtain rfl := Except.ok.inj h
    cases hdecode

theorem reference_assumed (bound : Nat) : Assumed contexts protocol Cobs.stuffing 512 coins bound where
  lawful := Cobs.stuffing_lawful
  mono := by
    intro m n h
    change m + (m + 253) / 254 + 1 ≤ n + (n + 253) / 254 + 1
    omega
  fits := by decide
  correct := crypto_correct
  faithful := reference_faithful
  telling := reference_telling bound
  arkToHost := by
    intro msg payload h
    exact congrArg List.length (Except.ok.inj h).symm
  hostToArk := by
    intro msg payload h
    exact congrArg List.length (Except.ok.inj h).symm

/-- A session, a message of it that the Ark answers, and a new handshake while the answer is unread. -/
def referenceStart : Link crypto protocol (Attestation crypto) (Attestation crypto) Cobs.stuffing 512 :=
  (new (7 : Nat) attestation).run coins coins
    [.hostHandshake (Verifier.pinned (7 : Nat)), .carryToArk 99, .arkNextMessage, .arkPoll, .arkPoll, .arkPoll, .carryToHost 99,
      .hostPoll, .hostSendMessage [5], .carryToArk 99, .arkPoll, .arkPoll, .arkSendMessage [6],
      .hostHandshake (Verifier.pinned (7 : Nat)), .carryToArk 99, .arkNextMessage, .arkPoll, .arkPoll, .arkPoll, .carryToHost 199,
      .hostPoll]

/-- Three messages to the Ark, the second of which does not decode, and one back. -/
def referenceActions : List (LinkAction crypto protocol (Attestation crypto)) :=
  [.hostSendMessage [1], .hostSendMessage [255], .carryToArk 199, .arkPoll, .arkPoll, .arkSendMessage [3], .arkNextMessage,
    .arkPoll, .hostSendMessage [2], .carryToArk 99, .arkNextMessage, .arkPoll, .carryToHost 99, .hostNextMessage, .hostPoll]

theorem exactly_once_reference :
    ExactlyOnce coins coins (referenceStart.step coins coins .hostPoll) referenceActions ∧
      ((referenceStart.step coins coins .hostPoll).arkResults coins coins referenceActions =
        [.ok [1], .error (.packetDecodingFailed "invalid tag"), .ok [2]]) :=
  ⟨exactly_once (reference_assumed _) (7 : Nat) attestation _ referenceActions rfl (le_refl _) (by decide +kernel)
    (by simp [referenceActions]), by decide +kernel⟩

end Link

end DarkbioWire
