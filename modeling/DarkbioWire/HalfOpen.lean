import DarkbioWire.Faulty

/-!
# Half-open sessions after a failed read

The locals of a handshake live in the `next_message` call of the Ark that runs it. A read that fails while the call waits
for the HostAck ends the call: the next one takes the HostAck for data outside a session, and the host stays in a session
the Ark never joins. Failed reads cost nothing anywhere else, so whether the Ark joins the session of a host whose
`handshake` returned `Ok` is told by where they fall.
-/

namespace DarkbioWire

open Framing Delimited

variable {c : Crypto (List UInt8)} {proto : Protocol (List UInt8)} {A Info : Type} [Attester c A] {cobs : Cobs}
  {maxFrameSize : Nat}

namespace Link

variable {arkCoins hostCoins : Nat → Coins c} {hpke : Contexts c} {l l' : Link c proto A Info cobs maxFrameSize}
  {arkQueue hostQueue arkQueue' hostQueue' : List (Option (List UInt8))} {action : FaultyAction c proto Info}
  {actions : List (FaultyAction c proto Info)} {bound : Nat}

/-! ### Runs -/

/-- Something holds of every action of a run and the link it happens to. -/
def Along (arkCoins hostCoins : Nat → Coins c)
    (P : Link c proto A Info cobs maxFrameSize → FaultyAction c proto Info → Prop)
    (l : Link c proto A Info cobs maxFrameSize) (actions : List (FaultyAction c proto Info)) : Prop :=
  ∀ before action after, actions = before ++ action :: after → P (l.faultyRun arkCoins hostCoins before) action

section

variable {P : Link c proto A Info cobs maxFrameSize → FaultyAction c proto Info → Prop}

theorem along_nil : Along arkCoins hostCoins P l [] := by
  intro before action after hsplit
  simp at hsplit

theorem along_cons :
    Along arkCoins hostCoins P l (action :: actions) ↔
      P l action ∧ Along arkCoins hostCoins P (l.faultyStep arkCoins hostCoins action) actions := by
  constructor
  · intro h
    refine ⟨h [] action actions rfl, fun before next after hsplit => ?_⟩
    rw [hsplit] at h
    exact h (action :: before) next after rfl
  · rintro ⟨hfirst, hrest⟩ before next after hsplit
    rcases before with _ | ⟨first, before⟩
    · obtain ⟨rfl, _⟩ := List.cons.inj hsplit
      exact hfirst
    · obtain ⟨rfl, rfl⟩ := List.cons.inj hsplit
      exact hrest before next after rfl

theorem along_append {actions' : List (FaultyAction c proto Info)} :
    Along arkCoins hostCoins P l (actions ++ actions') ↔
      Along arkCoins hostCoins P l actions ∧ Along arkCoins hostCoins P (l.faultyRun arkCoins hostCoins actions) actions' := by
  induction actions generalizing l with
  | nil =>
      rw [List.nil_append]
      exact ⟨fun h => ⟨along_nil, h⟩, fun h => h.2⟩
  | cons first actions ih =>
      rw [List.cons_append, along_cons, along_cons, ih, and_assoc]
      rfl

end

/-- Having taken the first `sent` bytes the host wrote, the Ark waits for a HostAck and comes to a failing read. -/
structure AckFails (sent : Nat) (l : Link c proto A Info cobs maxFrameSize) : Prop where
  taken : sent ≤ l.takenByArk
  waits : ∃ wait, l.ark.call.map Prod.fst = some (.handshake (.ack wait))
  fails : l.ReadFails

/-- A poll of the Ark loses a handshake when it comes to a failing read while the Ark waits for the HostAck. -/
def Loses (sent : Nat) (l : Link c proto A Info cobs maxFrameSize) (action : FaultyAction c proto Info) : Prop :=
  action = .link .arkPoll ∧ l.AckFails sent

/-- A `handshake` of the host is called. -/
def Calls (l : Link c proto A Info cobs maxFrameSize) (action : FaultyAction c proto Info) : Prop :=
  l.host.call = none ∧ ∃ verifier, action = .link (.hostHandshake verifier)

/-- No `handshake` is called in this run. -/
def NoHandshake (arkCoins hostCoins : Nat → Coins c) (l : Link c proto A Info cobs maxFrameSize)
    (actions : List (FaultyAction c proto Info)) : Prop :=
  Along arkCoins hostCoins (fun link action => ¬ link.Calls action) l actions

/-- No handshake is lost in this run. -/
def Spares (arkCoins hostCoins : Nat → Coins c) (sent : Nat) (l : Link c proto A Info cobs maxFrameSize)
    (actions : List (FaultyAction c proto Info)) : Prop :=
  Along arkCoins hostCoins (fun link action => ¬ link.Loses sent action) l actions

theorem spares_hostPoll {sent : Nat} :
    Spares arkCoins hostCoins sent l (.link .hostPoll :: actions) ↔
      Spares arkCoins hostCoins sent (l.step arkCoins hostCoins .hostPoll) actions := by
  rw [Spares, along_cons]
  refine ⟨And.right, fun hrest => ⟨?_, hrest⟩⟩
  rintro ⟨hpoll, _⟩
  cases hpoll

/-- Both sides are in one session. -/
def InSession (hpke : Contexts c) (l : Link c proto A Info cobs maxFrameSize) : Prop :=
  ∃ hostSession arkSession, l.host.side.session = some hostSession ∧ l.ark.side.session = some arkSession ∧
    hpke.sendChannel hostSession.sender = hpke.recvChannel arkSession.receiver ∧
    hpke.sendChannel arkSession.sender = hpke.recvChannel hostSession.receiver

/-! ### What is taken -/

omit [Attester c A] in
theorem Fed.taken_all (h : Fed hpke arkCoins hostCoins l [] hostQueue) :
    l.takenByArk = l.host.side.framing.writer.wire.length := by
  have hline := h.line
  have hwithin := hline.within
  have hframes := hline.queue.frames
  have hrest := hline.queue.rest
  have hnext := kept_eq_nil.mp (List.map_eq_nil_iff.mp hframes)
  rw [← List.append_nil (l.ark.side.framing.steady.unread ++ l.comingToArk)] at hwithin
  obtain ⟨_, hholds⟩ := hwithin.holds hnext
  obtain ⟨_, hempty⟩ := Prod.mk.inj (hholds.symm.trans hrest)
  obtain ⟨hunread, hcoming⟩ := List.append_eq_nil_iff.mp hempty
  have hlength := List.drop_eq_nil_iff.mp hcoming
  have htoArk : l.toArk ≤ l.host.side.framing.writer.wire.length := h.holds.toArk
  rw [takenByArk, hunread, List.length_nil]
  omega

omit [Attester c A] in
theorem Fed.taken_lt {packet : Option (List UInt8)} (h : Fed hpke arkCoins hostCoins l (packet :: arkQueue) hostQueue) :
    l.takenByArk < l.host.side.framing.writer.wire.length := by
  have htoArk : l.toArk ≤ l.host.side.framing.writer.wire.length := h.holds.toArk
  have harrived := h.reads.arrived
  have hframes := h.line.queue.frames
  rw [takenByArk]
  by_contra hall
  have hunread : l.ark.side.framing.steady.unread = [] := List.length_eq_zero_iff.mp (by omega)
  have hcoming : l.comingToArk = [] := List.drop_eq_nil_iff.mpr (by rw [hunread] at hall; simp at hall; omega)
  rw [hunread, hcoming, List.append_nil, show decide (0 < 0) = false from rfl, kept_nil] at hframes
  cases hframes

omit [Attester c A] in
theorem Holds.noSession (h : Holds hpke arkCoins hostCoins l arkQueue hostQueue) {place : HandshakePoint c}
    (hwaits : l.ark.call.map Prod.fst = some (.handshake place)) : l.ark.side.session = none := by
  obtain ⟨e, _, habstracts⟩ := h.ark
  obtain ⟨⟨point, discard⟩, hcall, rfl⟩ := Option.map_eq_some_iff.mp hwaits
  exact habstracts.inside _ _ hcall

/-! ### A lost handshake -/

/-- The Ark is outside of sessions and handshakes, and no reset is on its way to it. -/
structure Lost (ark : ArkProc c proto A cobs maxFrameSize) (arkQueue : List (Option (List UInt8))) : Prop where
  session : ark.side.session = none
  call : ark.call.map Prod.fst = none ∨ ark.call.map Prod.fst = some .packet
  packets : none ∉ arkQueue

theorem Lost.moved (h : Lost l.ark arkQueue)
    (hmoved : Moved arkCoins hostCoins l l' arkQueue hostQueue arkQueue' hostQueue') : Lost l'.ark arkQueue' := by
  cases hmoved with
  | ark hpoint hleft _ =>
      refine ⟨hleft.session.trans h.session, ?_, h.packets⟩
      rw [hleft.point]
      rcases hpoint with hsame | ⟨_, hpacket⟩
      · rw [← hsame]
        exact h.call
      · exact Or.inr hpacket
  | @arkPolled packet _ _ point _ hpoint hpolled _ =>
      obtain rfl : point = .packet := by
        rcases h.call with hnone | hpacket
        · rw [hnone] at hpoint
          cases hpoint
        · exact (Option.some.inj (hpacket.symm.trans hpoint)).symm
      have hrest : none ∉ arkQueue' := fun hmem => h.packets (List.mem_cons_of_mem _ hmem)
      cases hpolled with
      | opened hsome => exact absurd (hsome.symm.trans h.session) (by simp)
      | toHello => exact absurd List.mem_cons_self h.packets
      | dropped _ hleft => exact ⟨hleft.session, Or.inr hleft.point, hrest⟩
  | arkSent _ hsome => exact absurd (hsome.symm.trans h.session) (by simp)
  | host _ _ _ hark =>
      rw [hark]
      exact h
  | hostPolled _ hpolled hark =>
      rw [hark]
      refine ⟨h.session, h.call, ?_⟩
      cases hpolled <;> simp [h.packets]
  | hostSent _ _ _ _ _ hark =>
      rw [hark]
      exact ⟨h.session, h.call, by simp [h.packets]⟩

omit [Attester c A] in
theorem Lost.failed (h : Lost l.ark arkQueue) (hfailed : Failed l l') : Lost l'.ark arkQueue :=
  ⟨hfailed.ark.session.trans h.session, Or.inl hfailed.ark.point, h.packets⟩

omit [Attester c A] in
/-- A call that fails inside a handshake, with no reset on the way, loses the handshake. -/
theorem Failed.loses (hholds : Holds hpke arkCoins hostCoins l arkQueue hostQueue) (hfailed : Failed l l')
    {place : HandshakePoint c} (hwaits : l.ark.call.map Prod.fst = some (.handshake place)) (hpackets : none ∉ arkQueue) :
    Lost l'.ark arkQueue :=
  ⟨hfailed.ark.session.trans (hholds.noSession hwaits), Or.inl hfailed.ark.point, hpackets⟩

/-- The host has no session and comes to none without a new handshake, or the Ark is that far. -/
def Cut (l : Link c proto A Info cobs maxFrameSize) (arkQueue : List (Option (List UInt8))) : Prop :=
  (l.host.side.session = none ∧
      (l.host.call.map Prod.fst = none ∨ l.host.call.map Prod.fst = some .nextMessage)) ∨
    Lost l.ark arkQueue

omit [Attester c A] in
theorem Cut.not_inSession (h : Cut l.steady arkQueue) : ¬ l.InSession hpke := by
  rintro ⟨hostSession, arkSession, hhost, hark, _⟩
  rcases h with ⟨hnone, _⟩ | hlost
  · exact absurd (hnone.symm.trans hhost) (by simp)
  · exact absurd (hlost.session.symm.trans hark) (by simp)

section

variable (hlink : Assumed hpke proto cobs maxFrameSize hostCoins bound)
include hlink

theorem Fed.apart (hfed : Fed hpke arkCoins hostCoins l arkQueue hostQueue) (hnone : l.host.side.session = none)
    (hcall : l.host.call.map Prod.fst = none ∨ l.host.call.map Prod.fst = some .nextMessage) (hcalls : ¬ l.Calls action) :
    let l' := l.faultyStep arkCoins hostCoins action
    ∃ arkQueue' hostQueue', Fed hpke arkCoins hostCoins l' arkQueue' hostQueue' ∧ l'.host.side.session = none ∧
      (l'.host.call.map Prod.fst = none ∨ l'.host.call.map Prod.fst = some .nextMessage) := by
  intro l'
  rcases hfed.acts hlink fun verifier hact hidle => hcalls ⟨hidle, verifier, hact⟩ with
    ⟨_, _, hfailed, hfed', _⟩ | ⟨_, arkQueue', hostQueue', hmoved, hfed', _⟩
  · have hhost : l'.host = l.host := hfailed.host
    exact ⟨arkQueue, hostQueue, hfed', hhost ▸ hnone, hhost ▸ hcall⟩
  · have hapart := apart_moved (l := l.steady) hnone hcall hmoved
    exact ⟨arkQueue', hostQueue', hfed', hapart⟩

theorem Cut.acts (h : Cut l.steady arkQueue) (hfed : Fed hpke arkCoins hostCoins l arkQueue hostQueue)
    (hcalls : ¬ l.Calls action) :
    ∃ arkQueue' hostQueue', Fed hpke arkCoins hostCoins (l.faultyStep arkCoins hostCoins action) arkQueue' hostQueue' ∧
      Cut (l.faultyStep arkCoins hostCoins action).steady arkQueue' := by
  rcases h with ⟨hnone, hcall⟩ | hlost
  · obtain ⟨arkQueue', hostQueue', hfed', hapart⟩ := hfed.apart hlink hnone hcall hcalls
    exact ⟨arkQueue', hostQueue', hfed', Or.inl hapart⟩
  · rcases hfed.acts hlink fun verifier hact hidle => hcalls ⟨hidle, verifier, hact⟩ with
      ⟨_, _, hfailed, hfed', _⟩ | ⟨_, arkQueue', hostQueue', hmoved, hfed', _⟩
    · exact ⟨arkQueue, hostQueue, hfed', Or.inr (hlost.failed hfailed)⟩
    · exact ⟨arkQueue', hostQueue', hfed', Or.inr (hlost.moved hmoved)⟩

theorem Cut.runs (h : Cut l.steady arkQueue) (hfed : Fed hpke arkCoins hostCoins l arkQueue hostQueue)
    (hcalls : NoHandshake arkCoins hostCoins l actions) :
    let last := l.faultyRun arkCoins hostCoins actions
    ∃ arkQueue' hostQueue', Fed hpke arkCoins hostCoins last arkQueue' hostQueue' ∧ Cut last.steady arkQueue' := by
  induction actions generalizing l arkQueue hostQueue with
  | nil => exact ⟨arkQueue, hostQueue, hfed, h⟩
  | cons action actions ih =>
      obtain ⟨hfirst, hrest⟩ := along_cons.mp hcalls
      obtain ⟨arkQueue', hostQueue', hfed', hcut⟩ := h.acts hlink hfed hfirst
      exact ih hcut hfed' hrest

end

/-! ### A handshake under way -/

/-- Where a HostHello is while the host waits for its answer: where it is on a lossless link, or in front of an Ark whose
call failed inside the handshake it came with. -/
inductive Pending (hostCoins : Nat → Coins c) (n : Nat) (hostHello : HostHello c) (hello : List UInt8)
    (ark : ArkProc c proto A cobs maxFrameSize) : List (Option (List UInt8)) → List (Option (List UInt8)) → Prop
  | awaiting {toArk toHost} : Awaiting hostCoins n hostHello hello ark toArk toHost →
      Pending hostCoins n hostHello hello ark toArk toHost
  | interrupted {toArk toHost} : ark.side.session = none →
      ark.call.map Prod.fst = none ∨ ark.call.map Prod.fst = some .packet →
      toArk = [none, some hello] ∨ toArk = [some hello] → Stale hostCoins n toHost →
      Pending hostCoins n hostHello hello ark toArk toHost

variable {n : Nat} {hostHello : HostHello c} {hello : List UInt8} {p p' : ArkProc c proto A cobs maxFrameSize}

theorem Pending.stays (h : Pending hostCoins n hostHello hello p arkQueue hostQueue)
    {point : Option (MessagePoint c)} (hpoint : p.call.map Prod.fst = point ∨ p.call = none ∧ point = some .packet)
    {history : History c proto.HostToArk} (hleft : p.Left p' p.side.session point history) :
    Pending hostCoins n hostHello hello p' arkQueue hostQueue := by
  cases h with
  | awaiting hawaiting => exact .awaiting (hawaiting.stays hpoint hleft)
  | interrupted hnone hcall hqueue hstale =>
      refine .interrupted (hleft.session.trans hnone) ?_ hqueue hstale
      rw [hleft.point]
      rcases hpoint with hsame | ⟨_, hpacket⟩
      · rw [← hsame]
        exact hcall
      · exact Or.inr hpacket

theorem Pending.takes (hc : c.Correct) (hdecode : HostHello.decode c hello = .ok hostHello)
    {packet : Option (List UInt8)} (h : Pending hostCoins n hostHello hello p (packet :: arkQueue) hostQueue)
    {point : MessagePoint c} {sent : List (Option (List UInt8))} (hpoint : p.call.map Prod.fst = some point)
    (hpolled : p.Polled arkCoins p' point packet sent) :
    Pending hostCoins n hostHello hello p' arkQueue (hostQueue ++ sent) := by
  cases h with
  | awaiting hawaiting => exact .awaiting (hawaiting.takes hc hdecode hpoint hpolled)
  | interrupted hnone hcall hqueue hstale =>
      obtain rfl : point = .packet := by
        rcases hcall with hout | hpacket
        · rw [hout] at hpoint
          cases hpoint
        · exact (Option.some.inj (hpacket.symm.trans hpoint)).symm
      rcases hqueue with hqueue | hqueue
      · obtain ⟨rfl, rfl⟩ := List.cons.inj hqueue
        cases hpolled with
        | toHello hleft => exact .awaiting (.next hleft.point (hstale.append (by simp)))
      · obtain ⟨rfl, rfl⟩ := List.cons.inj hqueue
        cases hpolled with
        | opened hsome => exact absurd (hsome.symm.trans hnone) (by simp)
        | dropped _ hleft => exact .awaiting (.refused hleft.session (hstale.append (by simp)))

theorem Pending.sends (htelling : Telling hostCoins bound) (h : Pending hostCoins n hostHello hello p arkQueue hostQueue)
    (hcall : p.call = none) {session : Session c} (hsession : p.side.session = some session) {payload packet : List UInt8}
    {sender : c.Sender} (hseal : c.senderSeal session.sender payload = (.ok packet, sender)) :
    Pending hostCoins n hostHello hello p' arkQueue (hostQueue ++ [some packet]) := by
  cases h with
  | awaiting hawaiting => exact .awaiting (hawaiting.sends htelling hcall hsession hseal)
  | interrupted hnone => exact absurd (hnone.symm.trans hsession) (by simp)

theorem Pending.hostPolled (hc : c.Correct) {wait : HelloWait c Info}
    (hkey : wait.hostXhpkeSk = (hostRole hostCoins).key n) {packet : List UInt8}
    (h : Pending hostCoins n wait.hostHello hello l.ark arkQueue (some packet :: hostQueue)) (hark : l'.ark = l.ark)
    {sent : List (Option (List UInt8))}
    (hpolled : l.host.Polled hostCoins l'.host (.handshake wait) (some packet) sent) :
    (∃ wait', l'.host.call.map Prod.fst = some (.handshake wait') ∧ wait'.hostXhpkeSk = wait.hostXhpkeSk ∧
        wait'.hostHello = wait.hostHello ∧
        Pending hostCoins n wait.hostHello hello l'.ark (arkQueue ++ sent) hostQueue) ∨
      (l'.host.side.session = none ∧ l'.host.call.map Prod.fst = none) ∨
      arkQueue = [] ∧ Synced hpke l' l' false (arkQueue ++ sent) hostQueue := by
  cases h with
  | awaiting hawaiting =>
      rcases hawaiting.hostPolled hc hkey hark hpolled with ⟨wait', hcall, hkey', hhello, hwaits⟩ | hapart | hsynced
      · exact Or.inl ⟨wait', hcall, hkey', hhello, .awaiting hwaits⟩
      · exact Or.inr (Or.inl hapart)
      · exact Or.inr (Or.inr hsynced)
  | interrupted hnone hcall hqueue hstale =>
      have hother : ¬ wait.Ours (some packet) := fun hours =>
        hstale packet List.mem_cons_self ((ours_iff_names hkey packet).mp hours)
      cases hpolled with
      | skipped _ _ hleft =>
          refine Or.inl ⟨_, hleft.call, rfl, rfl, ?_⟩
          rw [hark, List.append_nil]
          exact .interrupted hnone hcall hqueue hstale.tail
      | failed _ hleft => exact Or.inr (Or.inl ⟨hleft.session, hleft.call⟩)
      | answered _ hours => exact absurd hours hother

/-- A failed read while the host waits, unless the Ark waits for the HostAck with nothing in front of it. -/
theorem Pending.failed (hholds : Holds hpke arkCoins hostCoins l arkQueue hostQueue)
    (h : Pending hostCoins n hostHello hello l.ark arkQueue hostQueue) (hfailed : Failed l l')
    (hspared : arkQueue = [] → ∀ wait, l.ark.call.map Prod.fst ≠ some (.handshake (.ack wait))) :
    Pending hostCoins n hostHello hello l'.ark arkQueue hostQueue := by
  have hover : l'.ark.call.map Prod.fst = none ∨ l'.ark.call.map Prod.fst = some .packet := Or.inl hfailed.ark.point
  cases h with
  | awaiting hawaiting =>
      cases hawaiting with
      | behind hearlier hstale => exact .awaiting (.behind hearlier hstale)
      | reset hwait hstale =>
          exact .interrupted (hfailed.ark.session.trans (hholds.noSession hwait)) hover (Or.inl rfl) hstale
      | next hwait hstale =>
          exact .interrupted (hfailed.ark.session.trans (hholds.noSession hwait)) hover (Or.inr rfl) hstale
      | answered hwait => exact absurd hwait (hspared rfl _)
      | refused hnone hstale => exact .awaiting (.refused (hfailed.ark.session.trans hnone) hstale)
  | interrupted hnone _ hqueue hstale => exact .interrupted (hfailed.ark.session.trans hnone) hover hqueue hstale

/-! ### A session -/

variable {start : Link c proto A Info cobs maxFrameSize} {joined : Bool} {sent : Nat}

omit [Attester c A] in
theorem Synced.failed (h : Synced hpke start l true arkQueue hostQueue) (hfailed : Failed l l') :
    Synced hpke start l' true arkQueue hostQueue := by
  obtain ⟨hostSession, arkSession, toArk, toHost, hsession, hjoins, hqueue, hway, hback⟩ := h.ends
  refine ⟨hfailed.host ▸ h.call, hostSession, arkSession, toArk, toHost, by rw [hfailed.host, hsession], ?_, hqueue, ?_, ?_⟩
  · cases hjoins with
    | joined _ hark hpackets => exact .joined (Or.inl hfailed.ark.point) (hfailed.ark.session.trans hark) hpackets
  · rw [hfailed.ark.history, hfailed.host]
    exact hway
  · rw [hfailed.ark.history, hfailed.host]
    exact hback

theorem Joins.moved {session : Session c} {flying : List (List UInt8 × List UInt8)}
    (h : Joins l.ark session flying false arkQueue)
    (hmoved : Moved arkCoins hostCoins l l' arkQueue hostQueue arkQueue' hostQueue') {packet : Option (List UInt8)}
    (htaken : arkQueue = packet :: arkQueue') : l'.ark.side.session ≠ none := by
  have hlength := congrArg List.length htaken
  rw [List.length_cons] at hlength
  cases hmoved with
  | @arkPolled head _ _ point _ hpoint hpolled _ =>
      cases h with
      | joining hwait haccept hqueue =>
          obtain rfl := Option.some.inj (hwait.symm.trans hpoint)
          obtain ⟨rfl, _⟩ := List.cons.inj hqueue
          cases hpolled with
          | accepted _ _ hleft => simp [hleft.session]
          | dropped hdrops _ =>
              cases hdrops with
              | rejected hreject =>
                  rw [hreject] at haccept
                  cases haccept
  | hostPolled =>
      rw [List.length_append] at hlength
      omega
  | hostSent =>
      rw [List.length_append] at hlength
      omega
  | _ => simp at hlength

omit [Attester c A] in
theorem Synced.inSession {last : Link c proto A Info cobs maxFrameSize}
    (hfed : Fed hpke arkCoins hostCoins l arkQueue hostQueue) (h : Synced hpke start l.steady joined arkQueue hostQueue)
    {joined' : Bool} (hlast : Synced hpke start last.steady joined' arkQueue' hostQueue')
    (hnot : joined' = false → joined = false ∧ last.takenByArk = l.takenByArk)
    (htaken : l.host.side.framing.writer.wire.length ≤ last.takenByArk) : last.InSession hpke := by
  obtain ⟨hostSession, arkSession, _, _, hhost, hjoins, _, hway, hback⟩ := hlast.ends
  cases hjoins with
  | joined _ hark _ => exact ⟨hostSession, arkSession, hhost, hark, hway.channel, hback.channel⟩
  | joining =>
      obtain ⟨rfl, hsame⟩ := hnot rfl
      obtain ⟨_, _, _, _, _, hbefore, _⟩ := h.ends
      cases hbefore with
      | joining _ _ hqueue =>
          subst hqueue
          have hlt := hfed.taken_lt
          omega

section

variable (hlink : Assumed hpke proto cobs maxFrameSize hostCoins bound)
include hlink

/-- In a session, an action loses it before the Ark joined, or leaves it. -/
theorem Synced.acts (hfed : Fed hpke arkCoins hostCoins l arkQueue hostQueue)
    (h : Synced hpke start l.steady joined arkQueue hostQueue) (hsent : joined = false → sent ≤ l.takenByArk)
    (hcalls : ¬ l.Calls action) :
    let l' := l.faultyStep arkCoins hostCoins action
    ∃ arkQueue' hostQueue', Fed hpke arkCoins hostCoins l' arkQueue' hostQueue' ∧
      ((l.Loses sent action ∧ Lost l'.steady.ark arkQueue') ∨
        ¬ l.Loses sent action ∧ ∃ joined', Synced hpke start l'.steady joined' arkQueue' hostQueue' ∧
          (joined' = false → joined = false ∧ l'.takenByArk = l.takenByArk)) := by
  intro l'
  rcases hfed.acts hlink fun verifier hcall hnone => hcalls ⟨hnone, verifier, hcall⟩ with
    ⟨hpoll, hfails, hfailed, hfed', _⟩ | ⟨hother, arkQueue', hostQueue', hmoved, hfed', htaken⟩
  · refine ⟨arkQueue, hostQueue, hfed', ?_⟩
    have hends := h.ends
    obtain ⟨hostSession, arkSession, toArk, toHost, _, hjoins, _⟩ := hends
    cases hjoins with
    | joining hwait _ hqueue =>
        refine Or.inl ⟨⟨hpoll, hsent rfl, ⟨_, hwait⟩, hfails⟩, hfailed.loses hfed.holds hwait ?_⟩
        rw [hqueue]
        simp
    | joined hcall _ _ =>
        refine Or.inr ⟨?_, true, h.failed hfailed, by simp⟩
        rintro ⟨_, _, ⟨wait, hwait⟩, _⟩
        have hwait' : l.steady.ark.call.map Prod.fst = some (.handshake (.ack wait)) := hwait
        rcases hcall with hnone | hpacket
        · rw [hnone] at hwait'
          cases hwait'
        · rw [hpacket] at hwait'
          cases hwait'
  · refine ⟨arkQueue', hostQueue', hfed', Or.inr ⟨fun hloses => hother ⟨hloses.1, hloses.2.fails⟩, ?_⟩⟩
    obtain ⟨⟨joined', hjoined, hsynced⟩, _⟩ := h.moved hlink.faithful hfed.holds hmoved
    refine ⟨joined', hsynced, fun hnot => ?_⟩
    have hbefore : joined = false := by
      cases joined with
      | false => rfl
      | true => exact absurd (hjoined rfl) (by simp [hnot])
    refine ⟨hbefore, ?_⟩
    rcases htaken with hsame | ⟨_, packet, htook⟩
    · exact hsame
    · subst hbefore
      obtain ⟨_, _, _, _, _, hjoins, _⟩ := h.ends
      have hsession := hjoins.moved hmoved htook
      exact absurd ((hsynced.ark_session hfed'.holds).1.mpr hsession) (by simp [hnot])

theorem Synced.runs (hfed : Fed hpke arkCoins hostCoins l arkQueue hostQueue)
    (h : Synced hpke start l.steady joined arkQueue hostQueue) (hsent : joined = false → sent ≤ l.takenByArk)
    (hcalls : NoHandshake arkCoins hostCoins l actions) :
    let last := l.faultyRun arkCoins hostCoins actions
    (¬ Spares arkCoins hostCoins sent l actions ∧ ¬ last.InSession hpke) ∨
      Spares arkCoins hostCoins sent l actions ∧ ∃ joined' arkQueue' hostQueue',
        Synced hpke start last.steady joined' arkQueue' hostQueue' ∧
        (joined' = false → joined = false ∧ last.takenByArk = l.takenByArk) := by
  induction actions generalizing l joined arkQueue hostQueue with
  | nil => exact Or.inr ⟨along_nil, joined, arkQueue, hostQueue, h, fun hnot => ⟨hnot, rfl⟩⟩
  | cons action actions ih =>
      obtain ⟨hfirst, hrest⟩ := along_cons.mp hcalls
      obtain ⟨arkQueue₁, hostQueue₁, hfed₁, ⟨hloses, hlost⟩ | ⟨hspared, joined₁, hsynced₁, htaken₁⟩⟩ :=
        h.acts hlink hfed hsent hfirst
      · have hcut : Cut (l.faultyStep arkCoins hostCoins action).steady arkQueue₁ := Or.inr hlost
        obtain ⟨_, _, _, hcut'⟩ := hcut.runs hlink hfed₁ hrest
        exact Or.inl ⟨fun hspares => (along_cons.mp hspares).1 hloses, hcut'.not_inSession⟩
      · have hsent₁ : joined₁ = false → sent ≤ (l.faultyStep arkCoins hostCoins action).takenByArk := by
          intro hnot
          obtain ⟨hbefore, hsame⟩ := htaken₁ hnot
          rw [hsame]
          exact hsent hbefore
        rcases ih hfed₁ hsynced₁ hsent₁ hrest with ⟨hspares, hout⟩ | ⟨hspares, joined', arkQueue', hostQueue', hsynced', htaken'⟩
        · exact Or.inl ⟨fun hall => hspares (along_cons.mp hall).2, hout⟩
        · refine Or.inr ⟨along_cons.mpr ⟨hspared, hspares⟩, joined', arkQueue', hostQueue', hsynced', fun hnot => ?_⟩
          obtain ⟨hnot₁, hsame'⟩ := htaken' hnot
          obtain ⟨hnot₀, hsame₁⟩ := htaken₁ hnot₁
          exact ⟨hnot₀, hsame'.trans hsame₁⟩

end

/-! ### From the call of `handshake` on -/

/-- Where a link is once `handshake` was called and no handshake is lost: the call failed, waits for its answer, or came to
a session. The host had written `sent` bytes when it began to wait. -/
inductive Underway (hpke : Contexts c) (hostCoins : Nat → Coins c) (bound sent : Nat) (l : Link c proto A Info cobs maxFrameSize) :
    List (Option (List UInt8)) → List (Option (List UInt8)) → Prop
  | apart {toArk toHost} : l.host.side.session = none →
      l.host.call.map Prod.fst = none ∨ l.host.call.map Prod.fst = some .nextMessage →
      Underway hpke hostCoins bound sent l toArk toHost
  | pending {n wait hello toArk toHost} : l.host.call.map Prod.fst = some (.handshake wait) →
      wait.hostXhpkeSk = (hostRole hostCoins).key n → HostHello.decode c hello = .ok wait.hostHello →
      l.host.side.framing.writer.wire.length = sent → Untold hostCoins bound l.host.side.draws toArk toHost →
      Pending hostCoins n wait.hostHello hello l.steady.ark toArk toHost → Underway hpke hostCoins bound sent l toArk toHost
  | synced {start joined toArk toHost} : Synced hpke start l.steady joined toArk toHost →
      (joined = false → sent ≤ l.takenByArk) → Underway hpke hostCoins bound sent l toArk toHost

section

variable (hlink : Assumed hpke proto cobs maxFrameSize hostCoins bound)
include hlink

theorem Pending.moved (hfed : Fed hpke arkCoins hostCoins l arkQueue hostQueue) {wait : HelloWait c Info}
    (hcall : l.host.call.map Prod.fst = some (.handshake wait)) (hkey : wait.hostXhpkeSk = (hostRole hostCoins).key n)
    (hdecode : HostHello.decode c hello = .ok wait.hostHello)
    (hwire : l.host.side.framing.writer.wire.length = sent) (huntold : Untold hostCoins bound l.host.side.draws arkQueue hostQueue)
    (h : Pending hostCoins n wait.hostHello hello l.steady.ark arkQueue hostQueue)
    (hmoved : Moved arkCoins hostCoins l.steady l'.steady arkQueue hostQueue arkQueue' hostQueue')
    (hwritten : l.host.call = none ∨ l'.host.call = none ∨
      l'.host.side.framing.writer.wire = l.host.side.framing.writer.wire)
    (htaken : l.takenByArk ≤ l'.takenByArk) : Underway hpke hostCoins bound sent l' arkQueue' hostQueue' := by
  have huntold' : Untold hostCoins bound l'.steady.host.side.draws arkQueue' hostQueue' :=
    Untold.moved (l := l.steady) hlink.correct hlink.telling huntold hmoved
  have hwire' : ∀ {wait' : HelloWait c Info}, l'.host.call.map Prod.fst = some (.handshake wait') →
      l'.host.side.framing.writer.wire.length = sent := by
    intro wait' hcall'
    rcases hwritten with hnone | hnone | hsame
    · rw [hnone] at hcall
      cases hcall
    · rw [hnone] at hcall'
      cases hcall'
    · rw [hsame, hwire]
  cases hmoved with
  | ark hpoint hleft hhost =>
      have hcall' : l'.host.call.map Prod.fst = some (.handshake wait) := by rw [show l'.host = l.host from hhost, hcall]
      exact .pending hcall' hkey hdecode (hwire' hcall') huntold' (h.stays hpoint hleft)
  | arkPolled hpoint hpolled hhost =>
      have hcall' : l'.host.call.map Prod.fst = some (.handshake wait) := by rw [show l'.host = l.host from hhost, hcall]
      exact .pending hcall' hkey hdecode (hwire' hcall') huntold' (h.takes hlink.correct hdecode hpoint hpolled)
  | arkSent hout hsome hseal _ hhost =>
      have hcall' : l'.host.call.map Prod.fst = some (.handshake wait) := by rw [show l'.host = l.host from hhost, hcall]
      exact .pending hcall' hkey hdecode (hwire' hcall') huntold' (h.sends hlink.telling hout hsome hseal)
  | host hplace hleft _ hark =>
      have hcall' : l'.host.call.map Prod.fst = some (.handshake wait) := by
        rcases hplace with hsame | ⟨hnone, _⟩
        · exact hleft.call.trans (hsame.symm.trans hcall)
        · rw [show l.host.call = none from hnone] at hcall
          cases hcall
      exact .pending hcall' hkey hdecode (hwire' hcall') huntold' (hark ▸ h)
  | hostPolled hplace hpolled hark =>
      obtain rfl := Option.some.inj (hcall.symm.trans hplace)
      obtain ⟨packet, rfl⟩ := huntold.packets _ List.mem_cons_self
      rcases Pending.hostPolled (l := l.steady) hlink.correct hkey h hark hpolled with
        ⟨wait', hcall', hkey', hhello, hpending⟩ | ⟨hnone, hcall'⟩ | ⟨rfl, hsynced⟩
      · exact .pending hcall' (hkey'.trans hkey) (by rw [hdecode, hhello]) (hwire' hcall') huntold'
          (by rw [hhello]; exact hpending)
      · exact .apart hnone (Or.inl hcall')
      · refine .synced hsynced fun _ => ?_
        rw [← hwire, ← hfed.taken_all]
        exact htaken
  | hostSent hout =>
      rw [show l.host.call = none from hout] at hcall
      cases hcall

/-- An action loses the handshake, or goes on with it. -/
theorem Underway.acts (hfed : Fed hpke arkCoins hostCoins l arkQueue hostQueue)
    (h : Underway hpke hostCoins bound sent l arkQueue hostQueue) (hcalls : ¬ l.Calls action) :
    let l' := l.faultyStep arkCoins hostCoins action
    ∃ arkQueue' hostQueue', Fed hpke arkCoins hostCoins l' arkQueue' hostQueue' ∧
      ((l.Loses sent action ∧ Cut l'.steady arkQueue') ∨
        ¬ l.Loses sent action ∧ Underway hpke hostCoins bound sent l' arkQueue' hostQueue') := by
  intro l'
  cases h with
  | apart hnone hcall =>
      obtain ⟨arkQueue', hostQueue', hfed', hnone', hcall'⟩ := hfed.apart hlink hnone hcall hcalls
      refine ⟨arkQueue', hostQueue', hfed', ?_⟩
      by_cases hloses : l.Loses sent action
      · exact Or.inl ⟨hloses, Or.inl ⟨hnone', hcall'⟩⟩
      · exact Or.inr ⟨hloses, .apart hnone' hcall'⟩
  | @pending _ wait _ _ _ hcall hkey hdecode hwire huntold hpending =>
      rcases hfed.acts hlink fun verifier hact hidle => hcalls ⟨hidle, verifier, hact⟩ with
        ⟨hpoll, hfails, hfailed, hfed', _⟩ | ⟨hother, arkQueue', hostQueue', hmoved, hfed', htaken⟩
      · have hhost : l'.host = l.host := hfailed.host
        refine ⟨arkQueue, hostQueue, hfed', ?_⟩
        by_cases hack : l.AckFails sent
        · refine Or.inl ⟨⟨hpoll, hack⟩, Or.inr ?_⟩
          obtain ⟨ackWait, hwaits⟩ := hack.waits
          -- the Ark has taken the HostHello, and the host writes nothing before its answer comes
          have hempty : arkQueue = [] := by
            rcases arkQueue with _ | ⟨packet, arkQueue⟩
            · rfl
            · have hlt := hfed.taken_lt
              have hle := hack.taken
              omega
          exact hfailed.loses hfed.holds hwaits (by simp [hempty])
        · refine Or.inr ⟨fun hloses => hack hloses.2, ?_⟩
          refine .pending (hhost ▸ hcall) hkey hdecode (hhost ▸ hwire) (hhost ▸ huntold) ?_
          refine hpending.failed hfed.holds hfailed fun hempty ackWait hwaits => hack ⟨?_, ⟨ackWait, hwaits⟩, hfails⟩
          subst hempty
          rw [hfed.taken_all, hwire]
      · refine ⟨arkQueue', hostQueue', hfed', Or.inr ⟨fun hloses => hother ⟨hloses.1, hloses.2.fails⟩, ?_⟩⟩
        have hgrows : l.takenByArk ≤ l'.takenByArk := by
          rcases htaken with hsame | ⟨hle, _⟩
          · exact le_of_eq hsame.symm
          · exact hle
        exact Pending.moved hlink hfed hcall hkey hdecode hwire huntold hpending hmoved (hfed.written hlink action) hgrows
  | synced hsynced hsent =>
      obtain ⟨arkQueue', hostQueue', hfed', ⟨hloses, hlost⟩ | ⟨hspared, joined', hsynced', htaken⟩⟩ :=
        hsynced.acts hlink hfed hsent hcalls
      · exact ⟨arkQueue', hostQueue', hfed', Or.inl ⟨hloses, Or.inr hlost⟩⟩
      · refine ⟨arkQueue', hostQueue', hfed', Or.inr ⟨hspared, .synced hsynced' fun hnot => ?_⟩⟩
        obtain ⟨hbefore, hsame⟩ := htaken hnot
        rw [show l'.takenByArk = l.takenByArk from hsame]
        exact hsent hbefore

theorem Underway.runs (hfed : Fed hpke arkCoins hostCoins l arkQueue hostQueue)
    (h : Underway hpke hostCoins bound sent l arkQueue hostQueue) (hcalls : NoHandshake arkCoins hostCoins l actions) :
    let last := l.faultyRun arkCoins hostCoins actions
    ∃ arkQueue' hostQueue', Fed hpke arkCoins hostCoins last arkQueue' hostQueue' ∧
      ((¬ Spares arkCoins hostCoins sent l actions ∧ Cut last.steady arkQueue') ∨
        Spares arkCoins hostCoins sent l actions ∧ Underway hpke hostCoins bound sent last arkQueue' hostQueue') := by
  induction actions generalizing l arkQueue hostQueue with
  | nil => exact ⟨arkQueue, hostQueue, hfed, Or.inr ⟨along_nil, h⟩⟩
  | cons action actions ih =>
      obtain ⟨hfirst, hrest⟩ := along_cons.mp hcalls
      obtain ⟨arkQueue₁, hostQueue₁, hfed₁, ⟨hloses, hcut⟩ | ⟨hspared, hunderway⟩⟩ := h.acts hlink hfed hfirst
      · obtain ⟨arkQueue', hostQueue', hfed', hcut'⟩ := hcut.runs hlink hfed₁ hrest
        exact ⟨arkQueue', hostQueue', hfed', Or.inl ⟨fun hall => (along_cons.mp hall).1 hloses, hcut'⟩⟩
      · obtain ⟨arkQueue', hostQueue', hfed', ⟨hspares, hcut⟩ | ⟨hspares, hunderway'⟩⟩ := ih hfed₁ hunderway hrest
        · exact ⟨arkQueue', hostQueue', hfed', Or.inl ⟨fun hall => hspares (along_cons.mp hall).2, hcut⟩⟩
        · exact ⟨arkQueue', hostQueue', hfed', Or.inr ⟨along_cons.mpr ⟨hspared, hspares⟩, hunderway'⟩⟩

theorem Fed.bears (hfed : Fed hpke arkCoins hostCoins l arkQueue hostQueue)
    (huntold : Untold hostCoins bound l.host.side.draws arkQueue hostQueue) (action : FaultyAction c proto Info) :
    let l' := l.faultyStep arkCoins hostCoins action
    ∃ arkQueue' hostQueue', Fed hpke arkCoins hostCoins l' arkQueue' hostQueue' ∧
      Untold hostCoins bound l'.host.side.draws arkQueue' hostQueue' := by
  intro l'
  by_cases hcalls : l.Calls action
  · obtain ⟨hidle, verifier, rfl⟩ := hcalls
    obtain ⟨arkQueue', hstarted, hfed'⟩ := hfed.started hlink hidle verifier
    have huntold' := Untold.started (l := l.steady) hlink.correct hlink.telling huntold hstarted
    exact ⟨arkQueue', hostQueue, hfed', huntold'⟩
  · rcases hfed.acts hlink fun verifier hact hidle => hcalls ⟨hidle, verifier, hact⟩ with
      ⟨_, _, hfailed, hfed', _⟩ | ⟨_, arkQueue', hostQueue', hmoved, hfed', _⟩
    · have hhost : l'.host = l.host := hfailed.host
      exact ⟨arkQueue, hostQueue, hfed', hhost ▸ huntold⟩
    · have huntold' := Untold.moved (l := l.steady) hlink.correct hlink.telling huntold hmoved
      exact ⟨arkQueue', hostQueue', hfed', huntold'⟩

theorem Fed.run (hfed : Fed hpke arkCoins hostCoins l arkQueue hostQueue)
    (huntold : Untold hostCoins bound l.host.side.draws arkQueue hostQueue) (actions : List (FaultyAction c proto Info)) :
    let last := l.faultyRun arkCoins hostCoins actions
    ∃ arkQueue' hostQueue', Fed hpke arkCoins hostCoins last arkQueue' hostQueue' ∧
      Untold hostCoins bound last.host.side.draws arkQueue' hostQueue' := by
  induction actions generalizing l arkQueue hostQueue with
  | nil => exact ⟨arkQueue, hostQueue, hfed, huntold⟩
  | cons action actions ih =>
      obtain ⟨arkQueue', hostQueue', hfed', huntold'⟩ := hfed.bears hlink huntold action
      exact ih hfed' huntold'

theorem Underway.started (huntold : Untold hostCoins bound l.host.side.draws arkQueue hostQueue)
    (hbound : l'.host.side.draws ≤ bound) (hstarted : Started hostCoins l.steady l'.steady arkQueue arkQueue') :
    Underway hpke hostCoins bound l'.host.side.framing.writer.wire.length l' arkQueue' hostQueue := by
  have huntold' := Untold.started (l := l.steady) hlink.correct hlink.telling huntold hstarted
  cases hstarted with
  | failed _ hleft _ => exact .apart hleft.session (Or.inl hleft.call)
  | greeted hkey hencode hdraws hleft hark =>
      have hdraws' : l'.host.side.draws = l.host.side.draws + 1 := hdraws
      have hdrawn : l.host.side.draws < bound := by omega
      refine .pending hleft.call hkey (HostHello.decode_encode hlink.correct hencode) rfl huntold' (.awaiting (.behind ?_ ?_))
      · exact fun packet hmem => huntold.greets packet hmem _ (le_refl _) hdrawn
      · exact fun packet hmem => huntold.names packet hmem _ (le_refl _) hdrawn

theorem Underway.established (hfed : Fed hpke arkCoins hostCoins l arkQueue hostQueue)
    (h : Underway hpke hostCoins bound sent l arkQueue hostQueue) (hok : l.establishes hostCoins = true) :
    let start := l.step arkCoins hostCoins .hostPoll
    ∃ origin joined arkQueue' hostQueue', Fed hpke arkCoins hostCoins start arkQueue' hostQueue' ∧
      Synced hpke origin start.steady joined arkQueue' hostQueue' ∧ (joined = false → sent ≤ start.takenByArk) := by
  intro start
  obtain ⟨call, discard, info, hcall, hreturned⟩ := establishes_ok hok
  obtain ⟨wait, rfl, hdone, hsession⟩ := HostProc.poll_ok hreturned
  have hhost : start.host = (l.host.poll hostCoins (.handshake wait) discard).2 := by
    exact HostProc.step_poll hcall
  rw [← hhost] at hdone hsession
  have hcalls : ¬ l.Calls (.link .hostPoll : FaultyAction c proto Info) := by
    rintro ⟨hnone, _⟩
    rw [hcall] at hnone
    cases hnone
  obtain ⟨arkQueue', hostQueue', hfed', ⟨⟨hpoll, _⟩, _⟩ | ⟨_, hunderway⟩⟩ := h.acts hlink hfed hcalls
  · cases hpoll
  · cases hunderway with
    | apart hnone _ => exact absurd hnone hsession
    | pending hwaits =>
        have hwaits' : start.host.call.map Prod.fst = some (.handshake _) := hwaits
        rw [hdone] at hwaits'
        cases hwaits'
    | synced hsynced hsent => exact ⟨_, _, arkQueue', hostQueue', hfed', hsynced, hsent⟩

/-- Once the Ark has taken what the host had written by then, a session the host came into is one of both sides if and only
if no handshake is lost from there on. -/
theorem Synced.inSession_iff (hfed : Fed hpke arkCoins hostCoins l arkQueue hostQueue)
    (h : Synced hpke start l.steady joined arkQueue hostQueue) (hsent : joined = false → sent ≤ l.takenByArk)
    (hcalls : NoHandshake arkCoins hostCoins l actions)
    (htaken : l.host.side.framing.writer.wire.length ≤ (l.faultyRun arkCoins hostCoins actions).takenByArk) :
    (l.faultyRun arkCoins hostCoins actions).InSession hpke ↔ Spares arkCoins hostCoins sent l actions := by
  rcases h.runs hlink hfed hsent hcalls with ⟨hlost, hout⟩ | ⟨hspared, joined', arkQueue', hostQueue', hsynced, hnot⟩
  · exact iff_of_false hout hlost
  · exact iff_of_true (h.inSession hfed hsynced hnot htaken) hspared

/-- Once a `handshake` of the host returned `Ok` and the Ark took the HostAck with it, the two sides are in one session if
and only if no read of the Ark failed while it waited for that HostAck. -/
theorem joins_iff (signer : c.XdsaSecretKey) (attester : A) (before : List (FaultyAction c proto Info))
    (verifier : Verifier c Info) (during later : List (FaultyAction c proto Info))
    {idle ready l start last : Link c proto A Info cobs maxFrameSize}
    (hbefore : idle = (new signer attester).faultyRun arkCoins hostCoins before) (hidle : idle.host.call = none)
    (hready : ready = idle.step arkCoins hostCoins (.hostHandshake verifier)) (hbound : ready.host.side.draws ≤ bound)
    (hduring : l = ready.faultyRun arkCoins hostCoins during) (hok : l.establishes hostCoins = true)
    (hstart : start = l.step arkCoins hostCoins .hostPoll) (hlater : last = start.faultyRun arkCoins hostCoins later)
    (hcalls : NoHandshake arkCoins hostCoins ready (during ++ .link .hostPoll :: later))
    (htaken : start.host.side.framing.writer.wire.length ≤ last.takenByArk) :
    last.InSession hpke ↔
      Spares arkCoins hostCoins ready.host.side.framing.writer.wire.length ready (during ++ .link .hostPoll :: later) := by
  obtain ⟨arkQueue₀, hostQueue₀, hfed₀, huntold₀⟩ := (new_fed arkCoins hostCoins signer attester).run hlink
    ⟨by simp, by simp, by simp⟩ before
  rw [← hbefore] at hfed₀ huntold₀
  obtain ⟨arkQueue₁, hstarted, hfed₁⟩ := hfed₀.started hlink hidle verifier
  rw [← hready] at hstarted hfed₁
  have hunderway : Underway hpke hostCoins bound _ ready arkQueue₁ hostQueue₀ := .started hlink huntold₀ hbound hstarted
  obtain ⟨hcallsDuring, hcallsRest⟩ := along_append.mp hcalls
  rw [← hduring] at hcallsRest
  obtain ⟨_, hcallsLater⟩ := along_cons.mp hcallsRest
  rw [Spares, along_append, ← hduring]
  change _ ↔ _ ∧ Spares arkCoins hostCoins _ l (.link .hostPoll :: later)
  rw [spares_hostPoll, ← hstart]
  obtain ⟨arkQueue₂, hostQueue₂, hfed₂, ⟨hlost, hcut⟩ | ⟨hspared, hunderway₂⟩⟩ :=
    hunderway.runs hlink hfed₁ hcallsDuring
  · -- the handshake is lost before it returns
    rw [← hduring] at hfed₂ hcut
    obtain ⟨_, _, _, hcut'⟩ := hcut.runs hlink hfed₂ hcallsRest
    have hrun : last = l.faultyRun arkCoins hostCoins (.link .hostPoll :: later) := by
      rw [hlater, hstart]
      rfl
    rw [← hrun] at hcut'
    exact iff_of_false hcut'.not_inSession fun hall => hlost hall.1
  · rw [← hduring] at hfed₂ hunderway₂
    obtain ⟨origin, joined, arkQueue₃, hostQueue₃, hfed₃, hsynced, hsent⟩ := hunderway₂.established hlink hfed₂ hok
    rw [← hstart] at hfed₃ hsynced hsent
    change NoHandshake arkCoins hostCoins (l.step arkCoins hostCoins .hostPoll) later at hcallsLater
    rw [← hstart] at hcallsLater
    rw [hlater] at htaken ⊢
    rw [hsynced.inSession_iff hlink hfed₃ hsent hcallsLater htaken]
    exact ⟨fun hrest => ⟨hspared, hrest⟩, And.right⟩

end

/-! ### Runs of two sides -/

theorem noHandshake_of_notMem (h : ∀ verifier, .link (.hostHandshake verifier) ∉ actions) :
    NoHandshake arkCoins hostCoins l actions := by
  rintro before action after hsplit ⟨_, verifier, rfl⟩
  exact h verifier (by simp [hsplit])

open Reference

/-- Both sides at the start of a handshake. -/
def handshakeReference : Link crypto protocol (Attestation crypto) (Attestation crypto) Cobs.stuffing 512 :=
  (new (7 : Nat) attestation).step coins coins (.hostHandshake (Verifier.pinned (7 : Nat)))

/-- The Ark answers the HostHello, and then these actions happen before the host has the ArkHello. -/
def answerReference (faults : List (FaultyAction crypto protocol (Attestation crypto))) :
    List (FaultyAction crypto protocol (Attestation crypto)) :=
  [.link (.carryToArk 99), .link .arkNextMessage, .link .arkPoll, .link .arkPoll, .link .arkPoll] ++ faults ++
    [.link (.carryToHost 99)]

/-- An Ark's read that times out, which its driver answers with a new call. -/
def timeoutReference : List (FaultyAction crypto protocol (Attestation crypto)) :=
  [.arkReadFails (.other "timed out"), .link .arkPoll, .link .arkNextMessage]

/-- The Ark takes what the host wrote, and times out behind it. -/
def ackReference : List (FaultyAction crypto protocol (Attestation crypto)) :=
  [.link (.carryToArk 99), .link .arkPoll, .link .arkPoll] ++ timeoutReference

/-- The link once the host's `handshake` has returned. -/
def startReference (faults : List (FaultyAction crypto protocol (Attestation crypto))) :
    Link crypto protocol (Attestation crypto) (Attestation crypto) Cobs.stuffing 512 :=
  (handshakeReference.faultyRun coins coins (answerReference faults)).step coins coins .hostPoll

/-- A time-out in the session costs nothing. -/
theorem joins_iff_reference :
    (((startReference []).faultyRun coins coins ackReference).InSession contexts ↔
      Spares coins coins handshakeReference.host.side.framing.writer.wire.length handshakeReference
        (answerReference [] ++ .link .hostPoll :: ackReference)) ∧
      ((startReference []).faultyRun coins coins ackReference).ark.side.session ≠ none :=
  ⟨joins_iff (reference_assumed _) (7 : Nat) attestation [] (Verifier.pinned (7 : Nat)) (answerReference []) ackReference rfl
    rfl rfl (le_refl _) rfl (by decide +kernel) rfl rfl
    (noHandshake_of_notMem (by simp [answerReference, ackReference, timeoutReference])) (by decide +kernel), by decide +kernel⟩

/-- A time-out before the HostAck loses the handshake: the host is in a session, and the Ark that took its HostAck is in
none. -/
theorem joins_iff_lost :
    (handshakeReference.faultyRun coins coins (answerReference timeoutReference)).establishes coins = true ∧
      (startReference timeoutReference).host.side.framing.writer.wire.length ≤
        ((startReference timeoutReference).faultyRun coins coins ackReference).takenByArk ∧
      ¬ ((startReference timeoutReference).faultyRun coins coins ackReference).InSession contexts := by
  refine ⟨by decide +kernel, by decide +kernel, ?_⟩
  rintro ⟨_, arkSession, _, hark, _⟩
  have hnone : ((startReference timeoutReference).faultyRun coins coins ackReference).ark.side.session.isSome = false := by
    decide +kernel
  rw [hark] at hnone
  cases hnone

end Link

end DarkbioWire
