import DarkbioWire.Integrity

/-!
# Secrets that leak later

Payloads of protected sessions, when more leaks than the identities a run began with. Sessions that were established
before every identity key leaks keep what they are given, also what they are given afterwards, while the attacker goes on
with those keys. And at the end of a run all secrets of all parties may be given away, other sessions' included: what
protects a payload are the two ends of the channels it was sealed in, and nothing else.
-/

namespace DarkbioWire

open Symbolic

section Compromise

variable {Blob : Type} {c : Crypto Blob} {hpke : Contexts c} {proto : Protocol Blob} {A Info : Type} [Attester c A]
  {limit : Nat} {reading : Reading hpke} {parties : Parties c} {trace early late : Trace c proto A Info limit}
  {w w₀ : World c A Info limit} {a h : Nat}

/-! ### Channels that are safe -/

/-- The secrets of all messages but one. -/
def others (d : Nat) : Set Name := {name | name ∈ messages ∧ name ≠ .message d}

omit [Attester c A] in
theorem Safe.congr {atoms : Set Name} {sender sender' : c.Sender} {payload : Blob}
    (hsame : hpke.sendChannel sender' = hpke.sendChannel sender) (h : Safe reading atoms sender payload) :
    Safe reading atoms sender' payload := by
  rw [Safe, hsame]
  exact h

omit [Attester c A] in
theorem Safe.other {M : Type} {codec : Codec Blob M} (hplain : reading.Plain codec) {msg : M} {payload other : Blob}
    {d : Nat} (hsecret : reading.term payload = .atom (.message d)) (hencode : codec.encode msg = .ok other)
    (hne : other ≠ payload) (sender : c.Sender) : Safe reading (others d) sender other := by
  rcases hplain hencode with hdata | ⟨d', hterm⟩
  · exact Or.inl (Or.inl hdata)
  · refine Or.inl (Or.inr ⟨_, ⟨⟨d', rfl⟩, fun hname => hne (reading.term_inj (by rw [hsecret]; trivial) ?_)⟩, hterm⟩)
    rw [hterm, hname, hsecret]

omit [Attester c A] in
theorem Safe.ends {sender : c.Sender} {payload : Blob} {d : Nat}
    (hsecret : reading.term payload = .atom (.message d)) (h : Safe reading (others d) sender payload) :
    reading.publicKey (hpke.sendChannel sender).1 ∉ Name.own ∧
      ∀ seed, reading.term (hpke.sendChannel sender).2.1 = .encap (reading.publicKey (hpke.sendChannel sender).1) seed →
        seed ∉ Name.own := by
  rcases h with (⟨data, hterm⟩ | ⟨n, ⟨_, hne⟩, hterm⟩) | hends
  · exact nomatch hsecret.symm.trans hterm
  · exact absurd (Term.atom.inj (hterm.symm.trans hsecret)) hne
  · exact hends

/-- The sessions a payload is given to in these steps, and their channels are safe for it. -/
structure GivenSafely (reading : Reading hpke) (trace : Trace c proto A Info limit) (payload : Blob) (d : Nat) :
    Prop where
  ark : ∀ past ∈ trace, ∀ {a session}, ArkGiven a past payload → (past.1.ark a).side.session = some session →
    Safe reading (others d) session.sender payload
  host : ∀ past ∈ trace, ∀ {h session}, HostGiven h past payload → (past.1.host h).side.session = some session →
    Safe reading (others d) session.sender payload

omit [Attester c A] in
theorem GivenSafely.append {payload : Blob} {d : Nat} (h : GivenSafely reading late payload d)
    (h' : GivenSafely reading early payload d) : GivenSafely reading (late ++ early) payload d := by
  constructor
  · intro past hmem a session hgiven hsession
    rcases List.mem_append.mp hmem with hmem | hmem
    · exact h.ark past hmem hgiven hsession
    · exact h'.ark past hmem hgiven hsession
  · intro past hmem i session hgiven hsession
    rcases List.mem_append.mp hmem with hmem | hmem
    · exact h.host past hmem hgiven hsession
    · exact h'.host past hmem hgiven hsession

/-- Sessions with honest identities and host keys are safe. -/
theorem Run.givenSafely (hnamed : parties.Named reading w) (hplain : PlainMessages reading proto)
    (hrun : Run reading parties trace w) {payload : Blob} (d : Nat)
    (hark : ∀ past ∈ trace, ∀ a, ArkGiven a past payload →
      parties.identity a ∉ parties.leaked ∧ past.1.FromHost parties a)
    (hhost : ∀ past ∈ trace, ∀ h, HostGiven h past payload → (past.1.host h).Protected parties) :
    GivenSafely reading trace payload d := by
  constructor
  · intro past hmem a session hgiven hsession
    obtain ⟨earlier, hearlier, _, _⟩ := hrun.before hmem
    obtain ⟨hunleaked, hfrom⟩ := hark past hmem a hgiven
    exact hearlier.arkSender (hnamed.before hrun hmem) hplain hunleaked hfrom hsession _ _
  · intro past hmem h session hgiven hsession
    obtain ⟨earlier, hearlier, _, _⟩ := hrun.before hmem
    exact hearlier.hostSender (hnamed.before hrun hmem) hplain (hhost past hmem h hgiven) hsession _ _

theorem Run.secret (hplain : PlainMessages reading proto) (hrun : Run reading parties trace w) {payload : Blob} {d : Nat}
    (hsecret : reading.term payload = .atom (.message d)) (hgiven : GivenSafely reading trace payload d) :
    ¬ w.Builds reading parties payload := by
  have hsafe : ∀ past ∈ trace, SealsSafely reading (others d) past := by
    refine fun past hmem => ⟨fun {a input session other packet} haction hseals => ?_,
      fun {h input session other packet} haction hseals => ?_⟩
    · obtain ⟨res, rfl, hencode⟩ := hseals.input
      by_cases hsame : other = payload
      · subst hsame
        exact hgiven.ark past hmem ⟨⟨res, haction, hencode⟩, by rw [hseals.active]; exact nofun⟩ hseals.active
      · exact Safe.other hplain.arkToHost hsecret hencode hsame _
    · obtain ⟨req, rfl, hencode⟩ := hseals.input
      by_cases hsame : other = payload
      · subst hsame
        exact hgiven.host past hmem ⟨⟨req, haction, hencode⟩, by rw [hseals.active]; exact nofun⟩ hseals.active
      · exact Safe.other hplain.hostToArk hsecret hencode hsame _
  intro hbuilds
  have hterm := Derives.public (hrun.known_public hsafe) hbuilds
  rw [hsecret] at hterm
  rcases hterm with hown | ⟨_, hne⟩
  · exact Name.message_not_own d hown
  · exact hne rfl

/-! ### Identity keys that leak in the middle of a run -/

/-- The same parties once every identity key leaked. -/
def Parties.exposed (parties : Parties c) : Parties c := { parties with leaked := Set.univ }

/-- How a run goes on from a state in which every identity key leaks. -/
inductive Exposed (reading : Reading hpke) (parties : Parties c) (w₀ : World c A Info limit) :
    Trace c proto A Info limit → World c A Info limit → Prop
  | leak : Exposed reading parties w₀ [] w₀
  | step {trace w action} : Exposed reading parties w₀ trace w →
      (∀ packet, Action.received action = some packet → w.Builds reading parties.exposed packet) →
      Exposed reading parties w₀ ((w, action) :: trace) (w.step parties action)

/-- In this step an Ark has the session it had in that state. -/
def ArkKept (hpke : Contexts c) (w₀ : World c A Info limit) (past : World c A Info limit × Action c proto Info) (a : Nat) :
    Prop :=
  ∃ session₀ session, (w₀.ark a).side.session = some session₀ ∧ (past.1.ark a).side.session = some session ∧
    hpke.sendChannel session.sender = hpke.sendChannel session₀.sender

/-- In this step a host has the session it had in that state. -/
def HostKept (hpke : Contexts c) (w₀ : World c A Info limit) (past : World c A Info limit × Action c proto Info) (h : Nat) :
    Prop :=
  ∃ session₀ session, (w₀.host h).side.session = some session₀ ∧ (past.1.host h).side.session = some session ∧
    hpke.sendChannel session.sender = hpke.sendChannel session₀.sender

theorem step_exposed (parties : Parties c) (w : World c A Info limit) (action : Action c proto Info) :
    w.step parties.exposed action = w.step parties action := by
  cases action <;> rfl

omit [Attester c A] in
theorem builds_exposed {packet : Blob} (h : w.Builds reading parties packet) : w.Builds reading parties.exposed packet := by
  refine h.mono fun t hknown => ?_
  rcases hknown with hkey | ⟨n, _, hleaked⟩ | hsent
  · exact Or.inl hkey
  · exact Or.inr (Or.inl ⟨n, Set.mem_univ n, hleaked⟩)
  · exact Or.inr (Or.inr hsent)

theorem Run.exposed (hrun : Run reading parties trace w) : Run reading parties.exposed trace w := by
  induction hrun with
  | start attesters => exact .start attesters
  | @step trace w action _ hbuilds ih =>
      have hnext : Run reading parties.exposed ((w, action) :: trace) (w.step parties.exposed action) :=
        ih.step fun packet hreceived => builds_exposed (hbuilds packet hreceived)
      rw [step_exposed] at hnext
      exact hnext

/-- What went before and what came after is one run with the keys leaked. -/
theorem Exposed.run (hearly : Run reading parties early w₀) (hlate : Exposed reading parties w₀ late w) :
    Run reading parties.exposed (late ++ early) w := by
  induction hlate with
  | leak => exact hearly.exposed
  | @step trace w action _ hbuilds ih =>
      have hnext : Run reading parties.exposed ((w, action) :: (trace ++ early)) (w.step parties.exposed action) :=
        ih.step hbuilds
      rw [step_exposed] at hnext
      exact hnext

theorem Exposed.older (hlate : Exposed reading parties w₀ late w) : w₀.Older w := by
  induction hlate with
  | leak => exact ⟨fun _ => le_refl _, fun _ => le_refl _⟩
  | step _ _ ih => exact ih.trans (World.older_step hpke parties _ _)

/-- Forward secrecy. A payload is secret that was only given to protected sessions before every identity key leaked, and
afterwards only to those that were established by then, while the attacker goes on with all these keys. -/
theorem payload_secret_exposed (hnamed : parties.Named reading w) (hplain : PlainMessages reading proto)
    (hearly : Run reading parties early w₀) (hlate : Exposed reading parties w₀ late w) {payload : Blob} {d : Nat}
    (hsecret : reading.term payload = .atom (.message d))
    (hark : ∀ past ∈ early, ∀ a, ArkGiven a past payload →
      parties.identity a ∉ parties.leaked ∧ past.1.FromHost parties a)
    (hhost : ∀ past ∈ early, ∀ h, HostGiven h past payload → (past.1.host h).Protected parties)
    (hark' : ∀ past ∈ late, ∀ a, ArkGiven a past payload →
      parties.identity a ∉ parties.leaked ∧ w₀.FromHost parties a ∧ ArkKept hpke w₀ past a)
    (hhost' : ∀ past ∈ late, ∀ h, HostGiven h past payload → (w₀.host h).Protected parties ∧ HostKept hpke w₀ past h) :
    ¬ w.Builds reading parties.exposed payload := by
  have hnamed' := hnamed.older hlate.older
  have hbefore := hearly.givenSafely hnamed' hplain d hark hhost
  refine (hlate.run hearly).secret hplain hsecret (GivenSafely.append ⟨?_, ?_⟩ hbefore)
  · -- the channel of a session that was kept is the one it had before the leak
    intro past hmem a session hgiven hsession
    obtain ⟨hunleaked, hfrom, session₀, session', hsession₀, hsession', hsame⟩ := hark' past hmem a hgiven
    obtain rfl := Option.some.inj (hsession.symm.trans hsession')
    exact (hearly.arkSender hnamed' hplain hunleaked hfrom hsession₀ _ _).congr hsame
  · intro past hmem h session hgiven hsession
    obtain ⟨hprotected, session₀, session', hsession₀, hsession', hsame⟩ := hhost' past hmem h hgiven
    obtain rfl := Option.some.inj (hsession.symm.trans hsession')
    exact (hearly.hostSender hnamed' hplain hprotected hsession₀ _ _).congr hsame

/-! ### All secrets but the ends of a channel -/

/-- The two ends of the channels a payload was given to: the keys it is sealed to, and the randomness they were
encapsulated with. -/
def channelEnds (reading : Reading hpke) (trace : Trace c proto A Info limit) (payload : Blob) : Set Name :=
  {name | ∃ past ∈ trace, ∃ session : Session c,
    ((∃ a, ArkGiven a past payload ∧ (past.1.ark a).side.session = some session) ∨
      ∃ h, HostGiven h past payload ∧ (past.1.host h).side.session = some session) ∧
    (name = reading.publicKey (hpke.sendChannel session.sender).1 ∨
      ∃ n, reading.term (hpke.sendChannel session.sender).2.1 = .encap n name)}

/-- The attacker's own secrets and those of everyone else, except for the ends of these channels and the payload. -/
def allElse (reading : Reading hpke) (trace : Trace c proto A Info limit) (payload : Blob) (d : Nat) : Set Name :=
  {name | name ∈ Name.own ∨ name ≠ .message d ∧ name ∉ channelEnds reading trace payload}

/-- What an attacker may know that is given all these secrets. -/
def afterwards (reading : Reading hpke) (trace : Trace c proto A Info limit) (payload : Blob) (d : Nat) : Leaks Name where
  own := allElse reading trace payload d
  signers := Set.univ
  atoms := others d
  made _ _ _ _ := True

omit [Attester c A] in
/-- A sealed payload tells an attacker that holds all these secrets nothing of the one given to safe channels. -/
theorem sealed_public {payload other packet : Blob} {d : Nat} (hsecret : reading.term payload = .atom (.message d))
    {sender sender' : c.Sender} (hseal : c.senderSeal sender other = (.ok packet, sender'))
    (hplain : (∃ data, reading.term other = .bytes data) ∨ ∃ d, reading.term other = .atom (.message d))
    (hsafe : other = payload → Safe reading (others d) sender payload ∧
      ∀ name, (name = reading.publicKey (hpke.sendChannel sender).1 ∨
        ∃ n, reading.term (hpke.sendChannel sender).2.1 = .encap n name) → name ∈ channelEnds reading trace payload) :
    (afterwards reading trace payload d).Public (reading.term packet) := by
  rcases hchannel : hpke.sendChannel sender with ⟨key, encap, info⟩
  rw [reading.senderSeal_spec hchannel hseal]
  by_cases hsame : other = payload
  · obtain ⟨hchannelSafe, hends⟩ := hsafe hsame
    obtain ⟨hkey, hseed⟩ := hchannelSafe.ends hsecret
    rw [hchannel] at hkey hseed hends
    refine Or.inr ⟨?_, fun seed hencap => ?_⟩
    · rintro (hown | ⟨_, hnot⟩)
      · exact hkey hown
      · exact hnot (hends _ (Or.inl rfl))
    · rintro (hown | ⟨_, hnot⟩)
      · exact hseed seed hencap hown
      · exact hnot (hends _ (Or.inr ⟨_, hencap⟩))
  · left
    rcases hplain with ⟨data, hterm⟩ | ⟨d', hterm⟩
    · rw [hterm]
      trivial
    · rw [hterm]
      refine Or.inr ⟨⟨d', rfl⟩, fun hname => hsame (reading.term_inj (by rw [hsecret]; trivial) ?_)⟩
      rw [hterm, hname, hsecret]

/-- A payload that was only given to protected sessions is secret also from an attacker that is given, at the end of the
run, every secret of every party but the payload itself and the two ends of the channels it was given to: identity keys,
the keys hosts sign with, and the keys and the randomness of all other handshakes and sessions. -/
theorem payload_secret_apart (hnamed : parties.Named reading w) (hplain : PlainMessages reading proto)
    (hrun : Run reading parties trace w) {payload : Blob} {d : Nat}
    (hsecret : reading.term payload = .atom (.message d))
    (hark : ∀ past ∈ trace, ∀ a, ArkGiven a past payload →
      parties.identity a ∉ parties.leaked ∧ past.1.FromHost parties a)
    (hhost : ∀ past ∈ trace, ∀ h, HostGiven h past payload → (past.1.host h).Protected parties) :
    ¬ Derives (w.known reading parties) (allElse reading trace payload d) (reading.term payload) := by
  have hsafe := hrun.givenSafely hnamed hplain d hark hhost
  have hknown : ∀ t ∈ w.known reading parties,
      (afterwards reading trace payload d).Public t := by
    rintro t (⟨n, rfl⟩ | ⟨n, _, rfl⟩ | ⟨packet, hsent, rfl⟩)
    · trivial
    · exact Or.inr (Set.mem_univ _)
    cases hrun.origin hsent with
    | hello hencode =>
        obtain ⟨_, _, hterm⟩ := hello_term reading hencode
        rw [hterm]
        exact ⟨trivial, trivial, trivial⟩
    | answer _ hanswers =>
        obtain ⟨_, _, _, _, _, _, _, hterm⟩ := answer_term reading hanswers.answers.answers
        rw [hterm]
        exact ⟨⟨trivial, trivial, trivial, trivial⟩, Or.inr trivial⟩
    | ack _ hacks =>
        obtain ⟨_, _, _, _, _, hterm⟩ := ack_term reading hacks.acks.answer
        rw [hterm]
        exact ⟨⟨trivial, trivial⟩, Or.inr trivial⟩
    | @arkSealed past a session other hmem h =>
        obtain ⟨res, haction, hencode⟩ := h.given
        obtain ⟨sender, hseal⟩ := h.sealing
        refine sealed_public hsecret hseal (hplain.arkToHost hencode) fun hsame => ?_
        have hgiven : ArkGiven a past payload := ⟨⟨res, haction, hsame ▸ hencode⟩, by rw [h.active]; exact nofun⟩
        exact ⟨hsafe.ark past hmem hgiven h.active, fun name hname =>
          ⟨past, hmem, session, Or.inl ⟨a, hgiven, h.active⟩, hname⟩⟩
    | @hostSealed past i session other hmem h =>
        obtain ⟨req, haction, hencode⟩ := h.given
        obtain ⟨sender, hseal⟩ := h.sealing
        refine sealed_public hsecret hseal (hplain.hostToArk hencode) fun hsame => ?_
        have hgiven : HostGiven i past payload := ⟨⟨req, haction, hsame ▸ hencode⟩, by rw [h.active]; exact nofun⟩
        exact ⟨hsafe.host past hmem hgiven h.active, fun name hname =>
          ⟨past, hmem, session, Or.inr ⟨i, hgiven, h.active⟩, hname⟩⟩
  intro hderives
  have hterm : (afterwards reading trace payload d).Public (reading.term payload) := Derives.public hknown hderives
  rw [hsecret] at hterm
  rcases hterm with (hown | ⟨hne, _⟩) | ⟨_, hne⟩
  · exact Name.message_not_own d hown
  · exact hne rfl
  · exact hne rfl

end Compromise

/-! ### An Ark that goes on -/

namespace Ideal

/-- Every identity key leaks after the echo, and the Ark sends the message once more. -/
def again : List Step := [.ark 0 (.sendMessage (5 : Nat))]

def againTrace : List (Worlds × Step) := [(after ∅ echoed, .ark 0 (.sendMessage (5 : Nat)))]

theorem again_exposed : Exposed reading (numbered ∅) (after ∅ echoed) againTrace (after ∅ (echoed ++ again)) :=
  .step .leak nofun

end Ideal

open DarkbioWire.Ideal in
theorem payload_secret_exposed_reference :
    ¬ (after ∅ (echoed ++ again)).Builds reading (numbered ∅).exposed (.atom (.message 5)) := by
  refine payload_secret_exposed (numbered_named ∅ _) ⟨codec_plain, codec_plain⟩ echoed_run again_exposed rfl
    echoed_given.1 echoed_given.2 (fun past hmem a hgiven => ?_) fun past hmem h hgiven => ?_
  · obtain rfl := List.mem_singleton.mp hmem
    obtain ⟨res, haction, _⟩ := hgiven.given
    cases haction
    exact ⟨Set.notMem_empty _, ⟨0, 0, _, rfl, by decide, rfl⟩, _, _, rfl, rfl, rfl⟩
  · obtain rfl := List.mem_singleton.mp hmem
    obtain ⟨req, haction, _⟩ := hgiven.given
    cases haction

open DarkbioWire.Ideal in
theorem payload_secret_apart_reference :
    ¬ Derives ((after ∅ echoed).known reading (numbered ∅))
      (allElse reading (traced ∅ echoed.reverse) (Term.atom (Name.message 5)) 5) (.atom (.message 5)) :=
  payload_secret_apart (numbered_named ∅ _) ⟨codec_plain, codec_plain⟩ echoed_run rfl echoed_given.1 echoed_given.2

end DarkbioWire
