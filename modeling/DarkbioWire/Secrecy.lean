import DarkbioWire.Agreement

/-!
# Secrecy of payloads

Payloads given to a protected session stay secret: of a host, when only honest Arks hold the identity its verifier
returned, of an Ark, when only honest Arks hold its identity and a handshake of a host generated the host key it accepted.
By agreement both ends of such a session are honest, so what is sealed in it tells the attacker nothing.
-/

namespace DarkbioWire

open Symbolic

section Secrecy

variable {Blob : Type} {c : Crypto Blob} {hpke : Contexts c} {proto : Protocol Blob} {A Info : Type} [Attester c A]
  {limit : Nat} {reading : Reading hpke} {parties : Parties c} {trace : Trace c proto A Info limit}
  {w : World c A Info limit} {a h : Nat}

/-- The host key of the Ark's session was generated by a handshake of a host. -/
def World.FromHost (parties : Parties c) (w : World c A Info limit) (a : Nat) : Prop :=
  ∃ h n hostKey, (w.ark a).hostSigner = some hostKey ∧ w.Generated parties h n hostKey

/-- The identity the verifier returned for the session is held by honest Arks only. -/
def HostNode.Protected (parties : Parties c) (node : HostNode c Info limit) : Prop :=
  ∃ n ∉ parties.leaked, node.arkIdentity = some (c.xdsaPublicKey (parties.signers n))

/-- In this step an Ark is given a payload to send in a session. -/
structure ArkGiven (a : Nat) (past : World c A Info limit × Action c proto Info) (payload : Blob) : Prop where
  given : ∃ res, past.2 = .ark a (.sendMessage res) ∧ proto.arkToHost.encode res = .ok payload
  active : (past.1.ark a).side.session ≠ none

/-- In this step a host is given a payload to send in a session. -/
structure HostGiven (h : Nat) (past : World c A Info limit × Action c proto Info) (payload : Blob) : Prop where
  given : ∃ req, past.2 = .host h (.sendMessage req) ∧ proto.hostToArk.encode req = .ok payload
  active : (past.1.host h).side.session ≠ none

/-- The sender of a session an Ark accepted from a host encapsulated to that host's key. -/
theorem Run.arkSender (hnamed : parties.Named reading w) (hplain : PlainMessages reading proto)
    (hrun : Run reading parties trace w) (hunleaked : parties.identity a ∉ parties.leaked)
    (hhost : w.FromHost parties a) {session : Session c} (hsession : (w.ark a).side.session = some session)
    (payload : Blob) (atoms : Set Name) : Safe reading atoms session.sender payload := by
  obtain ⟨past, hmem, packet, wait, established, haccepts, hsigner, hchannel⟩ := (hrun.arkInv a).session session hsession
  obtain ⟨h, n, hostKey, hpeer, hgenerated⟩ := hhost
  obtain rfl := Option.some.inj (hsigner.symm.trans hpeer)
  obtain ⟨earlier, hearlier, hsub, hbuilds⟩ := hrun.before hmem
  have hnamed' := hnamed.before hrun hmem
  have hpublic := hearlier.builds_public hplain (hbuilds packet (by rw [haccepts.action]; rfl))
  obtain ⟨answered, hanswered, request, arkHello, answer, hanswers, _, acked, hacked, _, hostWait, _, _, _, hacks, _, hhello,
    _⟩ := hearlier.peer hnamed' haccepts.accepts.call hunleaked hpublic haccepts.accepts.accepts (hgenerated.name hnamed)
      (hearlier.received_public hplain)
  obtain ⟨_, receiver, _, _, rfl⟩ := ArkSide.acceptAck_opens haccepts.accepts.accepts
  obtain ⟨before, hbefore, _, _⟩ := hearlier.before hacked
  obtain ⟨m, _, _, hkey⟩ := hbefore.hostKeys (hnamed'.before hearlier hacked) hacks.acks.call
  have hsender := hanswers.answers.answers.sender
  have hsealed : hpke.sendChannel session.sender = _ := hchannel.trans (hpke.newSender_spec hsender).1
  refine Or.inr ⟨?_, fun seed hseed => ?_⟩
  · rw [hsealed, ← hhello]
    change reading.publicKey (c.xhpkePublicKey hostWait.hostXhpkeSk) ∉ Name.own
    rw [reading.publicKey_public, hkey]
    exact Name.host_not_own _ _ _
  · rw [hsealed, reading.newSender_spec hsender,
      hnamed.arkSecond a _ ((hrun.arkInv a).answered answered (hsub hanswered) hanswers).1] at hseed
    obtain ⟨_, rfl⟩ := Term.encap.inj hseed
    exact Name.ark_not_own _ _ _

theorem Run.hostSender (hnamed : parties.Named reading w) (hplain : PlainMessages reading proto)
    (hrun : Run reading parties trace w) (hprotected : (w.host h).Protected parties) {session : Session c}
    (hsession : (w.host h).side.session = some session) (payload : Blob) (atoms : Set Name) :
    Safe reading atoms session.sender payload := by
  obtain ⟨past, hmem, packet, wait, verified, established, ack, hacks, hidentity, hchannel⟩ :=
    (hrun.hostInv h).session session hsession
  obtain ⟨s, hunleaked, hpeer⟩ := hprotected
  obtain ⟨earlier, hearlier, _, hbuilds⟩ := hrun.before hmem
  have hname : reading.verifyKey verified.arkIdentity = .signer s := by
    rw [Option.some.inj (hidentity.symm.trans hpeer), reading.verifyKey_public, hnamed.unleaked s hunleaked]
  have hpublic : (leaks reading parties earlier messages).Public (reading.term (packet.getD c.empty)) := by
    cases packet with
    | none =>
        rw [Option.getD_none, reading.term_empty]
        trivial
    | some taken => exact hearlier.builds_public hplain (hbuilds taken (by rw [hacks.action]; rfl))
  obtain ⟨encap, hopen, hcontexts, _⟩ := HelloWait.answer_ok hacks.acks.answer
  obtain ⟨_, _, hsender⟩ := HelloWait.contexts_ok hcontexts
  obtain ⟨answered, hanswered, b, _, _, _, hanswers, _, _⟩ :=
    hearlier.opened (hnamed.before hrun hmem) hpublic hopen hname hunleaked
  have hsealed : hpke.sendChannel session.sender = _ := hchannel.trans (hpke.newSender_spec hsender).1
  refine Or.inr ⟨?_, fun seed hseed => ?_⟩
  · rw [hsealed, hanswers.answers.answers.crypto, hanswers.key (hnamed.before hrun hmem) hearlier hanswered]
    exact Name.ark_not_own _ _ _
  · rw [hsealed, reading.newSender_spec hsender, hnamed.hostFirst h _ ((hrun.hostInv h).acked past hmem hacks)] at hseed
    obtain ⟨_, rfl⟩ := Term.encap.inj hseed
    exact Name.host_not_own _ _ _

/-- A payload is secret as long as it is only given to protected sessions: whatever a host sends to an identity that only
honest Arks hold, and whatever an Ark whose identity only honest Arks hold sends to a host key that a host generated. -/
theorem payload_secret (hnamed : parties.Named reading w) (hplain : PlainMessages reading proto)
    (hrun : Run reading parties trace w) {payload : Blob} {d : Nat}
    (hsecret : reading.term payload = .atom (.message d))
    (hark : ∀ past ∈ trace, ∀ a, ArkGiven a past payload →
      parties.identity a ∉ parties.leaked ∧ past.1.FromHost parties a)
    (hhost : ∀ past ∈ trace, ∀ h, HostGiven h past payload → (past.1.host h).Protected parties) :
    ¬ w.Builds reading parties payload := by
  -- all secrets but this one may be known
  let atoms : Set Name := {name | name ∈ messages ∧ name ≠ .message d}
  have hother : ∀ {M : Type} {codec : Codec Blob M} {msg : M} {other : Blob} {sender : c.Sender}, reading.Plain codec →
      codec.encode msg = .ok other → other ≠ payload → Safe reading atoms sender other := by
    intro M codec msg other sender hcodec hencode hne
    rcases hcodec hencode with hdata | ⟨d', hterm⟩
    · exact Or.inl (Or.inl hdata)
    · refine Or.inl (Or.inr ⟨_, ⟨⟨d', rfl⟩, fun hname => hne (reading.term_inj (by rw [hsecret]; trivial) ?_)⟩, hterm⟩)
      rw [hterm, hname, hsecret]
  have hsafe : ∀ past ∈ trace, SealsSafely reading atoms past := by
    refine fun past hmem => ⟨fun {a input session other packet} haction hseals => ?_,
      fun {h input session other packet} haction hseals => ?_⟩
    · obtain ⟨res, rfl, hencode⟩ := hseals.input
      by_cases hsame : other = payload
      · subst hsame
        obtain ⟨earlier, hearlier, _, _⟩ := hrun.before hmem
        obtain ⟨hunleaked, hfrom⟩ := hark past hmem a ⟨⟨res, haction, hencode⟩, by rw [hseals.active]; exact nofun⟩
        exact hearlier.arkSender (hnamed.before hrun hmem) hplain hunleaked hfrom hseals.active _ _
      · exact hother hplain.arkToHost hencode hsame
    · obtain ⟨req, rfl, hencode⟩ := hseals.input
      by_cases hsame : other = payload
      · subst hsame
        obtain ⟨earlier, hearlier, _, _⟩ := hrun.before hmem
        have hprotected := hhost past hmem h ⟨⟨req, haction, hencode⟩, by rw [hseals.active]; exact nofun⟩
        exact hearlier.hostSender (hnamed.before hrun hmem) hplain hprotected hseals.active _ _
      · exact hother hplain.hostToArk hencode hsame
  intro hbuilds
  have hterm := Derives.public (hrun.known_public hsafe) hbuilds
  rw [hsecret] at hterm
  rcases hterm with hown | ⟨_, hne⟩
  · exact Name.message_not_own d hown
  · exact hne rfl

end Secrecy

/-! ### An echo, and an Ark whose identity leaked -/

namespace Ideal

/-- A message of the first host to the first Ark. -/
def toArk (d : Nat) : Term Name :=
  .sealed (.ark 0 0 .first) (.encap (.ark 0 0 .first) (.host 0 1 .first)) CRYPTO_DOMAIN_WIRE_HOST_TO_ARK 0
    (.atom (.message d))

/-- Once the host acknowledged an answer, the Ark accepts, the host sends it one message and it sends the host another. -/
def exchange (d reply : Nat) : List Step :=
  [.ark 0 (.deliver (.ok (some ack))), .host 0 (.sendMessage d), .ark 0 (.deliver (.ok (some (toArk d)))),
    .ark 0 (.sendMessage reply)]

def echoed : List Step := acked ++ exchange 5 5

theorem echoed_run : Run reading (numbered ∅) (traced ∅ echoed.reverse) (after ∅ echoed) := by
  refine .step (.step (.step (.step acked_run fun packet hreceived => ?_) nofun) fun packet hreceived => ?_) nofun
  · obtain rfl := Option.some.inj hreceived
    exact ack_builds
  · obtain rfl := Option.some.inj hreceived
    exact World.builds_of_sent (Or.inr ⟨0, List.mem_cons_self⟩)

theorem echoed_given : (∀ past ∈ traced ∅ echoed.reverse, ∀ a, ArkGiven a past (Term.atom (Name.message 5)) →
      (numbered ∅).identity a ∉ (numbered ∅).leaked ∧ past.1.FromHost (numbered ∅) a) ∧
    ∀ past ∈ traced ∅ echoed.reverse, ∀ h, HostGiven h past (Term.atom (Name.message 5)) →
      (past.1.host h).Protected (numbered ∅) := by
  constructor
  · intro past hmem a hgiven
    obtain ⟨res, haction, _⟩ := hgiven.given
    rcases hmem with _ | ⟨_, _ | ⟨_, _ | ⟨_, _ | ⟨_, _ | ⟨_, _ | ⟨_, _ | ⟨_, _ | ⟨_, _ | ⟨_, hmem⟩⟩⟩⟩⟩⟩⟩⟩⟩ <;>
      first | cases haction | cases hmem
    exact ⟨Set.notMem_empty _, 0, 0, _, rfl, by decide, rfl⟩
  · intro past hmem h hgiven
    obtain ⟨req, haction, _⟩ := hgiven.given
    rcases hmem with _ | ⟨_, _ | ⟨_, _ | ⟨_, _ | ⟨_, _ | ⟨_, _ | ⟨_, _ | ⟨_, _ | ⟨_, _ | ⟨_, hmem⟩⟩⟩⟩⟩⟩⟩⟩⟩ <;>
      first | cases haction | cases hmem
    exact ⟨0, Set.notMem_empty _, rfl⟩

end Ideal

open DarkbioWire.Ideal in
theorem payload_secret_reference : ¬ (after ∅ echoed).Builds reading (numbered ∅) (.atom (.message 5)) :=
  payload_secret (numbered_named ∅ _) ⟨codec_plain, codec_plain⟩ echoed_run rfl echoed_given.1 echoed_given.2

namespace Ideal

/-- The identity key of the first Ark leaked. The attacker passes the host's HostHello on with a key of its own, and the
answer, made anew with that identity key, to the host. -/
def stolen : List Step :=
  greeting (.adversary 0) ++
    [.host 0 (.deliver (.ok (some (answer (.host 0 0 .second) (.adversary 1) (.adversary 2)))))] ++ exchange 3 5

theorem stolen_run : Run reading (numbered {0}) (traced {0} stolen.reverse) (after {0} stolen) := by
  have hown : ∀ {n}, Name.adversary n ∈ Name.own := fun {n} => ⟨n, rfl⟩
  refine .step (.step (.step (.step (.step (.step (.step (.step (.step (.start _) nofun) nofun) nofun) ?_) ?_) ?_) nofun)
    ?_) nofun
  · rintro packet ⟨⟩
    have hhello : (after {0} ((greeting (.adversary 0)).take 3)).Builds reading (numbered {0})
        (hello (.host 0 0 .second)) := World.builds_of_sent (Or.inr ⟨0, List.mem_cons_self⟩)
    exact .cons (.head hhello) (.cons (.publicKey (.secretKey hown)) .nil)
  · rintro packet ⟨⟩
    have hhello : (after {0} (greeting (.adversary 0))).Builds reading (numbered {0})
        (hello (.host 0 0 .second)) := World.builds_of_sent (Or.inr ⟨0, List.mem_cons_self⟩)
    have hanswer : (after {0} (greeting (.adversary 0))).Builds reading (numbered {0})
        (answer (.adversary 0) (.ark 0 0 .second) (.ark 0 0 .third)) := World.builds_of_sent (Or.inl ⟨0, List.mem_cons_self⟩)
    have hkey := Derives.head (.tail hhello)
    have hark := Derives.head (.tail (.peek (.decrypt hanswer (.secretKey hown))))
    exact .encrypt _ hkey hhello (.sign _ (.known (Or.inr (Or.inl ⟨0, rfl, rfl⟩)))
      (.cons (.bytes _) (.cons hark (.cons (.encapsulate hown hkey) .nil))) hhello)
  · rintro packet ⟨⟩
    exact World.builds_of_sent (Or.inr ⟨0, List.mem_cons_self⟩)
  · rintro packet ⟨⟩
    exact World.builds_of_sent (Or.inr ⟨0, List.mem_cons_self⟩)

end Ideal

open DarkbioWire.Ideal in
/-- In that run the Ark is in a session whose host key a host generated, and the attacker reads what it sends. -/
theorem payload_secret_leaked :
    Run reading (numbered {0}) (traced {0} stolen.reverse) (after {0} stolen) ∧
      (∃ past ∈ traced {0} stolen.reverse, ArkGiven 0 past (Term.atom (Name.message 5))) ∧
      (∀ past ∈ traced {0} stolen.reverse, ∀ a, ArkGiven a past (Term.atom (Name.message 5)) →
        past.1.FromHost (numbered {0}) a) ∧
      (∀ past ∈ traced {0} stolen.reverse, ∀ h, ¬ HostGiven h past (Term.atom (Name.message 5))) ∧
      (after {0} stolen).Builds reading (numbered {0}) (.atom (.message 5)) := by
  refine ⟨stolen_run, ⟨_, List.mem_cons_self, ⟨(5 : Nat), rfl, rfl⟩, nofun⟩, fun past hmem a hgiven => ?_,
    fun past hmem h hgiven => ?_, ?_⟩
  · obtain ⟨res, haction, _⟩ := hgiven.given
    rcases hmem with _ | ⟨_, _ | ⟨_, _ | ⟨_, _ | ⟨_, _ | ⟨_, _ | ⟨_, _ | ⟨_, _ | ⟨_, _ | ⟨_, hmem⟩⟩⟩⟩⟩⟩⟩⟩⟩ <;>
      first | cases haction | cases hmem
    exact ⟨0, 0, _, rfl, by decide, rfl⟩
  · obtain ⟨req, haction, hencode⟩ := hgiven.given
    rcases hmem with _ | ⟨_, _ | ⟨_, _ | ⟨_, _ | ⟨_, _ | ⟨_, _ | ⟨_, _ | ⟨_, _ | ⟨_, _ | ⟨_, hmem⟩⟩⟩⟩⟩⟩⟩⟩⟩ <;>
      first | cases haction | cases hmem
    cases hencode
  · have hsent : (after {0} stolen).Builds reading (numbered {0}) (.sealed (.adversary 0)
        (.encap (.adversary 0) (.ark 0 0 .second)) CRYPTO_DOMAIN_WIRE_ARK_TO_HOST 0 (.atom (.message 5))) :=
      World.builds_of_sent (Or.inl ⟨0, List.mem_cons_self⟩)
    exact .openWithKey hsent (.secretKey ⟨0, rfl⟩)

end DarkbioWire
