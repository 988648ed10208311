import FrostTools.Dkg.Relay

/-!
# Runs of honest participants

What holds in every run in which nobody is corrupted: the queue of a participant
holds exactly the payloads it was sent and has not received, and everything that was
sent is as expected.
-/

namespace FrostTools.Dkg
open Client Session Frostd DKGSessionState HTTPComms

variable {S : Snow} {I R1 R2 : Type*} {D : Setup I R1 R2} {self : PublicKey}

def MayHaveClosed : Phase I R1 R2 → Prop
  | .exchange _ _ | .round1Done _ | .closing => False
  | _ => True

namespace Network

/-- The Noise states with which the participants that have not given up write to a
recipient. -/
def writers (D : Setup I R1 R2) (s : Network S I R1 R2) (recipient : PublicKey) :
    PublicKey → Option (Noise S) := fun sender =>
  if sender ∈ D.members ∧ ¬Dead (s.comms sender).phase then
    (s.comms sender).cipher.sendNoiseMap.lookup recipient
  else none

/-- The payloads in flight to a participant, which follow those it has accepted. -/
def InFlight (D : Setup I R1 R2) (Matched : S.HandshakeState → S.HandshakeState → Prop)
    (Synced : S.TransportState → S.TransportState → Prop) (s : Network S I R1 R2)
    (recipient : PublicKey) (session : Frostd.Session)
    (pend : List (PublicKey × Payload I R1 R2)) : Prop :=
  (Noise.channel S).InFlight (Noise.Paired Matched Synced) (s.writers D recipient)
    (s.comms recipient).cipher.recvNoiseMap
    (tagged (session.messages (.participant recipient))) (plaintexts D pend) ∧
  s.sentTo recipient = (s.comms recipient).accepted ++ pend

end Network

structure Honest (D : Setup I R1 R2) (Matched : S.HandshakeState → S.HandshakeState → Prop)
    (Synced : S.TransportState → S.TransportState → Prop) (s : Network S I R1 R2) : Prop where
  serves : ∀ session, D.record s.server = some session → D.Serves s.server session
  closed : D.record s.server = none → MayHaveClosed (s.comms D.creator).phase
  sender : ∀ letter ∈ s.history, letter.sender ∈ D.members
  sent : ∀ pubkey, s.sentBy pubkey <+: (s.comms pubkey).produced ∧
    (¬Dead (s.comms pubkey).phase → s.sentBy pubkey = (s.comms pubkey).produced)
  planned : ∀ pubkey ∈ D.members, Planned D pubkey (s.comms pubkey)
  accepted : ∀ pubkey ∈ D.members, (s.comms pubkey).accepted <+: s.sentTo pubkey
  valid : ∀ pubkey ∈ D.members, Valid D pubkey (s.sentTo pubkey)
  flight : ∀ pubkey ∈ D.members, ¬Dead (s.comms pubkey).phase →
    ∀ session, D.record s.server = some session → ∃ pend, s.InFlight D Matched Synced pubkey session pend
  /-- Whoever gives up while the session is open has not sent all its Round 2 Packages. -/
  failing : ∀ pubkey ∈ D.members, Dead (s.comms pubkey).phase → D.record s.server ≠ none →
    ∃ recipient, Other D pubkey recipient ∧ (recipient, .round2 ()) ∉ kinds (s.sentBy pubkey)

namespace Network

def advance (s : Network S I R1 R2) (self : PublicKey) (c : HTTPComms S I R1 R2) (app : AppState)
    (letter : Option (Letter I R1 R2)) : Network S I R1 R2 :=
  ⟨app, Function.update s.comms self c, s.history ++ letter.toList⟩

variable (s : Network S I R1 R2) (c : HTTPComms S I R1 R2) (app : AppState)
  (letter : Option (Letter I R1 R2)) {pubkey recipient : PublicKey}

@[simp] theorem comms_advance_self : (s.advance self c app letter).comms self = c :=
  Function.update_self _ _ _

theorem comms_advance_of_ne (h : pubkey ≠ self) :
    (s.advance self c app letter).comms pubkey = s.comms pubkey := Function.update_of_ne h _ _

@[simp] theorem sentBy_advance_none :
    (s.advance self c app none).sentBy pubkey = s.sentBy pubkey := by
  simp [sentBy, advance]

@[simp] theorem sentTo_advance_none :
    (s.advance self c app none).sentTo pubkey = s.sentTo pubkey := by
  simp [sentTo, advance]

theorem sentBy_advance_some (payload : Payload I R1 R2) :
    (s.advance self c app (some ⟨self, recipient, payload⟩)).sentBy pubkey =
      s.sentBy pubkey ++ if pubkey = self then [(recipient, payload)] else [] := by
  by_cases h : pubkey = self
  · simp [sentBy, advance, h]
  · simp [sentBy, advance, h, Ne.symm h]

theorem sentTo_advance_some (payload : Payload I R1 R2) :
    (s.advance self c app (some ⟨self, recipient, payload⟩)).sentTo pubkey =
      s.sentTo pubkey ++ if pubkey = recipient then [(self, payload)] else [] := by
  by_cases h : pubkey = recipient
  · simp [sentTo, advance, h]
  · simp [sentTo, advance, h, Ne.symm h]

end Network

variable [LinearOrder I] [DecidableEq R1] {Matched : S.HandshakeState → S.HandshakeState → Prop}
  {Synced : S.TransportState → S.TransportState → Prop} {s : Network S I R1 R2}
  {c : HTTPComms S I R1 R2} {app : AppState} {letter : Option (Letter I R1 R2)} {now : ℕ}
  {order : List PublicKey}

omit [LinearOrder I] [DecidableEq R1] in
theorem MayHaveClosed.of_dead {phase : Phase I R1 R2} (h : Dead phase) : MayHaveClosed phase := by
  cases phase with
  | failed _ => trivial
  | cleaned _ => trivial
  | panicked _ => trivial
  | _ => exact absurd h not_false

theorem MayHaveClosed.step {c₀ : HTTPComms S I R1 R2} {app₀ : AppState}
    (h : MayHaveClosed c₀.phase) (hstep : Steps D self now order app₀ c₀ c app letter) :
    MayHaveClosed c.phase := by
  cases hstep with
  | sent _ _ _ _ _ _ hphase _ _ => rw [hphase] at h; exact absurd h not_false
  | received _ _ _ _ hphase _ _ _ => rw [hphase] at h; exact absurd h not_false
  | rejected _ _ _ _ _ _ hdead _ => exact .of_dead hdead
  | stopped _ _ _ _ hdead _ _ _ => exact .of_dead hdead
  | part2 _ _ hphase _ => rw [hphase] at h; exact absurd h not_false
  | closed _ _ => trivial
  | loggedOut _ =>
    obtain ⟨phase, heq, hcases⟩ := enter_eq (c := c₀) Phase.finished c₀.state.round2Packages
    rw [heq]
    obtain hdead | ⟨_, -, rfl⟩ := hcases
    · exact .of_dead hdead
    · trivial
  | cleaned _ _ => trivial

/-- A step keeps what the record says of the session, or the creator closes it. -/
theorem Honest.record_step (h : Honest D Matched Synced s)
    (hstep : Steps D self now order s.server (s.comms self) c app letter) :
    (app.sessions.sessionsByPubkey = s.server.sessions.sessionsByPubkey ∧
      (D.record app).map Session.metadata = (D.record s.server).map Session.metadata) ∨
    (D.record app = none ∧ self = D.creator ∧ MayHaveClosed c.phase) := by
  cases hstep with
  | sent stage recipient payload todo msg cipher _ _ hsend =>
    obtain ⟨session, session', hsession, hsession', hmetadata, -⟩ := record_send hsend
    refine .inl ⟨send_index _, ?_⟩
    rw [hsession, hsession', Option.map_some, Option.map_some, hmetadata]
  | received stage msgs c₁ phase _ hreceive _ _ =>
    obtain ⟨session, session', hsession, -, hsession', hmetadata, -⟩ := record_receive hreceive
    refine .inl ⟨receive_index _, ?_⟩
    rw [hsession, hsession', Option.map_some, Option.map_some, hmetadata]
  | rejected stage msgs phase _ hreceive _ _ _ =>
    obtain ⟨session, session', hsession, -, hsession', hmetadata, -⟩ := record_receive hreceive
    refine .inl ⟨receive_index _, ?_⟩
    rw [hsession, hsession', Option.map_some, Option.map_some, hmetadata]
  | stopped _ _ _ _ _ _ _ _ => exact .inl ⟨rfl, rfl⟩
  | part2 _ _ _ _ => exact .inl ⟨rfl, rfl⟩
  | closed _ _ =>
    obtain heq | ⟨-, hcreator, -, hnone⟩ := record_closeSession (D := D) h.serves
    · rw [heq]
      exact .inl ⟨rfl, rfl⟩
    · exact .inr ⟨hnone, hcreator, trivial⟩
  | loggedOut _ => exact .inl ⟨rfl, rfl⟩
  | cleaned _ _ =>
    obtain heq | ⟨-, hcreator, -, hnone⟩ := record_closeSession (D := D) h.serves
    · rw [heq]
      exact .inl ⟨rfl, rfl⟩
    · exact .inr ⟨hnone, hcreator, trivial⟩

theorem Honest.serves_step (h : Honest D Matched Synced s)
    (hstep : Steps D self now order s.server (s.comms self) c app letter) :
    ∀ session, D.record app = some session → D.Serves app session := by
  intro session' hsession'
  obtain ⟨hindex, hmetadata⟩ | ⟨hnone, -⟩ := h.record_step hstep
  · rw [hsession', Option.map_some, eq_comm, Option.map_eq_some_iff] at hmetadata
    obtain ⟨session, hsession, heq⟩ := hmetadata
    obtain ⟨hmeta, hlisted⟩ := h.serves session hsession
    exact ⟨heq ▸ hmeta, by rwa [hindex]⟩
  · rw [hnone] at hsession'
    cases hsession'

/-- The session is open until its creator closes it. -/
theorem Honest.closed_step (h : Honest D Matched Synced s)
    (hstep : Steps D self now order s.server (s.comms self) c app letter)
    (hnone : D.record app = none) :
    MayHaveClosed ((s.advance self c app letter).comms D.creator).phase := by
  obtain ⟨-, hmetadata⟩ | ⟨-, rfl, hclosed⟩ := h.record_step hstep
  · rw [hnone, Option.map_none, eq_comm, Option.map_eq_none_iff] at hmetadata
    have hbefore := h.closed hmetadata
    by_cases hself : D.creator = self
    · subst hself
      rw [Network.comms_advance_self]
      exact hbefore.step hstep
    · rwa [Network.comms_advance_of_ne _ _ _ _ hself]
  · rwa [Network.comms_advance_self]

theorem sender_of_steps {c₀ : HTTPComms S I R1 R2} {app₀ : AppState} {l : Letter I R1 R2}
    (hstep : Steps D self now order app₀ c₀ c app letter) (h : letter = some l) :
    l.sender = self := by
  cases hstep with
  | sent _ _ _ _ _ _ _ _ _ => rw [← Option.some.inj h]
  | _ => cases h

theorem sentBy_advance_of_ne {c₀ : HTTPComms S I R1 R2} {app₀ : AppState}
    (hstep : Steps D self now order app₀ c₀ c app letter) {pubkey : PublicKey} (h : pubkey ≠ self) :
    (s.advance self c app letter).sentBy pubkey = s.sentBy pubkey := by
  cases hstep with
  | sent _ _ _ _ _ _ _ _ _ => rw [Network.sentBy_advance_some, if_neg h, List.append_nil]
  | _ => exact Network.sentBy_advance_none _ _ _

theorem Honest.sent_step (h : Honest D Matched Synced s)
    (hstep : Steps D self now order s.server (s.comms self) c app letter) (pubkey : PublicKey) :
    (s.advance self c app letter).sentBy pubkey <+:
        ((s.advance self c app letter).comms pubkey).produced ∧
      (¬Dead ((s.advance self c app letter).comms pubkey).phase →
        (s.advance self c app letter).sentBy pubkey =
          ((s.advance self c app letter).comms pubkey).produced) := by
  by_cases hself : pubkey = self
  · subst hself
    obtain ⟨hinitial, heq⟩ := h.sent pubkey
    rw [Network.comms_advance_self]
    -- most steps send nothing and encrypt nothing
    have hquiet : ¬Dead (s.comms pubkey).phase → c.produced = (s.comms pubkey).produced →
        s.sentBy pubkey <+: c.produced ∧ (¬Dead c.phase → s.sentBy pubkey = c.produced) := by
      intro hlive hproduced
      rw [hproduced]
      exact ⟨hinitial, fun _ => heq hlive⟩
    cases hstep with
    | sent stage recipient payload todo msg cipher hphase _ _ =>
      rw [Network.sentBy_advance_some, if_pos rfl, heq (by rw [hphase]; exact not_false)]
      exact ⟨List.prefix_rfl, fun _ => rfl⟩
    | received stage msgs c₁ phase hphase _ hbatch _ =>
      have hproduced := (recvBatch_frame D pubkey (s.comms pubkey) msgs).1
      rw [hbatch] at hproduced
      rw [Network.sentBy_advance_none]
      exact hquiet (by rw [hphase]; exact not_false) hproduced
    | rejected stage msgs phase hphase _ _ _ _ =>
      rw [Network.sentBy_advance_none]
      exact hquiet (by rw [hphase]; exact not_false)
        (recvBatch_frame D pubkey (s.comms pubkey) msgs).1
    -- a payload that was encrypted may be lost here, which leaves a proper prefix
    | stopped _ _ _ _ hdead _ _ _ =>
      rw [Network.sentBy_advance_none]
      exact ⟨hinitial.trans (List.prefix_append _ _), fun hlive => absurd hdead hlive⟩
    | part2 _ _ hphase _ =>
      rw [Network.sentBy_advance_none]
      exact hquiet (by rw [hphase]; exact not_false) rfl
    | closed hphase _ =>
      rw [Network.sentBy_advance_none]
      exact hquiet (by rw [hphase]; exact not_false) rfl
    | loggedOut hphase =>
      rw [Network.sentBy_advance_none]
      obtain ⟨phase, hphase', -⟩ := enter_eq (c := s.comms pubkey) Phase.finished
        (s.comms pubkey).state.round2Packages
      exact hquiet (by rw [hphase]; exact not_false) (by rw [hphase'])
    | cleaned _ _ =>
      rw [Network.sentBy_advance_none]
      exact ⟨hinitial, fun hlive => absurd trivial hlive⟩
  · rw [Network.comms_advance_of_ne _ _ _ _ hself]
    rw [sentBy_advance_of_ne hstep hself]
    exact h.sent pubkey

/-- A message that an honest participant may send is expected by its recipient. -/
theorem expected_of_sendable (hD : D.Distinct) (hself : self ∈ D.members)
    (hlen : 2 ≤ D.pubkeys.len) {accepted : List (PublicKey × Payload I R1 R2)}
    (haccepted : Valid D self accepted) {recipient : PublicKey} {payload : Payload I R1 R2}
    (h : Sendable D self accepted recipient payload) : Expected D recipient self payload := by
  obtain ⟨-, -, hvouched⟩ := h
  cases payload with
  | round1 package => exact hvouched
  | broadcast original package =>
    obtain ⟨hne, st, r1, ⟨l, hl, hreaches⟩, hr, hp⟩ := hvouched
    have hvalid := haccepted.initial hl
    obtain ⟨hcollected, -⟩ := collected_of_round1Packages hD hself hlen hvalid hreaches hr
    obtain ⟨pubkey, hlookup, hmem⟩ := hcollected.sent original package hp
    obtain ⟨-, rfl⟩ := Setup.lookup_pubkeys_iff.mp hlookup
    obtain ⟨hmember, hother⟩ := hvalid.sender _ hmem
    exact ⟨pubkey, hmember, fun heq => hne (heq ▸ rfl), hother, rfl, hvalid.expected _ hmem⟩
  | round2 package => trivial

omit [LinearOrder I] [DecidableEq R1] in
theorem Honest.valid_accepted (h : Honest D Matched Synced s) (hself : self ∈ D.members) :
    Valid D self (s.comms self).accepted := (h.valid self hself).initial (h.accepted self hself)

theorem Honest.valid_step (h : Honest D Matched Synced s) (hD : D.Distinct)
    (hlen : 2 ≤ D.pubkeys.len) (hself : self ∈ D.members) (hrecorded : Recorded D self (s.comms self))
    (hstep : Steps D self now order s.server (s.comms self) c app letter) {pubkey : PublicKey}
    (hpubkey : pubkey ∈ D.members) : Valid D pubkey ((s.advance self c app letter).sentTo pubkey) := by
  have hvalid := h.valid pubkey hpubkey
  cases hstep with
  | sent stage recipient payload todo msg cipher hphase _ _ =>
    rw [Network.sentTo_advance_some]
    split_ifs with hp
    · subst hp
      have hsendable := hrecorded.todo stage _ hphase _ List.mem_cons_self payload rfl
      refine ⟨fun e he => ?_, fun e he => ?_, ?_⟩
      · obtain he | he := List.mem_append.mp he
        · exact hvalid.sender e he
        · obtain rfl := List.mem_singleton.mp he
          exact ⟨hself, Ne.symm hsendable.2.1⟩
      · obtain he | he := List.mem_append.mp he
        · exact hvalid.expected e he
        · obtain rfl := List.mem_singleton.mp he
          exact expected_of_sendable hD hself hlen (h.valid_accepted hself) hsendable
      · -- the participant has not sent a message of this kind to this recipient before
        have hnew : (pubkey, payload.kind) ∉ kinds (s.sentBy self) := by
          have hnodup := (h.planned self hself).nodup
          rw [(h.sent self).2 (by rw [hphase]; exact not_false)]
          rw [hphase, kinds_append] at hnodup
          exact fun hmem => (List.nodup_append.mp hnodup).2.2 _ hmem _ List.mem_cons_self rfl
        rw [kinds_append, List.nodup_append]
        refine ⟨hvalid.nodup, List.nodup_singleton _, ?_⟩
        rintro k hk k' hk' rfl
        obtain rfl := List.mem_singleton.mp hk'
        exact hnew (Network.mem_kinds_sentTo_iff.mp hk)
    · rwa [List.append_nil]
  | _ => rwa [Network.sentTo_advance_none]

/-- What a participant receives is what it was sent, and it is received without error
exactly when it comes in order. -/
theorem Honest.delivery (h : Honest D Matched Synced s) (hcodec : D.codec.Lawful) (hD : D.Distinct)
    (hlen : 2 ≤ D.pubkeys.len) (hself : self ∈ D.members) (hlive : ¬Dead (s.comms self).phase)
    (hrecorded : Recorded D self (s.comms self)) {msgs : List Msg}
    (hreceive : (receive now s.server (D.user self) ⟨D.sessionId, false⟩).1 = .ok msgs) :
    (Ordered D self (s.sentTo self) ∧
      ∃ c₁, (s.comms self).recvBatch D self msgs = (.ok (), c₁) ∧ c₁.accepted = s.sentTo self ∧
        c₁.cipher.sendNoiseMap = (s.comms self).cipher.sendNoiseMap ∧
        (Noise.channel S).InFlight (Noise.Paired Matched Synced) (s.writers D self)
          c₁.cipher.recvNoiseMap [] []) ∨
    (¬Ordered D self (s.sentTo self) ∧
      (∃ e, ((s.comms self).recvBatch D self msgs).1 = .err (.session e)) ∧
        ((s.comms self).recvBatch D self msgs).2.accepted <+: s.sentTo self) := by
  obtain ⟨session, _, hsession, rfl, -⟩ := record_receive hreceive
  obtain ⟨pend, hflight, hsent⟩ := h.flight self hself hlive session hsession
  obtain ⟨readers, hread, hdrained⟩ := hflight.drain
  have hordered := reaches_iff_ordered hD hself hlen (h.valid self hself)
  have hreach := hrecorded.current hlive
  obtain ⟨c₁, hbatch, hcipher, haccepted⟩ | ⟨herr, hinitial, hnot⟩ :=
    recvBatch_of_readAll hcodec hread hreach
  · rw [← hsent] at haccepted
    obtain ⟨-, -, -, hcurrent⟩ := recvBatch_recorded _ hreach hrecorded.decoded
    rw [hbatch] at hcurrent
    refine .inl ⟨hordered.mp ⟨_, haccepted ▸ hcurrent rfl⟩, c₁, hbatch, haccepted, ?_, ?_⟩
    · rw [hcipher]
    · rwa [hcipher]
  · rw [← hsent] at hinitial hnot
    exact .inr ⟨fun hord => hnot (hordered.mpr hord), herr, hinitial⟩

theorem Honest.accepted_step (h : Honest D Matched Synced s) (hcodec : D.codec.Lawful)
    (hD : D.Distinct) (hlen : 2 ≤ D.pubkeys.len) (hself : self ∈ D.members)
    (hrecorded : Recorded D self (s.comms self))
    (hstep : Steps D self now order s.server (s.comms self) c app letter) {pubkey : PublicKey}
    (hpubkey : pubkey ∈ D.members) :
    ((s.advance self c app letter).comms pubkey).accepted <+:
      (s.advance self c app letter).sentTo pubkey := by
  have hbefore := h.accepted pubkey hpubkey
  -- what was sent to a participant only grows
  have hgrows : s.sentTo pubkey <+: (s.advance self c app letter).sentTo pubkey := by
    cases hstep with
    | sent _ _ _ _ _ _ _ _ _ =>
      rw [Network.sentTo_advance_some]
      exact List.prefix_append _ _
    | _ => rw [Network.sentTo_advance_none]
  refine List.IsPrefix.trans ?_ hgrows
  by_cases hp : pubkey = self
  · subst hp
    rw [Network.comms_advance_self]
    cases hstep with
    | received stage msgs c₁ phase hphase hreceive hbatch _ =>
      have hlive : ¬Dead (s.comms pubkey).phase := by rw [hphase]; exact not_false
      obtain ⟨-, c₂, hbatch', haccepted, -⟩ | ⟨-, ⟨e, herr⟩, -⟩ :=
        h.delivery hcodec hD hlen hself hlive hrecorded hreceive
      · obtain rfl := (Prod.mk.inj (hbatch.symm.trans hbatch')).2
        exact haccepted ▸ List.prefix_rfl
      · rw [hbatch] at herr
        cases herr
    -- the messages before the rejected one were accepted, in the order of the queue
    | rejected stage msgs phase hphase hreceive hne _ _ =>
      have hlive : ¬Dead (s.comms pubkey).phase := by rw [hphase]; exact not_false
      obtain ⟨-, c₂, hbatch', -⟩ | ⟨-, -, hinitial⟩ :=
        h.delivery hcodec hD hlen hself hlive hrecorded hreceive
      · rw [hbatch'] at hne
        exact absurd rfl hne
      · exact hinitial
    | loggedOut _ =>
      obtain ⟨phase, heq, -⟩ := enter_eq (c := s.comms pubkey) Phase.finished
        (s.comms pubkey).state.round2Packages
      rwa [heq]
    | _ => exact hbefore
  · rwa [Network.comms_advance_of_ne _ _ _ _ hp]

theorem Honest.planned_step (h : Honest D Matched Synced s) (hcodec : D.codec.Lawful)
    (hD : D.Distinct) (hlen : 2 ≤ D.pubkeys.len) (horder : D.Iterates order)
    (hself : self ∈ D.members) (hrecorded : Recorded D self (s.comms self))
    (hstep : Steps D self now order s.server (s.comms self) c app letter) {pubkey : PublicKey}
    (hpubkey : pubkey ∈ D.members) : Planned D pubkey ((s.advance self c app letter).comms pubkey) := by
  by_cases hp : pubkey = self
  · subst hp
    have haccepted := h.accepted_step hcodec hD hlen hself hrecorded hstep hself
    have hvalid := (h.valid_step hD hlen hself hrecorded hstep hself).initial haccepted
    rw [Network.comms_advance_self] at haccepted hvalid ⊢
    refine (h.planned pubkey hself).step hD horder (fun r1 hr hlive => ?_) hstep
    have hreach := (hrecorded.step horder hstep).current hlive
    exact (collected_of_round1Packages hD hself hlen hvalid hreach hr).2
  · rw [Network.comms_advance_of_ne _ _ _ _ hp]
    exact h.planned pubkey hpubkey

omit [LinearOrder I] [DecidableEq R1] in
/-- A step of one participant does not concern the Noise states of the others. -/
theorem writers_advance {pubkey sender : PublicKey} {w : Noise S}
    (h : (s.advance self c app letter).writers D pubkey sender = some w) :
    if sender = self then ¬Dead c.phase ∧ self ∈ D.members ∧
      c.cipher.sendNoiseMap.lookup pubkey = some w
    else s.writers D pubkey sender = some w := by
  unfold Network.writers at h ⊢
  split_ifs at h with hlive
  split_ifs with hself hlive'
  · subst hself
    rw [Network.comms_advance_self] at hlive h
    exact ⟨hlive.2, hlive.1, h⟩
  · rwa [Network.comms_advance_of_ne _ _ _ _ hself] at h
  · rw [Network.comms_advance_of_ne _ _ _ _ hself] at hlive
    exact absurd hlive hlive'

omit [LinearOrder I] [DecidableEq R1] in
theorem Honest.flight_quiet (h : Honest D Matched Synced s) {pubkey : PublicKey}
    (hpubkey : pubkey ∈ D.members) (hlive : ¬Dead ((s.advance self c app letter).comms pubkey).phase)
    {session session' : Frostd.Session} (hsession : D.record s.server = some session)
    (hqueue : session'.messages (.participant pubkey) = session.messages (.participant pubkey))
    (hsent : (s.advance self c app letter).sentTo pubkey = s.sentTo pubkey)
    (hkeep : pubkey = self → ¬Dead c.phase → ¬Dead (s.comms self).phase ∧
      c.cipher.recvNoiseMap = (s.comms self).cipher.recvNoiseMap ∧
        c.accepted = (s.comms self).accepted)
    (hsilent : ¬Dead c.phase → ¬Dead (s.comms self).phase ∧
      c.cipher.sendNoiseMap.lookup pubkey = (s.comms self).cipher.sendNoiseMap.lookup pubkey) :
    ∃ pend, (s.advance self c app letter).InFlight D Matched Synced pubkey session' pend := by
  have hsame : ¬Dead (s.comms pubkey).phase ∧
      ((s.advance self c app letter).comms pubkey).cipher.recvNoiseMap =
        (s.comms pubkey).cipher.recvNoiseMap ∧
      ((s.advance self c app letter).comms pubkey).accepted = (s.comms pubkey).accepted := by
    by_cases hp : pubkey = self
    · subst hp
      rw [Network.comms_advance_self] at hlive ⊢
      exact hkeep rfl hlive
    · rw [Network.comms_advance_of_ne _ _ _ _ hp] at hlive ⊢
      exact ⟨hlive, rfl, rfl⟩
  obtain ⟨hlive', hreaders, haccepted⟩ := hsame
  obtain ⟨pend, hflight, hpend⟩ := h.flight pubkey hpubkey hlive' session hsession
  refine ⟨pend, ?_, ?_⟩
  · rw [hreaders, hqueue]
    refine hflight.mono fun sender w hw => ?_
    have hcases := writers_advance hw
    split_ifs at hcases with hself
    · obtain ⟨hc, hmem, hlookup⟩ := hcases
      obtain ⟨hbefore, hsend⟩ := hsilent hc
      rw [Network.writers, hself, if_pos ⟨hmem, hbefore⟩, ← hsend, hlookup]
    · exact hcases
  · rw [hsent, haccepted, hpend]

theorem Honest.flight_step (h : Honest D Matched Synced s) (hS : S.InOrder Matched Synced)
    (hcodec : D.codec.Lawful) (hD : D.Distinct) (hlen : 2 ≤ D.pubkeys.len) (hself : self ∈ D.members)
    (hrecorded : Recorded D self (s.comms self))
    (hstep : Steps D self now order s.server (s.comms self) c app letter) {pubkey : PublicKey}
    (hpubkey : pubkey ∈ D.members) (hlive : ¬Dead ((s.advance self c app letter).comms pubkey).phase)
    {session' : Frostd.Session} (hsession' : D.record app = some session') :
    ∃ pend, (s.advance self c app letter).InFlight D Matched Synced pubkey session' pend := by
  cases hstep with
  -- the payload joins the queue of its recipient, encrypted under the writer's next state
  | sent stage recipient payload todo msg cipher hphase hencrypt hsend =>
    have hbefore : ¬Dead (s.comms self).phase := by rw [hphase]; exact not_false
    obtain ⟨session, session₁, hsession, hsession₁, -, hmessages⟩ := record_send hsend
    obtain rfl := Option.some.inj (hsession₁.symm.trans hsession')
    obtain ⟨noise, noise', hlookup, hwrite, rfl⟩ := Cipher.encrypt_ok_iff.mp hencrypt
    by_cases hp : pubkey = recipient
    · subst hp
      have hne := (hrecorded.todo stage _ hphase _ List.mem_cons_self payload rfl).2.1
      rw [Network.comms_advance_of_ne _ _ _ _ hne] at hlive
      obtain ⟨pend, hflight, hpend⟩ := h.flight pubkey hpubkey hlive session hsession
      refine ⟨pend ++ [(self, payload)], ?_, ?_⟩
      · rw [Network.comms_advance_of_ne _ _ _ _ hne, hmessages, if_pos rfl, tagged, plaintexts,
          List.map_append, List.map_append]
        refine hflight.write (Noise.channel_inOrder hS) (k := self) ?_ hwrite fun sender w hw => ?_
        · rw [Network.writers, if_pos ⟨hself, hbefore⟩, hlookup]
        · have hcases := writers_advance hw
          split_ifs at hcases ⊢ with hsender
          · obtain ⟨-, -, hlookup'⟩ := hcases
            rw [Map.lookup_insert_self] at hlookup'
            exact (Option.some.inj hlookup').symm
          · exact hcases
      · rw [Network.sentTo_advance_some, if_pos rfl, Network.comms_advance_of_ne _ _ _ _ hne, hpend,
          List.append_assoc]
    · refine h.flight_quiet hpubkey hlive hsession ?_ ?_ (fun _ _ => ⟨hbefore, rfl, rfl⟩) fun _ => ?_
      · rw [hmessages, if_neg hp, List.append_nil]
      · rw [Network.sentTo_advance_some, if_neg hp, List.append_nil]
      · exact ⟨hbefore, by rw [Map.lookup_insert, if_neg hp]⟩
  -- the queue of the participant is taken as a whole, and all of it was accepted
  | received stage msgs c₁ phase hphase hreceive hbatch _ =>
    have hbefore : ¬Dead (s.comms self).phase := by rw [hphase]; exact not_false
    obtain ⟨-, c₂, hbatch', haccepted, hsend, hdrained⟩ | ⟨-, ⟨e, herr⟩, -⟩ :=
      h.delivery hcodec hD hlen hself hbefore hrecorded hreceive
    · obtain rfl := (Prod.mk.inj (hbatch.symm.trans hbatch')).2
      obtain ⟨session, session₁, hsession, -, hsession₁, -, hmessages⟩ := record_receive hreceive
      obtain rfl := Option.some.inj (hsession₁.symm.trans hsession')
      by_cases hp : pubkey = self
      · subst hp
        refine ⟨[], ?_, ?_⟩
        · rw [Network.comms_advance_self, hmessages, if_pos rfl]
          refine hdrained.mono fun sender w hw => ?_
          have hcases := writers_advance hw
          split_ifs at hcases with hsender
          · obtain ⟨-, -, hlookup⟩ := hcases
            change c₁.cipher.sendNoiseMap.lookup pubkey = some w at hlookup
            rw [Network.writers, hsender, if_pos ⟨hself, hbefore⟩, ← hsend, hlookup]
          · exact hcases
        · rw [Network.sentTo_advance_none, Network.comms_advance_self, List.append_nil, haccepted]
      · refine h.flight_quiet hpubkey hlive hsession ?_ (Network.sentTo_advance_none _ _ _)
          (fun heq => absurd heq hp) fun _ => ⟨hbefore, ?_⟩
        · rw [hmessages, if_neg hp]
        · change c₁.cipher.sendNoiseMap.lookup pubkey = _
          rw [hsend]
    · rw [hbatch] at herr
      cases herr
  | rejected stage msgs phase _ hreceive _ hdead _ =>
    obtain ⟨session, session₁, hsession, -, hsession₁, -, hmessages⟩ := record_receive hreceive
    obtain rfl := Option.some.inj (hsession₁.symm.trans hsession')
    by_cases hp : pubkey = self
    · subst hp
      rw [Network.comms_advance_self] at hlive
      exact absurd hdead hlive
    · refine h.flight_quiet hpubkey hlive hsession ?_ (Network.sentTo_advance_none _ _ _)
        (fun heq => absurd heq hp) fun hlive' => absurd hdead hlive'
      rw [hmessages, if_neg hp]
  | stopped cipher produced phase _ hdead _ _ _ =>
    exact h.flight_quiet hpubkey hlive hsession' rfl (Network.sentTo_advance_none _ _ _)
      (fun _ hlive' => absurd hdead hlive') fun hlive' => absurd hdead hlive'
  | part2 r1 r2 hphase _ =>
    have hbefore : ¬Dead (s.comms self).phase := by rw [hphase]; exact not_false
    exact h.flight_quiet hpubkey hlive hsession' rfl (Network.sentTo_advance_none _ _ _)
      (fun _ _ => ⟨hbefore, rfl, rfl⟩) fun _ => ⟨hbefore, rfl⟩
  -- either the session is still open, and nothing has changed, or there is no record any more
  | closed hphase _ =>
    have hbefore : ¬Dead (s.comms self).phase := by rw [hphase]; exact not_false
    obtain heq | ⟨-, -, -, hnone⟩ := record_closeSession (D := D) h.serves
    · rw [heq] at hsession'
      exact h.flight_quiet hpubkey hlive hsession' rfl (Network.sentTo_advance_none _ _ _)
        (fun _ _ => ⟨hbefore, rfl, rfl⟩) fun _ => ⟨hbefore, rfl⟩
    · rw [hnone] at hsession'
      cases hsession'
  | loggedOut hphase =>
    have hbefore : ¬Dead (s.comms self).phase := by rw [hphase]; exact not_false
    obtain ⟨phase, heq, -⟩ := enter_eq (c := s.comms self) Phase.finished
      (s.comms self).state.round2Packages
    rw [heq] at hlive ⊢
    exact h.flight_quiet hpubkey hlive hsession' rfl (Network.sentTo_advance_none _ _ _)
      (fun _ _ => ⟨hbefore, rfl, rfl⟩) fun _ => ⟨hbefore, rfl⟩
  | cleaned e _ =>
    obtain heq | ⟨-, -, -, hnone⟩ := record_closeSession (D := D) h.serves
    · rw [heq] at hsession'
      exact h.flight_quiet hpubkey hlive hsession' rfl (Network.sentTo_advance_none _ _ _)
        (fun _ hlive' => absurd trivial hlive') fun hlive' => absurd trivial hlive'
    · rw [hnone] at hsession'
      cases hsession'

omit [LinearOrder I] [DecidableEq R1] in
theorem exists_other (hlen : 2 ≤ D.pubkeys.len) (self : PublicKey) : ∃ pubkey, Other D self pubkey := by
  obtain ⟨pubkey, hmem, hne⟩ := Finset.exists_mem_ne (show 1 < D.pubkeys.keys.card from hlen) self
  exact ⟨pubkey, Setup.mem_keys_pubkeys.mp hmem, hne⟩

omit [LinearOrder I] [DecidableEq R1] in
theorem Honest.unsent_of_round (h : Honest D Matched Synced s) (hlen : 2 ≤ D.pubkeys.len)
    (hself : self ∈ D.members) (hround : (s.comms self).phase.round ≤ 1) :
    ∃ recipient, Other D self recipient ∧ (recipient, .round2 ()) ∉ kinds (s.sentBy self) := by
  obtain ⟨recipient, hrecipient⟩ := exists_other hlen self
  refine ⟨recipient, hrecipient, fun hmem => ?_⟩
  obtain ⟨e, he, heq⟩ := round_of_mem_kinds hmem
  have hle := (h.planned self hself).produced_round e ((h.sent self).1.subset he)
  change e.2.round = 2 at heq
  omega

/-- In the last round no message is rejected. -/
theorem Honest.ordered_of_round2 (h : Honest D Matched Synced s) (hD : D.Distinct)
    (hlen : 2 ≤ D.pubkeys.len) (hself : self ∈ D.members)
    (hrecorded : Recorded D self (s.comms self))
    (hpositioned : Positioned (s.comms self).state (s.comms self).phase) {todo : Todo I R1 R2}
    (hphase : (s.comms self).phase = .exchange .round2 todo) {session : Frostd.Session}
    (hsession : D.record s.server = some session) : Ordered D self (s.sentTo self) := by
  have hlive : ¬Dead (s.comms self).phase := by rw [hphase]; exact not_false
  have hreach := hrecorded.current hlive
  have hvalid := h.valid_accepted hself
  obtain ⟨pend, -, hsent⟩ := h.flight self hself hlive session hsession
  rw [hphase] at hpositioned
  obtain ⟨-, hiff, -⟩ := phase_iff hD hself hlen hvalid hreach
  obtain ⟨hround1, hechoes⟩ := hiff.mp hpositioned
  rw [hsent]
  exact ordered_append_of_complete ((reaches_iff_ordered hD hself hlen hvalid).mp ⟨_, hreach⟩)
    hround1 hechoes

omit [LinearOrder I] [DecidableEq R1] in
/-- Why a participant that gives up now has not sent everything. -/
theorem Honest.unsent_of_stuck (h : Honest D Matched Synced s) (hlen : 2 ≤ D.pubkeys.len)
    (hself : self ∈ D.members) (hopen : D.record s.server ≠ none)
    (hstuck : Stuck D self now s.server (s.comms self).phase) :
    ∃ recipient, Other D self recipient ∧ (recipient, .round2 ()) ∉ kinds (s.sentBy self) := by
  obtain ⟨session, hsession⟩ := Option.ne_none_iff_exists'.mp hopen
  have hserves := h.serves session hsession
  generalize hphase : (s.comms self).phase = phase at hstuck
  cases hstuck with
  | sending stage entry todo =>
    cases stage with
    | round1 => exact h.unsent_of_round hlen hself (by rw [hphase]; exact Nat.zero_le _)
    | broadcast => exact h.unsent_of_round hlen hself (by rw [hphase]; exact le_rfl)
    | round2 =>
      obtain ⟨-, hunsent⟩ := (h.planned self hself).unsent _ hphase
      obtain ⟨hother, hnot⟩ := hunsent entry.1 List.mem_cons_self
      refine ⟨entry.1, hother, ?_⟩
      rwa [(h.sent self).2 (by rw [hphase]; exact not_false)]
  | receiving stage e herr =>
    obtain ⟨msgs, hok⟩ := receive_ok_of_serves now hsession hserves hself
    rw [hok] at herr
    cases herr
  | round1Done r1 => exact h.unsent_of_round hlen hself (by rw [hphase]; exact le_rfl)
  | closing e herr =>
    rw [(h.planned self hself).closing hphase, closeSession_ok_of_serves hsession hserves] at herr
    cases herr

theorem Honest.failing_step (h : Honest D Matched Synced s) (hcodec : D.codec.Lawful)
    (hD : D.Distinct) (hlen : 2 ≤ D.pubkeys.len) (hself : self ∈ D.members)
    (hrecorded : Recorded D self (s.comms self))
    (hpositioned : Positioned (s.comms self).state (s.comms self).phase)
    (hstep : Steps D self now order s.server (s.comms self) c app letter) {pubkey : PublicKey}
    (hpubkey : pubkey ∈ D.members) (hdead : Dead ((s.advance self c app letter).comms pubkey).phase)
    (hopen : D.record app ≠ none) :
    ∃ recipient, Other D pubkey recipient ∧
      (recipient, .round2 ()) ∉ kinds ((s.advance self c app letter).sentBy pubkey) := by
  -- a session that is open after the step was open before it
  have hbefore : D.record s.server ≠ none := by
    obtain ⟨-, hmetadata⟩ | ⟨hnone, -⟩ := h.record_step hstep
    · intro hnone
      rw [hnone, Option.map_none, Option.map_eq_none_iff] at hmetadata
      exact hopen hmetadata
    · exact absurd hnone hopen
  by_cases hp : pubkey = self
  · subst hp
    rw [Network.comms_advance_self] at hdead
    cases hstep with
    | sent _ _ _ _ _ _ _ _ _ => exact absurd hdead not_false
    | received _ _ _ _ _ _ _ hfollows => exact absurd hdead hfollows.not_dead
    -- nothing of the second round is sent before it begins, and in it no batch is rejected
    | rejected stage msgs phase hphase hreceive hne _ _ =>
      rw [Network.sentBy_advance_none]
      cases stage with
      | round1 => exact h.unsent_of_round hlen hself (by rw [hphase]; exact Nat.zero_le _)
      | broadcast => exact h.unsent_of_round hlen hself (by rw [hphase]; exact le_rfl)
      | round2 =>
        obtain ⟨session, hsession⟩ := Option.ne_none_iff_exists'.mp hbefore
        have hordered := h.ordered_of_round2 hD hlen hself hrecorded hpositioned hphase hsession
        have hlive : ¬Dead (s.comms pubkey).phase := by rw [hphase]; exact not_false
        obtain ⟨-, c₁, hbatch, -⟩ | ⟨hnot, -⟩ :=
          h.delivery hcodec hD hlen hself hlive hrecorded hreceive
        · rw [hbatch] at hne
          exact absurd rfl hne
        · exact absurd hordered hnot
    | stopped _ _ _ hstuck _ _ _ _ =>
      rw [Network.sentBy_advance_none]
      exact h.unsent_of_stuck hlen hself hbefore hstuck
    | part2 _ _ _ _ => exact absurd hdead not_false
    | closed _ _ => exact absurd hdead not_false
    | loggedOut hphase =>
      rw [hphase] at hpositioned
      obtain ⟨pubkeys, r2, hst⟩ := eq_ready_of_phase hpositioned
      rw [hst] at hdead
      exact absurd hdead not_false
    | cleaned e hphase =>
      rw [Network.sentBy_advance_none]
      exact h.failing pubkey hself (by rw [hphase]; trivial) hbefore
  · rw [Network.comms_advance_of_ne _ _ _ _ hp] at hdead
    have hsame : (s.advance self c app letter).sentBy pubkey = s.sentBy pubkey := by
      cases hstep with
      | sent _ _ _ _ _ _ _ _ _ =>
        rw [Network.sentBy_advance_some, if_neg hp, List.append_nil]
      | _ => exact Network.sentBy_advance_none _ _ _
    rw [hsame]
    exact h.failing pubkey hpubkey hdead hbefore

theorem Honest.step (h : Honest D Matched Synced s) (hS : S.InOrder Matched Synced)
    (hcodec : D.codec.Lawful) (hD : D.Distinct) (hlen : 2 ≤ D.pubkeys.len) (hself : self ∈ D.members)
    (horder : D.Iterates order) (hrecorded : Recorded D self (s.comms self))
    (hpositioned : Positioned (s.comms self).state (s.comms self).phase)
    (hstep : Steps D self now order s.server (s.comms self) c app letter) :
    Honest D Matched Synced (s.advance self c app letter) where
  serves := h.serves_step hstep
  closed := h.closed_step hstep
  sender l hl := by
    obtain hold | hnew := List.mem_append.mp hl
    · exact h.sender l hold
    · rwa [sender_of_steps hstep (Option.mem_toList.mp hnew)]
  sent := h.sent_step hstep
  planned _ := h.planned_step hcodec hD hlen horder hself hrecorded hstep
  accepted _ := h.accepted_step hcodec hD hlen hself hrecorded hstep
  valid _ := h.valid_step hD hlen hself hrecorded hstep
  flight _ hpubkey hlive _ := h.flight_step hS hcodec hD hlen hself hrecorded hstep hpubkey hlive
  failing _ := h.failing_step hcodec hD hlen hself hrecorded hpositioned hstep

omit [LinearOrder I] [DecidableEq R1] in
theorem start_cases (D : Setup I R1 R2) (self : PublicKey) (order : List PublicKey) :
    (start D self order : HTTPComms S I R1 R2).produced = [] ∧
      (start D self order : HTTPComms S I R1 R2).accepted = [] ∧
      (¬Dead (start D self order : HTTPComms S I R1 R2).phase →
        Cipher.new self order = some (start D self order : HTTPComms S I R1 R2).cipher) := by
  unfold start
  split
  · next hnew => exact ⟨rfl, rfl, fun _ => hnew⟩
  · exact ⟨rfl, rfl, fun hlive => absurd trivial hlive⟩

omit [LinearOrder I] [DecidableEq R1] in
theorem record_start (D : Setup I R1 R2) (now : ℕ) (app : AppState) :
    D.record (createNewSession now app (D.user D.creator) ⟨D.members, 1⟩ D.sessionId).2 =
      some ⟨D.members, D.creator, 1, ∅⟩ := by
  rw [Setup.record, createNewSession_lookup]
  simp [createNewSession, Response.ofResult, sessionEffect, Setup.user]

omit [LinearOrder I] [DecidableEq R1] in
theorem honest_start (hS : S.InOrder Matched Synced) (hlen : 2 ≤ D.pubkeys.len) {now : ℕ}
    {app : AppState} {order : PublicKey → List PublicKey}
    (horder : ∀ pubkey, D.Iterates (order pubkey)) :
    Honest D Matched Synced (Network.start D now app order : Network S I R1 R2) := by
  have hrecord := record_start D now app
  have hlisted : D.sessionId ∈ SessionState.listed (createNewSession now app (D.user D.creator)
      ⟨D.members, 1⟩ D.sessionId).2.sessions.sessionsByPubkey D.creator :=
    (createNewSession_listed _ _ _ _).mpr
      (.inr (by simp [createNewSession, Response.ofResult, indexAdded, Setup.user]))
  refine ⟨?_, ?_, fun _ hmem => absurd hmem List.not_mem_nil, ?_, fun pubkey _ => planned_start (horder pubkey), ?_, ?_, ?_, ?_⟩
  · intro session hsession
    obtain rfl := Option.some.inj (hrecord.symm.trans hsession)
    exact ⟨rfl, hlisted⟩
  · intro hnone
    change D.record (createNewSession now app _ _ _).2 = none at hnone
    rw [hrecord] at hnone
    cases hnone
  · intro pubkey
    change [] <+: (start D pubkey (order pubkey) : HTTPComms S I R1 R2).produced ∧
      (_ → [] = (start D pubkey (order pubkey) : HTTPComms S I R1 R2).produced)
    rw [(start_cases D pubkey (order pubkey)).1]
    exact ⟨List.prefix_rfl, fun _ => rfl⟩
  · intro pubkey _
    change (start D pubkey (order pubkey) : HTTPComms S I R1 R2).accepted <+: []
    rw [(start_cases D pubkey (order pubkey)).2.1]
  · intro pubkey _
    exact ⟨fun _ he => absurd he List.not_mem_nil, fun _ he => absurd he List.not_mem_nil,
      List.nodup_nil⟩
  -- all queues are empty, and the ciphers were built from the same keys
  · intro pubkey hpubkey hlive session hsession
    obtain rfl := Option.some.inj (hrecord.symm.trans hsession)
    refine ⟨[], .start fun sender w hw => ?_, ?_⟩
    · unfold Network.writers at hw
      split_ifs at hw with hsender
      have hnew := (start_cases (S := S) D pubkey (order pubkey)).2.2 hlive
      have hnew' := (start_cases (S := S) D sender (order sender)).2.2 hsender.2
      have hmem := ((horder pubkey).mem_iff).mpr hsender.1
      have hmem' := ((horder sender).mem_iff).mpr hpubkey
      obtain ⟨_, recvNoise, -, hr⟩ := Cipher.build_of_new hnew hmem
      obtain ⟨sendNoise, _, hs, -⟩ := Cipher.build_of_new hnew' hmem'
      have hwriter := (Cipher.lookup_new hnew' pubkey).1
      rw [if_pos hmem', hs] at hwriter
      refine ⟨.new recvNoise, ?_, ?_⟩
      · rw [Network.start, (Cipher.lookup_new hnew sender).2, if_pos hmem, hr]
        rfl
      · obtain rfl := Option.some.inj (hwriter.symm.trans hw)
        exact .handshake (hS.build hs hr)
    · change [] = (start D pubkey (order pubkey) : HTTPComms S I R1 R2).accepted ++ []
      rw [(start_cases D pubkey (order pubkey)).2.1]
      rfl
  · intro pubkey hpubkey _ _
    obtain ⟨recipient, hrecipient⟩ := exists_other hlen pubkey
    exact ⟨recipient, hrecipient, List.not_mem_nil⟩

theorem honest_of_reachable (hS : S.InOrder Matched Synced) (hcodec : D.codec.Lawful)
    (hD : D.Distinct) (hlen : 2 ≤ D.pubkeys.len) (h : (Network.system S D ∅).Reachable s) :
    Honest D Matched Synced s := by
  refine TransitionSystem.Reachable.invariant (P := fun s => Honest D Matched Synced s) ?_ ?_ h
  · rintro s ⟨now, app, order, horder, rfl⟩
    exact honest_start hS hlen horder
  · intro s a s' hreach hs hstep
    cases Network.steps_of_step hstep with
    | participant self now order c app letter hmem _ horder hc =>
      exact hs.step hS hcodec hD hlen hmem horder (recorded_of_reachable hreach self)
        (positioned_of_reachable hreach self) (steps_of_step hc)
    | corrupted user now request hmem _ => cases hmem

end FrostTools.Dkg
