import FrostTools.Dkg.Honest

namespace FrostTools.Dkg
open Client Session Frostd DKGSessionState HTTPComms

variable {S : Snow} {I R1 R2 : Type*} [LinearOrder I] [DecidableEq R1] {D : Setup I R1 R2}
  {Matched : S.HandshakeState → S.HandshakeState → Prop}
  {Synced : S.TransportState → S.TransportState → Prop} {s : Network S I R1 R2} {self : PublicKey}
  {order : List PublicKey} {stage : Stage} {c : HTTPComms S I R1 R2} {now : ℕ} {app : AppState}
  {letter : Option (Letter I R1 R2)}

inductive Turned (D : Setup I R1 R2) (s : Network S I R1 R2) (self : PublicKey)
    (order : List PublicKey) (stage : Stage) (c : HTTPComms S I R1 R2) : Prop
  | closed : D.record s.server = none → Dead c.phase → (∀ e, c.phase ≠ .failed (.session e)) →
    (∀ e, c.phase ≠ .cleaned e) → Turned D s self order stage c
  | followed : D.record s.server ≠ none → Ordered D self (s.sentTo self) →
    Reaches (D.identifier self) D.pubkeys (s.sentTo self) c.state →
    Follows D self order stage c.state c.phase → Turned D s self order stage c
  | rejected (e : Session.Error) : D.record s.server ≠ none → ¬Ordered D self (s.sentTo self) →
    c.phase = .failed (.session e) → Turned D s self order stage c

theorem Honest.turn (h : Honest D Matched Synced s) (hcodec : D.codec.Lawful) (hD : D.Distinct)
    (hlen : 2 ≤ D.pubkeys.len) (hself : self ∈ D.members) (hrecorded : Recorded D self (s.comms self))
    (hphase : (s.comms self).phase = .exchange stage [])
    (hstep : Steps D self now order s.server (s.comms self) c app letter) :
    Turned D s self order stage c := by
  have hlive : ¬Dead (s.comms self).phase := by rw [hphase]; exact not_false
  have hopen : ∀ {msgs}, (receive now s.server (D.user self) ⟨D.sessionId, false⟩).1 = .ok msgs →
      D.record s.server ≠ none := by
    intro msgs hreceive hnone
    obtain ⟨session, _, hsession, -⟩ := record_receive hreceive
    rw [hnone] at hsession
    cases hsession
  cases hstep with
  | sent _ _ _ _ _ _ hsending _ _ =>
    rw [hphase] at hsending
    cases hsending
  | received stage' msgs c₁ phase hphase' hreceive hbatch hfollows =>
    rw [hphase] at hphase'
    obtain ⟨rfl, -⟩ := Phase.exchange.inj hphase'
    obtain ⟨hordered, c₂, hbatch', haccepted, -⟩ | ⟨-, ⟨e, herr⟩, -⟩ :=
      h.delivery hcodec hD hlen hself hlive hrecorded hreceive
    · obtain rfl := (Prod.mk.inj (hbatch.symm.trans hbatch')).2
      obtain ⟨-, -, -, hcurrent⟩ := recvBatch_recorded msgs (hrecorded.current hlive) hrecorded.decoded
      rw [hbatch, haccepted] at hcurrent
      exact .followed (hopen hreceive) hordered (hcurrent rfl) hfollows
    · rw [hbatch] at herr
      cases herr
  | rejected stage' msgs phase _ hreceive hne _ hfailed =>
    obtain ⟨-, c₂, hbatch, -⟩ | ⟨hnot, ⟨e, herr⟩, -⟩ :=
      h.delivery hcodec hD hlen hself hlive hrecorded hreceive
    · rw [hbatch] at hne
      exact absurd rfl hne
    · exact .rejected e (hopen hreceive) hnot (hfailed _ herr)
  | stopped cipher produced phase hstuck hdead hsession hcleaned _ =>
    rw [hphase] at hstuck
    cases hstuck with
    | receiving _ e herr =>
      refine .closed ?_ hdead hsession hcleaned
      by_contra hrecord
      -- in an open session a member's request to receive succeeds
      obtain ⟨session, hsome⟩ := Option.ne_none_iff_exists'.mp hrecord
      obtain ⟨msgs, hok⟩ := receive_ok_of_serves now hsome (h.serves session hsome) hself
      rw [hok] at herr
      cases herr
  | part2 _ _ hphase' _ =>
    rw [hphase] at hphase'
    cases hphase'
  | closed hphase' _ =>
    rw [hphase] at hphase'
    cases hphase'
  | loggedOut hphase' =>
    rw [hphase] at hphase'
    cases hphase'
  | cleaned _ hphase' =>
    rw [hphase] at hphase'
    cases hphase'

theorem letter_of_turn {c₀ : HTTPComms S I R1 R2} {app₀ : AppState}
    (hphase : c₀.phase = .exchange stage []) (hstep : Steps D self now order app₀ c₀ c app letter) :
    letter = none := by
  cases hstep with
  | sent _ _ _ _ _ _ hsending _ _ =>
    rw [hphase] at hsending
    cases hsending
  | _ => rfl

/-- The next step is a turn of a wait loop, in an open session. -/
def Network.Turn (D : Setup I R1 R2) (s : Network S I R1 R2) (a : Action) (self : PublicKey)
    (stage : Stage) : Prop :=
  (∃ now order, a = .participant self now order) ∧ (s.comms self).phase = .exchange stage [] ∧
    D.record s.server ≠ none

/-- A property of a participant and of what it has sent, which only a turn can break, is
kept in exactly the runs whose turns all meet a condition, when the condition decides
whether a turn keeps it. -/
theorem run_restrict_turns_iff (hS : S.InOrder Matched Synced) (hcodec : D.codec.Lawful)
    (hD : D.Distinct) (hlen : 2 ≤ D.pubkeys.len)
    (G : PublicKey → HTTPComms S I R1 R2 → List (PublicKey × Payload I R1 R2) → Prop)
    (cond : Network S I R1 R2 → PublicKey → Stage → Prop)
    (hstart : ∀ pubkey order, G pubkey (.start D pubkey order) [])
    (hquiet : ∀ {s self now order c app letter}, (Network.system S D ∅).Reachable s →
      (∀ stage, (s.comms self).phase ≠ .exchange stage []) →
      Steps D self now order s.server (s.comms self) c app letter →
      G self (s.comms self) (s.sentBy self) → G self c ((s.advance self c app letter).sentBy self))
    (hturn : ∀ {s self order stage c}, (Network.system S D ∅).Reachable s → self ∈ D.members →
      (s.comms self).phase = .exchange stage [] → Turned D s self order stage c →
      ((D.record s.server ≠ none → cond s self stage) ↔ G self c (s.sentBy self)))
    {es : List Action} :
    ((Network.system S D ∅).restrict fun s a => ∀ self stage, s.Turn D a self stage →
      cond s self stage).Run es s ↔
    ((Network.system S D ∅).within fun s => ∀ self ∈ D.members,
      G self (s.comms self) (s.sentBy self)).Run es s := by
  refine TransitionSystem.run_restrict_iff_within ?_ ?_
  · rintro s ⟨now, app, order, -, rfl⟩ self -
    exact hstart self (order self)
  · intro s a s' hreach hgood hstep
    cases Network.steps_of_step hstep with
    | corrupted user now request hmem _ => cases hmem
    | participant self now order c app letter hself _ horder hc =>
      have hsteps := steps_of_step hc
      -- the properties of the other participants are kept
      have hothers : (∀ pubkey ∈ D.members, G pubkey ((s.advance self c app letter).comms pubkey)
          ((s.advance self c app letter).sentBy pubkey)) ↔
            G self c ((s.advance self c app letter).sentBy self) := by
        constructor
        · intro h
          have hown := h self hself
          rwa [Network.comms_advance_self] at hown
        · intro h pubkey hpubkey
          by_cases hp : pubkey = self
          · subst hp
            rwa [Network.comms_advance_self]
          · rw [Network.comms_advance_of_ne _ _ _ _ hp, sentBy_advance_of_ne hsteps hp]
            exact hgood pubkey hpubkey
      refine Iff.trans ?_ hothers.symm
      -- a step that is no turn meets no condition, and keeps the property
      by_cases hphase : ∃ stage, (s.comms self).phase = .exchange stage []
      · obtain ⟨stage, hphase⟩ := hphase
        have hhonest := honest_of_reachable hS hcodec hD hlen hreach
        have hturned := hhonest.turn hcodec hD hlen hself (recorded_of_reachable hreach self) hphase
          hsteps
        rw [letter_of_turn hphase hsteps, Network.sentBy_advance_none,
          ← hturn hreach hself hphase hturned]
        constructor
        · intro h hopen
          exact h self stage ⟨⟨now, order, rfl⟩, hphase, hopen⟩
        · rintro h self' stage' ⟨⟨now', order', heq⟩, hphase', hopen⟩
          obtain ⟨rfl, -, -⟩ := Action.participant.inj heq
          obtain ⟨rfl, -⟩ := Phase.exchange.inj (hphase.symm.trans hphase')
          exact h hopen
      · rw [not_exists] at hphase
        refine iff_of_true ?_ (hquiet hreach hphase hsteps (hgood self hself))
        rintro self' stage' ⟨⟨now', order', heq⟩, hphase', -⟩
        obtain ⟨rfl, -, -⟩ := Action.participant.inj heq
        exact absurd hphase' (hphase stage')

end FrostTools.Dkg
