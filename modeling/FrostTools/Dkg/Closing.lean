import FrostTools.Dkg.Honest

/-!
# Closing the session

The creator closes the session when it has the Round 2 Packages of all others. The
others may still have messages on the server, or messages to send.
-/

namespace FrostTools.Dkg
open Client Session Frostd DKGSessionState HTTPComms Network

variable {S : Snow} {I R1 R2 : Type*} {D : Setup I R1 R2} {pubkey : PublicKey}

def Phase.hasClosed : Phase I R1 R2 → Bool
  | .loggingOut | .finished _ => true
  | _ => false

def HTTPComms.HasAll (D : Setup I R1 R2) (pubkey : PublicKey) (c : HTTPComms S I R1 R2) : Prop :=
  c.state.hasRound2Packages = true ∧ HasRound2 D pubkey c.accepted

instance [DecidableEq I] (c : HTTPComms S I R1 R2) : Decidable (c.HasAll D pubkey) :=
  inferInstanceAs (Decidable (_ ∧ _))

/-- The creator has closed the session only after all others had everything. -/
def Network.NeverStranded (D : Setup I R1 R2) (s : Network S I R1 R2) : Prop :=
  (s.comms D.creator).phase.hasClosed = true →
    ∀ pubkey ∈ D.members, pubkey ≠ D.creator → (s.comms pubkey).HasAll D pubkey

instance [DecidableEq I] (D : Setup I R1 R2) (s : Network S I R1 R2) :
    Decidable (s.NeverStranded D) :=
  inferInstanceAs (Decidable (_ → ∀ pubkey ∈ D.members, _ → (s.comms pubkey).HasAll D pubkey))

/-- The next step is the `close_session` of the creator, at the end of
`get_round2_packages`. -/
def Network.Closes (D : Setup I R1 R2) (s : Network S I R1 R2) (a : Action) : Prop :=
  (∃ now order, a = .participant D.creator now order) ∧ (s.comms D.creator).phase = .closing

/-- All Round 2 Packages for the participant were sent and its queue is empty. -/
def Network.Drained (D : Setup I R1 R2) (s : Network S I R1 R2) (pubkey : PublicKey) : Prop :=
  HasRound2 D pubkey (s.sentTo pubkey) ∧
    ∀ session, D.record s.server = some session → session.messages (.participant pubkey) = []

theorem hasRound2Packages_iff {st : DKGSessionState I R1 R2} :
    st.hasRound2Packages = true ↔ 3 ≤ st.phase := by
  cases st <;> simp [hasRound2Packages, DKGSessionState.phase]

variable [LinearOrder I] [DecidableEq R1] {s : Network S I R1 R2} {self : PublicKey}
  {Matched : S.HandshakeState → S.HandshakeState → Prop}
  {Synced : S.TransportState → S.TransportState → Prop} {order : List PublicKey}
  {c : HTTPComms S I R1 R2} {now : ℕ} {app : AppState} {letter : Option (Letter I R1 R2)}

omit [LinearOrder I] [DecidableEq R1] in
theorem Honest.open_of_closing (h : Honest D Matched Synced s)
    (hphase : (s.comms D.creator).phase = .closing) : D.record s.server ≠ none := by
  intro hnone
  have hclosed := h.closed hnone
  rw [hphase] at hclosed
  exact hclosed

/-- The creator has everything when it closes. -/
theorem Honest.creator_hasAll (h : Honest D Matched Synced s) (hD : D.Distinct)
    (hlen : 2 ≤ D.pubkeys.len) (hrecorded : Recorded D D.creator (s.comms D.creator))
    (hpositioned : Positioned (s.comms D.creator).state (s.comms D.creator).phase)
    (hphase : (s.comms D.creator).phase = .closing) :
    HasRound2 D D.creator (s.sentTo D.creator) := by
  have hreaches := hrecorded.current (by rw [hphase]; exact not_false)
  rw [hphase] at hpositioned
  obtain ⟨-, -, hthree⟩ := phase_iff hD D.creator_mem hlen (h.valid_accepted D.creator_mem) hreaches
  exact (hthree.mp hpositioned).2.2.mono (h.accepted D.creator D.creator_mem)

omit [LinearOrder I] [DecidableEq R1] in
/-- Nobody who has sent all its Round 2 Packages has given up. -/
theorem Honest.live_of_sent (h : Honest D Matched Synced s) (hopen : D.record s.server ≠ none)
    (hall : ∀ recipient ∈ D.members, HasRound2 D recipient (s.sentTo recipient))
    (hmem : pubkey ∈ D.members) : ¬Dead (s.comms pubkey).phase := by
  intro hdead
  obtain ⟨recipient, hrecipient, hunsent⟩ := h.failing pubkey hmem hdead hopen
  refine hunsent (mem_kinds_sentTo_iff.mp (hall recipient hrecipient.1 pubkey ⟨hmem, ?_⟩))
  exact Ne.symm hrecipient.2

theorem Honest.hasAll_of_drained (h : Honest D Matched Synced s) (hD : D.Distinct)
    (hlen : 2 ≤ D.pubkeys.len) (hmem : pubkey ∈ D.members)
    (hrecorded : Recorded D pubkey (s.comms pubkey)) (hlive : ¬Dead (s.comms pubkey).phase)
    (hopen : D.record s.server ≠ none) (hdrained : s.Drained D pubkey) :
    (s.comms pubkey).HasAll D pubkey := by
  obtain ⟨session, hsession⟩ := Option.ne_none_iff_exists'.mp hopen
  obtain ⟨pend, hflight, hsent⟩ := h.flight pubkey hmem hlive session hsession
  rw [hdrained.2 session hsession] at hflight
  have hpend : pend = [] := List.map_eq_nil_iff.mp hflight.eq_nil
  rw [hpend, List.append_nil] at hsent
  have hreaches := hrecorded.current hlive
  have hvalid := h.valid_accepted hmem
  have hround2 : HasRound2 D pubkey (s.comms pubkey).accepted := hsent ▸ hdrained.1
  have hordered := (reaches_iff_ordered hD hmem hlen hvalid).mp ⟨_, hreaches⟩
  obtain ⟨sender, hsender⟩ := exists_other hlen pubkey
  obtain ⟨hround1, hechoes⟩ := hordered.complete (hround2 sender hsender)
  obtain ⟨-, -, hthree⟩ := phase_iff hD hmem hlen hvalid hreaches
  exact ⟨hasRound2Packages_iff.mpr (hthree.mpr ⟨hround1, hechoes, hround2⟩), hround2⟩

theorem Honest.drained_of_hasAll (h : Honest D Matched Synced s) (hD : D.Distinct)
    (hlen : 2 ≤ D.pubkeys.len) (hmem : pubkey ∈ D.members)
    (hrecorded : Recorded D pubkey (s.comms pubkey)) (hlive : ¬Dead (s.comms pubkey).phase)
    (hall : (s.comms pubkey).HasAll D pubkey) : s.Drained D pubkey := by
  refine ⟨hall.2.mono (h.accepted pubkey hmem), fun session hsession => ?_⟩
  obtain ⟨pend, hflight, hsent⟩ := h.flight pubkey hmem hlive session hsession
  have hreaches := hrecorded.current hlive
  obtain ⟨-, -, hthree⟩ := phase_iff hD hmem hlen (h.valid_accepted hmem) hreaches
  obtain ⟨hround1, hechoes, hround2⟩ := hthree.mp (hasRound2Packages_iff.mp hall.1)
  have hvalid := h.valid pubkey hmem
  rw [hsent] at hvalid
  have hpend := hvalid.eq_nil_of_complete hround1 hechoes hround2
  have hlength := hflight.length_eq
  rw [hpend] at hlength
  exact List.map_eq_nil_iff.mp (List.length_eq_zero_iff.mp hlength.symm)

/-- When the creator closes, the others have everything exactly when nothing is left on
the server or to be sent. -/
theorem hasAll_iff_drained (hS : S.InOrder Matched Synced) (hcodec : D.codec.Lawful)
    (hD : D.Distinct) (hlen : 2 ≤ D.pubkeys.len) (hreach : (Network.system S D ∅).Reachable s)
    (hphase : (s.comms D.creator).phase = .closing) :
    (∀ pubkey, Other D D.creator pubkey → s.Drained D pubkey) ↔
      ∀ pubkey, Other D D.creator pubkey → (s.comms pubkey).HasAll D pubkey := by
  have h := honest_of_reachable hS hcodec hD hlen hreach
  have hopen := h.open_of_closing hphase
  have hcreator := h.creator_hasAll hD hlen (recorded_of_reachable hreach _)
    (positioned_of_reachable hreach _) hphase
  have hsent : (∀ pubkey, Other D D.creator pubkey → HasRound2 D pubkey (s.sentTo pubkey)) →
      ∀ pubkey ∈ D.members, HasRound2 D pubkey (s.sentTo pubkey) := by
    intro hothers pubkey hmem
    by_cases hp : pubkey = D.creator
    · exact hp ▸ hcreator
    · exact hothers pubkey ⟨hmem, hp⟩
  constructor
  · intro hdrained pubkey hother
    have hlive := h.live_of_sent hopen (hsent fun p hp => (hdrained p hp).1) hother.1
    exact h.hasAll_of_drained hD hlen hother.1 (recorded_of_reachable hreach _) hlive hopen
      (hdrained pubkey hother)
  · intro hall pubkey hother
    have hlive := h.live_of_sent hopen
      (hsent fun p hp => (hall p hp).2.mono (h.accepted p hp.1)) hother.1
    exact h.drained_of_hasAll hD hlen hother.1 (recorded_of_reachable hreach _) hlive
      (hall pubkey hother)

omit [LinearOrder I] [DecidableEq R1] in
theorem HTTPComms.HasAll.mono {c' : HTTPComms S I R1 R2} (h : c.HasAll D pubkey)
    (hphase : c.state.phase ≤ c'.state.phase) (haccepted : c.accepted <+: c'.accepted) :
    c'.HasAll D pubkey :=
  ⟨hasRound2Packages_iff.mpr ((hasRound2Packages_iff.mp h.1).trans hphase), h.2.mono haccepted⟩

theorem hasClosed_of_step {c₀ : HTTPComms S I R1 R2} {app₀ : AppState}
    (hstep : Steps D D.creator now order app₀ c₀ c app letter) (hclosed : c.phase.hasClosed = true) :
    c₀.phase = .closing ∨ c₀.phase.hasClosed = true := by
  have hlive : ∀ {phase : Phase I R1 R2}, Dead phase → phase.hasClosed = false := by
    intro phase hdead
    cases phase with
    | failed _ => rfl
    | cleaned _ => rfl
    | panicked _ => rfl
    | _ => exact absurd hdead not_false
  cases hstep with
  | sent _ _ _ _ _ _ _ _ _ => cases hclosed
  | received stage msgs c₁ phase _ _ _ hfollows =>
    change phase.hasClosed = true at hclosed
    generalize c₁.state = st at hfollows
    cases hfollows with
    | ready _ _ =>
      rw [if_pos rfl] at hclosed
      cases hclosed
    | _ => cases hclosed
  | rejected _ _ _ _ _ _ hdead _ =>
    change Phase.hasClosed _ = true at hclosed
    rw [hlive hdead] at hclosed
    cases hclosed
  | stopped _ _ _ _ hdead _ _ _ =>
    change Phase.hasClosed _ = true at hclosed
    rw [hlive hdead] at hclosed
    cases hclosed
  | part2 _ _ _ _ => cases hclosed
  | closed hphase _ => exact .inl hphase
  | loggedOut hphase =>
    rw [hphase]
    exact .inr rfl
  | cleaned _ _ => cases hclosed

/-- The creator's request to close succeeds. -/
theorem Honest.closes (h : Honest D Matched Synced s)
    (hphase : (s.comms D.creator).phase = .closing)
    (hstep : Steps D D.creator now order s.server (s.comms D.creator) c app letter) :
    c = { s.comms D.creator with phase := .loggingOut } := by
  cases hstep with
  | closed _ _ => rfl
  | stopped _ _ _ hstuck _ _ _ _ =>
    rw [hphase] at hstuck
    cases hstuck with
    | closing e herr =>
      obtain ⟨session, hsession⟩ := Option.ne_none_iff_exists'.mp (h.open_of_closing hphase)
      rw [closeSession_ok_of_serves hsession (h.serves session hsession)] at herr
      cases herr
  | sent _ _ _ _ _ _ hphase' _ _ => rw [hphase] at hphase'; cases hphase'
  | received _ _ _ _ hphase' _ _ _ => rw [hphase] at hphase'; cases hphase'
  | rejected _ _ _ hphase' _ _ _ _ => rw [hphase] at hphase'; cases hphase'
  | part2 _ _ hphase' _ => rw [hphase] at hphase'; cases hphase'
  | loggedOut hphase' => rw [hphase] at hphase'; cases hphase'
  | cleaned _ hphase' => rw [hphase] at hphase'; cases hphase'

/-- A run of honest participants strands nobody exactly when the creator closes the session
only when all Round 2 Packages were sent and the queues of all others are empty. -/
theorem never_stranded_iff (hS : S.InOrder Matched Synced) (hcodec : D.codec.Lawful)
    (hD : D.Distinct) (hlen : 2 ≤ D.pubkeys.len) {es : List Action} :
    ((Network.system S D ∅).restrict fun s a => s.Closes D a →
      ∀ pubkey, Other D D.creator pubkey → s.Drained D pubkey).Run es s ↔
    ((Network.system S D ∅).within (NeverStranded D)).Run es s := by
  refine TransitionSystem.run_restrict_iff_within ?_ ?_
  · rintro s ⟨now, app, order, -, rfl⟩ hclosed
    change (HTTPComms.start D D.creator (order D.creator) : HTTPComms S I R1 R2).phase.hasClosed = true
      at hclosed
    unfold HTTPComms.start at hclosed
    split at hclosed <;> cases hclosed
  · intro s a s' hreach hgood hstep
    cases Network.steps_of_step hstep with
    | corrupted user now request hmem _ => cases hmem
    | participant self now order c app letter hself _ horder hc =>
      have hsteps := steps_of_step hc
      change _ ↔ (s.advance self c app letter).NeverStranded D
      -- at the step that closes the session, the others have everything if and only if nothing
      -- waits for them
      by_cases hcloses : s.Closes D (.participant self now order)
      · obtain ⟨⟨_, _, heq⟩, hphase⟩ := hcloses
        obtain ⟨rfl, -, -⟩ := Action.participant.inj heq
        have h := honest_of_reachable hS hcodec hD hlen hreach
        rw [NeverStranded, comms_advance_self, h.closes hphase hsteps]
        have hothers : (∀ pubkey ∈ D.members, pubkey ≠ D.creator →
            ((s.advance D.creator { s.comms D.creator with phase := .loggingOut } app letter).comms
              pubkey).HasAll D pubkey) ↔
            ∀ pubkey, Other D D.creator pubkey → (s.comms pubkey).HasAll D pubkey := by
          constructor
          · intro hall pubkey hother
            have hnew := hall pubkey hother.1 hother.2
            rwa [comms_advance_of_ne _ _ _ _ hother.2] at hnew
          · intro hall pubkey hmem hne
            rw [comms_advance_of_ne _ _ _ _ hne]
            exact hall pubkey ⟨hmem, hne⟩
        rw [← hasAll_iff_drained hS hcodec hD hlen hreach hphase] at hothers
        constructor
        · intro hcond _
          exact hothers.mpr (hcond ⟨⟨now, order, rfl⟩, hphase⟩)
        · intro hnew _
          exact hothers.mp (hnew rfl)
      · refine iff_of_true (fun h => absurd h hcloses) fun hclosed pubkey hmem hne => ?_
        -- the session was closed before this step
        have hbefore : (s.comms D.creator).phase.hasClosed = true := by
          by_cases hp : D.creator = self
          · subst hp
            rw [comms_advance_self] at hclosed
            obtain hphase | hbefore := hasClosed_of_step hsteps hclosed
            · exact absurd ⟨⟨now, order, rfl⟩, hphase⟩ hcloses
            · exact hbefore
          · rwa [comms_advance_of_ne _ _ _ _ hp] at hclosed
        have hall := hgood hbefore pubkey hmem hne
        by_cases hp : pubkey = self
        · subst hp
          rw [comms_advance_self]
          exact hall.mono hsteps.le.1 hsteps.le.2
        · rwa [comms_advance_of_ne _ _ _ _ hp]

/-- The second of two participants finishes before the first, who is the creator, closes. -/
theorem never_stranded_iff_pair : ∃ s, ((Network.system sampleSnow pair ∅).restrict fun s a =>
    s.Closes pair a → ∀ pubkey, Other pair pair.creator pubkey → s.Drained pair pubkey).Run
      (sampleActions pair [1, 2, 1, 2, 1, 2, 1, 2, 2, 2, 1, 1, 1]) s ∧
        (s.comms pair.creator).phase.hasClosed = true := by
  obtain ⟨s, hrun, hdone⟩ := exists_run_of_sampleExec pair ∅ (NeverStranded pair)
    (fun s => (s.comms pair.creator).phase.hasClosed = true)
    (sampleActions pair [1, 2, 1, 2, 1, 2, 1, 2, 2, 2, 1, 1, 1])
    (by decide) (by decide) (by decide +kernel)
  exact ⟨s, (never_stranded_iff sampleSnow_inOrder sampleCodec_lawful (by decide)
    (by decide)).mpr hrun, hdone⟩

/-- The creator closes while its own Round 2 Package is still queued for the other one. -/
theorem stranded_pair : ∃ s, (Network.system sampleSnow pair ∅).Run
    (sampleActions pair [1, 2, 2, 1, 1, 2, 2, 1, 1, 1]) s ∧ ¬s.NeverStranded pair := by
  obtain ⟨s, hrun, hstranded⟩ := exists_run_of_sampleExec pair ∅ (fun _ => True)
    (fun s => ¬s.NeverStranded pair) (sampleActions pair [1, 2, 2, 1, 1, 2, 2, 1, 1, 1])
    (by decide) trivial (by decide +kernel)
  exact ⟨s, hrun.of_within, hstranded⟩

end FrostTools.Dkg
