import FrostTools.Dkg.Turn

/-!
# Wait loops that are overrun

The exit test of a wait loop is made after a whole batch, and knows only some of the
states past the one it waits for. A batch that leads to `round2PackagesReady` leaves
the participant in the first or the second loop for ever.
-/

namespace FrostTools.Dkg
open Client Session Frostd DKGSessionState HTTPComms Network

variable {S : Snow} {I R1 R2 : Type*} {D : Setup I R1 R2}

/-- The participant is in a wait loop although its session state has reached the phase
that the loop waits for. -/
def HTTPComms.Overrun (c : HTTPComms S I R1 R2) : Prop :=
  match c.phase with
  | .exchange stage _ => stage.round < c.state.phase
  | _ => False

instance (c : HTTPComms S I R1 R2) : Decidable c.Overrun :=
  match h : c.phase with
  | .exchange stage _ => decidable_of_iff (stage.round < c.state.phase) (by rw [Overrun, h])
  | .round1Done _ | .closing | .loggingOut | .finished _ | .failed _ | .cleaned _
  | .panicked _ => .isFalse (by rw [Overrun, h]; exact not_false)

def Network.NeverOverrun (D : Setup I R1 R2) (s : Network S I R1 R2) : Prop :=
  ∀ self ∈ D.members, ¬(s.comms self).Overrun

instance (D : Setup I R1 R2) (s : Network S I R1 R2) : Decidable (s.NeverOverrun D) :=
  inferInstanceAs (Decidable (∀ self ∈ D.members, ¬(s.comms self).Overrun))

section Phases

variable {c : HTTPComms S I R1 R2}

theorem HTTPComms.overrun_iff {stage : Stage} {todo : Todo I R1 R2} (h : c.phase = .exchange stage todo) :
    c.Overrun ↔ stage.round < c.state.phase := by
  rw [Overrun, h]

theorem not_overrun (h : ∀ stage todo, c.phase ≠ .exchange stage todo) : ¬c.Overrun := by
  unfold Overrun
  split
  · next stage todo hphase => exact absurd hphase (h stage todo)
  · exact not_false

theorem not_overrun_of_dead (h : Dead c.phase) : ¬c.Overrun := by
  refine not_overrun fun stage todo hphase => ?_
  rw [hphase] at h
  exact h

theorem exitTest_iff {stage : Stage} {st : DKGSessionState I R1 R2} :
    exitTest stage st = true ↔ stage.round < st.phase ∧ (3 ≤ st.phase → stage = .round2) := by
  cases stage <;> cases st <;>
    simp [exitTest, hasRound1Packages, hasRound1BroadcastPackages, hasRound2Packages,
      DKGSessionState.phase, Stage.round]

end Phases

variable [LinearOrder I] [DecidableEq R1] {s : Network S I R1 R2} {self : PublicKey}
  {order : List PublicKey} {c : HTTPComms S I R1 R2} {now : ℕ} {app : AppState}
  {letter : Option (Letter I R1 R2)}

/-- Only a turn of a wait loop can overrun it. -/
theorem not_overrun_of_quiet (hpositioned : Positioned (s.comms self).state (s.comms self).phase)
    (hphase : ∀ stage, (s.comms self).phase ≠ .exchange stage [])
    (hstep : Steps D self now order s.server (s.comms self) c app letter)
    (h : ¬(s.comms self).Overrun) : ¬c.Overrun := by
  cases hstep with
  | sent stage recipient payload todo msg cipher hsending _ _ =>
    rw [overrun_iff hsending] at h
    rwa [overrun_iff rfl]
  | received stage _ _ _ hphase' _ _ _ => exact absurd hphase' (hphase stage)
  | rejected stage _ _ hphase' _ _ _ _ => exact absurd hphase' (hphase stage)
  | stopped _ _ _ _ hdead _ _ _ => exact not_overrun_of_dead hdead
  | part2 r1 r2 hphase' _ =>
    rw [hphase'] at hpositioned
    obtain ⟨pubkeys, r2, hst⟩ := hpositioned
    rw [overrun_iff rfl]
    change ¬2 < (s.comms self).state.phase
    rw [hst]
    exact lt_irrefl 2
  | closed _ _ => exact not_overrun nofun
  | loggedOut _ =>
    obtain ⟨phase, heq, hcases⟩ := enter_eq (c := s.comms self) Phase.finished
      (s.comms self).state.round2Packages
    rw [heq]
    obtain hdead | ⟨_, -, rfl⟩ := hcases
    · exact not_overrun_of_dead hdead
    · exact not_overrun nofun
  | cleaned _ _ => exact not_overrun nofun

omit [DecidableEq R1] in
/-- A loop is overrun when its exit test fails on a state that has reached the phase. -/
theorem Follows.overrun_iff {stage : Stage} (h : Follows D self order stage c.state c.phase) :
    c.Overrun ↔ exitTest stage c.state = false ∧ stage.round < c.state.phase := by
  obtain ⟨cipher, st, phase, produced, decrypted, accepted⟩ := c
  dsimp only at h ⊢
  cases h with
  | waits _ _ hexit =>
    rw [HTTPComms.overrun_iff rfl]
    exact (and_iff_right hexit).symm
  | broadcasts _ _ _ =>
    rw [HTTPComms.overrun_iff rfl]
    exact iff_of_false (lt_irrefl 1) nofun
  | skips _ _ _ => exact iff_of_false (not_overrun nofun) nofun
  | echoed _ _ _ => exact iff_of_false (not_overrun nofun) nofun
  | ready _ _ =>
    refine iff_of_false (not_overrun ?_) nofun
    intro _ _
    dsimp only
    split_ifs <;> nofun

omit [DecidableEq R1] in
theorem Follows.not_overrun_iff {stage : Stage} (h : Follows D self order stage c.state c.phase) :
    ¬c.Overrun ↔ (stage ≠ .round2 → ¬3 ≤ c.state.phase) := by
  rw [h.overrun_iff, ← Bool.not_eq_true, exitTest_iff]
  have hround : stage.round ≤ 2 := by cases stage <;> simp [Stage.round]
  constructor
  · intro hno hstage hlast
    exact hno ⟨fun hexit => hstage (hexit.2 hlast), lt_of_le_of_lt hround hlast⟩
  · rintro hno ⟨hexit, hlt⟩
    exact hexit ⟨hlt, fun hlast => by_contra fun hstage => hno hstage hlast⟩

/-- A run of honest participants overruns no wait loop exactly when no turn of the first
two loops finds that all messages of all rounds were sent to the participant, in order. -/
theorem never_overrun_iff {Matched : S.HandshakeState → S.HandshakeState → Prop}
    {Synced : S.TransportState → S.TransportState → Prop} (hS : S.InOrder Matched Synced)
    (hcodec : D.codec.Lawful) (hD : D.Distinct) (hlen : 2 ≤ D.pubkeys.len) {es : List Action} :
    ((Network.system S D ∅).restrict fun s a => ∀ self stage, s.Turn D a self stage →
      stage ≠ .round2 → ¬(Ordered D self (s.sentTo self) ∧ HasRound1 D self (s.sentTo self) ∧
        HasEchoes D self (s.sentTo self) ∧ HasRound2 D self (s.sentTo self))).Run es s ↔
    ((Network.system S D ∅).within (NeverOverrun D)).Run es s := by
  refine run_restrict_turns_iff hS hcodec hD hlen (fun _ c _ => ¬c.Overrun)
    (fun s self stage => stage ≠ .round2 → ¬(Ordered D self (s.sentTo self) ∧
      HasRound1 D self (s.sentTo self) ∧ HasEchoes D self (s.sentTo self) ∧
      HasRound2 D self (s.sentTo self))) ?_ ?_ ?_
  · intro pubkey order
    unfold HTTPComms.start
    split
    · exact (overrun_iff rfl).not.mpr (lt_irrefl 0)
    · exact not_overrun nofun
  · intro s self now order c app letter hreach hphase hstep
    exact not_overrun_of_quiet (positioned_of_reachable hreach self) hphase hstep
  · intro s self order stage c hreach hself hphase hturned
    cases hturned with
    | closed hnone hdead _ _ =>
      exact iff_of_true (fun hopen => absurd hnone hopen) (not_overrun_of_dead hdead)
    | rejected e hopen hnot hfailed =>
      refine iff_of_true (fun _ _ h => hnot h.1) (not_overrun fun stage todo heq => ?_)
      rw [hfailed] at heq
      cases heq
    | followed hopen hordered hreaches hfollows =>
      have hhonest := honest_of_reachable hS hcodec hD hlen hreach
      obtain ⟨-, -, hlast⟩ := phase_iff hD hself hlen (hhonest.valid self hself) hreaches
      rw [hfollows.not_overrun_iff, hlast]
      constructor
      · intro h hstage hall
        exact h hopen hstage ⟨hordered, hall⟩
      · intro h _ hstage hall
        exact h hstage hall.2

theorem never_overrun_iff_pair : ∃ s, ((Network.system sampleSnow pair ∅).restrict
    fun s a => ∀ self stage, s.Turn pair a self stage → stage ≠ .round2 →
      ¬(Ordered pair self (s.sentTo self) ∧ HasRound1 pair self (s.sentTo self) ∧
        HasEchoes pair self (s.sentTo self) ∧ HasRound2 pair self (s.sentTo self))).Run
      (sampleActions pair [1, 2, 1, 2, 1, 2, 1, 2, 2, 2, 1, 1, 1]) s ∧
        ∀ self ∈ pair.members, (s.comms self).phase.inRound2 = true := by
  obtain ⟨s, hrun, hdone⟩ := exists_run_of_sampleExec pair ∅ (NeverOverrun pair)
    (fun s => ∀ self ∈ pair.members, (s.comms self).phase.inRound2 = true)
    (sampleActions pair [1, 2, 1, 2, 1, 2, 1, 2, 2, 2, 1, 1, 1])
    (by decide) (by decide) (by decide +kernel)
  exact ⟨s, (never_overrun_iff sampleSnow_inOrder sampleCodec_lawful (by decide)
    (by decide)).mpr hrun, hdone⟩

/-- The second of two participants receives both packages of the first in one batch, and
waits for the Round 1 Package with a state that is past the second round. -/
theorem overrun_pair : ∃ s, (Network.system sampleSnow pair ∅).Run
    (sampleActions pair [1, 2, 1, 1, 1, 2]) s ∧ ¬s.NeverOverrun pair := by
  obtain ⟨s, hrun, hoverrun⟩ := exists_run_of_sampleExec pair ∅ (fun _ => True)
    (fun s => ¬s.NeverOverrun pair) (sampleActions pair [1, 2, 1, 1, 1, 2])
    (by decide) trivial (by decide +kernel)
  exact ⟨s, hrun.of_within, hoverrun⟩

end FrostTools.Dkg
