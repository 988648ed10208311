import FrostTools.Dkg.Turn

/-!
# Honest messages that are rejected

The payload type that `recv` decodes is chosen by the phase of the receiver. A
faster participant sends its echoes as soon as it has all Round 1 Packages, and they
may reach a participant that still waits for one.
-/

namespace FrostTools.Dkg
open Client Session Frostd DKGSessionState HTTPComms Network

variable {S : Snow} {I R1 R2 : Type*} {D : Setup I R1 R2}

def Rejected : Phase I R1 R2 → Prop
  | .failed (.session _) | .cleaned (.session _) => True
  | _ => False

instance : DecidablePred (Rejected : Phase I R1 R2 → Prop)
  | .failed (.session _) | .cleaned (.session _) => .isTrue trivial
  | .failed (.server _) | .failed (.cipher _) | .failed (.eyre _) | .failed .part2
  | .cleaned (.server _) | .cleaned (.cipher _) | .cleaned (.eyre _) | .cleaned .part2
  | .exchange _ _ | .round1Done _ | .closing | .loggingOut | .finished _
  | .panicked _ => .isFalse not_false

def Network.NeverRejected (D : Setup I R1 R2) (s : Network S I R1 R2) : Prop :=
  ∀ self ∈ D.members, ¬Rejected (s.comms self).phase

instance (D : Setup I R1 R2) (s : Network S I R1 R2) : Decidable (s.NeverRejected D) :=
  inferInstanceAs (Decidable (∀ self ∈ D.members, ¬Rejected (s.comms self).phase))

theorem not_rejected {phase : Phase I R1 R2} (hfailed : ∀ e, phase ≠ .failed (.session e))
    (hcleaned : ∀ e, phase ≠ .cleaned e) : ¬Rejected phase := by
  unfold Rejected
  split
  · next e => exact absurd rfl (hfailed e)
  · next e => exact absurd rfl (hcleaned _)
  · exact not_false

theorem dead_of_rejected {phase : Phase I R1 R2} (h : Rejected phase) : Dead phase := by
  unfold Rejected at h
  split at h <;> trivial

variable [LinearOrder I] [DecidableEq R1] {s : Network S I R1 R2} {self : PublicKey}
  {order : List PublicKey} {c : HTTPComms S I R1 R2} {now : ℕ} {app : AppState}
  {letter : Option (Letter I R1 R2)}

theorem not_rejected_of_quiet (hpositioned : Positioned (s.comms self).state (s.comms self).phase)
    (hphase : ∀ stage, (s.comms self).phase ≠ .exchange stage [])
    (hstep : Steps D self now order s.server (s.comms self) c app letter)
    (h : ¬Rejected (s.comms self).phase) : ¬Rejected c.phase := by
  cases hstep with
  | sent _ _ _ _ _ _ _ _ _ => exact not_false
  | received stage _ _ _ hphase' _ _ _ => exact absurd hphase' (hphase stage)
  | rejected stage _ _ hphase' _ _ _ _ => exact absurd hphase' (hphase stage)
  | stopped _ _ _ _ _ hfailed hcleaned _ => exact not_rejected hfailed hcleaned
  | part2 _ _ _ _ => exact not_false
  | closed _ _ => exact not_false
  | loggedOut hphase' =>
    rw [hphase'] at hpositioned
    obtain ⟨pubkeys, r2, hready⟩ := eq_ready_of_phase hpositioned
    rw [hready]
    exact not_false
  | cleaned e hphase' =>
    rw [hphase'] at h
    cases e <;> exact h

/-- A run of honest participants rejects no message exactly when, at every turn of a
wait loop, the messages sent to the participant so far are in order. -/
theorem never_rejected_iff {Matched : S.HandshakeState → S.HandshakeState → Prop}
    {Synced : S.TransportState → S.TransportState → Prop} (hS : S.InOrder Matched Synced)
    (hcodec : D.codec.Lawful) (hD : D.Distinct) (hlen : 2 ≤ D.pubkeys.len) {es : List Action} :
    ((Network.system S D ∅).restrict fun s a => ∀ self stage, s.Turn D a self stage →
      Ordered D self (s.sentTo self)).Run es s ↔
    ((Network.system S D ∅).within (NeverRejected D)).Run es s := by
  refine run_restrict_turns_iff hS hcodec hD hlen (fun _ c _ => ¬Rejected c.phase)
    (fun s self _ => Ordered D self (s.sentTo self)) ?_ ?_ ?_
  · intro pubkey order
    unfold HTTPComms.start
    split <;> exact not_false
  · intro s self now order c app letter hreach hphase hstep
    exact not_rejected_of_quiet (positioned_of_reachable hreach self) hphase hstep
  · intro s self order stage c _ _ _ hturned
    cases hturned with
    | closed hnone _ hfailed hcleaned =>
      exact iff_of_true (fun hopen => absurd hnone hopen) (not_rejected hfailed hcleaned)
    | followed _ hordered _ hfollows =>
      exact iff_of_true (fun _ => hordered) fun h => hfollows.not_dead (dead_of_rejected h)
    | rejected e hopen hnot hfailed =>
      refine iff_of_false (fun h => hnot (h hopen)) (not_not_intro ?_)
      rw [hfailed]
      trivial

/-- Two participants who poll only when everything is there finish without a rejection,
and all their turns were in order. -/
theorem never_rejected_iff_pair : ∃ s, ((Network.system sampleSnow pair ∅).restrict
    fun s a => ∀ self stage, s.Turn pair a self stage → Ordered pair self (s.sentTo self)).Run
      (sampleActions pair [1, 2, 1, 2, 1, 2, 1, 2, 2, 2, 1, 1, 1]) s ∧
        ∀ self ∈ pair.members, (s.comms self).phase.inRound2 = true := by
  obtain ⟨s, hrun, hdone⟩ := exists_run_of_sampleExec pair ∅ (NeverRejected pair)
    (fun s => ∀ self ∈ pair.members, (s.comms self).phase.inRound2 = true)
    (sampleActions pair [1, 2, 1, 2, 1, 2, 1, 2, 2, 2, 1, 1, 1])
    (by decide) (by decide) (by decide +kernel)
  exact ⟨s, (never_rejected_iff sampleSnow_inOrder sampleCodec_lawful (by decide)
    (by decide)).mpr hrun, hdone⟩

/-- The first two of three participants have sent their Round 1 Packages, the third only
the one for the first. The first then echoes it to the second, which still waits for
that package itself and takes the echo for a malformed one. -/
theorem rejected_trio : ∃ s, (Network.system sampleSnow trio ∅).Run
    (sampleActions trio [1, 1, 2, 2, 3, 1, 1, 2]) s ∧ ¬s.NeverRejected trio := by
  obtain ⟨s, hrun, hrejected⟩ := exists_run_of_sampleExec trio ∅ (fun _ => True)
    (fun s => ¬s.NeverRejected trio) (sampleActions trio [1, 1, 2, 2, 3, 1, 1, 2])
    (by decide) trivial (by decide +kernel)
  exact ⟨s, hrun.of_within, hrejected⟩

end FrostTools.Dkg
