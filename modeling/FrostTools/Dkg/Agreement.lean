import FrostTools.Dkg.Records

/-!
# Agreement on the first-round packages

Corrupted participants may send anything to anyone. What an honest participant
echoes is what it stored when it started to echo, and it never stores anything
else afterwards, so an echo that was checked against one's own package is an
agreement with the honest sender of the echo.
-/

namespace FrostTools.Dkg
open Client Session Frostd HTTPComms

variable {S : Snow} {I R1 R2 : Type*} [LinearOrder I] [DecidableEq R1] {D : Setup I R1 R2}
  {corrupted : Finset PublicKey} {s : Network S I R1 R2}

/-- Every message that an honest participant decrypted as one of another honest
participant was encrypted for it by the cipher of that participant. -/
def Network.Authentic (D : Setup I R1 R2) (corrupted : Finset PublicKey)
    (s : Network S I R1 R2) : Prop :=
  ∀ self ∈ D.members, self ∉ corrupted → ∀ plain ∈ (s.comms self).decrypted,
    plain.sender ∉ corrupted →
      ∃ e ∈ (s.comms plain.sender).produced, e.1 = self ∧ plain.msg = D.codec.encode e.2

instance (D : Setup I R1 R2) (corrupted : Finset PublicKey)
    (s : Network S I R1 R2) : Decidable (s.Authentic D corrupted) :=
  inferInstanceAs (Decidable (∀ self ∈ D.members, _ → ∀ plain ∈ (s.comms self).decrypted, _ →
    ∃ e ∈ (s.comms plain.sender).produced, _ ∧ _))

/-- What an honest participant accepts from an honest one is vouched for by it, and
is not from itself. -/
theorem vouched_of_accepted (hcodec : D.codec.Lawful) (h : (Network.system S D corrupted).Reachable s)
    (hauth : s.Authentic D corrupted) {self sender : PublicKey} (hself : self ∈ D.members)
    (hhonest : self ∉ corrupted) (hsender : sender ∉ corrupted) {p : Payload I R1 R2}
    (hmem : (sender, p) ∈ (s.comms self).accepted) :
    sender ≠ self ∧ Vouched D sender (s.comms sender).accepted self p := by
  obtain ⟨st, b, hb, hp⟩ := (recorded_of_reachable h self).decoded _ hmem
  obtain ⟨⟨_, payload⟩, hproduced, rfl, hencode⟩ := hauth self hself hhonest _ hb hsender
  change b = D.codec.encode payload at hencode
  rw [hencode] at hp
  obtain rfl := hcodec.payload_encode hp
  obtain ⟨-, hne, hvouched⟩ := (recorded_of_reachable h sender).produced _ hproduced
  exact ⟨Ne.symm hne, hvouched⟩

theorem represents_of_used (hlen : 2 ≤ D.pubkeys.len) {self : PublicKey} {c : HTTPComms S I R1 R2}
    {r1 : Map I R1} (h : c.Used D self r1) :
    ∃ l, l <+: c.accepted ∧ DKGSessionState.Collected .round1 D.pubkeys l r1 ∧
      DKGSessionState.Echoed D.pubkeys l r1 ∧ r1.len = D.pubkeys.len - 1 := by
  obtain ⟨r2, l, hle, hreaches⟩ := h
  cases hreaches.represents hlen with
  | waitingForRound2Packages _ _ hcollected hechoed _ hfull _ _ =>
    exact ⟨l, hle, hcollected, hechoed, hfull⟩

/-- A participant whose state has reached the second round used some first-round packages. -/
theorem exists_used (hlen : 2 ≤ D.pubkeys.len)
    (h : (Network.system S D corrupted).Reachable s) {self : PublicKey}
    (hlive : ¬Dead (s.comms self).phase) (hphase : 2 ≤ (s.comms self).state.phase) :
    ∃ r1, (s.comms self).Used D self r1 := by
  have hreaches := (recorded_of_reachable h self).current hlive
  obtain ⟨l, r1, r2, hle, hwaits⟩ := hreaches.waited hlen hphase
  exact ⟨r1, r2, l, hle, hwaits⟩

/-- Two honest participants among three or more used the same package of every other
participant, corrupted or not, and the package that each of the two sent. -/
theorem echo_broadcast_agreement (hcodec : D.codec.Lawful) (hn : 3 ≤ D.pubkeys.len)
    (h : (Network.system S D corrupted).Reachable s) (hauth : s.Authentic D corrupted)
    {A B : PublicKey} (hA : A ∈ D.members) (hB : B ∈ D.members) (hAhonest : A ∉ corrupted)
    (hBhonest : B ∉ corrupted) (hAB : A ≠ B) {rA rB : Map I R1}
    (hrA : (s.comms A).Used D A rA) (hrB : (s.comms B).Used D B rB) :
    (∀ O ∈ D.members, O ≠ A → O ≠ B → ∃ package,
      rA.lookup (D.identifier O) = some package ∧ rB.lookup (D.identifier O) = some package) ∧
    rA.lookup (D.identifier B) = some (D.round1Package B) := by
  obtain ⟨l, hle, hcollected, hechoed, hfull⟩ := represents_of_used (by omega) hrA
  have hself : ∀ e ∈ l, e.1 ≠ A := by
    rintro ⟨sender, p⟩ he rfl
    exact (vouched_of_accepted hcodec h hauth hA hAhonest hAhonest (hle.subset he)).1 rfl
  obtain ⟨hinj, hall⟩ := hcollected.full hfull (Setup.mem_keys_pubkeys.mpr hA) hself
  have hother : ∀ {pubkey}, pubkey ∈ D.members → pubkey ≠ A → pubkey ∈ D.pubkeys.keys.erase A :=
    fun hmem hne => Finset.mem_erase.mpr ⟨hne, Setup.mem_keys_pubkeys.mpr hmem⟩
  have hkeys : ∀ {pubkey}, pubkey ∈ D.members → pubkey ≠ A → D.identifier pubkey ∈ rA.keys := by
    intro pubkey hmem hne
    obtain ⟨identifier, hid, hlookup⟩ := hall pubkey (hother hmem hne)
    rwa [(Setup.lookup_pubkeys_iff.mp hlookup).2] at hid
  -- B is the only sender in `l` with the identifier of B
  have hsender : ∀ {pubkey p}, (pubkey, p) ∈ l → D.pubkeys.lookup pubkey = some (D.identifier B) →
      pubkey = B := by
    intro pubkey p hmem hlookup
    have hmember := (Setup.lookup_pubkeys_iff.mp hlookup).1
    exact hinj (hother hmember (hself _ hmem)) (hother hB (Ne.symm hAB))
      (hlookup.trans (Setup.lookup_pubkeys hB).symm)
  refine ⟨fun O hO hOA hOB => ?_, ?_⟩
  · have hne : D.identifier O ≠ D.identifier B := by
      intro heq
      refine hOB (hinj (hother hO hOA) (hother hB (Ne.symm hAB)) ?_)
      rw [Setup.lookup_pubkeys hO, Setup.lookup_pubkeys hB, heq]
    obtain ⟨pubkey, package, hlookup, hr1, hmem⟩ :=
      hechoed (by omega) _ (hkeys hO hOA) _ (hkeys hB (Ne.symm hAB)) hne
    obtain rfl := hsender hmem hlookup
    obtain ⟨-, -, st, r1, hpassed, hr, hpackage⟩ :=
      vouched_of_accepted hcodec h hauth hA hAhonest hBhonest (hle.subset hmem)
    obtain ⟨r2, hused⟩ := hrB
    obtain rfl := hpassed.frozen hused hr rfl
    exact ⟨package, hr1, hpackage⟩
  · obtain ⟨package, hp⟩ := Map.mem_keys_iff.mp (hkeys hB (Ne.symm hAB))
    obtain ⟨pubkey, hlookup, hmem⟩ := hcollected.sent _ _ hp
    obtain rfl := hsender hmem hlookup
    obtain ⟨-, hvouched⟩ := vouched_of_accepted hcodec h hauth hA hAhonest hBhonest (hle.subset hmem)
    change package = D.round1Package pubkey at hvouched
    rw [hp, hvouched]

/-- A message of the third of three participants, who is corrupted. -/
def Network.corruptedSend (recipient : PublicKey) (msg : Bytes) : Action :=
  .corrupted (trio.user ⟨[3]⟩) 0 (.send ⟨trio.sessionId, [recipient], msg⟩)

/-- The third participant sends a package that is not its own, and echoes. -/
def Network.corruptedRun : List Action :=
  sampleActions trio [1, 1, 2, 2] ++
    [corruptedSend ⟨[1]⟩ [3, 1, 1, 7], corruptedSend ⟨[2]⟩ [3, 2, 1, 7]] ++
    sampleActions trio [1, 2, 1, 1, 2, 2] ++
    [corruptedSend ⟨[1]⟩ [0, 2, 2, 2], corruptedSend ⟨[2]⟩ [0, 2, 1, 1]] ++
    sampleActions trio [1, 2]

open Network in
theorem echo_broadcast_agreement_trio : ∃ s rA rB,
    (Network.system sampleSnow trio {⟨[3]⟩}).Run corruptedRun s ∧
    (s.comms ⟨[1]⟩).Used trio ⟨[1]⟩ rA ∧ (s.comms ⟨[2]⟩).Used trio ⟨[2]⟩ rB ∧
    (∀ O ∈ trio.members, O ≠ ⟨[1]⟩ → O ≠ ⟨[2]⟩ → ∃ package,
      rA.lookup (trio.identifier O) = some package ∧ rB.lookup (trio.identifier O) = some package) ∧
    rA.lookup (trio.identifier ⟨[2]⟩) = some (trio.round1Package ⟨[2]⟩) := by
  obtain ⟨s, hrun, hauth, hA, hB⟩ := exists_run_of_sampleExec trio {⟨[3]⟩} (fun _ => True)
    (fun s => s.Authentic trio {⟨[3]⟩} ∧
      (¬Dead (s.comms ⟨[1]⟩).phase ∧ 2 ≤ (s.comms ⟨[1]⟩).state.phase) ∧
      ¬Dead (s.comms ⟨[2]⟩).phase ∧ 2 ≤ (s.comms ⟨[2]⟩).state.phase)
    corruptedRun (by decide) trivial (by decide +kernel)
  have hreach := hrun.of_within.reachable
  obtain ⟨rA, hrA⟩ := exists_used (by decide) hreach hA.1 hA.2
  obtain ⟨rB, hrB⟩ := exists_used (by decide) hreach hB.1 hB.2
  exact ⟨s, rA, rB, hrun.of_within, hrA, hrB, echo_broadcast_agreement sampleCodec_lawful
    (by decide) hreach hauth (by decide) (by decide) (by decide) (by decide) (by decide) hrA hrB⟩

end FrostTools.Dkg
