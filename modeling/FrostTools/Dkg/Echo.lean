import FrostTools.Dkg.Turn
import Mathlib.Data.Finset.Prod

/-!
# Echoes that are skipped

A participant broadcasts after the first wait loop unless the broadcast is already
complete. A batch with the Round 1 Packages and the echoes of all others completes it
before the participant has sent any echo of its own.
-/

namespace FrostTools.Dkg
open Client Session Frostd DKGSessionState HTTPComms Network

variable {S : Snow} {I R1 R2 : Type*} {D : Setup I R1 R2} {self : PublicKey}

section Kinds

variable {l : List (PublicKey × Payload I R1 R2)}

/-- Different messages of different kinds: a kind picks one out. -/
theorem filter_kind_eq_singleton [DecidableEq I] (h : (kinds l).Nodup)
    {e : PublicKey × Payload I R1 R2} (he : e ∈ l) :
    l.filter (fun e' => (e'.1, e'.2.kind) = (e.1, e.2.kind)) = [e] := by
  classical
  have hsame : ∀ e' ∈ l, (e'.1, e'.2.kind) = (e.1, e.2.kind) ↔ e' = e := by
    intro e' he'
    constructor
    · exact fun heq => List.inj_on_of_nodup_map h he' he heq
    · exact fun heq => by rw [heq]
  have hfilter : l.filter (fun e' => (e'.1, e'.2.kind) = (e.1, e.2.kind)) =
      l.filter fun e' => e' = e := by
    apply List.filter_congr
    intro e' he'
    exact decide_eq_decide.mpr (hsame e' he')
  rw [hfilter, List.filter_eq, List.count_eq_one_of_mem (List.Nodup.of_map _ h) he]
  rfl

end Kinds

variable [LinearOrder I]

/-- One echo for every recipient and every other original sender was sent, with the
package that is stored for the original sender, and no other echo. -/
def EchoesSent (D : Setup I R1 R2) (self : PublicKey) (r1 : Map I R1)
    (sent : List (PublicKey × Payload I R1 R2)) : Prop :=
  (∀ recipient ∈ D.members, recipient ≠ self → ∀ original ∈ D.members, original ≠ self →
    original ≠ recipient → ∃ package ∈ r1.lookup (D.identifier original),
      sent.filter (fun e => (e.1, e.2.kind) = (recipient, .broadcast (D.identifier original) ())) =
        [(recipient, .broadcast (D.identifier original) package)]) ∧
  (sent.filter fun e => e.2.round = 1).length = (D.pubkeys.len - 1) * (D.pubkeys.len - 2)

/-- Whoever returns from `get_round1_packages` has sent all its echoes. -/
def HTTPComms.Echoes (D : Setup I R1 R2) (self : PublicKey) {S : Snow} (c : HTTPComms S I R1 R2)
    (sent : List (PublicKey × Payload I R1 R2)) : Prop :=
  match c.phase with
  | .round1Done r1 => EchoesSent D self r1 sent
  | _ => True

instance [DecidableEq R1] [DecidableEq R2] (D : Setup I R1 R2) (self : PublicKey) (r1 : Map I R1)
    (sent : List (PublicKey × Payload I R1 R2)) : Decidable (EchoesSent D self r1 sent) :=
  inferInstanceAs (Decidable (_ ∧ _))

instance [DecidableEq R1] [DecidableEq R2] (D : Setup I R1 R2) (self : PublicKey)
    (c : HTTPComms S I R1 R2) (sent : List (PublicKey × Payload I R1 R2)) :
    Decidable (c.Echoes D self sent) :=
  match h : c.phase with
  | .round1Done r1 => decidable_of_iff (EchoesSent D self r1 sent) (by rw [Echoes, h])
  | .exchange _ _ | .closing | .loggingOut | .finished _ | .failed _ | .cleaned _
  | .panicked _ => .isTrue (by rw [Echoes, h]; trivial)

def Network.NeverSkipped (D : Setup I R1 R2) (s : Network S I R1 R2) : Prop :=
  ∀ self ∈ D.members, (s.comms self).Echoes D self (s.sentBy self)

instance [DecidableEq R1] [DecidableEq R2] (D : Setup I R1 R2) (s : Network S I R1 R2) :
    Decidable (s.NeverSkipped D) :=
  inferInstanceAs (Decidable (∀ self ∈ D.members, (s.comms self).Echoes D self (s.sentBy self)))

section Sent

variable {c : HTTPComms S I R1 R2} {sent : List (PublicKey × Payload I R1 R2)}

theorem echoes_of_phase (h : ∀ r1, c.phase ≠ .round1Done r1) : c.Echoes D self sent := by
  unfold Echoes
  split
  · next r1 hphase => exact absurd hphase (h r1)
  · trivial

theorem echoes_iff {r1 : Map I R1} (h : c.phase = .round1Done r1) :
    c.Echoes D self sent ↔ EchoesSent D self r1 sent := by
  rw [Echoes, h]

omit [LinearOrder I] in
theorem card_others (hself : self ∈ D.members) :
    (D.pubkeys.keys.erase self).card = D.pubkeys.len - 1 :=
  Finset.card_erase_of_mem (Setup.mem_keys_pubkeys.mpr hself)

omit [LinearOrder I] in
theorem mem_others {pubkey : PublicKey} :
    pubkey ∈ D.pubkeys.keys.erase self ↔ Other D self pubkey := by
  rw [Finset.mem_erase, Setup.mem_keys_pubkeys, Other, and_comm]

/-- Messages of different kinds that hold the echo of every pair of others, and no
other echo, hold as many echoes as there are such pairs. -/
theorem length_echoes (hD : D.Distinct) (hself : self ∈ D.members) (hnodup : (kinds sent).Nodup)
    (hall : HasEchoes D self sent)
    (honly : ∀ e ∈ sent, e.2.round = 1 → ∃ original, Other D self e.1 ∧ Other D self original ∧
      e.1 ≠ original ∧ e.2.kind = .broadcast (D.identifier original) ()) :
    (sent.filter fun e => e.2.round = 1).length = (D.pubkeys.len - 1) * (D.pubkeys.len - 2) := by
  let pairs := (D.pubkeys.keys.erase self).offDiag
  let echo : PublicKey × PublicKey → PublicKey × Payload I Unit Unit :=
    fun p => (p.1, .broadcast (D.identifier p.2) ())
  have hkinds : (kinds (sent.filter fun e => e.2.round = 1)).Nodup :=
    hnodup.sublist (List.filter_sublist.map _)
  have himage : (kinds (sent.filter fun e => e.2.round = 1)).toFinset = pairs.image echo := by
    ext ⟨recipient, k⟩
    rw [List.mem_toFinset, Finset.mem_image]
    constructor
    · intro hmem
      obtain ⟨e, he, heq⟩ := List.mem_map.mp hmem
      obtain ⟨he, hround⟩ := List.mem_filter.mp he
      obtain ⟨rfl, hkind⟩ := Prod.mk.inj heq
      obtain ⟨original, hrecipient, horiginal, hne, hecho⟩ := honly e he (of_decide_eq_true hround)
      refine ⟨(e.1, original), ?_, ?_⟩
      · exact Finset.mem_offDiag.mpr ⟨mem_others.mpr hrecipient, mem_others.mpr horiginal, hne⟩
      · exact Prod.ext rfl (hecho.symm.trans hkind)
    · rintro ⟨⟨recipient', original⟩, hpair, heq⟩
      obtain ⟨rfl, rfl⟩ := Prod.mk.inj heq
      obtain ⟨hrecipient, horiginal, hne⟩ := Finset.mem_offDiag.mp hpair
      have hecho := hall recipient' (mem_others.mp hrecipient) original (mem_others.mp horiginal)
        (Ne.symm hne)
      obtain ⟨package, hmem⟩ := mem_kinds_broadcast.mp hecho
      exact mem_kinds_broadcast.mpr ⟨package, List.mem_filter.mpr ⟨hmem, rfl⟩⟩
  -- the echoes are counted by the pairs of a recipient and an original sender
  have hinj : Set.InjOn echo pairs := by
    intro p hp p' hp' heq
    obtain ⟨hrecipient, hecho⟩ := Prod.mk.inj heq
    obtain ⟨hid, -⟩ := Payload.broadcast.inj hecho
    have horiginal := mem_others.mp (Finset.mem_offDiag.mp hp).2.1
    have horiginal' := mem_others.mp (Finset.mem_offDiag.mp hp').2.1
    exact Prod.ext hrecipient (hD _ horiginal.1 _ horiginal'.1 hid)
  have hcard : pairs.card = (D.pubkeys.len - 1) * (D.pubkeys.len - 2) := by
    rw [Finset.offDiag_card, card_others hself, ← Nat.mul_sub_one]
    rfl
  rw [← hcard, ← Finset.card_image_of_injOn hinj, ← himage, List.toFinset_card_of_nodup hkinds]
  exact (List.length_map _).symm

end Sent

variable [DecidableEq R1] {s : Network S I R1 R2} {Matched : S.HandshakeState → S.HandshakeState → Prop}
  {Synced : S.TransportState → S.TransportState → Prop}

theorem Honest.echoesSent (h : Honest D Matched Synced s) (hD : D.Distinct)
    (hlen : 2 ≤ D.pubkeys.len) (hself : self ∈ D.members) (hrecorded : Recorded D self (s.comms self))
    (hphase : (s.comms self).phase = .exchange .broadcast []) {st : DKGSessionState I R1 R2}
    (hreaches : Reaches (D.identifier self) D.pubkeys (s.sentTo self) st) {r1 : Map I R1}
    (hr1 : st.round1Packages = .ok r1) : EchoesSent D self r1 (s.sentBy self) := by
  have hplanned := h.planned self hself
  have hnodup := hplanned.nodup
  have hall := hplanned.broadcast [] hphase
  rw [(h.sent self).2 (by rw [hphase]; exact not_false)]
  rw [hphase] at hnodup
  change (kinds ((s.comms self).produced ++ [])).Nodup at hnodup
  change HasEchoes D self ((s.comms self).produced ++ []) at hall
  rw [List.append_nil] at hnodup hall
  -- an echo carries the package of the state in which it was prepared
  have hpackage : ∀ recipient original package,
      (recipient, .broadcast original package) ∈ (s.comms self).produced →
        r1.lookup original = some package := by
    intro recipient original package hmem
    obtain ⟨-, -, -, st', r1', hpassed, hr1', hp⟩ := hrecorded.produced _ hmem
    have hpassed' := hpassed.mono (h.accepted self hself)
    rwa [← hpassed'.frozen ⟨_, List.prefix_rfl, hreaches⟩ hr1' hr1]
  refine ⟨fun recipient hrecipient hne original horiginal hneo hnes => ?_, ?_⟩
  · obtain ⟨package, hmem⟩ := mem_kinds_broadcast.mp
      (hall recipient ⟨hrecipient, hne⟩ original ⟨horiginal, hneo⟩ hnes)
    exact ⟨package, hpackage _ _ _ hmem, filter_kind_eq_singleton hnodup hmem⟩
  · refine length_echoes hD hself hnodup hall fun e he hround => ?_
    have hsendable := hrecorded.produced e he
    have hexpected := expected_of_sendable hD hself hlen (h.valid_accepted hself) hsendable
    obtain ⟨recipient, p⟩ := e
    cases p with
    | broadcast original package =>
      obtain ⟨pubkey, hmem, hne, hnes, rfl, -⟩ := hexpected
      exact ⟨pubkey, ⟨hsendable.1, hsendable.2.1⟩, ⟨hmem, hnes⟩, Ne.symm hne, rfl⟩
    | _ => cases hround

omit [DecidableEq R1] in
theorem Honest.not_echoesSent (h : Honest D Matched Synced s)
    (hlen : 3 ≤ D.pubkeys.len) (hself : self ∈ D.members)
    (hphase : (s.comms self).phase = .exchange .round1 []) (r1 : Map I R1) :
    ¬EchoesSent D self r1 (s.sentBy self) := by
  rintro ⟨hall, -⟩
  have hcard : 1 < (D.pubkeys.keys.erase self).card := by
    rw [card_others hself]
    omega
  obtain ⟨recipient, hrecipient, original, horiginal, hne⟩ := Finset.one_lt_card.mp hcard
  obtain ⟨hmem, hself'⟩ := mem_others.mp hrecipient
  obtain ⟨hmem', hself''⟩ := mem_others.mp horiginal
  obtain ⟨package, -, hfilter⟩ := hall recipient hmem hself' original hmem' hself'' (Ne.symm hne)
  have hsent := List.mem_of_mem_filter (hfilter ▸ List.mem_singleton_self
    (recipient, Payload.broadcast (D.identifier original) package))
  have hround := (h.planned self hself).produced_round _ ((h.sent self).1.subset hsent)
  rw [hphase] at hround
  exact absurd hround (by simp [Payload.round, Phase.round, Stage.round])

/-- In a run of three or more honest participants none skips its echoes exactly when no
turn of the first wait loop finds that all Round 1 Packages and all echoes were sent to the
participant, in order, and not yet all Round 2 Packages. -/
theorem never_skipped_iff (hS : S.InOrder Matched Synced) (hcodec : D.codec.Lawful)
    (hD : D.Distinct) (hlen : 3 ≤ D.pubkeys.len) {es : List Action} :
    ((Network.system S D ∅).restrict fun s a => ∀ self stage, s.Turn D a self stage →
      stage = .round1 → ¬(Ordered D self (s.sentTo self) ∧ HasRound1 D self (s.sentTo self) ∧
        HasEchoes D self (s.sentTo self) ∧ ¬HasRound2 D self (s.sentTo self))).Run es s ↔
    ((Network.system S D ∅).within (NeverSkipped D)).Run es s := by
  have hlen2 : 2 ≤ D.pubkeys.len := Nat.le_of_succ_le hlen
  -- only a turn of the first loop can lead past the echoes, and what it does depends on the queue
  refine run_restrict_turns_iff hS hcodec hD hlen2 (fun self c sent => c.Echoes D self sent)
    (fun s self stage => stage = .round1 → ¬(Ordered D self (s.sentTo self) ∧
      HasRound1 D self (s.sentTo self) ∧ HasEchoes D self (s.sentTo self) ∧
      ¬HasRound2 D self (s.sentTo self))) ?_ ?_ ?_
  · intro pubkey order
    apply echoes_of_phase
    unfold HTTPComms.start
    split <;> (intro r1 heq; cases heq)
  · intro s self now order c app letter hreach hphase hstep _
    apply echoes_of_phase
    intro r1 hdone
    cases hstep with
    | sent _ _ _ _ _ _ _ _ _ => cases hdone
    | received stage _ _ _ hphase' _ _ _ => exact hphase stage hphase'
    | rejected stage _ _ hphase' _ _ _ _ => exact hphase stage hphase'
    | stopped _ _ _ _ hdead _ _ _ =>
      change _ = _ at hdone
      subst hdone
      exact hdead
    | part2 _ _ _ _ => cases hdone
    | closed _ _ => cases hdone
    | loggedOut _ =>
      obtain ⟨phase, heq, hcases⟩ := enter_eq (c := s.comms self) Phase.finished
        (s.comms self).state.round2Packages
      rw [heq] at hdone
      change phase = _ at hdone
      subst hdone
      obtain hdead | ⟨_, -, heq⟩ := hcases
      · exact hdead
      · cases heq
    | cleaned _ _ => cases hdone
  · intro s self order stage c hreach hself hphase hturned
    have hhonest := honest_of_reachable hS hcodec hD hlen2 hreach
    cases hturned with
    | closed hnone hdead _ _ =>
      refine iff_of_true (fun hopen => absurd hnone hopen) (echoes_of_phase fun r1 hdone => ?_)
      rw [hdone] at hdead
      exact hdead
    -- a participant that has failed is not past the broadcast
    | rejected e hopen hnot hfailed =>
      refine iff_of_true (fun _ _ h => hnot h.1) (echoes_of_phase fun r1 hdone => ?_)
      rw [hfailed] at hdone
      cases hdone
    | followed hopen hordered hreaches hfollows =>
      obtain ⟨-, htwo, hthree⟩ := phase_iff hD hself hlen2 (hhonest.valid self hself) hreaches
      -- the condition says that the batch does not lead to the second round
      have hcond : (D.record s.server ≠ none → stage = .round1 →
          ¬(Ordered D self (s.sentTo self) ∧ HasRound1 D self (s.sentTo self) ∧
            HasEchoes D self (s.sentTo self) ∧ ¬HasRound2 D self (s.sentTo self))) ↔
          (stage = .round1 → c.state.phase ≠ 2) := by
        constructor
        · intro h hstage hphase2
          obtain ⟨h1, h2⟩ := htwo.mp hphase2.ge
          refine h hopen hstage ⟨hordered, h1, h2, fun h3 => ?_⟩
          have := hthree.mpr ⟨h1, h2, h3⟩
          omega
        · rintro h _ hstage ⟨-, h1, h2, h3⟩
          have hge := htwo.mpr ⟨h1, h2⟩
          have hlt : ¬3 ≤ c.state.phase := fun h => h3 (hthree.mp h).2.2
          have hne := h hstage
          omega
      refine hcond.trans ?_
      generalize hst : c.state = st at hreaches hfollows
      generalize hp : c.phase = phase at hfollows
      cases hfollows with
      | waits _ _ hexit =>
        refine iff_of_true (fun hstage hphase2 => ?_) (echoes_of_phase ?_)
        · subst hstage
          cases st <;> simp_all [DKGSessionState.phase, exitTest, hasRound1Packages]
        · rw [hp]
          intro r1 heq
          cases heq
      | broadcasts _ _ _ =>
        refine iff_of_true (fun _ hphase2 => ?_) (echoes_of_phase ?_)
        · simp [DKGSessionState.phase] at hphase2
        · rw [hp]
          intro r1 heq
          cases heq
      | skips _ r1 _ =>
        refine iff_of_false (fun h => h rfl rfl) ?_
        rw [echoes_iff hp]
        exact hhonest.not_echoesSent hlen hself hphase r1
      | echoed _ r1 _ =>
        refine iff_of_true (fun heq => by cases heq) ?_
        rw [echoes_iff hp]
        exact hhonest.echoesSent hD hlen2 hself (recorded_of_reachable hreach self) hphase hreaches
          rfl
      | ready _ _ =>
        refine iff_of_true (fun heq => by cases heq) (echoes_of_phase ?_)
        rw [hp]
        intro r1 heq
        split_ifs at heq

/-- Three participants who poll only when everything of a round is there. -/
theorem never_skipped_iff_trio : ∃ s, ((Network.system sampleSnow trio ∅).restrict
    fun s a => ∀ self stage, s.Turn trio a self stage → stage = .round1 →
      ¬(Ordered trio self (s.sentTo self) ∧ HasRound1 trio self (s.sentTo self) ∧
        HasEchoes trio self (s.sentTo self) ∧ ¬HasRound2 trio self (s.sentTo self))).Run
      (sampleActions trio [1, 1, 2, 2, 3, 3, 1, 2, 3, 1, 1, 2, 2, 3, 3, 1, 2, 3]) s ∧
        ∀ self ∈ trio.members, (s.comms self).phase.round = 1 := by
  obtain ⟨s, hrun, hdone⟩ := exists_run_of_sampleExec trio ∅ (NeverSkipped trio)
    (fun s => ∀ self ∈ trio.members, (s.comms self).phase.round = 1)
    (sampleActions trio [1, 1, 2, 2, 3, 3, 1, 2, 3, 1, 1, 2, 2, 3, 3, 1, 2, 3])
    (by decide) (by decide) (by decide +kernel)
  exact ⟨s, (never_skipped_iff sampleSnow_inOrder sampleCodec_lawful (by decide)
    (by decide)).mpr hrun, hdone⟩

/-- The third of three participants receives the packages and the echoes of the first two
in one batch and returns without having sent an echo. -/
theorem skipped_trio : ∃ s, (Network.system sampleSnow trio ∅).Run
    (sampleActions trio [1, 1, 2, 2, 3, 3, 1, 2, 1, 1, 2, 2, 3]) s ∧ ¬s.NeverSkipped trio := by
  obtain ⟨s, hrun, hskipped⟩ := exists_run_of_sampleExec trio ∅ (fun _ => True)
    (fun s => ¬s.NeverSkipped trio) (sampleActions trio [1, 1, 2, 2, 3, 3, 1, 2, 1, 1, 2, 2, 3])
    (by decide) trivial (by decide +kernel)
  exact ⟨s, hrun.of_within, hskipped⟩

end FrostTools.Dkg
