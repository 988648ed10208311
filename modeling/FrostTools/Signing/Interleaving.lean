import FrostTools.Lib.Environment
import FrostTools.Signing.Situation
import Mathlib.Data.Fintype.BigOperators

namespace FrostTools.Signing.Http
open Api Client Frostd Setup

variable {C : Ciphersuite} {D : Setup C} {S : Snow} {verify : Verifier}

namespace Setup

abbrev Phase (D : Setup C) : D.Party → Type
  | none => Coordinator.Phase D.Signer
  | some _ => Participant.Phase C.Package

def start : (i : D.Party) → D.Phase i
  | none => .start
  | some _ => .start

def credential : (i : D.Party) → D.Phase i → Credential
  | none => Coordinator.Phase.credential
  | some _ => Participant.Phase.credential

def draws : (i : D.Party) → D.Phase i → ℕ
  | none => Coordinator.Phase.draws
  | some _ => Participant.Phase.draws

def rank : (i : D.Party) → D.Phase i → ℕ
  | none => Coordinator.Phase.rank D.signers.len
  | some _ => Participant.Phase.rank D.numMessages

def standing (φ : (i : D.Party) → D.Phase i) (p : D.Signer) : Standing :=
  Participant.Phase.standing (φ (some p))

def Returns (D : Setup C) (S : Snow) : (i : D.Party) → D.Result S i → D.Phase i → Prop
  | none => fun r φ => φ = Coordinator.Phase.finished ∧ r.1 = .ok D.signatures
  | some _ => fun r φ => (φ = Participant.Phase.finished ∧ r.1 = .ok ()) ∨
      ((∃ t, φ = Participant.Phase.failed t) ∧ ∃ e, r.1 = .err e ∧ Participant.NotFound e)

end Setup

def Script.role (X : Script D S verify) (sid : Uuid) : (i : D.Party) → Role World (D.Phase i)
  | none => X.coordinatorRole sid
  | some p => X.participantRole sid p

structure Aligned (X : Script D S verify) (sid : Uuid) (s : Service D.Party)
    (φ : (i : D.Party) → D.Phase i) : Prop where
  situation : ∃ record, Attends D.pubkey X.reply sid s (fun i => credential i (φ i)) record ∧
    Situation X sid s.server.used record (standing φ) (X.view (φ none))
  waits : Coordinator.Phase.Waits (φ none)
  used : s.server.used.card + ∑ i, draws i (φ i) ≤ 2 * D.signers.len + 3

section Aligned

variable {X : Script D S verify} {sid : Uuid} {s s' : Service D.Party}
  {φ : (i : D.Party) → D.Phase i}

theorem credential_update {i : D.Party} (φ' : D.Phase i) :
    (fun j => credential j (Function.update φ i φ' j)) =
      Function.update (fun j => credential j (φ j)) i (credential i φ') :=
  funext fun j => Function.apply_update (fun j => credential j) φ i φ' j

theorem standing_update_none (φ' : D.Phase none) : standing (Function.update φ none φ') = standing φ :=
  funext fun p => congrArg Participant.Phase.standing (Function.update_of_ne (Option.some_ne_none p) φ' φ)

theorem standing_update_some {p : D.Signer} (φ' : D.Phase (some p)) :
    standing (Function.update φ (some p) φ') =
      Function.update (standing φ) p (Participant.Phase.standing φ') := by
  funext q
  by_cases hq : q = p
  · subst hq
    rw [Function.update_self, standing, Function.update_self]
  · rw [Function.update_of_ne hq, standing, Function.update_of_ne fun h => hq (Option.some.inj h)]
    rfl

theorem sum_draws_update {i : D.Party} {φ' : D.Phase i}
    (h : s'.server.used.card + draws i φ' ≤ s.server.used.card + draws i (φ i)) :
    s'.server.used.card + ∑ j, draws j (Function.update φ i φ' j) ≤
      s.server.used.card + ∑ j, draws j (φ j) := by
  have hlocal : draws i φ' + s'.server.used.card ≤ draws i (φ i) + s.server.used.card := by omega
  have hsum := Environment.sum_update_add_le draws hlocal
  omega

theorem aligned_start (X : Script D S verify) (sid : Uuid) : Aligned X sid (.new D.Party) start := by
  refine ⟨⟨none, ?_, ?_⟩, trivial, ?_⟩
  · have hnothing : (fun i : D.Party => credential i (start i)) = fun _ => Credential.nothing :=
      funext fun i => by cases i <;> rfl
    rw [hnothing]
    exact attends_new
  · exact ⟨rfl, Finset.notMem_empty sid, fun p => rfl⟩
  · rw [Fintype.sum_option]
    change 0 + (3 + ∑ _p : D.Signer, 2) ≤ _
    rw [Finset.sum_const, Finset.card_univ, Fintype.card_coe, Nat.nsmul_eq_mul]
    simp only [Map.len]
    omega

/-- What a party asks for is what it has the credential for. -/
theorem presents_role {i : D.Party} {φ : D.Phase i} {q : Query} {leads : q.Answer → D.Phase i → Prop}
    (hnext : (X.role sid i).next φ = some ⟨q, leads⟩) :
    Presents (D.pubkey i) (X.reply i) (credential i φ) q := by
  cases i with
  | none =>
    cases φ with
    | finished => cases hnext
    | start => cases hnext; rfl
    | challenged c => cases hnext; rfl
    | _ => cases hnext; exact ⟨rfl, rfl⟩
  | some p =>
    cases φ with
    | finished => cases hnext
    | failed t => cases hnext
    | start => cases hnext; rfl
    | challenged c => cases hnext; rfl
    | asking t package left => cases hnext; trivial
    | confirming t left => cases hnext; trivial
    | _ => cases hnext; exact ⟨rfl, rfl⟩

theorem Aligned.idles (h : Aligned X sid s φ) (hidles : s.Idles verify s') : Aligned X sid s' φ := by
  obtain ⟨⟨record, hattends, hsituation⟩, hwaits, hcard⟩ := h
  obtain ⟨hattends', hused⟩ := hattends.idles hidles
  rw [← hused] at hsituation hcard
  exact ⟨⟨record, hattends', hsituation⟩, hwaits, hcard⟩

theorem Aligned.works (h : Aligned X sid s φ) {i : D.Party} {q : Query}
    {leads : q.Answer → D.Phase i → Prop} (hnext : (X.role sid i).next (φ i) = some ⟨q, leads⟩)
    (hworks : s.Works verify i q s') : Aligned X sid s' φ := by
  obtain ⟨⟨record, hattends, hsituation⟩, hwaits, hcard⟩ := h
  obtain ⟨hattends', hused⟩ := hattends.works (presents_role hnext) hworks
  rw [← hused] at hsituation hcard
  exact ⟨⟨record, hattends', hsituation⟩, hwaits, hcard⟩

theorem Aligned.answers (h : Aligned X sid s φ) (hfits : D.Fits sid) (hlawful : D.Lawful)
    {i : D.Party} {q : Query} {leads : q.Answer → D.Phase i → Prop} {answer : q.Answer}
    (hnext : (X.role sid i).next (φ i) = some ⟨q, leads⟩)
    (hanswers : s.Answers verify (.of sid (trim · = "y")) i q answer s') :
    ∃ φ', leads answer φ' ∧ Aligned X sid s' (Function.update φ i φ') ∧
      ∑ j, rank j (Function.update φ i φ' j) + (productive ⟨q, answer⟩).toNat ≤ ∑ j, rank j (φ j) := by
  obtain ⟨⟨record, hattends, hsituation⟩, hwaits, hcard⟩ := h
  cases i with
  | none =>
    obtain ⟨φ', record', hleads, hattends', hwaits', hsituation', hdraws, hrank⟩ :=
      answers_coordinator hfits hlawful hattends rfl hwaits hsituation hnext hanswers
    refine ⟨φ', hleads, ⟨⟨record', ?_, ?_⟩, ?_, ?_⟩, Environment.sum_update_add_le rank (m := 0) hrank⟩
    · rw [credential_update]
      exact hattends'
    · rw [standing_update_none, Function.update_self]
      exact hsituation'
    · rwa [Function.update_self]
    · have hsum := sum_draws_update (φ := φ) (i := none) hdraws
      omega
  | some p =>
    obtain ⟨φ', record', hleads, hattends', hsituation', hdraws, hrank⟩ :=
      answers_participant hlawful hattends rfl rfl hsituation hnext hanswers
    refine ⟨φ', hleads, ⟨⟨record', ?_, ?_⟩, ?_, ?_⟩, Environment.sum_update_add_le rank (m := 0) hrank⟩
    · rw [credential_update]
      exact hattends'
    · rw [standing_update_some, Function.update_of_ne (Option.some_ne_none p).symm]
      exact hsituation'
    · rwa [Function.update_of_ne (Option.some_ne_none p).symm]
    · have hsum := sum_draws_update (φ := φ) (i := some p) hdraws
      omega

theorem keeps (X : Script D S verify) (hfits : D.Fits sid) (hlawful : D.Lawful) :
    (frostd D.Party verify (.of sid (trim · = "y"))).Keeps (X.role sid) productive (Aligned X sid)
      fun φ => ∑ i, rank i (φ i) where
  idles h hidles := h.idles hidles
  works h hnext hworks := h.works hnext hworks
  answers h hnext hanswers := h.answers hfits hlawful hnext hanswers

end Aligned

end FrostTools.Signing.Http
