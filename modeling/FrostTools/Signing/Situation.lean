import FrostTools.Client.Attendance
import FrostTools.Signing.CoordinatorRole
import FrostTools.Signing.Gathering
import FrostTools.Signing.ParticipantRole

/-!
# The situation of a signing session

What the phases of the parties say about the server, and what the answers to the parties keep.
-/

namespace FrostTools.Signing.Http
open Api Client Frostd Setup

variable {C : Ciphersuite} {D : Setup C} {S : Snow} {verify : Verifier}

def Coordinator.Phase.credential {σ : Type} : Coordinator.Phase σ → Credential
  | .start => .nothing
  | .challenged c => .challenge c
  | .loggedIn t => .token t
  | .receiving t _ _ => .token t
  | .sending t _ _ => .token t
  | .closing t => .token t
  | .leaving t => .token t
  | .finished => .nothing

def Participant.Phase.credential {P : Type} : Participant.Phase P → Credential
  | .start => .nothing
  | .challenged c => .challenge c
  | .listing t => .token t
  | .inquiring t => .token t
  | .committing t => .token t
  | .waiting t => .token t
  | .asking t _ _ => .token t
  | .confirming t _ => .token t
  | .sharing t => .token t
  | .leaving t => .token t
  | .finished => .nothing
  | .failed t => .token t

def Participant.Phase.standing {P : Type} : Participant.Phase P → Standing
  | .committing _ => .joined
  | .waiting _ => .committed
  | .asking _ _ _ => .informed
  | .confirming _ _ => .informed
  | .sharing _ => .informed
  | .leaving _ => .shared
  | .finished => .shared
  | _ => .absent

def Participant.Phase.hasFailed {P : Type} : Participant.Phase P → Bool
  | .failed _ => true
  | _ => false

inductive View (σ : Type) where
  | unopened
  | opened (round : ℕ) (got unsent : List σ)
  | closed

def Script.view (X : Script D S verify) : Coordinator.Phase D.Signer → View D.Signer
  | .start => .unopened
  | .challenged _ => .unopened
  | .loggedIn _ => .unopened
  | .receiving _ round got => .opened round got (if round = 0 then X.order else [])
  | .sending _ p left => .opened 1 [] (p :: left)
  | .closing _ => .opened 2 [] []
  | .leaving _ => .closed
  | .finished => .closed

def Coordinator.Phase.Waits {σ : Type} : Coordinator.Phase σ → Prop
  | .receiving _ round got => round < 2 ∧ ∃ p, p ∉ got
  | _ => True

def Coordinator.Phase.draws {σ : Type} : Coordinator.Phase σ → ℕ
  | .start => 3
  | .challenged _ => 2
  | .loggedIn _ => 1
  | _ => 0

def Participant.Phase.draws {P : Type} : Participant.Phase P → ℕ
  | .start => 2
  | .challenged _ => 1
  | _ => 0

/-- An empty `receive` is an answer that changes nothing. -/
def productive : World.Event → Bool
  | ⟨.http _ (.receive _), .ok msgs⟩ => !msgs.isEmpty
  | _ => true

def Coordinator.Phase.rank {σ : Type} (n : ℕ) : Coordinator.Phase σ → ℕ
  | .start => 3 * n + 5
  | .challenged _ => 3 * n + 4
  | .loggedIn _ => 3 * n + 3
  | .receiving _ round got => (n - got.length) + if round = 0 then 2 * n + 2 else 2
  | .sending _ _ left => left.length + 1 + (n + 2)
  | .closing _ => 2
  | .leaving _ => 1
  | .finished => 0

def Participant.Phase.rank {P : Type} (n : ℕ) : Participant.Phase P → ℕ
  | .start => 2 * n + 8
  | .challenged _ => 2 * n + 7
  | .listing _ => 2 * n + 6
  | .inquiring _ => 2 * n + 5
  | .committing _ => 2 * n + 4
  | .waiting _ => 2 * n + 3
  | .asking _ _ left => 2 * (left.length + 1) + 2
  | .confirming _ left => 2 * left.length + 3
  | .sharing _ => 2
  | .leaving _ => 1
  | .finished => 0
  | .failed _ => 0

theorem Coordinator.Phase.rank_send {σ : Type} (n : ℕ) (t : Uuid) (left : List σ) :
    (Coordinator.Phase.send t left).rank n = left.length + (n + 2) := by
  cases left with
  | nil => simp [send, rank]
  | cons p left => rfl

theorem Coordinator.Phase.credential_send {σ : Type} (t : Uuid) (left : List σ) :
    (Coordinator.Phase.send t left).credential = .token t := by
  cases left <;> rfl

theorem Coordinator.Phase.draws_send {σ : Type} (t : Uuid) (left : List σ) :
    (Coordinator.Phase.send t left).draws = 0 := by
  cases left <;> rfl

theorem Script.credential_received (X : Script D S verify) (t : Uuid) (round : ℕ)
    (got : List D.Signer) : (X.received t round got).credential = .token t := by
  unfold received
  split_ifs
  · exact Coordinator.Phase.credential_send t X.order
  · rfl
  · rfl

theorem Script.draws_received (X : Script D S verify) (t : Uuid) (round : ℕ) (got : List D.Signer) :
    (X.received t round got).draws = 0 := by
  unfold received
  split_ifs
  · exact Coordinator.Phase.draws_send t X.order
  · rfl
  · rfl

theorem Participant.Phase.rank_ask {P : Type} (n : ℕ) (t : Uuid) (left : List P) :
    (Participant.Phase.ask t left).rank n = 2 * left.length + 2 := by
  cases left <;> rfl

theorem Participant.Phase.credential_ask {P : Type} (t : Uuid) (left : List P) :
    (Participant.Phase.ask t left).credential = .token t := by
  cases left <;> rfl

theorem Participant.Phase.standing_ask {P : Type} (t : Uuid) (left : List P) :
    (Participant.Phase.ask t left).standing = .informed := by
  cases left <;> rfl

theorem Participant.Phase.hasFailed_ask {P : Type} (t : Uuid) (left : List P) :
    (Participant.Phase.ask t left).hasFailed = false := by
  cases left <;> rfl

theorem Participant.Phase.draws_ask {P : Type} (t : Uuid) (left : List P) :
    (Participant.Phase.ask t left).draws = 0 := by
  cases left <;> rfl

/-- The record of the session, in view of what the parties have done. -/
def Situation (X : Script D S verify) (sid : Uuid) (used : Finset Uuid) (record : Option Session)
    (standing : D.Signer → Standing) : View D.Signer → Prop
  | .unopened => record = none ∧ sid ∉ used ∧ ∀ p, standing p = .absent
  | .opened round got unsent =>
    ∃ session, record = some session ∧ Gathers X round got unsent standing session
  | .closed => ∀ p, standing p = .shared

section Situation

variable {X : Script D S verify} {sid : Uuid} {used used' : Finset Uuid} {record : Option Session}
  {standing : D.Signer → Standing} {view : View D.Signer}

theorem Situation.mono (h : Situation X sid used record standing view)
    (hused : sid ∉ used → sid ∉ used') : Situation X sid used' record standing view := by
  cases view with
  | unopened => exact ⟨h.1, hused h.2.1, h.2.2⟩
  | opened round got unsent => exact h
  | closed => exact h

theorem Situation.keep (h : Situation X sid used record standing view) {p : D.Signer}
    {next : Standing} (hp : standing p = next) :
    Situation X sid used record (Function.update standing p next) view := by
  rwa [← hp, Function.update_eq_self]

/-- The session is open while a participant takes part in it. -/
theorem Situation.opened (h : Situation X sid used record standing view) {p : D.Signer}
    {current : Standing} (hp : standing p = current) (hcurrent : current.takesPart = true) :
    ∃ round got unsent session, view = .opened round got unsent ∧ record = some session ∧
      Gathers X round got unsent standing session := by
  subst hp
  cases view with
  | unopened => rw [h.2.2 p] at hcurrent; cases hcurrent
  | opened round got unsent =>
    obtain ⟨session, hrecord, hgathers⟩ := h
    exact ⟨round, got, unsent, session, rfl, hrecord, hgathers⟩
  | closed => rw [h p] at hcurrent; cases hcurrent

end Situation
section Answers

variable {X : Script D S verify} {sid : Uuid} {enters : String → Prop} {s s' : Service D.Party}
  {credential : D.Party → Credential} {record : Option Session} {standing : D.Signer → Standing}
  {q : Query} {answer : q.Answer} (hfits : D.Fits sid) (hlawful : D.Lawful)

theorem card_insert_le (used : Finset Uuid) (id : Uuid) (n : ℕ) :
    (insert id used).card + n ≤ used.card + (n + 1) := by
  have := Finset.card_insert_le id used
  omega

theorem waits_receiving (hfits : D.Fits sid) {t : Uuid} {round : ℕ} (hround : round < 2) :
    (Coordinator.Phase.receiving t round ([] : List D.Signer)).Waits := by
  obtain ⟨p, hp⟩ := Map.keys_nonempty_iff.mpr hfits.numSigners.2
  exact ⟨hround, ⟨p, hp⟩, List.not_mem_nil⟩

theorem Setup.Fits.messageCount_ne_zero (hfits : D.Fits sid) : UInt8.ofNat D.numMessages ≠ 0 := by
  intro h
  have hcount : (UInt8.ofNat D.numMessages).toNat = D.numMessages :=
    UInt8.toNat_ofNat_of_lt (Nat.lt_succ_of_le hfits.numMessages.2)
  rw [h] at hcount
  exact Nat.ne_of_lt hfits.numMessages.1 hcount

theorem situation_received {t : Uuid} {round : ℕ} {got : List D.Signer} {used : Finset Uuid}
    {session : Session} (hround : round < 2) (hnodup : got.Nodup)
    (h : Gathers X round got (if round = 0 then X.order else []) standing session) :
    Situation X sid used (some session) standing (X.view (X.received t round got)) := by
  unfold Script.received
  by_cases hlength : got.length = D.signers.len
  · have hadvance := h.advance ((length_eq_iff hnodup).mp hlength)
    rw [if_pos hlength]
    by_cases hzero : round = 0
    · subst hzero
      rw [if_pos rfl]
      rw [if_pos rfl] at hadvance
      cases horder : X.order with
      | nil => exact ⟨session, rfl, horder ▸ hadvance⟩
      | cons p left => exact ⟨session, rfl, horder ▸ hadvance⟩
    · obtain rfl : round = 1 := by omega
      rw [if_neg hzero]
      exact ⟨session, rfl, hadvance⟩
  · rw [if_neg hlength]
    exact ⟨session, rfl, h⟩

include hfits in
theorem waits_send (t : Uuid) (left : List D.Signer) : (Coordinator.Phase.send t left).Waits := by
  cases left with
  | nil => exact waits_receiving hfits Nat.one_lt_two
  | cons p left => trivial

include hfits in
theorem waits_received {t : Uuid} {round : ℕ} {got : List D.Signer} (hround : round < 2)
    (hnodup : got.Nodup) : (X.received t round got).Waits := by
  unfold Script.received
  split_ifs with hlength hzero
  · exact waits_send hfits t X.order
  · trivial
  · rw [length_eq_iff hnodup, not_forall] at hlength
    exact ⟨hround, hlength⟩

theorem rank_received {t : Uuid} {round : ℕ} {got queue : List D.Signer} (X : Script D S verify)
    (hlawful : D.Lawful) (hnodup : (got ++ queue).Nodup) :
    (X.received t round (got ++ queue)).rank D.signers.len + queue.length ≤
      (Coordinator.Phase.receiving t round got).rank D.signers.len := by
  have hle := length_le hnodup
  have horder : X.order.length = D.signers.len := (length_eq_iff (X.nodup_order hlawful)).mpr
    (X.mem_order hlawful)
  rw [List.length_append] at hle
  unfold Script.received
  rw [List.length_append]
  split_ifs with hlength hround
  · rw [Coordinator.Phase.rank_send, horder]
    simp only [Coordinator.Phase.rank, if_pos hround]
    omega
  · simp only [Coordinator.Phase.rank, if_neg hround]
    omega
  · simp only [Coordinator.Phase.rank, List.length_append]
    omega

include hfits hlawful in
theorem answers_coordinator {φ : Coordinator.Phase D.Signer}
    {leads : q.Answer → Coordinator.Phase D.Signer → Prop}
    (hattends : Attends D.pubkey X.reply sid s credential record)
    (hcredential : credential none = φ.credential) (hwaits : φ.Waits)
    (hsituation : Situation X sid s.server.used record standing (X.view φ))
    (hnext : (X.coordinatorRole sid).next φ = some ⟨q, leads⟩)
    (hanswers : s.Answers verify (.of sid enters) none q answer s') :
    ∃ φ' record', leads answer φ' ∧
      Attends D.pubkey X.reply sid s' (Function.update credential none φ'.credential) record' ∧
      φ'.Waits ∧ Situation X sid s'.server.used record' standing (X.view φ') ∧
      s'.server.used.card + φ'.draws ≤ s.server.used.card + φ.draws ∧
      φ'.rank D.signers.len + (productive ⟨q, answer⟩).toNat ≤ φ.rank D.signers.len := by
  cases φ with
  | start =>
    cases hnext
    obtain ⟨c, rfl, hne, hused, hattends'⟩ := hattends.challenge hanswers
    refine ⟨.challenged c, record, ⟨c, rfl, rfl⟩, hattends', trivial, ?_, ?_, Nat.le_refl _⟩
    · rw [hused]
      exact hsituation.mono fun h => by simp [h, Ne.symm hne]
    · rw [hused]
      exact card_insert_le _ _ 2
  | challenged c =>
    cases hnext
    obtain ⟨t, rfl, hne, hused, hattends'⟩ := hattends.login hcredential (X.pubkey_length none)
      (X.reply_length none c) (X.reply_verifies none c) hanswers
    refine ⟨.loggedIn t, record, ⟨t, rfl, rfl⟩, hattends', trivial, ?_, ?_, Nat.le_refl _⟩
    · rw [hused]
      exact hsituation.mono fun h => by simp [h, Ne.symm hne]
    · rw [hused]
      exact card_insert_le _ _ 1
  | loggedIn t =>
    cases hnext
    obtain ⟨rfl, hused, hattends'⟩ :=
      hattends.createNewSession hcredential hfits.messageCount_ne_zero hanswers
    refine ⟨.receiving t 0 [], some ⟨D.lib.signersKeys D.signers, D.coordinator,
      UInt8.ofNat D.numMessages, ∅⟩, ⟨rfl, rfl⟩, ?_, ?_, ?_, ?_, ?_⟩
    · exact hattends'.keep hcredential
    · exact waits_receiving hfits Nat.zero_lt_two
    · exact ⟨_, rfl, gathers_new X hlawful hsituation.2.2⟩
    · rw [hused]
      exact card_insert_le _ _ 0
    · simp [Coordinator.Phase.rank, productive]
      omega
  -- everything in the queue is of the current round, and is taken at once
  | receiving t round got =>
    cases hnext
    obtain ⟨session, rfl, hgathers⟩ := hsituation
    obtain ⟨rfl, hused, hattends'⟩ :=
      hattends.receive hcredential hgathers.member_coordinator hanswers
    rw [Setup.pubkey, hgathers.resolve_coordinator] at hattends'
    obtain ⟨queue, hqueue, hnodup, hgathers'⟩ := hgathers.receive
    refine ⟨X.received t round (got ++ queue), _, ⟨queue, ?_, hnodup, rfl⟩, ?_,
      waits_received hfits hwaits.1 hnodup, situation_received hwaits.1 hnodup hgathers', ?_, ?_⟩
    · rw [Setup.pubkey, hgathers.resolve_coordinator, hqueue]
    · rw [X.credential_received]
      exact hattends'.keep hcredential
    · rw [hused, X.draws_received]
      exact Nat.le_refl _
    · refine Nat.le_trans (Nat.add_le_add_left ?_ _) (rank_received X hlawful hnodup)
      rw [Setup.pubkey, hgathers.resolve_coordinator, hqueue]
      cases queue with
      | nil => exact Nat.le_refl 0
      | cons p queue => exact Nat.succ_le_succ (Nat.zero_le _)
  | sending t p left =>
    cases hnext
    obtain ⟨session, rfl, hgathers⟩ := hsituation
    obtain ⟨rfl, hused, hattends'⟩ := hattends.send hcredential (X.down_fits p 0 Nat.zero_lt_one)
      (fun user huser => hgathers.canSend_packages hlawful p huser sid _) hanswers
    refine ⟨.send t left, some (enqueue ⟨D.coordinator, t⟩ ⟨sid, [p.1], (X.down p).sent 0⟩ session),
      ⟨rfl, rfl⟩, ?_, waits_send hfits t left, ?_, ?_, ?_⟩
    · rw [Coordinator.Phase.credential_send]
      exact hattends'.keep hcredential
    · have hgathers' := hgathers.sendPackages Nat.one_ne_zero t sid
      cases left with
      | nil => exact ⟨_, rfl, hgathers'⟩
      | cons p' left => exact ⟨_, rfl, hgathers'⟩
    · rw [hused, Coordinator.Phase.draws_send]
      exact Nat.le_refl _
    · rw [Coordinator.Phase.rank_send]
      simp only [Coordinator.Phase.rank, productive, Bool.toNat_true]
      omega
  -- all shares were received, so every participant has sent its own
  | closing t =>
    cases hnext
    obtain ⟨session, rfl, hgathers⟩ := hsituation
    obtain ⟨rfl, hused, hattends'⟩ := hattends.closeSession hcredential hgathers.pubkeys.2.1 hanswers
    refine ⟨.leaving t, none, ⟨rfl, rfl⟩, hattends'.keep hcredential, trivial, fun p => ?_,
      by rw [hused]; rfl, Nat.le_refl _⟩
    · have hsent := hgathers.pace p
      cases hp : standing p with
      | shared => rfl
      | _ => rw [hp] at hsent; exact absurd hsent (by decide)
  | leaving t =>
    cases hnext
    obtain ⟨rfl, hused, hattends'⟩ := hattends.logout hcredential hanswers
    exact ⟨.finished, record, ⟨rfl, rfl⟩, hattends', trivial, hsituation, by rw [hused]; rfl,
      Nat.le_refl _⟩
  | finished => cases hnext

include hlawful in
/-- An answer to a participant leads to its next phase. -/
theorem answers_participant {φ : Participant.Phase C.Package} {p : D.Signer} {view : View D.Signer}
    {leads : q.Answer → Participant.Phase C.Package → Prop}
    (hattends : Attends D.pubkey X.reply sid s credential record)
    (hcredential : credential (some p) = φ.credential) (hstanding : standing p = φ.standing)
    (hsituation : Situation X sid s.server.used record standing view)
    (hnext : (X.participantRole sid p).next φ = some ⟨q, leads⟩)
    (hanswers : s.Answers verify (.of sid (trim · = "y")) (some p) q answer s') :
    ∃ φ' record', leads answer φ' ∧
      Attends D.pubkey X.reply sid s' (Function.update credential (some p) φ'.credential) record' ∧
      Situation X sid s'.server.used record' (Function.update standing p φ'.standing) view ∧
      s'.server.used.card + φ'.draws ≤ s.server.used.card + φ.draws ∧
      φ'.rank D.numMessages + (productive ⟨q, answer⟩).toNat ≤ φ.rank D.numMessages := by
  cases φ with
  | start =>
    cases hnext
    obtain ⟨c, rfl, hne, hused, hattends'⟩ := hattends.challenge hanswers
    refine ⟨.challenged c, record, ⟨c, rfl, rfl⟩, hattends', ?_, ?_, Nat.le_refl _⟩
    · rw [hused]
      exact (hsituation.mono fun h => by simp [h, Ne.symm hne]).keep hstanding
    · rw [hused]
      exact card_insert_le _ _ 1
  | challenged c =>
    cases hnext
    obtain ⟨t, rfl, hne, hused, hattends'⟩ := hattends.login hcredential (X.pubkey_length (some p))
      (X.reply_length (some p) c) (X.reply_verifies (some p) c) hanswers
    have hkeep : Situation X sid s'.server.used record (Function.update standing p .absent) view := by
      rw [hused]
      exact (hsituation.mono fun h => by simp [h, Ne.symm hne]).keep hstanding
    have hcard : s'.server.used.card + 0 ≤ s.server.used.card + 1 := by
      rw [hused]
      exact card_insert_le _ _ 0
    refine ⟨_, record, ⟨t, rfl, rfl⟩, ?_⟩
    split_ifs
    · exact ⟨hattends', hkeep, hcard, Nat.le_refl _⟩
    · exact ⟨hattends', hkeep, hcard, Nat.le_succ _⟩
  -- the server lists the session as soon as it is open, and before that nothing
  | listing t =>
    cases hnext
    cases view with
    | unopened =>
      obtain ⟨⟨order, -, horder, rfl⟩, hused, hattends'⟩ := hattends.listSessions hcredential
        (fun user _ => hattends.hosts.listSessions_unopened hsituation.2.1) hanswers
      obtain rfl := (List.toFinset_eq_empty_iff order).mp horder
      exact ⟨.failed t, record, .inr ⟨rfl, rfl⟩, hattends'.keep hcredential,
        hused ▸ hsituation.keep hstanding, by rw [hused]; rfl,
        by simp [Participant.Phase.rank, productive]⟩
    | opened round got unsent =>
      have ⟨session, hrecord, hgathers⟩ := hsituation
      subst hrecord
      obtain ⟨⟨order, hnodup, horder, rfl⟩, hused, hattends'⟩ := hattends.listSessions hcredential
        (fun user huser => hattends.hosts.listSessions
          (huser ▸ hgathers.member_signer hlawful p)) hanswers
      obtain rfl : order = [sid] := List.perm_singleton.mp
        (List.perm_of_nodup_nodup_toFinset_eq hnodup (List.nodup_singleton sid) horder)
      exact ⟨.inquiring t, some session, .inl ⟨rfl, rfl⟩, hattends'.keep hcredential,
        hused ▸ hsituation.keep hstanding, by rw [hused]; rfl, Nat.le_refl _⟩
    | closed =>
      have hshared := hsituation p
      rw [hstanding] at hshared
      cases hshared
  | inquiring t =>
    cases hnext
    cases view with
    | unopened =>
      obtain ⟨rfl, hused, hattends'⟩ :=
        hattends.getSessionInfo_unopened hcredential hsituation.2.1 hanswers
      exact ⟨.failed t, record, .inr ⟨rfl, rfl⟩, hattends'.keep hcredential,
        hused ▸ hsituation.keep hstanding, by rw [hused]; rfl,
        by simp [Participant.Phase.rank, productive]⟩
    | opened round got unsent =>
      obtain ⟨session, rfl, hgathers⟩ := hsituation
      obtain ⟨rfl, hused, hattends'⟩ :=
        hattends.getSessionInfo hcredential (hgathers.member_signer hlawful p) hanswers
      obtain ⟨hpubkeys, hcoordinator, hcount⟩ := hgathers.pubkeys
      refine ⟨.committing t, some session, .inl ⟨?_, rfl⟩, hattends'.keep hcredential,
        ⟨session, rfl, hgathers.join hstanding⟩, by rw [hused]; rfl, Nat.le_refl _⟩
      rw [hpubkeys, hcoordinator, hcount]
    | closed =>
      have hshared := hsituation p
      rw [hstanding] at hshared
      cases hshared
  -- a participant that has sent nothing is in a session that is still in its first round
  | committing t =>
    cases hnext
    obtain ⟨round, got, unsent, session, rfl, rfl, hgathers⟩ :=
      hsituation.opened hstanding rfl
    have hsent : (standing p).sent = 0 := by rw [hstanding]; rfl
    obtain rfl : round = 0 := by
      have hpace := hgathers.pace p
      omega
    obtain ⟨rfl, hused, hattends'⟩ := hattends.send hcredential (X.up_fits p 0 Nat.zero_lt_two)
      (fun user huser => hgathers.canSend_message hlawful p huser sid _) hanswers
    refine ⟨.waiting t, some (enqueue ⟨p, t⟩ ⟨sid, [], (X.up p).sent 0⟩ session), ⟨rfl, rfl⟩,
      hattends'.keep hcredential, ⟨_, rfl, hgathers.send hsent rfl ?_⟩, by rw [hused]; rfl,
      Nat.le_refl _⟩
    rw [hstanding]
    rfl
  -- the queue is empty or holds exactly the packages
  | waiting t =>
    cases hnext
    obtain ⟨round, got, unsent, session, rfl, rfl, hgathers⟩ :=
      hsituation.opened hstanding rfl
    obtain ⟨rfl, hused, hattends'⟩ :=
      hattends.receive hcredential (hgathers.member_signer hlawful p) hanswers
    rw [Setup.pubkey, Gathers.resolve_signer] at hattends' ⊢
    rcases hgathers.take hstanding with ⟨hnil, hgathers'⟩ | ⟨hpackages, hgathers'⟩
    · rw [hnil]
      have hopened : Situation X sid s'.server.used _ standing (.opened round got unsent) :=
        ⟨_, rfl, hgathers'⟩
      exact ⟨.waiting t, _, .inl ⟨rfl, rfl⟩, hattends'.keep hcredential, hopened.keep hstanding,
        by rw [hused], Nat.le_refl _⟩
    · rw [hpackages]
      refine ⟨.ask t D.config.signingPackage, some (session.drain (.participant p.1)).2,
        .inr ⟨rfl, rfl⟩, ?_, ?_, ?_, ?_⟩
      · rw [Participant.Phase.credential_ask]
        exact hattends'.keep hcredential
      · rw [Participant.Phase.standing_ask]
        exact ⟨_, rfl, hgathers'⟩
      · rw [hused, Participant.Phase.draws_ask]
        exact Nat.le_refl _
      · rw [Participant.Phase.rank_ask, Setup.config, List.length_map, List.length_range]
        exact Nat.le_refl _
  | asking t package left =>
    cases hnext
    cases hanswers
    refine ⟨.confirming t left, record, rfl, hattends.keep hcredential, hsituation.keep hstanding,
      Nat.le_refl _, Nat.le_refl _⟩
  | confirming t left =>
    cases hnext
    cases hanswers with
    | entered hline =>
      refine ⟨.ask t left, record, ⟨_, rfl, hline, rfl⟩, ?_, ?_, ?_, ?_⟩
      · rw [Participant.Phase.credential_ask]
        exact hattends.keep hcredential
      · rw [Participant.Phase.standing_ask]
        exact hsituation.keep hstanding
      · rw [Participant.Phase.draws_ask]
        exact Nat.le_refl _
      · rw [Participant.Phase.rank_ask]
        exact Nat.le_refl _
  -- whoever has the packages finds the session in its second round
  | sharing t =>
    cases hnext
    obtain ⟨round, got, unsent, session, rfl, rfl, hgathers⟩ :=
      hsituation.opened hstanding rfl
    have hsent : (standing p).sent = 1 := by rw [hstanding]; rfl
    obtain rfl := hgathers.round_eq_one hstanding
    obtain ⟨rfl, hused, hattends'⟩ := hattends.send hcredential (X.up_fits p 1 Nat.one_lt_two)
      (fun user huser => hgathers.canSend_message hlawful p huser sid _) hanswers
    refine ⟨.leaving t, some (enqueue ⟨p, t⟩ ⟨sid, [], (X.up p).sent 1⟩ session), ⟨rfl, rfl⟩,
      hattends'.keep hcredential, ⟨_, rfl, hgathers.send hsent rfl ?_⟩, by rw [hused]; rfl,
      Nat.le_refl _⟩
    rw [hstanding]
    rfl
  | leaving t =>
    cases hnext
    obtain ⟨rfl, hused, hattends'⟩ := hattends.logout hcredential hanswers
    exact ⟨.finished, record, ⟨rfl, rfl⟩, hattends', hused ▸ hsituation.keep hstanding,
      by rw [hused]; rfl, Nat.le_refl _⟩
  | finished => cases hnext
  | failed t => cases hnext

end Answers

end FrostTools.Signing.Http
