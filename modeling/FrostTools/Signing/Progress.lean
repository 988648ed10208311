import FrostTools.Signing.Interleaving

namespace FrostTools.Signing.Http
open Api Client Frostd Setup

variable {C : Ciphersuite} {D : Setup C} {S : Snow} {verify : Verifier} {X : Script D S verify}
  {sid : Uuid} {s : Service D.Party} {credential : D.Party → Credential} {record : Option Session}
  {standing : D.Signer → Standing}

theorem exists_answer_coordinator (hfits : D.Fits sid) (hlawful : D.Lawful)
    {φ : Coordinator.Phase D.Signer} (hattends : Attends D.pubkey X.reply sid s credential record)
    (hcredential : credential none = φ.credential)
    (hsituation : Situation X sid s.server.used record standing (X.view φ))
    (hfresh : ∃ id, id ∉ s.server.used ∧ id ≠ sid) (hfinished : φ ≠ .finished)
    (hmessages : ∀ t round got session, φ = .receiving t round got → record = some session →
      session.messages .coordinator ≠ []) :
    ∃ q leads answer, (X.coordinatorRole sid).next φ = some ⟨q, leads⟩ ∧
      (frostd D.Party verify (.of sid (trim · = "y"))).CanAnswer s none q answer ∧
      productive ⟨q, answer⟩ = true := by
  obtain ⟨id, hid, hne⟩ := hfresh
  have hcredited := hattends.credited
  have hhosts := hattends.hosts
  cases φ with
  | start => exact ⟨_, _, _, rfl, hcredited.exists_challenge hcredential hid hne, rfl⟩
  | challenged c =>
    exact ⟨_, _, _, rfl, hcredited.exists_login hcredential (X.pubkey_length none)
      (X.reply_length none c) (X.reply_verifies none c) hid hne, rfl⟩
  | loggedIn t =>
    refine ⟨.http (some t) (.createNewSession _), _, .ok sid, rfl,
      hcredited.exists_request sid hcredential rfl rfl ?_ ?_, rfl⟩
    · rintro user _ ⟨⟩
      exact hsituation.2.1
    · rw [Server.createNewSession_response hfits.messageCount_ne_zero]
      rfl
  | receiving t round got =>
    obtain ⟨session, rfl, hgathers⟩ := hsituation
    refine ⟨.http (some t) (.receive _), _, .ok (session.messages .coordinator), rfl,
      hcredited.exists_plain_request id hcredential rfl hne (fun _ => rfl) ?_, ?_⟩
    · rw [hhosts.receive hgathers.member_coordinator]
      rw [Setup.pubkey, hgathers.resolve_coordinator]
      rfl
    · have hqueue := hmessages t round got session rfl rfl
      cases hm : session.messages .coordinator with
      | nil => exact absurd hm hqueue
      | cons m ms => rfl
  | sending t p left =>
    obtain ⟨session, rfl, hgathers⟩ := hsituation
    refine ⟨.http (some t) (.send _), _, .ok (), rfl,
      hcredited.exists_plain_request id hcredential rfl hne (fun _ => rfl) ?_, rfl⟩
    rw [hhosts.send (X.down_fits p 0 Nat.zero_lt_one) (hgathers.canSend_packages hlawful p rfl sid _)]
    rfl
  | closing t =>
    obtain ⟨session, rfl, hgathers⟩ := hsituation
    refine ⟨.http (some t) (.closeSession _), _, .ok (), rfl,
      hcredited.exists_plain_request id hcredential rfl hne (fun _ => rfl) ?_, rfl⟩
    rw [hhosts.closeSession hgathers.pubkeys.2.1]
    rfl
  | leaving t =>
    exact ⟨.http (some t) .logout, _, .ok (), rfl,
      hcredited.exists_plain_request id hcredential rfl hne (fun _ => rfl) rfl, rfl⟩
  | finished => exact absurd rfl hfinished

/-- A participant can go on once the session is open, unless it waits for the packages. -/
theorem exists_answer_participant (hlawful : D.Lawful) {φ : Participant.Phase C.Package} {p : D.Signer}
    {view : View D.Signer} (hattends : Attends D.pubkey X.reply sid s credential record)
    (hcredential : credential (some p) = φ.credential) (hstanding : standing p = φ.standing)
    (hsituation : Situation X sid s.server.used record standing view)
    (hfresh : ∃ id, id ∉ s.server.used ∧ id ≠ sid) (hunopened : view ≠ .unopened)
    (hfinished : φ ≠ .finished) (hfailed : φ.hasFailed = false)
    (hpackages : ∀ t round got unsent, φ = .waiting t → view = .opened round got unsent → p ∉ unsent) :
    ∃ q leads answer, (X.participantRole sid p).next φ = some ⟨q, leads⟩ ∧
      (frostd D.Party verify (.of sid (trim · = "y"))).CanAnswer s (some p) q answer ∧
      productive ⟨q, answer⟩ = true ∧ ∀ φ', leads answer φ' → φ'.hasFailed = false := by
  obtain ⟨id, hid, hne⟩ := hfresh
  have hcredited := hattends.credited
  have hhosts := hattends.hosts
  cases φ with
  | start =>
    refine ⟨_, _, _, rfl, hcredited.exists_challenge hcredential hid hne, rfl, ?_⟩
    rintro _ ⟨c, -, rfl⟩
    rfl
  | challenged c =>
    refine ⟨_, _, _, rfl, hcredited.exists_login hcredential (X.pubkey_length (some p))
      (X.reply_length (some p) c) (X.reply_verifies (some p) c) hid hne, rfl, ?_⟩
    rintro _ ⟨t, -, rfl⟩
    split_ifs <;> rfl
  -- the session is open or was closed after this participant had finished
  | listing t =>
    cases view with
    | unopened => exact absurd rfl hunopened
    | closed => cases hstanding.symm.trans (hsituation p)
    | opened round got unsent =>
      obtain ⟨session, rfl, hgathers⟩ := hsituation
      refine ⟨.http (some t) .listSessions, _, .ok [sid], rfl,
        hcredited.exists_plain_request id hcredential rfl hne (fun _ => rfl) ?_, rfl, ?_⟩
      · rw [hhosts.listSessions (hgathers.member_signer hlawful p)]
        exact ⟨[sid], List.nodup_singleton sid, rfl, rfl⟩
      · rintro _ (⟨-, rfl⟩ | ⟨⟨⟩, -⟩)
        rfl
  | inquiring t =>
    cases view with
    | unopened => exact absurd rfl hunopened
    | closed => cases hstanding.symm.trans (hsituation p)
    | opened round got unsent =>
      obtain ⟨session, rfl, hgathers⟩ := hsituation
      refine ⟨.http (some t) (.getSessionInfo _), _,
        .ok ⟨session.messageCount, session.pubkeys, session.coordinatorPubkey⟩, rfl,
        hcredited.exists_plain_request id hcredential rfl hne (fun _ => rfl) ?_, rfl, ?_⟩
      · rw [hhosts.getSessionInfo (hgathers.member_signer hlawful p)]
        rfl
      · rintro _ (⟨-, rfl⟩ | ⟨⟨⟩, -⟩)
        rfl
  | committing t =>
    obtain ⟨round, got, unsent, session, rfl, rfl, hgathers⟩ := hsituation.opened hstanding rfl
    refine ⟨.http (some t) (.send _), _, .ok (), rfl,
      hcredited.exists_plain_request id hcredential rfl hne (fun _ => rfl) ?_, rfl, ?_⟩
    · rw [hhosts.send (X.up_fits p 0 Nat.zero_lt_two) (hgathers.canSend_message hlawful p rfl sid _)]
      rfl
    · rintro _ ⟨-, rfl⟩
      rfl
  | waiting t =>
    obtain ⟨round, got, unsent, session, rfl, rfl, hgathers⟩ := hsituation.opened hstanding rfl
    refine ⟨.http (some t) (.receive _), _, .ok [⟨D.coordinator, (X.down p).sent 0⟩], rfl,
      hcredited.exists_plain_request id hcredential rfl hne (fun _ => rfl) ?_, rfl, ?_⟩
    · rw [hhosts.receive (hgathers.member_signer hlawful p), Setup.pubkey, Gathers.resolve_signer,
        hgathers.packages p, hstanding, if_neg]
      · rfl
      · rintro (hunsent | hhas)
        · exact hpackages t round got unsent rfl rfl hunsent
        · cases hhas
    · rintro _ (⟨⟨⟩, -⟩ | ⟨-, rfl⟩)
      exact Participant.Phase.hasFailed_ask t D.config.signingPackage
  | asking t package left =>
    refine ⟨.eprintln _, _, (), rfl, ⟨s, s, .inl rfl, .printed⟩, rfl, ?_⟩
    rintro _ rfl
    rfl
  | confirming t left =>
    have hline : trim "y" = "y" := by decide
    refine ⟨.readLine, _, some "y", rfl, ⟨s, s, .inl rfl, .entered hline⟩, rfl, ?_⟩
    rintro _ ⟨_, -, -, rfl⟩
    exact Participant.Phase.hasFailed_ask t left
  | sharing t =>
    obtain ⟨round, got, unsent, session, rfl, rfl, hgathers⟩ := hsituation.opened hstanding rfl
    refine ⟨.http (some t) (.send _), _, .ok (), rfl,
      hcredited.exists_plain_request id hcredential rfl hne (fun _ => rfl) ?_, rfl, ?_⟩
    · rw [hhosts.send (X.up_fits p 1 Nat.one_lt_two) (hgathers.canSend_message hlawful p rfl sid _)]
      rfl
    · rintro _ ⟨-, rfl⟩
      rfl
  | leaving t =>
    refine ⟨.http (some t) .logout, _, .ok (), rfl,
      hcredited.exists_plain_request id hcredential rfl hne (fun _ => rfl) rfl, rfl, ?_⟩
    rintro _ ⟨-, rfl⟩
    rfl
  | finished => exact absurd rfl hfinished
  | failed t => cases hfailed

/-- No participant fails once the session is open. -/
theorem hasFailed_eq_false_of_answers (hlawful : D.Lawful) {φ φ' : Participant.Phase C.Package} {p : D.Signer}
    {view : View D.Signer} {q : Query} {leads : q.Answer → Participant.Phase C.Package → Prop}
    {answer : q.Answer} {s' : Service D.Party} {enters : String → Prop}
    (hattends : Attends D.pubkey X.reply sid s credential record)
    (hcredential : credential (some p) = φ.credential) (hstanding : standing p = φ.standing)
    (hsituation : Situation X sid s.server.used record standing view) (hunopened : view ≠ .unopened)
    (hnext : (X.participantRole sid p).next φ = some ⟨q, leads⟩)
    (hanswers : s.Answers verify (.of sid enters) (some p) q answer s') (hleads : leads answer φ') :
    φ'.hasFailed = false := by
  cases φ with
  -- an empty list would be a failure, but the session is open
  | listing t =>
    cases hnext
    cases view with
    | unopened => exact absurd rfl hunopened
    | closed => cases hstanding.symm.trans (hsituation p)
    | opened round got unsent =>
      obtain ⟨session, rfl, hgathers⟩ := hsituation
      obtain ⟨⟨order, -, horder, rfl⟩, -, -⟩ := hattends.listSessions hcredential
        (fun user huser => hattends.hosts.listSessions
          (huser ▸ hgathers.member_signer hlawful p)) hanswers
      rcases hleads with ⟨-, rfl⟩ | ⟨⟨⟩, -⟩
      · rfl
      · exact absurd horder.symm (Finset.singleton_ne_empty sid)
  | inquiring t =>
    cases hnext
    cases view with
    | unopened => exact absurd rfl hunopened
    | closed => cases hstanding.symm.trans (hsituation p)
    | opened round got unsent =>
      obtain ⟨session, rfl, hgathers⟩ := hsituation
      obtain ⟨rfl, -, -⟩ :=
        hattends.getSessionInfo hcredential (hgathers.member_signer hlawful p) hanswers
      rcases hleads with ⟨-, rfl⟩ | ⟨⟨⟩, -⟩
      rfl
  | start =>
    cases hnext
    obtain ⟨c, -, rfl⟩ := hleads
    rfl
  | challenged c =>
    cases hnext
    obtain ⟨t, -, rfl⟩ := hleads
    split_ifs <;> rfl
  | waiting t =>
    cases hnext
    rcases hleads with ⟨-, rfl⟩ | ⟨-, rfl⟩
    · rfl
    · exact Participant.Phase.hasFailed_ask _ _
  | asking t package left =>
    cases hnext
    obtain rfl := hleads
    rfl
  | confirming t left =>
    cases hnext
    obtain ⟨_, -, -, rfl⟩ := hleads
    exact Participant.Phase.hasFailed_ask _ _
  | finished => cases hnext
  | failed t => cases hnext
  | _ =>
    cases hnext
    obtain ⟨-, rfl⟩ := hleads
    rfl

def NoneFailed (φ : (i : D.Party) → D.Phase i) : Prop :=
  ∀ p : D.Signer, Participant.Phase.hasFailed (φ (some p)) = false

theorem NoneFailed.update_none {φ : (i : D.Party) → D.Phase i} (h : NoneFailed φ) (φ' : D.Phase none) :
    NoneFailed (Function.update φ none φ') := by
  intro p
  rw [Function.update_of_ne (Option.some_ne_none p)]
  exact h p

theorem NoneFailed.update_some {φ : (i : D.Party) → D.Phase i} (h : NoneFailed φ) {p : D.Signer}
    {φ' : D.Phase (some p)} (hφ' : Participant.Phase.hasFailed φ' = false) :
    NoneFailed (Function.update φ (some p) φ') := by
  intro q
  by_cases hq : q = p
  · subst hq
    rw [Function.update_self]
    exact hφ'
  · rw [Function.update_of_ne fun heq => hq (Option.some.inj heq)]
    exact h q

def AllFinal (X : Script D S verify) (sid : Uuid) (φ : (i : D.Party) → D.Phase i) : Prop :=
  ∀ i, (X.role sid i).next (φ i) = none

theorem Aligned.exists_fresh {φ : (i : D.Party) → D.Phase i} (h : Aligned X sid s φ)
    (hfits : D.Fits sid) : ∃ id, id ∉ s.server.used ∧ id ≠ sid := by
  have hlen : D.signers.len < 2 ^ 16 := by
    rw [← hfits.numSigners.1]
    exact D.pargs.numSigners.toNat_lt
  have hused := h.used
  exact Client.exists_fresh _ _ (by omega)

/-- When the coordinator has to wait, a participant does not. -/
theorem exists_participant {φ : (i : D.Party) → D.Phase i} (hfinal : ¬AllFinal X sid φ)
    (hwaits : Coordinator.Phase.Waits (φ none))
    (hsituation : Situation X sid s.server.used record (Setup.standing φ) (X.view (φ none)))
    (hcoordinator : ¬(φ none ≠ .finished ∧ ∀ t round got session, φ none = .receiving t round got →
      record = some session → session.messages .coordinator ≠ [])) :
    ∃ p : D.Signer, X.view (φ none) ≠ .unopened ∧ φ (some p) ≠ Participant.Phase.finished ∧
      ∀ t round got unsent, φ (some p) = Participant.Phase.waiting t →
        X.view (φ none) = .opened round got unsent → p ∉ unsent := by
  rcases not_and_or.mp hcoordinator with hfinished | hreceiving
  · -- somebody still has to leave
    have hdone := not_not.mp hfinished
    rw [hdone] at hsituation ⊢
    obtain ⟨i, hi⟩ := not_forall.mp hfinal
    cases i with
    | none =>
      rw [hdone] at hi
      exact absurd rfl hi
    | some p =>
      refine ⟨p, nofun, fun hp => ?_, nofun⟩
      rw [hp] at hi
      exact absurd rfl hi
  · simp only [not_forall, not_not] at hreceiving
    obtain ⟨t, round, got, session, hφ, rfl, hempty⟩ := hreceiving
    rw [hφ] at hsituation hwaits ⊢
    obtain ⟨hround, p, hp⟩ := hwaits
    obtain ⟨_, ⟨⟩, hgathers⟩ := hsituation
    -- the message of `p` is neither received nor in the queue
    have hsent : (Setup.standing φ p).sent = round := by
      obtain ⟨queue, hqueue, -, hmem⟩ := hgathers.queue
      rw [hempty] at hqueue
      obtain rfl := List.map_eq_nil_iff.mp hqueue.symm
      rw [List.append_nil] at hmem
      exact (hgathers.pace p).resolve_right fun h => hp ((hmem p).mpr h)
    refine ⟨p, nofun, fun hdone => ?_, fun t' round' got' unsent hwaiting hview => ?_⟩
    · rw [Setup.standing, hdone] at hsent
      change 2 = round at hsent
      omega
    · rw [Setup.standing, hwaiting] at hsent
      obtain rfl : 1 = round := hsent
      obtain ⟨-, -, rfl⟩ := View.opened.inj hview
      exact List.not_mem_nil

theorem Aligned.exists_answer {φ : (i : D.Party) → D.Phase i} (h : Aligned X sid s φ)
    (hfits : D.Fits sid) (hlawful : D.Lawful) (hnone : NoneFailed φ) (hfinal : ¬AllFinal X sid φ) :
    ∃ (i : D.Party) (q : Query) (leads : q.Answer → D.Phase i → Prop) (answer : q.Answer),
      (X.role sid i).next (φ i) = some ⟨q, leads⟩ ∧
      (frostd D.Party verify (.of sid (trim · = "y"))).CanAnswer s i q answer ∧
      productive ⟨q, answer⟩ = true ∧ ∀ φ', leads answer φ' → NoneFailed (Function.update φ i φ') := by
  obtain ⟨record, hattends, hsituation⟩ := h.situation
  have hfresh := h.exists_fresh hfits
  by_cases hcoordinator : φ none ≠ .finished ∧ ∀ t round got session,
      φ none = .receiving t round got → record = some session → session.messages .coordinator ≠ []
  · obtain ⟨q, leads, answer, hnext, hcan, hproductive⟩ := exists_answer_coordinator hfits hlawful
      hattends rfl hsituation hfresh hcoordinator.1 hcoordinator.2
    exact ⟨none, q, leads, answer, hnext, hcan, hproductive, fun φ' _ => hnone.update_none φ'⟩
  · obtain ⟨p, hunopened, hfinished, hpackages⟩ :=
      exists_participant hfinal h.waits hsituation hcoordinator
    obtain ⟨q, leads, answer, hnext, hcan, hproductive, hfailed⟩ := exists_answer_participant hlawful
      hattends rfl rfl hsituation hfresh hunopened hfinished (hnone p) hpackages
    exact ⟨some p, q, leads, answer, hnext, hcan, hproductive,
      fun φ' hleads => hnone.update_some (hfailed φ' hleads)⟩

theorem view_ne_unopened {φ φ' : Coordinator.Phase D.Signer} {q : Query}
    {leads : q.Answer → Coordinator.Phase D.Signer → Prop} {answer : q.Answer}
    (h : X.view φ ≠ .unopened) (hnext : (X.coordinatorRole sid).next φ = some ⟨q, leads⟩)
    (hleads : leads answer φ') : X.view φ' ≠ .unopened := by
  have hsend : ∀ (t : Uuid) (left : List D.Signer), X.view (.send t left) ≠ .unopened := by
    intro t left
    cases left <;> exact nofun
  cases φ with
  | start => exact absurd rfl h
  | challenged c => exact absurd rfl h
  | loggedIn t => exact absurd rfl h
  | receiving t round got =>
    cases hnext
    obtain ⟨queue, -, -, rfl⟩ := hleads
    unfold Script.received
    split_ifs
    · exact hsend t X.order
    · exact nofun
    · exact nofun
  | sending t p left =>
    cases hnext
    obtain ⟨-, rfl⟩ := hleads
    exact hsend t left
  | finished => cases hnext
  | _ =>
    cases hnext
    obtain ⟨-, rfl⟩ := hleads
    exact nofun

structure Underway (X : Script D S verify) (sid : Uuid) (s : Service D.Party)
    (φ : (i : D.Party) → D.Phase i) : Prop where
  aligned : Aligned X sid s φ
  opened : X.view (φ none) ≠ .unopened
  noneFailed : NoneFailed φ

theorem keeps_underway (X : Script D S verify) (hfits : D.Fits sid) (hlawful : D.Lawful) :
    (frostd D.Party verify (.of sid (trim · = "y"))).Keeps (X.role sid) productive (Underway X sid)
      fun φ => ∑ i, rank i (φ i) where
  idles h hidles := ⟨h.aligned.idles hidles, h.opened, h.noneFailed⟩
  works h hnext hworks := ⟨h.aligned.works hnext hworks, h.opened, h.noneFailed⟩
  answers := by
    intro s s' φ i q leads answer h hnext hanswers
    obtain ⟨φ', hleads, haligned, hrank⟩ := h.aligned.answers hfits hlawful hnext hanswers
    refine ⟨φ', hleads, ⟨haligned, ?_, ?_⟩, hrank⟩
    · cases i with
      | none =>
        rw [Function.update_self]
        exact view_ne_unopened h.opened hnext hleads
      | some p =>
        rw [Function.update_of_ne (Option.some_ne_none p).symm]
        exact h.opened
    · cases i with
      | none => exact h.noneFailed.update_none φ'
      | some p =>
        obtain ⟨record, hattends, hsituation⟩ := h.aligned.situation
        exact h.noneFailed.update_some (hasFailed_eq_false_of_answers hlawful hattends rfl rfl hsituation
          h.opened hnext hanswers hleads)

theorem progress (X : Script D S verify) (hfits : D.Fits sid) (hlawful : D.Lawful) :
    (frostd D.Party verify (.of sid (trim · = "y"))).Progress (X.role sid) productive (Aligned X sid)
      NoneFailed (AllFinal X sid) :=
  fun _ _ h hnone hfinal => h.exists_answer hfits hlawful hnone hfinal

end FrostTools.Signing.Http
