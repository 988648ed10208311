import FrostTools.Frostd.Consistency

/-!
# Message delivery

For a queue of an open session, the messages returned by the `receive`s that
resolved to it, followed by the messages still in it, are the copies that the
accepted `send`s made for it, in the order of acceptance.
-/

namespace FrostTools.Frostd.Server
open Api

variable {verify : Verifier} {s s' : Server} {a : Action} {response : Response}
  {sid : Uuid} {session session₀ : Session} {q : SessionParticipant}

/-- The messages that an event takes out of the queue `q` of a session. The record
of the session tells which user is its coordinator. -/
def deliveredBy (session : Session) (sid : Uuid) (q : SessionParticipant) (e : Event) : List Msg :=
  match e.action, e.response with
  | .request user (.receive args), .msgs msgs =>
    if args.sessionId = sid ∧ resolve session user.pubkey args.asCoordinator = q then msgs else []
  | _, _ => []

/-- The copies that an event makes for the queue `q` of a session. -/
def acceptedBy (sid : Uuid) (q : SessionParticipant) (e : Event) : List Msg :=
  match e.action, e.response with
  | .request user (.send args), .done =>
    if args.sessionId = sid then List.replicate (copies q args) ⟨user.pubkey, args.msg⟩ else []
  | _, _ => []

def delivered (session : Session) (sid : Uuid) (q : SessionParticipant) (es : List Event) :
    List Msg := es.flatMap (deliveredBy session sid q)

def accepted (sid : Uuid) (q : SessionParticipant) (es : List Event) : List Msg :=
  es.flatMap (acceptedBy sid q)

theorem deliveredBy_congr (h : session.metadata = session₀.metadata) (e : Event) :
    deliveredBy session sid q e = deliveredBy session₀ sid q e := by
  unfold deliveredBy
  split
  · rw [resolve_congr h]
  · rfl

theorem delivered_congr (h : session.metadata = session₀.metadata) (es : List Event) :
    delivered session sid q es = delivered session₀ sid q es :=
  congrArg es.flatMap (funext (deliveredBy_congr h))

theorem delivered_append_singleton (es : List Event) (e : Event) :
    delivered session sid q (es ++ [e]) =
      delivered session sid q es ++ deliveredBy session sid q e := by
  simp [delivered]

theorem accepted_append_singleton (es : List Event) (e : Event) :
    accepted sid q (es ++ [e]) = accepted sid q es ++ acceptedBy sid q e := by
  simp [accepted]

theorem Acts.metadata (h : Acts verify s a response s') (h0 : s.session sid = some session₀)
    (h1 : s'.session sid = some session) (hne : a.fresh ≠ some sid) :
    session.metadata = session₀.metadata := by
  rw [h.session sid, h0] at h1
  cases a with
  | request user r =>
    obtain ⟨args, id, rfl, -, -⟩ | ⟨session₁, h2, hmeta, -⟩ := sessionEffect_cases h1
    · exact absurd rfl hne
    · obtain rfl := Option.some.inj h2
      exact hmeta
  | popSession id =>
    rw [recordAfter] at h1
    split_ifs at h1
    rw [Option.some.inj h1]
  | _ => rw [Option.some.inj h1]

/-- What a step takes out of a queue was at its front, and what it accepts for the
queue goes to its back. -/
theorem Acts.conserves (h : Acts verify s a response s') (h0 : s.session sid = some session₀)
    (h1 : s'.session sid = some session) (hne : a.fresh ≠ some sid) :
    deliveredBy session₀ sid q ⟨a, response⟩ ++ session.messages q =
      session₀.messages q ++ acceptedBy sid q ⟨a, response⟩ := by
  rw [h.session sid, h0] at h1
  cases a with
  | request user r =>
    change sessionEffect user sid r response (some session₀) = some session at h1
    unfold sessionEffect at h1
    split at h1
    · next args id' id =>
      split_ifs at h1 with hid
      · exact absurd (congrArg some hid.symm) hne
      · obtain rfl := Option.some.inj h1
        simp [deliveredBy, acceptedBy]
    · next args =>
      split_ifs at h1 with hid
      · obtain rfl := Option.some.inj h1
        simp [deliveredBy, acceptedBy, hid]
      · obtain rfl := Option.some.inj h1
        simp [deliveredBy, acceptedBy, Ne.symm hid]
    -- a `receive` returns the whole queue it resolves to, and leaves the others
    · next args msgs =>
      split_ifs at h1 with hid
      · obtain ⟨session₁, h2, -, hmsgs⟩ := h.msgs_of_receive
        rw [← hid, h0] at h2
        obtain rfl := Option.some.inj h2
        obtain rfl := Option.some.inj h1
        by_cases hq : resolve session₀ user.pubkey args.asCoordinator = q
        · simp [deliveredBy, acceptedBy, hid, hq, hmsgs]
        · simp [deliveredBy, acceptedBy, hid, hq, Ne.symm hq]
      · obtain rfl := Option.some.inj h1
        simp [deliveredBy, acceptedBy, Ne.symm hid]
    · split_ifs at h1
      obtain rfl := Option.some.inj h1
      simp [deliveredBy, acceptedBy]
    · next _ hsend hreceive _ =>
      obtain rfl := Option.some.inj h1
      have hd : deliveredBy session₀ sid q ⟨.request user r, response⟩ = [] := by
        unfold deliveredBy
        split
        · next ha hr =>
          obtain ⟨-, rfl⟩ := Action.request.inj ha
          exact absurd hr (hreceive _ _ rfl)
        · rfl
      have ha : acceptedBy sid q ⟨.request user r, response⟩ = [] := by
        unfold acceptedBy
        split
        · next ha hr =>
          obtain ⟨-, rfl⟩ := Action.request.inj ha
          exact absurd hr (hsend _ rfl)
        · rfl
      rw [hd, ha, List.nil_append, List.append_nil]
  | popSession id =>
    rw [recordAfter] at h1
    split_ifs at h1
    obtain rfl := Option.some.inj h1
    simp [deliveredBy, acceptedBy]
  | _ =>
    obtain rfl := Option.some.inj h1
    simp [deliveredBy, acceptedBy]

def Event.touches (e : Event) : Option Uuid :=
  match e.action, e.response with
  | .request _ (.send args), .done => some args.sessionId
  | .request _ (.receive args), .msgs _ => some args.sessionId
  | _, _ => none

theorem deliveredBy_eq_nil {e : Event} (h : e.touches ≠ some sid) :
    deliveredBy session sid q e = [] := by
  unfold deliveredBy
  split
  · next user args msgs ha hr =>
    refine if_neg ?_
    rintro ⟨rfl, -⟩
    exact h (by rw [Event.touches, ha, hr])
  · rfl

theorem acceptedBy_eq_nil {e : Event} (h : e.touches ≠ some sid) : acceptedBy sid q e = [] := by
  unfold acceptedBy
  split
  · next user args ha hr =>
    refine if_neg ?_
    rintro rfl
    exact h (by rw [Event.touches, ha, hr])
  · rfl

theorem Acts.open_of_touches (h : Acts verify s a response s')
    (ht : Event.touches ⟨a, response⟩ = some sid) : ∃ session, s.session sid = some session := by
  unfold Event.touches at ht
  split at ht
  · next user args ha hr =>
    dsimp only at ha hr
    subst ha hr
    obtain ⟨session, hsession, -⟩ := h.open_of_send
    exact ⟨session, Option.some.inj ht ▸ hsession⟩
  · next user args msgs ha hr =>
    dsimp only at ha hr
    subst ha hr
    obtain ⟨session, hsession, -⟩ := h.msgs_of_receive
    exact ⟨session, Option.some.inj ht ▸ hsession⟩
  · cases ht

/-- Only sessions whose id was drawn have been sent to or received from. -/
theorem used_of_touches {es : List Event} (h : (system verify).Run es s) :
    ∀ e ∈ es, ∀ sid, e.touches = some sid → sid ∈ s.used := by
  refine h.invariant (P := fun es s => ∀ e ∈ es, ∀ sid, e.touches = some sid → sid ∈ s.used) ?_ ?_
  · intro _ _ e he
    cases he
  · intro es s e s' hr ih he e' hmem sid ht
    obtain ⟨-, t, hacts, rfl⟩ := acts_of_step he
    have hbefore : sid ∈ s.used := by
      obtain hmem | hlast := List.mem_append.mp hmem
      · exact ih e' hmem sid ht
      · obtain rfl := List.mem_singleton.mp hlast
        obtain ⟨session, hsession⟩ := hacts.open_of_touches ht
        exact (consistent_of_reachable hr.reachable).used_of_session sid session hsession
    exact hacts.mem_used hbefore

theorem delivered_eq_nil {es : List Event} (h : (system verify).Run es s) (hsid : sid ∉ s.used) :
    delivered session sid q es = [] := by
  refine List.flatMap_eq_nil_iff.mpr fun e he => deliveredBy_eq_nil fun ht => ?_
  exact hsid (used_of_touches h e he sid ht)

theorem accepted_eq_nil {es : List Event} (h : (system verify).Run es s) (hsid : sid ∉ s.used) :
    accepted sid q es = [] := by
  refine List.flatMap_eq_nil_iff.mpr fun e he => acceptedBy_eq_nil fun ht => ?_
  exact hsid (used_of_touches h e he sid ht)

theorem Acts.messages_of_created (h : Acts verify s a response s') (hclosed : s.session sid = none)
    (h1 : s'.session sid = some session) (q : SessionParticipant) : session.messages q = [] := by
  rw [h.session sid, hclosed] at h1
  cases a with
  | request user r =>
    obtain ⟨args, id, -, -, rfl⟩ | ⟨session₀, h0, -⟩ := sessionEffect_cases h1
    · rfl
    · cases h0
  | popSession id =>
    rw [recordAfter] at h1
    split_ifs at h1
  | _ => cases h1

theorem delivered_append_messages {es : List Event} (h : (system verify).Run es s) :
    ∀ sid session, s.session sid = some session → ∀ q,
      delivered session sid q es ++ session.messages q = accepted sid q es := by
  refine h.invariant (P := fun es s => ∀ sid session, s.session sid = some session → ∀ q,
    delivered session sid q es ++ session.messages q = accepted sid q es) ?_ ?_
  · rintro s rfl sid session hsession
    cases hsession
  · intro es s e s' hr ih he sid session hsession q
    obtain ⟨hfresh, t, hacts, rfl⟩ := acts_of_step he
    change t.session sid = some session at hsession
    have hs := consistent_of_reachable hr.reachable
    rw [delivered_append_singleton, accepted_append_singleton]
    -- a session that is created now has an empty queue, and nothing was delivered or accepted under
    -- its id
    by_cases hnew : e.action.fresh = some sid
    · have hclosed : s.session sid = none := by
        rw [Option.eq_none_iff_forall_ne_some]
        intro session₀ h0
        exact hfresh sid hnew (hs.used_of_session sid session₀ h0)
      have hquiet : e.touches ≠ some sid := by
        intro ht
        obtain ⟨session₀, h0⟩ := hacts.open_of_touches ht
        rw [hclosed] at h0
        cases h0
      rw [delivered_eq_nil hr (hfresh sid hnew), accepted_eq_nil hr (hfresh sid hnew),
        deliveredBy_eq_nil hquiet, acceptedBy_eq_nil hquiet,
        hacts.messages_of_created hclosed hsession q]
      rfl
    · obtain ⟨session₀, h0⟩ := (hacts.session_cases hsession).resolve_right hnew
      have hconserves : deliveredBy session₀ sid q e ++ session.messages q =
          session₀.messages q ++ acceptedBy sid q e := hacts.conserves h0 hsession hnew
      have hmeta := hacts.metadata h0 hsession hnew
      rw [delivered_congr hmeta, deliveredBy_congr hmeta, List.append_assoc, hconserves, ← List.append_assoc,
        ih sid session₀ h0 q]

/-- Every `receive` on a session that is still open returned the whole queue it
resolved to, under the metadata that the session still has. -/
theorem receive_of_run {es : List Event} (h : (system verify).Run es s) :
    ∀ sid session, s.session sid = some session → ∀ es₁ es₂ user args msgs,
      es = es₁ ++ ⟨.request user (.receive args), .msgs msgs⟩ :: es₂ → args.sessionId = sid →
      ∃ s₁ session₁, (system verify).Run es₁ s₁ ∧ s₁.session sid = some session₁ ∧
        session₁.metadata = session.metadata ∧ session₁.Member user.pubkey ∧
        msgs = session₁.messages (resolve session₁ user.pubkey args.asCoordinator) := by
  refine h.invariant (P := fun es s => ∀ sid session, s.session sid = some session →
    ∀ es₁ es₂ user args msgs,
      es = es₁ ++ ⟨.request user (.receive args), .msgs msgs⟩ :: es₂ → args.sessionId = sid →
      ∃ s₁ session₁, (system verify).Run es₁ s₁ ∧ s₁.session sid = some session₁ ∧
        session₁.metadata = session.metadata ∧ session₁.Member user.pubkey ∧
        msgs = session₁.messages (resolve session₁ user.pubkey args.asCoordinator)) ?_ ?_
  · rintro s rfl sid session hsession
    cases hsession
  · intro es s e s' hr ih he sid session hsession es₁ es₂ user args msgs heq hsid
    obtain ⟨hfresh, t, hacts, rfl⟩ := acts_of_step he
    change t.session sid = some session at hsession
    rcases List.eq_nil_or_concat' es₂ with rfl | ⟨es₂, e', rfl⟩
    · -- the `receive` is the last event
      obtain ⟨rfl, he'⟩ := List.append_inj' heq rfl
      obtain rfl := List.singleton_inj.mp he'
      obtain ⟨session₁, h1, hmember, hmsgs⟩ := hacts.msgs_of_receive
      rw [hsid] at h1
      refine ⟨s, session₁, hr, h1, ?_, hmember, hmsgs⟩
      exact (hacts.metadata h1 hsession nofun).symm
    · have hes : es = es₁ ++ ⟨.request user (.receive args), .msgs msgs⟩ :: es₂ := by
        rw [← List.cons_append, ← List.append_assoc] at heq
        exact (List.append_inj' heq rfl).1
      by_cases hnew : e.action.fresh = some sid
      · -- the id was drawn before, when the `receive` succeeded
        have hmem : ⟨.request user (.receive args), .msgs msgs⟩ ∈ es := by
          rw [hes]
          exact List.mem_append_right _ List.mem_cons_self
        exact absurd (used_of_touches hr _ hmem sid (congrArg some hsid)) (hfresh sid hnew)
      · obtain ⟨session₀, h0⟩ := (hacts.session_cases hsession).resolve_right hnew
        obtain ⟨s₁, session₁, hr₁, h1, hmeta, hrest⟩ :=
          ih sid session₀ h0 es₁ es₂ user args msgs hes hsid
        exact ⟨s₁, session₁, hr₁, h1, hmeta.trans (hacts.metadata h0 hsession hnew).symm, hrest⟩

theorem resolve_eq_coordinator_iff {pubkey : PublicKey} {asCoordinator : Bool} :
    resolve session pubkey asCoordinator = .coordinator ↔
      pubkey = session.coordinatorPubkey ∧ asCoordinator = true := by
  unfold resolve
  split_ifs with h
  · exact iff_of_true rfl h
  · exact iff_of_false nofun h

/-- Exactly-once, in-order delivery: each queue of an open session holds the
accepted copies that were not yet delivered, and a `receive` reads the
coordinator's queue only for the coordinator who asked for it. -/
theorem exactly_once_delivery {es : List Event} (h : (system verify).Run es s)
    (hopen : s.session sid = some session) :
    (∀ q, delivered session sid q es ++ session.messages q = accepted sid q es) ∧
    ∀ es₁ es₂ user args msgs,
      es = es₁ ++ ⟨.request user (.receive args), .msgs msgs⟩ :: es₂ → args.sessionId = sid →
      ∃ s₁ session₁, (system verify).Run es₁ s₁ ∧ s₁.session sid = some session₁ ∧
        session₁.metadata = session.metadata ∧
        msgs = session₁.messages (resolve session₁ user.pubkey args.asCoordinator) ∧
        (resolve session₁ user.pubkey args.asCoordinator = .coordinator ↔
          user.pubkey = session.coordinatorPubkey ∧ args.asCoordinator = true) := by
  refine ⟨delivered_append_messages h sid session hopen, ?_⟩
  intro es₁ es₂ user args msgs hes hsid
  obtain ⟨s₁, session₁, hr, h1, hmeta, -, hmsgs⟩ :=
    receive_of_run h sid session hopen es₁ es₂ user args msgs hes hsid
  refine ⟨s₁, session₁, hr, h1, hmeta, hmsgs, ?_⟩
  rw [resolve_congr hmeta]
  exact resolve_eq_coordinator_iff

/-- Key 2 writes to the coordinator, and twice to the same user as a participant,
who then reads the former queue. -/
def exchange : List Action :=
  loginActions (sampleKey 1) 10 11 2 ++ loginActions (sampleKey 2) 20 21 2 ++
    [.request ⟨sampleKey 1, 11⟩ (.createNewSession ⟨[sampleKey 1, sampleKey 2], 1⟩ 30),
      .request ⟨sampleKey 2, 21⟩ (.send ⟨30, [], [7]⟩),
      .request ⟨sampleKey 2, 21⟩ (.send ⟨30, [sampleKey 1, sampleKey 1], [8]⟩),
      .request ⟨sampleKey 1, 11⟩ (.receive ⟨30, true⟩)]

theorem exactly_once_delivery_exchange : ∃ es s session,
    exec acceptAll new exchange = some (es, s) ∧ s.session 30 = some session ∧
      delivered session 30 .coordinator es = [⟨sampleKey 2, [7]⟩] ∧
      delivered session 30 .coordinator es ++ session.messages .coordinator =
        accepted 30 .coordinator es ∧
      delivered session 30 (.participant (sampleKey 1)) es ++
          session.messages (.participant (sampleKey 1)) =
        accepted 30 (.participant (sampleKey 1)) es := by
  have hrun : ((exec acceptAll new exchange).bind fun r => (r.2.session 30).map
      fun session => delivered session 30 .coordinator r.1) = some [⟨sampleKey 2, [7]⟩] := by
    decide
  obtain ⟨⟨es, s⟩, he, hsession⟩ := Option.bind_eq_some_iff.mp hrun
  obtain ⟨session, hopen, hdelivered⟩ := Option.map_eq_some_iff.mp hsession
  have hall := (exactly_once_delivery (run_of_exec he) hopen).1
  exact ⟨es, s, session, he, hopen, hdelivered, hall _, hall _⟩

end FrostTools.Frostd.Server
