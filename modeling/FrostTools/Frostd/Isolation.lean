import FrostTools.Frostd.Delivery

/-!
# Isolation between users

Requests of a user depend on, and change, what the user may see. Requests of
others reach the queues of the user by messages they send as members of a
session, or by closing a session they coordinate.
-/

namespace FrostTools.Frostd
open Api

@[ext] structure SessionView where
  /-- Present for members. -/
  metadata : Option (List PublicKey × PublicKey × UInt8)
  participantQueue : List Msg
  /-- Present for the coordinator. -/
  coordinatorQueue : Option (List Msg)

/-- What a user may see of the server. The ids of open sessions are those with a view. -/
@[ext] structure View where
  index : Option (Finset Uuid)
  sessions : Uuid → Option SessionView

namespace Session

def view (pubkey : PublicKey) (s : Session) : SessionView where
  metadata := if s.Member pubkey then some s.metadata else none
  participantQueue := s.messages (.participant pubkey)
  coordinatorQueue :=
    if s.coordinatorPubkey = pubkey then some (s.messages .coordinator) else none

def Owns (s : Session) (pubkey : PublicKey) : SessionParticipant → Prop
  | .coordinator => s.coordinatorPubkey = pubkey
  | .participant pubkey' => pubkey' = pubkey

theorem owns_resolve (s : Session) (pubkey : PublicKey) (asCoordinator : Bool) :
    s.Owns pubkey (resolve s pubkey asCoordinator) := by
  unfold resolve
  split_ifs with h
  · exact h.1.symm
  · rfl

variable {s₁ s₂ : Session} {pubkey : PublicKey}

theorem owns_congr (h : s₁.metadata = s₂.metadata) (q : SessionParticipant) :
    s₁.Owns pubkey q ↔ s₂.Owns pubkey q := by
  cases q with
  | coordinator => rw [Owns, Owns, (metadata_eq_iff.mp h).2.1]
  | participant _ => exact Iff.rfl

theorem view_eq_iff : s₁.view pubkey = s₂.view pubkey ↔
    (s₁.Member pubkey ↔ s₂.Member pubkey) ∧
    (s₁.Member pubkey → s₁.metadata = s₂.metadata) ∧
    ∀ q, s₁.Owns pubkey q → s₁.messages q = s₂.messages q := by
  rw [SessionView.ext_iff]
  dsimp only [view]
  constructor
  · rintro ⟨hmeta, hparticipant, hcoordinator⟩
    refine ⟨?_, ?_, ?_⟩
    · split_ifs at hmeta with h1 h2 h2
      · exact iff_of_true h1 h2
      · exact iff_of_false h1 h2
    · intro h1
      rw [if_pos h1] at hmeta
      split_ifs at hmeta
      exact Option.some.inj hmeta
    · rintro (_ | pubkey') hq
      · have hc : s₁.coordinatorPubkey = pubkey := hq
        rw [if_pos hc] at hcoordinator
        split_ifs at hcoordinator
        exact Option.some.inj hcoordinator
      · obtain rfl : pubkey' = pubkey := hq
        exact hparticipant
  · rintro ⟨hmember, hmeta, hqueue⟩
    by_cases hm : s₁.Member pubkey
    · have hcoord : s₁.coordinatorPubkey = s₂.coordinatorPubkey :=
        (metadata_eq_iff.mp (hmeta hm)).2.1
      refine ⟨?_, hqueue _ rfl, ?_⟩
      · rw [if_pos hm, if_pos (hmember.mp hm), hmeta hm]
      · rw [← hcoord]
        split_ifs with hc
        · exact congrArg some (hqueue .coordinator hc)
        · rfl
    · have h1 : s₁.coordinatorPubkey ≠ pubkey := fun h => hm (.inr h)
      have h2 : s₂.coordinatorPubkey ≠ pubkey := fun h => hm (hmember.mpr (.inr h))
      refine ⟨?_, hqueue _ rfl, ?_⟩
      · rw [if_neg hm, if_neg fun h => hm (hmember.mpr h)]
      · rw [if_neg h1, if_neg h2]

theorem resolve_eq_of_view (h : s₁.view pubkey = s₂.view pubkey) (asCoordinator : Bool) :
    resolve s₁ pubkey asCoordinator = resolve s₂ pubkey asCoordinator := by
  obtain ⟨hmember, hmeta, -⟩ := view_eq_iff.mp h
  by_cases hm : s₁.Member pubkey
  · exact resolve_congr (hmeta hm) pubkey asCoordinator
  · have h1 : pubkey ≠ s₁.coordinatorPubkey := fun h => hm (.inr h.symm)
    have h2 : pubkey ≠ s₂.coordinatorPubkey := fun h => hm (hmember.mpr (.inr h.symm))
    simp [resolve, h1, h2]

/-- Updates that keep the metadata, and that treat the user's own queues alike,
lead from equal views to equal views. -/
theorem view_eq_of_queues {s₁' s₂' : Session} (h : s₁.view pubkey = s₂.view pubkey)
    (h1 : s₁'.metadata = s₁.metadata) (h2 : s₂'.metadata = s₂.metadata)
    (hq : ∀ q, s₁.Owns pubkey q → s₁'.messages q = s₂'.messages q) :
    s₁'.view pubkey = s₂'.view pubkey := by
  obtain ⟨hmember, hmeta, -⟩ := view_eq_iff.mp h
  refine view_eq_iff.mpr ⟨?_, ?_, ?_⟩
  · rw [member_congr h1, member_congr h2]
    exact hmember
  · intro hm
    rw [h1, h2]
    exact hmeta ((member_congr h1 pubkey).mp hm)
  · intro q hown
    exact hq q ((owns_congr h1 q).mp hown)

theorem view_enqueue (h : s₁.view pubkey = s₂.view pubkey) (user : User) (args : SendArgs) :
    (enqueue user args s₁).view pubkey = (enqueue user args s₂).view pubkey := by
  refine view_eq_of_queues h (metadata_enqueue _ _ _) (metadata_enqueue _ _ _) ?_
  intro q hq
  rw [messages_enqueue, messages_enqueue, (view_eq_iff.mp h).2.2 q hq]

theorem view_drain (h : s₁.view pubkey = s₂.view pubkey) (q : SessionParticipant) :
    (s₁.drain q).2.view pubkey = (s₂.drain q).2.view pubkey := by
  refine view_eq_of_queues h (metadata_drain _ _) (metadata_drain _ _) ?_
  intro q' hq
  rw [messages_drain, messages_drain, (view_eq_iff.mp h).2.2 q' hq]

theorem canSend_eq_of_view {user : User} (h : s₁.view user.pubkey = s₂.view user.pubkey)
    (args : SendArgs) : canSend s₁ user args = canSend s₂ user args := by
  obtain ⟨hmember, hmeta, -⟩ := view_eq_iff.mp h
  by_cases hm : s₁.Member user.pubkey
  · have hmeta := hmeta hm
    rw [canSend, canSend, (metadata_eq_iff.mp hmeta).1]
    simp only [hm, hmember.mp hm]
  · have hm2 : ¬s₂.Member user.pubkey := fun h => hm (hmember.mpr h)
    simp [canSend, hm, hm2]

end Session

def Request.IsSession : Request → Prop
  | .logout => False
  | .createNewSession _ _ => False
  | _ => True

def AppState.view (state : AppState) (pubkey : PublicKey) : View where
  index := state.sessions.sessionsByPubkey.lookup pubkey
  sessions sid := (state.sessions.sessions.lookup sid).map (Session.view pubkey)

section Agreement

variable {now₁ now₂ : ℕ} {state₁ state₂ : AppState} {user : User}

theorem AppState.lookup_of_view (h : state₁.view user.pubkey = state₂.view user.pubkey)
    (sid : Uuid) :
    (state₁.sessions.sessions.lookup sid = none ∧ state₂.sessions.sessions.lookup sid = none) ∨
    ∃ s₁ s₂, state₁.sessions.sessions.lookup sid = some s₁ ∧
      state₂.sessions.sessions.lookup sid = some s₂ ∧
      s₁.view user.pubkey = s₂.view user.pubkey := by
  have hsid : (state₁.sessions.sessions.lookup sid).map (Session.view user.pubkey) =
      (state₂.sessions.sessions.lookup sid).map (Session.view user.pubkey) :=
    congrFun (congrArg View.sessions h) sid
  cases h1 : state₁.sessions.sessions.lookup sid with
  | none =>
    rw [h1, Option.map_none, eq_comm, Option.map_eq_none_iff] at hsid
    exact .inl ⟨rfl, hsid⟩
  | some s₁ =>
    rw [h1, Option.map_some, eq_comm, Option.map_eq_some_iff] at hsid
    obtain ⟨s₂, h2, hview⟩ := hsid
    exact .inr ⟨s₁, s₂, rfl, h2, hview.symm⟩

theorem send_agrees (h : state₁.view user.pubkey = state₂.view user.pubkey) (args : SendArgs) :
    (send now₁ state₁ user args).1 = (send now₂ state₂ user args).1 := by
  unfold send
  split_ifs with hlen
  · rfl
  · obtain ⟨h1, h2⟩ | ⟨s₁, s₂, h1, h2, hview⟩ := AppState.lookup_of_view h args.sessionId
    · rw [h1, h2]
    · rw [h1, h2]
      dsimp only
      rw [Session.canSend_eq_of_view hview]
      split_ifs <;> rfl

theorem receive_agrees (h : state₁.view user.pubkey = state₂.view user.pubkey)
    (args : ReceiveArgs) :
    (receive now₁ state₁ user args).1 = (receive now₂ state₂ user args).1 := by
  unfold receive
  obtain ⟨h1, h2⟩ | ⟨s₁, s₂, h1, h2, hview⟩ := AppState.lookup_of_view h args.sessionId
  · rw [h1, h2]
  · rw [h1, h2]
    obtain ⟨hmember, -, hqueue⟩ := Session.view_eq_iff.mp hview
    by_cases hm : s₁.Member user.pubkey
    · have hmsgs := hqueue _ (s₁.owns_resolve user.pubkey args.asCoordinator)
      rw [Session.resolve_eq_of_view hview] at hmsgs
      simp [hm, hmember.mp hm, hmsgs, Session.resolve_eq_of_view hview]
    · have hm2 : ¬s₂.Member user.pubkey := fun h => hm (hmember.mpr h)
      simp [hm, hm2]

/-- Whoever has an open session in the index entry is a member of it. -/
def AppState.IndexSound (state : AppState) : Prop :=
  ∀ pubkey sid s, sid ∈ SessionState.listed state.sessions.sessionsByPubkey pubkey →
    state.sessions.sessions.lookup sid = some s → s.Member pubkey

theorem AppState.index_eq_of_view (h : state₁.view user.pubkey = state₂.view user.pubkey) :
    state₁.sessions.sessionsByPubkey.lookup user.pubkey =
      state₂.sessions.sessionsByPubkey.lookup user.pubkey := congrArg View.index h

theorem AppState.lookup_of_listed (h : state₁.view user.pubkey = state₂.view user.pubkey)
    (hs : state₁.IndexSound) {sid : Uuid} {ids : Finset Uuid}
    (hids : state₁.sessions.sessionsByPubkey.lookup user.pubkey = some ids) (hmem : sid ∈ ids) :
    (state₁.sessions.sessions.lookup sid = none ∧ state₂.sessions.sessions.lookup sid = none) ∨
    ∃ s₁ s₂, state₁.sessions.sessions.lookup sid = some s₁ ∧
      state₂.sessions.sessions.lookup sid = some s₂ ∧ s₁.metadata = s₂.metadata := by
  obtain hnone | ⟨s₁, s₂, h1, h2, hview⟩ := AppState.lookup_of_view h sid
  · exact .inl hnone
  · have hmember : s₁.Member user.pubkey := by
      refine hs user.pubkey sid s₁ ?_ h1
      rw [SessionState.listed, hids]
      exact hmem
    exact .inr ⟨s₁, s₂, h1, h2, (Session.view_eq_iff.mp hview).2.1 hmember⟩

theorem getSessionInfo_agrees (h : state₁.view user.pubkey = state₂.view user.pubkey)
    (hs : state₁.IndexSound) (args : GetSessionInfoArgs) :
    (getSessionInfo state₁ user args).1 = (getSessionInfo state₂ user args).1 := by
  unfold getSessionInfo
  rw [← AppState.index_eq_of_view h]
  cases hids : state₁.sessions.sessionsByPubkey.lookup user.pubkey with
  | none => rfl
  | some ids =>
    dsimp only
    split_ifs with hmem
    · obtain ⟨h1, h2⟩ | ⟨s₁, s₂, h1, h2, hmeta⟩ := AppState.lookup_of_listed h hs hids hmem
      · rw [h1, h2]
      · obtain ⟨hp, hc, hn⟩ := Session.metadata_eq_iff.mp hmeta
        rw [h1, h2]
        dsimp only
        rw [hp, hc, hn]
    · rfl

theorem closeSession_agrees (h : state₁.view user.pubkey = state₂.view user.pubkey)
    (hs : state₁.IndexSound) (args : CloseSessionArgs) :
    (closeSession state₁ user args).1 = (closeSession state₂ user args).1 := by
  unfold closeSession
  rw [← AppState.index_eq_of_view h]
  cases hids : state₁.sessions.sessionsByPubkey.lookup user.pubkey with
  | none => rfl
  | some ids =>
    dsimp only
    split_ifs with hmem
    · obtain ⟨h1, h2⟩ | ⟨s₁, s₂, h1, h2, hmeta⟩ := AppState.lookup_of_listed h hs hids hmem
      · rw [h1, h2]
      · rw [h1, h2]
        dsimp only
        rw [(Session.metadata_eq_iff.mp hmeta).2.1]
        split_ifs <;> rfl
    · rfl

theorem closeSession_index (state : AppState) (args : CloseSessionArgs) :
    (closeSession state user args).2.sessions.sessionsByPubkey.lookup user.pubkey =
      if (closeSession state user args).1 = .ok () then
        (state.sessions.sessionsByPubkey.lookup user.pubkey).map (·.erase args.sessionId)
      else state.sessions.sessionsByPubkey.lookup user.pubkey := by
  unfold closeSession
  cases hids : state.sessions.sessionsByPubkey.lookup user.pubkey with
  | none => simp [hids]
  | some ids =>
    by_cases hmem : args.sessionId ∈ ids
    · cases state.sessions.sessions.lookup args.sessionId with
      | none => simp [hmem, hids]
      | some s =>
        by_cases hc : s.coordinatorPubkey = user.pubkey
        · simp only [hmem, not_true_eq_false, ↓reduceIte, hc, ne_eq]
          rw [SessionState.lookup_removeId, if_pos rfl, SessionState.lookup_foldl_removeId, hids]
          split_ifs <;> simp
        · simp [hmem, hc, hids]
    · simp [hmem, hids]

theorem sessionEffect_view {r : Request} (hr : r.IsSession) (response : Response) (sid : Uuid)
    {before₁ before₂ : Option Session}
    (h : before₁.map (Session.view user.pubkey) = before₂.map (Session.view user.pubkey)) :
    (sessionEffect user sid r response before₁).map (Session.view user.pubkey) =
      (sessionEffect user sid r response before₂).map (Session.view user.pubkey) := by
  have hpoint : ∀ f : Session → Session,
      (∀ s₁ s₂, s₁.view user.pubkey = s₂.view user.pubkey →
        (f s₁).view user.pubkey = (f s₂).view user.pubkey) →
      (before₁.map f).map (Session.view user.pubkey) =
        (before₂.map f).map (Session.view user.pubkey) := by
    intro f hf
    cases before₁ with
    | none =>
      rw [Option.map_none, eq_comm, Option.map_eq_none_iff] at h
      rw [h]
    | some s₁ =>
      rw [Option.map_some, eq_comm, Option.map_eq_some_iff] at h
      obtain ⟨s₂, rfl, hview⟩ := h
      exact congrArg some (hf s₁ s₂ hview.symm)
  unfold sessionEffect
  split
  · exact hr.elim
  · next args =>
    split_ifs
    · exact hpoint _ fun s₁ s₂ hview => Session.view_enqueue hview user args
    · exact h
  · next args msgs =>
    split_ifs
    · refine hpoint _ fun s₁ s₂ hview => ?_
      rw [Session.resolve_eq_of_view hview]
      exact Session.view_drain hview _
    · exact h
  · split_ifs
    · rfl
    · exact h
  · exact h

theorem handle_agrees (h : state₁.view user.pubkey = state₂.view user.pubkey)
    (hs : state₁.IndexSound) {r : Request} (hr : r.IsSession) :
    (handle now₁ state₁ user r).1 = (handle now₂ state₂ user r).1 := by
  cases r with
  | logout => exact hr.elim
  | createNewSession _ _ => exact hr.elim
  | listSessions =>
    have hindex := AppState.index_eq_of_view h
    simp only [handle, listSessions, SessionState.listed, hindex, Prod.map]
  | getSessionInfo args => exact congrArg (Response.ofResult _) (getSessionInfo_agrees h hs args)
  | send args => exact congrArg (Response.ofResult _) (send_agrees h args)
  | receive args => exact congrArg (Response.ofResult _) (receive_agrees h args)
  | closeSession args => exact congrArg (Response.ofResult _) (closeSession_agrees h hs args)

theorem handle_index_agrees (h : state₁.view user.pubkey = state₂.view user.pubkey)
    (hs : state₁.IndexSound) {r : Request} (hr : r.IsSession) :
    (handle now₁ state₁ user r).2.sessions.sessionsByPubkey.lookup user.pubkey =
      (handle now₂ state₂ user r).2.sessions.sessionsByPubkey.lookup user.pubkey := by
  have hindex := AppState.index_eq_of_view h
  cases r with
  | logout => exact hr.elim
  | createNewSession _ _ => exact hr.elim
  | listSessions => exact hindex
  | getSessionInfo args =>
    simpa only [handle, Prod.map, id_eq, getSessionInfo_state] using hindex
  | send args => simpa only [handle, Prod.map, id_eq, send_index] using hindex
  | receive args => simpa only [handle, Prod.map, id_eq, receive_index] using hindex
  | closeSession args =>
    simp only [handle, Prod.map, id_eq]
    rw [closeSession_index, closeSession_index, closeSession_agrees h hs args, hindex]

/-- The unwinding step: a session request of a user on two states that agree on
the user's view is answered alike and leaves states that agree again. -/
theorem handle_view_agrees (h : state₁.view user.pubkey = state₂.view user.pubkey)
    (hs : state₁.IndexSound) {r : Request} (hr : r.IsSession) :
    (handle now₁ state₁ user r).2.view user.pubkey =
      (handle now₂ state₂ user r).2.view user.pubkey := by
  refine View.ext (handle_index_agrees h hs hr) (funext fun sid => ?_)
  change (DelayMap.lookup _ sid).map _ = (DelayMap.lookup _ sid).map _
  rw [handle_lookup, handle_lookup, ← handle_agrees h hs hr]
  exact sessionEffect_view hr _ sid (congrFun (congrArg View.sessions h) sid)

end Agreement

/-- A session request does not depend on which of its tokens a user presented. -/
theorem handle_congr_token {now : ℕ} {state : AppState} {user user' : User} {r : Request}
    (hr : r.IsSession) (h : user.pubkey = user'.pubkey) :
    handle now state user r = handle now state user' r := by
  obtain ⟨pubkey, token⟩ := user
  obtain ⟨pubkey', token'⟩ := user'
  obtain rfl : pubkey = pubkey' := h
  cases r with
  | logout => exact hr.elim
  | createNewSession _ _ => exact hr.elim
  | _ => rfl

def Request.target : Request → Option Uuid
  | .getSessionInfo args => some args.sessionId
  | .send args => some args.sessionId
  | .receive args => some args.sessionId
  | .closeSession args => some args.sessionId
  | _ => none

theorem Session.Owns.unique {s : Session} {q : SessionParticipant} {pubkey pubkey' : PublicKey}
    (h : s.Owns pubkey q) (h' : s.Owns pubkey' q) : pubkey = pubkey' := by
  cases q with
  | coordinator => exact Eq.trans (Eq.symm h) h'
  | participant _ => exact Eq.trans (Eq.symm h) h'

theorem member_of_canSend {s : Session} {user : User} {args : SendArgs}
    (h : canSend s user args = true) :
    s.Member user.pubkey ∧ ∀ pubkey q, s.Owns pubkey q → 0 < copies q args → s.Member pubkey := by
  rw [canSend, Bool.and_eq_true, decide_eq_true_eq, List.all_eq_true] at h
  obtain ⟨hm, hall⟩ := h
  refine ⟨hm, fun pubkey q hq hpos => ?_⟩
  cases q with
  | coordinator => exact .inr hq
  | participant pubkey' =>
    obtain rfl : pubkey' = pubkey := hq
    rw [← count_recipients, List.count_pos_iff] at hpos
    exact .inl (of_decide_eq_true (hall _ hpos))

namespace Server

variable {verify : Verifier} {s s' : Server} {a : Action} {response : Response}
  {sid : Uuid} {session : Session} {user : User} {r : Request}

/-- What a request of another user may do to the queues of `pubkey` in an open session. -/
def OtherEffect (pubkey : PublicKey) (user : User) (r : Request) (response : Response)
    (sid : Uuid) (session : Session) (after : Option Session) : Prop :=
  (∃ session', after = some session' ∧ session'.metadata = session.metadata ∧
    ∀ q, session.Owns pubkey q → session'.messages q = session.messages q ∨
      ∃ args, r = .send args ∧ response = .done ∧ args.sessionId = sid ∧
        session.Member user.pubkey ∧ session.Member pubkey ∧
        session'.messages q =
          session.messages q ++ List.replicate (copies q args) ⟨user.pubkey, args.msg⟩) ∨
  (after = none ∧ session.coordinatorPubkey = user.pubkey ∧
    ∃ args, r = .closeSession args ∧ response = .done ∧ args.sessionId = sid)

/-- What a state guarantees about the next request of any user. -/
structure Isolated (verify : Verifier) (s : Server) : Prop where
  agrees : ∀ t, (system verify).Reachable t → ∀ user user' r, r.IsSession →
    user.pubkey = user'.pubkey → s.app.view user.pubkey = t.app.view user.pubkey →
    ∀ response s' response' t', s.step verify (.request user r) = some (response, s') →
      t.step verify (.request user' r) = some (response', t') →
      response = response' ∧ s'.app.view user.pubkey = t'.app.view user.pubkey
  others : ∀ user r response s', s.step verify (.request user r) = some (response, s') →
    ∀ pubkey, pubkey ≠ user.pubkey → ∀ sid,
      (∀ session, s.session sid = some session →
        OtherEffect pubkey user r response sid session (s'.session sid)) ∧
      (s.session sid = none → ∀ session, s'.session sid = some session →
        ∀ q, session.messages q = [])
  nonmember : ∀ user r response s', s.step verify (.request user r) = some (response, s') →
    ∀ sid session, s.session sid = some session → ¬session.Member user.pubkey →
      r.target = some sid → (∃ e, response = .error e) ∧ s'.session sid = some session
  own : ∀ user args msgs s',
    s.step verify (.request user (.receive args)) = some (.msgs msgs, s') →
    ∃ session q, s.session args.sessionId = some session ∧ session.Owns user.pubkey q ∧
      msgs = session.messages q

theorem Consistent.indexSound (hs : s.Consistent) : s.app.IndexSound :=
  fun pubkey sid session hmem hsession => (hs.listed_iff sid session hsession pubkey).mp hmem

theorem Acts.request_app (h : Acts verify s (.request user r) response s') :
    response = (handle s.now s.app user r).1 ∧ s'.app = (handle s.now s.app user r).2 := by
  cases h with
  | request _ _ _ => exact ⟨rfl, rfl⟩

theorem agrees_of_step {t t' : Server} {user' : User} {response' : Response}
    (hs : s.Consistent) (hr : r.IsSession) (huser : user.pubkey = user'.pubkey)
    (hview : s.app.view user.pubkey = t.app.view user.pubkey)
    (h : s.step verify (.request user r) = some (response, s'))
    (h' : t.step verify (.request user' r) = some (response', t')) :
    response = response' ∧ s'.app.view user.pubkey = t'.app.view user.pubkey := by
  obtain ⟨-, s₁, hacts, rfl⟩ := acts_of_step h
  obtain ⟨-, t₁, hacts', rfl⟩ := acts_of_step h'
  obtain ⟨rfl, happ⟩ := hacts.request_app
  obtain ⟨rfl, happ'⟩ := hacts'.request_app
  change _ ∧ s₁.app.view user.pubkey = t₁.app.view user.pubkey
  rw [happ, happ', ← handle_congr_token hr huser]
  exact ⟨handle_agrees hview hs.indexSound hr, handle_view_agrees hview hs.indexSound hr⟩

theorem Acts.otherEffect {pubkey : PublicKey} (h : Acts verify s (.request user r) response s')
    (hcreated : (Action.request user r).fresh ≠ some sid) (hsession : s.session sid = some session)
    (hne : pubkey ≠ user.pubkey) :
    OtherEffect pubkey user r response sid session (s'.session sid) := by
  have hsame : OtherEffect pubkey user r response sid session (some session) :=
    .inl ⟨session, rfl, rfl, fun _ _ => .inl rfl⟩
  rw [h.session sid, hsession]
  change OtherEffect _ _ _ _ _ _ (sessionEffect user sid r response (some session))
  unfold sessionEffect
  split
  · next args id' id =>
    split_ifs with hid
    · exact absurd (congrArg some hid.symm) hcreated
    · exact hsame
  · next args =>
    split_ifs with hid
    -- a member may add copies of its message to the queues of others
    · obtain ⟨session₁, h1, hcan⟩ := h.open_of_send
      rw [← hid, hsession] at h1
      obtain rfl := Option.some.inj h1
      obtain ⟨hmember, hrecipient⟩ := member_of_canSend hcan
      refine .inl ⟨_, rfl, metadata_enqueue _ _ _, fun q hq => ?_⟩
      rw [messages_enqueue]
      rcases Nat.eq_zero_or_pos (copies q args) with h0 | hpos
      · exact .inl (by rw [h0, List.replicate_zero, List.append_nil])
      · exact .inr ⟨args, rfl, rfl, hid.symm, hmember, hrecipient pubkey q hq hpos, rfl⟩
    · exact hsame
  · next args msgs =>
    split_ifs with hid
    -- a user drains a queue of its own, which is nobody else's
    · refine .inl ⟨_, rfl, Session.metadata_drain _ _, fun q hq => .inl ?_⟩
      have hother : q ≠ resolve session user.pubkey args.asCoordinator := by
        rintro rfl
        exact hne (hq.unique (session.owns_resolve _ _))
      rw [Session.messages_drain, if_neg hother]
    · exact hsame
  · next args =>
    split_ifs with hid
    · obtain ⟨session₁, h1, hc⟩ := h.coordinator_of_close
      rw [← hid, hsession] at h1
      obtain rfl := Option.some.inj h1
      exact .inr ⟨rfl, hc, args, rfl, rfl, hid.symm⟩
    · exact hsame
  · exact hsame

theorem Acts.nonmember (h : Acts verify s (.request user r) response s') (hs : s.Consistent)
    (hsession : s.session sid = some session) (hm : ¬session.Member user.pubkey)
    (ht : r.target = some sid) :
    (∃ e, response = .error e) ∧ s'.session sid = some session := by
  have hunlisted : sid ∉ SessionState.listed s.app.sessions.sessionsByPubkey user.pubkey :=
    fun hmem => hm ((hs.listed_iff sid session hsession user.pubkey).mp hmem)
  -- `get_session_info` and `close_session` look at the index, the other two at the record
  have herror : ∃ e, response = .error e := by
    obtain ⟨rfl, -⟩ := h.request_app
    cases r with
    | getSessionInfo args =>
      obtain rfl := Option.some.inj ht
      cases hr : (getSessionInfo s.app user args).1 with
      | error e => exact ⟨e, congrArg (Response.ofResult _) hr⟩
      | ok info => exact absurd (getSessionInfo_ok_iff.mp hr).1 hunlisted
    | send args =>
      obtain rfl := Option.some.inj ht
      cases hr : (send s.now s.app user args).1 with
      | error e => exact ⟨e, congrArg (Response.ofResult _) hr⟩
      | ok _ =>
        obtain ⟨-, session₁, h1, hcan⟩ := send_ok_iff.mp hr
        obtain rfl := Option.some.inj (hsession.symm.trans h1)
        exact absurd (member_of_canSend hcan).1 hm
    | receive args =>
      obtain rfl := Option.some.inj ht
      cases hr : (receive s.now s.app user args).1 with
      | error e => exact ⟨e, congrArg (Response.ofResult _) hr⟩
      | ok msgs =>
        obtain ⟨session₁, h1, hmember, -⟩ := receive_ok_iff.mp hr
        obtain rfl := Option.some.inj (hsession.symm.trans h1)
        exact absurd hmember hm
    | closeSession args =>
      obtain rfl := Option.some.inj ht
      cases hr : (closeSession s.app user args).1 with
      | error e => exact ⟨e, congrArg (Response.ofResult _) hr⟩
      | ok _ => exact absurd (closeSession_ok_iff.mp hr).1 hunlisted
    | _ => cases ht
  refine ⟨herror, ?_⟩
  obtain ⟨e, rfl⟩ := herror
  rw [h.session sid, hsession]
  cases r <;> rfl

/-- Isolation holds in every reachable state. -/
theorem isolated_of_reachable (h : (system verify).Reachable s) : s.Isolated verify := by
  have hs := consistent_of_reachable h
  refine ⟨?_, ?_, ?_, ?_⟩
  · intro t _ user user' r hr huser hview response s' response' t' h1 h2
    exact agrees_of_step hs hr huser hview h1 h2
  · intro user r response s' hstep pubkey hne sid
    obtain ⟨hfresh, t, hacts, rfl⟩ := acts_of_step hstep
    constructor
    · intro session hsession
      refine hacts.otherEffect (fun hid => ?_) hsession hne
      exact hfresh sid hid (hs.used_of_session sid session hsession)
    · intro hclosed session hsession
      exact hacts.messages_of_created hclosed hsession
  · intro user r response s' hstep sid session hsession hm ht
    obtain ⟨-, t, hacts, rfl⟩ := acts_of_step hstep
    exact hacts.nonmember hs hsession hm ht
  · intro user args msgs s' hstep
    obtain ⟨-, t, hacts, rfl⟩ := acts_of_step hstep
    obtain ⟨session, hsession, -, hmsgs⟩ := hacts.msgs_of_receive
    exact ⟨session, _, hsession, session.owns_resolve _ _, hmsgs⟩

theorem isolated_exchange : ∃ es s, exec acceptAll new exchange = some (es, s) ∧
    s.Isolated acceptAll := by
  have hrun : (exec acceptAll new exchange).isSome = true := by decide
  obtain ⟨⟨es, s⟩, he⟩ := Option.isSome_iff_exists.mp hrun
  exact ⟨es, s, he, isolated_of_reachable (run_of_exec he).reachable⟩

end Server
end FrostTools.Frostd
