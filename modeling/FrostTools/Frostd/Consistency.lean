import FrostTools.Frostd.Server

/-!
# The session table and its index

The sessions are kept twice, as records by id and as ids by public key. The
invariant below relates the two in every reachable state, also between the two
steps of an expiry.
-/

namespace FrostTools.Frostd.Server
open Api

def session (s : Server) (sid : Uuid) : Option Session := s.app.sessions.sessions.lookup sid

def listed (s : Server) (pubkey : PublicKey) : Finset Uuid :=
  SessionState.listed s.app.sessions.sessionsByPubkey pubkey

variable {verify : Verifier} {s s' : Server} {a : Action} {response : Response}

/-- The record under `sid` after an action, in terms of the record before it. -/
def recordAfter (a : Action) (response : Response) (sid : Uuid) (before : Option Session) :
    Option Session :=
  match a with
  | .request user r => sessionEffect user sid r response before
  | .popSession id => if sid = id then none else before
  | _ => before

/-- Whether an action in the state `s` leaves or puts `sid` into the index entry of `pubkey`. -/
def listedAfter (s : Server) (a : Action) (response : Response) (sid : Uuid)
    (pubkey : PublicKey) : Prop :=
  match a with
  | .request user r =>
    (sid ∈ s.listed pubkey ∧ ¬indexRemoved user sid r response (s.session sid) pubkey) ∨
      indexAdded user sid r response pubkey
  | .finishExpiry =>
    sid ∈ s.listed pubkey ∧
      ¬∃ session, s.expiring = some (sid, session) ∧ pubkey ∈ session.pubkeys
  | _ => sid ∈ s.listed pubkey

/-- A record changes by a request or when its session is popped. -/
theorem Acts.session (h : Acts verify s a response s') (sid : Uuid) :
    s'.session sid = recordAfter a response sid (s.session sid) := by
  cases h with
  | request user r _ => exact handle_lookup r sid
  | popSession id session _ _ => exact DelayMap.lookup_remove _ _ _
  | _ => rfl

/-- An index entry changes by a request or when an expiry finishes. -/
theorem Acts.listed (h : Acts verify s a response s') (sid : Uuid) (pubkey : PublicKey) :
    sid ∈ s'.listed pubkey ↔ listedAfter s a response sid pubkey := by
  cases h with
  | request user r _ => exact handle_listed r sid pubkey
  | finishExpiry id session hx =>
    have hcond : (∃ session', s.expiring = some (sid, session') ∧ pubkey ∈ session'.pubkeys) ↔
        sid = id ∧ pubkey ∈ session.pubkeys := by
      rw [hx]
      constructor
      · rintro ⟨_, heq, hp⟩
        obtain ⟨rfl, rfl⟩ := Prod.mk.inj (Option.some.inj heq)
        exact ⟨rfl, hp⟩
      · rintro ⟨rfl, hp⟩
        exact ⟨session, rfl, hp⟩
    rw [listedAfter, hcond]
    exact SessionState.mem_listed_foldl_removeId
  | _ => exact Iff.rfl

theorem Acts.msgs_of_receive {user : User} {args : ReceiveArgs} {msgs : List Msg}
    (h : Acts verify s (.request user (.receive args)) (.msgs msgs) s') :
    ∃ session, s.session args.sessionId = some session ∧ session.Member user.pubkey ∧
      msgs = session.messages (resolve session user.pubkey args.asCoordinator) :=
  receive_ok_iff.mp (handle_receive_msgs_iff.mp h.request_response.symm)

theorem Acts.open_of_send {user : User} {args : SendArgs}
    (h : Acts verify s (.request user (.send args)) .done s') :
    ∃ session, s.session args.sessionId = some session ∧ canSend session user args = true :=
  (send_ok_iff.mp (handle_send_done_iff.mp h.request_response.symm)).2

theorem Acts.coordinator_of_close {user : User} {args : CloseSessionArgs}
    (h : Acts verify s (.request user (.closeSession args)) .done s') :
    ∃ session, s.session args.sessionId = some session ∧
      session.coordinatorPubkey = user.pubkey :=
  (closeSession_ok_iff.mp (handle_closeSession_done_iff.mp h.request_response.symm)).2

/-- What relates the records, the index and the ids drawn so far. -/
structure Consistent (s : Server) : Prop where
  used_of_session : ∀ sid session, s.session sid = some session → sid ∈ s.used
  used_of_listed : ∀ sid pubkey, sid ∈ s.listed pubkey → sid ∈ s.used
  used_of_expiring : ∀ sid session, s.expiring = some (sid, session) → sid ∈ s.used
  closed_of_expiring : ∀ sid session, s.expiring = some (sid, session) → s.session sid = none
  listed_iff : ∀ sid session, s.session sid = some session →
    ∀ pubkey, sid ∈ s.listed pubkey ↔ session.Member pubkey

theorem consistent_new : Consistent new where
  used_of_session := nofun
  used_of_listed := by
    intro sid pubkey h
    simp [listed, new, AppState.new, SessionState.listed] at h
  used_of_expiring := nofun
  closed_of_expiring := nofun
  listed_iff := nofun

theorem Acts.request_session {user : User} {r : Request}
    (h : Acts verify s (.request user r) response s') {sid : Uuid} {session : Session}
    (hsession : s'.session sid = some session) :
    (∃ args, r = .createNewSession args sid) ∨ ∃ session₀, s.session sid = some session₀ := by
  rw [h.session sid, recordAfter] at hsession
  obtain ⟨args, id, rfl, -, -⟩ | ⟨session₀, h0, -⟩ := sessionEffect_cases hsession
  · exact .inl ⟨args, rfl⟩
  · exact .inr ⟨session₀, h0⟩

/-- The two membership tests agree after a request if they agreed before it and a
session it creates has a fresh id. -/
theorem Acts.request_listed_iff {user : User} {r : Request}
    (h : Acts verify s (.request user r) response s') (hs : s.Consistent)
    (hfresh : ∀ args sid, r = .createNewSession args sid → sid ∉ s.used)
    {sid : Uuid} {session : Session} (hsession : s'.session sid = some session)
    (pubkey : PublicKey) : sid ∈ s'.listed pubkey ↔ session.Member pubkey := by
  rw [h.session sid, recordAfter] at hsession
  rw [h.listed sid pubkey, listedAfter]
  obtain ⟨args, id, rfl, rfl, rfl⟩ | ⟨session₀, h0, hmeta, hindex⟩ := sessionEffect_cases hsession
  · have hnot : sid ∉ s.listed pubkey := fun hmem =>
      hfresh args sid rfl (hs.used_of_listed sid pubkey hmem)
    simp [hnot, indexAdded, Session.Member, eq_comm]
  · rw [Session.member_congr hmeta, ← hs.listed_iff sid session₀ h0 pubkey]
    obtain ⟨hadd, hrem⟩ := hindex pubkey
    simp [hadd, hrem]

theorem Acts.listed_cases (h : Acts verify s a response s') {sid : Uuid} {pubkey : PublicKey}
    (hmem : sid ∈ s'.listed pubkey) :
    sid ∈ s.listed pubkey ∨ a.fresh = some sid := by
  rw [h.listed sid pubkey] at hmem
  cases a with
  | request user r =>
    obtain ⟨hmem, -⟩ | hadd := hmem
    · exact .inl hmem
    · unfold indexAdded at hadd
      split at hadd
      · exact .inr (congrArg some hadd.1.symm)
      · exact hadd.elim
  | finishExpiry => exact .inl hmem.1
  | _ => exact .inl hmem

theorem Acts.session_cases (h : Acts verify s a response s') {sid : Uuid} {session : Session}
    (hsession : s'.session sid = some session) :
    (∃ session₀, s.session sid = some session₀) ∨ a.fresh = some sid := by
  cases a with
  | request user r =>
    obtain ⟨args, rfl⟩ | h0 := h.request_session hsession
    · exact .inr rfl
    · exact .inl h0
  | popSession id =>
    rw [h.session sid, recordAfter] at hsession
    split_ifs at hsession
    exact .inl ⟨session, hsession⟩
  | _ =>
    rw [h.session sid] at hsession
    exact .inl ⟨session, hsession⟩

theorem Acts.expiring_cases (h : Acts verify s a response s') {sid : Uuid} {session : Session}
    (hx : s'.expiring = some (sid, session)) :
    s.expiring = some (sid, session) ∨
      (a = .popSession sid ∧ response = .expired session ∧ s.session sid = some session ∧
        s'.session sid = none) := by
  cases h with
  | popSession id session' _ he =>
    obtain ⟨rfl, rfl⟩ := Prod.mk.inj (Option.some.inj hx)
    refine .inr ⟨rfl, rfl, DelayMap.lookup_of_expired he, ?_⟩
    exact (DelayMap.lookup_remove _ _ _).trans (if_pos rfl)
  | finishExpiry => cases hx
  | _ => exact .inl hx

theorem Acts.mem_used (h : Acts verify s a response s') {id : Uuid} (hid : id ∈ s.used) :
    id ∈ a.fresh.elim s'.used (insert · s'.used) := by
  rw [h.used]
  cases a.fresh with
  | none => exact hid
  | some id' => exact Finset.mem_insert_of_mem hid

theorem Acts.consistent (h : Acts verify s a response s') (hs : s.Consistent)
    (hfresh : ∀ id, a.fresh = some id → id ∉ s.used) :
    Consistent { s' with used := a.fresh.elim s'.used (insert · s'.used) } := by
  have hmono : ∀ id, id ∈ s.used → id ∈ a.fresh.elim s'.used (insert · s'.used) :=
    fun _ => h.mem_used
  have hnew : ∀ id, a.fresh = some id → id ∈ a.fresh.elim s'.used (insert · s'.used) := by
    intro id hid
    rw [hid]
    exact Finset.mem_insert_self id _
  refine ⟨?_, ?_, ?_, ?_, ?_⟩
  · intro sid session hsession
    obtain ⟨session₀, h0⟩ | hf := h.session_cases hsession
    · exact hmono sid (hs.used_of_session sid session₀ h0)
    · exact hnew sid hf
  · intro sid pubkey hmem
    obtain hmem | hf := h.listed_cases hmem
    · exact hmono sid (hs.used_of_listed sid pubkey hmem)
    · exact hnew sid hf
  · intro sid session hx
    obtain hx | ⟨-, -, h0, -⟩ := h.expiring_cases hx
    · exact hmono sid (hs.used_of_expiring sid session hx)
    · exact hmono sid (hs.used_of_session sid session h0)
  · intro sid session hx
    obtain hx | ⟨-, -, -, hnone⟩ := h.expiring_cases hx
    · rw [Option.eq_none_iff_forall_ne_some]
      intro session' hsession
      obtain ⟨session₀, h0⟩ | hf := h.session_cases hsession
      · rw [hs.closed_of_expiring sid session hx] at h0
        cases h0
      · exact hfresh sid hf (hs.used_of_expiring sid session hx)
    · exact hnone
  -- the records and the index change together, except while an expiry is under way
  · intro sid session hsession pubkey
    cases a with
    | request user r =>
      refine h.request_listed_iff hs ?_ hsession pubkey
      rintro args id rfl
      exact hfresh id rfl
    | popSession id =>
      have h0 := hsession
      change s'.session sid = some session at h0
      rw [h.session sid, recordAfter] at h0
      split_ifs at h0
      exact (h.listed sid pubkey).trans (hs.listed_iff sid session h0 pubkey)
    -- the session of the expiry has no record, so it is not this one
    | finishExpiry =>
      have h0 : s.session sid = some session := (h.session sid).symm.trans hsession
      have hclosed : ¬∃ session', s.expiring = some (sid, session') ∧ pubkey ∈ session'.pubkeys := by
        rintro ⟨session', hx, -⟩
        rw [hs.closed_of_expiring sid session' hx] at h0
        cases h0
      refine (h.listed sid pubkey).trans ?_
      rw [← hs.listed_iff sid session h0 pubkey]
      exact and_iff_left hclosed
    | _ =>
      have h0 : s.session sid = some session := (h.session sid).symm.trans hsession
      exact (h.listed sid pubkey).trans (hs.listed_iff sid session h0 pubkey)

/-- Every reachable state is consistent. -/
theorem consistent_of_reachable (h : (system verify).Reachable s) : s.Consistent := by
  refine h.invariant ?_ ?_
  · rintro s rfl
    exact consistent_new
  · intro s e s' _ hs he
    obtain ⟨hfresh, t, hacts, rfl⟩ := acts_of_step he
    exact hacts.consistent hs hfresh

end FrostTools.Frostd.Server
