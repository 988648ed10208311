import FrostTools.Frostd.Functions

/-!
# What a request can do

Every handler is described once, by when it succeeds and by its effect on the
open sessions, on the index and on the tokens. All properties of runs are
derived from these descriptions.
-/

namespace FrostTools.Frostd
open Api

def copies (q : SessionParticipant) (args : SendArgs) : ℕ :=
  match q with
  | .coordinator => if args.recipients = [] then 1 else 0
  | .participant pubkey => args.recipients.count pubkey

theorem count_recipients (q : SessionParticipant) (args : SendArgs) :
    (recipients args).count q = copies q args := by
  unfold recipients copies
  cases q with
  | coordinator =>
    split_ifs with h
    · simp
    · exact List.count_eq_zero.mpr (by simp)
  | participant pubkey =>
    split_ifs with h
    · simp [h]
    · have hinj : Function.Injective SessionParticipant.participant :=
        fun _ _ h => SessionParticipant.participant.inj h
      exact List.count_map_of_injective args.recipients _ hinj pubkey

theorem messages_foldl_pushBack (msg : Msg) (rs : List SessionParticipant) (s : Session)
    (q : SessionParticipant) :
    (rs.foldl (fun s r => s.pushBack r msg) s).messages q =
      s.messages q ++ List.replicate (rs.count q) msg := by
  induction rs generalizing s with
  | nil => simp
  | cons r rs ih =>
    rw [List.foldl_cons, ih, Session.messages_pushBack, List.append_assoc, List.count_cons]
    by_cases h : q = r
    · simp [h, List.replicate_succ]
    · simp [h, Ne.symm h]

theorem metadata_foldl_pushBack (msg : Msg) (rs : List SessionParticipant) (s : Session) :
    (rs.foldl (fun s r => s.pushBack r msg) s).metadata = s.metadata := by
  induction rs generalizing s with
  | nil => rfl
  | cons r rs ih => exact ih (s.pushBack r msg)

@[simp] theorem messages_enqueue (user : User) (args : SendArgs) (s : Session)
    (q : SessionParticipant) :
    (enqueue user args s).messages q =
      s.messages q ++ List.replicate (copies q args) ⟨user.pubkey, args.msg⟩ := by
  rw [enqueue, messages_foldl_pushBack, count_recipients]

@[simp] theorem metadata_enqueue (user : User) (args : SendArgs) (s : Session) :
    (enqueue user args s).metadata = s.metadata := metadata_foldl_pushBack _ _ s

theorem resolve_congr {session session₀ : Session}
    (h : session.metadata = session₀.metadata) (pubkey : PublicKey) (asCoordinator : Bool) :
    resolve session pubkey asCoordinator = resolve session₀ pubkey asCoordinator := by
  rw [resolve, resolve, (Session.metadata_eq_iff.mp h).2.1]

variable {now : ℕ} {state : AppState} {user : User}

/-- A `send` is accepted exactly from a member, to members, within the size limit. -/
theorem send_ok_iff {args : SendArgs} :
    (send now state user args).1 = .ok () ↔
      args.msg.length ≤ maxMsgSize ∧
      ∃ s, state.sessions.sessions.lookup args.sessionId = some s ∧ canSend s user args = true := by
  unfold send
  split_ifs with hlen
  · refine iff_of_false (fun h => ?_) fun h => Nat.not_le.mpr hlen h.1
    cases h
  · have hle : args.msg.length ≤ maxMsgSize := Nat.le_of_not_lt hlen
    cases hs : state.sessions.sessions.lookup args.sessionId with
    | none => simp
    | some s =>
      cases hc : canSend s user args with
      | false => simp [hc]
      | true => simp [hc, hle]

theorem receive_ok_iff {args : ReceiveArgs} {msgs : List Msg} :
    (receive now state user args).1 = .ok msgs ↔
      ∃ s, state.sessions.sessions.lookup args.sessionId = some s ∧ s.Member user.pubkey ∧
        msgs = s.messages (resolve s user.pubkey args.asCoordinator) := by
  unfold receive
  cases hs : state.sessions.sessions.lookup args.sessionId with
  | none => simp
  | some s =>
    by_cases hm : s.Member user.pubkey
    · simp only [hm, not_true_eq_false, ↓reduceIte, Session.drain_fst, Except.ok.injEq,
        Option.some.injEq, exists_eq_left', true_and]
      exact eq_comm
    · simp [hm]

theorem closeSession_ok_iff {args : CloseSessionArgs} :
    (closeSession state user args).1 = .ok () ↔
      args.sessionId ∈ SessionState.listed state.sessions.sessionsByPubkey user.pubkey ∧
      ∃ s, state.sessions.sessions.lookup args.sessionId = some s ∧
        s.coordinatorPubkey = user.pubkey := by
  unfold closeSession SessionState.listed
  cases hu : state.sessions.sessionsByPubkey.lookup user.pubkey with
  | none => simp
  | some ids =>
    by_cases hid : args.sessionId ∈ ids
    · cases hs : state.sessions.sessions.lookup args.sessionId with
      | none => simp [hid]
      | some s =>
        by_cases hc : s.coordinatorPubkey = user.pubkey
        · simp [hid, hc]
        · simp [hid, hc]
    · simp [hid]

theorem getSessionInfo_ok_iff {args : GetSessionInfoArgs} {info : GetSessionInfoOutput} :
    (getSessionInfo state user args).1 = .ok info ↔
      args.sessionId ∈ SessionState.listed state.sessions.sessionsByPubkey user.pubkey ∧
      ∃ s, state.sessions.sessions.lookup args.sessionId = some s ∧
        info = ⟨s.messageCount, s.pubkeys, s.coordinatorPubkey⟩ := by
  unfold getSessionInfo SessionState.listed
  cases hu : state.sessions.sessionsByPubkey.lookup user.pubkey with
  | none => simp
  | some ids =>
    by_cases hid : args.sessionId ∈ ids
    · cases hs : state.sessions.sessions.lookup args.sessionId with
      | none => simp [hid]
      | some s => simp [hid, eq_comm]
    · simp [hid]

theorem ofResult_eq_done_iff {r : Except Error Unit} :
    Response.ofResult (fun _ => .done) r = .done ↔ r = .ok () := by
  cases r <;> simp [Response.ofResult]

theorem handle_send_done_iff {args : SendArgs} :
    (handle now state user (.send args)).1 = .done ↔ (send now state user args).1 = .ok () :=
  ofResult_eq_done_iff

theorem handle_closeSession_done_iff {args : CloseSessionArgs} :
    (handle now state user (.closeSession args)).1 = .done ↔
      (closeSession state user args).1 = .ok () := ofResult_eq_done_iff

theorem handle_receive_msgs_iff {args : ReceiveArgs} {msgs : List Msg} :
    (handle now state user (.receive args)).1 = .msgs msgs ↔
      (receive now state user args).1 = .ok msgs := by
  change Response.ofResult .msgs (receive now state user args).1 = .msgs msgs ↔ _
  cases (receive now state user args).1 <;> simp [Response.ofResult]

theorem send_eq_of_error {args : SendArgs} {e : Error}
    (h : (send now state user args).1 = .error e) : (send now state user args).2 = state := by
  unfold send at h ⊢
  split_ifs with hlen
  · rfl
  · rw [if_neg hlen] at h
    cases hs : state.sessions.sessions.lookup args.sessionId with
    | none => rfl
    | some s =>
      cases hc : canSend s user args with
      | false => simp [hc]
      | true => simp [hs, hc] at h

theorem receive_eq_of_error {args : ReceiveArgs} {e : Error}
    (h : (receive now state user args).1 = .error e) : (receive now state user args).2 = state := by
  unfold receive at h ⊢
  cases hs : state.sessions.sessions.lookup args.sessionId with
  | none => rfl
  | some s =>
    by_cases hm : s.Member user.pubkey
    · simp [hs, hm] at h
    · simp [hm]

theorem closeSession_eq_of_error {args : CloseSessionArgs} {e : Error}
    (h : (closeSession state user args).1 = .error e) : (closeSession state user args).2 = state := by
  unfold closeSession at h ⊢
  cases hu : state.sessions.sessionsByPubkey.lookup user.pubkey with
  | none => rfl
  | some ids =>
    by_cases hid : args.sessionId ∈ ids
    · cases hs : state.sessions.sessions.lookup args.sessionId with
      | none => simp [hid]
      | some s =>
        by_cases hc : s.coordinatorPubkey = user.pubkey
        · simp [hu, hid, hs, hc] at h
        · simp [hid, hc]
    · simp [hid]

/-- The record under `sid` after a request with a given response, in terms of the
record before it. -/
def sessionEffect (user : User) (sid : Uuid) (r : Request) (response : Response)
    (before : Option Session) : Option Session :=
  match r, response with
  | .createNewSession args id', .uuid _ =>
    if sid = id' then some ⟨args.pubkeys, user.pubkey, args.messageCount, ∅⟩ else before
  | .send args, .done => if sid = args.sessionId then before.map (enqueue user args) else before
  | .receive args, .msgs _ =>
    if sid = args.sessionId then
      before.map fun s => (s.drain (resolve s user.pubkey args.asCoordinator)).2
    else before
  | .closeSession args, .done => if sid = args.sessionId then none else before
  | _, _ => before

theorem createNewSession_lookup (args : CreateNewSessionArgs) (sid id' : Uuid) :
    (createNewSession now state user args id').2.sessions.sessions.lookup sid =
      sessionEffect user sid (.createNewSession args id')
        (.ofResult .uuid (createNewSession now state user args id').1)
        (state.sessions.sessions.lookup sid) := by
  unfold createNewSession
  split_ifs with h
  · rfl
  · exact DelayMap.lookup_insert _ _ _ _ _

theorem send_lookup (args : SendArgs) (sid : Uuid) :
    (send now state user args).2.sessions.sessions.lookup sid =
      sessionEffect user sid (.send args)
        (.ofResult (fun _ => .done) (send now state user args).1)
        (state.sessions.sessions.lookup sid) := by
  unfold send
  split_ifs with hlen
  · rfl
  · cases hs : state.sessions.sessions.lookup args.sessionId with
    | none => rfl
    | some s =>
      cases hc : canSend s user args with
      | false => simp [Response.ofResult, sessionEffect, hc]
      | true =>
        simp only [hc, Bool.true_eq_false, ↓reduceIte, DelayMap.lookup_updateTimeout,
          DelayMap.lookup_modify, Response.ofResult, sessionEffect]

theorem receive_lookup (args : ReceiveArgs) (sid : Uuid) :
    (receive now state user args).2.sessions.sessions.lookup sid =
      sessionEffect user sid (.receive args)
        (.ofResult .msgs (receive now state user args).1)
        (state.sessions.sessions.lookup sid) := by
  unfold receive
  cases hs : state.sessions.sessions.lookup args.sessionId with
  | none => rfl
  | some s =>
    by_cases hm : s.Member user.pubkey
    · simp only [hm, not_true_eq_false, ↓reduceIte, Response.ofResult, sessionEffect]
      have hupd : ∀ m : DelayMap Uuid Session,
          (if (s.drain (resolve s user.pubkey args.asCoordinator)).1 = [] then m
            else m.updateTimeout now args.sessionId sessionTimeout).lookup sid = m.lookup sid := by
        intro m
        split_ifs
        · rfl
        · exact DelayMap.lookup_updateTimeout _ _ _ _ _
      rw [hupd, DelayMap.lookup_modify]
      split_ifs with hid
      · subst hid
        rw [hs, Option.map_some, Option.map_some]
      · rfl
    · simp [hm, Response.ofResult, sessionEffect]

theorem closeSession_lookup (args : CloseSessionArgs) (sid : Uuid) :
    (closeSession state user args).2.sessions.sessions.lookup sid =
      sessionEffect user sid (.closeSession args)
        (.ofResult (fun _ => .done) (closeSession state user args).1)
        (state.sessions.sessions.lookup sid) := by
  unfold closeSession
  cases state.sessions.sessionsByPubkey.lookup user.pubkey with
  | none => rfl
  | some ids =>
    by_cases hid : args.sessionId ∈ ids
    · cases hs : state.sessions.sessions.lookup args.sessionId with
      | none => simp [hid, Response.ofResult, sessionEffect]
      | some s =>
        by_cases hc : s.coordinatorPubkey = user.pubkey
        · simp only [hid, not_true_eq_false, ↓reduceIte, hc, ne_eq, Response.ofResult,
            sessionEffect]
          exact DelayMap.lookup_remove _ _ _
        · simp [hid, hc, Response.ofResult, sessionEffect]
    · simp [hid, Response.ofResult, sessionEffect]

theorem getSessionInfo_state (args : GetSessionInfoArgs) :
    (getSessionInfo state user args).2 = state := by
  unfold getSessionInfo
  cases state.sessions.sessionsByPubkey.lookup user.pubkey with
  | none => rfl
  | some ids =>
    by_cases hid : args.sessionId ∈ ids
    · cases hs : state.sessions.sessions.lookup args.sessionId <;> simp [hid]
    · simp [hid]

theorem handle_lookup (r : Request) (sid : Uuid) :
    (handle now state user r).2.sessions.sessions.lookup sid =
      sessionEffect user sid r (handle now state user r).1
        (state.sessions.sessions.lookup sid) := by
  cases r with
  | logout => rfl
  | createNewSession args id' => exact createNewSession_lookup args sid id'
  | listSessions => rfl
  | getSessionInfo args =>
    simp [handle, getSessionInfo_state, sessionEffect]
  | send args => exact send_lookup args sid
  | receive args => exact receive_lookup args sid
  | closeSession args => exact closeSession_lookup args sid

def indexAdded (user : User) (sid : Uuid) (r : Request) (response : Response)
    (pubkey : PublicKey) : Prop :=
  match r, response with
  | .createNewSession args id', .uuid _ =>
    sid = id' ∧ (pubkey ∈ args.pubkeys ∨ pubkey = user.pubkey)
  | _, _ => False

def indexRemoved (user : User) (sid : Uuid) (r : Request) (response : Response)
    (before : Option Session) (pubkey : PublicKey) : Prop :=
  match r, response with
  | .closeSession args, .done =>
    sid = args.sessionId ∧ ((∃ s, before = some s ∧ pubkey ∈ s.pubkeys) ∨ pubkey = user.pubkey)
  | _, _ => False

theorem createNewSession_listed (args : CreateNewSessionArgs) (sid id' : Uuid)
    (pubkey : PublicKey) :
    sid ∈ SessionState.listed
        (createNewSession now state user args id').2.sessions.sessionsByPubkey pubkey ↔
      sid ∈ SessionState.listed state.sessions.sessionsByPubkey pubkey ∨
      indexAdded user sid (.createNewSession args id')
        (.ofResult .uuid (createNewSession now state user args id').1) pubkey := by
  unfold createNewSession
  split_ifs with h
  · simp [Response.ofResult, indexAdded]
  · simp only [SessionState.mem_listed_insertId, SessionState.mem_listed_foldl_insertId,
      Response.ofResult, indexAdded]
    tauto

theorem closeSession_listed (args : CloseSessionArgs) (sid : Uuid) (pubkey : PublicKey) :
    sid ∈ SessionState.listed
        (closeSession state user args).2.sessions.sessionsByPubkey pubkey ↔
      sid ∈ SessionState.listed state.sessions.sessionsByPubkey pubkey ∧
      ¬indexRemoved user sid (.closeSession args)
        (.ofResult (fun _ => .done) (closeSession state user args).1)
        (state.sessions.sessions.lookup sid) pubkey := by
  unfold closeSession
  cases hu : state.sessions.sessionsByPubkey.lookup user.pubkey with
  | none => simp [Response.ofResult, indexRemoved]
  | some ids =>
    by_cases hid : args.sessionId ∈ ids
    · cases hs : state.sessions.sessions.lookup args.sessionId with
      | none => simp [hid, Response.ofResult, indexRemoved]
      | some s =>
        by_cases hc : s.coordinatorPubkey = user.pubkey
        · simp only [hid, not_true_eq_false, ↓reduceIte, hc, ne_eq, Response.ofResult,
            indexRemoved]
          rw [SessionState.mem_listed_removeId, SessionState.mem_listed_foldl_removeId]
          by_cases he : sid = args.sessionId
          · subst he
            simp only [hs, Option.some.injEq, exists_eq_left', true_and]
            tauto
          · simp [he]
        · simp [hid, hc, Response.ofResult, indexRemoved]
    · simp [hid, Response.ofResult, indexRemoved]

theorem send_index (args : SendArgs) :
    (send now state user args).2.sessions.sessionsByPubkey = state.sessions.sessionsByPubkey := by
  unfold send
  split_ifs with hlen
  · rfl
  · cases state.sessions.sessions.lookup args.sessionId with
    | none => rfl
    | some s => cases hc : canSend s user args <;> simp [hc]

theorem receive_index (args : ReceiveArgs) :
    (receive now state user args).2.sessions.sessionsByPubkey =
      state.sessions.sessionsByPubkey := by
  unfold receive
  cases state.sessions.sessions.lookup args.sessionId with
  | none => rfl
  | some s => by_cases hm : s.Member user.pubkey <;> simp [hm]

theorem handle_listed (r : Request) (sid : Uuid) (pubkey : PublicKey) :
    sid ∈ SessionState.listed (handle now state user r).2.sessions.sessionsByPubkey pubkey ↔
      (sid ∈ SessionState.listed state.sessions.sessionsByPubkey pubkey ∧
        ¬indexRemoved user sid r (handle now state user r).1
          (state.sessions.sessions.lookup sid) pubkey) ∨
      indexAdded user sid r (handle now state user r).1 pubkey := by
  cases r with
  | logout => simp [handle, logout, indexRemoved, indexAdded]
  | createNewSession args id' =>
    simpa [handle, indexRemoved] using createNewSession_listed args sid id' pubkey
  | listSessions => simp [handle, listSessions, indexRemoved, indexAdded]
  | getSessionInfo args => simp [handle, getSessionInfo_state, indexRemoved, indexAdded]
  | send args => simp [handle, send_index, indexRemoved, indexAdded]
  | receive args => simp [handle, receive_index, indexRemoved, indexAdded]
  | closeSession args => simpa [handle, indexAdded] using closeSession_listed args sid pubkey

theorem send_frame (args : SendArgs) :
    (send now state user args).2.challenges = state.challenges ∧
      (send now state user args).2.accessTokens = state.accessTokens := by
  unfold send
  split_ifs with hlen
  · exact ⟨rfl, rfl⟩
  · cases state.sessions.sessions.lookup args.sessionId with
    | none => exact ⟨rfl, rfl⟩
    | some s => cases hc : canSend s user args <;> simp [hc]

theorem receive_frame (args : ReceiveArgs) :
    (receive now state user args).2.challenges = state.challenges ∧
      (receive now state user args).2.accessTokens = state.accessTokens := by
  unfold receive
  cases state.sessions.sessions.lookup args.sessionId with
  | none => exact ⟨rfl, rfl⟩
  | some s => by_cases hm : s.Member user.pubkey <;> simp [hm]

theorem closeSession_frame (args : CloseSessionArgs) :
    (closeSession state user args).2.challenges = state.challenges ∧
      (closeSession state user args).2.accessTokens = state.accessTokens := by
  unfold closeSession
  cases state.sessions.sessionsByPubkey.lookup user.pubkey with
  | none => exact ⟨rfl, rfl⟩
  | some ids =>
    by_cases hid : args.sessionId ∈ ids
    · cases state.sessions.sessions.lookup args.sessionId with
      | none => simp [hid]
      | some s => by_cases hc : s.coordinatorPubkey = user.pubkey <;> simp [hid, hc]
    · simp [hid]

theorem createNewSession_frame (args : CreateNewSessionArgs) (id : Uuid) :
    (createNewSession now state user args id).2.challenges = state.challenges ∧
      (createNewSession now state user args id).2.accessTokens = state.accessTokens := by
  unfold createNewSession
  split_ifs <;> exact ⟨rfl, rfl⟩

theorem handle_challenges (r : Request) :
    (handle now state user r).2.challenges = state.challenges := by
  cases r with
  | createNewSession args id => exact (createNewSession_frame args id).1
  | getSessionInfo args => exact congrArg AppState.challenges (getSessionInfo_state args)
  | send args => exact (send_frame args).1
  | receive args => exact (receive_frame args).1
  | closeSession args => exact (closeSession_frame args).1
  | _ => rfl

theorem handle_accessTokens (r : Request) :
    (handle now state user r).2.accessTokens =
      if r = .logout then state.accessTokens.remove user.currentToken else state.accessTokens := by
  cases r with
  | logout => rfl
  | createNewSession args id => exact (createNewSession_frame args id).2
  | listSessions => rfl
  | getSessionInfo args => exact congrArg AppState.accessTokens (getSessionInfo_state args)
  | send args => exact (send_frame args).2
  | receive args => exact (receive_frame args).2
  | closeSession args => exact (closeSession_frame args).2

/-- A session that is open after a request was created by it, or was open before
with the same record; a request that does not create or close it leaves its index
entries alone. -/
theorem sessionEffect_cases {sid : Uuid} {r : Request} {response : Response}
    {before : Option Session} {session : Session}
    (h : sessionEffect user sid r response before = some session) :
    (∃ args id, r = .createNewSession args sid ∧ response = .uuid id ∧
      session = ⟨args.pubkeys, user.pubkey, args.messageCount, ∅⟩) ∨
    ∃ session₀, before = some session₀ ∧ session.metadata = session₀.metadata ∧
      ∀ pubkey, ¬indexAdded user sid r response pubkey ∧
        ¬indexRemoved user sid r response before pubkey := by
  unfold sessionEffect at h
  split at h
  · next args id' id =>
    split_ifs at h with hid
    · obtain rfl := Option.some.inj h
      exact .inl ⟨args, id, by rw [hid], rfl, rfl⟩
    · exact .inr ⟨session, h, rfl, fun _ => ⟨fun hadd => hid hadd.1, not_false⟩⟩
  · next args =>
    split_ifs at h with hid
    · obtain ⟨session₀, h0, rfl⟩ := Option.map_eq_some_iff.mp h
      exact .inr ⟨session₀, h0, metadata_enqueue _ _ _, fun _ => ⟨not_false, not_false⟩⟩
    · exact .inr ⟨session, h, rfl, fun _ => ⟨not_false, not_false⟩⟩
  · next args msgs =>
    split_ifs at h with hid
    · obtain ⟨session₀, h0, rfl⟩ := Option.map_eq_some_iff.mp h
      exact .inr ⟨session₀, h0, Session.metadata_drain _ _, fun _ => ⟨not_false, not_false⟩⟩
    · exact .inr ⟨session, h, rfl, fun _ => ⟨not_false, not_false⟩⟩
  · next args =>
    split_ifs at h with hid
    exact .inr ⟨session, h, rfl, fun _ => ⟨not_false, fun hrem => hid hrem.1⟩⟩
  · next hcreate _ _ hclose =>
    refine .inr ⟨session, h, rfl, fun pubkey => ⟨fun hadd => ?_, fun hrem => ?_⟩⟩
    · unfold indexAdded at hadd
      split at hadd
      · exact hcreate _ _ _ rfl rfl
      · exact hadd
    · unfold indexRemoved at hrem
      split at hrem
      · exact hclose _ rfl rfl
      · exact hrem

end FrostTools.Frostd
