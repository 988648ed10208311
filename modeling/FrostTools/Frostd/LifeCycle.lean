import FrostTools.Frostd.Consistency

/-!
# The life of a session

The deadline of an open session is its last activity plus the timeout. A session goes
when its coordinator closes it or when the deadline has passed, and no operation on it
concerns another session.
-/

namespace FrostTools.Frostd
open Api

def deadlineEffect (now timeout : ℕ) (sid : Uuid) (r : Request) (response : Response)
    (before : Option ℕ) : Option ℕ :=
  match r, response with
  | .createNewSession _ id', .uuid _ => if sid = id' then some (now + timeout) else before
  | .send args, .done =>
    if sid = args.sessionId then before.map fun _ => now + sessionTimeout else before
  | .receive args, .msgs msgs =>
    if sid = args.sessionId ∧ msgs ≠ [] then before.map fun _ => now + sessionTimeout else before
  | .closeSession args, .done => if sid = args.sessionId then none else before
  | _, _ => before

section Handlers

variable {now : ℕ} {state : AppState} {user : User}

theorem createNewSession_deadline (args : CreateNewSessionArgs) (sid id' : Uuid) :
    (createNewSession now state user args id').2.sessions.sessions.deadline sid =
      deadlineEffect now state.sessions.sessions.defaultTimeout sid (.createNewSession args id')
        (.ofResult .uuid (createNewSession now state user args id').1)
        (state.sessions.sessions.deadline sid) := by
  unfold createNewSession
  split_ifs with h
  · rfl
  · exact DelayMap.deadline_insert _ _ _ _ _

theorem send_deadline (timeout : ℕ) (args : SendArgs) (sid : Uuid) :
    (send now state user args).2.sessions.sessions.deadline sid =
      deadlineEffect now timeout sid (.send args)
        (.ofResult (fun _ => .done) (send now state user args).1)
        (state.sessions.sessions.deadline sid) := by
  unfold send
  split_ifs with hlen
  · rfl
  · cases hs : state.sessions.sessions.lookup args.sessionId with
    | none => rfl
    | some s =>
      cases hc : canSend s user args with
      | false => simp [Response.ofResult, deadlineEffect, hc]
      | true =>
        simp only [hc, Bool.true_eq_false, ↓reduceIte, Response.ofResult, deadlineEffect,
          DelayMap.deadline_updateTimeout, DelayMap.deadline_modify]

theorem receive_deadline (timeout : ℕ) (args : ReceiveArgs) (sid : Uuid) :
    (receive now state user args).2.sessions.sessions.deadline sid =
      deadlineEffect now timeout sid (.receive args)
        (.ofResult .msgs (receive now state user args).1)
        (state.sessions.sessions.deadline sid) := by
  unfold receive
  cases hs : state.sessions.sessions.lookup args.sessionId with
  | none => rfl
  | some s =>
    by_cases hm : s.Member user.pubkey
    · simp only [hm, not_true_eq_false, ↓reduceIte, Response.ofResult, deadlineEffect]
      by_cases hempty : (s.drain (resolve s user.pubkey args.asCoordinator)).1 = []
      · rw [if_pos hempty, if_neg fun h => h.2 hempty, DelayMap.deadline_modify]
      · rw [if_neg hempty, DelayMap.deadline_updateTimeout, DelayMap.deadline_modify]
        exact if_congr (and_iff_left hempty).symm rfl rfl
    · simp [hm, Response.ofResult, deadlineEffect]

theorem closeSession_deadline (timeout : ℕ) (args : CloseSessionArgs) (sid : Uuid) :
    (closeSession state user args).2.sessions.sessions.deadline sid =
      deadlineEffect now timeout sid (.closeSession args)
        (.ofResult (fun _ => .done) (closeSession state user args).1)
        (state.sessions.sessions.deadline sid) := by
  unfold closeSession
  cases state.sessions.sessionsByPubkey.lookup user.pubkey with
  | none => rfl
  | some ids =>
    by_cases hid : args.sessionId ∈ ids
    · cases hs : state.sessions.sessions.lookup args.sessionId with
      | none => simp [hid, Response.ofResult, deadlineEffect]
      | some s =>
        by_cases hc : s.coordinatorPubkey = user.pubkey
        · simp only [hid, not_true_eq_false, ↓reduceIte, hc, ne_eq, Response.ofResult,
            deadlineEffect]
          exact DelayMap.deadline_remove _ _ _
        · simp [hid, hc, Response.ofResult, deadlineEffect]
    · simp [hid, Response.ofResult, deadlineEffect]

theorem handle_deadline (r : Request) (sid : Uuid) :
    (handle now state user r).2.sessions.sessions.deadline sid =
      deadlineEffect now state.sessions.sessions.defaultTimeout sid r (handle now state user r).1
        (state.sessions.sessions.deadline sid) := by
  cases r with
  | logout => rfl
  | createNewSession args id' => exact createNewSession_deadline args sid id'
  | listSessions => rfl
  | getSessionInfo args => simp [handle, getSessionInfo_state, deadlineEffect]
  | send args => exact send_deadline _ args sid
  | receive args => exact receive_deadline _ args sid
  | closeSession args => exact closeSession_deadline _ args sid

theorem send_defaultTimeout (args : SendArgs) :
    (send now state user args).2.sessions.sessions.defaultTimeout =
      state.sessions.sessions.defaultTimeout := by
  unfold send
  split_ifs with hlen
  · rfl
  · cases state.sessions.sessions.lookup args.sessionId with
    | none => rfl
    | some s => cases hc : canSend s user args <;> simp [hc]

theorem receive_defaultTimeout (args : ReceiveArgs) :
    (receive now state user args).2.sessions.sessions.defaultTimeout =
      state.sessions.sessions.defaultTimeout := by
  unfold receive
  cases state.sessions.sessions.lookup args.sessionId with
  | none => rfl
  | some s =>
    by_cases hm : s.Member user.pubkey
    · simp only [hm, not_true_eq_false, ↓reduceIte]
      split_ifs
      · apply DelayMap.defaultTimeout_modify
      · rw [DelayMap.defaultTimeout_updateTimeout, DelayMap.defaultTimeout_modify]
    · simp [hm]

theorem closeSession_defaultTimeout (args : CloseSessionArgs) :
    (closeSession state user args).2.sessions.sessions.defaultTimeout =
      state.sessions.sessions.defaultTimeout := by
  unfold closeSession
  cases state.sessions.sessionsByPubkey.lookup user.pubkey with
  | none => rfl
  | some ids =>
    by_cases hid : args.sessionId ∈ ids
    · cases state.sessions.sessions.lookup args.sessionId with
      | none => simp [hid]
      | some s => by_cases hc : s.coordinatorPubkey = user.pubkey <;> simp [hid, hc]
    · simp [hid]

theorem handle_defaultTimeout (r : Request) :
    (handle now state user r).2.sessions.sessions.defaultTimeout =
      state.sessions.sessions.defaultTimeout := by
  cases r with
  | logout => rfl
  | createNewSession args id' =>
    change (createNewSession now state user args id').2.sessions.sessions.defaultTimeout = _
    unfold createNewSession
    split_ifs <;> rfl
  | listSessions => rfl
  | getSessionInfo args => simp [handle, getSessionInfo_state]
  | send args => exact send_defaultTimeout args
  | receive args => exact receive_defaultTimeout args
  | closeSession args => exact closeSession_defaultTimeout args

end Handlers

namespace Server

variable {verify : Verifier} {s s' : Server} {a : Action} {response : Response} {sid : Uuid}

def deadline (s : Server) (sid : Uuid) : Option ℕ := s.app.sessions.sessions.deadline sid

/-- Creation, a successful `send`, or a `receive` that returned a message. -/
def Event.Renews (sid : Uuid) (e : Event) : Prop :=
  match e.action, e.response with
  | .request _ (.createNewSession _ id), .uuid _ => id = sid
  | .request _ (.send args), .done => args.sessionId = sid
  | .request _ (.receive args), .msgs msgs => args.sessionId = sid ∧ msgs ≠ []
  | _, _ => False

instance (sid : Uuid) (e : Event) : Decidable (e.Renews sid) := by
  unfold Event.Renews
  split <;> infer_instance

def Event.duration (e : Event) : ℕ :=
  match e.action with
  | .tick duration => duration
  | _ => 0

def clock (es : List Event) : ℕ := (es.map Event.duration).sum

def lastActivity (sid : Uuid) (es : List Event) : Option ℕ :=
  (es.foldl (fun (last : ℕ × Option ℕ) e =>
    (last.1 + e.duration, if e.Renews sid then some last.1 else last.2)) (0, none)).2

theorem clock_append_singleton (es : List Event) (e : Event) :
    clock (es ++ [e]) = clock es + e.duration := by
  simp [clock]

theorem lastActivity_append_singleton (sid : Uuid) (es : List Event) (e : Event) :
    lastActivity sid (es ++ [e]) = if e.Renews sid then some (clock es) else lastActivity sid es := by
  have hclock : ∀ (es : List Event) (start : ℕ × Option ℕ),
      (es.foldl (fun (last : ℕ × Option ℕ) e =>
        (last.1 + e.duration, if e.Renews sid then some last.1 else last.2)) start).1 =
          start.1 + clock es := by
    intro es
    induction es with
    | nil => exact fun _ => rfl
    | cons e es ih =>
      intro start
      rw [List.foldl_cons, ih]
      simp only [clock, List.map_cons, List.sum_cons]
      omega
  unfold lastActivity
  rw [List.foldl_append, List.foldl_cons, List.foldl_nil]
  simp only [hclock, Nat.zero_add]

def deadlineAfter (s : Server) (a : Action) (response : Response) (sid : Uuid) : Option ℕ :=
  match a with
  | .request _ r =>
    deadlineEffect s.now s.app.sessions.sessions.defaultTimeout sid r response (s.deadline sid)
  | .popSession id => if sid = id then none else s.deadline sid
  | _ => s.deadline sid

theorem Acts.deadline (h : Acts verify s a response s') (sid : Uuid) :
    s'.deadline sid = deadlineAfter s a response sid := by
  cases h with
  | request user r _ => exact handle_deadline r sid
  | popSession id session _ _ => exact DelayMap.deadline_remove _ _ _
  | _ => rfl

theorem Acts.now (h : Acts verify s a response s') :
    s'.now = s.now + Event.duration ⟨a, response⟩ := by
  cases h <;> rfl

theorem Acts.defaultTimeout (h : Acts verify s a response s') :
    s'.app.sessions.sessions.defaultTimeout = s.app.sessions.sessions.defaultTimeout := by
  cases h with
  | request user r _ => exact handle_defaultTimeout r
  | _ => rfl

theorem deadlineEffect_of_some {now d : ℕ} {r : Request} {before : Option ℕ} (user : User)
    (h : deadlineEffect now sessionTimeout sid r response before = some d) :
    deadlineEffect now sessionTimeout sid r response before =
      if Event.Renews sid ⟨.request user r, response⟩ then some (now + sessionTimeout)
      else before := by
  -- a deadline that was updated was there before
  have hmap : ∀ (c : Prop) [Decidable c],
      (if c then before.map fun _ => now + sessionTimeout else before) = some d →
      (if c then before.map fun _ => now + sessionTimeout else before) =
        if c then some (now + sessionTimeout) else before := by
    intro c _ h
    split_ifs at h ⊢
    · obtain ⟨_, hd, -⟩ := Option.map_eq_some_iff.mp h
      rw [hd, Option.map_some]
    · rfl
  unfold deadlineEffect at h ⊢
  split at h
  · next args id' id =>
    apply if_congr (eq_comm : sid = id' ↔ id' = sid) rfl rfl
  · next args =>
    exact (hmap _ h).trans (if_congr (eq_comm : sid = args.sessionId ↔ _) rfl rfl)
  · next args msgs =>
    refine (hmap _ h).trans (if_congr ?_ rfl rfl)
    exact and_congr_left' (eq_comm : sid = args.sessionId ↔ _)
  · next args =>
    split_ifs at h with hid
    rw [if_neg hid]
    exact (if_neg not_false).symm
  · next hcreate hsend hreceive hclose =>
    have hnot : ¬Event.Renews sid ⟨.request user r, response⟩ := by
      intro hrenews
      cases r with
      | createNewSession args id =>
        cases response with
        | uuid id' => exact hcreate _ _ _ rfl rfl
        | _ => exact hrenews
      | send args =>
        cases response with
        | done => exact hsend _ rfl rfl
        | _ => exact hrenews
      | receive args =>
        cases response with
        | msgs msgs => exact hreceive _ _ rfl rfl
        | _ => exact hrenews
      | _ => exact hrenews
    exact (if_neg hnot).symm

/-- Activity, and nothing else, renews the deadline of a session that stays open. -/
theorem Acts.renews (h : Acts verify s a response s')
    (htimeout : s.app.sessions.sessions.defaultTimeout = sessionTimeout) {session : Session}
    (hopen : s'.session sid = some session) :
    s'.deadline sid =
      if Event.Renews sid ⟨a, response⟩ then some (s.now + sessionTimeout) else s.deadline sid := by
  obtain ⟨d', hd'⟩ : ∃ d, s'.deadline sid = some d := DelayMap.exists_deadline hopen
  rw [h.deadline sid] at hd' ⊢
  cases a with
  | request user r =>
    change deadlineEffect s.now _ sid r response (s.deadline sid) = some d' at hd'
    change deadlineEffect s.now _ sid r response (s.deadline sid) = _
    rw [htimeout] at hd' ⊢
    exact deadlineEffect_of_some user hd'
  | popSession id =>
    change (if sid = id then none else s.deadline sid) = some d' at hd'
    change (if sid = id then none else s.deadline sid) = _
    split_ifs at hd' with hid
    rw [if_neg hid]
    rfl
  | _ => rfl

theorem now_of_run {es : List Event} (h : (system verify).Run es s) : s.now = clock es := by
  refine h.invariant (P := fun es s => s.now = clock es) ?_ ?_
  · rintro s rfl
    rfl
  · intro es s e s' _ hnow he
    obtain ⟨-, t, hacts, rfl⟩ := acts_of_step he
    rw [clock_append_singleton, ← hnow]
    exact hacts.now

theorem defaultTimeout_of_reachable (h : (system verify).Reachable s) :
    s.app.sessions.sessions.defaultTimeout = sessionTimeout := by
  refine h.invariant (P := fun s => s.app.sessions.sessions.defaultTimeout = sessionTimeout) ?_ ?_
  · rintro s rfl
    rfl
  · intro s e s' _ htimeout he
    obtain ⟨-, t, hacts, rfl⟩ := acts_of_step he
    exact hacts.defaultTimeout.trans htimeout

/-- The deadline of an open session is its last activity plus the timeout. -/
theorem deadline_of_run {es : List Event} (h : (system verify).Run es s) (sid : Uuid)
    (session : Session) (hopen : s.session sid = some session) :
    ∃ t, lastActivity sid es = some t ∧ s.deadline sid = some (t + sessionTimeout) := by
  refine h.invariant (P := fun es s => ∀ session, s.session sid = some session →
    ∃ t, lastActivity sid es = some t ∧ s.deadline sid = some (t + sessionTimeout))
    ?_ ?_ session hopen
  · rintro s rfl session hopen
    cases hopen
  · intro es s e s' hr ih he session hopen
    obtain ⟨-, t, hacts, rfl⟩ := acts_of_step he
    have hrenews : t.deadline sid =
        if e.Renews sid then some (s.now + sessionTimeout) else s.deadline sid :=
      hacts.renews (defaultTimeout_of_reachable hr.reachable) hopen
    rw [lastActivity_append_singleton]
    change ∃ t', _ ∧ t.deadline sid = _
    rw [hrenews]
    split_ifs with hactive
    · exact ⟨clock es, rfl, congrArg (fun n => some (n + sessionTimeout)) (now_of_run hr)⟩
    · -- a session that was not created now was open before, with the same deadline
      obtain ⟨d, hd⟩ : ∃ d, t.deadline sid = some d := DelayMap.exists_deadline hopen
      rw [hrenews, if_neg hactive] at hd
      obtain ⟨session₀, h0⟩ := DelayMap.exists_lookup hd
      exact ih session₀ h0

/-- An open session goes by its coordinator's request or by its expiry. -/
theorem Acts.removed (h : Acts verify s a response s') {session : Session}
    (hopen : s.session sid = some session) (hgone : s'.session sid = none) :
    (∃ user, a = .request user (.closeSession ⟨sid⟩) ∧ response = .done ∧
        session.coordinatorPubkey = user.pubkey) ∨
      a = .popSession sid ∧ s.app.sessions.sessions.expired s.now sid = some session := by
  have hafter := h.session sid
  rw [hgone, hopen] at hafter
  cases h with
  | request user r hu =>
    have hacts : Acts verify s (.request user r) _ _ := .request user r hu
    change none = sessionEffect user sid r (handle s.now s.app user r).1 (some session) at hafter
    generalize (handle s.now s.app user r).1 = response' at hafter hacts ⊢
    unfold sessionEffect at hafter
    split at hafter
    · split_ifs at hafter
    · split_ifs at hafter
      cases hafter
    · split_ifs at hafter
      cases hafter
    · next args =>
      by_cases hid : sid = args.sessionId
      · subst hid
        obtain ⟨session', hopen', hcoordinator⟩ := hacts.coordinator_of_close
        obtain rfl := Option.some.inj (hopen.symm.trans hopen')
        exact .inl ⟨user, rfl, rfl, hcoordinator⟩
      · rw [if_neg hid] at hafter
        cases hafter
    · cases hafter
  | popSession id session' hx he =>
    by_cases hid : sid = id
    · subst hid
      have hsame : s.session sid = some session' := DelayMap.lookup_of_expired he
      obtain rfl := Option.some.inj (hopen.symm.trans hsame)
      exact .inr ⟨rfl, he⟩
    · change none = (if sid = id then none else some session) at hafter
      rw [if_neg hid] at hafter
      cases hafter
  | _ => cases hafter

def target (s : Server) : Action → Option Uuid
  | .request _ (.createNewSession _ id) => some id
  | .request _ (.getSessionInfo args) => some args.sessionId
  | .request _ (.send args) => some args.sessionId
  | .request _ (.receive args) => some args.sessionId
  | .request _ (.closeSession args) => some args.sessionId
  | .popSession id => some id
  | .finishExpiry => s.expiring.map Prod.fst
  | _ => none

theorem Acts.session_of_ne (h : Acts verify s a response s') (hne : s.target a ≠ some sid) :
    s'.session sid = s.session sid := by
  rw [h.session sid]
  unfold recordAfter
  split
  · next user r =>
    unfold sessionEffect
    split
    · exact if_neg fun hid => hne (congrArg some hid.symm)
    · exact if_neg fun hid => hne (congrArg some hid.symm)
    · exact if_neg fun hid => hne (congrArg some hid.symm)
    · exact if_neg fun hid => hne (congrArg some hid.symm)
    · rfl
  · exact if_neg fun hid => hne (congrArg some hid.symm)
  · rfl

theorem Acts.deadline_of_ne (h : Acts verify s a response s') (hne : s.target a ≠ some sid) :
    s'.deadline sid = s.deadline sid := by
  rw [h.deadline sid]
  unfold deadlineAfter
  split
  · next user r =>
    unfold deadlineEffect
    split
    · exact if_neg fun hid => hne (congrArg some hid.symm)
    · exact if_neg fun hid => hne (congrArg some hid.symm)
    · exact if_neg fun hid => hne (congrArg some hid.1.symm)
    · exact if_neg fun hid => hne (congrArg some hid.symm)
    · rfl
  · exact if_neg fun hid => hne (congrArg some hid.symm)
  · rfl

theorem Acts.listed_of_ne (h : Acts verify s a response s') (hne : s.target a ≠ some sid)
    (pubkey : PublicKey) : sid ∈ s'.listed pubkey ↔ sid ∈ s.listed pubkey := by
  rw [h.listed sid pubkey]
  unfold listedAfter
  split
  · next user r =>
    have hadd : ¬indexAdded user sid r response pubkey := by
      unfold indexAdded
      split
      · exact fun hadd => hne (congrArg some hadd.1.symm)
      · exact not_false
    have hrem : ¬indexRemoved user sid r response (s.session sid) pubkey := by
      unfold indexRemoved
      split
      · exact fun hrem => hne (congrArg some hrem.1.symm)
      · exact not_false
    simp [hadd, hrem]
  · refine and_iff_left ?_
    rintro ⟨session, hx, -⟩
    exact hne (congrArg (Option.map Prod.fst) hx)
  · exact Iff.rfl

/-- In every run: the deadline of an open session is its last activity plus the
timeout, only its coordinator closes it, it expires no earlier than the deadline, and
a step that does not concern it changes nothing of it. -/
theorem session_life_cycle {es : List Event} {e : Event} (h : (system verify).Run es s)
    (he : (system verify).step s e s') (sid : Uuid) :
    (∀ session, s.session sid = some session →
      ∃ t, lastActivity sid es = some t ∧ s.deadline sid = some (t + sessionTimeout) ∧
        (s'.session sid = none →
          (∃ user, e = ⟨.request user (.closeSession ⟨sid⟩), .done⟩ ∧
              session.coordinatorPubkey = user.pubkey) ∨
            e.action = .popSession sid ∧ t + sessionTimeout ≤ clock es)) ∧
    (s.target e.action ≠ some sid →
      s'.session sid = s.session sid ∧ s'.deadline sid = s.deadline sid ∧
        ∀ pubkey, sid ∈ s'.listed pubkey ↔ sid ∈ s.listed pubkey) := by
  obtain ⟨-, u, hacts, rfl⟩ := acts_of_step he
  constructor
  · intro session hopen
    obtain ⟨t, hlast, hdeadline⟩ := deadline_of_run h sid session hopen
    refine ⟨t, hlast, hdeadline, fun hgone => ?_⟩
    rcases hacts.removed hopen hgone with ⟨user, haction, hresponse, hcoordinator⟩ | ⟨hpop, hexpired⟩
    · refine .inl ⟨user, ?_, hcoordinator⟩
      rw [← haction, ← hresponse]
    · refine .inr ⟨hpop, ?_⟩
      rw [← now_of_run h]
      exact DelayMap.deadline_le_of_expired hexpired hdeadline
  · intro hne
    exact ⟨hacts.session_of_ne hne, hacts.deadline_of_ne hne, hacts.listed_of_ne hne⟩

/-- A user opens a session and waits until its timeout has elapsed. -/
def waitForExpiry : List Action :=
  loginActions (sampleKey 1) 10 11 1 ++
    [.request ⟨sampleKey 1, 11⟩ (.createNewSession ⟨[sampleKey 2], 1⟩ 12), .tick sessionTimeout]

theorem session_life_cycle_expiry : ∃ es s e s', (system acceptAll).Run es s ∧
    (system acceptAll).step s e s' ∧ e.action = .popSession 12 ∧ s'.session 12 = none ∧
    ∃ t, lastActivity 12 es = some t ∧ t + sessionTimeout ≤ clock es := by
  have hrun : ((exec acceptAll new waitForExpiry).bind fun r =>
      (r.2.step acceptAll (.popSession 12)).map fun q =>
        (r.2.session 12).isSome && (q.2.session 12).isNone) = some true := by
    decide
  obtain ⟨⟨es, s⟩, hexec, hpop⟩ := Option.bind_eq_some_iff.mp hrun
  obtain ⟨⟨response, s'⟩, hstep, hsession⟩ := Option.map_eq_some_iff.mp hpop
  obtain ⟨hopen, hgone⟩ := Bool.and_eq_true_iff.mp hsession
  obtain ⟨session, hopen⟩ := Option.isSome_iff_exists.mp hopen
  have hclosed : s'.session 12 = none := Option.isNone_iff_eq_none.mp hgone
  have hcycle := session_life_cycle (e := ⟨.popSession 12, response⟩) (run_of_exec hexec) hstep 12
  obtain ⟨t, hlast, -, hremoved⟩ := hcycle.1 session hopen
  refine ⟨es, s, ⟨.popSession 12, response⟩, s', run_of_exec hexec, hstep, rfl, hclosed, t, hlast, ?_⟩
  rcases hremoved hclosed with ⟨user, heq, -⟩ | ⟨-, hle⟩
  · cases heq
  · exact hle

end Server
end FrostTools.Frostd
