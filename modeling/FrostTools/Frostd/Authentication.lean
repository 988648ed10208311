import FrostTools.Frostd.Delivery

/-!
# Authentication

A token stands for a login with a valid signature over a challenge that the
server issued and that nothing had used up. Challenges, tokens and extracted
users are related to the history of the run, and from there so are the senders
of messages.
-/

namespace FrostTools.Frostd.Server
open Api

variable {verify : Verifier} {s s' : Server} {a : Action} {response : Response}
  {es es' : List Event} {c t : Uuid} {pubkey : PublicKey}

def Event.spends (e : Event) (c : Uuid) : Prop :=
  e = ⟨.popChallenge c, .done⟩ ∨
    ∃ args : LoginArgs, args.challenge = c ∧ e = ⟨.loginChallenge args, .done⟩

def Event.revokes (e : Event) (t : Uuid) : Prop :=
  e = ⟨.popToken t, .done⟩ ∨
    ∃ user : User, user.currentToken = t ∧ e = ⟨.request user .logout, .done⟩

/-- The challenge was issued, and was neither popped nor consumed by a login. -/
structure ChallengeLive (es : List Event) (c : Uuid) : Prop where
  issued : ⟨.challenge c, .uuid c⟩ ∈ es
  unspent : ∀ e ∈ es, ¬e.spends c

/-- The login was accepted, with a valid signature, when its challenge was live. -/
def LoginAccepted (verify : Verifier) (es : List Event) (args : LoginArgs) : Prop :=
  ∃ es₁ es₂, es = es₁ ++ ⟨.loginChallenge args, .done⟩ :: es₂ ∧
    verify args.pubkey args.challenge args.signature = true ∧ ChallengeLive es₁ args.challenge

def LoggedIn (verify : Verifier) (es : List Event) (pubkey : PublicKey) (t : Uuid) : Prop :=
  ∃ args es₁ es₂, args.pubkey = pubkey ∧ es = es₁ ++ ⟨.loginToken args t, .uuid t⟩ :: es₂ ∧
    LoginAccepted verify es₁ args

def Revoked (es : List Event) (t : Uuid) : Prop := ∃ e ∈ es, e.revokes t

def tokenFrom (c : Uuid) (e : Event) : Option Uuid :=
  match e.action, e.response with
  | .loginToken args accessToken, .uuid _ => if args.challenge = c then some accessToken else none
  | _, _ => none

def tokensFrom (c : Uuid) (es : List Event) : List Uuid := es.filterMap (tokenFrom c)

/-- The message was sent to the queue `q` by a user who had logged in before. -/
def SentBy (verify : Verifier) (es : List Event) (sid : Uuid) (q : SessionParticipant)
    (m : Msg) : Prop :=
  ∃ es₁ es₂ user args, es = es₁ ++ ⟨.request user (.send args), .done⟩ :: es₂ ∧
    args.sessionId = sid ∧ 0 < copies q args ∧ m = ⟨user.pubkey, args.msg⟩ ∧
    LoggedIn verify es₁ user.pubkey user.currentToken

theorem LoginAccepted.append {args : LoginArgs} (h : LoginAccepted verify es args)
    (es' : List Event) : LoginAccepted verify (es ++ es') args := by
  obtain ⟨es₁, es₂, rfl, hrest⟩ := h
  exact ⟨es₁, es₂ ++ es', by simp, hrest⟩

theorem LoggedIn.append (h : LoggedIn verify es pubkey t) (es' : List Event) :
    LoggedIn verify (es ++ es') pubkey t := by
  obtain ⟨args, es₁, es₂, hp, rfl, hrest⟩ := h
  exact ⟨args, es₁, es₂ ++ es', hp, by simp, hrest⟩

theorem Revoked.append (h : Revoked es t) (es' : List Event) : Revoked (es ++ es') t := by
  obtain ⟨e, he, ht⟩ := h
  exact ⟨e, List.mem_append_left es' he, ht⟩

/-- A live challenge was live before the step, which did not spend it, or was just issued. -/
theorem Acts.challenge_cases (h : Acts verify s a response s') (hc : c ∈ s'.app.challenges.keys) :
    (c ∈ s.app.challenges.keys ∧ ¬Event.spends ⟨a, response⟩ c) ∨
      (a = .challenge c ∧ response = .uuid c) := by
  cases h with
  | challenge id =>
    obtain rfl | hc := DelayMap.mem_keys_insert.mp hc
    · exact .inr ⟨rfl, rfl⟩
    · exact .inl ⟨hc, by simp [Event.spends]⟩
  | loginAccepted args _ _ =>
    obtain ⟨hne, hc⟩ := DelayMap.mem_keys_remove.mp hc
    exact .inl ⟨hc, by simp [Event.spends, Ne.symm hne]⟩
  | popChallenge id _ =>
    obtain ⟨hne, hc⟩ := DelayMap.mem_keys_remove.mp hc
    exact .inl ⟨hc, by simp [Event.spends, Ne.symm hne]⟩
  | request user r _ =>
    change c ∈ (handle s.now s.app user r).2.challenges.keys at hc
    rw [handle_challenges] at hc
    exact .inl ⟨hc, by simp [Event.spends]⟩
  | _ => exact .inl ⟨hc, by simp [Event.spends]⟩

/-- A token in the map was there before the step, which did not revoke it, or is
the one that a pending login inserts. -/
theorem Acts.token_cases (h : Acts verify s a response s')
    (ht : s'.app.accessTokens.lookup t = some pubkey) :
    (s.app.accessTokens.lookup t = some pubkey ∧ ¬Event.revokes ⟨a, response⟩ t) ∨
      ∃ args ∈ s.pendingLogins, args.pubkey = pubkey ∧ a = .loginToken args t ∧
        response = .uuid t := by
  cases h with
  | loginToken args accessToken hp =>
    change (s.app.accessTokens.insert s.now accessToken args.pubkey).lookup t = some pubkey at ht
    rw [DelayMap.lookup_insert] at ht
    split_ifs at ht with he
    · obtain rfl := he
      exact .inr ⟨args, hp, Option.some.inj ht, rfl, rfl⟩
    · exact .inl ⟨ht, by simp [Event.revokes]⟩
  | popToken accessToken _ _ =>
    change (s.app.accessTokens.remove accessToken).lookup t = some pubkey at ht
    rw [DelayMap.lookup_remove] at ht
    split_ifs at ht with he
    exact .inl ⟨ht, by simp [Event.revokes, Ne.symm he]⟩
  | request user r _ =>
    change (handle s.now s.app user r).2.accessTokens.lookup t = some pubkey at ht
    rw [handle_accessTokens] at ht
    split_ifs at ht with hr
    -- a logout removes the user's current token only
    · rw [DelayMap.lookup_remove] at ht
      split_ifs at ht with he
      refine .inl ⟨ht, ?_⟩
      rintro (hpop | ⟨user', rfl, heq⟩)
      · cases hpop
      · obtain ⟨hact, -⟩ := Event.mk.inj heq
        exact he (congrArg User.currentToken (Action.request.inj hact).1).symm
    · refine .inl ⟨ht, ?_⟩
      rintro (hpop | ⟨user', rfl, heq⟩)
      · cases hpop
      · obtain ⟨hact, -⟩ := Event.mk.inj heq
        exact hr (Action.request.inj hact).2
  | _ => exact .inl ⟨ht, by simp [Event.revokes]⟩

theorem Acts.pending_cases (h : Acts verify s a response s') {args : LoginArgs}
    (hp : args ∈ s'.pendingLogins) :
    args ∈ s.pendingLogins ∨
      (a = .loginChallenge args ∧ response = .done ∧ args.challenge ∈ s.app.challenges.keys ∧
        verify args.pubkey args.challenge args.signature = true) := by
  cases h with
  | loginAccepted args' hc hv =>
    obtain rfl | hp := List.mem_cons.mp hp
    · exact .inr ⟨rfl, rfl, hc, hv⟩
    · exact .inl hp
  | loginToken args' accessToken _ => exact .inl (List.mem_of_mem_erase hp)
  | _ => exact .inl hp

theorem Acts.user_cases (h : Acts verify s a response s') {user : User} (hu : user ∈ s'.users) :
    user ∈ s.users ∨ s.app.accessTokens.lookup user.currentToken = some user.pubkey := by
  cases h with
  | authenticated user' ht =>
    obtain rfl | hu := List.mem_cons.mp hu
    · exact .inr ht
    · exact .inl hu
  | request user' r _ => exact .inl (List.mem_of_mem_erase hu)
  | _ => exact .inl hu

theorem Acts.live_of_spends (h : Acts verify s a response s')
    (hc : Event.spends ⟨a, response⟩ c) : c ∈ s.app.challenges.keys := by
  obtain heq | ⟨args, rfl, heq⟩ := hc
  · obtain ⟨rfl, rfl⟩ := Event.mk.inj heq
    cases h with
    | popChallenge _ he => exact DelayMap.mem_keys_of_lookup (DelayMap.lookup_of_expired he)
  · obtain ⟨rfl, rfl⟩ := Event.mk.inj heq
    cases h with
    | loginAccepted _ hc _ => exact hc

theorem Acts.known_of_revokes (h : Acts verify s a response s')
    (ht : Event.revokes ⟨a, response⟩ t) :
    (∃ pubkey, s.app.accessTokens.lookup t = some pubkey) ∨ ∃ user ∈ s.users, user.currentToken = t := by
  obtain heq | ⟨user, rfl, heq⟩ := ht
  · obtain ⟨rfl, rfl⟩ := Event.mk.inj heq
    cases h with
    | popToken _ pubkey he => exact .inl ⟨pubkey, DelayMap.lookup_of_expired he⟩
  · obtain ⟨rfl, -⟩ := Event.mk.inj heq
    cases h with
    | request _ _ hu => exact .inr ⟨user, hu, rfl⟩

structure CredentialsUsed (es : List Event) (s : Server) : Prop where
  challenge : ∀ c ∈ s.app.challenges.keys, c ∈ s.used
  token : ∀ t pubkey, s.app.accessTokens.lookup t = some pubkey → t ∈ s.used
  user : ∀ user ∈ s.users, user.currentToken ∈ s.used
  spent : ∀ e ∈ es, ∀ c, e.spends c → c ∈ s.used
  revoked : ∀ e ∈ es, ∀ t, e.revokes t → t ∈ s.used

theorem Acts.credentialsUsed (h : Acts verify s a response s') (hs : CredentialsUsed es s) :
    CredentialsUsed (es ++ [⟨a, response⟩])
      { s' with used := a.fresh.elim s'.used (insert · s'.used) } := by
  refine ⟨?_, ?_, ?_, ?_, ?_⟩
  · intro c hc
    obtain ⟨hc, -⟩ | ⟨rfl, -⟩ := h.challenge_cases hc
    · exact h.mem_used (hs.challenge c hc)
    · exact Finset.mem_insert_self c _
  · intro t pubkey ht
    obtain ⟨ht, -⟩ | ⟨args, -, -, rfl, -⟩ := h.token_cases ht
    · exact h.mem_used (hs.token t pubkey ht)
    · exact Finset.mem_insert_self t _
  · intro user hu
    obtain hu | ht := h.user_cases hu
    · exact h.mem_used (hs.user user hu)
    · exact h.mem_used (hs.token _ _ ht)
  · intro e he c hc
    obtain he | he := List.mem_append.mp he
    · exact h.mem_used (hs.spent e he c hc)
    · obtain rfl := List.mem_singleton.mp he
      exact h.mem_used (hs.challenge c (h.live_of_spends hc))
  · intro e he t ht
    obtain he | he := List.mem_append.mp he
    · exact h.mem_used (hs.revoked e he t ht)
    · obtain rfl := List.mem_singleton.mp he
      obtain ⟨pubkey, hp⟩ | ⟨user, hu, rfl⟩ := h.known_of_revokes ht
      · exact h.mem_used (hs.token t pubkey hp)
      · exact h.mem_used (hs.user user hu)

theorem credentialsUsed_of_run (h : (system verify).Run es s) : CredentialsUsed es s := by
  refine h.invariant (P := CredentialsUsed) ?_ ?_
  · rintro s rfl
    exact ⟨nofun, nofun, nofun, nofun, nofun⟩
  · intro es s e s' _ hs he
    obtain ⟨-, t, hacts, rfl⟩ := acts_of_step he
    exact hacts.credentialsUsed hs

/-- How challenges, pending logins, tokens and users came about. -/
structure Authentic (verify : Verifier) (es : List Event) (s : Server) : Prop where
  live : ∀ c ∈ s.app.challenges.keys, ChallengeLive es c
  pending : ∀ args ∈ s.pendingLogins, LoginAccepted verify es args
  token : ∀ t pubkey, s.app.accessTokens.lookup t = some pubkey → LoggedIn verify es pubkey t
  user : ∀ user ∈ s.users, LoggedIn verify es user.pubkey user.currentToken
  revoked : ∀ t, Revoked es t → s.app.accessTokens.lookup t = none

theorem Acts.authentic (h : Acts verify s a response s') (hu : CredentialsUsed es s)
    (hs : Authentic verify es s) (hfresh : ∀ id, a.fresh = some id → id ∉ s.used) :
    Authentic verify (es ++ [⟨a, response⟩]) s' := by
  refine ⟨?_, ?_, ?_, ?_, ?_⟩
  -- a live challenge was issued before and not spent, or is issued now
  · intro c hc
    obtain ⟨hc, hspent⟩ | ⟨rfl, rfl⟩ := h.challenge_cases hc
    · obtain ⟨hissued, hunspent⟩ := hs.live c hc
      refine ⟨List.mem_append_left _ hissued, fun e he => ?_⟩
      obtain he | he := List.mem_append.mp he
      · exact hunspent e he
      · exact List.mem_singleton.mp he ▸ hspent
    · refine ⟨List.mem_append_right _ (List.mem_singleton_self _), fun e he hspends => ?_⟩
      obtain he | he := List.mem_append.mp he
      · exact hfresh c rfl (hu.spent e he c hspends)
      · obtain rfl := List.mem_singleton.mp he
        simp [Event.spends] at hspends
  · intro args hp
    obtain hp | ⟨rfl, rfl, hc, hv⟩ := h.pending_cases hp
    · exact (hs.pending args hp).append _
    · exact ⟨es, [], rfl, hv, hs.live _ hc⟩
  -- a token was there before, or belongs to a login that was accepted
  · intro t pubkey ht
    obtain ⟨ht, -⟩ | ⟨args, hp, hpk, rfl, rfl⟩ := h.token_cases ht
    · exact (hs.token t pubkey ht).append _
    · exact ⟨args, es, [], hpk, rfl, hs.pending args hp⟩
  · intro user hmem
    obtain hmem | ht := h.user_cases hmem
    · exact (hs.user user hmem).append _
    · exact (hs.token _ _ ht).append _
  -- a token is never drawn again, so a revoked one does not come back
  · rintro t ⟨e, he, hrevokes⟩
    rw [Option.eq_none_iff_forall_ne_some]
    intro pubkey ht
    obtain ⟨ht, hnot⟩ | ⟨args, -, -, rfl, rfl⟩ := h.token_cases ht
    · obtain he | he := List.mem_append.mp he
      · rw [hs.revoked t ⟨e, he, hrevokes⟩] at ht
        cases ht
      · exact hnot (List.mem_singleton.mp he ▸ hrevokes)
    · obtain he | he := List.mem_append.mp he
      · exact hfresh t rfl (hu.revoked e he t hrevokes)
      · obtain rfl := List.mem_singleton.mp he
        simp [Event.revokes] at hrevokes

theorem authentic_of_run (h : (system verify).Run es s) : Authentic verify es s := by
  refine h.invariant (P := Authentic verify) ?_ ?_
  · rintro s rfl
    refine ⟨nofun, nofun, nofun, nofun, ?_⟩
    rintro t ⟨e, he, -⟩
    cases he
  · intro es s e s' hr hs he
    obtain ⟨hfresh, t, hacts, rfl⟩ := acts_of_step he
    obtain ⟨h1, h2, h3, h4, h5⟩ := hacts.authentic (credentialsUsed_of_run hr) hs hfresh
    exact ⟨h1, h2, h3, h4, h5⟩

/-- The tokens created from a challenge and the logins that may still create one. -/
def outstanding (es : List Event) (s : Server) (c : Uuid) : ℕ :=
  (tokensFrom c es).length + s.pendingLogins.countP fun args => args.challenge = c

/-- A challenge yields one token at most, and none while it is live or not drawn. -/
structure SingleUse (es : List Event) (s : Server) : Prop where
  le_one : ∀ c, outstanding es s c ≤ 1
  live : ∀ c ∈ s.app.challenges.keys, outstanding es s c = 0
  unused : ∀ c, c ∉ s.used → outstanding es s c = 0

theorem tokensFrom_append_singleton (es : List Event) (e : Event) :
    tokensFrom c (es ++ [e]) = tokensFrom c es ++ (tokenFrom c e).toList := by
  rw [tokensFrom, List.filterMap_append]
  cases h : tokenFrom c e <;> simp [tokensFrom, h]

/-- Only an accepted login makes a further token possible, and only for its challenge. -/
theorem Acts.outstanding_cases (h : Acts verify s a response s') (es : List Event) (c : Uuid) :
    outstanding (es ++ [⟨a, response⟩]) s' c ≤ outstanding es s c ∨
      (Event.spends ⟨a, response⟩ c ∧
        outstanding (es ++ [⟨a, response⟩]) s' c = outstanding es s c + 1) := by
  unfold outstanding
  rw [tokensFrom_append_singleton, List.length_append]
  cases h with
  | loginAccepted args _ _ =>
    by_cases hc : args.challenge = c
    · refine .inr ⟨.inr ⟨args, hc, rfl⟩, ?_⟩
      simp [tokenFrom, hc, Nat.add_assoc]
    · exact .inl (by simp [tokenFrom, hc])
  | loginToken args accessToken hp =>
    have hcount := (List.perm_cons_erase hp).countP_eq fun args => args.challenge = c
    rw [List.countP_cons] at hcount
    refine .inl ?_
    by_cases hc : args.challenge = c
    · simp only [hc, decide_true, ↓reduceIte] at hcount
      simp only [tokenFrom, hc, ↓reduceIte, Option.toList_some, List.length_singleton]
      omega
    · simp only [hc, decide_false, Bool.false_eq_true, ↓reduceIte] at hcount
      simp only [tokenFrom, hc, ↓reduceIte, Option.toList_none, List.length_nil]
      omega
  | _ => exact .inl le_rfl

theorem Acts.singleUse (h : Acts verify s a response s') (hu : CredentialsUsed es s)
    (hs : SingleUse es s) (hfresh : ∀ id, a.fresh = some id → id ∉ s.used) :
    SingleUse (es ++ [⟨a, response⟩])
      { s' with used := a.fresh.elim s'.used (insert · s'.used) } := by
  have hzero : ∀ c, outstanding es s c = 0 → ¬Event.spends ⟨a, response⟩ c →
      outstanding (es ++ [⟨a, response⟩]) s' c = 0 := by
    intro c h0 hnot
    obtain hle | ⟨hspends, -⟩ := h.outstanding_cases es c
    · omega
    · exact absurd hspends hnot
  refine ⟨?_, ?_, ?_⟩
  · intro c
    change outstanding (es ++ [⟨a, response⟩]) s' c ≤ 1
    obtain hle | ⟨hspends, heq⟩ := h.outstanding_cases es c
    · exact hle.trans (hs.le_one c)
    · rw [heq, hs.live c (h.live_of_spends hspends)]
  · intro c hc
    obtain ⟨hc, hnot⟩ | ⟨rfl, rfl⟩ := h.challenge_cases hc
    · exact hzero c (hs.live c hc) hnot
    · exact hzero c (hs.unused c (hfresh c rfl)) (by simp [Event.spends])
  · intro c hc
    have hbefore : c ∉ s.used := fun hmem => hc (h.mem_used hmem)
    refine hzero c (hs.unused c hbefore) fun hspends => ?_
    exact hbefore (hu.challenge c (h.live_of_spends hspends))

theorem singleUse_of_run (h : (system verify).Run es s) : SingleUse es s := by
  refine h.invariant (P := SingleUse) ?_ ?_
  · rintro s rfl
    exact ⟨fun _ => Nat.zero_le 1, nofun, fun _ _ => rfl⟩
  · intro es s e s' hr hs he
    obtain ⟨hfresh, t, hacts, rfl⟩ := acts_of_step he
    exact hacts.singleUse (credentialsUsed_of_run hr) hs hfresh

theorem loggedIn_of_request {user : User} {r : Request}
    (h : (system verify).Run (es ++ [⟨.request user r, response⟩]) s) :
    LoggedIn verify es user.pubkey user.currentToken := by
  obtain ⟨s₀, hr, he⟩ := h.step_of_append
  obtain ⟨-, t, hacts, -⟩ := acts_of_step he
  cases hacts with
  | request _ _ hu => exact (authentic_of_run hr).user user hu

theorem sentBy_of_mem_accepted {sid : Uuid} {q : SessionParticipant} {m : Msg}
    (h : (system verify).Run es s) (hm : m ∈ accepted sid q es) : SentBy verify es sid q m := by
  obtain ⟨e, he, hm⟩ := List.mem_flatMap.mp hm
  unfold acceptedBy at hm
  split at hm
  · next user args ha hr =>
    split_ifs at hm with hsid
    · obtain ⟨hpos, rfl⟩ := List.mem_replicate.mp hm
      obtain ⟨es₁, es₂, rfl⟩ := List.append_of_mem he
      obtain ⟨a, response⟩ := e
      dsimp only at ha hr
      subst ha hr
      refine ⟨es₁, es₂, user, args, rfl, hsid, Nat.pos_of_ne_zero hpos, rfl, ?_⟩
      rw [List.append_cons] at h
      obtain ⟨s₁, h⟩ := h.initial
      exact loggedIn_of_request h
    · cases hm
  · cases hm

theorem sentBy_of_queued {sid : Uuid} {session : Session} {q : SessionParticipant} {m : Msg}
    (h : (system verify).Run es s) (hopen : s.session sid = some session)
    (hm : m ∈ session.messages q) : SentBy verify es sid q m := by
  refine sentBy_of_mem_accepted h ?_
  rw [← delivered_append_messages h sid session hopen q]
  exact List.mem_append_right _ hm

theorem not_authenticate_of_revoked {user : User} (h : (system verify).Run (es ++ es') s)
    (ht : Revoked es t) : ⟨.authenticate (some t), .user user⟩ ∉ es' := by
  intro hmem
  obtain ⟨es₁, es₂, rfl⟩ := List.append_of_mem hmem
  rw [List.append_cons, ← List.append_assoc, ← List.append_assoc] at h
  obtain ⟨s₁, h⟩ := h.initial
  obtain ⟨s₀, hr, he⟩ := h.step_of_append
  obtain ⟨-, t', hacts, -⟩ := acts_of_step he
  have hnone := (authentic_of_run hr).revoked t (ht.append es₁)
  cases hacts with
  | authenticated _ hsome =>
    rw [hnone] at hsome
    cases hsome

theorem eq_of_loginChallenge_error {args : LoginArgs} {e : Error}
    (h : s.step verify (.loginChallenge args) = some (.error e, s')) : s' = s := by
  obtain ⟨-, t, hacts, rfl⟩ := acts_of_step h
  cases hacts with
  | loginRejected _ _ => rfl

/-- What a run guarantees about tokens, challenges and senders. -/
structure AuthenticationSound (verify : Verifier) (es : List Event) (s : Server) : Prop where
  token_login : ∀ t pubkey, s.app.accessTokens.lookup t = some pubkey → LoggedIn verify es pubkey t
  single_token : ∀ c, (tokensFrom c es).length ≤ 1
  revoked : ∀ es₁ es₂ t user, es = es₁ ++ es₂ → Revoked es₁ t →
    ⟨.authenticate (some t), .user user⟩ ∉ es₂
  queued : ∀ sid session q m, s.session sid = some session → m ∈ session.messages q →
    SentBy verify es sid q m
  delivered : ∀ es₁ es₂ user args msgs m,
    es = es₁ ++ ⟨.request user (.receive args), .msgs msgs⟩ :: es₂ → m ∈ msgs →
      ∃ q, SentBy verify es₁ args.sessionId q m
  rejected : ∀ args e s', s.step verify (.loginChallenge args) = some (.error e, s') → s' = s

theorem authentication_sound (h : (system verify).Run es s) : AuthenticationSound verify es s where
  token_login := (authentic_of_run h).token
  single_token c := (Nat.le_add_right _ _).trans ((singleUse_of_run h).le_one c)
  revoked := by
    rintro es₁ es₂ t user rfl ht
    exact not_authenticate_of_revoked h ht
  queued := fun _ _ _ _ => sentBy_of_queued h
  delivered := by
    rintro es₁ es₂ user args msgs m rfl hm
    rw [List.append_cons] at h
    obtain ⟨s₁, h⟩ := h.initial
    obtain ⟨s₀, hr, he⟩ := h.step_of_append
    obtain ⟨-, t, hacts, -⟩ := acts_of_step he
    obtain ⟨session, hopen, -, rfl⟩ := hacts.msgs_of_receive
    exact ⟨_, sentBy_of_queued hr hopen hm⟩
  rejected := fun _ _ _ => eq_of_loginChallenge_error

theorem authentication_sound_exchange : ∃ es s,
    exec acceptAll new exchange = some (es, s) ∧ AuthenticationSound acceptAll es s := by
  have hrun : (exec acceptAll new exchange).isSome = true := by decide
  obtain ⟨⟨es, s⟩, he⟩ := Option.isSome_iff_exists.mp hrun
  exact ⟨es, s, he, authentication_sound (run_of_exec he)⟩

end FrostTools.Frostd.Server
