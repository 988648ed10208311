import FrostTools.Frostd.Effects
import FrostTools.Lib.TransitionSystem

/-!
# The server as a transition system

A step is one critical section of the server. Two operations take two steps,
with steps of other requests between them: `login` drops the lock on the
challenges before it inserts the token, and the session timeout task pops a
session before it takes the lock on the index. A request is authenticated in one
step and its handler runs in a later one.

`Uuid::new_v4` is assumed never to repeat: `used` holds the ids drawn so far and
a step that draws an id draws one outside it.
-/

namespace FrostTools.Frostd
open Api

structure Server where
  now : ℕ
  app : AppState
  /-- The session popped by the timeout task whose index entries still stand. -/
  expiring : Option (Uuid × Session)
  /-- Logins whose challenge is removed and whose token is not yet inserted. -/
  pendingLogins : List LoginArgs
  /-- Users extracted for requests whose handler has not run yet. -/
  users : List User
  used : Finset Uuid

inductive Action where
  | tick (duration : ℕ)
  | challenge (id : Uuid)
  | loginChallenge (args : LoginArgs)
  | loginToken (args : LoginArgs) (accessToken : Uuid)
  | authenticate (bearer : Option Uuid)
  | request (user : User) (r : Request)
  /-- The session timeout task pops an elapsed session. -/
  | popSession (id : Uuid)
  /-- The session timeout task cleans the index and goes back to waiting. -/
  | finishExpiry
  | popChallenge (id : Uuid)
  | popToken (accessToken : Uuid)
  deriving DecidableEq

def Action.fresh : Action → Option Uuid
  | .challenge id => some id
  | .loginToken _ accessToken => some accessToken
  | .request _ (.createNewSession _ id) => some id
  | _ => none

/-- The index after the timeout task processed a popped session: the ids of its
participants are removed. -/
def expireIndex (id : Uuid) (session : Session) (index : Map PublicKey (Finset Uuid)) :
    Map PublicKey (Finset Uuid) :=
  session.pubkeys.foldl (SessionState.removeId id) index

namespace Server

def new : Server where
  now := 0
  app := .new
  expiring := none
  pendingLogins := []
  users := []
  used := ∅

/-- One step of the server; `none` when the action is not enabled. -/
def act (verify : Verifier) (s : Server) : Action → Option (Response × Server)
  | .tick duration => some (.done, { s with now := s.now + duration })
  | .challenge id =>
    let (r, app) := challenge s.now s.app id
    some (.ofResult .uuid r, { s with app })
  | .loginChallenge args =>
    match loginChallenge verify s.app args with
    | (.ok _, app) => some (.done, { s with app, pendingLogins := args :: s.pendingLogins })
    | (.error e, app) => some (.error e, { s with app })
  | .loginToken args accessToken =>
    if args ∈ s.pendingLogins then
      let (r, app) := loginToken s.now s.app args accessToken
      some (.ofResult .uuid r, { s with app, pendingLogins := s.pendingLogins.erase args })
    else none
  | .authenticate bearer =>
    match fromRequestParts s.app bearer with
    | .ok user => some (.user user, { s with users := user :: s.users })
    | .error e => some (.error e, s)
  | .request user r =>
    if user ∈ s.users then
      let (response, app) := handle s.now s.app user r
      some (response, { s with app, users := s.users.erase user })
    else none
  | .popSession id =>
    match s.expiring, s.app.sessions.sessions.expired s.now id with
    | none, some session =>
      some (.expired session, { s with
        expiring := some (id, session)
        app := { s.app with sessions :=
          { s.app.sessions with sessions := s.app.sessions.sessions.remove id } } })
    | _, _ => none
  | .finishExpiry =>
    match s.expiring with
    | some (id, session) =>
      some (.done, { s with
        expiring := none
        app := { s.app with sessions :=
          { s.app.sessions with
            sessionsByPubkey := expireIndex id session s.app.sessions.sessionsByPubkey } } })
    | none => none
  | .popChallenge id =>
    match s.app.challenges.expired s.now id with
    | some _ => some (.done, { s with
        app := { s.app with challenges := s.app.challenges.remove id } })
    | none => none
  | .popToken accessToken =>
    match s.app.accessTokens.expired s.now accessToken with
    | some _ => some (.done, { s with
        app := { s.app with accessTokens := s.app.accessTokens.remove accessToken } })
    | none => none

/-- A step that draws a fresh id where the action draws one. -/
def step (verify : Verifier) (s : Server) (a : Action) : Option (Response × Server) :=
  match a.fresh with
  | none => s.act verify a
  | some id =>
    if id ∈ s.used then none
    else (s.act verify a).map fun rs => (rs.1, { rs.2 with used := insert id rs.2.used })

structure Event where
  action : Action
  response : Response
  deriving DecidableEq

def system (verify : Verifier) : TransitionSystem Server Event where
  init s := s = new
  step s e s' := s.step verify e.action = some (e.response, s')

variable {verify : Verifier} {s s' : Server} {a : Action} {response : Response}

/-- The ways an action can be taken, with the response and the state it leaves. -/
inductive Acts (verify : Verifier) (s : Server) : Action → Response → Server → Prop
  | tick (duration : ℕ) : Acts verify s (.tick duration) .done { s with now := s.now + duration }
  | challenge (id : Uuid) :
    Acts verify s (.challenge id) (.uuid id) { s with app := (challenge s.now s.app id).2 }
  | loginAccepted (args : LoginArgs) :
    args.challenge ∈ s.app.challenges.keys →
    verify args.pubkey args.challenge args.signature = true →
    Acts verify s (.loginChallenge args) .done
      { s with
        app := { s.app with challenges := s.app.challenges.remove args.challenge }
        pendingLogins := args :: s.pendingLogins }
  | loginRejected (args : LoginArgs) (e : Error) :
    Acts verify s (.loginChallenge args) (.error e) s
  | loginToken (args : LoginArgs) (accessToken : Uuid) :
    args ∈ s.pendingLogins →
    Acts verify s (.loginToken args accessToken) (.uuid accessToken)
      { s with
        app := (loginToken s.now s.app args accessToken).2
        pendingLogins := s.pendingLogins.erase args }
  | authenticated (user : User) :
    s.app.accessTokens.lookup user.currentToken = some user.pubkey →
    Acts verify s (.authenticate (some user.currentToken)) (.user user)
      { s with users := user :: s.users }
  | unauthorized (bearer : Option Uuid) :
    (∀ accessToken, bearer = some accessToken →
      s.app.accessTokens.lookup accessToken = none) →
    Acts verify s (.authenticate bearer) (.error .unauthorized) s
  | request (user : User) (r : Request) :
    user ∈ s.users →
    Acts verify s (.request user r) (handle s.now s.app user r).1
      { s with app := (handle s.now s.app user r).2, users := s.users.erase user }
  | popSession (id : Uuid) (session : Session) :
    s.expiring = none → s.app.sessions.sessions.expired s.now id = some session →
    Acts verify s (.popSession id) (.expired session)
      { s with
        expiring := some (id, session)
        app := { s.app with sessions :=
          { s.app.sessions with sessions := s.app.sessions.sessions.remove id } } }
  | finishExpiry (id : Uuid) (session : Session) :
    s.expiring = some (id, session) →
    Acts verify s .finishExpiry .done
      { s with
        expiring := none
        app := { s.app with sessions :=
          { s.app.sessions with
            sessionsByPubkey := expireIndex id session s.app.sessions.sessionsByPubkey } } }
  | popChallenge (id : Uuid) :
    s.app.challenges.expired s.now id = some () →
    Acts verify s (.popChallenge id) .done
      { s with app := { s.app with challenges := s.app.challenges.remove id } }
  | popToken (accessToken : Uuid) (pubkey : PublicKey) :
    s.app.accessTokens.expired s.now accessToken = some pubkey →
    Acts verify s (.popToken accessToken) .done
      { s with app := { s.app with accessTokens := s.app.accessTokens.remove accessToken } }

theorem loginChallenge_acts (args : LoginArgs) (h : s.act verify (.loginChallenge args) =
    some (response, s')) : Acts verify s (.loginChallenge args) response s' := by
  simp only [act, Frostd.loginChallenge] at h
  split_ifs at h with h1 h2 h3 h4 h5
  all_goals obtain ⟨rfl, rfl⟩ := h
  · exact .loginRejected args _
  · exact .loginRejected args _
  · exact .loginRejected args _
  · exact .loginRejected args _
  · exact .loginAccepted args h5 (Bool.eq_true_of_not_eq_false h4)
  · exact .loginRejected args _

theorem authenticate_acts (bearer : Option Uuid) (h : s.act verify (.authenticate bearer) =
    some (response, s')) : Acts verify s (.authenticate bearer) response s' := by
  cases bearer with
  | none =>
    obtain ⟨rfl, rfl⟩ := h
    exact .unauthorized none nofun
  | some accessToken =>
    simp only [act, fromRequestParts] at h
    cases hp : s.app.accessTokens.lookup accessToken with
    | none =>
      rw [hp] at h
      obtain ⟨rfl, rfl⟩ := h
      refine .unauthorized (some accessToken) fun t ht => ?_
      rw [← Option.some.inj ht, hp]
    | some pubkey =>
      rw [hp] at h
      obtain ⟨rfl, rfl⟩ := h
      exact .authenticated ⟨pubkey, accessToken⟩ hp

theorem acts_of_act (h : s.act verify a = some (response, s')) : Acts verify s a response s' := by
  cases a with
  | tick duration => obtain ⟨rfl, rfl⟩ := h; exact .tick duration
  | challenge id => obtain ⟨rfl, rfl⟩ := h; exact .challenge id
  | loginChallenge args => exact loginChallenge_acts args h
  | loginToken args accessToken =>
    simp only [act] at h
    split_ifs at h with hp
    obtain ⟨rfl, rfl⟩ := h
    exact .loginToken args accessToken hp
  | authenticate bearer => exact authenticate_acts bearer h
  | request user r =>
    simp only [act] at h
    split_ifs at h with hu
    obtain ⟨rfl, rfl⟩ := h
    exact .request user r hu
  | popSession id =>
    simp only [act] at h
    split at h
    · next session hx he =>
      obtain ⟨rfl, rfl⟩ := h
      exact .popSession id session hx he
    · cases h
  | finishExpiry =>
    simp only [act] at h
    split at h
    · next id session hx =>
      obtain ⟨rfl, rfl⟩ := h
      exact .finishExpiry id session hx
    · cases h
  | popChallenge id =>
    simp only [act] at h
    split at h
    · next he =>
      obtain ⟨rfl, rfl⟩ := h
      exact .popChallenge id he
    · cases h
  | popToken accessToken =>
    simp only [act] at h
    split at h
    · next pubkey he =>
      obtain ⟨rfl, rfl⟩ := h
      exact .popToken accessToken pubkey he
    · cases h

theorem Acts.request_response {user : User} {r : Request}
    (h : Acts verify s (.request user r) response s') :
    response = (handle s.now s.app user r).1 := by
  cases h
  rfl

/-- A step is an action that draws no id drawn before. -/
theorem acts_of_step (h : s.step verify a = some (response, s')) :
    (∀ id, a.fresh = some id → id ∉ s.used) ∧
    ∃ t, Acts verify s a response t ∧
      s' = { t with used := a.fresh.elim t.used (insert · t.used) } := by
  unfold step at h
  cases hf : a.fresh with
  | none =>
    rw [hf] at h
    exact ⟨nofun, s', acts_of_act h, rfl⟩
  | some id =>
    simp only [hf] at h
    split_ifs at h with hid
    obtain ⟨⟨r, t⟩, ht, heq⟩ := Option.map_eq_some_iff.mp h
    obtain ⟨rfl, rfl⟩ := Prod.mk.inj heq
    exact ⟨fun id' hid' => Option.some.inj hid' ▸ hid, t, acts_of_act ht, rfl⟩

def exec (verify : Verifier) (s : Server) : List Action → Option (List Event × Server)
  | [] => some ([], s)
  | a :: as =>
    match s.step verify a with
    | none => none
    | some (response, s') => (exec verify s' as).map fun r => (⟨a, response⟩ :: r.1, r.2)

theorem run_exec {as : List Action} {es es' : List Event} (h : (system verify).Run es s)
    (he : exec verify s as = some (es', s')) : (system verify).Run (es ++ es') s' := by
  induction as generalizing s es es' with
  | nil =>
    obtain ⟨rfl, rfl⟩ := Prod.mk.inj (Option.some.inj he)
    simpa using h
  | cons a as ih =>
    simp only [exec] at he
    split at he
    · cases he
    · next response t ht =>
      obtain ⟨⟨es'', s''⟩, ht', heq⟩ := Option.map_eq_some_iff.mp he
      obtain ⟨rfl, rfl⟩ := Prod.mk.inj heq
      rw [List.append_cons]
      exact ih (h.snoc ht) ht'

theorem run_of_exec {as : List Action} {es : List Event} (he : exec verify new as = some (es, s)) :
    (system verify).Run es s := run_exec (.start rfl) he

theorem Acts.used (h : Acts verify s a response s') : s'.used = s.used := by
  cases h <;> rfl

def acceptAll : Verifier := fun _ _ _ => true

def sampleKey (b : UInt8) : PublicKey := ⟨List.replicate 32 b⟩

def loginActions (pubkey : PublicKey) (challenge accessToken : Uuid) (requests : ℕ) :
    List Action :=
  let args : LoginArgs := ⟨challenge, pubkey, List.replicate 64 0⟩
  [.challenge challenge, .loginChallenge args, .loginToken args accessToken] ++
    List.replicate requests (.authenticate (some accessToken))

end Server
end FrostTools.Frostd
