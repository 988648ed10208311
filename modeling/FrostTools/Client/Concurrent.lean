import FrostTools.Client.Serving
import FrostTools.Frostd.Hosting
import FrostTools.Lib.Environment

/-!
# Clients at the same time

Many clients at one server. A login and an authenticated request take two steps of the server, with
steps for other clients between them. No timeout fires.
-/

namespace FrostTools.Client
open Api Frostd

inductive Stage where
  | idle
  | loggedIn
  | authenticated (user : User)

structure Service (ι : Type) where
  server : Server
  stage : ι → Stage

/-- What the server does not decide: the ids that are drawn for a request, and the lines that the
users enter. -/
structure Surroundings where
  draws : HttpRequest → Uuid → Prop
  enters : String → Prop

namespace Service

variable {ι : Type} [DecidableEq ι] (verify : Verifier) (surroundings : Surroundings)

inductive Works (s : Service ι) (i : ι) : Query → Service ι → Prop
  | login {accessToken : Option Uuid} {args : LoginArgs} {server : Server} : s.stage i = .idle →
    s.server.step verify (.loginChallenge args) = some (.done, server) →
    Works s i (.http accessToken (.login args)) ⟨server, Function.update s.stage i .loggedIn⟩
  | authenticate {accessToken : Option Uuid} {r : HttpRequest} {id : Uuid} {request : Request}
    {user : User} {server : Server} : s.stage i = .idle → r.toRequest id = some request →
    s.server.step verify (.authenticate accessToken) = some (.user user, server) →
    Works s i (.http accessToken r) ⟨server, Function.update s.stage i (.authenticated user)⟩

inductive Answers (s : Service ι) (i : ι) : (q : Query) → q.Answer → Service ι → Prop
  | challenge {accessToken : Option Uuid} {id : Uuid} {server : Server} : s.stage i = .idle →
    surroundings.draws .challenge id →
    s.server.step verify (.challenge id) = some (.uuid id, server) →
    Answers s i (.http accessToken .challenge) (.ok id) ⟨server, Function.update s.stage i .idle⟩
  | login {accessToken : Option Uuid} {args : LoginArgs} {token : Uuid} {server : Server} :
    s.stage i = .loggedIn → surroundings.draws (.login args) token →
    s.server.step verify (.loginToken args token) = some (.uuid token, server) →
    Answers s i (.http accessToken (.login args)) (.ok token)
      ⟨server, Function.update s.stage i .idle⟩
  | loginFailed {accessToken : Option Uuid} {args : LoginArgs} {e : Api.Error} {server : Server} :
    s.stage i = .idle → s.server.step verify (.loginChallenge args) = some (.error e, server) →
    Answers s i (.http accessToken (.login args)) (.error (.serverError e))
      ⟨server, Function.update s.stage i .idle⟩
  | unauthorized {accessToken : Option Uuid} {r : HttpRequest} {id : Uuid} {request : Request}
    {e : Api.Error} {server : Server} : s.stage i = .idle → r.toRequest id = some request →
    s.server.step verify (.authenticate accessToken) = some (.error e, server) →
    Answers s i (.http accessToken r) (.error (.serverError e))
      ⟨server, Function.update s.stage i .idle⟩
  | handled {accessToken : Option Uuid} {r : HttpRequest} {id : Uuid} {request : Request}
    {user : User} {response : Response} {answer : Except ClientError r.Output} {server : Server} :
    s.stage i = .authenticated user → r.toRequest id = some request → surroundings.draws r id →
    s.server.step verify (.request user request) = some (response, server) →
    r.Answers response answer →
    Answers s i (.http accessToken r) answer ⟨server, Function.update s.stage i .idle⟩
  | entered {line : String} : surroundings.enters line → Answers s i .readLine (some line) s
  | written {line : String} : Answers s i (.writeLine line) (some ()) s
  | printed {line : String} : Answers s i (.eprintln line) () s

inductive Idles (s : Service ι) : Service ι → Prop
  | tick {duration : ℕ} {server : Server} :
    s.server.step verify (.tick duration) = some (.done, server) → Idles s ⟨server, s.stage⟩

end Service

/-- The server and the users as the environment of the clients. -/
def frostd (ι : Type) [DecidableEq ι] (verify : Verifier) (surroundings : Surroundings) :
    Environment World ι (Service ι) where
  idles := Service.Idles verify
  works s i q s' := Service.Works verify s i q s'
  answers s i q answer s' := Service.Answers verify surroundings s i q answer s'

def Service.new (ι : Type) : Service ι := ⟨.new, fun _ => .idle⟩

inductive Credential where
  | nothing
  | challenge (id : Uuid)
  | token (id : Uuid)
  deriving DecidableEq

def Held (server : Server) (pubkey : PublicKey) (signature : Uuid → Bytes) :
    Credential → Stage → Prop
  | .nothing, .idle => True
  | .challenge c, .idle => c ∈ server.used ∧ c ∈ server.app.challenges.keys
  | .challenge c, .loggedIn => c ∈ server.used ∧ ⟨c, pubkey, signature c⟩ ∈ server.pendingLogins
  | .token t, .idle => t ∈ server.used ∧ server.app.accessTokens.lookup t = some pubkey
  | .token t, .authenticated user =>
    (t ∈ server.used ∧ server.app.accessTokens.lookup t = some pubkey) ∧
      user = ⟨pubkey, t⟩ ∧ user ∈ server.users
  | _, _ => False

theorem Held.mono {server server' : Server} {pubkey : PublicKey} {signature : Uuid → Bytes}
    {credential : Credential} {stage : Stage} (h : Held server pubkey signature credential stage)
    (hused : server.used ⊆ server'.used)
    (hchallenge : ∀ c, credential = .challenge c → c ∈ server.app.challenges.keys →
      c ∈ server'.app.challenges.keys)
    (hlogin : ∀ c, credential = .challenge c → ⟨c, pubkey, signature c⟩ ∈ server.pendingLogins →
      ⟨c, pubkey, signature c⟩ ∈ server'.pendingLogins)
    (htoken : ∀ t, credential = .token t → t ∈ server.used →
      server'.app.accessTokens.lookup t = server.app.accessTokens.lookup t)
    (huser : ∀ t, credential = .token t → ⟨pubkey, t⟩ ∈ server.users →
      ⟨pubkey, t⟩ ∈ server'.users) :
    Held server' pubkey signature credential stage := by
  cases credential with
  | nothing => cases stage <;> exact h
  | challenge c =>
    cases stage with
    | idle => exact ⟨hused h.1, hchallenge c rfl h.2⟩
    | loggedIn => exact ⟨hused h.1, hlogin c rfl h.2⟩
    | authenticated user => exact h
  | token t =>
    cases stage with
    | idle => exact ⟨hused h.1, (htoken t rfl h.1).trans h.2⟩
    | loggedIn => exact h
    | authenticated user =>
      obtain ⟨⟨hmem, hlookup⟩, rfl, huser'⟩ := h
      exact ⟨⟨hused hmem, (htoken t rfl hmem).trans hlookup⟩, rfl, huser t rfl huser'⟩

def HttpRequest.authenticated : HttpRequest → Bool
  | .challenge => false
  | .login _ => false
  | _ => true

def Presents (pubkey : PublicKey) (signature : Uuid → Bytes) : Credential → Query → Prop
  | .nothing, .http _ r => r = .challenge
  | .challenge c, .http _ r => r = .login ⟨c, pubkey, signature c⟩
  | .token t, .http accessToken r => accessToken = some t ∧ r.authenticated = true
  | _, _ => True

theorem loginChallenge_step {verify : Verifier} {s : Server} {args : LoginArgs}
    (hpubkey : args.pubkey.bytes.length = 32) (hsignature : args.signature.length = 64)
    (hverify : verify args.pubkey args.challenge args.signature = true)
    (hlive : args.challenge ∈ s.app.challenges.keys) : s.step verify (.loginChallenge args) =
      some (.done, { s with
        app := { s.app with challenges := s.app.challenges.remove args.challenge }
        pendingLogins := args :: s.pendingLogins }) := by
  have hne : ¬(args.signature = [] ∨ args.pubkey.bytes = []) := by
    rintro (hnil | hnil)
    · rw [hnil] at hsignature
      cases hsignature
    · rw [hnil] at hpubkey
      cases hpubkey
  simp only [Server.step, Action.fresh, Server.act, loginChallenge, if_neg hne, hpubkey, hsignature,
    hverify, hlive, ne_eq, not_true_eq_false, Bool.true_eq_false, ↓reduceIte]

theorem exists_step {verify : Verifier} {s s' : Server} {a : Action} {response : Response}
    (hact : s.act verify a = some (response, s')) (hfresh : ∀ id, a.fresh = some id → id ∉ s.used) :
    ∃ s'', s.step verify a = some (response, s'') := by
  unfold Server.step
  cases hf : a.fresh with
  | none => exact ⟨s', hact⟩
  | some id =>
    dsimp only
    rw [if_neg (hfresh id hf), hact]
    exact ⟨_, rfl⟩

def Touches : Action → Credential → Prop
  | .loginChallenge args, .challenge c => args.challenge = c
  | .loginToken args _, .challenge c => args.challenge = c
  | .popChallenge id, .challenge c => id = c
  | .request user _, .token t => user.currentToken = t
  | .popToken id, .token t => id = t
  | _, _ => False

theorem Held.step {verify : Verifier} {server server' : Server} {a : Action} {response : Response}
    {pubkey : PublicKey} {signature : Uuid → Bytes} {credential : Credential} {stage : Stage}
    (h : Held server pubkey signature credential stage)
    (hstep : server.step verify a = some (response, server')) (ha : ¬Touches a credential) :
    Held server' pubkey signature credential stage := by
  obtain ⟨hfresh, t, hacts, rfl⟩ := Server.acts_of_step hstep
  have hused : server.used ⊆ a.fresh.elim t.used (insert · t.used) := fun id hid => hacts.mem_used hid
  cases hacts with
  -- a login consumes its challenge, which is another one
  | loginAccepted args _ _ =>
    refine h.mono hused ?_ ?_ (fun _ _ _ => rfl) fun _ _ huser => huser
    · rintro c rfl hc
      exact DelayMap.mem_keys_remove.mpr ⟨fun heq => ha heq.symm, hc⟩
    · exact fun c _ hlogin => List.mem_cons_of_mem _ hlogin
  | challenge id =>
    refine h.mono hused ?_ (fun _ _ hlogin => hlogin) (fun _ _ _ => rfl) fun _ _ huser => huser
    exact fun c _ hc => DelayMap.mem_keys_insert.mpr (.inr hc)
  -- the new token was never drawn before, so it is not the client's
  | loginToken args accessToken _ =>
    refine h.mono hused (fun _ _ hc => hc) ?_ ?_ fun _ _ huser => huser
    · rintro c rfl hlogin
      refine (List.mem_erase_of_ne ?_).mpr hlogin
      rintro rfl
      exact ha rfl
    · intro t _ ht
      refine (DelayMap.lookup_insert _ _ _ _ _).trans (if_neg ?_)
      rintro rfl
      exact hfresh t rfl ht
  | authenticated user _ =>
    refine h.mono hused (fun _ _ hc => hc) (fun _ _ hlogin => hlogin) (fun _ _ _ => rfl) ?_
    exact fun t _ huser => List.mem_cons_of_mem _ huser
  -- only a logout takes a token away, and it is for another one
  | request user r _ =>
    refine h.mono hused ?_ (fun _ _ hlogin => hlogin) ?_ ?_
    · intro c _ hc
      dsimp only
      rwa [handle_challenges]
    · rintro t rfl -
      dsimp only
      rw [handle_accessTokens]
      split_ifs
      · exact (DelayMap.lookup_remove _ _ _).trans (if_neg fun heq => ha heq.symm)
      · rfl
    · rintro t rfl huser
      refine (List.mem_erase_of_ne ?_).mpr huser
      rintro rfl
      exact ha rfl
  | popChallenge id _ =>
    refine h.mono hused ?_ (fun _ _ hlogin => hlogin) (fun _ _ _ => rfl) fun _ _ huser => huser
    rintro c rfl hc
    exact DelayMap.mem_keys_remove.mpr ⟨fun heq => ha heq.symm, hc⟩
  | popToken accessToken _ _ =>
    refine h.mono hused (fun _ _ hc => hc) (fun _ _ hlogin => hlogin) ?_ fun _ _ huser => huser
    rintro t rfl -
    exact (DelayMap.lookup_remove _ _ _).trans (if_neg fun heq => ha heq.symm)
  | _ =>
    exact h.mono hused (fun _ _ hc => hc) (fun _ _ hlogin => hlogin) (fun _ _ _ => rfl)
      fun _ _ huser => huser

variable {ι : Type} [DecidableEq ι] {verify : Verifier} {surroundings : Surroundings}
  {pubkey : ι → PublicKey} {signature : ι → Uuid → Bytes}

/-- No two clients have the same challenge or the same token. -/
structure Credited (pubkey : ι → PublicKey) (signature : ι → Uuid → Bytes) (s : Service ι)
    (credential : ι → Credential) : Prop where
  held : ∀ i, Held s.server (pubkey i) (signature i) (credential i) (s.stage i)
  distinct : ∀ i j, credential i = credential j → credential i ≠ .nothing → i = j

omit [DecidableEq ι] in
theorem credited_new : Credited pubkey signature (.new ι) fun _ => .nothing :=
  ⟨fun _ => trivial, fun _ _ _ hne => absurd rfl hne⟩

namespace Credited

variable {s s' : Service ι} {credential : ι → Credential} {i : ι}

/-- A step for one client that keeps the credentials of the others. -/
theorem advance (h : Credited pubkey signature s credential) {server : Server} {stage : Stage}
    {new : Credential} (hi : Held server (pubkey i) (signature i) new stage)
    (hothers : ∀ j, j ≠ i → Held server (pubkey j) (signature j) (credential j) (s.stage j))
    (hnew : ∀ j, j ≠ i → credential j = new → new = .nothing) :
    Credited pubkey signature ⟨server, Function.update s.stage i stage⟩
      (Function.update credential i new) := by
  constructor
  · intro j
    change Held server _ _ (Function.update credential i new j) (Function.update s.stage i stage j)
    by_cases hj : j = i
    · subst hj
      rw [Function.update_self, Function.update_self]
      exact hi
    · rw [Function.update_of_ne hj, Function.update_of_ne hj]
      exact hothers j hj
  · intro j k heq hne
    by_cases hj : j = i
    · by_cases hk : k = i
      · rw [hj, hk]
      · subst hj
        rw [Function.update_self, Function.update_of_ne hk] at heq
        rw [Function.update_self] at hne
        exact absurd (hnew k hk heq.symm) hne
    · rw [Function.update_of_ne hj] at heq hne
      by_cases hk : k = i
      · subst hk
        rw [Function.update_self] at heq
        rw [heq] at hne
        exact absurd (hnew j hj heq) hne
      · rw [Function.update_of_ne hk] at heq
        exact h.distinct j k heq hne

theorem serve (h : Credited pubkey signature s credential) {a : Action} {response : Response}
    {server : Server} {stage : Stage} {new : Credential}
    (hstep : s.server.step verify a = some (response, server))
    (hi : Held server (pubkey i) (signature i) new stage)
    (hothers : ∀ j, j ≠ i → ¬Touches a (credential j))
    (hnew : ∀ j, j ≠ i → credential j = new → new = .nothing) :
    Credited pubkey signature ⟨server, Function.update s.stage i stage⟩
      (Function.update credential i new) :=
  h.advance hi (fun j hj => (h.held j).step hstep (hothers j hj)) hnew

omit [DecidableEq ι] in
theorem ne_of_ne (h : Credited pubkey signature s credential) {c : Credential}
    (hi : credential i = c) (hc : c ≠ .nothing) (j : ι) (hj : j ≠ i) : credential j ≠ c := by
  intro heq
  exact hj (h.distinct j i (heq.trans hi.symm) (heq ▸ hc))

omit [DecidableEq ι] in
theorem ne_of_notMem_used (h : Credited pubkey signature s credential) {id : Uuid}
    (hid : id ∉ s.server.used) (j : ι) : credential j ≠ .challenge id ∧ credential j ≠ .token id := by
  have hheld := h.held j
  constructor
  · intro heq
    rw [heq] at hheld
    cases hstage : s.stage j with
    | idle => exact hid (by rw [hstage] at hheld; exact hheld.1)
    | loggedIn => exact hid (by rw [hstage] at hheld; exact hheld.1)
    | authenticated user => rw [hstage] at hheld; exact hheld
  · intro heq
    rw [heq] at hheld
    cases hstage : s.stage j with
    | idle => exact hid (by rw [hstage] at hheld; exact hheld.1)
    | loggedIn => rw [hstage] at hheld; exact hheld
    | authenticated user => exact hid (by rw [hstage] at hheld; exact hheld.1.1)

omit [DecidableEq ι] in
theorem idles (h : Credited pubkey signature s credential) (hidles : s.Idles verify s') :
    Credited pubkey signature s' credential ∧
      ∃ duration, s.server.step verify (.tick duration) = some (.done, s'.server) := by
  cases hidles with
  | @tick duration server hstep =>
    refine ⟨⟨fun j => (h.held j).step hstep fun htouch => ?_, h.distinct⟩, duration, hstep⟩
    cases hcj : credential j <;> rw [hcj] at htouch <;> exact htouch

theorem works (h : Credited pubkey signature s credential) {q : Query}
    (hpresents : Presents (pubkey i) (signature i) (credential i) q)
    (hworks : s.Works verify i q s') : Credited pubkey signature s' credential ∧
      ∃ a response, s.server.step verify a = some (response, s'.server) ∧ a.fresh = none ∧
        ∀ user r, a ≠ .request user r := by
  have hheld := h.held i
  cases hworks with
  -- the challenge that the client presents is its own, and nobody else has it
  | @login accessToken args server hstage hstep =>
    refine ⟨?_, _, _, hstep, rfl, nofun⟩
    rw [hstage] at hheld
    cases hc : credential i with
    | nothing => rw [hc] at hpresents; cases hpresents
    | token t => rw [hc] at hpresents; cases hpresents.2
    | challenge c =>
      rw [hc] at hpresents hheld
      obtain rfl := HttpRequest.login.inj hpresents
      rw [← Function.update_eq_self i credential, hc]
      refine h.serve hstep ?_ ?_ ?_
      · obtain ⟨-, t, hacts, rfl⟩ := Server.acts_of_step hstep
        cases hacts with
        | loginAccepted _ _ _ => exact ⟨hheld.1, List.mem_cons_self⟩
      · intro j hj htouch
        cases hcj : credential j with
        | challenge c' =>
          rw [hcj] at htouch
          exact h.ne_of_ne hc nofun j hj (hcj.trans (congrArg Credential.challenge htouch.symm))
        | _ => rw [hcj] at htouch; exact htouch
      · exact fun j hj heq => absurd heq (h.ne_of_ne hc nofun j hj)
  -- only a client with a token sends a request that has a handler
  | @authenticate accessToken r id request user server hstage hrequest hstep =>
    refine ⟨?_, _, _, hstep, rfl, nofun⟩
    rw [hstage] at hheld
    cases hc : credential i with
    | nothing => rw [hc] at hpresents; cases hpresents; cases hrequest
    | challenge c => rw [hc] at hpresents; cases hpresents; cases hrequest
    | token t =>
      rw [hc] at hpresents hheld
      obtain ⟨rfl, -⟩ := hpresents
      rw [← Function.update_eq_self i credential, hc]
      refine h.serve hstep ?_ ?_ ?_
      · rw [authenticate_step hheld.2] at hstep
        obtain ⟨huser, rfl⟩ := Prod.mk.inj (Option.some.inj hstep)
        obtain rfl := Response.user.inj huser
        exact ⟨hheld, rfl, List.mem_cons_self⟩
      · intro j hj htouch
        cases hcj : credential j <;> exact htouch
      · exact fun j hj heq => absurd heq (h.ne_of_ne hc nofun j hj)

section Answers

variable {accessToken : Option Uuid} {c t : Uuid} (h : Credited pubkey signature s credential)
include h

theorem answers_challenge {answer : Except ClientError Uuid}
    (hanswers : s.Answers verify surroundings i (.http accessToken .challenge) answer s') :
    ∃ c, answer = .ok c ∧ surroundings.draws .challenge c ∧
      s.server.step verify (.challenge c) = some (.uuid c, s'.server) ∧
      Credited pubkey signature s' (Function.update credential i (.challenge c)) := by
  cases hanswers with
  | unauthorized _ hrequest _ => cases hrequest
  | handled _ hrequest _ _ _ => cases hrequest
  | @challenge _ c server hstage hdraws hstep =>
    refine ⟨c, rfl, hdraws, hstep, h.serve hstep ?_ ?_ ?_⟩
    · obtain ⟨-, t, hacts, rfl⟩ := Server.acts_of_step hstep
      cases hacts with
      | challenge _ =>
        exact ⟨Finset.mem_insert_self c _, DelayMap.mem_keys_insert.mpr (.inl rfl)⟩
    · intro j _ htouch
      cases hcj : credential j <;> rw [hcj] at htouch <;> exact htouch
    · obtain ⟨hfresh, -⟩ := Server.acts_of_step hstep
      exact fun j _ heq => absurd heq (h.ne_of_notMem_used (hfresh c rfl) j).1

theorem answers_login {answer : Except ClientError Uuid} (hc : credential i = .challenge c)
    (hpubkey : (pubkey i).bytes.length = 32) (hsignature : (signature i c).length = 64)
    (hverify : verify (pubkey i) c (signature i c) = true)
    (hanswers : s.Answers verify surroundings i
      (.http accessToken (.login ⟨c, pubkey i, signature i c⟩)) answer s') :
    ∃ t, answer = .ok t ∧ surroundings.draws (.login ⟨c, pubkey i, signature i c⟩) t ∧
      s.server.step verify (.loginToken ⟨c, pubkey i, signature i c⟩ t) =
        some (.uuid t, s'.server) ∧
      Credited pubkey signature s' (Function.update credential i (.token t)) := by
  have hheld := h.held i
  rw [hc] at hheld
  cases hanswers with
  | unauthorized _ hrequest _ => cases hrequest
  | handled _ hrequest _ _ _ => cases hrequest
  | loginFailed hstage hstep =>
    -- the challenge is live and the signature is good
    rw [hstage] at hheld
    have hok : s.server.step verify (.loginChallenge ⟨c, pubkey i, signature i c⟩) = _ :=
      loginChallenge_step hpubkey hsignature hverify hheld.2
    rw [hok] at hstep
    cases hstep
  | @login _ _ t server hstage hdraws hstep =>
    refine ⟨t, rfl, hdraws, hstep, h.serve hstep ?_ ?_ ?_⟩
    · obtain ⟨-, t, hacts, rfl⟩ := Server.acts_of_step hstep
      cases hacts with
      | loginToken _ _ _ =>
        exact ⟨Finset.mem_insert_self _ _, (DelayMap.lookup_insert _ _ _ _ _).trans (if_pos rfl)⟩
    · intro j hj htouch
      cases hcj : credential j with
      | challenge c' =>
        rw [hcj] at htouch
        exact h.ne_of_ne hc nofun j hj (hcj.trans (congrArg Credential.challenge htouch.symm))
      | _ => rw [hcj] at htouch; exact htouch
    · obtain ⟨hfresh, -⟩ := Server.acts_of_step hstep
      exact fun j _ heq => absurd heq (h.ne_of_notMem_used (hfresh t rfl) j).2

theorem answers_request {r : HttpRequest} {answer : Except ClientError r.Output}
    (hc : credential i = .token t) (hr : r.authenticated = true)
    (hanswers : s.Answers verify surroundings i (.http (some t) r) answer s') :
    ∃ id request, r.toRequest id = some request ∧ surroundings.draws r id ∧
      (∃ response, s.server.step verify (.request ⟨pubkey i, t⟩ request) =
        some (response, s'.server) ∧ r.Answers response answer) ∧
      Credited pubkey signature s'
        (Function.update credential i (if r = .logout then .nothing else .token t)) := by
  have hheld := h.held i
  rw [hc] at hheld
  cases hanswers with
  | challenge _ _ _ => cases hr
  | login _ _ _ => cases hr
  | loginFailed _ _ => cases hr
  | unauthorized hstage _ hstep =>
    rw [hstage] at hheld
    rw [authenticate_step hheld.2] at hstep
    cases hstep
  | @handled _ _ id request user response _ server hstage hrequest hdraws hstep hanswer =>
    rw [hstage] at hheld
    obtain ⟨⟨hused, htoken⟩, rfl, -⟩ := hheld
    refine ⟨id, request, hrequest, hdraws, ⟨response, hstep, hanswer⟩, h.serve hstep ?_ ?_ ?_⟩
    · split_ifs with hlogout
      · trivial
      · obtain ⟨-, t', hacts, rfl⟩ := Server.acts_of_step hstep
        refine ⟨hacts.mem_used hused, ?_⟩
        cases hacts with
        | request _ _ _ =>
          refine Eq.trans (congrArg (DelayMap.lookup · t) (handle_accessTokens request)) ?_
          rwa [if_neg]
          rintro rfl
          cases r <;> cases hrequest
          exact hlogout rfl
    · intro j hj htouch
      cases hcj : credential j with
      | token t' =>
        rw [hcj] at htouch
        exact h.ne_of_ne hc nofun j hj (hcj.trans (congrArg Credential.token htouch.symm))
      | _ => rw [hcj] at htouch; exact htouch
    · intro j hj heq
      split_ifs at heq ⊢ with hlogout
      · rfl
      · exact absurd heq (h.ne_of_ne hc nofun j hj)

theorem exists_challenge (hc : credential i = .nothing) (hfresh : c ∉ s.server.used)
    (hdraws : surroundings.draws .challenge c) :
    (frostd ι verify surroundings).CanAnswer s i (.http accessToken .challenge) (.ok c) := by
  have hheld := h.held i
  rw [hc] at hheld
  cases hstage : s.stage i with
  | idle =>
    obtain ⟨server, hstep⟩ : ∃ server, s.server.step verify (.challenge c) = some (.uuid c, server) :=
      exists_step rfl fun id hid => Option.some.inj hid ▸ hfresh
    exact ⟨s, _, .inl rfl, .challenge hstage hdraws hstep⟩
  | loggedIn => rw [hstage] at hheld; exact hheld.elim
  | authenticated user => rw [hstage] at hheld; exact hheld.elim

theorem exists_login (hc : credential i = .challenge c) (hpubkey : (pubkey i).bytes.length = 32)
    (hsignature : (signature i c).length = 64) (hverify : verify (pubkey i) c (signature i c) = true)
    (hfresh : t ∉ s.server.used)
    (hdraws : surroundings.draws (.login ⟨c, pubkey i, signature i c⟩) t) :
    (frostd ι verify surroundings).CanAnswer s i
      (.http accessToken (.login ⟨c, pubkey i, signature i c⟩)) (.ok t) := by
  have hheld := h.held i
  rw [hc] at hheld
  -- the second step for the login
  let q : Query := .http accessToken (.login ⟨c, pubkey i, signature i c⟩)
  have hsecond : ∀ s₁ : Service ι, (s₁ = s ∨ s.Works verify i q s₁) → s₁.stage i = .loggedIn →
      t ∉ s₁.server.used → ⟨c, pubkey i, signature i c⟩ ∈ s₁.server.pendingLogins →
      (frostd ι verify surroundings).CanAnswer s i q (.ok t) := by
    intro s₁ hworks hstage hunused hpending
    obtain ⟨server, hstep⟩ : ∃ server, s₁.server.step verify
        (.loginToken ⟨c, pubkey i, signature i c⟩ t) = some (.uuid t, server) :=
      exists_step (if_pos hpending) fun id hid => Option.some.inj hid ▸ hunused
    exact ⟨s₁, _, hworks, .login hstage hdraws hstep⟩
  cases hstage : s.stage i with
  | idle =>
    rw [hstage] at hheld
    have hstep : s.server.step verify (.loginChallenge ⟨c, pubkey i, signature i c⟩) = _ :=
      loginChallenge_step hpubkey hsignature hverify hheld.2
    exact hsecond _ (.inr (.login hstage hstep)) (Function.update_self i _ _) hfresh
      List.mem_cons_self
  | loggedIn =>
    rw [hstage] at hheld
    exact hsecond s (.inl rfl) hstage hfresh hheld.2
  | authenticated user => rw [hstage] at hheld; exact hheld.elim

theorem exists_request (id : Uuid) {r : HttpRequest} {request : Request}
    {answer : Except ClientError r.Output} (hc : credential i = .token t)
    (hrequest : r.toRequest id = some request) (hdraws : surroundings.draws r id)
    (hfresh : ∀ user id', (Action.request user request).fresh = some id' → id' ∉ s.server.used)
    (hanswer : r.Answers (handle s.server.now s.server.app ⟨pubkey i, t⟩ request).1 answer) :
    (frostd ι verify surroundings).CanAnswer s i (.http (some t) r) answer := by
  have hheld := h.held i
  rw [hc] at hheld
  have hsecond : ∀ s₁ : Service ι, (s₁ = s ∨ s.Works verify i (.http (some t) r) s₁) →
      s₁.stage i = .authenticated ⟨pubkey i, t⟩ → s₁.server.used = s.server.used →
      s₁.server.now = s.server.now → s₁.server.app = s.server.app →
      ⟨pubkey i, t⟩ ∈ s₁.server.users →
      (frostd ι verify surroundings).CanAnswer s i (.http (some t) r) answer := by
    intro s₁ hworks hstage hused hnow happ hmem
    obtain ⟨server, hstep⟩ : ∃ server, s₁.server.step verify (.request ⟨pubkey i, t⟩ request) =
        some ((handle s₁.server.now s₁.server.app ⟨pubkey i, t⟩ request).1, server) :=
      exists_step (if_pos hmem) fun id' hid => hused ▸ hfresh _ id' hid
    rw [← hnow, ← happ] at hanswer
    exact ⟨s₁, _, hworks, .handled hstage hrequest hdraws hstep hanswer⟩
  cases hstage : s.stage i with
  | idle =>
    rw [hstage] at hheld
    exact hsecond _ (.inr (.authenticate hstage hrequest (authenticate_step hheld.2)))
      (Function.update_self i _ _) rfl rfl rfl List.mem_cons_self
  | loggedIn => rw [hstage] at hheld; exact hheld.elim
  | authenticated user =>
    rw [hstage] at hheld
    obtain ⟨-, rfl, hmem⟩ := hheld
    exact hsecond s (.inl rfl) hstage rfl rfl rfl hmem

theorem exists_plain_request (id : Uuid) {r : HttpRequest} {request : Request}
    {answer : Except ClientError r.Output} (hc : credential i = .token t)
    (hrequest : r.toRequest id = some request) (hdraws : surroundings.draws r id)
    (hplain : ∀ user, (Action.request user request).fresh = none)
    (hanswer : r.Answers (handle s.server.now s.server.app ⟨pubkey i, t⟩ request).1 answer) :
    (frostd ι verify surroundings).CanAnswer s i (.http (some t) r) answer := by
  refine h.exists_request id hc hrequest hdraws (fun user id' hid => ?_) hanswer
  rw [hplain user] at hid
  cases hid

end Answers

end Credited
end FrostTools.Client
