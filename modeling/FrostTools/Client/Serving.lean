import FrostTools.Client.Http
import FrostTools.Frostd.Consistency

namespace FrostTools.Client
open Api Frostd

namespace HttpRequest

/-- The request of an authenticated user. The id is that of a new session. -/
def toRequest (id : Uuid) : HttpRequest → Option Request
  | .challenge => none
  | .login _ => none
  | .logout => some .logout
  | .createNewSession args => some (.createNewSession args id)
  | .listSessions => some .listSessions
  | .getSessionInfo args => some (.getSessionInfo args)
  | .send args => some (.send args)
  | .receive args => some (.receive args)
  | .closeSession args => some (.closeSession args)

/-- What a client makes of a response. The ids of the sessions come in any order. -/
def Answers : (r : HttpRequest) → Response → Except ClientError r.Output → Prop
  | _, .error e, answer => answer = .error (.serverError e)
  | .logout, .done, answer => answer = .ok ()
  | .createNewSession _, .uuid id, answer => answer = .ok id
  | .listSessions, .sessionIds ids, answer =>
    ∃ order : List Uuid, order.Nodup ∧ order.toFinset = ids ∧ answer = .ok order
  | .getSessionInfo _, .sessionInfo info, answer => answer = .ok info
  | .send _, .done, answer => answer = .ok ()
  | .receive _, .msgs msgs, answer => answer = .ok msgs
  | .closeSession _, .done, answer => answer = .ok ()
  | _, _, _ => False

end HttpRequest

variable {verify : Verifier}

inductive Served (verify : Verifier) (s : Server) (accessToken : Option Uuid) :
    (r : HttpRequest) → Except ClientError r.Output → Server → Prop
  | challenge {id : Uuid} {s' : Server} :
    s.step verify (.challenge id) = some (.uuid id, s') →
    Served verify s accessToken .challenge (.ok id) s'
  | login {args : LoginArgs} {token : Uuid} {s₁ s' : Server} :
    s.step verify (.loginChallenge args) = some (.done, s₁) →
    s₁.step verify (.loginToken args token) = some (.uuid token, s') →
    Served verify s accessToken (.login args) (.ok token) s'
  | loginFailed {args : LoginArgs} {e : Api.Error} {s' : Server} :
    s.step verify (.loginChallenge args) = some (.error e, s') →
    Served verify s accessToken (.login args) (.error (.serverError e)) s'
  | unauthorized {r : HttpRequest} {id : Uuid} {request : Request} {e : Api.Error} {s' : Server} :
    r.toRequest id = some request →
    s.step verify (.authenticate accessToken) = some (.error e, s') →
    Served verify s accessToken r (.error (.serverError e)) s'
  | handled {r : HttpRequest} {id : Uuid} {request : Request} {user : User} {response : Response}
    {answer : Except ClientError r.Output} {s₁ s' : Server} :
    r.toRequest id = some request →
    s.step verify (.authenticate accessToken) = some (.user user, s₁) →
    s₁.step verify (.request user request) = some (response, s') →
    r.Answers response answer →
    Served verify s accessToken r answer s'

inductive Serves (verify : Verifier) : Server → List World.Event → Server → Prop
  | nil (s : Server) : Serves verify s [] s
  | cons {s s₁ s' : Server} {accessToken : Option Uuid} {r : HttpRequest}
    {answer : Except ClientError r.Output} {es : List World.Event} :
    Served verify s accessToken r answer s₁ → Serves verify s₁ es s' →
    Serves verify s (⟨.http accessToken r, answer⟩ :: es) s'

section Serves

variable {s s₁ s' : Server} {es es' : List World.Event} {accessToken : Option Uuid}
  {r : HttpRequest} {answer : Except ClientError r.Output}

theorem serves_nil_iff : Serves verify s [] s' ↔ s = s' := by
  constructor
  · intro h
    cases h
    rfl
  · rintro rfl
    exact .nil s

theorem serves_cons_iff : Serves verify s (⟨.http accessToken r, answer⟩ :: es) s' ↔
    ∃ s₁, Served verify s accessToken r answer s₁ ∧ Serves verify s₁ es s' := by
  constructor
  · intro h
    cases h with
    | cons hserved hrest => exact ⟨_, hserved, hrest⟩
  · rintro ⟨s₁, hserved, hrest⟩
    exact .cons hserved hrest

theorem Serves.append (h : Serves verify s es s₁) (h' : Serves verify s₁ es' s') :
    Serves verify s (es ++ es') s' := by
  induction h with
  | nil s => exact h'
  | cons hserved _ ih => exact .cons hserved (ih h')

theorem serves_append_iff : Serves verify s (es ++ es') s' ↔
    ∃ s₁, Serves verify s es s₁ ∧ Serves verify s₁ es' s' := by
  refine ⟨fun h => ?_, fun ⟨s₁, h, h'⟩ => h.append h'⟩
  induction es generalizing s with
  | nil => exact ⟨s, .nil s, h⟩
  | cons e es ih =>
    rw [List.cons_append] at h
    cases h with
    | cons hserved hrest =>
      obtain ⟨s₂, hes, hes'⟩ := ih hrest
      exact ⟨s₂, .cons hserved hes, hes'⟩

end Serves

section Authenticated

variable {s s' : Server} {accessToken : Uuid} {pubkey : PublicKey} {r : HttpRequest}
  {answer : Except ClientError r.Output} {request : Request}

theorem authenticate_step (htoken : s.app.accessTokens.lookup accessToken = some pubkey) :
    s.step verify (.authenticate (some accessToken)) =
      some (.user ⟨pubkey, accessToken⟩, { s with users := ⟨pubkey, accessToken⟩ :: s.users }) := by
  simp only [Server.step, Action.fresh, Server.act, fromRequestParts, htoken]

theorem request_step {user : User} (hfresh : (Action.request user request).fresh = none)
    (hmem : user ∈ s.users) : s.step verify (.request user request) =
      some ((handle s.now s.app user request).1,
        { s with app := (handle s.now s.app user request).2, users := s.users.erase user }) := by
  simp only [Server.step, hfresh, Server.act, if_pos hmem]

/-- A request with a valid token that draws no id is answered by its handler. -/
theorem served_iff (htoken : s.app.accessTokens.lookup accessToken = some pubkey)
    (hr : ∀ id, r.toRequest id = some request)
    (hfresh : ∀ user, (Action.request user request).fresh = none) :
    Served verify s (some accessToken) r answer s' ↔
      r.Answers (handle s.now s.app ⟨pubkey, accessToken⟩ request).1 answer ∧
        s' = { s with app := (handle s.now s.app ⟨pubkey, accessToken⟩ request).2 } := by
  have hauth : s.step verify (.authenticate (some accessToken)) = _ := authenticate_step htoken
  have hstep : ({ s with users := ⟨pubkey, accessToken⟩ :: s.users } : Server).step verify
      (.request ⟨pubkey, accessToken⟩ request) = _ :=
    request_step (hfresh _) List.mem_cons_self
  rw [List.erase_cons_head] at hstep
  constructor
  · intro h
    cases h with
    | challenge _ => cases hr 0
    | login _ _ => cases hr 0
    | loginFailed _ => cases hr 0
    | unauthorized _ hfail =>
      rw [hauth] at hfail
      cases hfail
    | @handled _ id _ _ _ _ _ _ hrequest hauth' hstep' hanswer =>
      rw [hr id, Option.some.injEq] at hrequest
      subst hrequest
      rw [hauth, Option.some.injEq, Prod.mk.injEq] at hauth'
      obtain ⟨huser, rfl⟩ := hauth'
      obtain rfl := Response.user.inj huser
      rw [hstep, Option.some.injEq, Prod.mk.injEq] at hstep'
      obtain ⟨rfl, rfl⟩ := hstep'
      exact ⟨hanswer, rfl⟩
  · rintro ⟨hanswer, rfl⟩
    exact .handled (hr 0) hauth hstep hanswer

end Authenticated
end FrostTools.Client
