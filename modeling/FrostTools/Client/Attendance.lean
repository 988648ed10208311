import FrostTools.Client.Concurrent

/-!
# Clients in one session

What the server answers to many clients at the same time, while one of them creates the only
session there is.
-/

namespace FrostTools.Client
open Api Frostd

/-- The new session gets the id `sid`, and nothing else does. -/
def Surroundings.of (sid : Uuid) (enters : String → Prop) : Surroundings where
  draws
    | .createNewSession _, id => id = sid
    | _, id => id ≠ sid
  enters := enters

variable {ι : Type} [DecidableEq ι] {verify : Verifier} {enters : String → Prop}
  {pubkey : ι → PublicKey} {signature : ι → Uuid → Bytes} {sid : Uuid}

/-- The clients hold their credentials, and the server has the record of the session. -/
structure Attends (pubkey : ι → PublicKey) (signature : ι → Uuid → Bytes) (sid : Uuid)
    (s : Service ι) (credential : ι → Credential) (record : Option Session) : Prop where
  credited : Credited pubkey signature s credential
  hosts : s.server.Hosts sid record

omit [DecidableEq ι] in
theorem attends_new : Attends pubkey signature sid (.new ι) (fun _ => .nothing) none :=
  ⟨credited_new, Server.hosts_new sid⟩

namespace Attends

variable {s s' : Service ι} {credential : ι → Credential} {record : Option Session} {i : ι}

theorem keep (h : Attends pubkey signature sid s credential record) {c : Credential}
    (hi : credential i = c) :
    Attends pubkey signature sid s (Function.update credential i c) record := by
  rwa [← hi, Function.update_eq_self]

omit [DecidableEq ι] in
theorem idles (h : Attends pubkey signature sid s credential record) (hidles : s.Idles verify s') :
    Attends pubkey signature sid s' credential record ∧ s'.server.used = s.server.used := by
  obtain ⟨hcredited, duration, hstep⟩ := h.credited.idles hidles
  exact ⟨⟨hcredited, h.hosts.step hstep nofun⟩, Server.used_of_step hstep⟩

theorem works (h : Attends pubkey signature sid s credential record) {q : Query}
    (hpresents : Presents (pubkey i) (signature i) (credential i) q)
    (hworks : s.Works verify i q s') :
    Attends pubkey signature sid s' credential record ∧ s'.server.used = s.server.used := by
  obtain ⟨hcredited, a, response, hstep, hfresh, hrequest⟩ := h.credited.works hpresents hworks
  have hhosts := h.hosts.step hstep fun user args id heq => absurd heq (hrequest user _)
  refine ⟨⟨hcredited, ?_⟩, ?_⟩
  · cases hworks with
    | login _ hstep' => exact h.hosts.step hstep' nofun
    | authenticate _ _ hstep' => exact h.hosts.step hstep' nofun
  · rw [Server.used_of_step hstep, hfresh]
    rfl

section Answers

variable {accessToken : Option Uuid} {c t : Uuid} {session : Session}
  (h : Attends pubkey signature sid s credential record)
include h

theorem challenge {answer : Except ClientError Uuid}
    (hanswers : s.Answers verify (.of sid enters) i (.http accessToken .challenge) answer s') :
    ∃ c, answer = .ok c ∧ c ≠ sid ∧ s'.server.used = insert c s.server.used ∧
      Attends pubkey signature sid s' (Function.update credential i (.challenge c)) record := by
  obtain ⟨c, rfl, hdraws, hstep, hcredited⟩ := h.credited.answers_challenge hanswers
  exact ⟨c, rfl, hdraws, Server.used_of_step hstep, hcredited, h.hosts.step hstep nofun⟩

theorem login {answer : Except ClientError Uuid} (hc : credential i = .challenge c)
    (hpubkey : (pubkey i).bytes.length = 32) (hsignature : (signature i c).length = 64)
    (hverify : verify (pubkey i) c (signature i c) = true)
    (hanswers : s.Answers verify (.of sid enters) i
      (.http accessToken (.login ⟨c, pubkey i, signature i c⟩)) answer s') :
    ∃ t, answer = .ok t ∧ t ≠ sid ∧ s'.server.used = insert t s.server.used ∧
      Attends pubkey signature sid s' (Function.update credential i (.token t)) record := by
  obtain ⟨t, rfl, hdraws, hstep, hcredited⟩ :=
    h.credited.answers_login hc hpubkey hsignature hverify hanswers
  exact ⟨t, rfl, hdraws, Server.used_of_step hstep, hcredited, h.hosts.step hstep nofun⟩

theorem request {r : HttpRequest} {answer : Except ClientError r.Output}
    (hc : credential i = .token t) (hr : r.authenticated = true)
    (hanswers : s.Answers verify (.of sid enters) i (.http (some t) r) answer s') :
    ∃ id request, r.toRequest id = some request ∧ (Surroundings.of sid enters).draws r id ∧
      r.Answers (handle s.server.now s.server.app ⟨pubkey i, t⟩ request).1 answer ∧
      s'.server.used = (Action.request ⟨pubkey i, t⟩ request).fresh.elim s.server.used
        (insert · s.server.used) ∧
      Attends pubkey signature sid s'
        (Function.update credential i (if r = .logout then .nothing else .token t))
        (sessionEffect ⟨pubkey i, t⟩ sid request
          (handle s.server.now s.server.app ⟨pubkey i, t⟩ request).1 record) := by
  obtain ⟨id, request, hrequest, hdraws, ⟨response, hstep, hanswer⟩, hcredited⟩ :=
    h.credited.answers_request hc hr hanswers
  obtain ⟨-, _, hacts, -⟩ := Server.acts_of_step hstep
  obtain rfl := hacts.request_response
  refine ⟨id, request, hrequest, hdraws, hanswer, Server.used_of_step hstep, hcredited, ?_⟩
  refine h.hosts.step hstep ?_
  rintro user args id' heq
  obtain ⟨-, rfl⟩ := Action.request.inj heq
  cases r <;> cases hrequest
  exact hdraws

theorem request_kept {r : HttpRequest} {answer : Except ClientError r.Output}
    (hanswers : s.Answers verify (.of sid enters) i (.http (some t) r) answer s')
    (hc : credential i = .token t) (hr : r.authenticated = true) (hne : r ≠ .logout) :
    ∃ id request, r.toRequest id = some request ∧ (Surroundings.of sid enters).draws r id ∧
      r.Answers (handle s.server.now s.server.app ⟨pubkey i, t⟩ request).1 answer ∧
      s'.server.used = (Action.request ⟨pubkey i, t⟩ request).fresh.elim s.server.used
        (insert · s.server.used) ∧
      Attends pubkey signature sid s' credential (sessionEffect ⟨pubkey i, t⟩ sid request
        (handle s.server.now s.server.app ⟨pubkey i, t⟩ request).1 record) := by
  obtain ⟨id, request, hrequest, hdraws, hanswer, hused, hattends⟩ := h.request hc hr hanswers
  rw [if_neg hne, ← hc, Function.update_eq_self] at hattends
  exact ⟨id, request, hrequest, hdraws, hanswer, hused, hattends⟩

theorem createNewSession {args : CreateNewSessionArgs} {answer : Except ClientError Uuid}
    (hc : credential i = .token t) (hcount : args.messageCount ≠ 0)
    (hanswers : s.Answers verify (.of sid enters) i (.http (some t) (.createNewSession args))
      answer s') :
    answer = .ok sid ∧ s'.server.used = insert sid s.server.used ∧
      Attends pubkey signature sid s' credential
        (some ⟨args.pubkeys, pubkey i, args.messageCount, ∅⟩) := by
  obtain ⟨id, _, ⟨⟩, hid, hanswer, hused, hattends⟩ := h.request_kept hanswers hc rfl nofun
  obtain rfl : id = sid := hid
  rw [Server.createNewSession_response hcount] at hanswer hattends
  rw [sessionEffect, if_pos rfl] at hattends
  exact ⟨hanswer, hused, hattends⟩

theorem logout {answer : Except ClientError Unit} (hc : credential i = .token t)
    (hanswers : s.Answers verify (.of sid enters) i (.http (some t) .logout) answer s') :
    answer = .ok () ∧ s'.server.used = s.server.used ∧
      Attends pubkey signature sid s' (Function.update credential i .nothing) record := by
  obtain ⟨id, _, ⟨⟩, -, hanswer, hused, hattends⟩ := h.request hc rfl hanswers
  exact ⟨hanswer, hused, hattends⟩

theorem listSessions {ids : Finset Uuid} {answer : Except ClientError (List Uuid)}
    (hc : credential i = .token t)
    (hids : ∀ user : User, user.pubkey = pubkey i →
      (handle s.server.now s.server.app user .listSessions).1 = .sessionIds ids)
    (hanswers : s.Answers verify (.of sid enters) i (.http (some t) .listSessions) answer s') :
    (∃ order : List Uuid, order.Nodup ∧ order.toFinset = ids ∧ answer = .ok order) ∧
      s'.server.used = s.server.used ∧ Attends pubkey signature sid s' credential record := by
  obtain ⟨id, _, ⟨⟩, -, hanswer, hused, hattends⟩ := h.request_kept hanswers hc rfl nofun
  rw [hids _ rfl] at hanswer
  exact ⟨hanswer, hused, hattends⟩

theorem getSessionInfo_unopened {answer : Except ClientError GetSessionInfoOutput}
    (hc : credential i = .token t) (hunused : sid ∉ s.server.used)
    (hanswers : s.Answers verify (.of sid enters) i (.http (some t) (.getSessionInfo ⟨sid⟩))
      answer s') :
    answer = .error (.serverError .sessionNotFound) ∧ s'.server.used = s.server.used ∧
      Attends pubkey signature sid s' credential record := by
  obtain ⟨id, _, ⟨⟩, -, hanswer, hused, hattends⟩ := h.request_kept hanswers hc rfl nofun
  rw [h.hosts.getSessionInfo_unopened hunused] at hanswer
  exact ⟨hanswer, hused, hattends⟩

end Answers

section Open

variable {t : Uuid} {session : Session}
  (h : Attends pubkey signature sid s credential (some session))
include h

theorem getSessionInfo {answer : Except ClientError GetSessionInfoOutput}
    (hc : credential i = .token t) (hmember : session.Member (pubkey i))
    (hanswers : s.Answers verify (.of sid enters) i (.http (some t) (.getSessionInfo ⟨sid⟩))
      answer s') :
    answer = .ok ⟨session.messageCount, session.pubkeys, session.coordinatorPubkey⟩ ∧
      s'.server.used = s.server.used ∧
      Attends pubkey signature sid s' credential (some session) := by
  obtain ⟨id, _, ⟨⟩, -, hanswer, hused, hattends⟩ := h.request_kept hanswers hc rfl nofun
  rw [h.hosts.getSessionInfo hmember] at hanswer
  exact ⟨hanswer, hused, hattends⟩

theorem send {recipients : List PublicKey} {msg : Bytes} {answer : Except ClientError Unit}
    (hc : credential i = .token t) (hlen : msg.length ≤ maxMsgSize)
    (hcan : ∀ user : User, user.pubkey = pubkey i →
      canSend session user ⟨sid, recipients, msg⟩ = true)
    (hanswers : s.Answers verify (.of sid enters) i (.http (some t) (.send ⟨sid, recipients, msg⟩))
      answer s') :
    answer = .ok () ∧ s'.server.used = s.server.used ∧
      Attends pubkey signature sid s' credential
        (some (enqueue ⟨pubkey i, t⟩ ⟨sid, recipients, msg⟩ session)) := by
  obtain ⟨id, _, ⟨⟩, -, hanswer, hused, hattends⟩ := h.request_kept hanswers hc rfl nofun
  rw [h.hosts.send hlen (hcan _ rfl)] at hanswer hattends
  rw [sessionEffect, if_pos rfl] at hattends
  exact ⟨hanswer, hused, hattends⟩

theorem receive {asCoordinator : Bool} {answer : Except ClientError (List Msg)}
    (hc : credential i = .token t) (hmember : session.Member (pubkey i))
    (hanswers : s.Answers verify (.of sid enters) i (.http (some t) (.receive ⟨sid, asCoordinator⟩))
      answer s') :
    answer = .ok (session.messages (resolve session (pubkey i) asCoordinator)) ∧
      s'.server.used = s.server.used ∧ Attends pubkey signature sid s' credential
        (some (session.drain (resolve session (pubkey i) asCoordinator)).2) := by
  obtain ⟨id, _, ⟨⟩, -, hanswer, hused, hattends⟩ := h.request_kept hanswers hc rfl nofun
  rw [h.hosts.receive hmember] at hanswer hattends
  rw [sessionEffect, if_pos rfl] at hattends
  exact ⟨hanswer, hused, hattends⟩

theorem closeSession {answer : Except ClientError Unit} (hc : credential i = .token t)
    (hcoordinator : session.coordinatorPubkey = pubkey i)
    (hanswers : s.Answers verify (.of sid enters) i (.http (some t) (.closeSession ⟨sid⟩))
      answer s') :
    answer = .ok () ∧ s'.server.used = s.server.used ∧
      Attends pubkey signature sid s' credential none := by
  obtain ⟨id, _, ⟨⟩, -, hanswer, hused, hattends⟩ := h.request_kept hanswers hc rfl nofun
  rw [h.hosts.closeSession hcoordinator] at hanswer hattends
  rw [sessionEffect, if_pos rfl] at hattends
  exact ⟨hanswer, hused, hattends⟩

end Open

end Attends

theorem exists_fresh (used : Finset Uuid) (sid : Uuid) (h : used.card + 1 < 2 ^ 128) :
    ∃ id, id ∉ used ∧ id ≠ sid := by
  have hinj : Set.InjOn (BitVec.ofNat 128) (Finset.range (used.card + 2)) := by
    intro i hi j hj heq
    rw [Finset.mem_coe, Finset.mem_range] at hi hj
    have hmod := congrArg BitVec.toNat heq
    rwa [BitVec.toNat_ofNat, BitVec.toNat_ofNat, Nat.mod_eq_of_lt (by omega),
      Nat.mod_eq_of_lt (by omega)] at hmod
  have hcard : (insert sid used).card <
      ((Finset.range (used.card + 2)).image (BitVec.ofNat 128)).card := by
    rw [Finset.card_image_of_injOn hinj, Finset.card_range]
    exact Nat.lt_succ_of_le (Finset.card_insert_le sid used)
  obtain ⟨id, -, hid⟩ := Finset.exists_mem_notMem_of_card_lt_card hcard
  rw [Finset.mem_insert, not_or] at hid
  exact ⟨id, hid.2, hid.1⟩

end FrostTools.Client
