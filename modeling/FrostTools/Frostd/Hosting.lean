import FrostTools.Frostd.Consistency

namespace FrostTools.Frostd.Server
open Api

variable {verify : Verifier} {s s' : Server} {sid : Uuid} {record : Option Session}
  {session : Session} {user : User} {a : Action} {response : Response}

structure Hosts (s : Server) (sid : Uuid) (record : Option Session) : Prop where
  consistent : s.Consistent
  only : ∀ pubkey id, id ∈ s.listed pubkey → id = sid
  session : s.session sid = record

theorem hosts_new (sid : Uuid) : Hosts new sid none where
  consistent := consistent_new
  only := by
    intro pubkey id h
    exact absurd (consistent_new.used_of_listed id pubkey h) (Finset.notMem_empty id)
  session := rfl

theorem Hosts.step (h : Hosts s sid record) (hstep : s.step verify a = some (response, s'))
    (hid : ∀ user args id, a = .request user (.createNewSession args id) → id = sid) :
    Hosts s' sid (recordAfter a response sid record) := by
  obtain ⟨hfresh, t, hacts, rfl⟩ := acts_of_step hstep
  refine ⟨hacts.consistent h.consistent hfresh, fun pubkey id hmem => ?_, ?_⟩
  · have hafter := (hacts.listed id pubkey).mp hmem
    unfold listedAfter at hafter
    split at hafter
    · next user r =>
      rcases hafter with ⟨hlisted, -⟩ | hadded
      · exact h.only pubkey id hlisted
      · unfold indexAdded at hadded
        split at hadded
        · next args id' _ =>
          rw [hadded.1]
          exact hid user args id' rfl
        · exact hadded.elim
    · exact h.only pubkey id hafter.1
    · exact h.only pubkey id hafter
  · rw [← h.session]
    exact hacts.session sid

theorem used_of_step (hstep : s.step verify a = some (response, s')) :
    s'.used = a.fresh.elim s.used (insert · s.used) := by
  obtain ⟨-, t, hacts, rfl⟩ := acts_of_step hstep
  dsimp only
  rw [hacts.used]

section Unopened

theorem Hosts.listed_eq_empty (h : Hosts s sid record) (hunused : sid ∉ s.used) (pubkey : PublicKey) :
    s.listed pubkey = ∅ := by
  rw [Finset.eq_empty_iff_forall_notMem]
  intro id hid
  obtain rfl := h.only pubkey id hid
  exact hunused (h.consistent.used_of_listed id pubkey hid)

theorem Hosts.listSessions_unopened (h : Hosts s sid record) (hunused : sid ∉ s.used) :
    (handle s.now s.app user .listSessions).1 = .sessionIds ∅ :=
  congrArg Response.sessionIds (h.listed_eq_empty hunused user.pubkey)

theorem Hosts.getSessionInfo_unopened (h : Hosts s sid record) (hunused : sid ∉ s.used) :
    (handle s.now s.app user (.getSessionInfo ⟨sid⟩)).1 = .error .sessionNotFound := by
  have hlisted : sid ∉ SessionState.listed s.app.sessions.sessionsByPubkey user.pubkey := by
    change sid ∉ s.listed user.pubkey
    rw [h.listed_eq_empty hunused]
    exact Finset.notMem_empty sid
  change Response.ofResult .sessionInfo (getSessionInfo s.app user ⟨sid⟩).1 = _
  unfold getSessionInfo
  unfold SessionState.listed at hlisted
  cases hu : s.app.sessions.sessionsByPubkey.lookup user.pubkey with
  | none => rfl
  | some ids =>
    rw [hu, Option.getD_some] at hlisted
    simp only [if_pos hlisted]
    rfl

end Unopened

theorem createNewSession_response {args : CreateNewSessionArgs} {id : Uuid}
    (hcount : args.messageCount ≠ 0) :
    (handle s.now s.app user (.createNewSession args id)).1 = .uuid id := by
  change Response.ofResult .uuid (createNewSession s.now s.app user args id).1 = _
  rw [createNewSession, if_neg hcount]
  rfl

section Open

variable (h : Hosts s sid (some session))
include h

theorem Hosts.listSessions (hmember : session.Member user.pubkey) :
    (handle s.now s.app user .listSessions).1 = .sessionIds {sid} := by
  refine congrArg Response.sessionIds (Finset.eq_singleton_iff_unique_mem.mpr ⟨?_, ?_⟩)
  · exact (h.consistent.listed_iff sid session h.session user.pubkey).mpr hmember
  · exact fun id hid => h.only user.pubkey id hid

theorem Hosts.getSessionInfo (hmember : session.Member user.pubkey) :
    (handle s.now s.app user (.getSessionInfo ⟨sid⟩)).1 =
      .sessionInfo ⟨session.messageCount, session.pubkeys, session.coordinatorPubkey⟩ := by
  have hlisted := (h.consistent.listed_iff sid session h.session user.pubkey).mpr hmember
  have hok : (Frostd.getSessionInfo s.app user ⟨sid⟩).1 = .ok _ :=
    getSessionInfo_ok_iff.mpr ⟨hlisted, session, h.session, rfl⟩
  exact congrArg (Response.ofResult .sessionInfo) hok

theorem Hosts.send {rs : List PublicKey} {msg : Bytes} (hlen : msg.length ≤ maxMsgSize)
    (hcan : canSend session user ⟨sid, rs, msg⟩ = true) :
    (handle s.now s.app user (.send ⟨sid, rs, msg⟩)).1 = .done :=
  handle_send_done_iff.mpr (send_ok_iff.mpr ⟨hlen, session, h.session, hcan⟩)

theorem Hosts.receive {asCoordinator : Bool} (hmember : session.Member user.pubkey) :
    (handle s.now s.app user (.receive ⟨sid, asCoordinator⟩)).1 =
      .msgs (session.messages (resolve session user.pubkey asCoordinator)) :=
  handle_receive_msgs_iff.mpr (receive_ok_iff.mpr ⟨session, h.session, hmember, rfl⟩)

theorem Hosts.closeSession (hcoordinator : session.coordinatorPubkey = user.pubkey) :
    (handle s.now s.app user (.closeSession ⟨sid⟩)).1 = .done :=
  handle_closeSession_done_iff.mpr (closeSession_ok_iff.mpr
    ⟨(h.consistent.listed_iff sid session h.session user.pubkey).mpr (.inr hcoordinator), session,
      h.session, hcoordinator⟩)

end Open
end FrostTools.Frostd.Server
