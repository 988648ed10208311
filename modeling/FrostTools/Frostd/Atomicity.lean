import FrostTools.Frostd.Server

/-!
# Failed requests

Every check of a handler comes before its first write, so a request that fails leaves the
challenges, the access tokens, the sessions and the index as they were.
-/

namespace FrostTools.Frostd
open Api

section Handlers

variable {now : ℕ} {state : AppState} {user : User} {r : Request} {e : Error}

theorem ofResult_eq_error_iff {α : Type} {f : α → Response} {x : Except Error α}
    (hf : ∀ a, f a ≠ .error e) : Response.ofResult f x = .error e ↔ x = .error e := by
  cases x with
  | ok a => simp [Response.ofResult, hf a]
  | error e' => simp [Response.ofResult]

theorem createNewSession_eq_of_error {args : CreateNewSessionArgs} {id : Uuid}
    (h : (createNewSession now state user args id).1 = .error e) :
    (createNewSession now state user args id).2 = state := by
  unfold createNewSession at h ⊢
  split_ifs with hcount
  · rfl
  · rw [if_neg hcount] at h
    cases h

theorem loginChallenge_eq_of_error {verify : Verifier} {args : LoginArgs}
    (h : (loginChallenge verify state args).1 = .error e) :
    (loginChallenge verify state args).2 = state := by
  unfold loginChallenge at h ⊢
  split_ifs at h ⊢
  all_goals rfl

theorem handle_eq_of_error (h : (handle now state user r).1 = .error e) :
    (handle now state user r).2 = state := by
  cases r with
  | logout => cases h
  | createNewSession args id =>
    apply createNewSession_eq_of_error (e := e)
    exact (ofResult_eq_error_iff (by simp)).mp h
  | listSessions => rfl
  | getSessionInfo args => exact getSessionInfo_state args
  | send args =>
    apply send_eq_of_error (e := e)
    exact (ofResult_eq_error_iff (by simp)).mp h
  | receive args =>
    apply receive_eq_of_error (e := e)
    exact (ofResult_eq_error_iff (by simp)).mp h
  | closeSession args =>
    apply closeSession_eq_of_error (e := e)
    exact (ofResult_eq_error_iff (by simp)).mp h

theorem canSend_outsider {args : SendArgs} {session : Session} {recipient : PublicKey}
    (hmem : recipient ∈ args.recipients) (hout : recipient ∉ session.pubkeys) :
    canSend session user args = false := by
  have hrecipient : SessionParticipant.participant recipient ∈ recipients args := by
    rw [recipients, if_neg (List.ne_nil_of_mem hmem)]
    exact List.mem_map_of_mem hmem
  apply Bool.eq_false_iff.mpr
  intro hcan
  rw [canSend, Bool.and_eq_true, List.all_eq_true] at hcan
  have hmember := hcan.2 _ hrecipient
  exact hout (of_decide_eq_true hmember)

/-- A recipient outside the session makes the whole `send` fail. -/
theorem send_outsider {args : SendArgs} {session : Session} {recipient : PublicKey}
    (hsession : state.sessions.sessions.lookup args.sessionId = some session)
    (hmem : recipient ∈ args.recipients) (hout : recipient ∉ session.pubkeys) :
    ∃ e, (send now state user args).1 = .error e := by
  unfold send
  split_ifs with hlen
  · exact ⟨_, rfl⟩
  · rw [hsession]
    exact ⟨.notInSession, by simp [canSend_outsider hmem hout]⟩

end Handlers

namespace Server

variable {verify : Verifier} {s s' : Server} {a : Action} {response : Response} {e : Error}

/-- A step answered with an error changes neither the maps nor their deadlines. -/
theorem Acts.app_of_error (h : Acts verify s a response s') (herr : response = .error e) :
    s'.app = s.app := by
  cases h with
  | loginRejected args e' => rfl
  | unauthorized bearer _ => rfl
  | request user r _ => exact handle_eq_of_error herr
  | _ => cases herr

end Server
open Server

/-- A request answered with an error leaves the challenges, the access tokens, the sessions with
their queues and deadlines, and the index unchanged: as a step of the server, and as the handler
run for any user. A `send` to somebody outside the session is such a request. -/
theorem failed_request_unchanged (verify : Verifier) (s : Server) :
    (∀ a e s', s.step verify a = some (.error e, s') → s'.app = s.app) ∧
    (∀ args e, (loginChallenge verify s.app args).1 = .error e →
      (loginChallenge verify s.app args).2 = s.app) ∧
    (∀ user r e, (handle s.now s.app user r).1 = .error e →
      (handle s.now s.app user r).2 = s.app) ∧
    ∀ user args session recipient,
      s.app.sessions.sessions.lookup args.sessionId = some session →
      recipient ∈ args.recipients → recipient ∉ session.pubkeys →
      ∃ e, send s.now s.app user args = (.error e, s.app) := by
  refine ⟨?_, ?_, ?_, ?_⟩
  · intro a e s' hstep
    obtain ⟨-, t, hacts, rfl⟩ := acts_of_step hstep
    exact hacts.app_of_error rfl
  · intro args e herr
    exact loginChallenge_eq_of_error herr
  · intro user r e herr
    exact handle_eq_of_error herr
  · intro user args session recipient hsession hmem hout
    have herr : ∃ e, (send s.now s.app user args).1 = .error e := send_outsider hsession hmem hout
    obtain ⟨e, herr⟩ := herr
    exact ⟨e, Prod.ext herr (send_eq_of_error herr)⟩

/-- Two members, a message for one of them, and a message for both and an outsider. -/
def mixedRecipients : List Action :=
  loginActions (sampleKey 1) 10 11 3 ++
    [.request ⟨sampleKey 1, 11⟩ (.createNewSession ⟨[sampleKey 1, sampleKey 2], 1⟩ 12),
      .request ⟨sampleKey 1, 11⟩ (.send ⟨12, [sampleKey 2], [7]⟩)]

theorem failed_request_unchanged_outsider : ∃ es s s', exec acceptAll new mixedRecipients =
      some (es, s) ∧
    s.step acceptAll (.request ⟨sampleKey 1, 11⟩
      (.send ⟨12, [sampleKey 1, sampleKey 3, sampleKey 2], [8]⟩)) =
        some (.error .notInSession, s') ∧ s'.app = s.app := by
  have hrun : ((exec acceptAll new mixedRecipients).bind fun r =>
      r.2.step acceptAll (.request ⟨sampleKey 1, 11⟩
        (.send ⟨12, [sampleKey 1, sampleKey 3, sampleKey 2], [8]⟩))).map (·.1) =
      some (.error .notInSession) := by decide
  obtain ⟨⟨response, s'⟩, hstep, rfl⟩ := Option.map_eq_some_iff.mp hrun
  obtain ⟨⟨es, s⟩, hexec, hs⟩ := Option.bind_eq_some_iff.mp hstep
  exact ⟨es, s, s', hexec, hs, (failed_request_unchanged acceptAll s).1 _ _ s' hs⟩

end FrostTools.Frostd
