import FrostTools.Frostd.Consistency

/-!
# The two membership tests

`get_session_info` looks a session up in the index of the user, `send` and `receive`
look the user up in the record of the session.
-/

namespace FrostTools.Frostd.Server
open Api

variable {verify : Verifier} {s : Server} {sid : Uuid} {user : User}

def Admits (s : Server) (sid : Uuid) (pubkey : PublicKey) : Prop :=
  ∃ session, s.session sid = some session ∧ session.Member pubkey

theorem receive_ok_iff_admits (asCoordinator : Bool) :
    (∃ msgs, (receive s.now s.app user ⟨sid, asCoordinator⟩).1 = .ok msgs) ↔
      s.Admits sid user.pubkey := by
  constructor
  · rintro ⟨msgs, h⟩
    obtain ⟨session, hsession, hmember, -⟩ := receive_ok_iff.mp h
    exact ⟨session, hsession, hmember⟩
  · rintro ⟨session, hsession, hmember⟩
    exact ⟨_, receive_ok_iff.mpr ⟨session, hsession, hmember, rfl⟩⟩

/-- The coordinator is a valid recipient for every member. -/
theorem send_ok_iff_admits {msg : Bytes} (hlen : msg.length ≤ maxMsgSize) :
    (send s.now s.app user ⟨sid, [], msg⟩).1 = .ok () ↔ s.Admits sid user.pubkey := by
  have hcan : ∀ session : Session, canSend session user ⟨sid, [], msg⟩ = true ↔
      session.Member user.pubkey := by
    intro session
    simp [canSend, recipients]
  rw [send_ok_iff]
  constructor
  · rintro ⟨-, session, hsession, hsend⟩
    exact ⟨session, hsession, (hcan session).mp hsend⟩
  · rintro ⟨session, hsession, hmember⟩
    exact ⟨hlen, session, hsession, (hcan session).mpr hmember⟩

theorem Consistent.getSessionInfo_ok_iff_admits (h : s.Consistent) :
    (∃ info, (getSessionInfo s.app user ⟨sid⟩).1 = .ok info) ↔ s.Admits sid user.pubkey := by
  constructor
  · rintro ⟨info, hinfo⟩
    obtain ⟨hlisted, session, hsession, -⟩ := getSessionInfo_ok_iff.mp hinfo
    exact ⟨session, hsession, (h.listed_iff sid session hsession _).mp hlisted⟩
  · rintro ⟨session, hsession, hmember⟩
    have hlisted := (h.listed_iff sid session hsession _).mpr hmember
    exact ⟨_, getSessionInfo_ok_iff.mpr ⟨hlisted, session, hsession, rfl⟩⟩

/-- In every reachable state, also during an expiry, the two tests admit the same users. -/
theorem membership_tests_agree (h : (system verify).Reachable s) (user : User) (sid : Uuid) :
    (∀ session, s.session sid = some session →
      (sid ∈ s.listed user.pubkey ↔
        user.pubkey ∈ session.pubkeys ∨ session.coordinatorPubkey = user.pubkey)) ∧
    (∀ asCoordinator, (∃ info, (getSessionInfo s.app user ⟨sid⟩).1 = .ok info) ↔
      ∃ msgs, (receive s.now s.app user ⟨sid, asCoordinator⟩).1 = .ok msgs) ∧
    ∀ msg : Bytes, msg.length ≤ maxMsgSize →
      ((∃ info, (getSessionInfo s.app user ⟨sid⟩).1 = .ok info) ↔
        (send s.now s.app user ⟨sid, [], msg⟩).1 = .ok ()) := by
  have hs := consistent_of_reachable h
  refine ⟨fun session hsession => ?_, fun asCoordinator => ?_, fun msg hlen => ?_⟩
  · apply hs.listed_iff sid session hsession
  · rw [hs.getSessionInfo_ok_iff_admits, receive_ok_iff_admits]
  · rw [hs.getSessionInfo_ok_iff_admits, send_ok_iff_admits hlen]

/-- Two sessions of key 1, of which the first is popped and still in the index. -/
def halfExpired : List Action :=
  loginActions (sampleKey 1) 10 11 2 ++
    [.request ⟨sampleKey 1, 11⟩ (.createNewSession ⟨[sampleKey 2], 1⟩ 12),
      .tick sessionTimeout,
      .request ⟨sampleKey 1, 11⟩ (.createNewSession ⟨[sampleKey 2, sampleKey 2], 1⟩ 13),
      .popSession 12]

theorem membership_tests_agree_halfExpired : ∃ es s session,
    exec acceptAll new halfExpired = some (es, s) ∧ s.expiring.isSome = true ∧
      s.session 13 = some session ∧
      (13 ∈ s.listed (sampleKey 1) ↔
        sampleKey 1 ∈ session.pubkeys ∨ session.coordinatorPubkey = sampleKey 1) := by
  have hrun : ((exec acceptAll new halfExpired).bind fun r =>
      (r.2.session 13).map fun _ => r.2.expiring.isSome) = some true := by
    decide
  obtain ⟨⟨es, s⟩, he, hsession⟩ := Option.bind_eq_some_iff.mp hrun
  obtain ⟨session, hopen, hexpiring⟩ := Option.map_eq_some_iff.mp hsession
  have hagree := membership_tests_agree (run_of_exec he).reachable ⟨sampleKey 1, 11⟩ 13
  exact ⟨es, s, session, he, hexpiring, hopen, hagree.1 session hopen⟩

end FrostTools.Frostd.Server
