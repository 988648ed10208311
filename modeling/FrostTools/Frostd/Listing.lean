import FrostTools.Frostd.Consistency

/-!
# Listing sessions

`close_session` removes a session from the index entries of its participants
and of its coordinator. The session timeout task only does the former, so a
coordinator outside the participants keeps the id of an expired session.
-/

namespace FrostTools.Frostd.Server
open Api

variable {verify : Verifier} {s s' : Server} {a : Action} {response : Response}

/-- Every id listed for a user is an open session that `get_session_info` describes. -/
def ListingSound (s : Server) : Prop :=
  ∀ user sid, sid ∈ s.listed user.pubkey → ∃ session, s.session sid = some session ∧
    (getSessionInfo s.app user ⟨sid⟩).1 =
      .ok ⟨session.messageCount, session.pubkeys, session.coordinatorPubkey⟩

theorem listingSound_iff_open :
    ListingSound s ↔ ∀ pubkey sid, sid ∈ s.listed pubkey → ∃ session, s.session sid = some session := by
  constructor
  · intro h pubkey sid hmem
    obtain ⟨session, hsession, -⟩ := h ⟨pubkey, 0⟩ sid hmem
    exact ⟨session, hsession⟩
  · intro h user sid hmem
    obtain ⟨session, hsession⟩ := h user.pubkey sid hmem
    exact ⟨session, hsession, getSessionInfo_ok_iff.mpr ⟨hmem, session, hsession, rfl⟩⟩

/-- Every session that the timeout task popped lists its coordinator as a participant. -/
def ExpiredWithCoordinator (es : List Event) : Prop :=
  ∀ sid session, ⟨.popSession sid, .expired session⟩ ∈ es →
    session.coordinatorPubkey ∈ session.pubkeys

theorem ExpiredWithCoordinator.of_append {es es' : List Event}
    (h : ExpiredWithCoordinator (es ++ es')) : ExpiredWithCoordinator es :=
  fun sid session hmem => h sid session (List.mem_append_left es' hmem)

/-- A listed session is open, or its expiry has still to remove it from this entry. -/
def ListedOpen (s : Server) : Prop :=
  ∀ pubkey sid, sid ∈ s.listed pubkey →
    (∃ session, s.session sid = some session) ∨
    ∃ session, s.expiring = some (sid, session) ∧ pubkey ∈ session.pubkeys

theorem session_of_indexAdded {user : User} {sid : Uuid} {r : Request} {pubkey : PublicKey}
    (before : Option Session) (h : indexAdded user sid r response pubkey) :
    ∃ session, sessionEffect user sid r response before = some session := by
  unfold indexAdded at h
  split at h
  · next args id' id => exact ⟨_, if_pos h.1⟩
  · exact h.elim

/-- A request that closes an open session removes it from the entry of every member. -/
theorem indexRemoved_of_closed {user : User} {sid : Uuid} {r : Request} {session : Session}
    {pubkey : PublicKey} (h : sessionEffect user sid r response (some session) = none)
    (huser : ∀ args, r = .closeSession args → response = .done →
      session.coordinatorPubkey = user.pubkey)
    (hmember : session.Member pubkey) :
    indexRemoved user sid r response (some session) pubkey := by
  unfold sessionEffect at h
  split at h
  · split_ifs at h
  · split_ifs at h; cases h
  · split_ifs at h; cases h
  · next args =>
    split_ifs at h with hid
    refine ⟨hid, hmember.imp (fun hp => ⟨session, rfl, hp⟩) fun hc => ?_⟩
    rw [← hc]
    exact huser args rfl rfl
  · cases h

theorem Acts.listedOpen (h : Acts verify s a response s') (hs : s.Consistent)
    (hl : s.ListedOpen)
    (hpop : ∀ sid session, a = .popSession sid → response = .expired session →
      session.coordinatorPubkey ∈ session.pubkeys) : s'.ListedOpen := by
  intro pubkey sid hmem
  rw [h.listed sid pubkey] at hmem
  rw [h.session sid]
  have hacts := h
  cases h with
  | request user r hu =>
    -- an entry that was there and is kept, or one that a new session adds
    obtain ⟨hmem, hkept⟩ | hadd := hmem
    · obtain ⟨session, h0⟩ | hx := hl pubkey sid hmem
      · left
        cases hafter : recordAfter (.request user r) (handle s.now s.app user r).1 sid
          (s.session sid) with
        | some session' => exact ⟨session', rfl⟩
        | none =>
          rw [h0] at hkept hafter
          refine absurd (indexRemoved_of_closed hafter ?_ ?_) hkept
          · rintro args rfl hdone
            rw [hdone] at hacts hafter
            have hid : sid = args.sessionId := by
              by_contra hne
              simp [recordAfter, sessionEffect, hne] at hafter
            obtain ⟨session', h0', hc⟩ := hacts.coordinator_of_close
            rw [← hid, h0] at h0'
            exact Option.some.inj h0' ▸ hc
          · exact (hs.listed_iff sid session h0 pubkey).mp hmem
      · exact .inr hx
    · exact .inl (session_of_indexAdded _ hadd)
  -- by the hypothesis the entry is that of a participant, which the expiry will remove
  | popSession id session hx he =>
    obtain ⟨session', h0⟩ | ⟨_, hx', -⟩ := hl pubkey sid hmem
    · by_cases hid : sid = id
      · subst hid
        obtain rfl : session' = session :=
          Option.some.inj (h0.symm.trans (DelayMap.lookup_of_expired he))
        refine .inr ⟨session', rfl, ?_⟩
        obtain hp | hc := (hs.listed_iff sid session' h0 pubkey).mp hmem
        · exact hp
        · exact hc ▸ hpop sid session' rfl rfl
      · exact .inl ⟨session', by rw [recordAfter, if_neg hid, h0]⟩
    · rw [hx] at hx'
      cases hx'
  | finishExpiry id session hx =>
    obtain h0 | hx' := hl pubkey sid hmem.1
    · exact .inl h0
    · exact absurd hx' hmem.2
  | _ => exact hl pubkey sid hmem

theorem listedOpen_of_run {es : List Event} (h : (system verify).Run es s) :
    ExpiredWithCoordinator es → s.ListedOpen := by
  refine h.invariant (P := fun es s => ExpiredWithCoordinator es → s.ListedOpen) ?_ ?_
  · rintro s rfl - pubkey sid hmem
    simp [listed, new, AppState.new, SessionState.listed] at hmem
  · intro es s e s' hr ih he hes
    obtain ⟨-, t, hacts, rfl⟩ := acts_of_step he
    refine hacts.listedOpen (consistent_of_reachable hr.reachable) (ih hes.of_append) ?_
    intro sid session ha hresp
    refine hes sid session (List.mem_append_right es ?_)
    rw [← ha, ← hresp]
    exact List.mem_singleton_self e

/-- `sid` is no longer open, never comes back, and stays listed for `pubkey`. -/
structure Stranded (s : Server) (sid : Uuid) (pubkey : PublicKey) : Prop where
  used : sid ∈ s.used
  closed : s.session sid = none
  listed : sid ∈ s.listed pubkey
  kept : ∀ session, s.expiring = some (sid, session) → pubkey ∉ session.pubkeys

/-- A request removes from the index only ids of open sessions. -/
theorem Acts.not_indexRemoved {user : User} {r : Request} {sid : Uuid} {pubkey : PublicKey}
    (h : Acts verify s (.request user r) response s') (hclosed : s.session sid = none) :
    ¬indexRemoved user sid r response (s.session sid) pubkey := by
  intro hrem
  unfold indexRemoved at hrem
  split at hrem
  · next args =>
    obtain ⟨session, hsession, -⟩ := h.coordinator_of_close
    rw [← hrem.1, hclosed] at hsession
    cases hsession
  · exact hrem

theorem Acts.stranded {sid : Uuid} {pubkey : PublicKey} (h : Acts verify s a response s')
    (hd : s.Stranded sid pubkey) (hfresh : ∀ id, a.fresh = some id → id ∉ s.used) :
    Stranded { s' with used := a.fresh.elim s'.used (insert · s'.used) } sid pubkey := by
  have hne : a.fresh ≠ some sid := fun hf => hfresh sid hf hd.used
  refine ⟨?_, ?_, ?_, ?_⟩
  · exact h.mem_used hd.used
  · rw [Option.eq_none_iff_forall_ne_some]
    intro session hsession
    obtain ⟨session₀, h0⟩ | hf := h.session_cases hsession
    · rw [hd.closed] at h0
      cases h0
    · exact hne hf
  · refine (h.listed sid pubkey).mpr ?_
    cases a with
    | request user r => exact .inl ⟨hd.listed, h.not_indexRemoved hd.closed⟩
    | finishExpiry => exact ⟨hd.listed, fun ⟨session, hx, hp⟩ => hd.kept session hx hp⟩
    | _ => exact hd.listed
  · intro session hx
    obtain hx | ⟨-, -, h0, -⟩ := h.expiring_cases hx
    · exact hd.kept session hx
    · rw [hd.closed] at h0
      cases h0

/-- A session popped without its coordinator among the participants strands the
id in the coordinator's entry. -/
theorem Acts.stranded_of_pop {sid : Uuid} {session : Session}
    (h : Acts verify s (.popSession sid) (.expired session) s') (hs : s.Consistent)
    (hc : session.coordinatorPubkey ∉ session.pubkeys) :
    s'.Stranded sid session.coordinatorPubkey := by
  have h0 : s.session sid = some session := by
    cases h with
    | popSession _ _ _ he => exact DelayMap.lookup_of_expired he
  refine ⟨?_, ?_, ?_, ?_⟩
  · rw [h.used]
    exact hs.used_of_session sid session h0
  · rw [h.session sid, recordAfter, if_pos rfl]
  · exact (h.listed sid _).mpr ((hs.listed_iff sid session h0 _).mpr (.inr rfl))
  · intro session' hx
    obtain hx | ⟨-, hresp, -, -⟩ := h.expiring_cases hx
    · rw [hs.closed_of_expiring sid session' hx] at h0
      cases h0
    · obtain rfl := Response.expired.inj hresp
      exact hc

theorem stranded_of_run {es : List Event} (h : (system verify).Run es s) :
    ∀ sid session, ⟨.popSession sid, .expired session⟩ ∈ es →
      session.coordinatorPubkey ∉ session.pubkeys →
      s.Stranded sid session.coordinatorPubkey := by
  refine h.invariant (P := fun es s => ∀ sid session, ⟨.popSession sid, .expired session⟩ ∈ es →
    session.coordinatorPubkey ∉ session.pubkeys → s.Stranded sid session.coordinatorPubkey) ?_ ?_
  · intro s _ sid session hmem
    cases hmem
  · intro es s e s' hr ih he sid session hmem hc
    obtain ⟨hfresh, t, hacts, rfl⟩ := acts_of_step he
    obtain hmem | hlast := List.mem_append.mp hmem
    · exact hacts.stranded (ih sid session hmem hc) hfresh
    · obtain rfl := List.mem_singleton.mp hlast
      exact hacts.stranded_of_pop (consistent_of_reachable hr.reachable) hc

/-- Once the timeout task is idle, no dead session is listed if and only if every
session it popped had its coordinator among the participants. -/
theorem listingSound_iff {es : List Event} (h : (system verify).Run es s)
    (hidle : s.expiring = none) : s.ListingSound ↔ ExpiredWithCoordinator es := by
  rw [listingSound_iff_open]
  constructor
  · intro hopen sid session hmem
    by_contra hc
    have hd := stranded_of_run h sid session hmem hc
    obtain ⟨session', hsession⟩ := hopen _ sid hd.listed
    rw [hd.closed] at hsession
    cases hsession
  · intro hes pubkey sid hmem
    obtain hopen | ⟨session, hx, -⟩ := listedOpen_of_run h hes pubkey sid hmem
    · exact hopen
    · rw [hidle] at hx
      cases hx

/-- The owner of key 1 opens a session for `pubkeys`, which then expires. -/
def expiryOf (pubkeys : List PublicKey) : List Action :=
  loginActions (sampleKey 1) 10 11 1 ++
    [.request ⟨sampleKey 1, 11⟩ (.createNewSession ⟨pubkeys, 1⟩ 12),
      .tick sessionTimeout, .popSession 12, .finishExpiry]

theorem listingSound_expiryOf_member : ∃ es s,
    exec acceptAll new (expiryOf [sampleKey 1, sampleKey 2]) = some (es, s) ∧
      (s.ListingSound ↔ ExpiredWithCoordinator es) := by
  have hrun : ((exec acceptAll new (expiryOf [sampleKey 1, sampleKey 2])).map
      fun r => r.2.expiring) = some none := by decide
  obtain ⟨⟨es, s⟩, he, hidle⟩ := Option.map_eq_some_iff.mp hrun
  exact ⟨es, s, he, listingSound_iff (run_of_exec he) hidle⟩

/-- A coordinator who is not a participant is still shown the expired session. -/
theorem not_listingSound_expiryOf : ∃ es s,
    exec acceptAll new (expiryOf [sampleKey 2]) = some (es, s) ∧
      (system acceptAll).Run es s ∧ s.expiring = none ∧ ¬s.ListingSound := by
  have hrun : ((exec acceptAll new (expiryOf [sampleKey 2])).map
      fun r => (r.2.expiring, r.2.session 12, r.2.listed (sampleKey 1))) =
        some (none, none, {12}) := by decide
  obtain ⟨⟨es, s⟩, he, hstate⟩ := Option.map_eq_some_iff.mp hrun
  obtain ⟨hidle, hrest⟩ := Prod.mk.inj hstate
  obtain ⟨hclosed, hlisted⟩ := Prod.mk.inj hrest
  refine ⟨es, s, he, run_of_exec he, hidle, fun hsound => ?_⟩
  obtain ⟨session, hsession, -⟩ := hsound ⟨sampleKey 1, 0⟩ 12 (by rw [hlisted]; decide)
  rw [hclosed] at hsession
  cases hsession

end FrostTools.Frostd.Server
