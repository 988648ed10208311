import FrostTools.Client.AddressBook
import FrostTools.Client.Serving
import FrostTools.Sessions.List

/-!
# Which sessions `--close-all` closes

The loop ends with the first session that is gone or that the user does not coordinate, and the
sessions behind it stay open.
-/

namespace FrostTools.Sessions
open Api Client Frostd Signing

def Coordinates (s : Server) (pubkey : PublicKey) (id : Uuid) : Prop :=
  ∃ session, s.session id = some session ∧ session.coordinatorPubkey = pubkey

/-- No session of another kind is listed before an open session of the coordinator. -/
def OwnFirst (s : Server) (pubkey : PublicKey) (order : List Uuid) : Prop :=
  order.Pairwise fun id id' => Coordinates s pubkey id' → Coordinates s pubkey id

variable {verify : Verifier} {s s' : Server} {accessToken : Uuid} {pubkey : PublicKey} {id : Uuid}
  {es : List World.Event}

theorem answers_error_iff {r : HttpRequest} {answer : Except ClientError r.Output} {e : Api.Error} :
    r.Answers (.error e) answer ↔ answer = .error (.serverError e) := by
  cases r <;> rfl

section Turn

variable (htoken : s.app.accessTokens.lookup accessToken = some pubkey)
include htoken

theorem served_getSessionInfo_iff {answer : Except ClientError GetSessionInfoOutput} :
    Served verify s (some accessToken) (.getSessionInfo ⟨id⟩) answer s' ↔
      (HttpRequest.getSessionInfo ⟨id⟩).Answers
        (.ofResult .sessionInfo (getSessionInfo s.app ⟨pubkey, accessToken⟩ ⟨id⟩).1) answer ∧
      s' = s := by
  have hserved : Served verify s (some accessToken) (.getSessionInfo ⟨id⟩) answer s' ↔
      (HttpRequest.getSessionInfo ⟨id⟩).Answers
        (handle s.now s.app ⟨pubkey, accessToken⟩ (.getSessionInfo ⟨id⟩)).1 answer ∧
      s' = { s with
        app := (handle s.now s.app ⟨pubkey, accessToken⟩ (.getSessionInfo ⟨id⟩)).2 } :=
    served_iff htoken (fun _ => rfl) (fun _ => rfl)
  have hstate : (handle s.now s.app ⟨pubkey, accessToken⟩ (.getSessionInfo ⟨id⟩)).2 = s.app :=
    getSessionInfo_state ⟨id⟩
  rw [hserved, hstate]
  rfl

theorem served_closeSession_iff {answer : Except ClientError Unit} :
    Served verify s (some accessToken) (.closeSession ⟨id⟩) answer s' ↔
      (HttpRequest.closeSession ⟨id⟩).Answers
        (handle s.now s.app ⟨pubkey, accessToken⟩ (.closeSession ⟨id⟩)).1 answer ∧
      s' = { s with app := (handle s.now s.app ⟨pubkey, accessToken⟩ (.closeSession ⟨id⟩)).2 } :=
  served_iff htoken (fun _ => rfl) (fun _ => rfl)

/-- The information is refused only for a session that is gone. -/
theorem served_getSessionInfo_of_coordinates (hid : id ∈ s.listed pubkey)
    (hcoordinates : Coordinates s pubkey id) {answer : Except ClientError GetSessionInfoOutput}
    (h : Served verify s (some accessToken) (.getSessionInfo ⟨id⟩) answer s') :
    s' = s ∧ ∃ info, answer = .ok info := by
  obtain ⟨hanswer, rfl⟩ := (served_getSessionInfo_iff htoken).mp h
  obtain ⟨session, hsession, -⟩ := hcoordinates
  have hok : (getSessionInfo s'.app ⟨pubkey, accessToken⟩ ⟨id⟩).1 = .ok _ :=
    getSessionInfo_ok_iff.mpr ⟨hid, session, hsession, rfl⟩
  rw [hok] at hanswer
  exact ⟨rfl, _, hanswer⟩

theorem served_listSessions_iff {answer : Except ClientError (List Uuid)} :
    Served verify s (some accessToken) .listSessions answer s' ↔
      HttpRequest.listSessions.Answers (handle s.now s.app ⟨pubkey, accessToken⟩ .listSessions).1
        answer ∧ s' = { s with app := (handle s.now s.app ⟨pubkey, accessToken⟩ .listSessions).2 } :=
  served_iff htoken (fun _ => rfl) (fun _ => rfl)

theorem served_closeSession_of_coordinates (hid : id ∈ s.listed pubkey)
    (hcoordinates : Coordinates s pubkey id) {answer : Except ClientError Unit}
    (h : Served verify s (some accessToken) (.closeSession ⟨id⟩) answer s') :
    answer = .ok () ∧ s'.app.accessTokens = s.app.accessTokens ∧
      (∀ id', s'.session id' = if id' = id then none else s.session id') ∧
      ∀ id', id' ≠ id → (id' ∈ s'.listed pubkey ↔ id' ∈ s.listed pubkey) := by
  obtain ⟨hanswer, rfl⟩ := (served_closeSession_iff htoken).mp h
  have hclose : (closeSession s.app ⟨pubkey, accessToken⟩ ⟨id⟩).1 = .ok () :=
    closeSession_ok_iff.mpr ⟨hid, hcoordinates⟩
  have hdone : (handle s.now s.app ⟨pubkey, accessToken⟩ (.closeSession ⟨id⟩)).1 = .done :=
    handle_closeSession_done_iff.mpr hclose
  rw [hdone] at hanswer
  refine ⟨hanswer, ?_, ?_, ?_⟩
  · show (handle s.now s.app ⟨pubkey, accessToken⟩ (.closeSession ⟨id⟩)).2.accessTokens = _
    rw [handle_accessTokens]
    rfl
  · intro id'
    have heffect : (handle s.now s.app ⟨pubkey, accessToken⟩
        (.closeSession ⟨id⟩)).2.sessions.sessions.lookup id' = _ :=
      handle_lookup (.closeSession ⟨id⟩) id'
    rw [hdone] at heffect
    exact heffect
  · intro id' hne
    have heffect : id' ∈ SessionState.listed
        (handle s.now s.app ⟨pubkey, accessToken⟩ (.closeSession ⟨id⟩)).2.sessions.sessionsByPubkey
        pubkey ↔ _ := handle_listed (.closeSession ⟨id⟩) id' pubkey
    rw [hdone] at heffect
    have hkept : ¬indexRemoved ⟨pubkey, accessToken⟩ id' (.closeSession ⟨id⟩) .done
        (s.app.sessions.sessions.lookup id') pubkey := fun h => hne h.1
    have hadded : ¬indexAdded ⟨pubkey, accessToken⟩ id' (.closeSession ⟨id⟩) .done pubkey := fun h => h
    rw [or_iff_left hadded, and_iff_left hkept] at heffect
    exact heffect

theorem served_closeSession_of_not_coordinates (hcoordinates : ¬Coordinates s pubkey id)
    {answer : Except ClientError Unit}
    (h : Served verify s (some accessToken) (.closeSession ⟨id⟩) answer s') :
    (∃ e, answer = .error e) ∧ s'.app = s.app := by
  obtain ⟨hanswer, rfl⟩ := (served_closeSession_iff htoken).mp h
  have hresponse : (handle s.now s.app ⟨pubkey, accessToken⟩ (.closeSession ⟨id⟩)).1 =
      .ofResult (fun _ => .done) (closeSession s.app ⟨pubkey, accessToken⟩ ⟨id⟩).1 := rfl
  cases hclose : (closeSession s.app ⟨pubkey, accessToken⟩ ⟨id⟩).1 with
  | ok u => exact absurd (closeSession_ok_iff.mp hclose).2 hcoordinates
  | error e =>
    rw [hresponse, hclose] at hanswer
    exact ⟨⟨_, answers_error_iff.mp hanswer⟩, closeSession_eq_of_error hclose⟩

/-- What one turn does: it closes a session of the user, or it ends the loop and changes
nothing. -/
theorem turn_cases (hid : id ∈ s.listed pubkey) {o : Outcome Failure Unit}
    (hends : (listSession true accessToken id).Ends () es o ()) (hserves : Serves verify s es s') :
    (Coordinates s pubkey id ∧ o = .ok () ∧ s'.app.accessTokens = s.app.accessTokens ∧
      (∀ id', s'.session id' = if id' = id then none else s.session id') ∧
      ∀ id', id' ≠ id → (id' ∈ s'.listed pubkey ↔ id' ∈ s.listed pubkey)) ∨
    (¬Coordinates s pubkey id ∧ (∃ e, o = .err e) ∧ s'.app = s.app) := by
  obtain ⟨answer, es₁, rfl, hinfo⟩ := ends_request_bind_iff.mp hends
  obtain ⟨s₁, hserved, hrest⟩ := serves_cons_iff.mp hserves
  obtain ⟨hanswer, rfl⟩ := (served_getSessionInfo_iff htoken).mp hserved
  rcases hinfo with ⟨info, rfl, hclose⟩ | ⟨e, rfl, rfl, rfl, -⟩
  · rw [if_pos rfl] at hclose
    obtain ⟨answer', rfl, -, hresult⟩ := ends_request_iff.mp hclose
    obtain ⟨s₂, hserved', hend⟩ := serves_cons_iff.mp hrest
    obtain rfl := serves_nil_iff.mp hend
    by_cases hcoordinates : Coordinates s₁ pubkey id
    · obtain ⟨rfl, hchange⟩ := served_closeSession_of_coordinates htoken hid hcoordinates hserved'
      rcases hresult with ⟨_, -, rfl⟩ | ⟨e, herr, -⟩
      · exact .inl ⟨hcoordinates, rfl, hchange⟩
      · cases herr
    · obtain ⟨⟨e, rfl⟩, happ⟩ :=
        served_closeSession_of_not_coordinates htoken hcoordinates hserved'
      rcases hresult with ⟨_, hok, -⟩ | ⟨_, -, rfl⟩
      · cases hok
      · exact .inr ⟨hcoordinates, ⟨_, rfl⟩, happ⟩
  · obtain rfl := serves_nil_iff.mp hrest
    refine .inr ⟨?_, ⟨_, rfl⟩, rfl⟩
    intro hcoordinates
    obtain ⟨-, info, hok⟩ := served_getSessionInfo_of_coordinates htoken hid hcoordinates hserved
    cases hok

end Turn

theorem coordinates_congr (h : s'.session id = s.session id) :
    Coordinates s' pubkey id ↔ Coordinates s pubkey id := by
  rw [Coordinates, Coordinates, h]

/-- The sessions of the user that the loop leaves open are those behind one that it cannot close. -/
theorem loop_closes_iff {ids : List Uuid} {o : Outcome Failure Unit}
    (htoken : s.app.accessTokens.lookup accessToken = some pubkey)
    (hids : ∀ id ∈ ids, id ∈ s.listed pubkey) (hnodup : ids.Nodup)
    (hends : (Method.foldM (fun () id => listSession true accessToken id) () ids).Ends () es o ())
    (hserves : Serves verify s es s') :
    ((∀ id ∈ ids, ¬Coordinates s' pubkey id) ↔ OwnFirst s pubkey ids) ∧
      ∀ id, id ∉ ids → s'.session id = s.session id := by
  induction ids generalizing s es with
  | nil =>
    obtain ⟨rfl, -, -⟩ := Method.ends_foldM_nil_iff.mp hends
    obtain rfl := serves_nil_iff.mp hserves
    exact ⟨iff_of_true (fun id hid => absurd hid List.not_mem_nil) List.Pairwise.nil,
      fun _ _ => rfl⟩
  | cons id ids ih =>
    rw [List.nodup_cons] at hnodup
    have hid := hids id List.mem_cons_self
    -- the loop ends at `id`: the sessions behind it stay open, which is fine if none of them is the
    -- user's own
    have hstop : ∀ {t : Server}, ¬Coordinates s pubkey id → t.app = s.app →
        ((∀ id' ∈ id :: ids, ¬Coordinates t pubkey id') ↔ OwnFirst s pubkey (id :: ids)) ∧
          ∀ id', id' ∉ id :: ids → t.session id' = s.session id' := by
      intro t hcoordinates happ
      have hsame : ∀ id', t.session id' = s.session id' := by
        intro id'
        rw [Server.session, happ]
        rfl
      refine ⟨?_, fun id' _ => hsame id'⟩
      rw [OwnFirst, List.pairwise_cons, List.forall_mem_cons]
      simp only [coordinates_congr (hsame _)]
      constructor
      · intro hnone
        have hpairwise : ids.Pairwise fun id₁ id₂ =>
            Coordinates s pubkey id₂ → Coordinates s pubkey id₁ :=
          List.pairwise_of_forall_mem_list fun _ _ id₂ hid₂ h => absurd h (hnone.2 id₂ hid₂)
        exact ⟨fun id' hid' h => absurd h (hnone.2 id' hid'), hpairwise⟩
      · rintro ⟨hfirst, -⟩
        exact ⟨hcoordinates, fun id' hid' h => hcoordinates (hfirst id' hid' h)⟩
    rcases Method.ends_foldM_cons_iff.mp hends with ⟨_, _, es₁, es₂, rfl, hturn, hrest⟩ |
      ⟨e, hturn, -⟩ | ⟨message, hturn, -⟩
    -- `id` was closed, and the loop goes on with a server that differs in `id` only
    · obtain ⟨s₁, hserves₁, hserves₂⟩ := serves_append_iff.mp hserves
      rcases turn_cases htoken hid hturn hserves₁ with
        ⟨hcoordinates, -, htokens, hsessions, hlisted⟩ | ⟨-, ⟨e, herr⟩, -⟩
      · have hne : ∀ id' ∈ ids, id' ≠ id := by
          rintro id' hid' rfl
          exact hnodup.1 hid'
        have hkept : ∀ id' ∈ ids, s₁.session id' = s.session id' := by
          intro id' hid'
          rw [hsessions id', if_neg (hne id' hid')]
        obtain ⟨hiff, hother⟩ := ih (by rwa [htokens])
          (fun id' hid' => (hlisted id' (hne id' hid')).mpr (hids id' (List.mem_cons_of_mem _ hid')))
          hnodup.2 hrest hserves₂
        constructor
        · have hclosed : ¬Coordinates s' pubkey id := by
            rw [coordinates_congr (hother id hnodup.1)]
            rintro ⟨session, hsession, -⟩
            rw [hsessions id, if_pos rfl] at hsession
            cases hsession
          rw [List.forall_mem_cons, and_iff_right hclosed, hiff, OwnFirst, OwnFirst,
            List.pairwise_cons, and_iff_right fun _ _ _ => hcoordinates]
          apply List.Pairwise.iff_of_mem
          intro id₁ id₂ hid₁ hid₂
          rw [coordinates_congr (hkept id₁ hid₁), coordinates_congr (hkept id₂ hid₂)]
        · intro id' hid'
          rw [List.mem_cons, not_or] at hid'
          rw [hother id' hid'.2, hsessions id', if_neg hid'.1]
      · cases herr
    · rcases turn_cases htoken hid hturn hserves with ⟨-, hok, -⟩ | ⟨hcoordinates, -, happ⟩
      · cases hok
      · exact hstop hcoordinates happ
    · rcases turn_cases htoken hid hturn hserves with ⟨-, hok, -⟩ | ⟨-, ⟨e, herr⟩, -⟩
      · cases hok
      · cases herr

theorem served_challenge {accessToken : Option Uuid} {answer : Except ClientError Uuid}
    (h : Served verify s accessToken .challenge answer s') : ∃ challenge, answer = .ok challenge ∧
      s'.app.sessions = s.app.sessions ∧ challenge ∈ s'.app.challenges.keys := by
  cases h with
  | @challenge challenge _ hstep =>
    obtain ⟨-, t, hacts, rfl⟩ := Server.acts_of_step hstep
    cases hacts
    exact ⟨challenge, rfl, rfl, DelayMap.mem_keys_insert.mpr (.inl rfl)⟩
  | unauthorized hr _ => cases hr
  | handled hr _ _ _ => cases hr

theorem loginChallenge_of_verify {args : LoginArgs} (hpubkey : args.pubkey.bytes.length = 32)
    (hsignature : args.signature.length = 64)
    (hverify : verify args.pubkey args.challenge args.signature = true)
    (hchallenge : args.challenge ∈ s.app.challenges.keys) : loginChallenge verify s.app args =
      (.ok (), { s.app with challenges := s.app.challenges.remove args.challenge }) := by
  have hempty : ¬(args.signature = [] ∨ args.pubkey.bytes = []) := by
    rintro (h | h)
    · rw [h] at hsignature
      cases hsignature
    · rw [h] at hpubkey
      cases hpubkey
  simp [loginChallenge, hempty, hpubkey, hsignature, hverify, hchallenge]

theorem served_login {accessToken : Option Uuid} {args : LoginArgs}
    (hpubkey : args.pubkey.bytes.length = 32) (hsignature : args.signature.length = 64)
    (hverify : verify args.pubkey args.challenge args.signature = true)
    (hchallenge : args.challenge ∈ s.app.challenges.keys) {answer : Except ClientError Uuid}
    (h : Served verify s accessToken (.login args) answer s') : ∃ token, answer = .ok token ∧
      s'.app.sessions = s.app.sessions ∧ s'.app.accessTokens.lookup token = some args.pubkey := by
  have haccepted := loginChallenge_of_verify hpubkey hsignature hverify hchallenge
  cases h with
  | @login _ token s₁ _ hfirst hsecond =>
    obtain ⟨-, t₁, hacts₁, rfl⟩ := Server.acts_of_step hfirst
    obtain ⟨-, t₂, hacts₂, rfl⟩ := Server.acts_of_step hsecond
    cases hacts₁
    cases hacts₂
    exact ⟨token, rfl, rfl, (DelayMap.lookup_insert _ _ _ _ _).trans (if_pos rfl)⟩
  | loginFailed hstep =>
    simp only [Server.step, Action.fresh, Server.act] at hstep
    split at hstep
    · cases hstep
    · next heq =>
      rw [heq] at haccepted
      cases haccepted
  | unauthorized hr _ => cases hr
  | handled hr _ _ _ => cases hr

theorem served_listSessions {answer : Except ClientError (List Uuid)}
    (htoken : s.app.accessTokens.lookup accessToken = some pubkey)
    (h : Served verify s (some accessToken) .listSessions answer s') :
    ∃ order : List Uuid, answer = .ok order ∧ order.Nodup ∧ order.toFinset = s.listed pubkey ∧
      s' = s := by
  obtain ⟨hanswer, rfl⟩ := (served_listSessions_iff htoken).mp h
  obtain ⟨order, hnodup, horder, rfl⟩ := hanswer
  exact ⟨order, rfl, hnodup, horder, rfl⟩

/-- A user with a config, whose signatures verify, and who asks for all sessions to be closed. -/
structure ClosesAll (verify : Verifier) {L : Libraries} (sign : Bytes → Uuid → Option Bytes)
    (fs : FileSystem L) (args : Args) (key : CommunicationKey) : Prop where
  config : ∃ config url, Config.read fs args.config = .ok config ∧
    serverUrl config args = .ok url ∧ config.communicationKey = some key
  sign : ∀ challenge, ∃ signature, sign key.privkey challenge = some signature ∧
    signature.length = 64 ∧ verify key.pubkey challenge signature = true
  length_pubkey : key.pubkey.bytes.length = 32
  closeAll : args.closeAll = true

variable {L : Libraries} {sign : Bytes → Uuid → Option Bytes} {fs : FileSystem L} {args : Args}
  {key : CommunicationKey}

theorem ClosesAll.list_eq (h : ClosesAll verify sign fs args key) : list sign fs args = (do
    let challenge ← request none .challenge
    let signature ← Method.lift (.okOr .malformed (sign key.privkey challenge))
    let accessToken ← request none (.login ⟨challenge, key.pubkey, signature⟩)
    let sessionIds ← request (some accessToken) .listSessions
    Method.foldM (fun () id => listSession true accessToken id) () sessionIds) := by
  obtain ⟨config, url, hconfig, hurl, hkey⟩ := h.config
  rw [list, hconfig, ofConfig, Outcome.mapErr, Method.lift_ok_bind, hurl, Method.lift_ok_bind, hkey,
    Outcome.okOr, Method.lift_ok_bind, h.closeAll]

/-- The sessions of a coordinator are all listed, so the loop decides about all of them. -/
theorem closed_iff_of_loop {s₂ : Server} {order : List Uuid} {o : Outcome Failure Unit}
    (hreachable : (Server.system verify).Reachable s)
    (hsessions : s₂.app.sessions = s.app.sessions)
    (htoken : s₂.app.accessTokens.lookup accessToken = some pubkey) (hnodup : order.Nodup)
    (horder : order.toFinset = s₂.listed pubkey)
    (hends : (Method.foldM (fun () id => listSession true accessToken id) () order).Ends () es o ())
    (hserves : Serves verify s₂ es s') :
    (∀ id session, s'.session id = some session → session.coordinatorPubkey ≠ pubkey) ↔
      OwnFirst s pubkey order := by
  have hsame : ∀ id, s₂.session id = s.session id := by
    intro id
    rw [Server.session, hsessions]
    rfl
  have hmem : ∀ id, id ∈ order ↔ id ∈ s₂.listed pubkey := by
    intro id
    rw [← horder, List.mem_toFinset]
  obtain ⟨hiff, hother⟩ :=
    loop_closes_iff htoken (fun id hid => (hmem id).mp hid) hnodup hends hserves
  have hown : OwnFirst s₂ pubkey order ↔ OwnFirst s pubkey order := by
    simp only [OwnFirst, coordinates_congr (hsame _)]
  rw [← hown, ← hiff]
  constructor
  · rintro hclosed id - ⟨session, hsession, hcoordinator⟩
    exact hclosed id session hsession hcoordinator
  · intro hclosed id session hsession hcoordinator
    apply hclosed id _ ⟨session, hsession, hcoordinator⟩
    -- a coordinator is listed for its sessions, so the loop comes to all of them
    by_contra hid
    have hopen : s.session id = some session := by
      rw [← hsame, ← hother id hid, hsession]
    have hlisted := ((Server.consistent_of_reachable hreachable).listed_iff id session hopen
      pubkey).mpr (.inr hcoordinator)
    apply hid
    rw [hmem, Server.listed, hsessions]
    exact hlisted

theorem run_lists (h : ClosesAll verify sign fs args key) {o : Outcome Failure Unit}
    (hends : (list sign fs args).Ends () es o ()) (hserves : Serves verify s es s') :
    ∃ first second token order rest s₂,
      es = first :: second :: ⟨.http (some token) .listSessions, .ok order⟩ :: rest ∧
      order.Nodup ∧ order.toFinset = s₂.listed key.pubkey ∧ s₂.app.sessions = s.app.sessions ∧
      s₂.app.accessTokens.lookup token = some key.pubkey ∧
      (Method.foldM (fun () id => listSession true token id) () order).Ends () rest o () ∧
      Serves verify s₂ rest s' := by
  rw [h.list_eq] at hends
  obtain ⟨answer₁, es₁, rfl, hfirst⟩ := ends_request_bind_iff.mp hends
  obtain ⟨s₁, hserved₁, hserves₁⟩ := serves_cons_iff.mp hserves
  obtain ⟨challenge, rfl, hsessions₁, hchallenge⟩ := served_challenge hserved₁
  -- none of the three requests fails, since the signature verifies
  rcases hfirst with ⟨_, hok, hsecond⟩ | ⟨_, herr, -⟩
  · cases hok
    obtain ⟨signature, hsignature, hlength, hverify⟩ := h.sign challenge
    rw [hsignature, Outcome.okOr, Method.lift_ok_bind] at hsecond
    obtain ⟨answer₂, es₂, rfl, hsecond'⟩ := ends_request_bind_iff.mp hsecond
    obtain ⟨s₂, hserved₂, hserves₂⟩ := serves_cons_iff.mp hserves₁
    obtain ⟨token, rfl, hsessions₂, htoken⟩ :=
      served_login h.length_pubkey hlength hverify hchallenge hserved₂
    rcases hsecond' with ⟨_, hok, hthird⟩ | ⟨_, herr, -⟩
    · cases hok
      obtain ⟨answer₃, es₃, rfl, hthird'⟩ := ends_request_bind_iff.mp hthird
      obtain ⟨s₃, hserved₃, hserves₃⟩ := serves_cons_iff.mp hserves₂
      obtain ⟨order, rfl, hnodup, horder, rfl⟩ := served_listSessions htoken hserved₃
      rcases hthird' with ⟨_, hok, hloop⟩ | ⟨_, herr, -⟩
      · cases hok
        exact ⟨_, _, token, order, es₃, _, rfl, hnodup, horder, hsessions₂.trans hsessions₁, htoken,
          hloop, hserves₃⟩
      · cases herr
    · cases herr
  · cases herr

/-- `--close-all` leaves no session of the user open exactly when the server lists none of another
kind before the last one of them: the loop ends with an error at the first session that is gone or
that has another coordinator. -/
theorem close_all_iff (hreachable : (Server.system verify).Reachable s)
    (h : ClosesAll verify sign fs args key) {o : Outcome Failure Unit}
    (hends : (list sign fs args).Ends () es o ()) (hserves : Serves verify s es s') :
    ∃ first second token order rest,
      es = first :: second :: ⟨.http (some token) .listSessions, .ok order⟩ :: rest ∧
      order.Nodup ∧ order.toFinset = s.listed key.pubkey ∧
      ((∀ id session, s'.session id = some session → session.coordinatorPubkey ≠ key.pubkey) ↔
        OwnFirst s key.pubkey order) := by
  obtain ⟨first, second, token, order, rest, s₂, rfl, hnodup, horder, hsessions, htoken, hloop,
    hrest⟩ := run_lists h hends hserves
  refine ⟨first, second, token, order, rest, rfl, hnodup, ?_,
    closed_iff_of_loop hreachable hsessions htoken hnodup horder hloop hrest⟩
  rw [horder, Server.listed, Server.listed, hsessions]

theorem exists_answer_getSessionInfo (id : Uuid) (response : Except Api.Error GetSessionInfoOutput) :
    ∃ answer, (HttpRequest.getSessionInfo ⟨id⟩).Answers (.ofResult .sessionInfo response) answer := by
  cases response with
  | ok info => exact ⟨.ok info, rfl⟩
  | error e => exact ⟨_, answers_error_iff.mpr rfl⟩

theorem exists_answer_closeSession (id : Uuid) (response : Except Api.Error Unit) :
    ∃ answer, (HttpRequest.closeSession ⟨id⟩).Answers (.ofResult (fun _ => .done) response) answer := by
  cases response with
  | ok _ => exact ⟨.ok (), rfl⟩
  | error e => exact ⟨_, answers_error_iff.mpr rfl⟩

theorem exists_turn (verify : Verifier) (htoken : s.app.accessTokens.lookup accessToken = some pubkey) (id : Uuid) :
    ∃ es o s', (listSession true accessToken id).Ends () es o () ∧ Serves verify s es s' ∧
      s'.app.accessTokens = s.app.accessTokens := by
  obtain ⟨answer, hanswer⟩ := exists_answer_getSessionInfo id
    (getSessionInfo s.app ⟨pubkey, accessToken⟩ ⟨id⟩).1
  have hinfo : Served verify s (some accessToken) (.getSessionInfo ⟨id⟩) answer s :=
    (served_getSessionInfo_iff htoken).mpr ⟨hanswer, rfl⟩
  cases answer with
  | error e =>
    exact ⟨_, _, s, ends_request_bind_iff.mpr ⟨_, [], rfl, .inr ⟨e, rfl, rfl, rfl, rfl⟩⟩,
      .cons hinfo (.nil s), rfl⟩
  | ok info =>
    obtain ⟨answer', hanswer'⟩ := exists_answer_closeSession id
      (closeSession s.app ⟨pubkey, accessToken⟩ ⟨id⟩).1
    have hclose : Served verify s (some accessToken) (.closeSession ⟨id⟩) answer' _ :=
      (served_closeSession_iff htoken).mpr ⟨hanswer', rfl⟩
    have htokens : (handle s.now s.app ⟨pubkey, accessToken⟩ (.closeSession ⟨id⟩)).2.accessTokens =
        s.app.accessTokens := by
      rw [handle_accessTokens]
      rfl
    cases answer' with
    | error e =>
      exact ⟨_, _, _, ends_request_bind_iff.mpr ⟨_, _, rfl, .inl ⟨info, rfl,
        ends_request_iff.mpr ⟨_, rfl, rfl, .inr ⟨e, rfl, rfl⟩⟩⟩⟩,
        .cons hinfo (.cons hclose (.nil _)), htokens⟩
    | ok _ =>
      exact ⟨_, _, _, ends_request_bind_iff.mpr ⟨_, _, rfl, .inl ⟨info, rfl,
        ends_request_iff.mpr ⟨_, rfl, rfl, .inl ⟨(), rfl, rfl⟩⟩⟩⟩,
        .cons hinfo (.cons hclose (.nil _)), htokens⟩

theorem exists_loop (verify : Verifier) (htoken : s.app.accessTokens.lookup accessToken = some pubkey)
    (ids : List Uuid) : ∃ es o s',
      (Method.foldM (fun () id => listSession true accessToken id) () ids).Ends () es o () ∧
        Serves verify s es s' := by
  induction ids generalizing s with
  | nil => exact ⟨[], .ok (), s, Method.ends_foldM_nil_iff.mpr ⟨rfl, rfl, rfl⟩, .nil s⟩
  | cons id ids ih =>
    obtain ⟨es₁, o, s₁, hturn, hserves, htokens⟩ := exists_turn verify htoken id
    cases o with
    | ok _ =>
      obtain ⟨es₂, o, s₂, hloop, hserves'⟩ := ih (s := s₁) (by rwa [htokens])
      exact ⟨es₁ ++ es₂, o, s₂,
        Method.ends_foldM_cons_iff.mpr (.inl ⟨(), (), es₁, es₂, rfl, hturn, hloop⟩),
        hserves.append hserves'⟩
    | err e =>
      exact ⟨es₁, .err e, s₁, Method.ends_foldM_cons_iff.mpr (.inr (.inl ⟨e, hturn, rfl⟩)), hserves⟩
    | panic message =>
      exact ⟨es₁, .panic message, s₁,
        Method.ends_foldM_cons_iff.mpr (.inr (.inr ⟨message, hturn, rfl⟩)), hserves⟩

theorem exists_served_challenge (verify : Verifier) (accessToken : Option Uuid) {challenge : Uuid}
    (hfresh : challenge ∉ s.used) : ∃ s', Served verify s accessToken .challenge (.ok challenge) s' ∧
      s'.used = insert challenge s.used := by
  have hstep : s.step verify (.challenge challenge) = some (.uuid challenge, { s with
      app := (Frostd.challenge s.now s.app challenge).2, used := insert challenge s.used }) := by
    simp [Server.step, Action.fresh, Server.act, hfresh, Frostd.challenge, Response.ofResult]
  exact ⟨_, .challenge hstep, rfl⟩

theorem exists_served_login (accessToken : Option Uuid) {args : LoginArgs} {token : Uuid}
    (hpubkey : args.pubkey.bytes.length = 32) (hsignature : args.signature.length = 64)
    (hverify : verify args.pubkey args.challenge args.signature = true)
    (hchallenge : args.challenge ∈ s.app.challenges.keys) (hfresh : token ∉ s.used) :
    ∃ s', Served verify s accessToken (.login args) (.ok token) s' := by
  have haccepted := loginChallenge_of_verify hpubkey hsignature hverify hchallenge
  let s₁ : Server := { s with
    app := { s.app with challenges := s.app.challenges.remove args.challenge }
    pendingLogins := args :: s.pendingLogins }
  have hchecked : s.step verify (.loginChallenge args) = some (.done, s₁) := by
    simp [s₁, Server.step, Action.fresh, Server.act, haccepted]
  have hissued : s₁.step verify (.loginToken args token) = some (.uuid token, { s with
      app := (loginToken s.now s₁.app args token).2, used := insert token s.used }) := by
    simp [s₁, Server.step, Action.fresh, Server.act, hfresh, loginToken, Response.ofResult]
  exact ⟨_, .login hchecked hissued⟩

theorem exists_run (h : ClosesAll verify sign fs args key) {challenge token : Uuid}
    (hchallenge : challenge ∉ s.used) (htoken : token ∉ insert challenge s.used)
    {order : List Uuid} (hnodup : order.Nodup) (horder : order.toFinset = s.listed key.pubkey) :
    ∃ first second rest o s', (list sign fs args).Ends ()
        (first :: second :: ⟨.http (some token) .listSessions, .ok order⟩ :: rest) o () ∧
      Serves verify s
        (first :: second :: ⟨.http (some token) .listSessions, .ok order⟩ :: rest) s' := by
  obtain ⟨signature, hsign, hlength, hverify⟩ := h.sign challenge
  obtain ⟨s₁, hserved₁, hused⟩ := exists_served_challenge verify none hchallenge
  obtain ⟨_, heq, hsessions₁, hkeys⟩ := served_challenge hserved₁
  cases heq
  have hlogin : ∃ s₂, Served verify s₁ none (.login ⟨challenge, key.pubkey, signature⟩)
      (.ok token) s₂ :=
    exists_served_login none h.length_pubkey hlength hverify hkeys (by rwa [hused])
  obtain ⟨s₂, hserved₂⟩ := hlogin
  obtain ⟨_, heq, hsessions₂, hvalid⟩ :=
    served_login h.length_pubkey hlength hverify hkeys hserved₂
  cases heq
  have hlisted : order.toFinset = s₂.listed key.pubkey := by
    rw [horder, Server.listed, Server.listed, hsessions₂, hsessions₁]
  have hserved₃ : Served verify s₂ (some token) .listSessions (.ok order) s₂ :=
    (served_listSessions_iff hvalid).mpr ⟨⟨order, hnodup, hlisted, rfl⟩, rfl⟩
  obtain ⟨rest, o, s', hloop, hserves⟩ := exists_loop verify hvalid order
  refine ⟨⟨.http none .challenge, .ok challenge⟩,
    ⟨.http none (.login ⟨challenge, key.pubkey, signature⟩), .ok token⟩, rest, o, s', ?_,
    .cons hserved₁ (.cons hserved₂ (.cons hserved₃ hserves))⟩
  rw [h.list_eq]
  refine ends_request_bind_iff.mpr ⟨_, _, rfl, .inl ⟨challenge, rfl, ?_⟩⟩
  rw [hsign, Outcome.okOr, Method.lift_ok_bind]
  refine ends_request_bind_iff.mpr ⟨_, _, rfl, .inl ⟨token, rfl, ?_⟩⟩
  exact ends_request_bind_iff.mpr ⟨_, _, rfl, .inl ⟨order, rfl, hloop⟩⟩

/-- Key 1 participates in session 12 and coordinates session 13. -/
def mixedSessions : List Action :=
  Server.loginActions (Server.sampleKey 1) 10 11 1 ++
    Server.loginActions (Server.sampleKey 2) 20 21 1 ++
    [.request ⟨Server.sampleKey 2, 21⟩ (.createNewSession ⟨[Server.sampleKey 1], 1⟩ 12),
      .request ⟨Server.sampleKey 1, 11⟩ (.createNewSession ⟨[Server.sampleKey 2], 1⟩ 13)]

def sampleUser : CommunicationKey := ⟨[], Server.sampleKey 1⟩

def sampleUserFiles : FileSystem sampleLibraries :=
  Map.insert (∅ : Map String Config) "a" { Config.default with communicationKey := some sampleUser }

def sampleSign (_ : Bytes) (_ : Uuid) : Option Bytes := some (List.replicate 64 0)

def sampleArgs : Args := ⟨some "a", none, some "localhost", true⟩

theorem closesAll_sample :
    ClosesAll Server.acceptAll sampleSign sampleUserFiles sampleArgs sampleUser where
  config := ⟨{ Config.default with path := some "a", communicationKey := some sampleUser },
    "localhost", rfl, rfl, rfl⟩
  sign _ := ⟨List.replicate 64 0, rfl, rfl, rfl⟩
  length_pubkey := rfl
  closeAll := rfl

theorem exec_mixedSessions : ∃ es s, Server.exec Server.acceptAll Server.new mixedSessions =
      some (es, s) ∧ s.used = {10, 11, 20, 21, 12, 13} ∧
    s.listed (Server.sampleKey 1) = {12, 13} ∧
    ¬Coordinates s (Server.sampleKey 1) 12 ∧ Coordinates s (Server.sampleKey 1) 13 := by
  have hrun : ((Server.exec Server.acceptAll Server.new mixedSessions).map fun r =>
      (r.2.used, r.2.listed (Server.sampleKey 1), (r.2.session 12).map Session.coordinatorPubkey,
        (r.2.session 13).map Session.coordinatorPubkey)) =
      some ({10, 11, 20, 21, 12, 13}, {12, 13}, some (Server.sampleKey 2),
        some (Server.sampleKey 1)) := by decide
  obtain ⟨⟨es, s⟩, hexec, heq⟩ := Option.map_eq_some_iff.mp hrun
  simp only [Prod.mk.injEq] at heq
  obtain ⟨hused, hlisted, htwelve, hthirteen⟩ := heq
  refine ⟨es, s, hexec, hused, hlisted, ?_, ?_⟩
  · rintro ⟨session, hsession, hcoordinator⟩
    rw [hsession, Option.map_some, hcoordinator] at htwelve
    exact absurd htwelve (by decide)
  · obtain ⟨session, hsession, hcoordinator⟩ := Option.map_eq_some_iff.mp hthirteen
    exact ⟨session, hsession, hcoordinator⟩

theorem sample_run (order : List Uuid) (hnodup : order.Nodup) (horder : order.toFinset = {12, 13}) :
    ∃ s es o s', (Server.system Server.acceptAll).Reachable s ∧
      (list sampleSign sampleUserFiles sampleArgs).Ends () es o () ∧
      Serves Server.acceptAll s es s' ∧
      (∃ first second token rest,
        es = first :: second :: ⟨.http (some token) .listSessions, .ok order⟩ :: rest) ∧
      ¬Coordinates s (Server.sampleKey 1) 12 ∧ Coordinates s (Server.sampleKey 1) 13 := by
  obtain ⟨es, s, hexec, hused, hlisted, htwelve, hthirteen⟩ := exec_mixedSessions
  have hfresh : (40 : Uuid) ∉ s.used ∧ (41 : Uuid) ∉ insert 40 s.used := by
    rw [hused]
    decide
  obtain ⟨first, second, rest, o, s', hends, hserves⟩ := exists_run closesAll_sample hfresh.1
    hfresh.2 hnodup (horder.trans hlisted.symm)
  exact ⟨s, _, o, s', (Server.run_of_exec hexec).reachable, hends, hserves,
    ⟨first, second, 41, rest, rfl⟩, htwelve, hthirteen⟩

theorem listed_order_unique {first second first' second' : World.Event} {token token' : Uuid}
    {order order' : List Uuid} {rest rest' : List World.Event}
    (h : first :: second :: ⟨.http (some token) .listSessions, .ok order⟩ :: rest =
      first' :: second' :: ⟨.http (some token') .listSessions, .ok order'⟩ :: rest') :
    order = order' := by
  have hthird := (List.cons.inj (List.cons.inj (List.cons.inj h).2).2).1
  cases hthird
  rfl

/-- With the user's own session listed first it is closed. -/
theorem close_all_iff_sample : ∃ s s' : Server, (Server.system Server.acceptAll).Reachable s ∧
    Coordinates s (Server.sampleKey 1) 13 ∧
    ∀ id session, s'.session id = some session →
      session.coordinatorPubkey ≠ Server.sampleKey 1 := by
  obtain ⟨s, es, o, s', hreachable, hends, hserves, ⟨_, _, _, _, hes⟩, htwelve, hthirteen⟩ :=
    sample_run [13, 12] (by decide) (by decide)
  obtain ⟨_, _, _, order, _, hes', -, -, hiff⟩ :=
    close_all_iff hreachable closesAll_sample hends hserves
  rw [hes] at hes'
  obtain rfl := listed_order_unique hes'
  refine ⟨s, s', hreachable, hthirteen, hiff.mpr ?_⟩
  rw [OwnFirst, List.pairwise_pair]
  exact fun _ => hthirteen

/-- A session in which the user only participates stops the loop, and the session behind it stays
open. -/
theorem close_all_leaves_session : ∃ (s : Server) (es : List World.Event)
    (o : Outcome Failure Unit) (s' : Server) (session : Session),
    (Server.system Server.acceptAll).Reachable s ∧
    (list sampleSign sampleUserFiles sampleArgs).Ends () es o () ∧
    Serves Server.acceptAll s es s' ∧
    (∃ id, s'.session id = some session ∧ session.coordinatorPubkey = Server.sampleKey 1) := by
  obtain ⟨s, es, o, s', hreachable, hends, hserves, ⟨_, _, _, _, hes⟩, htwelve, hthirteen⟩ :=
    sample_run [12, 13] (by decide) (by decide)
  obtain ⟨_, _, _, order, _, _, hes', hnodup, horder, hsessions, htoken, hloop, hrest⟩ :=
    run_lists closesAll_sample hends hserves
  have hstopped : ¬OwnFirst s (Server.sampleKey 1) [12, 13] := by
    rw [OwnFirst, List.pairwise_pair]
    exact fun h => htwelve (h hthirteen)
  rw [hes] at hes'
  obtain rfl := listed_order_unique hes'
  have hopen := mt (closed_iff_of_loop hreachable hsessions htoken hnodup horder hloop hrest).mp
    hstopped
  push Not at hopen
  obtain ⟨id, session, hsession, hcoordinator⟩ := hopen
  exact ⟨s, es, o, s', session, hreachable, hends, hserves, id, hsession, hcoordinator⟩

end FrostTools.Sessions
