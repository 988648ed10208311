import FrostTools.Lib.Role
import FrostTools.Signing.Setup

namespace FrostTools.Client
open Api

theorem Cipher.exists_new {S : Snow} {privateKey : PublicKey} {peers : List PublicKey}
    (h : ∀ p ∈ peers, ∃ sendNoise recvNoise, S.buildInitiator privateKey p = some sendNoise ∧
      S.buildResponder privateKey p = some recvNoise) :
    ∃ cipher : Cipher S, Cipher.new privateKey peers = some cipher := by
  induction peers using List.reverseRecOn with
  | nil => exact ⟨_, rfl⟩
  | append_singleton peers p ih =>
    obtain ⟨cipher, hcipher⟩ := ih fun p hp => h p (List.mem_append_left _ hp)
    obtain ⟨sendNoise, recvNoise, hs, hr⟩ := h p (List.mem_append_right _ (List.mem_singleton_self p))
    exact ⟨_, new_append_singleton.mpr
      ⟨cipher, hcipher, addPeer_eq_some_iff.mpr ⟨sendNoise, recvNoise, hs, hr, rfl⟩⟩⟩

end FrostTools.Client

namespace FrostTools.Signing.Http
open Api Client Setup

variable {C : Ciphersuite}

/-- What the parties of a session write to each other and to the server. -/
structure Script (D : Setup C) (S : Snow) (verify : Frostd.Verifier) where
  /-- The reply to a challenge. -/
  reply : D.Party → Uuid → Bytes
  up : (p : D.Signer) → (Noise.channel S).Lane 2 (D.uplink p)
  down : (p : D.Signer) → (Noise.channel S).Lane 1 D.downlink
  /-- The order in which the coordinator sends the packages. -/
  order : List D.Signer
  pubkey_length : ∀ i, (D.pubkey i).bytes.length = 32
  sign : ∀ i c, D.lib.sign (D.pubkey i) c = some (reply i c)
  reply_length : ∀ i c, (reply i c).length = 64
  reply_verifies : ∀ i c, verify (D.pubkey i) c (reply i c) = true
  up_writer : ∀ p : D.Signer, (S.buildInitiator p D.coordinator).map Noise.new = some ((up p).writer 0)
  up_reader : ∀ p : D.Signer, (S.buildResponder D.coordinator p).map Noise.new = some ((up p).reader 0)
  up_fits : ∀ p : D.Signer, ∀ k < 2, ((up p).sent k).length ≤ maxMsgSize
  down_writer : ∀ p : D.Signer,
    (S.buildInitiator D.coordinator p).map Noise.new = some ((down p).writer 0)
  down_reader : ∀ p : D.Signer,
    (S.buildResponder p D.coordinator).map Noise.new = some ((down p).reader 0)
  down_fits : ∀ p : D.Signer, ∀ k < 1, ((down p).sent k).length ≤ maxMsgSize
  order_keys : order.map Subtype.val = D.lib.pubkeysKeys D.signers

variable {D : Setup C} {S : Snow} {verify : Frostd.Verifier}

/-- The lane between two connected clients. -/
theorem Setup.Carries.exists_lane {Matched : S.HandshakeState → S.HandshakeState → Prop}
    {Synced : S.TransportState → S.TransportState → Prop} (hS : S.InOrder Matched Synced)
    {sender recipient : PublicKey} {n : ℕ} {messages : ℕ → Bytes}
    (h : Carries (S := S) sender recipient n messages) :
    ∃ lane : (Noise.channel S).Lane n messages,
      (S.buildInitiator sender recipient).map Noise.new = some (lane.writer 0) ∧
      (S.buildResponder recipient sender).map Noise.new = some (lane.reader 0) ∧
      ∀ k < n, (lane.sent k).length ≤ maxMsgSize := by
  obtain ⟨noise, noise', hbuild, hbuild', hcarries⟩ := h
  obtain ⟨lane, hwriter, hreader, hfits⟩ := Channel.InOrder.exists_lane (Noise.channel_inOrder hS)
    hcarries (.handshake (hS.build hbuild hbuild'))
  exact ⟨lane, by rw [hbuild, hwriter]; rfl, by rw [hbuild', hreader]; rfl, hfits⟩

theorem exists_script {Matched : S.HandshakeState → S.HandshakeState → Prop}
    {Synced : S.TransportState → S.TransportState → Prop} (hS : S.InOrder Matched Synced)
    (hlawful : D.Lawful) (hgenuine : D.Genuine verify) (hconnected : D.Connected S) :
    Nonempty (Script D S verify) := by
  have hup := fun p : D.Signer => (hconnected p p.2).1.exists_lane hS
  have hdown := fun p : D.Signer => (hconnected p p.2).2.exists_lane hS
  have hreply := fun i => (hgenuine i).2
  choose up hwriter hreader hfits using hup
  choose down hwriter' hreader' hfits' using hdown
  choose reply hsign hlength hverify using hreply
  have hkeys := hlawful.pubkeysKeys.2
  refine ⟨⟨reply, up, down, (D.lib.pubkeysKeys D.signers).attachWith _ fun p => (hkeys p).mp,
    fun i => (hgenuine i).1, hsign, hlength, hverify, hwriter, hreader, hfits, hwriter', hreader',
    hfits', List.attachWith_map_subtype_val _⟩⟩

theorem Script.mem_order (X : Script D S verify) (hlawful : D.Lawful) (p : D.Signer) : p ∈ X.order := by
  have hp := (hlawful.pubkeysKeys.2 p).mpr p.2
  rw [← X.order_keys, List.mem_map] at hp
  obtain ⟨q, hq, heq⟩ := hp
  rwa [← Subtype.ext heq]

theorem Script.nodup_order (X : Script D S verify) (hlawful : D.Lawful) : X.order.Nodup := by
  have hnodup := hlawful.pubkeysKeys.1
  rw [← X.order_keys] at hnodup
  exact hnodup.of_map

inductive Coordinator.Phase (σ : Type) where
  | start
  | challenged (c : Uuid)
  | loggedIn (t : Uuid)
  | receiving (t : Uuid) (round : ℕ) (got : List σ)
  | sending (t : Uuid) (p : σ) (left : List σ)
  | closing (t : Uuid)
  | leaving (t : Uuid)
  | finished

def Coordinator.Phase.send {σ : Type} (t : Uuid) : List σ → Coordinator.Phase σ
  | [] => .receiving t 1 []
  | p :: left => .sending t p left

namespace Script

variable (X : Script D S verify) (sid : Uuid)

def letter (round : ℕ) (p : D.Signer) : Msg := ⟨p, (X.up p).sent round⟩

def received (t : Uuid) (round : ℕ) (got : List D.Signer) : Coordinator.Phase D.Signer :=
  if got.length = D.signers.len then
    if round = 0 then .send t X.order else .closing t
  else .receiving t round got

def coordinatorRole : Role World (Coordinator.Phase D.Signer) where
  next
    | .start => some ⟨.http none .challenge, fun answer φ => ∃ c, answer = .ok c ∧ φ = .challenged c⟩
    | .challenged c => some ⟨.http none (.login ⟨c, D.coordinator, X.reply none c⟩), fun answer φ =>
        ∃ t, answer = .ok t ∧ φ = .loggedIn t⟩
    | .loggedIn t => some ⟨.http (some t) (.createNewSession
        ⟨D.lib.signersKeys D.signers, UInt8.ofNat D.numMessages⟩), fun answer φ =>
        answer = .ok sid ∧ φ = .receiving t 0 []⟩
    | .receiving t round got => some ⟨.http (some t) (.receive ⟨sid, true⟩), fun answer φ =>
        ∃ queue : List D.Signer, answer = .ok (queue.map (X.letter round)) ∧ (got ++ queue).Nodup ∧
          φ = X.received t round (got ++ queue)⟩
    | .sending t p left => some ⟨.http (some t) (.send ⟨sid, [p], (X.down p).sent 0⟩), fun answer φ =>
        answer = .ok () ∧ φ = .send t left⟩
    | .closing t => some ⟨.http (some t) (.closeSession ⟨sid⟩), fun answer φ =>
        answer = .ok () ∧ φ = .leaving t⟩
    | .leaving t => some ⟨.http (some t) .logout, fun answer φ => answer = .ok () ∧ φ = .finished⟩
    | .finished => none

end Script

inductive Participant.Phase (P : Type) where
  | start
  | challenged (c : Uuid)
  | listing (t : Uuid)
  | inquiring (t : Uuid)
  | committing (t : Uuid)
  | waiting (t : Uuid)
  | asking (t : Uuid) (package : P) (left : List P)
  | confirming (t : Uuid) (left : List P)
  | sharing (t : Uuid)
  | leaving (t : Uuid)
  | finished
  /-- The session did not exist when the participant looked for it. -/
  | failed (t : Uuid)

def Participant.Phase.ask {P : Type} (t : Uuid) : List P → Participant.Phase P
  | [] => .sharing t
  | package :: left => .asking t package left

namespace Script

variable (X : Script D S verify) (sid : Uuid) (p : D.Signer)

def participantRole : Role World (Participant.Phase C.Package) where
  next
    | .start => some ⟨.http none .challenge, fun answer φ => ∃ c, answer = .ok c ∧ φ = .challenged c⟩
    | .challenged c => some ⟨.http none (.login ⟨c, p, X.reply (some p) c⟩), fun answer φ =>
        ∃ t, answer = .ok t ∧ φ = if D.sessionId p = none then .listing t else .inquiring t⟩
    | .listing t => some ⟨.http (some t) .listSessions, fun answer φ =>
        (answer = .ok [sid] ∧ φ = .inquiring t) ∨ (answer = .ok [] ∧ φ = .failed t)⟩
    | .inquiring t => some ⟨.http (some t) (.getSessionInfo ⟨sid⟩), fun answer φ =>
        (answer = .ok ⟨UInt8.ofNat D.numMessages, D.lib.signersKeys D.signers, D.coordinator⟩ ∧
          φ = .committing t) ∨ (answer = .error (.serverError .sessionNotFound) ∧ φ = .failed t)⟩
    | .committing t => some ⟨.http (some t) (.send ⟨sid, [], (X.up p).sent 0⟩), fun answer φ =>
        answer = .ok () ∧ φ = .waiting t⟩
    | .waiting t => some ⟨.http (some t) (.receive ⟨sid, false⟩), fun answer φ =>
        (answer = .ok [] ∧ φ = .waiting t) ∨
          (answer = .ok [⟨D.coordinator, (X.down p).sent 0⟩] ∧ φ = .ask t D.config.signingPackage)⟩
    | .asking t package left => some ⟨.eprintln (question package.message), fun _ φ =>
        φ = .confirming t left⟩
    | .confirming t left => some ⟨.readLine, fun answer φ =>
        ∃ line, answer = some line ∧ trim line = "y" ∧ φ = .ask t left⟩
    | .sharing t => some ⟨.http (some t) (.send ⟨sid, [], (X.up p).sent 1⟩), fun answer φ =>
        answer = .ok () ∧ φ = .leaving t⟩
    | .leaving t => some ⟨.http (some t) .logout, fun answer φ => answer = .ok () ∧ φ = .finished⟩
    | .finished => none
    | .failed _ => none

end Script

inductive Participant.NotFound : Failure → Prop
  | unlisted : NotFound (.eyre "User has no current sessions active. The Coordinator should either specify your username, or manually share the session ID which you can specify with --session_id")
  | unknown : NotFound (.client (.serverError .sessionNotFound))

section Plays

variable {σ Φ α : Type} {R : Role World Φ} {E : Failure → Φ → Prop} {s : σ} {φ : Φ}

theorem plays_request {accessToken : Option Uuid} {r : HttpRequest} {Q : r.Output → σ → Φ → Prop}
    {leads : Except ClientError r.Output → Φ → Prop}
    (hnext : R.next φ = some ⟨.http accessToken r, leads⟩)
    (hok : ∀ output φ', leads (.ok output) φ' → Q output s φ')
    (herror : ∀ e φ', leads (.error e) φ' → E (.client e) φ') :
    Method.Plays (α := no_index r.Output) R E Q (request accessToken r) s φ := by
  apply Method.Plays.bind
  refine Method.Plays.query hnext fun answer φ' hleads => ?_
  cases answer with
  | ok output => exact .pure (hok output φ' hleads)
  | error e => exact .fail (herror e φ' hleads)

theorem plays_readLine {Q : String → σ → Φ → Prop} {leads : Option String → Φ → Prop}
    (hnext : R.next φ = some ⟨.readLine, leads⟩)
    (hleads : ∀ answer φ', leads answer φ' → ∃ line, answer = some line ∧ Q line s φ') :
    Method.Plays R E Q readLine s φ := by
  apply Method.Plays.bind
  refine Method.Plays.query hnext fun answer φ' h => ?_
  obtain ⟨line, rfl, hline⟩ := hleads answer φ' h
  exact .lift rfl hline

theorem plays_login {lib : HttpLibrary C} {accessToken : Option Uuid} {key : PublicKey}
    {reply : Uuid → Bytes} {challenged : Uuid → Φ} {leads : Uuid → Except ClientError Uuid → Φ → Prop}
    {Q : Uuid → σ → Φ → Prop} (hsign : ∀ c, lib.sign key c = some (reply c))
    (hstart : R.next φ = some ⟨.http accessToken .challenge, fun answer φ =>
      ∃ c, answer = .ok c ∧ φ = challenged c⟩)
    (hnext : ∀ c, R.next (challenged c) = some ⟨.http accessToken (.login ⟨c, key, reply c⟩), leads c⟩)
    (hleads : ∀ c answer φ', leads c answer φ' → ∃ t, answer = .ok t ∧ Q t s φ') :
    Method.Plays R E Q (login lib accessToken (some key) (some key)) s φ := by
  apply Method.Plays.bind
  refine plays_request hstart ?_ ?_
  · rintro c _ ⟨_, ⟨⟩, rfl⟩
    apply Method.Plays.bind
    refine .lift rfl ?_
    apply Method.Plays.bind
    refine .lift (Outcome.okOr_eq_ok_iff.mpr (hsign c)) ?_
    apply Method.Plays.bind
    refine .lift rfl (plays_request (hnext c) ?_ ?_)
    · intro t φ' hφ
      obtain ⟨_, ⟨⟩, ht⟩ := hleads c _ φ' hφ
      exact ht
    · intro e φ' hφ
      obtain ⟨_, ⟨⟩, -⟩ := hleads c _ φ' hφ
  · rintro e _ ⟨_, ⟨⟩, -⟩

end Plays

end FrostTools.Signing.Http
