import FrostTools.Dkg.Plan

namespace FrostTools.Dkg
open Client Session Frostd DKGSessionState HTTPComms

variable {S : Snow} {I R1 R2 : Type*} {D : Setup I R1 R2} {self : PublicKey}

def Setup.record (D : Setup I R1 R2) (app : AppState) : Option Frostd.Session :=
  app.sessions.sessions.lookup D.sessionId

/-- The record is that of the session, and its creator may close it. -/
def Setup.Serves (D : Setup I R1 R2) (app : AppState) (session : Frostd.Session) : Prop :=
  session.metadata = (D.members, D.creator, 1) ∧
    D.sessionId ∈ SessionState.listed app.sessions.sessionsByPubkey D.creator

section Requests

variable {now : ℕ} {app : AppState} {session : Frostd.Session}

theorem Setup.Serves.member (h : D.Serves app session) {pubkey : PublicKey}
    (hmem : pubkey ∈ D.members) : session.Member pubkey := by
  refine .inl ?_
  rw [(Prod.mk.inj h.1).1]
  exact hmem

theorem Setup.Serves.coordinator (h : D.Serves app session) :
    session.coordinatorPubkey = D.creator := (Prod.mk.inj (Prod.mk.inj h.1).2).1

theorem record_send {recipient : PublicKey} {msg : Bytes}
    (h : (send now app (D.user self) ⟨D.sessionId, [recipient], msg⟩).1 = .ok ()) :
    ∃ session session', D.record app = some session ∧
      D.record (send now app (D.user self) ⟨D.sessionId, [recipient], msg⟩).2 = some session' ∧
      session'.metadata = session.metadata ∧
      ∀ pubkey, session'.messages (.participant pubkey) = session.messages (.participant pubkey) ++
        if pubkey = recipient then [⟨self, msg⟩] else [] := by
  obtain ⟨-, session, hsession, -⟩ := send_ok_iff.mp h
  let args : Api.SendArgs := ⟨D.sessionId, [recipient], msg⟩
  refine ⟨session, enqueue (D.user self) args session, hsession, ?_, metadata_enqueue _ args session,
    fun pubkey => ?_⟩
  · rw [Setup.record, send_lookup, h]
    simp only [Response.ofResult, sessionEffect, ↓reduceIte]
    rw [hsession]
    rfl
  · rw [messages_enqueue]
    by_cases hp : pubkey = recipient
    · subst hp
      simp [copies, Setup.user, args]
    · simp [copies, hp, Ne.symm hp, args]

theorem record_receive {msgs : List Msg}
    (h : (receive now app (D.user self) ⟨D.sessionId, false⟩).1 = .ok msgs) :
    ∃ session session', D.record app = some session ∧
      msgs = session.messages (.participant self) ∧
      D.record (receive now app (D.user self) ⟨D.sessionId, false⟩).2 = some session' ∧
      session'.metadata = session.metadata ∧
      ∀ pubkey, session'.messages (.participant pubkey) =
        if pubkey = self then [] else session.messages (.participant pubkey) := by
  obtain ⟨session, hsession, -, hmsgs⟩ := receive_ok_iff.mp h
  have hresolve : resolve session (D.user self).pubkey false = .participant self := by
    simp [resolve, Setup.user]
  rw [hresolve] at hmsgs
  refine ⟨session, (session.drain (.participant self)).2, hsession, hmsgs, ?_,
    Session.metadata_drain _ _, fun pubkey => ?_⟩
  · rw [Setup.record, receive_lookup, h]
    simp only [Response.ofResult, sessionEffect, ↓reduceIte]
    rw [hsession, Option.map_some, hresolve]
  · simp only [Session.messages_drain, SessionParticipant.participant.injEq]

theorem receive_ok_of_serves (now : ℕ) (hsession : D.record app = some session)
    (h : D.Serves app session) (hself : self ∈ D.members) :
    ∃ msgs, (receive now app (D.user self) ⟨D.sessionId, false⟩).1 = .ok msgs :=
  ⟨_, receive_ok_iff.mpr ⟨session, hsession, h.member hself, rfl⟩⟩

theorem closeSession_ok_of_serves (hsession : D.record app = some session)
    (h : D.Serves app session) :
    (closeSession app (D.user D.creator) ⟨D.sessionId⟩).1 = .ok () :=
  closeSession_ok_iff.mpr ⟨h.2, session, hsession, h.coordinator⟩

theorem record_closeSession
    (hserves : ∀ session, D.record app = some session → D.Serves app session) :
    (closeSession app (D.user self) ⟨D.sessionId⟩).2 = app ∨
      D.record app ≠ none ∧ self = D.creator ∧
        (closeSession app (D.user self) ⟨D.sessionId⟩).1 = .ok () ∧
        D.record (closeSession app (D.user self) ⟨D.sessionId⟩).2 = none := by
  cases h : (closeSession app (D.user self) ⟨D.sessionId⟩).1 with
  | error e => exact .inl (closeSession_eq_of_error h)
  | ok _ =>
    obtain ⟨-, session, hsession, hcoordinator⟩ := closeSession_ok_iff.mp h
    refine .inr ⟨?_, ?_, rfl, ?_⟩
    · change D.record app = some session at hsession
      rw [hsession]
      nofun
    · exact ((hserves session hsession).coordinator.symm.trans hcoordinator).symm
    · rw [Setup.record, closeSession_lookup, h]
      simp [Response.ofResult, sessionEffect]

end Requests

namespace Network

def sentBy (s : Network S I R1 R2) (sender : PublicKey) : List (PublicKey × Payload I R1 R2) :=
  (s.history.filter fun letter => letter.sender = sender).map fun letter =>
    (letter.recipient, letter.payload)

def sentTo (s : Network S I R1 R2) (recipient : PublicKey) : List (PublicKey × Payload I R1 R2) :=
  (s.history.filter fun letter => letter.recipient = recipient).map fun letter =>
    (letter.sender, letter.payload)

theorem mem_sentTo_iff {s : Network S I R1 R2} {sender recipient : PublicKey}
    {p : Payload I R1 R2} : (sender, p) ∈ s.sentTo recipient ↔ (recipient, p) ∈ s.sentBy sender := by
  simp only [sentTo, sentBy, List.mem_map, List.mem_filter, decide_eq_true_eq, Prod.mk.injEq]
  constructor
  · rintro ⟨letter, ⟨hmem, rfl⟩, rfl, rfl⟩
    exact ⟨letter, ⟨hmem, rfl⟩, rfl, rfl⟩
  · rintro ⟨letter, ⟨hmem, rfl⟩, rfl, rfl⟩
    exact ⟨letter, ⟨hmem, rfl⟩, rfl, rfl⟩

theorem mem_kinds_sentTo_iff {s : Network S I R1 R2} {sender recipient : PublicKey}
    {k : Payload I Unit Unit} :
    (sender, k) ∈ kinds (s.sentTo recipient) ↔ (recipient, k) ∈ kinds (s.sentBy sender) := by
  simp only [kinds, List.mem_map, Prod.exists, Prod.mk.injEq]
  constructor
  · rintro ⟨_, p, hmem, rfl, rfl⟩
    exact ⟨recipient, p, mem_sentTo_iff.mp hmem, rfl, rfl⟩
  · rintro ⟨_, p, hmem, rfl, rfl⟩
    exact ⟨sender, p, mem_sentTo_iff.mpr hmem, rfl, rfl⟩

end Network

variable [LinearOrder I] [DecidableEq R1] {c : HTTPComms S I R1 R2}

def tagged (msgs : List Msg) : List (PublicKey × Bytes) := msgs.map fun msg => (msg.sender, msg.msg)

def plaintexts (D : Setup I R1 R2) (l : List (PublicKey × Payload I R1 R2)) :
    List (PublicKey × Bytes) :=
  l.map fun e => (e.1, D.codec.encode e.2)

omit [LinearOrder I] in
theorem payload_of_accepts (hcodec : D.codec.Lawful) [DecidableEq I] {identifier : I}
    {pubkey : PublicKey} {p : Payload I R1 R2} {st st' : DKGSessionState I R1 R2}
    (h : Accepts identifier pubkey p st st') :
    st.payload D.codec.decode (D.codec.encode p) = some p := by
  cases h with
  | round1 _ _ _ _ _ =>
    rw [payload, hcodec.round1]
    rfl
  | broadcast _ _ _ _ _ _ _ _ _ _ _ _ =>
    rw [payload, hcodec.broadcast]
    rfl
  | round2 _ _ _ _ _ _ _ =>
    rw [payload, hcodec.round2]
    rfl

/-- A queue that can be decrypted is received without error, or up to a message that
the session state rejects. -/
theorem recvBatch_of_readAll (hcodec : D.codec.Lawful) {msgs : List Msg}
    {pend : List (PublicKey × Payload I R1 R2)} {readers : Map PublicKey (Noise S)}
    (hread : (Noise.channel S).readAll c.cipher.recvNoiseMap (tagged msgs) =
      some (plaintexts D pend, readers))
    (hreach : Reaches (D.identifier self) D.pubkeys c.accepted c.state) :
    (∃ c₁, c.recvBatch D self msgs = (.ok (), c₁) ∧
      c₁.cipher = { c.cipher with recvNoiseMap := readers } ∧ c₁.accepted = c.accepted ++ pend) ∨
    ((∃ e, (c.recvBatch D self msgs).1 = .err (.session e)) ∧
      (c.recvBatch D self msgs).2.accepted <+: c.accepted ++ pend ∧
      ¬∃ st, Reaches (D.identifier self) D.pubkeys (c.accepted ++ pend) st) := by
  -- on the batch: each message is decrypted, and then accepted or the first to be rejected
  induction msgs generalizing c pend with
  | nil =>
    obtain ⟨hplain, hreaders⟩ := Prod.mk.inj (Option.some.inj hread)
    obtain rfl := List.map_eq_nil_iff.mp hplain.symm
    exact .inl ⟨c, rfl, by rw [← hreaders], by rw [List.append_nil]⟩
  | cons msg msgs ih =>
    obtain ⟨m, readers₁, plain, hfrom, hall, hcons⟩ := Channel.readAll_cons_iff.mp hread
    obtain ⟨⟨sender, p⟩, pend, rfl, hhead, rfl⟩ := List.map_eq_cons_iff.mp hcons
    obtain ⟨rfl, rfl⟩ := Prod.mk.inj hhead
    have hdecrypt : c.cipher.decrypt msg =
        (.ok ⟨msg.sender, D.codec.encode p⟩, { c.cipher with recvNoiseMap := readers₁ }) :=
      Cipher.decrypt_ok_iff.mpr ⟨_, readers₁, hfrom, rfl, rfl⟩
    by_cases ha : ∃ st, Accepts (D.identifier self) msg.sender p c.state st
    · obtain ⟨st, ha⟩ := ha
      have hmsg := recvMsg_ok_iff.mpr
        ⟨_, _, p, st, hdecrypt, payload_of_accepts hcodec ha, ha, rfl⟩
      rw [recvBatch, hmsg, List.append_cons c.accepted (msg.sender, p) pend]
      have hsnoc : Reaches (D.identifier self) D.pubkeys (c.accepted ++ [(msg.sender, p)]) st :=
        .snoc hreach ha
      exact ih (c := { c with
        cipher := { c.cipher with recvNoiseMap := readers₁ }
        state := st
        decrypted := c.decrypted ++ [⟨msg.sender, D.codec.encode p⟩]
        accepted := c.accepted ++ [(msg.sender, p)] }) hall hsnoc
    -- the payload is decoded as what was sent, so only the state can refuse it
    · refine .inr ?_
      have herr : ∃ e c₁, c.recvMsg D self msg = (.err (.session e), c₁) := by
        rw [recvMsg, hdecrypt]
        dsimp only
        split
        · next e _ _ => exact ⟨e, _, rfl⟩
        · next message _ hr => exact absurd (congrArg Prod.fst hr) (recv_ne_panic message)
        · next st hr =>
          obtain ⟨q, hq, hacc⟩ := recv_ok_iff.mp hr
          obtain rfl := hcodec.payload_encode hq
          exact absurd ⟨st, hacc⟩ ha
      obtain ⟨e, c₁, hmsg⟩ := herr
      have haccepted := (recvMsg_frame D self c msg).2.2.1
      rw [hmsg] at haccepted
      rw [recvBatch, hmsg]
      refine ⟨⟨e, rfl⟩, ?_, ?_⟩
      · rw [haccepted (Outcome.err_ne_ok _ ())]
        exact List.prefix_append _ _
      · rintro ⟨st', hst'⟩
        rw [List.append_cons c.accepted (msg.sender, p) pend] at hst'
        obtain ⟨st₁, hst₁⟩ := hst'.initial
        obtain ⟨st₀, hr₀, ha₀⟩ := hst₁.of_append
        obtain rfl := hreach.unique hr₀
        exact ha ⟨st₁, ha₀⟩

end FrostTools.Dkg
