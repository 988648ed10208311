import FrostTools.Client.Cipher
import FrostTools.Lib.TransitionSystem

/-!
# Users who exchange encrypted messages

Users call their ciphers in any order, on any bytes. The authenticity of the channel is a
condition on the calls: what a user accepts, the sender encrypted with the same nonce.
-/

namespace FrostTools.Client

variable {S : Snow}

/-- One direction of a state: it finishes its handshake with the first message that succeeds,
counts the messages after that, and is left as it is by a message that fails. -/
structure Snow.Counts (S : Snow)
    (handshake : S.HandshakeState → Bytes → Option Bytes × S.HandshakeState)
    (transport : S.TransportState → Bytes → Option Bytes × S.TransportState)
    (nonce : S.TransportState → ℕ) : Prop where
  handshake {h h₁ : S.HandshakeState} {b : Bytes} {r : Option Bytes} :
    S.isHandshakeFinished h = false → handshake h b = (r, h₁) →
    S.isHandshakeFinished h₁ = r.isSome ∧ (r = none → h₁ = h)
  intoTransportMode {h : S.HandshakeState} : S.isHandshakeFinished h = true →
    ∃ t, S.intoTransportMode h = some t ∧ nonce t = 0
  transport_ok {t t₁ : S.TransportState} {b x : Bytes} : transport t b = (some x, t₁) →
    nonce t₁ = nonce t + 1
  transport_fails {t t₁ : S.TransportState} {b : Bytes} : transport t b = (none, t₁) → t₁ = t

structure Snow.Ideal (S : Snow) (Matched : S.HandshakeState → S.HandshakeState → Prop)
    (Synced : S.TransportState → S.TransportState → Prop)
    (sendingNonce receivingNonce : S.TransportState → ℕ) : Prop where
  inOrder : S.InOrder Matched Synced
  buildInitiator {a b : PublicKey} {h : S.HandshakeState} : S.buildInitiator a b = some h →
    S.isHandshakeFinished h = false
  buildResponder {a b : PublicKey} {h : S.HandshakeState} : S.buildResponder a b = some h →
    S.isHandshakeFinished h = false
  sends : S.Counts S.writeHandshake S.writeTransport sendingNonce
  receives : S.Counts S.readHandshake S.readTransport receivingNonce

namespace Noise

inductive Valid : Noise S → Prop
  | handshake {h : S.HandshakeState} : S.isHandshakeFinished h = false → Valid ⟨some h, none⟩
  | transport {t : S.TransportState} : Valid ⟨none, some t⟩

/-- The number of messages before the next one. -/
def position (nonce : S.TransportState → ℕ) (noise : Noise S) : ℕ :=
  match noise.transportState with
  | none => 0
  | some t => nonce t + 1

variable {handshake : S.HandshakeState → Bytes → Option Bytes × S.HandshakeState}
  {transport : S.TransportState → Bytes → Option Bytes × S.TransportState}
  {nonce : S.TransportState → ℕ} {noise : Noise S} {b : Bytes}

/-- A message fails without effect, or takes the state to the next position. -/
theorem message_cases (hS : S.Counts handshake transport nonce) (hv : noise.Valid) :
    message handshake transport noise b = (.err .snowError, noise) ∨
      ∃ x noise', message handshake transport noise b = (.ok x, noise') ∧ noise'.Valid ∧
        noise'.position nonce = noise.position nonce + 1 := by
  cases hv with
  | @handshake h hfinished =>
    obtain ⟨r, h₁, hr⟩ : ∃ r h₁, handshake h b = (r, h₁) := ⟨_, _, rfl⟩
    obtain ⟨hfinished₁, hfails⟩ := hS.handshake hfinished hr
    cases r with
    | none =>
      obtain rfl := hfails rfl
      left
      simp only [message, hr, hfinished, Bool.false_eq_true, ↓reduceIte, Outcome.okOr]
    | some x =>
      obtain ⟨t, ht, hnonce⟩ := hS.intoTransportMode hfinished₁
      refine .inr ⟨x, ⟨none, some t⟩, ?_, .transport, by simp only [position, hnonce]⟩
      rw [Option.isSome_some] at hfinished₁
      simp only [message, hr, hfinished₁, ht, ↓reduceIte, Outcome.okOr]
  | @transport t =>
    obtain ⟨r, t₁, hr⟩ : ∃ r t₁, transport t b = (r, t₁) := ⟨_, _, rfl⟩
    cases r with
    | none =>
      obtain rfl := hS.transport_fails hr
      left
      simp only [message, hr, Outcome.okOr]
    | some x =>
      refine .inr ⟨x, ⟨none, some t₁⟩, ?_, .transport, ?_⟩
      · simp only [message, hr, Outcome.okOr]
      · simp only [position, hS.transport_ok hr]

end Noise

section Calls

variable {Matched : S.HandshakeState → S.HandshakeState → Prop}
  {Synced : S.TransportState → S.TransportState → Prop}
  {sendingNonce receivingNonce : S.TransportState → ℕ} {cipher : Cipher S}

structure Cipher.Valid (cipher : Cipher S) : Prop where
  send {pubkey : PublicKey} {noise : Noise S} :
    cipher.sendNoiseMap.lookup pubkey = some noise → noise.Valid
  recv {pubkey : PublicKey} {noise : Noise S} :
    cipher.recvNoiseMap.lookup pubkey = some noise → noise.Valid

theorem Cipher.valid_new (hS : S.Ideal Matched Synced sendingNonce receivingNonce)
    {privateKey : PublicKey} {peers : List PublicKey} (h : new privateKey peers = some cipher) :
    cipher.Valid where
  send {pubkey noise} hlookup := by
    rw [(lookup_new h pubkey).1] at hlookup
    split_ifs at hlookup
    obtain ⟨handshake, hbuild, rfl⟩ := Option.map_eq_some_iff.mp hlookup
    exact .handshake (hS.buildInitiator hbuild)
  recv {pubkey noise} hlookup := by
    rw [(lookup_new h pubkey).2] at hlookup
    split_ifs at hlookup
    obtain ⟨handshake, hbuild, rfl⟩ := Option.map_eq_some_iff.mp hlookup
    exact .handshake (hS.buildResponder hbuild)

/-- A call that fails leaves the cipher as it is, and is no panic in a Noise state. -/
def Fails (cipher : Cipher S) {α : Type} (result : Outcome CipherError α × Cipher S) : Prop :=
  (∀ a, result.1 ≠ .ok a) ∧ result.1 ≠ .panic "invalid state" ∧ result.2 = cipher

theorem Cipher.encrypt_cases (hS : S.Ideal Matched Synced sendingNonce receivingNonce)
    (hv : cipher.Valid) (recipient : PublicKey) (payload : Bytes) :
    Fails cipher (cipher.encrypt recipient payload) ∨
      ∃ x noise noise', cipher.sendNoiseMap.lookup recipient = some noise ∧
        (Noise.channel S).write noise payload = some (x, noise') ∧ noise'.Valid ∧
        noise'.position sendingNonce = noise.position sendingNonce + 1 ∧
        cipher.encrypt recipient payload = (.ok x,
          { cipher with sendNoiseMap := cipher.sendNoiseMap.insert recipient noise' }) := by
  unfold encrypt
  cases hlookup : cipher.sendNoiseMap.lookup recipient with
  | none => exact .inl ⟨by simp, by simp, rfl⟩
  | some noise =>
    obtain hfails | ⟨x, noise', hok, hv', hp⟩ :=
      Noise.message_cases hS.sends (b := payload) (hv.send hlookup)
    · left
      simp only [Noise.writeMessage, hfails, Map.insert_of_lookup hlookup]
      exact ⟨by simp, by simp, rfl⟩
    · right
      refine ⟨x, noise, noise', rfl, Noise.channel_write_iff.mpr hok, hv', hp, ?_⟩
      simp only [Noise.writeMessage, hok]

theorem Cipher.decrypt_cases (hS : S.Ideal Matched Synced sendingNonce receivingNonce)
    (hv : cipher.Valid) (msg : Msg) :
    Fails cipher (cipher.decrypt msg) ∨
      ∃ m noise noise', cipher.recvNoiseMap.lookup msg.sender = some noise ∧
        (Noise.channel S).read noise msg.msg = some (m, noise') ∧ noise'.Valid ∧
        noise'.position receivingNonce = noise.position receivingNonce + 1 ∧
        cipher.decrypt msg = (.ok ⟨msg.sender, m⟩,
          { cipher with recvNoiseMap := cipher.recvNoiseMap.insert msg.sender noise' }) := by
  unfold decrypt
  cases hlookup : cipher.recvNoiseMap.lookup msg.sender with
  | none => exact .inl ⟨by simp, by simp, rfl⟩
  | some noise =>
    obtain hfails | ⟨m, noise', hok, hv', hp⟩ :=
      Noise.message_cases hS.receives (b := msg.msg) (hv.recv hlookup)
    · left
      simp only [Noise.readMessage, hfails, Map.insert_of_lookup hlookup, Outcome.bind]
      exact ⟨by simp, by simp, rfl⟩
    · right
      refine ⟨m, noise, noise', rfl, Noise.channel_read_iff.mpr hok, hv', hp, ?_⟩
      simp only [Noise.readMessage, hok, Outcome.bind]

theorem Cipher.recipient_ne_invalid_state {recipient : Option PublicKey} {message : String}
    (h : cipher.recipient recipient = .panic message) :
    (.panic message : Outcome CipherError Bytes) ≠ .panic "invalid state" := by
  unfold Cipher.recipient at h
  split at h
  · cases h
  · split at h
    · cases h
    · obtain rfl := Outcome.panic.inj h
      decide

end Calls

structure Written (S : Snow) where
  sender : PublicKey
  recipient : PublicKey
  noise : Option (Noise S)
  payload : Bytes
  ciphertext : Bytes

inductive CipherCall where
  | encrypt (user : PublicKey) (recipient : Option PublicKey) (payload : Bytes)
  | decrypt (user : PublicKey) (msg : Msg)

structure Exchange (S : Snow) where
  cipher : PublicKey → Cipher S
  written : List (Written S)
  /-- The users who decrypted a message, and what they got, oldest first. -/
  accepted : List (PublicKey × Msg)

namespace Exchange

def writtenBy (cipher : Cipher S) (user : PublicKey) (recipient : Option PublicKey)
    (payload : Bytes) : Outcome CipherError Bytes → List (Written S)
  | .ok x =>
    match cipher.recipient recipient with
    | .ok r => [⟨user, r, cipher.sendNoiseMap.lookup r, payload, x⟩]
    | _ => []
  | _ => []

def acceptedBy (user : PublicKey) : Outcome CipherError Msg → List (PublicKey × Msg)
  | .ok plain => [(user, plain)]
  | _ => []

def call (s : Exchange S) : CipherCall → Outcome CipherError Bytes × Exchange S
  | .encrypt user recipient payload =>
    let (r, cipher) := (s.cipher user).encryptTo recipient payload
    (r, ⟨Function.update s.cipher user cipher,
      s.written ++ writtenBy (s.cipher user) user recipient payload r, s.accepted⟩)
  | .decrypt user msg =>
    let (r, cipher) := (s.cipher user).decrypt msg
    (r.bind fun plain => .ok plain.msg,
      ⟨Function.update s.cipher user cipher, s.written, s.accepted ++ acceptedBy user r⟩)

theorem writtenBy_of_ne_ok {cipher : Cipher S} {user : PublicKey} {recipient : Option PublicKey}
    {payload : Bytes} {r : Outcome CipherError Bytes} (h : ∀ x, r ≠ .ok x) :
    writtenBy cipher user recipient payload r = [] := by
  cases r with
  | ok x => exact absurd rfl (h x)
  | _ => rfl

theorem acceptedBy_of_ne_ok {user : PublicKey} {r : Outcome CipherError Msg} (h : ∀ x, r ≠ .ok x) :
    acceptedBy user r = [] := by
  cases r with
  | ok x => exact absurd rfl (h x)
  | _ => rfl

inductive Effect (sendingNonce receivingNonce : S.TransportState → ℕ) (s : Exchange S) :
    CipherCall → Outcome CipherError Bytes × Exchange S → Prop
  | fails {c : CipherCall} {r : Outcome CipherError Bytes} : (∀ x, r ≠ .ok x) →
    r ≠ .panic "invalid state" → Effect sendingNonce receivingNonce s c (r, s)
  | encrypts {user r : PublicKey} {recipient : Option PublicKey} {payload x : Bytes}
    {noise noise' : Noise S} : (s.cipher user).sendNoiseMap.lookup r = some noise →
    (Noise.channel S).write noise payload = some (x, noise') → noise'.Valid →
    noise'.position sendingNonce = noise.position sendingNonce + 1 →
    Effect sendingNonce receivingNonce s (.encrypt user recipient payload) (.ok x,
      ⟨Function.update s.cipher user { s.cipher user with
          sendNoiseMap := (s.cipher user).sendNoiseMap.insert r noise' },
        s.written ++ [⟨user, r, some noise, payload, x⟩], s.accepted⟩)
  | decrypts {user : PublicKey} {msg : Msg} {m : Bytes} {noise noise' : Noise S} :
    (s.cipher user).recvNoiseMap.lookup msg.sender = some noise →
    (Noise.channel S).read noise msg.msg = some (m, noise') → noise'.Valid →
    noise'.position receivingNonce = noise.position receivingNonce + 1 →
    Effect sendingNonce receivingNonce s (.decrypt user msg) (.ok m,
      ⟨Function.update s.cipher user { s.cipher user with
          recvNoiseMap := (s.cipher user).recvNoiseMap.insert msg.sender noise' },
        s.written, s.accepted ++ [(user, ⟨msg.sender, m⟩)]⟩)

variable {Matched : S.HandshakeState → S.HandshakeState → Prop}
  {Synced : S.TransportState → S.TransportState → Prop}
  {sendingNonce receivingNonce : S.TransportState → ℕ} {s : Exchange S}

theorem effect_call (hS : S.Ideal Matched Synced sendingNonce receivingNonce)
    (hv : ∀ user, (s.cipher user).Valid) (c : CipherCall) :
    Effect sendingNonce receivingNonce s c (s.call c) := by
  cases c with
  | encrypt user recipient payload =>
    cases hr : (s.cipher user).recipient recipient with
    | ok r =>
      obtain ⟨hok, hpanic, hsame⟩ | ⟨x, noise, noise', hlookup, hwrite, hvalid, hp, heq⟩ :=
        Cipher.encrypt_cases hS (hv user) r payload
      · have hcall : s.call (.encrypt user recipient payload) =
            (((s.cipher user).encrypt r payload).1, s) := by
          simp only [call, Cipher.encryptTo, hr, hsame, Function.update_eq_self, writtenBy_of_ne_ok hok,
            List.append_nil]
        rw [hcall]
        exact .fails hok hpanic
      · have hcall : Effect sendingNonce receivingNonce s (.encrypt user recipient payload) _ :=
          .encrypts hlookup hwrite hvalid hp
        simpa only [call, Cipher.encryptTo, hr, heq, writtenBy, hlookup] using hcall
    | err e =>
      simp only [call, Cipher.encryptTo, hr, Function.update_eq_self, writtenBy, List.append_nil]
      exact .fails (by simp) (by simp)
    -- `encrypt` without a recipient can panic, before any Noise state is touched
    | panic message =>
      simp only [call, Cipher.encryptTo, hr, Function.update_eq_self, writtenBy, List.append_nil]
      exact .fails (by simp) (Cipher.recipient_ne_invalid_state hr)
  | decrypt user msg =>
    obtain ⟨hok, hpanic, hsame⟩ | ⟨m, noise, noise', hlookup, hread, hvalid, hp, heq⟩ :=
      Cipher.decrypt_cases hS (hv user) msg
    · have hcall : s.call (.decrypt user msg) =
          (((s.cipher user).decrypt msg).1.bind fun plain => .ok plain.msg, s) := by
        simp only [call, hsame, Function.update_eq_self, acceptedBy_of_ne_ok hok, List.append_nil]
      rw [hcall]
      refine .fails (fun x hx => ?_) fun hx => ?_
      · obtain ⟨plain, hplain, -⟩ := Outcome.bind_eq_ok_iff.mp hx
        exact hok plain hplain
      · exact hpanic (Outcome.panic_of_bind_eq_panic hx (by simp))
    · have hcall : Effect sendingNonce receivingNonce s (.decrypt user msg) _ :=
        .decrypts hlookup hread hvalid hp
      simpa only [call, heq, acceptedBy, Outcome.bind] using hcall

/-- Users who each built a cipher for their peers. -/
def system (S : Snow) (peers : PublicKey → List PublicKey) :
    TransitionSystem (Exchange S) CipherCall where
  init s := (∀ user, Cipher.new user (peers user) = some (s.cipher user)) ∧ s.written = [] ∧
    s.accepted = []
  step s c s' := s' = (s.call c).2

def sent (s : Exchange S) (a b : PublicKey) : List (Written S) :=
  s.written.filter fun w => w.sender = a ∧ w.recipient = b

def received (s : Exchange S) (a b : PublicKey) : List Bytes :=
  (s.accepted.filter fun e => e.1 = b ∧ e.2.sender = a).map fun e => e.2.msg

/-- What `b` decrypts as coming from `a` was encrypted by `a` to `b`, with the key and the
nonce of the position that `b` is at. -/
def Authentic (sendingNonce receivingNonce : S.TransportState → ℕ) (a b : PublicKey)
    (s : Exchange S) : CipherCall → Prop
  | .encrypt .. => True
  | .decrypt user msg => user = b → msg.sender = a →
    (∃ m, (s.call (.decrypt user msg)).1 = .ok m) →
    ∃ e ∈ s.sent a b, e.ciphertext = msg.msg ∧ e.noise.map (Noise.position sendingNonce) =
      ((s.cipher b).recvNoiseMap.lookup a).map (Noise.position receivingNonce)

/-- The messages of `a` for `b` are the ones that `b` has decrypted and then those that `b`
can still decrypt, each at its position. -/
structure Linked (Paired : Noise S → Noise S → Prop)
    (sendingNonce receivingNonce : S.TransportState → ℕ) (a b : PublicKey) (s : Exchange S)
    (done rest : List (Written S)) (w r : Noise S) : Prop where
  sent : s.sent a b = done ++ rest
  received : s.received a b = done.map Written.payload
  writer : (s.cipher a).sendNoiseMap.lookup b = some w
  reader : (s.cipher b).recvNoiseMap.lookup a = some r
  pending : (Noise.channel S).Pending Paired w r (rest.map fun e => (e.payload, e.ciphertext))
  position_writer : w.position sendingNonce = (done ++ rest).length
  position_reader : r.position receivingNonce = done.length
  position {i : ℕ} {e : Written S} : (done ++ rest)[i]? = some e →
    e.noise.map (Noise.position sendingNonce) = some i

variable {a b : PublicKey} {Paired : Noise S → Noise S → Prop} {done rest : List (Written S)}
  {w r : Noise S}

theorem recvNoiseMap_update (cipher : PublicKey → Cipher S) (user a : PublicKey)
    (m : Map PublicKey (Noise S)) :
    (Function.update cipher user { cipher user with sendNoiseMap := m } a).recvNoiseMap =
      (cipher a).recvNoiseMap := by
  by_cases h : a = user
  · subst h
    rw [Function.update_self]
  · rw [Function.update_of_ne h]

theorem sendNoiseMap_update (cipher : PublicKey → Cipher S) (user a : PublicKey)
    (m : Map PublicKey (Noise S)) :
    (Function.update cipher user { cipher user with recvNoiseMap := m } a).sendNoiseMap =
      (cipher a).sendNoiseMap := by
  by_cases h : a = user
  · subst h
    rw [Function.update_self]
  · rw [Function.update_of_ne h]

theorem Linked.pending_eq (h : Linked Paired sendingNonce receivingNonce a b s done rest w r)
    {e : Written S} (hmem : e ∈ s.sent a b)
    (hposition : e.noise.map (Noise.position sendingNonce) =
      ((s.cipher b).recvNoiseMap.lookup a).map (Noise.position receivingNonce)) :
    ∃ rest', rest = e :: rest' := by
  rw [h.sent] at hmem
  obtain ⟨i, hi⟩ := List.mem_iff_getElem?.mp hmem
  rw [h.position hi, h.reader, Option.map_some, h.position_reader, Option.some.injEq] at hposition
  -- the message is the first one after those that were decrypted
  subst hposition
  rw [List.getElem?_append_right le_rfl, Nat.sub_self] at hi
  cases rest with
  | nil => cases hi
  | cons e' rest' =>
    obtain rfl := Option.some.inj hi
    exact ⟨rest', rfl⟩

/-- One call keeps the two users linked. -/
theorem Linked.step (h : Linked Paired sendingNonce receivingNonce a b s done rest w r)
    (hch : (Noise.channel S).InOrder Paired) {c : CipherCall}
    {result : Outcome CipherError Bytes × Exchange S}
    (heffect : Effect sendingNonce receivingNonce s c result)
    (hcall : s.call c = result) (hauthentic : Authentic sendingNonce receivingNonce a b s c) :
    ∃ done rest w r, Linked Paired sendingNonce receivingNonce a b result.2 done rest w r := by
  cases heffect with
  | fails _ _ => exact ⟨done, rest, w, r, h⟩
  | @encrypts user recipient' recipient payload x noise noise' hlookup hwrite _ hposition =>
    have hsent : Exchange.sent ⟨Function.update s.cipher user { s.cipher user with
          sendNoiseMap := (s.cipher user).sendNoiseMap.insert recipient' noise' },
        s.written ++ [⟨user, recipient', some noise, payload, x⟩], s.accepted⟩ a b =
        s.sent a b ++ if user = a ∧ recipient' = b then
          [⟨user, recipient', some noise, payload, x⟩] else [] := by
      simp only [Exchange.sent, List.filter_append, List.filter_cons, List.filter_nil,
        decide_eq_true_eq]
    -- only an encryption from `a` to `b` adds to what is pending, at the position of the writer
    by_cases hab : user = a ∧ recipient' = b
    · obtain ⟨rfl, rfl⟩ := hab
      obtain rfl := Option.some.inj (h.writer.symm.trans hlookup)
      rw [if_pos ⟨rfl, rfl⟩, h.sent, List.append_assoc] at hsent
      refine ⟨done, rest ++ [⟨user, recipient', some w, payload, x⟩], noise', r, hsent,
        h.received, ?_, ?_, ?_, ?_, h.position_reader, ?_⟩
      · simp only [Function.update_self, Map.lookup_insert_self]
      · simp only [recvNoiseMap_update]
        exact h.reader
      · rw [List.map_append]
        exact h.pending.write hch hwrite
      · rw [hposition, h.position_writer]
        simp only [List.length_append, List.length_singleton, Nat.add_assoc]
      · intro i e hi
        rw [← List.append_assoc, List.getElem?_append] at hi
        split_ifs at hi with hlt
        · exact h.position hi
        · obtain ⟨hlt', rfl⟩ := List.getElem?_eq_some_iff.mp hi
          rw [List.length_singleton] at hlt'
          rw [List.getElem_singleton, Option.map_some, h.position_writer, Option.some.injEq]
          omega
    · rw [if_neg hab, List.append_nil, h.sent] at hsent
      refine ⟨done, rest, w, r, hsent, h.received, ?_, ?_, h.pending, h.position_writer,
        h.position_reader, h.position⟩
      · by_cases hu : a = user
        · subst hu
          simp only [Function.update_self, Map.lookup_insert]
          rw [if_neg fun hb => hab ⟨rfl, hb.symm⟩, h.writer]
        · simp only [Function.update_of_ne hu]
          exact h.writer
      · simp only [recvNoiseMap_update]
        exact h.reader
  | @decrypts user msg m noise noise' hlookup hread _ hposition =>
    have hreceived : Exchange.received ⟨Function.update s.cipher user { s.cipher user with
          recvNoiseMap := (s.cipher user).recvNoiseMap.insert msg.sender noise' },
        s.written, s.accepted ++ [(user, ⟨msg.sender, m⟩)]⟩ a b =
        s.received a b ++ if user = b ∧ msg.sender = a then [m] else [] := by
      simp only [Exchange.received, List.filter_append, List.filter_cons, List.filter_nil,
        decide_eq_true_eq, List.map_append]
      split_ifs <;> rfl
    -- what `b` accepts was written at the reader's position, so it is the first message pending
    by_cases hab : user = b ∧ msg.sender = a
    · obtain ⟨rfl, rfl⟩ := hab
      obtain rfl := Option.some.inj (h.reader.symm.trans hlookup)
      obtain ⟨e, hmem, hcipher, hpos⟩ := hauthentic rfl rfl ⟨m, by rw [hcall]⟩
      obtain ⟨rest', rfl⟩ := h.pending_eq hmem hpos
      have hpending := h.pending
      rw [List.map_cons] at hpending
      obtain ⟨r', hread', hpending'⟩ := hpending.read
      rw [hcipher, hread] at hread'
      obtain ⟨rfl, rfl⟩ := Prod.mk.inj (Option.some.inj hread')
      rw [if_pos ⟨rfl, rfl⟩, h.received] at hreceived
      have happend : done ++ e :: rest' = (done ++ [e]) ++ rest' := List.append_cons done e rest'
      refine ⟨done ++ [e], rest', w, noise', happend ▸ h.sent, ?_, ?_, ?_, hpending',
        happend ▸ h.position_writer, ?_, happend ▸ h.position⟩
      · rw [hreceived, List.map_append]
        rfl
      · simp only [sendNoiseMap_update]
        exact h.writer
      · simp only [Function.update_self, Map.lookup_insert_self]
      · rw [hposition, h.position_reader, List.length_append]
        rfl
    · rw [if_neg hab, List.append_nil, h.received] at hreceived
      refine ⟨done, rest, w, r, h.sent, hreceived, ?_, ?_, h.pending, h.position_writer,
        h.position_reader, h.position⟩
      · simp only [sendNoiseMap_update]
        exact h.writer
      · by_cases hu : b = user
        · subst hu
          simp only [Function.update_self, Map.lookup_insert]
          rw [if_neg fun ha => hab ⟨rfl, ha.symm⟩, h.reader]
        · simp only [Function.update_of_ne hu]
          exact h.reader

theorem Effect.valid {c : CipherCall} {result : Outcome CipherError Bytes × Exchange S}
    (heffect : Effect sendingNonce receivingNonce s c result)
    (hv : ∀ user, (s.cipher user).Valid) (user : PublicKey) : (result.2.cipher user).Valid := by
  cases heffect with
  | fails _ _ => exact hv user
  | @encrypts user' r _ _ _ _ noise' _ _ hvalid _ =>
    by_cases hu : user = user'
    · subst hu
      simp only [Function.update_self]
      refine ⟨fun {pubkey noise} hlookup => ?_, (hv user).recv⟩
      rw [Map.lookup_insert] at hlookup
      split_ifs at hlookup
      · exact Option.some.inj hlookup ▸ hvalid
      · exact (hv user).send hlookup
    · simp only [Function.update_of_ne hu]
      exact hv user
  | @decrypts user' msg _ _ noise' _ _ hvalid _ =>
    by_cases hu : user = user'
    · subst hu
      simp only [Function.update_self]
      refine ⟨(hv user).send, fun {pubkey noise} hlookup => ?_⟩
      rw [Map.lookup_insert] at hlookup
      split_ifs at hlookup
      · exact Option.some.inj hlookup ▸ hvalid
      · exact (hv user).recv hlookup
    · simp only [Function.update_of_ne hu]
      exact hv user

theorem valid_of_reachable (hS : S.Ideal Matched Synced sendingNonce receivingNonce)
    {peers : PublicKey → List PublicKey} (h : (system S peers).Reachable s) (user : PublicKey) :
    (s.cipher user).Valid := by
  refine h.invariant (P := fun s => ∀ user, (s.cipher user).Valid) ?_ ?_ user
  · exact fun s h0 user => Cipher.valid_new hS (h0.1 user)
  · rintro s c _ - hv rfl
    exact (effect_call hS hv c).valid hv

theorem linked_start (hS : S.Ideal Matched Synced sendingNonce receivingNonce)
    {peers : PublicKey → List PublicKey} (ha : b ∈ peers a) (hb : a ∈ peers b)
    (h : (system S peers).init s) :
    ∃ w r, Linked (Noise.Paired Matched Synced) sendingNonce receivingNonce a b s [] [] w r := by
  obtain ⟨hnew, hwritten, haccepted⟩ := h
  obtain ⟨sendNoise, -, hsend, -⟩ := Cipher.build_of_new (hnew a) ha
  obtain ⟨-, recvNoise, -, hrecv⟩ := Cipher.build_of_new (hnew b) hb
  refine ⟨.new sendNoise, .new recvNoise, ?_, ?_, ?_, ?_, .done (.handshake ?_), rfl, rfl, ?_⟩
  · rw [Exchange.sent, hwritten]
    rfl
  · rw [Exchange.received, haccepted]
    rfl
  · rw [(Cipher.lookup_new (hnew a) b).1, if_pos ha, hsend]
    rfl
  · rw [(Cipher.lookup_new (hnew b) a).2, if_pos hb, hrecv]
    rfl
  · exact hS.inOrder.build hsend hrecv
  · intro i e hi
    cases hi

def callAll : Exchange S → List CipherCall → Option (List Bytes × Exchange S)
  | s, [] => some ([], s)
  | s, c :: cs =>
    match s.call c with
    | (.ok x, s') => (callAll s' cs).map fun (xs, s'') => (x :: xs, s'')
    | _ => none

def offers (a b : PublicKey) (l : List (Written S)) : List CipherCall :=
  l.map fun e => .decrypt b ⟨a, e.ciphertext⟩

theorem callAll_offers (hreader : (s.cipher b).recvNoiseMap.lookup a = some r)
    (hpending : (Noise.channel S).Pending Paired w r
      (rest.map fun e => (e.payload, e.ciphertext))) :
    ∃ s', s.callAll (offers a b rest) = some (rest.map Written.payload, s') := by
  induction rest generalizing s r with
  | nil => exact ⟨s, rfl⟩
  | cons e rest ih =>
    rw [List.map_cons] at hpending
    obtain ⟨r', hread, hpending'⟩ := hpending.read
    have hdecrypt : (s.cipher b).decrypt ⟨a, e.ciphertext⟩ = (.ok ⟨a, e.payload⟩,
        { s.cipher b with recvNoiseMap := (s.cipher b).recvNoiseMap.insert a r' }) := by
      refine Cipher.decrypt_ok_iff.mpr ⟨e.payload, _, ?_, rfl, rfl⟩
      simp only [Channel.readFrom, hreader, hread, Option.map_some]
    obtain ⟨s', hs'⟩ := ih (s := ⟨Function.update s.cipher b
      { s.cipher b with recvNoiseMap := (s.cipher b).recvNoiseMap.insert a r' }, s.written,
      s.accepted ++ [(b, ⟨a, e.payload⟩)]⟩)
      (by simp only [Function.update_self, Map.lookup_insert_self]) hpending'
    refine ⟨s', ?_⟩
    simp only [offers] at hs'
    simp only [offers, List.map_cons, callAll, call, hdecrypt, Outcome.bind, acceptedBy, hs',
      Option.map_some]

/-- In every run in which `b` accepts only authentic messages as coming from `a`, `b` has
decrypted what `a` encrypted to `b`, in order and up to some message, and can decrypt the
others. A call that fails changes nothing, and no Noise state is invalid. -/
theorem faithful (hS : S.Ideal Matched Synced sendingNonce receivingNonce)
    {peers : PublicKey → List PublicKey} (ha : b ∈ peers a) (hb : a ∈ peers b)
    {calls : List CipherCall}
    (h : ((system S peers).restrict (Authentic sendingNonce receivingNonce a b)).Run calls s) :
    (s.received a b <+: (s.sent a b).map Written.payload) ∧
    (∃ s', s.callAll (offers a b ((s.sent a b).drop (s.received a b).length)) =
      some (((s.sent a b).drop (s.received a b).length).map Written.payload, s')) ∧
    ∀ c, (s.call c).1 ≠ .panic "invalid state" ∧
      ((∀ x, (s.call c).1 ≠ .ok x) → (s.call c).2 = s) := by
  have hlinked : ∃ done rest w r, Linked (Noise.Paired Matched Synced) sendingNonce receivingNonce
      a b s done rest w r := by
    induction h with
    | start h0 =>
      obtain ⟨w, r, hl⟩ := linked_start hS ha hb h0
      exact ⟨[], [], w, r, hl⟩
    | @snoc _ s _ c hr hstep ih =>
      obtain ⟨hauthentic, rfl⟩ := hstep
      obtain ⟨done, rest, w, r, hl⟩ := ih
      have heffect := effect_call hS (valid_of_reachable hS hr.of_restrict.reachable) c
      exact hl.step (Noise.channel_inOrder hS.inOrder) heffect rfl hauthentic
  -- `done` was decrypted and `rest` can still be, whatever else was called in between
  obtain ⟨done, rest, w, r, hl⟩ := hlinked
  have hdrop : (s.sent a b).drop (s.received a b).length = rest := by
    rw [hl.sent, hl.received, List.length_map, List.drop_left]
  refine ⟨?_, ?_, fun c => ?_⟩
  · rw [hl.received, hl.sent, List.map_append]
    exact List.prefix_append _ _
  · rw [hdrop]
    exact callAll_offers hl.reader hl.pending
  · have heffect := effect_call hS (valid_of_reachable hS h.of_restrict.reachable) c
    generalize s.call c = result at heffect
    cases heffect with
    | fails _ hpanic => exact ⟨hpanic, fun _ => rfl⟩
    | encrypts _ _ _ _ => exact ⟨by simp, fun hne => absurd rfl (hne _)⟩
    | decrypts _ _ _ _ => exact ⟨by simp, fun hne => absurd rfl (hne _)⟩

/-- The number of a message in unary, and the payload. -/
def frame (n : ℕ) (m : Bytes) : Bytes := (List.replicate n 1 ++ [0]) ++ m

def unframe (n : ℕ) (x : Bytes) : Option Bytes :=
  if x.take (n + 1) = List.replicate n 1 ++ [0] then some (x.drop (n + 1)) else none

theorem unframe_frame (n : ℕ) (m : Bytes) : unframe n (frame n m) = some m := by
  have hlen : n + 1 = (List.replicate n (1 : UInt8) ++ [0]).length := by simp
  rw [unframe, frame, hlen, List.take_left, List.drop_left, if_pos rfl]

def numberedSnow : Snow where
  HandshakeState := PublicKey × PublicKey × Bool
  TransportState := ℕ
  buildInitiator localKey remoteKey := some (localKey, remoteKey, false)
  buildResponder localKey remoteKey := some (remoteKey, localKey, false)
  writeHandshake h m := (some (frame 0 m), (h.1, h.2.1, true))
  readHandshake h x :=
    match unframe 0 x with
    | some m => (some m, (h.1, h.2.1, true))
    | none => (none, h)
  isHandshakeFinished h := h.2.2
  intoTransportMode h := if h.2.2 then some (0 : ℕ) else none
  writeTransport (n : ℕ) m := (some (frame (n + 1) m), n + 1)
  readTransport (n : ℕ) x :=
    match unframe (n + 1) x with
    | some m => (some m, n + 1)
    | none => (none, n)

theorem numberedSnow_ideal : numberedSnow.Ideal (· = ·) (· = ·) (fun n => n) (fun n => n) where
  inOrder := {
    build := fun h h' => by
      obtain rfl := Option.some.inj h
      exact Option.some.inj h'
    handshake := by
      rintro h h₁ _ m x rfl hwrite
      obtain ⟨hx, rfl⟩ := Prod.mk.inj hwrite
      obtain rfl := Option.some.inj hx
      refine ⟨(h.1, h.2.1, true), (0 : ℕ), (0 : ℕ), ?_, rfl, rfl, rfl, rfl, rfl⟩
      simp only [numberedSnow, unframe_frame]
    transport := by
      rintro t t₁ _ m x rfl hwrite
      obtain ⟨hx, rfl⟩ := Prod.mk.inj hwrite
      obtain rfl := Option.some.inj hx
      refine ⟨(show ℕ from t) + 1, ?_, rfl⟩
      simp only [numberedSnow, unframe_frame] }
  buildInitiator h := by
    obtain rfl := Option.some.inj h
    rfl
  buildResponder h := by
    obtain rfl := Option.some.inj h
    rfl
  sends := {
    handshake := fun _ h => by
      obtain ⟨rfl, rfl⟩ := Prod.mk.inj h
      exact ⟨rfl, by simp⟩
    intoTransportMode := fun h => ⟨(0 : ℕ), if_pos h, rfl⟩
    transport_ok := fun h => by
      obtain ⟨-, rfl⟩ := Prod.mk.inj h
      rfl
    transport_fails := fun h => by cases h }
  receives := {
    handshake := fun {h h₁ b r} hfinished hread => by
      simp only [numberedSnow] at hread hfinished
      split at hread
      · obtain ⟨rfl, rfl⟩ := Prod.mk.inj hread
        exact ⟨rfl, by simp⟩
      · obtain ⟨rfl, rfl⟩ := Prod.mk.inj hread
        exact ⟨hfinished, fun _ => rfl⟩
    intoTransportMode := fun h => ⟨(0 : ℕ), if_pos h, rfl⟩
    transport_ok := fun {t t₁ b x} h => by
      simp only [numberedSnow] at h
      split at h
      · exact (Prod.mk.inj h).2.symm
      · cases h
    transport_fails := fun {t t₁ b} h => by
      simp only [numberedSnow] at h
      split at h
      · cases h
      · exact (Prod.mk.inj h).2.symm }

def samplePeers (user : PublicKey) : List PublicKey :=
  if user = ⟨[1]⟩ then [⟨[2]⟩] else [⟨[1]⟩]

def sampleExchange : Exchange numberedSnow where
  cipher user := (Cipher.new user (samplePeers user)).getD .empty
  written := []
  accepted := []

theorem sampleExchange_init : (system numberedSnow samplePeers).init sampleExchange := by
  refine ⟨fun user => ?_, rfl, rfl⟩
  have hsome : (Cipher.new (S := numberedSnow) user (samplePeers user)).isSome = true := by
    unfold samplePeers
    split_ifs <;> rfl
  obtain ⟨cipher, hcipher⟩ := Option.isSome_iff_exists.mp hsome
  simp only [sampleExchange, hcipher, Option.getD_some]

def sampleCalls : List CipherCall :=
  [.encrypt ⟨[1]⟩ none [7], .decrypt ⟨[2]⟩ ⟨⟨[1]⟩, frame 0 [7]⟩, .decrypt ⟨[2]⟩ ⟨⟨[1]⟩, frame 0 [7]⟩]

def sampleFinal : Exchange numberedSnow :=
  sampleCalls.foldl (fun s c => (s.call c).2) sampleExchange

theorem sampleCalls_run : ((system numberedSnow samplePeers).restrict
    (Authentic (fun n => n) (fun n => n) ⟨[1]⟩ ⟨[2]⟩)).Run sampleCalls sampleFinal := by
  have hstart : ((system numberedSnow samplePeers).restrict
      (Authentic (fun n => n) (fun n => n) ⟨[1]⟩ ⟨[2]⟩)).Run [] sampleExchange :=
    .start sampleExchange_init
  have hone : ((system numberedSnow samplePeers).restrict
      (Authentic (fun n => n) (fun n => n) ⟨[1]⟩ ⟨[2]⟩)).Run (sampleCalls.take 1) _ :=
    hstart.snoc ⟨trivial, rfl⟩
  have htwo : ((system numberedSnow samplePeers).restrict
      (Authentic (fun n => n) (fun n => n) ⟨[1]⟩ ⟨[2]⟩)).Run (sampleCalls.take 2) _ :=
    hone.snoc ⟨fun _ _ _ => ⟨_, List.Mem.head _, rfl, rfl⟩, rfl⟩
  refine htwo.snoc ⟨fun _ _ ⟨m, hm⟩ => ?_, rfl⟩
  cases hm

theorem faithful_sample : sampleFinal.received ⟨[1]⟩ ⟨[2]⟩ = [[7]] ∧
    (sampleFinal.received ⟨[1]⟩ ⟨[2]⟩ <+: (sampleFinal.sent ⟨[1]⟩ ⟨[2]⟩).map Written.payload) ∧
    ∀ c, (sampleFinal.call c).1 ≠ .panic "invalid state" := by
  obtain ⟨hread, -, hcalls⟩ := faithful numberedSnow_ideal (by decide) (by decide) sampleCalls_run
  exact ⟨rfl, hread, fun c => (hcalls c).1⟩

end Exchange

end FrostTools.Client
