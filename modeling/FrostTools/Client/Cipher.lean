import FrostTools.Api
import FrostTools.Lib.Channel
import FrostTools.Lib.Outcome

/-!
# Encryption of the messages between clients

The `snow` crate is a parameter. A key pair is represented by its public key.
-/

namespace FrostTools.Client

/-- The operations of the `snow` crate for `Noise_K_25519_ChaChaPoly_BLAKE2s`. -/
structure Snow where
  HandshakeState : Type
  TransportState : Type
  buildInitiator (localKey remoteKey : PublicKey) : Option HandshakeState
  buildResponder (localKey remoteKey : PublicKey) : Option HandshakeState
  writeHandshake : HandshakeState → Bytes → Option Bytes × HandshakeState
  readHandshake : HandshakeState → Bytes → Option Bytes × HandshakeState
  isHandshakeFinished : HandshakeState → Bool
  intoTransportMode : HandshakeState → Option TransportState
  writeTransport : TransportState → Bytes → Option Bytes × TransportState
  readTransport : TransportState → Bytes → Option Bytes × TransportState

inductive CipherError where
  | snowError
  | unkownRecipient
  | unkownSender
  deriving DecidableEq

/-- Only one of the two states has a value at any given time. -/
structure Noise (S : Snow) where
  handshakeState : Option S.HandshakeState
  transportState : Option S.TransportState

variable {S : Snow}

namespace Noise

def new (handshakeState : S.HandshakeState) : Noise S := ⟨some handshakeState, none⟩

/-- The common part of `write_message` and `read_message`. -/
def message (handshake : S.HandshakeState → Bytes → Option Bytes × S.HandshakeState)
    (transport : S.TransportState → Bytes → Option Bytes × S.TransportState)
    (noise : Noise S) (payload : Bytes) : Outcome CipherError Bytes × Noise S :=
  match noise.handshakeState with
  | some h =>
    let (r, h) := handshake h payload
    if S.isHandshakeFinished h then
      match S.intoTransportMode h with
      -- the handshake state was already taken
      | none => (.err .snowError, { noise with handshakeState := none })
      | some t => (.okOr .snowError r, ⟨none, some t⟩)
    else (.okOr .snowError r, { noise with handshakeState := some h })
  | none =>
    match noise.transportState with
    | some t =>
      let (r, t) := transport t payload
      (.okOr .snowError r, { noise with transportState := some t })
    | none => (.panic "invalid state", noise)

def writeMessage : Noise S → Bytes → Outcome CipherError Bytes × Noise S :=
  message S.writeHandshake S.writeTransport

def readMessage : Noise S → Bytes → Outcome CipherError Bytes × Noise S :=
  message S.readHandshake S.readTransport

end Noise

/-- A cipher which can encrypt and decrypt messages. -/
structure Cipher (S : Snow) where
  sendNoiseMap : Map PublicKey (Noise S)
  recvNoiseMap : Map PublicKey (Noise S)

namespace Cipher

def empty : Cipher S := ⟨∅, ∅⟩

def addPeer (privateKey : PublicKey) (cipher : Cipher S) (pubkey : PublicKey) :
    Option (Cipher S) :=
  match S.buildInitiator privateKey pubkey, S.buildResponder privateKey pubkey with
  | some sendNoise, some recvNoise =>
    some ⟨cipher.sendNoiseMap.insert pubkey (.new sendNoise),
      cipher.recvNoiseMap.insert pubkey (.new recvNoise)⟩
  | _, _ => none

def new (privateKey : PublicKey) (peersPublicKeys : List PublicKey) : Option (Cipher S) :=
  peersPublicKeys.foldlM (addPeer privateKey) empty

def encrypt (cipher : Cipher S) (recipient : PublicKey) (msg : Bytes) :
    Outcome CipherError Bytes × Cipher S :=
  match cipher.sendNoiseMap.lookup recipient with
  | none => (.err .unkownRecipient, cipher)
  | some noise =>
    let (r, noise) := noise.writeMessage msg
    (r, { cipher with sendNoiseMap := cipher.sendNoiseMap.insert recipient noise })

/-- The given recipient, or the only one that was passed to `new`. -/
def recipient (cipher : Cipher S) : Option PublicKey → Outcome CipherError PublicKey
  | some recipient => .ok recipient
  | none =>
    match cipher.sendNoiseMap.onlyKey with
    | some recipient => .ok recipient
    | none => .panic
      "no recipient specified and more than one recipient was passed to `Cipher::new()`"

def encryptTo (cipher : Cipher S) (recipient : Option PublicKey) (msg : Bytes) :
    Outcome CipherError Bytes × Cipher S :=
  match cipher.recipient recipient with
  | .ok recipient => cipher.encrypt recipient msg
  | .err e => (.err e, cipher)
  | .panic message => (.panic message, cipher)

def decrypt (cipher : Cipher S) (msg : Msg) : Outcome CipherError Msg × Cipher S :=
  match cipher.recvNoiseMap.lookup msg.sender with
  | none => (.err .unkownSender, cipher)
  | some noise =>
    let (r, noise) := noise.readMessage msg.msg
    (r.bind fun m => .ok ⟨msg.sender, m⟩,
      { cipher with recvNoiseMap := cipher.recvNoiseMap.insert msg.sender noise })

end Cipher

/-- A Noise state as one end of a channel. -/
def Noise.channel (S : Snow) : Channel (Noise S) Bytes Bytes where
  write noise m :=
    match noise.writeMessage m with
    | (.ok x, noise') => some (x, noise')
    | _ => none
  read noise x :=
    match noise.readMessage x with
    | (.ok m, noise') => some (m, noise')
    | _ => none

theorem Noise.channel_write_iff {noise noise' : Noise S} {m x : Bytes} :
    (channel S).write noise m = some (x, noise') ↔ noise.writeMessage m = (.ok x, noise') := by
  simp only [channel]
  split
  · next hw => rw [hw, Option.some.injEq, Prod.mk.injEq, Prod.mk.injEq, Outcome.ok.injEq]
  · next hne =>
    refine iff_of_false (fun h => ?_) fun h => hne _ _ h
    cases h

theorem Noise.channel_read_iff {noise noise' : Noise S} {m x : Bytes} :
    (channel S).read noise x = some (m, noise') ↔ noise.readMessage x = (.ok m, noise') := by
  simp only [channel]
  split
  · next hr => rw [hr, Option.some.injEq, Prod.mk.injEq, Prod.mk.injEq, Outcome.ok.injEq]
  · next hne =>
    refine iff_of_false (fun h => ?_) fun h => hne _ _ h
    cases h

namespace Cipher

variable {cipher cipher' : Cipher S}

theorem encrypt_ok_iff {recipient : PublicKey} {m x : Bytes} :
    cipher.encrypt recipient m = (.ok x, cipher') ↔
      ∃ noise noise', cipher.sendNoiseMap.lookup recipient = some noise ∧
        (Noise.channel S).write noise m = some (x, noise') ∧
        cipher' = { cipher with sendNoiseMap := cipher.sendNoiseMap.insert recipient noise' } := by
  unfold encrypt
  cases cipher.sendNoiseMap.lookup recipient with
  | none => simp
  | some noise =>
    simp only [Noise.channel_write_iff, Option.some.injEq, exists_and_left, exists_eq_left']
    constructor
    · intro h
      obtain ⟨hr, rfl⟩ := Prod.mk.inj h
      exact ⟨_, Prod.ext hr rfl, rfl⟩
    · rintro ⟨noise', h, rfl⟩
      rw [h]

theorem decrypt_ok_iff {msg plain : Msg} :
    cipher.decrypt msg = (.ok plain, cipher') ↔
      ∃ m readers, (Noise.channel S).readFrom cipher.recvNoiseMap msg.sender msg.msg =
          some (m, readers) ∧
        plain = ⟨msg.sender, m⟩ ∧ cipher' = { cipher with recvNoiseMap := readers } := by
  unfold decrypt Channel.readFrom
  cases cipher.recvNoiseMap.lookup msg.sender with
  | none => simp
  | some noise =>
    simp only [Option.map_eq_some_iff, Prod.mk.injEq, Prod.exists, Noise.channel_read_iff]
    constructor
    · rintro ⟨hr, rfl⟩
      obtain ⟨m, hm, heq⟩ := Outcome.bind_eq_ok_iff.mp hr
      exact ⟨m, _, ⟨m, _, Prod.ext hm rfl, rfl, rfl⟩, (Outcome.ok.inj heq).symm, rfl⟩
    · rintro ⟨_, _, ⟨m, noise', h, rfl, rfl⟩, rfl, rfl⟩
      rw [h]
      exact ⟨rfl, rfl⟩

theorem encrypt_recvNoiseMap (recipient : PublicKey) (m : Bytes) :
    (cipher.encrypt recipient m).2.recvNoiseMap = cipher.recvNoiseMap := by
  unfold encrypt
  cases cipher.sendNoiseMap.lookup recipient <;> rfl

theorem decrypt_sendNoiseMap (msg : Msg) :
    (cipher.decrypt msg).2.sendNoiseMap = cipher.sendNoiseMap := by
  unfold decrypt
  cases cipher.recvNoiseMap.lookup msg.sender <;> rfl

theorem addPeer_eq_some_iff {privateKey pubkey : PublicKey} :
    addPeer privateKey cipher pubkey = some cipher' ↔
      ∃ sendNoise recvNoise, S.buildInitiator privateKey pubkey = some sendNoise ∧
        S.buildResponder privateKey pubkey = some recvNoise ∧
        cipher' = ⟨cipher.sendNoiseMap.insert pubkey (.new sendNoise),
          cipher.recvNoiseMap.insert pubkey (.new recvNoise)⟩ := by
  unfold addPeer
  cases S.buildInitiator privateKey pubkey with
  | none => simp
  | some sendNoise =>
    cases S.buildResponder privateKey pubkey with
    | none => simp
    | some recvNoise => simp [eq_comm]

theorem new_append_singleton {privateKey peer : PublicKey} {peers : List PublicKey} :
    new privateKey (peers ++ [peer]) = some cipher' ↔
      ∃ cipher : Cipher S, new privateKey peers = some cipher ∧
        addPeer privateKey cipher peer = some cipher' := by
  rw [new, List.foldlM_append]
  simp only [List.foldlM_cons, List.foldlM_nil, bind_pure]
  exact Option.bind_eq_some_iff

/-- A new cipher has fresh Noise states, for its peers alone. -/
theorem lookup_new {privateKey : PublicKey} {peers : List PublicKey}
    (h : new privateKey peers = some cipher) (pubkey : PublicKey) :
    cipher.sendNoiseMap.lookup pubkey =
        (if pubkey ∈ peers then (S.buildInitiator privateKey pubkey).map .new else none) ∧
      cipher.recvNoiseMap.lookup pubkey =
        (if pubkey ∈ peers then (S.buildResponder privateKey pubkey).map .new else none) := by
  induction peers using List.reverseRecOn generalizing cipher with
  | nil =>
    obtain rfl := Option.some.inj h
    exact ⟨Map.lookup_empty pubkey, Map.lookup_empty pubkey⟩
  | append_singleton peers peer ih =>
    obtain ⟨cipher₀, h0, h1⟩ := new_append_singleton.mp h
    obtain ⟨sendNoise, recvNoise, hs, hr, rfl⟩ := addPeer_eq_some_iff.mp h1
    have hmem : pubkey ∈ peers ++ [peer] ↔ pubkey = peer ∨ pubkey ∈ peers := by
      rw [List.mem_append, List.mem_singleton, or_comm]
    simp only [Map.lookup_insert, ih h0, hmem]
    by_cases hp : pubkey = peer
    · subst hp
      simp [hs, hr]
    · simp [hp]

theorem build_of_new {privateKey : PublicKey} {peers : List PublicKey} {pubkey : PublicKey}
    (h : new privateKey peers = some cipher) (hmem : pubkey ∈ peers) :
    ∃ sendNoise recvNoise, S.buildInitiator privateKey pubkey = some sendNoise ∧
      S.buildResponder privateKey pubkey = some recvNoise := by
  induction peers using List.reverseRecOn generalizing cipher with
  | nil => cases hmem
  | append_singleton peers peer ih =>
    obtain ⟨cipher₀, h0, h1⟩ := new_append_singleton.mp h
    obtain ⟨sendNoise, recvNoise, hs, hr, -⟩ := addPeer_eq_some_iff.mp h1
    obtain hmem | hmem := List.mem_append.mp hmem
    · exact ih h0 hmem
    · obtain rfl := List.mem_singleton.mp hmem
      exact ⟨sendNoise, recvNoise, hs, hr⟩

end Cipher

def Noise.Live (noise : Noise S) : Prop :=
  noise.handshakeState ≠ none ∨ noise.transportState ≠ none

theorem Noise.live_new (h : S.HandshakeState) : (Noise.new h : Noise S).Live :=
  .inl (Option.some_ne_none h)

section Message

variable {handshake : S.HandshakeState → Bytes → Option Bytes × S.HandshakeState}
  {transport : S.TransportState → Bytes → Option Bytes × S.TransportState} {noise : Noise S}
  {payload : Bytes}

theorem Noise.Live.message_ne_panic (h : noise.Live) (text : String) :
    (message handshake transport noise payload).1 ≠ .panic text := by
  unfold message
  split
  · dsimp only
    split_ifs
    · split
      · exact Outcome.err_ne_panic _ text
      · exact Outcome.okOr_ne_panic _ _ text
    · exact Outcome.okOr_ne_panic _ _ text
  · next hnone =>
    split
    · exact Outcome.okOr_ne_panic _ _ text
    · next hnone' => exact absurd h (not_or.mpr ⟨not_not.mpr hnone, not_not.mpr hnone'⟩)

theorem Noise.live_of_message {x : Bytes} {noise' : Noise S}
    (hok : message handshake transport noise payload = (.ok x, noise')) : noise'.Live := by
  unfold message at hok
  split at hok
  · dsimp only at hok
    split_ifs at hok
    · split at hok
      · cases hok
      · obtain ⟨-, rfl⟩ := Prod.mk.inj hok
        exact .inr (Option.some_ne_none _)
    · obtain ⟨-, rfl⟩ := Prod.mk.inj hok
      exact .inl (Option.some_ne_none _)
  · split at hok
    · obtain ⟨-, rfl⟩ := Prod.mk.inj hok
      exact .inr (Option.some_ne_none _)
    · cases hok

end Message

namespace Cipher

variable {cipher cipher' : Cipher S} {coordinator privkey : PublicKey}

structure ForOne (cipher : Cipher S) (coordinator : PublicKey) : Prop where
  onlyKey : cipher.sendNoiseMap.onlyKey = some coordinator
  live : ∀ recipient noise, cipher.sendNoiseMap.lookup recipient = some noise → noise.Live

theorem forOne_new (h : Cipher.new privkey [coordinator] = some cipher) :
    cipher.ForOne coordinator := by
  have hlookup := lookup_new h
  obtain ⟨sendNoise, recvNoise, hsend, -⟩ := build_of_new h List.mem_cons_self
  refine ⟨?_, ?_⟩
  · rw [Map.onlyKey_eq_some_iff]
    ext recipient
    rw [Map.mem_keys_iff, (hlookup recipient).1, Finset.mem_singleton]
    by_cases heq : recipient = coordinator
    · rw [heq, if_pos List.mem_cons_self, hsend]
      exact ⟨fun _ => rfl, fun _ => ⟨_, rfl⟩⟩
    · rw [if_neg (fun hmem => heq (List.mem_singleton.mp hmem))]
      exact iff_of_false (fun ⟨_, hsome⟩ => Option.some_ne_none _ hsome.symm) heq
  · intro recipient noise hnoise
    rw [(hlookup recipient).1] at hnoise
    split_ifs at hnoise
    obtain ⟨handshake, -, rfl⟩ := Option.map_eq_some_iff.mp hnoise
    exact Noise.live_new handshake

theorem ForOne.encrypt (h : cipher.ForOne coordinator) {recipient : PublicKey} {payload x : Bytes}
    (hok : cipher.encrypt recipient payload = (.ok x, cipher')) : cipher'.ForOne coordinator := by
  obtain ⟨noise, noise', hnoise, hwrite, rfl⟩ := encrypt_ok_iff.mp hok
  refine ⟨?_, ?_⟩
  · rw [Map.onlyKey_eq_some_iff, Map.keys_insert,
      Finset.insert_eq_of_mem (Map.mem_keys_of_lookup hnoise)]
    exact Map.onlyKey_eq_some_iff.mp h.onlyKey
  · intro recipient' noise₁ hnoise₁
    rw [Map.lookup_insert] at hnoise₁
    split_ifs at hnoise₁
    · obtain rfl := Option.some.inj hnoise₁
      exact Noise.live_of_message (Noise.channel_write_iff.mp hwrite)
    · exact h.live recipient' noise₁ hnoise₁

theorem ForOne.decrypt (h : cipher.ForOne coordinator) (msg : Msg) :
    (cipher.decrypt msg).2.ForOne coordinator := by
  have hsend : (cipher.decrypt msg).2.sendNoiseMap = cipher.sendNoiseMap := decrypt_sendNoiseMap msg
  exact ⟨hsend ▸ h.onlyKey, hsend ▸ h.live⟩

theorem ForOne.encrypt_ne_panic (h : cipher.ForOne coordinator) (payload : Bytes) (message : String) :
    (cipher.encryptTo none payload).1 ≠ .panic message := by
  have hrecipient : cipher.recipient none = .ok coordinator := by
    simp only [recipient, h.onlyKey]
  simp only [encryptTo, hrecipient, Cipher.encrypt]
  cases hlookup : cipher.sendNoiseMap.lookup coordinator with
  | none => exact Outcome.err_ne_panic _ message
  | some noise => exact (h.live coordinator noise hlookup).message_ne_panic message

theorem decrypt_ne_panic (hlive : ∀ sender noise, cipher.recvNoiseMap.lookup sender = some noise →
    noise.Live) (msg : Msg) (message : String) : (cipher.decrypt msg).1 ≠ .panic message := by
  unfold decrypt
  cases hlookup : cipher.recvNoiseMap.lookup msg.sender with
  | none => exact Outcome.err_ne_panic _ message
  | some noise =>
    intro hpanic
    exact (hlive _ noise hlookup).message_ne_panic message
      (Outcome.panic_of_bind_eq_panic hpanic fun _ => Outcome.ok_ne_panic _ _)

theorem live_of_new (h : Cipher.new privkey [coordinator] = some cipher) (sender : PublicKey)
    (noise : Noise S) (hnoise : cipher.recvNoiseMap.lookup sender = some noise) : noise.Live := by
  rw [(lookup_new h _).2] at hnoise
  split_ifs at hnoise
  obtain ⟨handshake, -, rfl⟩ := Option.map_eq_some_iff.mp hnoise
  exact Noise.live_new handshake

end Cipher

/-- What the client relies on: the responder reads the messages of the initiator in
the order in which they were written. `Matched` relates the handshake states that
two users build for each other, and `Synced` the transport states after the same
messages. -/
structure Snow.InOrder (S : Snow) (Matched : S.HandshakeState → S.HandshakeState → Prop)
    (Synced : S.TransportState → S.TransportState → Prop) : Prop where
  build : ∀ {a b : PublicKey} {h h' : S.HandshakeState}, S.buildInitiator a b = some h →
    S.buildResponder b a = some h' → Matched h h'
  /-- The only handshake message carries the first payload. -/
  handshake : ∀ {h h₁ h' : S.HandshakeState} {m x : Bytes}, Matched h h' →
    S.writeHandshake h m = (some x, h₁) →
    ∃ h₁' t t', S.readHandshake h' x = (some m, h₁') ∧
      S.isHandshakeFinished h₁ = true ∧ S.isHandshakeFinished h₁' = true ∧
      S.intoTransportMode h₁ = some t ∧ S.intoTransportMode h₁' = some t' ∧ Synced t t'
  transport : ∀ {t t₁ t' : S.TransportState} {m x : Bytes}, Synced t t' →
    S.writeTransport t m = (some x, t₁) →
    ∃ t₁', S.readTransport t' x = (some m, t₁') ∧ Synced t₁ t₁'

inductive Noise.Paired (Matched : S.HandshakeState → S.HandshakeState → Prop)
    (Synced : S.TransportState → S.TransportState → Prop) : Noise S → Noise S → Prop
  | handshake {h h' : S.HandshakeState} : Matched h h' →
    Paired Matched Synced ⟨some h, none⟩ ⟨some h', none⟩
  | transport {t t' : S.TransportState} : Synced t t' →
    Paired Matched Synced ⟨none, some t⟩ ⟨none, some t'⟩

variable {Matched : S.HandshakeState → S.HandshakeState → Prop}
  {Synced : S.TransportState → S.TransportState → Prop}

theorem Noise.channel_inOrder (hS : S.InOrder Matched Synced) :
    (Noise.channel S).InOrder (Noise.Paired Matched Synced) := by
  intro w w' r m x hpaired hwrite
  have hw := Noise.channel_write_iff.mp hwrite
  suffices h : ∃ r', r.readMessage x = (.ok m, r') ∧ Noise.Paired Matched Synced w' r' by
    obtain ⟨r', hread, hpaired'⟩ := h
    exact ⟨r', Noise.channel_read_iff.mpr hread, hpaired'⟩
  cases hpaired with
  | @handshake h h' hmatched =>
    obtain ⟨y, h₁, hwrite⟩ : ∃ y h₁, S.writeHandshake h m = (y, h₁) := ⟨_, _, rfl⟩
    cases y with
    | none =>
      simp only [writeMessage, message, hwrite] at hw
      split at hw
      · split at hw <;> cases hw
      · cases hw
    | some y =>
      obtain ⟨h₁', t, t', hread, hfin, hfin', ht, ht', hsynced⟩ := hS.handshake hmatched hwrite
      simp only [writeMessage, message, hwrite, hfin, ht, ↓reduceIte] at hw
      obtain ⟨hx, rfl⟩ := Prod.mk.inj hw
      obtain rfl := Outcome.ok.inj hx
      refine ⟨⟨none, some t'⟩, ?_, .transport hsynced⟩
      simp only [readMessage, message, hread, hfin', ht', ↓reduceIte]
      rfl
  | @transport t t' hsynced =>
    obtain ⟨y, t₁, hwrite⟩ : ∃ y t₁, S.writeTransport t m = (y, t₁) := ⟨_, _, rfl⟩
    simp only [writeMessage, message, hwrite] at hw
    obtain ⟨hx, rfl⟩ := Prod.mk.inj hw
    obtain rfl := Outcome.okOr_eq_ok_iff.mp hx
    obtain ⟨t₁', hread, hsynced'⟩ := hS.transport hsynced hwrite
    refine ⟨⟨none, some t₁'⟩, ?_, .transport hsynced'⟩
    simp only [readMessage, message, hread]
    rfl

end FrostTools.Client
