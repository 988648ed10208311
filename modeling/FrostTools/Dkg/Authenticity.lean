import FrostTools.Dkg.Agreement
import FrostTools.Dkg.Honest

/-!
# Messages between honest participants

Corrupted users send what they like, but only under their own public keys. What an honest participant
decrypts from another one is what that one encrypted for it, in the same order.
-/

namespace FrostTools.Dkg
open Client Session Frostd HTTPComms

variable {S : Snow} {I R1 R2 : Type*} {D : Setup I R1 R2} {self A B : PublicKey}

def messagesFrom (sender : PublicKey) (msgs : List Msg) : List Bytes :=
  (msgs.filter fun msg => msg.sender = sender).map Msg.msg

def plaintextsFor (D : Setup I R1 R2) (recipient : PublicKey)
    (l : List (PublicKey × Payload I R1 R2)) : List Bytes :=
  (l.filter fun e => e.1 = recipient).map fun e => D.codec.encode e.2

theorem messagesFrom_append (sender : PublicKey) (msgs msgs' : List Msg) :
    messagesFrom sender (msgs ++ msgs') = messagesFrom sender msgs ++ messagesFrom sender msgs' := by
  rw [messagesFrom, List.filter_append, List.map_append]
  rfl

theorem messagesFrom_singleton (sender : PublicKey) (msg : Msg) :
    messagesFrom sender [msg] = if msg.sender = sender then [msg.msg] else [] := by
  by_cases h : msg.sender = sender
  · simp [messagesFrom, h]
  · simp [messagesFrom, h]

theorem messagesFrom_of_ne {sender : PublicKey} {msgs : List Msg}
    (h : ∀ msg ∈ msgs, msg.sender ≠ sender) : messagesFrom sender msgs = [] := by
  rw [messagesFrom, List.map_eq_nil_iff, List.filter_eq_nil_iff]
  intro msg hmsg
  simpa using h msg hmsg

theorem messagesFrom_cons (sender : PublicKey) (msg : Msg) (msgs : List Msg) :
    messagesFrom sender (msg :: msgs) =
      (if msg.sender = sender then [msg.msg] else []) ++ messagesFrom sender msgs := by
  rw [← messagesFrom_singleton, ← messagesFrom_append]
  rfl

theorem plaintextsFor_append (recipient : PublicKey) (l l' : List (PublicKey × Payload I R1 R2)) :
    plaintextsFor D recipient (l ++ l') = plaintextsFor D recipient l ++ plaintextsFor D recipient l' := by
  rw [plaintextsFor, List.filter_append, List.map_append]
  rfl

theorem plaintextsFor_singleton (recipient : PublicKey) (e : PublicKey × Payload I R1 R2) :
    plaintextsFor D recipient [e] = if e.1 = recipient then [D.codec.encode e.2] else [] := by
  by_cases h : e.1 = recipient
  · simp [plaintextsFor, h]
  · simp [plaintextsFor, h]

theorem plaintextsFor_mono {l l' : List (PublicKey × Payload I R1 R2)} (h : l <+: l') :
    plaintextsFor D A l <+: plaintextsFor D A l' := by
  obtain ⟨l₁, rfl⟩ := h
  rw [plaintextsFor_append]
  exact List.prefix_append _ _

section Batch

variable [LinearOrder I] [DecidableEq R1] {c : HTTPComms S I R1 R2}

theorem decrypt_lookup_of_ne {cipher : Cipher S} {msg : Msg} (h : B ≠ msg.sender) :
    (cipher.decrypt msg).2.recvNoiseMap.lookup B = cipher.recvNoiseMap.lookup B := by
  unfold Cipher.decrypt
  cases cipher.recvNoiseMap.lookup msg.sender with
  | none => rfl
  | some noise => exact (Map.lookup_insert _ _ _ _).trans (if_neg h)

theorem recvMsg_cipher (D : Setup I R1 R2) (self : PublicKey) (c : HTTPComms S I R1 R2) (msg : Msg) :
    (c.recvMsg D self msg).2.cipher = (c.cipher.decrypt msg).2 ∧
      (∀ plain, (c.cipher.decrypt msg).1 = .ok plain →
        (c.recvMsg D self msg).2.decrypted = c.decrypted ++ [plain]) ∧
      ((∀ plain, (c.cipher.decrypt msg).1 ≠ .ok plain) →
        (c.recvMsg D self msg).2.decrypted = c.decrypted ∧ (c.recvMsg D self msg).1 ≠ .ok ()) := by
  unfold recvMsg
  split
  · next e cipher hd =>
    rw [hd]
    exact ⟨rfl, nofun, fun _ => ⟨rfl, nofun⟩⟩
  · next message cipher hd =>
    rw [hd]
    exact ⟨rfl, nofun, fun _ => ⟨rfl, nofun⟩⟩
  · next plain cipher hd =>
    rw [hd]
    refine ⟨?_, ?_, fun h => absurd rfl (h plain)⟩
    · dsimp only
      split <;> rfl
    · rintro _ ⟨⟩
      dsimp only
      split <;> rfl

theorem recvBatch_sendNoiseMap (D : Setup I R1 R2) (self : PublicKey) (c : HTTPComms S I R1 R2)
    (msgs : List Msg) :
    (c.recvBatch D self msgs).2.cipher.sendNoiseMap = c.cipher.sendNoiseMap :=
  recvBatch_invariant (P := fun c' => c'.cipher.sendNoiseMap = c.cipher.sendNoiseMap)
    (fun c' msg h => by
      rw [(recvMsg_cipher D self c' msg).1, Cipher.decrypt_sendNoiseMap]
      exact h)
    rfl

theorem keys_decrypt (cipher : Cipher S) (msg : Msg) :
    (cipher.decrypt msg).2.recvNoiseMap.keys = cipher.recvNoiseMap.keys := by
  unfold Cipher.decrypt
  cases h : cipher.recvNoiseMap.lookup msg.sender with
  | none => rfl
  | some noise =>
    exact (Map.keys_insert _ _ _).trans (Finset.insert_eq_of_mem (Map.mem_keys_of_lookup h))

structure ReadsMembers (D : Setup I R1 R2) (c : HTTPComms S I R1 R2) : Prop where
  readers : ¬Dead c.phase → ∀ q ∈ c.cipher.recvNoiseMap.keys, q ∈ D.members
  decrypted : ∀ plain ∈ c.decrypted, plain.sender ∈ D.members

theorem readsMembers_recvBatch (self : PublicKey) (h : ReadsMembers D c) (hlive : ¬Dead c.phase)
    (msgs : List Msg) : ReadsMembers D (c.recvBatch D self msgs).2 := by
  refine (recvBatch_invariant (P := fun c' => ReadsMembers D c' ∧ ¬Dead c'.phase)
    (fun c' msg hc' => ?_) ⟨h, hlive⟩).1
  obtain ⟨hmembers, hlive'⟩ := hc'
  obtain ⟨hcipher, hok, hbad⟩ := recvMsg_cipher D self c' msg
  have hphase := (recvMsg_frame D self c' msg).2.1
  refine ⟨⟨fun _ q hq => ?_, fun plain hplain => ?_⟩, by rwa [hphase]⟩
  · rw [hcipher, keys_decrypt] at hq
    exact hmembers.readers hlive' q hq
  · cases hd : (c'.cipher.decrypt msg).1 with
    | ok plain' =>
      obtain ⟨m, readers, hread, rfl, -⟩ := Cipher.decrypt_ok_iff.mp (Prod.ext hd rfl)
      rw [hok _ hd] at hplain
      obtain hplain | hplain := List.mem_append.mp hplain
      · exact hmembers.decrypted plain hplain
      · obtain rfl := List.mem_singleton.mp hplain
        refine hmembers.readers hlive' _ (Map.mem_keys_iff.mpr ?_)
        unfold Channel.readFrom at hread
        split at hread
        · cases hread
        · next r hr => exact ⟨r, hr⟩
    | err e =>
      rw [(hbad fun plain heq => by cases hd.symm.trans heq).1] at hplain
      exact hmembers.decrypted plain hplain
    | panic message =>
      rw [(hbad fun plain heq => by cases hd.symm.trans heq).1] at hplain
      exact hmembers.decrypted plain hplain

theorem recvMsg_from (D : Setup I R1 R2) (self : PublicKey) {msg : Msg} {l : List (Bytes × Bytes)}
    {msgs : List Msg} {r r' : Noise S}
    (hqueue : messagesFrom B (msg :: msgs) = l.map Prod.snd)
    (hlookup : c.cipher.recvNoiseMap.lookup B = some r)
    (hpending : (Noise.channel S).Pending Eq r' r l) :
    ∃ l₀ l₁ r₁, l = l₀ ++ l₁ ∧ messagesFrom B msgs = l₁.map Prod.snd ∧
      (c.recvMsg D self msg).2.cipher.recvNoiseMap.lookup B = some r₁ ∧
      (Noise.channel S).Pending Eq r' r₁ l₁ ∧
      messagesFrom B (c.recvMsg D self msg).2.decrypted =
        messagesFrom B c.decrypted ++ l₀.map Prod.fst := by
  obtain ⟨hcipher, hok, hbad⟩ := recvMsg_cipher D self c msg
  rw [messagesFrom_cons] at hqueue
  -- a message of `B` is the first one outstanding; any other leaves the reader of `B` as it is
  by_cases hsender : msg.sender = B
  · rw [if_pos hsender] at hqueue
    obtain ⟨⟨m, x⟩, l, rfl, hx, hrest⟩ := List.map_eq_cons_iff.mp hqueue.symm
    obtain ⟨r₁, hread, hpending⟩ := hpending.read
    have hdecrypt : c.cipher.decrypt msg =
        (.ok ⟨B, m⟩, { c.cipher with recvNoiseMap := c.cipher.recvNoiseMap.insert B r₁ }) := by
      refine Cipher.decrypt_ok_iff.mpr ⟨m, _, ?_, by rw [hsender], rfl⟩
      obtain rfl : x = msg.msg := hx
      rw [Channel.readFrom, hsender, hlookup]
      simp only [hread, Option.map_some]
    refine ⟨[(m, x)], l, r₁, rfl, hrest.symm, ?_, hpending, ?_⟩
    · rw [hcipher, hdecrypt]
      exact Map.lookup_insert_self _ _ _
    · rw [hok _ (congrArg Prod.fst hdecrypt), messagesFrom_append, messagesFrom_singleton, if_pos rfl]
      rfl
  · rw [if_neg hsender, List.nil_append] at hqueue
    refine ⟨[], l, r, rfl, hqueue, ?_, hpending, ?_⟩
    · rw [hcipher, decrypt_lookup_of_ne (Ne.symm hsender), hlookup]
    · rw [List.map_nil, List.append_nil]
      cases hd : (c.cipher.decrypt msg).1 with
      | ok plain =>
        obtain ⟨_, _, -, rfl, -⟩ := Cipher.decrypt_ok_iff.mp (Prod.ext hd rfl)
        rw [hok _ hd, messagesFrom_append, messagesFrom_singleton, if_neg hsender, List.append_nil]
      | err e => rw [(hbad fun plain heq => by cases hd.symm.trans heq).1]
      | panic message => rw [(hbad fun plain heq => by cases hd.symm.trans heq).1]

/-- A batch, from the point of view of one sender: its messages are decrypted in order, and all of them
if there is no error. -/
theorem recvBatch_from {msgs : List Msg} {l : List (Bytes × Bytes)} {r r' : Noise S}
    (hqueue : messagesFrom B msgs = l.map Prod.snd)
    (hlookup : c.cipher.recvNoiseMap.lookup B = some r)
    (hpending : (Noise.channel S).Pending Eq r' r l) :
    ∃ l₀ l₁, l = l₀ ++ l₁ ∧
      messagesFrom B (c.recvBatch D self msgs).2.decrypted =
        messagesFrom B c.decrypted ++ l₀.map Prod.fst ∧
      ((c.recvBatch D self msgs).1 = .ok () →
        l₁ = [] ∧ (c.recvBatch D self msgs).2.cipher.recvNoiseMap.lookup B = some r') := by
  -- on the batch; `l` is what `B` has in it
  induction msgs generalizing c l r with
  | nil =>
    obtain rfl := List.map_eq_nil_iff.mp hqueue.symm
    cases hpending with
    | done heq =>
      obtain rfl := heq
      exact ⟨[], [], rfl, (List.append_nil _).symm, fun _ => ⟨rfl, hlookup⟩⟩
  | cons msg msgs ih =>
    obtain ⟨l₀, l₁, r₁, rfl, hrest, hlookup₁, hpending₁, hdecrypted⟩ :=
      recvMsg_from D self hqueue hlookup hpending
    rw [recvBatch]
    split
    · next c₁ h1 =>
      rw [h1] at hlookup₁ hdecrypted
      obtain ⟨l₂, l₃, rfl, hall, hok⟩ := ih hrest hlookup₁ hpending₁
      refine ⟨l₀ ++ l₂, l₃, (List.append_assoc _ _ _).symm, ?_, hok⟩
      rw [hall, hdecrypted, List.map_append, List.append_assoc]
    · next e c₁ h1 =>
      rw [h1] at hdecrypted
      exact ⟨l₀, l₁, rfl, hdecrypted, fun hok => by cases hok⟩
    · next message c₁ h1 =>
      rw [h1] at hdecrypted
      exact ⟨l₀, l₁, rfl, hdecrypted, fun hok => by cases hok⟩

end Batch

section Queue

variable {now : ℕ} {app : AppState} {session' : Frostd.Session}

theorem record_of_closeSession {user : User}
    (h : D.record (closeSession app user ⟨D.sessionId⟩).2 = some session') :
    D.record app = some session' := by
  cases hclose : (closeSession app user ⟨D.sessionId⟩).1 with
  | error e => rwa [closeSession_eq_of_error hclose] at h
  | ok _ =>
    rw [Setup.record, closeSession_lookup, hclose] at h
    simp [Response.ofResult, sessionEffect] at h

/-- Users write under their own public keys and read their own queues. -/
theorem record_of_handle {user : User} {request : Request}
    (hrecreates : Recreates D.sessionId request = false) (hA : A ≠ user.pubkey) (hB : B ≠ user.pubkey)
    (h : D.record (handle now app user request).2 = some session') :
    ∃ session, D.record app = some session ∧
      messagesFrom B (session'.messages (.participant A)) =
        messagesFrom B (session.messages (.participant A)) := by
  have hother : ∀ n m, messagesFrom B (List.replicate n ⟨user.pubkey, m⟩) = [] := by
    intro n m
    apply messagesFrom_of_ne
    intro msg hmsg
    rw [List.eq_of_mem_replicate hmsg]
    exact Ne.symm hB
  rw [Setup.record, handle_lookup] at h
  unfold sessionEffect at h
  split at h
  · split_ifs at h with hid
    · exact absurd hid.symm (of_decide_eq_false hrecreates)
    · exact ⟨session', h, rfl⟩
  · -- a message that is sent has the public key of the user
    split_ifs at h
    · obtain ⟨session, hsession, rfl⟩ := Option.map_eq_some_iff.mp h
      refine ⟨session, hsession, ?_⟩
      rw [messages_enqueue, messagesFrom_append, hother, List.append_nil]
    · exact ⟨session', h, rfl⟩
  · -- the queue that is drained is the user's own, or that of the coordinator
    split_ifs at h
    · obtain ⟨session, hsession, rfl⟩ := Option.map_eq_some_iff.mp h
      refine ⟨session, hsession, ?_⟩
      rw [Session.messages_drain, if_neg]
      unfold resolve
      split_ifs
      · exact fun heq => by cases heq
      · exact fun heq => hA (SessionParticipant.participant.inj heq)
    · exact ⟨session', h, rfl⟩
  · split_ifs at h
    exact ⟨session', h, rfl⟩
  · exact ⟨session', h, rfl⟩

end Queue

variable {Matched : S.HandshakeState → S.HandshakeState → Prop}
  {Synced : S.TransportState → S.TransportState → Prop} {s s' : Network S I R1 R2}

structure Outstanding (D : Setup I R1 R2) (Matched : S.HandshakeState → S.HandshakeState → Prop)
    (Synced : S.TransportState → S.TransportState → Prop) (a b : HTTPComms S I R1 R2) (A B : PublicKey)
    (session : Frostd.Session) (l : List (Bytes × Bytes)) (r r' : Noise S) : Prop where
  queue : messagesFrom B (session.messages (.participant A)) = l.map Prod.snd
  reader : a.cipher.recvNoiseMap.lookup B = some r
  pending : (Noise.channel S).Pending Eq r' r l
  produced : messagesFrom B a.decrypted ++ l.map Prod.fst <+: plaintextsFor D A b.produced
  /-- Nothing else is outstanding, and the next message will be decrypted, too. -/
  writer : ¬Dead b.phase →
    messagesFrom B a.decrypted ++ l.map Prod.fst = plaintextsFor D A b.produced ∧
    ∃ w, b.cipher.sendNoiseMap.lookup A = some w ∧ Noise.Paired Matched Synced w r'

/-- What `A` has decrypted from `B` is what `B` has encrypted for `A`, up to what is in the queue. -/
structure Linked (D : Setup I R1 R2) (Matched : S.HandshakeState → S.HandshakeState → Prop)
    (Synced : S.TransportState → S.TransportState → Prop) (s : Network S I R1 R2) (A B : PublicKey) :
    Prop where
  decrypted : messagesFrom B (s.comms A).decrypted <+: plaintextsFor D A (s.comms B).produced
  outstanding : ¬Dead (s.comms A).phase → ∀ session, D.record s.server = some session →
    ∃ l r r', Outstanding D Matched Synced (s.comms A) (s.comms B) A B session l r r'

theorem Linked.quiet (h : Linked D Matched Synced s A B)
    (hproduced : (s.comms B).produced <+: (s'.comms B).produced)
    (hdecrypted : (s'.comms A).decrypted = (s.comms A).decrypted)
    (hreader : ¬Dead (s'.comms A).phase → ¬Dead (s.comms A).phase ∧
      (s'.comms A).cipher.recvNoiseMap = (s.comms A).cipher.recvNoiseMap)
    (hwriter : ¬Dead (s'.comms B).phase → ¬Dead (s.comms B).phase ∧
      plaintextsFor D A (s'.comms B).produced = plaintextsFor D A (s.comms B).produced ∧
      (s'.comms B).cipher.sendNoiseMap.lookup A = (s.comms B).cipher.sendNoiseMap.lookup A)
    (hqueue : ∀ session', D.record s'.server = some session' → ∃ session,
      D.record s.server = some session ∧ messagesFrom B (session'.messages (.participant A)) =
        messagesFrom B (session.messages (.participant A))) : Linked D Matched Synced s' A B where
  decrypted := by
    rw [hdecrypted]
    exact h.decrypted.trans (plaintextsFor_mono hproduced)
  outstanding hlive session' hsession' := by
    obtain ⟨hbefore, hreaders⟩ := hreader hlive
    obtain ⟨session, hsession, hsame⟩ := hqueue session' hsession'
    obtain ⟨l, r, r', hout⟩ := h.outstanding hbefore session hsession
    refine ⟨l, r, r', hsame.trans hout.queue, ?_, hout.pending, ?_, fun hb => ?_⟩
    · rw [hreaders]
      exact hout.reader
    · rw [hdecrypted]
      exact hout.produced.trans (plaintextsFor_mono hproduced)
    · obtain ⟨hb', hplain, hwriters⟩ := hwriter hb
      rw [hdecrypted, hplain, hwriters]
      exact hout.writer hb'

theorem Linked.write {now : ℕ} (h : Linked D Matched Synced s A B) (hS : S.InOrder Matched Synced)
    (hlive : ¬Dead (s.comms B).phase) (payload : Payload I R1 R2) {msg : Bytes}
    (hencrypt : (s.comms B).cipher.encrypt A (D.codec.encode payload) = (.ok msg, (s'.comms B).cipher))
    (hproduced : (s'.comms B).produced = (s.comms B).produced ++ [(A, payload)])
    (hdecrypted : (s'.comms A).decrypted = (s.comms A).decrypted)
    (hreader : ¬Dead (s'.comms A).phase → ¬Dead (s.comms A).phase ∧
      (s'.comms A).cipher.recvNoiseMap = (s.comms A).cipher.recvNoiseMap)
    (hsend : (send now s.server (D.user B) ⟨D.sessionId, [A], msg⟩).1 = .ok ())
    (hserver : s'.server = (send now s.server (D.user B) ⟨D.sessionId, [A], msg⟩).2) :
    Linked D Matched Synced s' A B where
  decrypted := by
    rw [hdecrypted, hproduced]
    exact h.decrypted.trans (plaintextsFor_mono (List.prefix_append _ _))
  outstanding hlive' session' hsession' := by
    obtain ⟨hbefore, hreaders⟩ := hreader hlive'
    obtain ⟨noise, noise', hlookup, hwrite, hcipher⟩ := Cipher.encrypt_ok_iff.mp hencrypt
    obtain ⟨session, session₁, hsession, hsession₁, -, hmessages⟩ := record_send hsend
    rw [← hserver] at hsession₁
    obtain rfl := Option.some.inj (hsession₁.symm.trans hsession')
    obtain ⟨l, r, r', hout⟩ := h.outstanding hbefore session hsession
    -- the message is read by the reader that is paired with the writer
    obtain ⟨hall, w, hw, hpaired⟩ := hout.writer hlive
    obtain rfl := Option.some.inj (hw.symm.trans hlookup)
    obtain ⟨r'', hread, hpaired'⟩ := Noise.channel_inOrder hS hpaired hwrite
    have hplain : messagesFrom B (s'.comms A).decrypted ++
        (l ++ [(D.codec.encode payload, msg)]).map Prod.fst = plaintextsFor D A (s'.comms B).produced := by
      rw [List.map_append, ← List.append_assoc, hdecrypted, hall, hproduced, plaintextsFor_append,
        plaintextsFor_singleton, if_pos rfl]
      rfl
    refine ⟨l ++ [(D.codec.encode payload, msg)], r, r'', ?_, ?_, hout.pending.snoc hread,
      hplain ▸ List.prefix_rfl, fun _ => ⟨hplain, noise', ?_, hpaired'⟩⟩
    · rw [hmessages, if_pos rfl, messagesFrom_append, hout.queue, messagesFrom_singleton, if_pos rfl,
        List.map_append]
      rfl
    · rw [hreaders]
      exact hout.reader
    · rw [hcipher]
      exact Map.lookup_insert_self _ _ _

section Read

variable [LinearOrder I] [DecidableEq R1] {session : Frostd.Session}

theorem Linked.read (h : Linked D Matched Synced s A B) (hlive : ¬Dead (s.comms A).phase)
    (hsession : D.record s.server = some session) {c : HTTPComms S I R1 R2}
    (hbatch : (s.comms A).recvBatch D A (session.messages (.participant A)) = (.ok (), c))
    (hdecrypted : (s'.comms A).decrypted = c.decrypted)
    (hreaders : (s'.comms A).cipher.recvNoiseMap = c.cipher.recvNoiseMap)
    (hproduced : (s'.comms B).produced = (s.comms B).produced)
    (hwriter : ¬Dead (s'.comms B).phase → ¬Dead (s.comms B).phase ∧
      (s'.comms B).cipher.sendNoiseMap = (s.comms B).cipher.sendNoiseMap)
    (hqueue : ∀ session', D.record s'.server = some session' →
      session'.messages (.participant A) = []) : Linked D Matched Synced s' A B := by
  obtain ⟨l, r, r', hout⟩ := h.outstanding hlive session hsession
  obtain ⟨l₀, l₁, rfl, hall, hok⟩ := recvBatch_from (D := D) (c := s.comms A) hout.queue hout.reader
    hout.pending
  rw [hbatch] at hall hok
  obtain ⟨rfl, hlookup⟩ := hok rfl
  rw [List.append_nil] at hout
  rw [← hdecrypted] at hall
  rw [← hreaders] at hlookup
  refine ⟨?_, fun _ session' hsession' => ⟨[], r', r', ?_, hlookup, .done rfl, ?_, fun hb => ?_⟩⟩
  · rw [hall, hproduced]
    exact hout.produced
  · rw [hqueue session' hsession']
    rfl
  · rw [List.map_nil, List.append_nil, hall, hproduced]
    exact hout.produced
  · obtain ⟨hb', hwriters⟩ := hwriter hb
    obtain ⟨hplain, w, hw, hpaired⟩ := hout.writer hb'
    rw [List.map_nil, List.append_nil, hall, hproduced, hwriters]
    exact ⟨hplain, w, hw, hpaired⟩

theorem Linked.giveUp (h : Linked D Matched Synced s A B) (hlive : ¬Dead (s.comms A).phase)
    (hsession : D.record s.server = some session) (hdead : Dead (s'.comms A).phase)
    (hdecrypted : (s'.comms A).decrypted =
      ((s.comms A).recvBatch D A (session.messages (.participant A))).2.decrypted)
    (hproduced : (s'.comms B).produced = (s.comms B).produced) : Linked D Matched Synced s' A B where
  decrypted := by
    obtain ⟨l, r, r', hout⟩ := h.outstanding hlive session hsession
    obtain ⟨l₀, l₁, rfl, hall, -⟩ := recvBatch_from (D := D) (c := s.comms A) hout.queue hout.reader
      hout.pending
    have hle := hout.produced
    rw [List.map_append, ← List.append_assoc] at hle
    rw [hdecrypted, hproduced]
    change messagesFrom B ((s.comms A).recvBatch D A _).2.decrypted <+: _
    rw [hall]
    exact (List.prefix_append _ _).trans hle
  outstanding hlive' := absurd hdead hlive'

end Read

theorem Linked.advance {c : HTTPComms S I R1 R2} {app : AppState} {letter : Option (Letter I R1 R2)}
    (h : Linked D Matched Synced s A B) (hproduced : (s.comms self).produced <+: c.produced)
    (hreader : A = self → c.decrypted = (s.comms self).decrypted ∧
      (¬Dead c.phase → ¬Dead (s.comms self).phase ∧
        c.cipher.recvNoiseMap = (s.comms self).cipher.recvNoiseMap))
    (hwriter : B = self → ¬Dead c.phase → ¬Dead (s.comms self).phase ∧
      plaintextsFor D A c.produced = plaintextsFor D A (s.comms self).produced ∧
      c.cipher.sendNoiseMap.lookup A = (s.comms self).cipher.sendNoiseMap.lookup A)
    (hqueue : ∀ session', D.record app = some session' → ∃ session,
      D.record s.server = some session ∧ messagesFrom B (session'.messages (.participant A)) =
        messagesFrom B (session.messages (.participant A))) :
    Linked D Matched Synced (s.advance self c app letter) A B := by
  refine h.quiet ?_ ?_ ?_ ?_ hqueue
  · by_cases hB : B = self
    · rw [hB, Network.comms_advance_self]
      exact hproduced
    · rw [Network.comms_advance_of_ne _ _ _ _ hB]
  · by_cases hA : A = self
    · rw [hA, Network.comms_advance_self]
      exact (hreader hA).1
    · rw [Network.comms_advance_of_ne _ _ _ _ hA]
  · by_cases hA : A = self
    · rw [hA, Network.comms_advance_self]
      exact (hreader hA).2
    · rw [Network.comms_advance_of_ne _ _ _ _ hA]
      exact fun hlive => ⟨hlive, rfl⟩
  · by_cases hB : B = self
    · rw [hB, Network.comms_advance_self]
      exact hwriter hB
    · rw [Network.comms_advance_of_ne _ _ _ _ hB]
      exact fun hlive => ⟨hlive, rfl, rfl⟩

section Step

variable [LinearOrder I] [DecidableEq R1] {c : HTTPComms S I R1 R2} {app : AppState}
  {letter : Option (Letter I R1 R2)} {now : ℕ} {order : List PublicKey}

theorem writer_of_recvBatch (app : AppState) (letter : Option (Letter I R1 R2)) {msgs : List Msg}
    {phase : Phase I R1 R2}
    (hlive : ¬Dead (s.comms self).phase)
    (hc : c = { ((s.comms self).recvBatch D self msgs).2 with phase }) :
    ((s.advance self c app letter).comms B).produced = (s.comms B).produced ∧
      (¬Dead ((s.advance self c app letter).comms B).phase → ¬Dead (s.comms B).phase ∧
        ((s.advance self c app letter).comms B).cipher.sendNoiseMap =
          (s.comms B).cipher.sendNoiseMap) := by
  by_cases hB : B = self
  · subst hB
    rw [Network.comms_advance_self, hc]
    exact ⟨(recvBatch_frame D B (s.comms B) msgs).1, fun _ =>
      ⟨hlive, recvBatch_sendNoiseMap D B (s.comms B) msgs⟩⟩
  · rw [Network.comms_advance_of_ne _ _ _ _ hB]
    exact ⟨rfl, fun hlive' => ⟨hlive', rfl⟩⟩

theorem Linked.receive (h : Linked D Matched Synced s A B) (hlive : ¬Dead (s.comms self).phase)
    {msgs : List Msg} {phase : Phase I R1 R2}
    (hreceive : (receive now s.server (D.user self) ⟨D.sessionId, false⟩).1 = .ok msgs)
    (hc : c = { ((s.comms self).recvBatch D self msgs).2 with phase })
    (hok : ((s.comms self).recvBatch D self msgs).1 = .ok () ∨ Dead phase) :
    Linked D Matched Synced
      (s.advance self c (receive now s.server (D.user self) ⟨D.sessionId, false⟩).2 letter) A B := by
  obtain ⟨session, session₁, hsession, rfl, hsession₁, -, hmessages⟩ := record_receive hreceive
  obtain ⟨hproduced, hwriter⟩ := writer_of_recvBatch (B := B)
    (Frostd.receive now s.server (D.user self) ⟨D.sessionId, false⟩).2 letter hlive hc
  by_cases hA : A = self
  · subst hA
    rcases hok with hok | hdead
    · refine h.read hlive hsession (Prod.ext hok rfl) ?_ ?_ hproduced hwriter
        fun session' hsession' => ?_
      · rw [Network.comms_advance_self, hc]
      · rw [Network.comms_advance_self, hc]
      · obtain rfl := Option.some.inj (hsession₁.symm.trans hsession')
        rw [hmessages, if_pos rfl]
    -- a batch that is left in the middle is lost, but its reader has given up
    · refine h.giveUp hlive hsession ?_ ?_ hproduced
      · rw [Network.comms_advance_self, hc]
        exact hdead
      · rw [Network.comms_advance_self, hc]
  · refine h.quiet (hproduced ▸ List.prefix_rfl) ?_ ?_ (fun hb => ?_) fun session' hsession' => ?_
    · rw [Network.comms_advance_of_ne _ _ _ _ hA]
    · rw [Network.comms_advance_of_ne _ _ _ _ hA]
      exact fun hlive' => ⟨hlive', rfl⟩
    · obtain ⟨hb', hwriters⟩ := hwriter hb
      rw [hproduced, hwriters]
      exact ⟨hb', rfl, rfl⟩
    · obtain rfl := Option.some.inj (hsession₁.symm.trans hsession')
      exact ⟨session, hsession, by rw [hmessages, if_neg hA]⟩

theorem Linked.step (h : Linked D Matched Synced s A B) (hS : S.InOrder Matched Synced)
    (hstep : Steps D self now order s.server (s.comms self) c app letter) :
    Linked D Matched Synced (s.advance self c app letter) A B := by
  have hsame : ∀ session', D.record s.server = some session' → ∃ session,
      D.record s.server = some session ∧ messagesFrom B (session'.messages (.participant A)) =
        messagesFrom B (session.messages (.participant A)) :=
    fun session' hsession' => ⟨session', hsession', rfl⟩
  cases hstep with
  | sent stage recipient payload todo msg cipher hphase hencrypt hsend =>
    have hlive : ¬Dead (s.comms self).phase := by rw [hphase]; exact not_false
    have hreaders : ((s.comms self).cipher.encrypt recipient (D.codec.encode payload)).2.recvNoiseMap =
        (s.comms self).cipher.recvNoiseMap := Cipher.encrypt_recvNoiseMap _ _
    rw [hencrypt] at hreaders
    -- every other message leaves the queue from `B` to `A` and both Noise states alone
    by_cases hw : B = self ∧ A = recipient
    · obtain ⟨rfl, rfl⟩ := hw
      refine h.write hS hlive payload ?_ ?_ ?_ ?_ hsend rfl
      · rw [Network.comms_advance_self]
        exact hencrypt
      · rw [Network.comms_advance_self]
      · by_cases hA : A = B
        · rw [hA, Network.comms_advance_self]
        · rw [Network.comms_advance_of_ne _ _ _ _ hA]
      · by_cases hA : A = B
        · rw [hA, Network.comms_advance_self]
          exact fun _ => ⟨hlive, hreaders⟩
        · rw [Network.comms_advance_of_ne _ _ _ _ hA]
          exact fun hlive' => ⟨hlive', rfl⟩
    · obtain ⟨noise, noise', hlookup, -, hcipher⟩ := Cipher.encrypt_ok_iff.mp hencrypt
      refine h.advance (List.prefix_append _ _) (fun _ => ⟨rfl, fun _ => ⟨hlive, hreaders⟩⟩)
        (fun hB _ => ⟨hlive, ?_, ?_⟩) fun session' hsession' => ?_
      · have hne : recipient ≠ A := fun heq => hw ⟨hB, heq.symm⟩
        rw [plaintextsFor_append, plaintextsFor_singleton, if_neg hne, List.append_nil]
      · change cipher.sendNoiseMap.lookup A = _
        rw [hcipher]
        exact (Map.lookup_insert _ _ _ _).trans (if_neg fun heq => hw ⟨hB, heq⟩)
      · obtain ⟨session, session₁, hsession, hsession₁, -, hmessages⟩ := record_send hsend
        obtain rfl := Option.some.inj (hsession₁.symm.trans hsession')
        refine ⟨session, hsession, ?_⟩
        rw [hmessages, messagesFrom_append]
        split_ifs with hrecipient
        · rw [messagesFrom_singleton, if_neg fun heq => hw ⟨heq.symm, hrecipient⟩, List.append_nil]
        · exact List.append_nil _
  | received stage msgs c₁ phase hphase hreceive hbatch _ =>
    have hlive : ¬Dead (s.comms self).phase := by rw [hphase]; exact not_false
    exact h.receive hlive hreceive (by rw [hbatch]) (.inl (by rw [hbatch]))
  | rejected stage msgs phase hphase hreceive _ hdead _ =>
    have hlive : ¬Dead (s.comms self).phase := by rw [hphase]; exact not_false
    exact h.receive hlive hreceive rfl (.inr hdead)
  -- a message that was encrypted and not sent is outstanding for nobody, as its writer gives up
  | stopped cipher produced phase _ hdead _ _ _ =>
    exact h.advance (List.prefix_append _ _) (fun _ => ⟨rfl, fun hlive => absurd hdead hlive⟩)
      (fun _ hlive => absurd hdead hlive) hsame
  | part2 r1 r2 hphase _ =>
    have hlive : ¬Dead (s.comms self).phase := by rw [hphase]; exact not_false
    exact h.advance List.prefix_rfl (fun _ => ⟨rfl, fun _ => ⟨hlive, rfl⟩⟩)
      (fun _ _ => ⟨hlive, rfl, rfl⟩) hsame
  | closed hphase _ =>
    have hlive : ¬Dead (s.comms self).phase := by rw [hphase]; exact not_false
    exact h.advance List.prefix_rfl (fun _ => ⟨rfl, fun _ => ⟨hlive, rfl⟩⟩)
      (fun _ _ => ⟨hlive, rfl, rfl⟩)
      fun session' hsession' => hsame session' (record_of_closeSession hsession')
  | loggedOut hphase =>
    have hlive : ¬Dead (s.comms self).phase := by rw [hphase]; exact not_false
    obtain ⟨phase, heq, -⟩ := enter_eq (c := s.comms self) Phase.finished
      (s.comms self).state.round2Packages
    rw [heq]
    exact h.advance List.prefix_rfl (fun _ => ⟨rfl, fun _ => ⟨hlive, rfl⟩⟩)
      (fun _ _ => ⟨hlive, rfl, rfl⟩) hsame
  | cleaned _ _ =>
    exact h.advance List.prefix_rfl (fun _ => ⟨rfl, fun hlive => absurd trivial hlive⟩)
      (fun _ hlive => absurd trivial hlive)
      fun session' hsession' => hsame session' (record_of_closeSession hsession')

end Step

section Runs

variable [LinearOrder I] [DecidableEq R1] {corrupted : Finset PublicKey}

omit [LinearOrder I] [DecidableEq R1] in
theorem linked_start (hS : S.InOrder Matched Synced) {now : ℕ} {app : AppState}
    {order : PublicKey → List PublicKey} (horder : ∀ pubkey, D.Iterates (order pubkey))
    (hA : A ∈ D.members) (hB : B ∈ D.members) :
    Linked D Matched Synced (Network.start D now app order : Network S I R1 R2) A B := by
  have hproduced := (start_cases (S := S) D B (order B)).1
  have hdecrypted : (start D A (order A) : HTTPComms S I R1 R2).decrypted = [] := by
    unfold start
    split <;> rfl
  refine ⟨?_, fun hlive session hsession => ?_⟩
  · change messagesFrom B (start D A (order A) : HTTPComms S I R1 R2).decrypted <+: _
    rw [hdecrypted]
    exact List.nil_prefix
  · obtain rfl := Option.some.inj ((record_start D now app).symm.trans hsession)
    have hnew := (start_cases (S := S) D A (order A)).2.2 hlive
    have hmem := ((horder A).mem_iff).mpr hB
    obtain ⟨_, recvNoise, -, hr⟩ := Cipher.build_of_new hnew hmem
    refine ⟨[], .new recvNoise, .new recvNoise, rfl, ?_, .done rfl, ?_, fun hb => ⟨?_, ?_⟩⟩
    · rw [Network.start, (Cipher.lookup_new hnew B).2, if_pos hmem, hr]
      rfl
    · change messagesFrom B (start D A (order A) : HTTPComms S I R1 R2).decrypted ++ [] <+: _
      rw [hdecrypted]
      exact List.nil_prefix
    · change messagesFrom B (start D A (order A) : HTTPComms S I R1 R2).decrypted ++ [] =
        plaintextsFor D A (start D B (order B) : HTTPComms S I R1 R2).produced
      rw [hdecrypted, hproduced]
      rfl
    -- both ciphers were built, from the same two keys
    · have hnew' := (start_cases (S := S) D B (order B)).2.2 hb
      have hmem' := ((horder B).mem_iff).mpr hA
      obtain ⟨sendNoise, _, hs, -⟩ := Cipher.build_of_new hnew' hmem'
      refine ⟨.new sendNoise, ?_, .handshake (hS.build hs hr)⟩
      rw [Network.start, (Cipher.lookup_new hnew' A).1, if_pos hmem', hs]
      rfl

theorem linked_of_reachable (hS : S.InOrder Matched Synced)
    (h : (Network.system S D corrupted).Reachable s) (hA : A ∈ D.members) (hB : B ∈ D.members)
    (hAhonest : A ∉ corrupted) (hBhonest : B ∉ corrupted) : Linked D Matched Synced s A B := by
  refine TransitionSystem.Reachable.invariant (P := fun s => Linked D Matched Synced s A B) ?_ ?_ h
  · rintro s ⟨now, app, order, horder, rfl⟩
    exact linked_start hS horder hA hB
  · intro s a s' _ hs hstep
    cases Network.steps_of_step hstep with
    | participant self now order c app letter _ _ _ hc => exact hs.step hS (steps_of_step hc)
    | corrupted user now request huser hrecreates =>
      refine hs.quiet List.prefix_rfl rfl (fun hlive => ⟨hlive, rfl⟩) (fun hlive => ⟨hlive, rfl, rfl⟩)
        fun session' hsession' => record_of_handle hrecreates ?_ ?_ hsession'
      · rintro rfl
        exact hAhonest huser
      · rintro rfl
        exact hBhonest huser

omit [LinearOrder I] [DecidableEq R1] in
theorem readsMembers_start {order : List PublicKey} (horder : D.Iterates order) :
    ReadsMembers D (start D self order : HTTPComms S I R1 R2) where
  readers hlive q hq := by
    obtain ⟨noise, hnoise⟩ := Map.mem_keys_iff.mp hq
    rw [(Cipher.lookup_new ((start_cases D self order).2.2 hlive) q).2] at hnoise
    exact horder.mem_iff.mp (Option.ite_none_right_eq_some.mp hnoise).1
  decrypted plain hplain := by
    unfold start at hplain
    split at hplain <;> cases hplain

theorem ReadsMembers.step {c c' : HTTPComms S I R1 R2} {now : ℕ} {order : List PublicKey}
    {app app' : AppState} {letter : Option (Letter I R1 R2)} (h : ReadsMembers D c)
    (hstep : Steps D self now order app c c' app' letter) : ReadsMembers D c' := by
  cases hstep with
  | sent stage recipient payload todo msg cipher hphase hencrypt _ =>
    have hreaders : (c.cipher.encrypt recipient (D.codec.encode payload)).2.recvNoiseMap =
        c.cipher.recvNoiseMap := Cipher.encrypt_recvNoiseMap _ _
    rw [hencrypt] at hreaders
    refine ⟨fun _ q hq => h.readers (by rw [hphase]; exact not_false) q ?_, h.decrypted⟩
    rwa [← hreaders]
  | received stage msgs c₁ phase hphase _ hbatch _ =>
    have hlive : ¬Dead c.phase := by rw [hphase]; exact not_false
    have hmembers := readsMembers_recvBatch self h hlive msgs
    have hsame := (recvBatch_frame D self c msgs).2
    rw [hbatch] at hmembers hsame
    exact ⟨fun _ => hmembers.readers (by rwa [hsame]), hmembers.decrypted⟩
  | rejected stage msgs phase hphase _ _ hdead _ =>
    have hlive : ¬Dead c.phase := by rw [hphase]; exact not_false
    exact ⟨fun hlive' => absurd hdead hlive', (readsMembers_recvBatch self h hlive msgs).decrypted⟩
  | stopped _ _ _ _ hdead _ _ _ => exact ⟨fun hlive' => absurd hdead hlive', h.decrypted⟩
  | part2 _ _ hphase _ =>
    exact ⟨fun _ => h.readers (by rw [hphase]; exact not_false), h.decrypted⟩
  | closed hphase _ => exact ⟨fun _ => h.readers (by rw [hphase]; exact not_false), h.decrypted⟩
  | loggedOut hphase =>
    obtain ⟨phase, heq, -⟩ := enter_eq (c := c) Phase.finished c.state.round2Packages
    rw [heq]
    exact ⟨fun _ => h.readers (by rw [hphase]; exact not_false), h.decrypted⟩
  | cleaned _ _ => exact ⟨fun hlive' => absurd trivial hlive', h.decrypted⟩

theorem sender_of_decrypted (h : (Network.system S D corrupted).Reachable s) (self : PublicKey) :
    ∀ plain ∈ (s.comms self).decrypted, plain.sender ∈ D.members :=
  (Network.invariant_comms (P := fun _ c => ReadsMembers D c) (fun _ _ => readsMembers_start)
    (fun _ _ _ _ _ _ _ _ _ _ hc hstep => hc.step (steps_of_step hstep)) h self).decrypted

theorem authentic_of_reachable (hS : S.InOrder Matched Synced)
    (h : (Network.system S D corrupted).Reachable s) : s.Authentic D corrupted := by
  intro self hself hhonest plain hplain hsender
  have hlinked := linked_of_reachable hS h hself (sender_of_decrypted h self plain hplain) hhonest hsender
  have hmem : plain.msg ∈ messagesFrom plain.sender (s.comms self).decrypted :=
    List.mem_map_of_mem (List.mem_filter.mpr ⟨hplain, decide_eq_true rfl⟩)
  obtain ⟨e, he, hencode⟩ := List.mem_map.mp (hlinked.decrypted.subset hmem)
  obtain ⟨hproduced, hrecipient⟩ := List.mem_filter.mp he
  exact ⟨e, hproduced, of_decide_eq_true hrecipient, hencode.symm⟩

/-- Whatever corrupted users do, what an honest participant decrypts from another one is what that one
encrypted for it, in the same order, and while both go on and the session is open the queue holds the
rest, in ciphertexts that its Noise state will decrypt. -/
theorem honest_channel_faithful (hS : S.InOrder Matched Synced)
    (h : (Network.system S D corrupted).Reachable s) (hA : A ∈ D.members) (hB : B ∈ D.members)
    (hAhonest : A ∉ corrupted) (hBhonest : B ∉ corrupted) :
    messagesFrom B (s.comms A).decrypted <+: plaintextsFor D A (s.comms B).produced ∧
    ∀ session, D.record s.server = some session → ¬Dead (s.comms A).phase → ¬Dead (s.comms B).phase →
      ∃ (rest : List (Bytes × Bytes)) (noise noise' : Noise S),
        messagesFrom B (session.messages (.participant A)) = rest.map Prod.snd ∧
        (s.comms A).cipher.recvNoiseMap.lookup B = some noise ∧
        (Noise.channel S).Pending Eq noise' noise rest ∧
        messagesFrom B (s.comms A).decrypted ++ rest.map Prod.fst =
          plaintextsFor D A (s.comms B).produced := by
  have hlinked := linked_of_reachable hS h hA hB hAhonest hBhonest
  refine ⟨hlinked.decrypted, fun session hsession hlive hlive' => ?_⟩
  obtain ⟨rest, noise, noise', hout⟩ := hlinked.outstanding hlive session hsession
  exact ⟨rest, noise, noise', hout.queue, hout.reader, hout.pending, (hout.writer hlive').1⟩

end Runs

/-- What the first of three participants decrypts from the second, while the third sends different
packages to the two. -/
theorem honest_channel_faithful_trio : ∃ s,
    (Network.system Network.sampleSnow Network.trio {⟨[3]⟩}).Run Network.corruptedRun s ∧
    (messagesFrom ⟨[2]⟩ (s.comms ⟨[1]⟩).decrypted).length = 2 ∧
    messagesFrom ⟨[2]⟩ (s.comms ⟨[1]⟩).decrypted <+:
      plaintextsFor Network.trio ⟨[1]⟩ (s.comms ⟨[2]⟩).produced := by
  obtain ⟨s, hrun, hlength⟩ := Network.exists_run_of_sampleExec Network.trio {⟨[3]⟩} (fun _ => True)
    (fun s => (messagesFrom ⟨[2]⟩ (s.comms ⟨[1]⟩).decrypted).length = 2)
    Network.corruptedRun (by decide) trivial (by decide +kernel)
  exact ⟨s, hrun.of_within, hlength, (honest_channel_faithful Network.sampleSnow_inOrder
    hrun.of_within.reachable (by decide) (by decide) (by decide) (by decide)).1⟩

end FrostTools.Dkg
