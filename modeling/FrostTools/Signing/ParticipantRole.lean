import FrostTools.Signing.Roles

namespace FrostTools.Signing.Http.Participant
open Api Client Setup

variable {C : Ciphersuite} {D : Setup C} {S : Snow} {verify : Frostd.Verifier} {sid : Uuid}
  {X : Script D S verify} {p : D.Signer} {Matches : C.SigningNonces → C.SigningCommitments → Prop}
  {Verifies : Option C.Randomizer → Bytes → C.Signature → Prop} (hfits : D.Fits sid)
  (hlawful : D.Lawful) (hcomplete : D.Complete Matches Verifies)

/-- The Noise states of a participant, by the numbers of messages to and from the coordinator. -/
structure CipherAt (X : Script D S verify) (p : D.Signer) (cipher : Cipher S) (written read : ℕ) :
    Prop where
  only : cipher.sendNoiseMap.onlyKey = some D.coordinator
  send : cipher.sendNoiseMap.lookup D.coordinator = some ((X.up p).writer written)
  recv : cipher.recvNoiseMap.lookup D.coordinator = some ((X.down p).reader read)

theorem exists_cipher (X : Script D S verify) (p : D.Signer) :
    ∃ cipher, Cipher.new p [D.coordinator] = some cipher ∧ CipherAt X p cipher 0 0 := by
  obtain ⟨cipher, hcipher⟩ : ∃ cipher : Cipher S, Cipher.new p [D.coordinator] = some cipher := by
    refine Cipher.exists_new fun q hq => ?_
    rw [List.mem_singleton.mp hq]
    obtain ⟨sendNoise, hsend, -⟩ := Option.map_eq_some_iff.mp (X.up_writer p)
    obtain ⟨recvNoise, hrecv, -⟩ := Option.map_eq_some_iff.mp (X.down_reader p)
    exact ⟨sendNoise, recvNoise, hsend, hrecv⟩
  obtain ⟨hsend, hrecv⟩ := Cipher.lookup_new hcipher D.coordinator
  rw [if_pos List.mem_cons_self] at hsend hrecv
  exact ⟨cipher, hcipher, (Cipher.forOne_new hcipher).onlyKey, hsend.trans (X.up_writer p),
    hrecv.trans (X.down_reader p)⟩

theorem CipherAt.encrypt {cipher : Cipher S} {written read : ℕ} (h : CipherAt X p cipher written read)
    (hwritten : written < 2) : ∃ cipher', Http.encrypt cipher none (D.uplink p written) =
      .ok ((X.up p).sent written, cipher') ∧ CipherAt X p cipher' (written + 1) read := by
  have hwrite := (X.up p).write written hwritten
  refine ⟨_, encrypt_none_eq_ok_iff.mpr ⟨D.coordinator, ?_, Cipher.encrypt_ok_iff.mpr
    ⟨_, _, h.send, hwrite, rfl⟩⟩, ?_, ?_, h.recv⟩
  · rw [Cipher.recipient, h.only]
  · rw [Map.onlyKey_eq_some_iff, Map.keys_insert,
      Finset.insert_eq_of_mem (Map.mem_keys_of_lookup h.send)]
    exact Map.onlyKey_eq_some_iff.mp h.only
  · exact Map.lookup_insert_self _ _ _

theorem CipherAt.decrypt {cipher : Cipher S} {written : ℕ} (h : CipherAt X p cipher written 0) :
    ∃ cipher', cipher.decrypt ⟨D.coordinator, (X.down p).sent 0⟩ =
      (.ok ⟨D.coordinator, D.lib.configToVec D.config⟩, cipher') ∧ CipherAt X p cipher' written 1 := by
  have hread := (X.down p).read 0 Nat.zero_lt_one
  refine ⟨_, Cipher.decrypt_ok_iff.mpr ⟨D.lib.configToVec D.config,
    cipher.recvNoiseMap.insert D.coordinator ((X.down p).reader 1), ?_, rfl, rfl⟩, h.only, h.send, ?_⟩
  · rw [Channel.readFrom, h.recv]
    simp only [hread, Option.map_some]
    rfl
  · exact Map.lookup_insert_self _ _ _

theorem plays_sendToCoordinator {cipher : Cipher S} {s : HTTPComms S} {t : Uuid} {written read : ℕ}
    {φ φ' : Phase C.Package} {E : Failure → Phase C.Package → Prop}
    {Q : Cipher S → HTTPComms S → Phase C.Package → Prop}
    (hcipher : CipherAt X p cipher written read) (hwritten : written < 2)
    (hnext : (X.participantRole sid p).next φ =
      some ⟨.http (some t) (.send ⟨sid, [], (X.up p).sent written⟩), fun answer φ₁ =>
        answer = .ok () ∧ φ₁ = φ'⟩)
    (hdone : ∀ cipher', CipherAt X p cipher' (written + 1) read →
      Q cipher' { s with cipher := some cipher' } φ') :
    (sendToCoordinator (some t) sid cipher (D.uplink p written)).Plays (X.participantRole sid p) E Q
      s φ := by
  obtain ⟨cipher', hencrypt, hcipher'⟩ := hcipher.encrypt hwritten
  apply Method.Plays.bind
  refine .lift hencrypt ?_
  apply Method.Plays.bind
  refine .modify ?_
  apply Method.Plays.bind
  refine plays_request hnext ?_ ?_
  · rintro _ _ ⟨-, rfl⟩
    exact .pure (hdone cipher' hcipher')
  · rintro e _ ⟨⟨⟩, -⟩

structure InSession (X : Script D S verify) (sid : Uuid) (p : D.Signer) (t : Uuid) (written read : ℕ)
    (comms : HTTPComms S) : Prop where
  accessToken : comms.accessToken = some t
  sessionId : comms.sessionId = some sid
  cipher : ∃ cipher, comms.cipher = some cipher ∧ CipherAt X p cipher written read

/-- Only a missing session makes a participant fail. -/
abbrev Fails (e : Failure) (φ : Phase C.Package) : Prop := (∃ t, φ = .failed t) ∧ NotFound e

include hfits in
theorem plays_findSession {s : HTTPComms S} {t : Uuid}
    {Q : Uuid → HTTPComms S → Phase C.Package → Prop} (hdone : Q sid s (.inquiring t)) :
    (findSession (D.sessionId p) (some t)).Plays (X.participantRole sid p) Fails Q s
      (if D.sessionId p = none then .listing t else .inquiring t) := by
  rcases hfits.sessionId p p.2 with hnone | hsome
  · rw [hnone, if_pos rfl]
    apply Method.Plays.bind
    refine plays_request rfl ?_ ?_
    · rintro _ _ (⟨⟨⟩, rfl⟩ | ⟨⟨⟩, rfl⟩)
      · exact .pure hdone
      · exact .fail ⟨⟨t, rfl⟩, .unlisted⟩
    · rintro e _ (⟨⟨⟩, -⟩ | ⟨⟨⟩, -⟩)
  · rw [hsome, if_neg (Option.some_ne_none sid)]
    exact .pure hdone

include hfits in
theorem plays_getMessageCount {s : HTTPComms S} {Q : UInt8 → HTTPComms S → Phase C.Package → Prop}
    (hs : s = .new (D.sessionId p) ⟨some p, some p, some (D.getter p)⟩)
    (hdone : ∀ t comms, InSession X sid p t 0 0 comms →
      Q (UInt8.ofNat D.numMessages) comms (.committing t)) :
    (getMessageCount D.lib).Plays (X.participantRole sid p) Fails Q s .start := by
  obtain ⟨cipher, hcipher, hat⟩ := exists_cipher X p
  subst hs
  unfold getMessageCount
  apply Method.Plays.bind
  refine .read ?_
  apply Method.Plays.bind
  refine plays_login (X.sign (some p)) rfl (fun c => rfl) ?_
  rintro c _ _ ⟨t, rfl, rfl⟩
  refine ⟨t, rfl, ?_⟩
  apply Method.Plays.bind
  refine .modify ?_
  apply Method.Plays.bind
  refine plays_findSession hfits ?_
  apply Method.Plays.bind
  refine .modify ?_
  apply Method.Plays.bind
  refine plays_request rfl ?_ ?_
  · rintro _ _ (⟨⟨⟩, rfl⟩ | ⟨⟨⟩, -⟩)
    apply Method.Plays.bind
    refine .lift (Outcome.okOr_eq_ok_iff.mpr (hfits.getter p p.2)) ?_
    apply Method.Plays.bind
    refine .lift (Outcome.okOr_eq_ok_iff.mpr hcipher) ?_
    apply Method.Plays.bind
    exact .modify (.pure (hdone t _ ⟨rfl, rfl, cipher, rfl, hat⟩))
  · rintro e _ (⟨⟨⟩, -⟩ | ⟨⟨⟩, rfl⟩)
    exact ⟨⟨t, rfl⟩, .unknown⟩

include hlawful in
theorem plays_getSigningPackage {s : HTTPComms S} {t : Uuid} {E : Failure → Phase C.Package → Prop}
    {Q : SendSigningPackageArgs C → HTTPComms S → Phase C.Package → Prop}
    (hs : InSession X sid p t 0 0 s)
    (hdone : ∀ comms, InSession X sid p t 1 1 comms → Q D.config comms (.ask t D.config.signingPackage)) :
    (getSigningPackage D.lib (D.commitmentList p)).Plays (X.participantRole sid p) E Q s
      (.committing t) := by
  obtain ⟨htoken, hsession, cipher, hcipher, hat⟩ := hs
  unfold getSigningPackage
  apply Method.Plays.bind
  refine .read ?_
  apply Method.Plays.bind
  refine .lift (expect_eq_ok_iff.mpr hcipher) ?_
  apply Method.Plays.bind
  refine .lift (expect_eq_ok_iff.mpr hsession) ?_
  rw [htoken]
  apply Method.Plays.bind
  change Method.Plays _ _ _ (sendToCoordinator (some t) sid cipher (D.uplink p 0)) _ _
  refine plays_sendToCoordinator hat Nat.zero_lt_two rfl fun cipher' hat' => ?_
  obtain ⟨cipher₁, hdecrypt, hat₁⟩ := hat'.decrypt
  refine Method.Plays.poll (fun cipher₀ s₀ φ => cipher₀ = cipher' ∧
    s₀ = { s with cipher := some cipher' } ∧ φ = .waiting t) ⟨rfl, rfl, rfl⟩ ?_
  rintro _ _ _ ⟨rfl, rfl, rfl⟩
  refine ⟨_, rfl, ?_⟩
  rintro _ _ (⟨rfl, rfl⟩ | ⟨rfl, rfl⟩)
  · exact .inl ⟨_, _, rfl, rfl, rfl, rfl⟩
  · refine .inr ⟨D.config, { s with cipher := some cipher₁ }, ?_,
      hdone _ ⟨htoken, hsession, cipher₁, rfl, hat₁⟩⟩
    simp only [turn, hdecrypt, Outcome.mapErr, Outcome.bind, hlawful.config]
    rfl

theorem plays_confirmMessage {s : HTTPComms S} {t : Uuid} {E : Failure → Phase C.Package → Prop}
    {Q : Unit → HTTPComms S → Phase C.Package → Prop} {config : SendSigningPackageArgs C}
    (hdone : Q () s (.sharing t)) :
    (confirmMessage config).Plays (X.participantRole sid p) E Q s
      (.ask t config.signingPackage) := by
  refine Method.Plays.foldM (fun _ left s' φ => s' = s ∧ φ = .ask t left) ⟨rfl, rfl⟩ ?_ ?_
  · rintro _ _ _ ⟨rfl, rfl⟩
    exact hdone
  · rintro _ package left _ _ ⟨rfl, rfl⟩
    apply Method.Plays.bind
    refine .query rfl ?_
    rintro _ _ rfl
    apply Method.Plays.bind
    refine plays_readLine rfl ?_
    rintro _ _ ⟨line, rfl, hline, rfl⟩
    refine ⟨line, rfl, ?_⟩
    rw [if_neg (not_not.mpr hline)]
    exact .pure ⟨rfl, rfl⟩

theorem plays_sendSignatureShare {s : HTTPComms S} {t : Uuid} {E : Failure → Phase C.Package → Prop}
    {Q : Unit → HTTPComms S → Phase C.Package → Prop} (hs : InSession X sid p t 1 1 s)
    (hdone : ∀ s', Q () s' .finished) :
    (sendSignatureShare D.lib (D.shareList p)).Plays (X.participantRole sid p) E Q s (.sharing t) := by
  obtain ⟨htoken, hsession, cipher, hcipher, hat⟩ := hs
  unfold sendSignatureShare
  apply Method.Plays.bind
  refine .read ?_
  apply Method.Plays.bind
  refine .lift (expect_eq_ok_iff.mpr hcipher) ?_
  apply Method.Plays.bind
  refine .lift (expect_eq_ok_iff.mpr hsession) ?_
  rw [htoken]
  apply Method.Plays.bind
  change Method.Plays _ _ _ (sendToCoordinator (some t) sid cipher (D.uplink p 1)) _ _
  refine plays_sendToCoordinator hat Nat.one_lt_two rfl fun cipher' _ => ?_
  apply Method.Plays.bind
  refine plays_request rfl ?_ ?_
  · rintro _ _ ⟨-, rfl⟩
    exact .modify (hdone _)
  · rintro e _ ⟨⟨⟩, -⟩

include hfits hlawful hcomplete in
theorem plays_participant (X : Script D S verify) (p : D.Signer) :
    (D.runParticipant S p).Plays (X.participantRole sid p) (fun r φ =>
      (φ = .finished ∧ r.1 = .ok ()) ∨
        ((∃ t, φ = .failed t) ∧ ∃ e, r.1 = .err e ∧ NotFound e)) .start := by
  have hcount : (UInt8.ofNat D.numMessages).toNat = D.numMessages :=
    UInt8.toNat_ofNat_of_lt (Nat.lt_succ_of_le hfits.numMessages.2)
  obtain ⟨rerandomized, hrerandomized⟩ : ∃ b, rerandomized C = .ok b := by
    unfold Signing.rerandomized
    cases hid : C.id with
    | other => exact absurd hid hfits.ciphersuite
    | _ => exact ⟨_, rfl⟩
  have hplays : (Signing.Participant.participant (comms (S := S) D.lib) ⟨D.keyPackage p⟩
      (D.commit p)).Plays (X.participantRole sid p) Fails (fun _ _ φ => φ = .finished)
      (.new (D.sessionId p) ⟨some p, some p, some (D.getter p)⟩) .start := by
    unfold Signing.Participant.participant Signing.Participant.receiveConfig
    apply Method.Plays.bind
    apply Method.Plays.bind
    refine plays_getMessageCount hfits rfl fun t s hs => ?_
    rw [hcount]
    apply Method.Plays.bind
    refine .lift hrerandomized ?_
    apply Method.Plays.bind
    rw [List.map_map, List.map_map]
    refine plays_getSigningPackage hlawful hs fun s₁ hs₁ => .pure ?_
    apply Method.Plays.bind
    refine plays_confirmMessage ?_
    apply Method.Plays.bind
    refine .lift (generateSignature_config hfits hlawful hcomplete p.2) ?_
    exact plays_sendSignatureShare hs₁ fun _ => rfl
  refine Program.Plays.mono hplays ?_
  rintro ⟨o, s⟩ φ (⟨_, rfl, hφ⟩ | ⟨e, rfl, hφ, he⟩)
  · exact .inl ⟨hφ, rfl⟩
  · exact .inr ⟨hφ, e, rfl, he⟩

end FrostTools.Signing.Http.Participant
