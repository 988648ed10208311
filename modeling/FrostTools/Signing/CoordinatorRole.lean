import FrostTools.Signing.Roles

namespace FrostTools.Signing.Http
open Api Client Setup

variable {C : Ciphersuite} {D : Setup C} {S : Snow} {verify : Frostd.Verifier}

/-- The Noise states of the coordinator, by the numbers of messages from and to each signer. -/
def Script.CipherAt (X : Script D S verify) (cipher : Cipher S) (read written : D.Signer → ℕ) : Prop :=
  ∀ p : D.Signer, cipher.sendNoiseMap.lookup p = some ((X.down p).writer (written p)) ∧
    cipher.recvNoiseMap.lookup p = some ((X.up p).reader (read p))

theorem Setup.length_eq_iff {got : List D.Signer} (hnodup : got.Nodup) :
    got.length = D.signers.len ↔ ∀ p, p ∈ got := by
  have hcard : Fintype.card D.Signer = D.signers.len := Fintype.card_coe _
  constructor
  · intro h p
    have huniv := (Finset.card_eq_iff_eq_univ got.toFinset).mp
      (by rw [List.toFinset_card_of_nodup hnodup, h, hcard])
    rw [← List.mem_toFinset, huniv]
    exact Finset.mem_univ p
  · intro h
    rw [← hcard, ← List.toFinset_card_of_nodup hnodup, Finset.card_eq_iff_eq_univ]
    exact Finset.eq_univ_of_forall fun p => List.mem_toFinset.mpr (h p)

theorem Setup.length_le {got : List D.Signer} (hnodup : got.Nodup) : got.length ≤ D.signers.len :=
  hnodup.length_le_card.trans_eq (Fintype.card_coe _)

theorem Setup.length_lt {got : List D.Signer} {p : D.Signer} (hnodup : got.Nodup) (hp : p ∉ got) :
    got.length ≠ D.signers.len := fun h => hp ((length_eq_iff hnodup).mp h p)

section State

variable (D)

def args : Session.CoordinatorSessionStateArgs := ⟨D.numMessages, D.signers.len⟩

def listsOf {V : Type} (list : PublicKey → V) (got : List D.Signer) : Map C.Identifier V :=
  Map.ofList (got.map fun p : D.Signer => (D.identifier p, list p))

/-- The session state with the messages of a round from some signers. The commitments are those of
all signers, in the order of the first round. -/
def stateAt (all : List D.Signer) : ℕ → List D.Signer → Coordinator.State C
  | 0, got =>
    if got.length = D.signers.len then
      .waitingForSignatureShares (args D) (listsOf D D.commitmentList got) D.signers ∅
    else .waitingForCommitments (args D) (listsOf D D.commitmentList got) D.signers
  | _ + 1, got =>
    if got.length = D.signers.len then .signatureSharesReady (args D) (listsOf D D.shareList got)
    else .waitingForSignatureShares (args D) (listsOf D D.commitmentList all) D.signers
      (listsOf D D.shareList got)

end State

variable {sid : Uuid} {Matches : C.SigningNonces → C.SigningCommitments → Prop}
  {Verifies : Option C.Randomizer → Bytes → C.Signature → Prop} (hfits : D.Fits sid)
  (hlawful : D.Lawful) (hcomplete : D.Complete Matches Verifies)

theorem listsOf_append_singleton {V : Type} (list : PublicKey → V) (got : List D.Signer)
    (p : D.Signer) :
    listsOf D list (got ++ [p]) = (listsOf D list got).insert (D.identifier p) (list p) := by
  rw [listsOf, List.map_append, List.map_singleton, Map.ofList_append_singleton]
  rfl

theorem keys_listsOf {V : Type} (list : PublicKey → V) (got : List D.Signer) :
    (listsOf D list got).keys = (got.toFinset.image fun p : D.Signer => D.identifier p) := by
  ext k
  rw [listsOf, Map.mem_keys_ofList]
  simp

include hfits in
theorem identifier_injective : Function.Injective fun p : D.Signer => D.identifier p :=
  fun p p' h => Subtype.ext (hfits.distinct p p.2 p' p'.2 h)

include hfits in
theorem len_listsOf {V : Type} (list : PublicKey → V) {got : List D.Signer} (hnodup : got.Nodup) :
    (listsOf D list got).len = got.length := by
  rw [Map.len, keys_listsOf, Finset.card_image_of_injective _ (identifier_injective hfits),
    List.toFinset_card_of_nodup hnodup]

include hfits in
theorem keys_listsOf_eq_iff {V W : Type} (list : PublicKey → V) (list' : PublicKey → W)
    {got all : List D.Signer} (hnodup : got.Nodup) (hall : ∀ p, p ∈ all) :
    (listsOf D list got).keys = (listsOf D list' all).keys ↔ got.length = D.signers.len := by
  rw [keys_listsOf, keys_listsOf, length_eq_iff hnodup,
    (Finset.image_injective (identifier_injective hfits)).eq_iff, Finset.ext_iff]
  simp only [List.mem_toFinset]
  exact forall_congr' fun p => iff_true_right (hall p)

include hfits hlawful hcomplete in
theorem recv_stateAt {all got : List D.Signer} {p : D.Signer} {round : ℕ}
    (hnodup : (got ++ [p]).Nodup) (hall : ∀ p, p ∈ all) :
    (stateAt D all round got).recv D.lib.decoder ⟨p, D.uplink p round⟩ =
      (.ok (), stateAt D all round (got ++ [p])) := by
  have hnew : p ∉ got := fun hp =>
    (List.nodup_append.mp hnodup).2.2 p hp p (List.mem_singleton_self p) rfl
  have hless := length_lt (List.Nodup.of_append_left hnodup) hnew
  have hlookup := hfits.identifier p p.2
  cases round with
  | zero =>
    have hlength : (D.commitmentList p).length = D.numMessages := by simp [commitmentList]
    simp only [stateAt, if_neg hless, Session.CoordinatorSessionState.recv, uplink, hlawful.commitments,
      Session.CoordinatorSessionState.handleCommitments, args, hlength, ne_eq, not_true_eq_false,
      ↓reduceIte, hlookup, ← listsOf_append_singleton, len_listsOf hfits _ hnodup]
    split_ifs <;> rfl
  | succ round =>
    have hlength := (shareList_spec hfits hlawful hcomplete p.2).1
    have hmem : D.identifier p ∈ (listsOf D D.commitmentList all).keys := by
      rw [keys_listsOf]
      exact Finset.mem_image.mpr ⟨p, List.mem_toFinset.mpr (hall p), rfl⟩
    simp only [stateAt, if_neg hless, Session.CoordinatorSessionState.recv, uplink, hlawful.shares,
      Session.CoordinatorSessionState.handleSignatureShare, args, hlength, ne_eq, not_true_eq_false,
      ↓reduceIte, hlookup, hmem, ← listsOf_append_singleton, keys_listsOf_eq_iff hfits _ _ hnodup hall]
    split_ifs <;> rfl

include hfits in
theorem nil_length_ne : ([] : List D.Signer).length ≠ D.signers.len :=
  Nat.ne_of_lt hfits.numSigners.2

theorem hasCommitments_iff {all : List D.Signer} (got : List D.Signer) :
    (stateAt D all 0 got).hasCommitments = true ↔ got.length = D.signers.len := by
  rw [stateAt]
  split_ifs with h
  · exact iff_of_true rfl h
  · exact iff_of_false (nofun) h

theorem hasSignatureShares_iff {all : List D.Signer} (got : List D.Signer) :
    (stateAt D all 1 got).hasSignatureShares = true ↔ got.length = D.signers.len := by
  rw [stateAt]
  split_ifs with h
  · exact iff_of_true rfl h
  · exact iff_of_false (nofun) h

include hfits hlawful in
theorem commitments_stateAt (all : List D.Signer) {got : List D.Signer} (hnodup : got.Nodup)
    (hgot : ∀ p, p ∈ got) :
    (stateAt D all 0 got).commitments =
      .ok ((List.range D.numMessages).map fun i => D.collect fun p => some (D.commitments p i),
        D.signers) := by
  have hvalue : ∀ p ∈ D.signers.keys, ∀ i < D.numMessages,
      (D.commitmentList p)[i]? = some (D.commitments p i) := fun p _ i hi => by
    simp [commitmentList, hi]
  have hlength : ∀ p ∈ D.signers.keys, (D.commitmentList p).length = D.numMessages := fun p _ => by
    simp [commitmentList]
  rw [stateAt, if_pos ((length_eq_iff hnodup).mpr hgot), Session.CoordinatorSessionState.commitments,
    args, listsOf, transpose_signers hfits hlawful hlength hvalue hgot]
  rfl

include hfits hlawful hcomplete in
theorem signatureShares_stateAt (all : List D.Signer) {got : List D.Signer} (hnodup : got.Nodup)
    (hgot : ∀ p, p ∈ got) : (stateAt D all 1 got).signatureShares =
      .ok ((List.range D.numMessages).map fun i => D.collect fun p => D.share p i) := by
  rw [stateAt, if_pos ((length_eq_iff hnodup).mpr hgot),
    Session.CoordinatorSessionState.signatureShares, args, listsOf]
  exact transpose_signers hfits hlawful (fun p hp => (shareList_spec hfits hlawful hcomplete hp).1)
    (fun p hp => (shareList_spec hfits hlawful hcomplete hp).2) hgot

namespace Coordinator

variable {X : Script D S verify}

def readAt (round : ℕ) (got : List D.Signer) (p : D.Signer) : ℕ := if p ∈ got then round + 1 else round

theorem decrypt_letter {cipher : Cipher S} {got : List D.Signer} {written : D.Signer → ℕ} {round : ℕ}
    {p : D.Signer} (hround : round < 2) (hcipher : X.CipherAt cipher (readAt round got) written)
    (hp : p ∉ got) : ∃ cipher', cipher.decrypt (X.letter round p) = (.ok ⟨p, D.uplink p round⟩, cipher') ∧
      X.CipherAt cipher' (readAt round (got ++ [p])) written := by
  have hread := (X.up p).read round hround
  have hlookup : cipher.recvNoiseMap.lookup p = some ((X.up p).reader round) := by
    rw [(hcipher p).2, readAt, if_neg hp]
  refine ⟨_, Cipher.decrypt_ok_iff.mpr ⟨D.uplink p round,
    cipher.recvNoiseMap.insert p ((X.up p).reader (round + 1)), ?_, rfl, rfl⟩,
    fun q => ⟨(hcipher q).1, ?_⟩⟩
  · rw [Channel.readFrom, Script.letter, hlookup]
    simp only [hread, Option.map_some]
  · rw [Map.lookup_insert]
    by_cases hq : q = p
    · rw [hq, if_pos rfl, readAt, if_pos (List.mem_append_right _ (List.mem_singleton_self p))]
    · rw [if_neg fun heq => hq (Subtype.ext heq), (hcipher q).2, readAt, readAt]
      simp only [List.mem_append, List.mem_singleton, hq, or_false]

include hfits hlawful hcomplete in
theorem recvBatch_letters {all got queue : List D.Signer} {cipher : Cipher S}
    {written : D.Signer → ℕ} {round : ℕ} (hround : round < 2) (hnodup : (got ++ queue).Nodup)
    (hall : ∀ p, p ∈ all) (hcipher : X.CipherAt cipher (readAt round got) written) :
    ∃ cipher', recvBatch D.lib (cipher, stateAt D all round got) (queue.map (X.letter round)) =
        (.ok (), cipher', stateAt D all round (got ++ queue)) ∧
      X.CipherAt cipher' (readAt round (got ++ queue)) written := by
  induction queue generalizing got cipher with
  | nil =>
    rw [List.append_nil]
    exact ⟨cipher, rfl, hcipher⟩
  | cons p queue ih =>
    rw [List.append_cons] at hnodup ⊢
    have hfirst := List.Nodup.of_append_left hnodup
    have hnew : p ∉ got := fun hp =>
      (List.nodup_append.mp hfirst).2.2 p hp p (List.mem_singleton_self p) rfl
    obtain ⟨cipher₁, hdecrypt, hcipher₁⟩ := decrypt_letter hround hcipher hnew
    obtain ⟨cipher', hbatch, hcipher'⟩ := ih hnodup hcipher₁
    refine ⟨cipher', ?_, hcipher'⟩
    rw [List.map_cons, recvBatch, hdecrypt]
    simp only [recv_stateAt hfits hlawful hcomplete hfirst hall]
    exact hbatch

include hfits hlawful hcomplete in
/-- The coordinator leaves a wait loop with the messages of all signers. -/
theorem plays_receiveUntil {exit : State C → Bool} {t : Uuid} {cipher : Cipher S} {comms : HTTPComms C S}
    {all : List D.Signer} {written : D.Signer → ℕ} {round : ℕ} {E : Failure → Phase D.Signer → Prop}
    {Q : Cipher S → HTTPComms C S → Phase D.Signer → Prop} (hround : round < 2)
    (hexit : ∀ got, exit (stateAt D all round got) = true ↔ got.length = D.signers.len)
    (hall : ∀ p, p ∈ all) (hcipher : X.CipherAt cipher (readAt round []) written)
    (hstate : comms.state = stateAt D all round [])
    (hdone : ∀ got cipher', (∀ p, p ∈ got) → got.Nodup → X.CipherAt cipher' (readAt round got) written →
      Q cipher' { comms with state := stateAt D all round got } (X.received t round got)) :
    (receiveUntil D.lib exit (some t) sid cipher).Plays (X.coordinatorRole sid) E Q comms
      (.receiving t round []) := by
  refine Method.Plays.poll (fun cipher comms' φ => ∃ got, φ = .receiving t round got ∧ got.Nodup ∧
    X.CipherAt cipher (readAt round got) written ∧
    comms' = { comms with state := stateAt D all round got }) ?_ ?_
  · exact ⟨[], rfl, List.nodup_nil, hcipher, by rw [← hstate]⟩
  · rintro cipher comms' _ ⟨got, rfl, -, hcipher, rfl⟩
    refine ⟨_, rfl, ?_⟩
    rintro _ _ ⟨queue, rfl, hnodup, rfl⟩
    obtain ⟨cipher', hbatch, hcipher'⟩ :=
      recvBatch_letters hfits hlawful hcomplete hround hnodup hall hcipher
    simp only [turn, hbatch]
    by_cases hlength : (got ++ queue).length = D.signers.len
    · rw [if_pos ((hexit _).mpr hlength)]
      exact .inr ⟨_, _, rfl, hdone _ _ ((length_eq_iff hnodup).mp hlength) hnodup hcipher'⟩
    · rw [if_neg fun h => hlength ((hexit _).mp h)]
      refine .inl ⟨_, _, rfl, got ++ queue, ?_, hnodup, hcipher', rfl⟩
      rw [Script.received, if_neg hlength]

structure Between (X : Script D S verify) (sid t : Uuid) (comms : HTTPComms C S) : Prop where
  accessToken : comms.accessToken = some t
  sessionId : comms.sessionId = some sid
  pubkeys : comms.pubkeys = D.signers
  cipher : ∃ cipher, comms.cipher = some cipher ∧ X.CipherAt cipher (fun _ => 1) fun _ => 0
  state : ∃ all, (∀ p, p ∈ all) ∧ comms.state = stateAt D all 1 []

include hlawful in
theorem exists_cipher (X : Script D S verify) :
    ∃ cipher, Cipher.new D.coordinator (D.lib.signersKeys D.signers) = some cipher ∧
      X.CipherAt cipher (fun _ => 0) fun _ => 0 := by
  have hkeys := hlawful.signersKeys.2
  obtain ⟨cipher, hcipher⟩ : ∃ cipher : Cipher S,
      Cipher.new D.coordinator (D.lib.signersKeys D.signers) = some cipher := by
    refine Cipher.exists_new fun p hp => ?_
    obtain ⟨sendNoise, hsend, -⟩ := Option.map_eq_some_iff.mp (X.down_writer ⟨p, (hkeys p).mp hp⟩)
    obtain ⟨recvNoise, hrecv, -⟩ := Option.map_eq_some_iff.mp (X.up_reader ⟨p, (hkeys p).mp hp⟩)
    exact ⟨sendNoise, recvNoise, hsend, hrecv⟩
  refine ⟨cipher, hcipher, fun p => ?_⟩
  obtain ⟨hsend, hrecv⟩ := Cipher.lookup_new hcipher p
  rw [if_pos ((hkeys p).mpr p.2)] at hsend hrecv
  exact ⟨hsend.trans (X.down_writer p), hrecv.trans (X.up_reader p)⟩

include hfits hlawful hcomplete in
theorem plays_getSigningCommitments {s : HTTPComms C S} {E : Failure → Phase D.Signer → Prop}
    {Q : List (Map C.Identifier C.SigningCommitments) → HTTPComms C S → Phase D.Signer → Prop}
    (hs : s = .new D.pargs ⟨D.signers, some D.coordinator, some D.coordinator⟩)
    (hdone : ∀ t comms, Between X sid t comms →
      Q ((List.range D.numMessages).map fun i => D.collect fun p => some (D.commitments p i)) comms
        (.send t X.order)) :
    (getSigningCommitments D.lib D.pargs.messages.length).Plays (X.coordinatorRole sid) E Q s .start := by
  have hstate : s.state = stateAt D X.order 0 [] := by
    rw [hs, stateAt, if_neg (nil_length_ne hfits), args, ← hfits.numSigners.1]
    rfl
  have hargs : s.args = ⟨D.signers, some D.coordinator, some D.coordinator⟩ := by rw [hs]; rfl
  have htoken : s.accessToken = none := by rw [hs]; rfl
  obtain ⟨cipher, hcipher, hat⟩ := exists_cipher hlawful X
  unfold getSigningCommitments
  apply Method.Plays.bind
  refine .read ?_
  dsimp only
  rw [hargs, htoken]
  apply Method.Plays.bind
  refine plays_login (X.sign none) rfl (fun c => rfl) ?_
  rintro c _ _ ⟨t, rfl, rfl⟩
  refine ⟨t, rfl, ?_⟩
  apply Method.Plays.bind
  refine .modify ?_
  apply Method.Plays.bind
  refine .lift (if_pos hfits.numMessages.2) ?_
  apply Method.Plays.bind
  refine plays_request rfl ?_ ?_
  · rintro _ _ ⟨⟨⟩, rfl⟩
    apply Method.Plays.bind
    refine .modify ?_
    apply Method.Plays.bind
    refine .lift rfl ?_
    apply Method.Plays.bind
    refine .lift (Outcome.okOr_eq_ok_iff.mpr hcipher) ?_
    apply Method.Plays.bind
    refine plays_receiveUntil hfits hlawful hcomplete Nat.zero_lt_two hasCommitments_iff
      (X.mem_order hlawful) hat hstate ?_
    · intro got cipher' hall hnodup hat'
      have hlength := (length_eq_iff hnodup).mpr hall
      rw [Script.received, if_pos hlength, if_pos rfl]
      apply Method.Plays.bind
      refine .modify ?_
      apply Method.Plays.bind
      refine .read ?_
      apply Method.Plays.bind
      refine .lift (Outcome.mapErr_eq_ok_iff.mpr
        (commitments_stateAt hfits hlawful X.order hnodup hall)) ?_
      apply Method.Plays.bind
      refine .modify (.pure (hdone t _ ⟨rfl, rfl, rfl, ⟨cipher', rfl, fun p => ?_⟩, got, hall, ?_⟩))
      · have hp := hat' p
        rwa [readAt, if_pos (hall p)] at hp
      · rw [stateAt, if_pos hlength, stateAt, if_neg (nil_length_ne hfits)]
        rfl
  · rintro e _ ⟨⟨⟩, -⟩

theorem encrypt_package {cipher : Cipher S} {p : D.Signer} {left : List D.Signer} (hp : p ∉ left)
    (hcipher : X.CipherAt cipher (fun _ => 1) fun q => if q ∈ p :: left then 0 else 1) :
    ∃ cipher', encrypt cipher (some p) (D.lib.configToVec D.config) =
        .ok ((X.down p).sent 0, cipher') ∧
      X.CipherAt cipher' (fun _ => 1) fun q => if q ∈ left then 0 else 1 := by
  have hwrite := (X.down p).write 0 Nat.zero_lt_one
  have hlookup : cipher.sendNoiseMap.lookup p = some ((X.down p).writer 0) := by
    rw [(hcipher p).1]
    dsimp only
    rw [if_pos List.mem_cons_self]
  refine ⟨_, encrypt_some_eq_ok_iff.mpr (Cipher.encrypt_ok_iff.mpr
    ⟨_, _, hlookup, hwrite, rfl⟩), fun q => ⟨?_, (hcipher q).2⟩⟩
  rw [Map.lookup_insert]
  by_cases hq : q = p
  · dsimp only
    rw [hq, if_pos rfl, if_neg hp]
  · rw [if_neg fun heq => hq (Subtype.ext heq), (hcipher q).1]
    simp only [List.mem_cons, hq, false_or]

theorem plays_sendTo_all {s : HTTPComms C S} {t : Uuid} {cipher : Cipher S} {left : List D.Signer}
    {E : Failure → Phase D.Signer → Prop} {Q : Cipher S → HTTPComms C S → Phase D.Signer → Prop}
    (hnodup : left.Nodup)
    (hcipher : X.CipherAt cipher (fun _ => 1) fun q => if q ∈ left then 0 else 1)
    (hdone : ∀ cipher', X.CipherAt cipher' (fun _ => 1) (fun _ => 1) →
      Q cipher' s (.receiving t 1 [])) :
    (Method.foldM (sendTo (some t) (some sid) (D.lib.configToVec D.config)) cipher
      (left.map Subtype.val)).Plays (X.coordinatorRole sid) E Q s (.send t left) := by
  refine Method.Plays.foldM (fun cipher recipients s' φ => s' = s ∧ ∃ left : List D.Signer,
    recipients = left.map Subtype.val ∧ φ = .send t left ∧ left.Nodup ∧
    X.CipherAt cipher (fun _ => 1) fun q => if q ∈ left then 0 else 1) ?_ ?_ ?_
  · exact ⟨rfl, left, rfl, rfl, hnodup, hcipher⟩
  · rintro cipher' _ _ ⟨rfl, left, hnil, rfl, -, hcipher'⟩
    obtain rfl := List.map_eq_nil_iff.mp hnil.symm
    exact hdone cipher' fun p => by simpa using hcipher' p
  · rintro cipher' recipient recipients _ _ ⟨rfl, left, hcons, rfl, hnodup, hcipher'⟩
    obtain ⟨p, left, rfl, rfl, rfl⟩ := List.map_eq_cons_iff.mp hcons.symm
    obtain ⟨hnew, hrest⟩ := List.nodup_cons.mp hnodup
    obtain ⟨cipher₁, hencrypt, hcipher₁⟩ := encrypt_package hnew hcipher'
    apply Method.Plays.bind
    refine .lift hencrypt ?_
    apply Method.Plays.bind
    refine .lift rfl ?_
    apply Method.Plays.bind
    refine plays_request rfl ?_ ?_
    · rintro _ _ ⟨-, rfl⟩
      exact .pure ⟨rfl, left, rfl, rfl, hrest, hcipher₁⟩
    · rintro e _ ⟨⟨⟩, -⟩

include hfits hlawful hcomplete in
theorem plays_sendSigningPackage {s : HTTPComms C S} {t : Uuid} {E : Failure → Phase D.Signer → Prop}
    {Q : List (Map C.Identifier C.SignatureShare) → HTTPComms C S → Phase D.Signer → Prop}
    (hs : Between X sid t s) (hdone : ∀ s', Q ((List.range D.numMessages).map fun i =>
      D.collect fun p => D.share p i) s' .finished) :
    (sendSigningPackage D.lib D.config.signingPackage
      (if D.pargs.randomizers = [] then none else some D.pargs.randomizers) D.pargs.auxMsg).Plays
      (X.coordinatorRole sid) E Q s (.send t X.order) := by
  obtain ⟨htoken, hsession, hpubkeys, ⟨cipher, hcipher, hat⟩, all, hall, hstate⟩ := hs
  have hrandomizers : (if D.pargs.randomizers = [] then none else some D.pargs.randomizers).getD [] =
      D.pargs.randomizers := by
    split_ifs with hnil
    · exact hnil.symm
    · rfl
  unfold sendSigningPackage
  apply Method.Plays.bind
  refine .read ?_
  apply Method.Plays.bind
  refine .lift (expect_eq_ok_iff.mpr hcipher) ?_
  rw [hrandomizers, hpubkeys, ← X.order_keys, htoken, hsession]
  apply Method.Plays.bind
  refine plays_sendTo_all (X.nodup_order hlawful) ?_ fun cipher₁ hat₁ => ?_
  · intro p
    dsimp only
    rw [if_pos (X.mem_order hlawful p)]
    exact hat p
  apply Method.Plays.bind
  refine .lift rfl ?_
  apply Method.Plays.bind
  refine plays_receiveUntil hfits hlawful hcomplete Nat.one_lt_two hasSignatureShares_iff hall hat₁
    hstate fun got cipher₂ hgot hnodup hat₂ => ?_
  rw [Script.received, if_pos ((length_eq_iff hnodup).mpr hgot), if_neg Nat.one_ne_zero]
  apply Method.Plays.bind
  refine .modify ?_
  apply Method.Plays.bind
  refine plays_request rfl ?_ ?_
  · rintro _ _ ⟨-, rfl⟩
    apply Method.Plays.bind
    refine plays_request rfl ?_ ?_
    · rintro _ _ ⟨-, rfl⟩
      apply Method.Plays.bind
      refine .modify ?_
      apply Method.Plays.bind
      refine .read (.lift (Outcome.mapErr_eq_ok_iff.mpr ?_) (hdone _))
      exact signatureShares_stateAt hfits hlawful hcomplete all hnodup hgot
    · rintro e _ ⟨⟨⟩, -⟩
  · rintro e _ ⟨⟨⟩, -⟩

include hfits hlawful hcomplete in
theorem plays_doit {s : HTTPComms C S}
    (hs : s = .new D.pargs ⟨D.signers, some D.coordinator, some D.coordinator⟩) :
    (Signing.Coordinator.doit (comms D.lib) D.pargs).Plays (X.coordinatorRole sid) (fun _ _ => False)
      (fun signatures _ φ => φ = .finished ∧ signatures = D.signatures) s .start := by
  unfold Signing.Coordinator.doit Signing.Coordinator.rounds
  apply Method.Plays.bind
  apply Method.Plays.bind
  refine plays_getSigningCommitments hfits hlawful hcomplete hs fun t s hs => ?_
  apply Method.Plays.bind
  refine .lift signingPackages_config ?_
  apply Method.Plays.bind
  refine plays_sendSigningPackage hfits hlawful hcomplete hs fun s' => .pure ?_
  apply Method.Plays.bind
  refine .lift (Outcome.okOr_eq_ok_iff.mpr (mapM_aggregateCalls hfits hlawful hcomplete)) ?_
  apply Method.Plays.bind
  exact .pure (.pure ⟨rfl, rfl⟩)

include hfits hlawful hcomplete in
theorem plays_coordinator (X : Script D S verify) :
    (D.runCoordinator S).Plays (X.coordinatorRole sid)
      (fun r φ => φ = .finished ∧ r.1 = .ok D.signatures) .start := by
  have hlength : ¬(D.pargs.randomizers ≠ [] ∧
      D.pargs.randomizers.length ≠ D.pargs.messages.length) :=
    fun h => h.2 (hfits.randomizers.resolve_left h.1)
  have hrun : D.runCoordinator S = (Signing.Coordinator.doit (comms D.lib) D.pargs _).bind _ :=
    congrFun (if_neg hlength) _
  rw [hrun]
  apply Program.Plays.bind
  refine Program.Plays.mono (plays_doit hfits hlawful hcomplete rfl) ?_
  rintro ⟨o, s⟩ φ (⟨signatures, rfl, hφ, rfl⟩ | ⟨e, -, hfalse⟩)
  · exact ⟨hφ, rfl⟩
  · exact hfalse.elim

end Coordinator

end FrostTools.Signing.Http
