import FrostTools.Signing.Groups

namespace FrostTools.Signing
open Client Frostd Http

variable {L : Libraries} {K : SigningLibraries L} {name : CiphersuiteName}

/-- What the users of a session run, each with its own files. -/
structure SigningSession (K : SigningLibraries L) where
  coordinator : PublicKey
  coordinatorFiles : FileSystem L
  coordinatorCommand : CoordinatorCommand
  console : Console
  files : PublicKey → FileSystem L
  command : PublicKey → ParticipantCommand
  commit : PublicKey → (name : CiphersuiteName) → Draws (K.suite name)

namespace SigningSession

variable (U : SigningSession K) (G : SigningGroup K name) (prepared : Coordinator.Prepared K name)

def setup : Setup (K.suite name) where
  lib := K.http name
  coordinator := U.coordinator
  pargs := prepared.pargs
  signers := prepared.args.signers
  keyPackage := G.keyPackage
  commit p := U.commit p name
  getter _ coordinatorPubkey :=
    (((tableOf (L.ciphersuite name) G.members).toSortedList.map Prod.snd).find? fun p =>
      p.pubkey = coordinatorPubkey).map Client.Participant.pubkey
  sessionId p := K.uuidParseStr ((U.command p).session.getD "")

def Result {ι : Type} : Option ι → Type
  | none => Outcome CommandError Console × Unit
  | some _ => Outcome CommandError Unit × Unit

def programs (S : Snow) (signers : Finset PublicKey) :
    (i : Option { p // p ∈ signers }) → Program World (Result i)
  | none => Coordinator.run K S U.coordinatorFiles U.coordinatorCommand U.console ()
  | some p => Participant.run K S (U.files p) (U.command p) (U.commit p) ()

/-- The server and the commands. Every user confirms, and no timeout fires. -/
def network (S : Snow) (verify : Verifier) (sid : Uuid) (signers : Finset PublicKey) :
    TransitionSystem (Service (Option { p // p ∈ signers }) ×
      ((i : Option { p // p ∈ signers }) → Program World (Result i)))
      (Move World (Option { p // p ∈ signers })) :=
  (frostd (Option { p // p ∈ signers }) verify (.of sid (trim · = "y"))).system (.new _)
    (U.programs S signers)

/-- The command of the coordinator is accepted with enough signers and no more than 255 messages, and
every signer is a member of the group with a command that is accepted for the session. -/
structure Ready (sid : Uuid) (console : Console) : Prop where
  coordinator : G.HeldAt U.coordinatorFiles U.coordinatorCommand.config U.coordinatorCommand.group
    U.coordinator
  prepares : Coordinator.prepare K name U.coordinatorFiles U.coordinatorCommand U.console =
    .ok (prepared, console)
  threshold : G.threshold ≤ prepared.args.signers.len
  messages : U.coordinatorCommand.message.length ≤ 255
  randomizers : U.coordinatorCommand.randomizer = [] ∨
    U.coordinatorCommand.randomizer.length = max 1 U.coordinatorCommand.message.length
  signer : ∀ p ∈ prepared.args.signers.keys,
    G.HeldAt (U.files p) (U.command p).config (U.command p).group p
  accepted : ∀ p ∈ prepared.args.signers.keys, ∃ prepared',
    Participant.prepare K name (U.files p) (U.command p) = .ok prepared'
  session : ∀ p ∈ prepared.args.signers.keys, K.uuidParseStr ((U.command p).session.getD "") = none ∨
    K.uuidParseStr ((U.command p).session.getD "") = some sid

variable {U G prepared} {sid : Uuid} {console : Console} (h : U.Ready G prepared sid console)
  (hreads : ReadsIdentifiers _ (K.library name).deserializeIdentifier)
include h

include hreads in
theorem Ready.lookup_signers {p : PublicKey} {i : (L.ciphersuite name).Identifier}
    (hp : prepared.args.signers.lookup p = some i) : (i, p) ∈ G.members := by
  obtain ⟨config, group, key, signers, haccepts⟩ := Coordinator.accepts_of_prepare h.prepares
  obtain ⟨config', pair, group', hread, hholds⟩ := h.coordinator
  obtain rfl := Outcome.ok.inj (haccepts.read.symm.trans hread)
  obtain rfl := Option.some.inj (haccepts.stored.symm.trans hholds.stored)
  rw [haccepts.args] at hp
  obtain ⟨s, -, hs⟩ := Outcome.exists_of_mem_mapM haccepts.signer (Map.mem_of_lookup_ofList hp)
  obtain ⟨bytes, -, hs⟩ := Outcome.bind_eq_ok_iff.mp hs
  obtain ⟨j, hj, hs⟩ := Outcome.bind_eq_ok_iff.mp hs
  obtain ⟨rfl, rfl⟩ := Prod.mk.inj (Outcome.ok.inj hs)
  exact (hholds.identifierByPubkey_eq_ok_iff hreads).mp hj

include hreads in
theorem Ready.mem_pubkeys {p : PublicKey} (hp : p ∈ prepared.args.signers.keys) : p ∈ G.pubkeys := by
  obtain ⟨i, hi⟩ := Map.mem_keys_iff.mp hp
  exact List.mem_map_of_mem (h.lookup_signers hreads hi)

theorem Ready.publicKeyPackage : prepared.pargs.publicKeyPackage = G.publicKeyPackage := by
  obtain ⟨config, group, key, signers, haccepts⟩ := Coordinator.accepts_of_prepare h.prepares
  obtain ⟨config', pair, group', hread, hholds⟩ := h.coordinator
  obtain rfl := Outcome.ok.inj (haccepts.read.symm.trans hread)
  obtain rfl := Option.some.inj (haccepts.stored.symm.trans hholds.stored)
  exact Option.some.inj (haccepts.publicKeyPackage.symm.trans hholds.publicKeyPackage)

theorem Ready.args : prepared.args =
    ⟨prepared.args.signers, some U.coordinator, some U.coordinator⟩ := by
  obtain ⟨config, group, key, signers, haccepts⟩ := Coordinator.accepts_of_prepare h.prepares
  obtain ⟨config', pair, group', hread, hholds⟩ := h.coordinator
  obtain rfl := Outcome.ok.inj (haccepts.read.symm.trans hread)
  obtain rfl := Option.some.inj (haccepts.communicationKey.symm.trans hholds.communicationKey)
  rw [haccepts.args, hholds.keyPair, hholds.own]

include hreads in
theorem Ready.fits : (U.setup G prepared).Fits sid := by
  obtain ⟨config, group, key, signers, haccepts⟩ := Coordinator.accepts_of_prepare h.prepares
  obtain ⟨console', hmessages⟩ := haccepts.messages
  have hlength := length_readMessages hmessages
  have hbound := h.messages
  have hsigners : prepared.args.signers = Map.ofList signers := by rw [haccepts.args]
  have hidentifier : ∀ p ∈ prepared.args.signers.keys,
      prepared.args.signers.lookup p = some ((K.library name).identifier (G.keyPackage p)) := by
    intro p hp
    obtain ⟨i, hi⟩ := Map.mem_keys_iff.mp hp
    rw [hi, G.identifier i p (h.lookup_signers hreads hi)]
  refine ⟨?_, ?_, ?_, hidentifier, ?_, ?_, ?_, h.session⟩
  · change 1 ≤ prepared.pargs.messages.length ∧ prepared.pargs.messages.length ≤ 255
    omega
  · change prepared.pargs.randomizers = [] ∨
      prepared.pargs.randomizers.length = prepared.pargs.messages.length
    rw [hlength, ← List.length_eq_zero_iff, haccepts.randomizers, List.length_eq_zero_iff]
    exact h.randomizers
  · change prepared.pargs.numSigners.toNat = prepared.args.signers.len ∧ 1 ≤ prepared.args.signers.len
    -- the signers are members of the group, so they are no more than a `u16` counts
    have hle : prepared.args.signers.len ≤ G.members.length := by
      rw [← List.length_map (f := Prod.snd), ← List.toFinset_card_of_nodup G.nodup_pubkeys]
      exact Finset.card_le_card fun p hp => List.mem_toFinset.mpr (h.mem_pubkeys hreads hp)
    have hlt : G.members.length < UInt16.size := G.length_lt
    refine ⟨?_, Nat.le_trans G.threshold_pos h.threshold⟩
    rw [haccepts.numSigners, ← hsigners]
    exact UInt16.toNat_ofNat_of_lt (Nat.lt_of_le_of_lt hle hlt)
  · intro p hp q hq heq
    have hmem := h.lookup_signers hreads (hidentifier p hp)
    have hmem' := h.lookup_signers hreads (hidentifier q hq)
    change (K.library name).identifier (G.keyPackage p) =
      (K.library name).identifier (G.keyPackage q) at heq
    rw [heq] at hmem
    exact (Prod.mk.inj (List.inj_on_of_nodup_map G.nodup_identifiers hmem hmem' rfl)).2
  · change ciphersuiteId name ≠ .other
    cases name <;> exact nofun
  · intro p hp
    obtain ⟨config', pair, group', -, hholds⟩ := h.signer p hp
    obtain ⟨_, _, _, -, hcoordinator⟩ := h.coordinator
    have hfind := hholds.find?_eq hreads hcoordinator.member
    rwa [hholds.participant] at hfind

omit h in
def Returns (U : SigningSession K) (G : SigningGroup K name) (prepared : Coordinator.Prepared K name)
    (console : Console) : (i : (U.setup G prepared).Party) → Result i → (U.setup G prepared).Phase i →
      Prop
  | none => fun r φ => φ = Coordinator.Phase.finished ∧
      r.1 = (Coordinator.writeSignatures K name U.coordinatorCommand.signature
        (U.setup G prepared).signatures console).mapErr .config
  | some _ => fun r φ => (φ = Participant.Phase.finished ∧ r.1 = .ok ()) ∨
      ((∃ t, φ = Participant.Phase.failed t) ∧
        ∃ e, r.1 = .err (.signing e) ∧ Http.Participant.NotFound e)

omit h in
theorem runWith_bind {σ α β : Type} {run : Run σ α} {comms : σ} {f : α → Command β} :
    (runWith run comms >>= f) () = (run comms).bind fun r =>
      match r.1 with
      | .ok a => f a ()
      | .err e => .done (.err (.signing e), ())
      | .panic message => .done (.panic message, ()) := by
  refine (Program.bind_assoc _ _ _).trans (congrArg _ (funext fun r => ?_))
  obtain ⟨o, comms'⟩ := r
  cases o <;> rfl

/-- The coordinator is started with the setup, and writes what it returns. -/
theorem Ready.run_coordinator (hL : L.Lawful) (S : Snow) :
    Coordinator.run K S U.coordinatorFiles U.coordinatorCommand U.console () =
      ((U.setup G prepared).runCoordinator S).bind fun r => .done
        ((r.1.mapErr .signing).bind fun signatures => (Coordinator.writeSignatures K name
          U.coordinatorCommand.signature signatures console).mapErr .config, ()) := by
  rw [Coordinator.run, h.coordinator.ciphersuiteOfGroup_eq hL]
  change Coordinator.runForCiphersuite K name S _ _ _ () = _
  rw [Coordinator.runForCiphersuite, h.prepares, Setup.runCoordinator]
  change (runWith _ (Http.Coordinator.HTTPComms.new prepared.pargs prepared.args) >>= _) () = _
  rw [h.args, runWith_bind]
  refine congrArg _ (funext fun r => ?_)
  cases r.1 <;> rfl

theorem Ready.run_participant (hL : L.Lawful) (S : Snow) {p : PublicKey}
    (hp : p ∈ prepared.args.signers.keys) :
    Participant.run K S (U.files p) (U.command p) (U.commit p) () =
      ((U.setup G prepared).runParticipant S p).bind fun r => .done (r.1.mapErr .signing, ()) := by
  obtain ⟨prepared', hprepare⟩ := h.accepted p hp
  obtain ⟨config, pair, group, hread, hholds⟩ := h.signer p hp
  rw [Participant.run, (h.signer p hp).ciphersuiteOfGroup_eq hL]
  change Participant.runForCiphersuite K name S _ _ _ () = _
  rw [Participant.runForCiphersuite, hprepare, Participant.prepared_eq hread hholds hprepare]
  rfl

section Network

variable (hL : L.Lawful) {S : Snow} {verify : Verifier}
  {Matches : (K.suite name).SigningNonces → (K.suite name).SigningCommitments → Prop}
  {Verifies : Option (K.suite name).Randomizer → Bytes → (K.suite name).Signature → Prop}
include hL hreads

theorem Ready.allPlay (hlawful : (U.setup G prepared).Lawful)
    (hcomplete : (U.setup G prepared).Complete Matches Verifies)
    (X : Script (U.setup G prepared) S verify) :
    Environment.AllPlay (X.role sid) (Returns U G prepared console)
      (U.programs S prepared.args.signers.keys) Setup.start := by
  intro i
  cases i with
  | none =>
    change (Coordinator.run K S _ _ _ ()).Plays _ _ _
    rw [h.run_coordinator hL S]
    apply Program.Plays.bind
    refine (Coordinator.plays_coordinator (h.fits hreads) hlawful hcomplete X).mono ?_
    rintro ⟨o, comms⟩ φ ⟨rfl, rfl⟩
    exact ⟨rfl, rfl⟩
  | some p =>
    change (Participant.run K S _ _ (U.commit p) ()).Plays _ _ _
    rw [h.run_participant hL S p.2]
    apply Program.Plays.bind
    refine (Participant.plays_participant (h.fits hreads) hlawful hcomplete X p).mono ?_
    rintro ⟨o, comms⟩ φ (⟨hφ, rfl⟩ | ⟨hφ, e, rfl, he⟩)
    · exact .inl ⟨hφ, rfl⟩
    · exact .inr ⟨hφ, e, rfl, he⟩

omit h hL hreads in
theorem final_of_command (X : Script (U.setup G prepared) S verify) (i : (U.setup G prepared).Party)
    (r : Result i) (φ : (U.setup G prepared).Phase i) (hr : Returns U G prepared console i r φ) :
    (X.role sid i).next φ = none := by
  cases i with
  | none =>
    obtain ⟨rfl, -⟩ := hr
    rfl
  | some p =>
    rcases hr with ⟨rfl, -⟩ | ⟨⟨t, rfl⟩, -⟩
    · rfl
    · rfl

omit h hL hreads in
def Unfailed {signers : Finset PublicKey}
    (p : (i : Option { p // p ∈ signers }) → Program World (Result i)) : Prop :=
  ∀ (q : { p // p ∈ signers }) (r : Outcome CommandError Unit × Unit), p (some q) = .done r → r.1 = .ok ()

omit h hL hreads in
/-- The command of a participant has failed if and only if its phase says so. -/
theorem unfailed_iff {X : Script (U.setup G prepared) S verify}
    {p : (i : (U.setup G prepared).Party) → Program World (Result i)}
    {φ : (i : (U.setup G prepared).Party) → (U.setup G prepared).Phase i}
    (hplay : Environment.AllPlay (X.role sid) (Returns U G prepared console) p φ) :
    @Unfailed prepared.args.signers.keys p ↔ NoneFailed φ := by
  constructor
  · intro hunfailed q
    cases hfailed : Participant.Phase.hasFailed (φ (some q)) with
    | false => rfl
    | true =>
      obtain ⟨t, hφ⟩ := exists_failed hfailed
      obtain ⟨r, hr, hreturns⟩ := (hplay (some q)).exists_done (by rw [hφ]; rfl)
      rcases hreturns with ⟨hfinished, -⟩ | ⟨-, e, herr, -⟩
      · rw [hφ] at hfinished
        cases hfinished
      · cases herr.symm.trans (hunfailed q r hr)
  · intro hnone q r hr
    rcases hplay.returned hr with ⟨-, hok⟩ | ⟨⟨t, hfailed⟩, -⟩
    · exact hok
    · cases (congrArg Participant.Phase.hasFailed hfailed).symm.trans (hnone q)

omit hreads hL in
theorem Ready.exists_output (hserialize : ∀ randomizer message signature,
      Verifies randomizer message signature →
      ∃ bytes, (K.library name).serializeSignature signature = some bytes)
    (houtputs : console.Separates U.coordinatorCommand.signature)
    {signatures : List (K.suite name).Signature}
    (hlength : signatures.length = prepared.pargs.messages.length)
    (hverifies : ∀ i < prepared.pargs.messages.length, ∃ randomizer message signature,
      signatures[i]? = some signature ∧ Verifies randomizer message signature) : ∃ console',
    Coordinator.writeSignatures K name U.coordinatorCommand.signature signatures console =
      .ok console' ∧
    ∀ (i : ℕ) signature, signatures[i]? = some signature →
      ∃ bytes, (K.library name).serializeSignature signature = some bytes ∧
        console'.Shows (U.coordinatorCommand.signature.getD i "-") bytes := by
  obtain ⟨config, group, key, signers, haccepts⟩ := Coordinator.accepts_of_prepare h.prepares
  have hnames := haccepts.signature
  rw [← hlength] at hnames
  refine Coordinator.exists_writeSignatures hnames (fun signature hmem => ?_) houtputs
  obtain ⟨i, hi⟩ := List.mem_iff_getElem?.mp hmem
  obtain ⟨randomizer, message, signature', hsignature', hverified⟩ :=
    hverifies i (hlength ▸ (List.getElem?_eq_some_iff.mp hi).1)
  obtain rfl := Option.some.inj (hi.symm.trans hsignature')
  exact hserialize randomizer message signature hverified

end Network

end SigningSession

def sampleGroup : SigningGroup sampleSigningLibraries .redpallas where
  members := [(Http.sampleIdentifier 1, Http.sampleKey 1), (Http.sampleIdentifier 2, Http.sampleKey 2),
    (Http.sampleIdentifier 9, Http.sampleKey 9)]
  publicKeyPackage := (([1, 2, 9] : Bytes).map UInt8.toFin).toFinset
  keyPackage p := Http.sampleIdentifier (p.bytes.headD 0)
  threshold := 2
  nodup_identifiers := by decide
  nodup_pubkeys := by decide
  identifier i p h := by
    simp only [List.mem_cons, List.not_mem_nil, or_false] at h
    obtain ⟨rfl, rfl⟩ | ⟨rfl, rfl⟩ | ⟨rfl, rfl⟩ := h <;> rfl
  length_lt := by decide
  threshold_pos := by decide

def sampleStoredGroup (b : UInt8) : Group where
  description := "group"
  ciphersuite := "redpallas"
  publicKeyPackage := [1, 2, 9]
  keyPackage := [b]
  serverUrl := some "localhost"
  participant := tableOf (sampleSigning.ciphersuite .redpallas) sampleGroup.members

def sampleMember (b : UInt8) : FileSystem sampleSigning :=
  Map.insert (∅ : Map String Config) "credentials.toml" { Config.default with
    communicationKey := some ⟨(Http.sampleKey b).bytes, Http.sampleKey b⟩
    group := (∅ : Map String Group).insert "key" (sampleStoredGroup b) }

theorem heldAt_sampleMember {b : UInt8} (hb : Http.sampleKey b ∈ sampleGroup.pubkeys) :
    sampleGroup.HeldAt (sampleMember b) none "key" (Http.sampleKey b) :=
  ⟨_, _, _, rfl, rfl, rfl, rfl, rfl, rfl, rfl, rfl, rfl, hb⟩

def sampleSession : SigningSession sampleSigningLibraries where
  coordinator := Http.sampleKey 9
  coordinatorFiles := sampleMember 9
  coordinatorCommand := {
    config := none
    serverUrl := none
    group := "key"
    signers := [hexEncode (Http.sampleKey 1).bytes, hexEncode (Http.sampleKey 2).bytes]
    message := ["m5", "m6"]
    randomizer := ["r7", "r8"]
    auxMessage := none
    signature := [] }
  console := {
    files := fun filename => if filename = "m5" then some [5] else if filename = "m6" then some [6]
      else if filename = "r7" then some [7] else if filename = "r8" then some [8] else none
    paths := ⟨.file, fun _ => true⟩
    stdin := []
    stdout := []
    written := [] }
  files p := sampleMember (p.bytes.headD 0)
  command _ := ⟨none, none, "key", none⟩
  commit p _ i := ((p.bytes.headD 0 + 10 * UInt8.ofNat i : UInt8),
    (p.bytes.headD 0 + 10 * UInt8.ofNat i + 100 : UInt8))

def samplePrepared : Coordinator.Prepared sampleSigningLibraries .redpallas where
  pargs := { Http.sampleParties.pargs with
    publicKeyPackage := sampleGroup.publicKeyPackage }
  args := ⟨Http.sampleParties.signers, some (Http.sampleKey 9), some (Http.sampleKey 9)⟩

theorem sampleSession_prepares : Coordinator.prepare sampleSigningLibraries .redpallas
    sampleSession.coordinatorFiles sampleSession.coordinatorCommand sampleSession.console =
      .ok (samplePrepared, sampleSession.console) := rfl

theorem sampleSession_ready :
    sampleSession.Ready sampleGroup samplePrepared 3 sampleSession.console := by
  have hmember : ∀ p ∈ samplePrepared.args.signers.keys, ∃ b, p = Http.sampleKey b ∧
      p ∈ sampleGroup.pubkeys := by
    intro p hp
    rcases (Http.sampleParties_signers p).mp hp with rfl | rfl
    · exact ⟨1, rfl, by decide⟩
    · exact ⟨2, rfl, by decide⟩
  exact {
    coordinator := heldAt_sampleMember (by decide)
    prepares := sampleSession_prepares
    threshold := by decide
    messages := by decide
    randomizers := .inr rfl
    signer := fun p hp => by
      obtain ⟨b, rfl, hb⟩ := hmember p hp
      exact heldAt_sampleMember hb
    accepted := fun p hp => by
      obtain ⟨b, rfl, hb⟩ := hmember p hp
      exact ⟨_, rfl⟩
    session := fun p hp => .inl rfl }

end FrostTools.Signing
