import FrostTools.Signing.Alignment
import FrostTools.Signing.Commands

/-!
# Groups that sign

The members of a group hold key packages that fit together, each in a config file of its own. The
signing commands of enough members make a session in which everything fits.
-/

namespace FrostTools.Signing
open Client

variable {L : Libraries} {K : SigningLibraries L} {name : CiphersuiteName}

/-- The members of a group with the key package of each. No two have an identifier or a public key in
common, and each key package is for the identifier of its owner. -/
structure SigningGroup (K : SigningLibraries L) (name : CiphersuiteName) where
  members : List ((L.ciphersuite name).Identifier × PublicKey)
  publicKeyPackage : (L.ciphersuite name).PublicKeyPackage
  keyPackage : PublicKey → (L.ciphersuite name).KeyPackage
  threshold : ℕ
  nodup_identifiers : (members.map Prod.fst).Nodup
  nodup_pubkeys : (members.map Prod.snd).Nodup
  identifier : ∀ i p, (i, p) ∈ members → (K.library name).identifier (keyPackage p) = i
  length_lt : members.length < 65536
  threshold_pos : 1 ≤ threshold

namespace SigningGroup

variable (G : SigningGroup K name)

def pubkeys : List PublicKey := G.members.map Prod.snd

/-- Shares of any `threshold` members aggregate to a signature that verifies. -/
def Complete (Matches : (K.suite name).SigningNonces → (K.suite name).SigningCommitments → Prop)
    (Verifies : Option (K.suite name).Randomizer → Bytes → (K.suite name).Signature → Prop) : Prop :=
  ∀ D : Http.Setup (K.suite name), D.keyPackage = G.keyPackage →
    D.pargs.publicKeyPackage = G.publicKeyPackage → (∀ p ∈ D.signers.keys, p ∈ G.pubkeys) →
    G.threshold ≤ D.signers.len →
    (∀ p ∈ D.signers.keys, ∀ i, Matches (D.commit p i).1 (D.commit p i).2) →
    D.Complete Matches Verifies

/-- What the config of a member has of the group. -/
structure Holds (config : Config) (key : String) (pubkey : PublicKey) (pair : CommunicationKey)
    (group : Group) : Prop where
  communicationKey : config.communicationKey = some pair
  own : pair.pubkey = pubkey
  keyPair : K.keyPair pair.privkey = pubkey
  stored : config.group.lookup key = some group
  ciphersuite : group.ciphersuite = (L.ciphersuite name).ID
  publicKeyPackage : (L.ciphersuite name).decodePublicKeyPackage group.publicKeyPackage =
    some G.publicKeyPackage
  keyPackage : (L.ciphersuite name).decodeKeyPackage group.keyPackage = some (G.keyPackage pubkey)
  participant : group.participant = tableOf (L.ciphersuite name) G.members
  member : pubkey ∈ G.pubkeys

def HeldAt (fs : FileSystem L) (path : Option String) (key : String) (pubkey : PublicKey) : Prop :=
  ∃ config pair group, Config.read fs path = .ok config ∧ G.Holds config key pubkey pair group

variable {G} {config : Config} {key : String} {pubkey : PublicKey}
  {pair : CommunicationKey} {group : Group}

theorem pubkey_of_participantByPubkey {participant : Client.Participant}
    (h : group.participantByPubkey pubkey = .ok participant) : participant.pubkey = pubkey := by
  have hfind := List.find?_some (Outcome.okOr_eq_ok_iff.mp h)
  exact of_decide_eq_true hfind

section Table

variable (hreads : ReadsIdentifiers _ (K.library name).deserializeIdentifier)
  (h : G.Holds config key pubkey pair group)
include hreads h

theorem Holds.mem_participants_iff {participant : Participant} :
    participant ∈ group.participant.toSortedList.map Prod.snd ↔ ∃ i p, (i, p) ∈ G.members ∧
      participant = ⟨(L.ciphersuite name).serializeIdentifier i, p⟩ := by
  simp only [List.mem_map, Prod.exists, exists_eq_right, Map.mem_toSortedList, h.participant,
    lookup_tableOf_iff hreads G.nodup_identifiers]
  constructor
  · rintro ⟨_, i, p, hmem, -, rfl⟩
    exact ⟨i, p, hmem, rfl⟩
  · rintro ⟨i, p, hmem, rfl⟩
    exact ⟨_, i, p, hmem, rfl, rfl⟩

theorem Holds.identifierByPubkey_eq_ok_iff {i : (L.ciphersuite name).Identifier} {p : PublicKey} :
    group.identifierByPubkey (K.library name).deserializeIdentifier p = .ok i ↔ (i, p) ∈ G.members := by
  have hfound := (forall_identifierByPubkey_iff hreads G.nodup_identifiers h.participant).mpr
    G.nodup_pubkeys
  refine ⟨fun hi => ?_, hfound i p⟩
  obtain ⟨participant, hparticipant, -⟩ := Outcome.bind_eq_ok_iff.mp hi
  have hlisted := List.mem_of_find?_eq_some (Outcome.okOr_eq_ok_iff.mp hparticipant)
  obtain ⟨j, q, hmem, rfl⟩ := (h.mem_participants_iff hreads).mp hlisted
  obtain rfl : q = p := pubkey_of_participantByPubkey hparticipant
  rwa [← Outcome.ok.inj ((hfound j q hmem).symm.trans hi)]

/-- A member trusts every member. -/
theorem Holds.find?_eq {p : PublicKey} (hp : p ∈ G.pubkeys) :
    ((group.participant.toSortedList.map Prod.snd).find? fun q => q.pubkey = p).map
      Client.Participant.pubkey = some p := by
  obtain ⟨⟨i, _⟩, hmem, rfl⟩ := List.mem_map.mp hp
  have hfound := (h.identifierByPubkey_eq_ok_iff hreads).mpr hmem
  obtain ⟨participant, hparticipant, -⟩ := Outcome.bind_eq_ok_iff.mp hfound
  rw [Outcome.okOr_eq_ok_iff.mp hparticipant, Option.map_some,
    pubkey_of_participantByPubkey hparticipant]

end Table

theorem HeldAt.ciphersuiteOfGroup_eq (hL : L.Lawful) {fs : FileSystem L} {path : Option String}
    (h : G.HeldAt fs path key pubkey) : ciphersuiteOfGroup fs path key = .ok name := by
  obtain ⟨config, pair, group, hread, hholds⟩ := h
  simp only [ciphersuiteOfGroup, hread, groupOf, hholds.stored, Outcome.okOr, Outcome.bind,
    supportedCiphersuite, hholds.ciphersuite]
  cases name with
  | ed25519 => exact if_pos rfl
  | redpallas => rw [if_neg hL.ID_ne.symm, if_pos rfl]

end SigningGroup

namespace Console

theorem length_readAll {α : Type} {read : Console → String → Outcome ConfigError (α × Console)}
    {console console' : Console} {filenames : List String} {values : List α}
    (h : readAll read console filenames = .ok (values, console')) :
    values.length = filenames.length := by
  have hlength : ∀ (filenames : List String) (values values' : List α) (console console' : Console),
      Outcome.foldM (fun x filename => (read x.2 filename).bind fun y => .ok (x.1 ++ [y.1], y.2))
        (values, console) filenames = .ok (values', console') →
      values'.length = values.length + filenames.length := by
    intro filenames
    induction filenames with
    | nil =>
      intro values values' console console' hfold
      obtain ⟨rfl, rfl⟩ := Prod.mk.inj (Outcome.ok.inj hfold)
      rfl
    | cons filename filenames ih =>
      intro values values' console console' hfold
      obtain ⟨_, hread, hfold⟩ := Outcome.bind_eq_ok_iff.mp hfold
      obtain ⟨⟨value, console₁⟩, -, hread⟩ := Outcome.bind_eq_ok_iff.mp hread
      obtain rfl := Outcome.ok.inj hread
      have hlength := ih _ _ _ _ hfold
      rw [List.length_append, List.length_singleton] at hlength
      rw [hlength, List.length_cons, Nat.add_assoc, Nat.add_comm 1]
  simpa using hlength filenames [] values console console' h

end Console

/-- There is a message for each name, or a single one. -/
theorem length_readMessages {paths : List String} {console console' : Console} {messages : List Bytes}
    (h : readMessages paths console = .ok (messages, console')) :
    messages.length = max 1 paths.length := by
  unfold readMessages at h
  split_ifs at h with hpaths
  · obtain ⟨_, -, h⟩ := Outcome.bind_eq_ok_iff.mp h
    obtain ⟨rfl, -⟩ := Prod.mk.inj (Outcome.ok.inj h)
    rw [hpaths]
    rfl
  · rw [Console.length_readAll h]
    have hpos := List.length_pos_iff.mpr hpaths
    omega

namespace Coordinator

variable {fs : FileSystem L} {command : CoordinatorCommand} {console console' : Console}
  {prepared : Prepared K name}

structure Accepts (fs : FileSystem L) (command : CoordinatorCommand) (console : Console)
    (prepared : Prepared K name) (config : Config) (group : Group) (key : CommunicationKey)
    (signers : List (PublicKey × (L.ciphersuite name).Identifier)) : Prop where
  read : Config.read fs command.config = .ok config
  stored : config.group.lookup command.group = some group
  publicKeyPackage : (L.ciphersuite name).decodePublicKeyPackage group.publicKeyPackage =
    some prepared.pargs.publicKeyPackage
  signer : Outcome.mapM (signer K name group) command.signers = .ok signers
  numSigners : prepared.pargs.numSigners = (Map.ofList signers).len.toUInt16
  messages : ∃ console', readMessages command.message console = .ok (prepared.pargs.messages, console')
  randomizers : prepared.pargs.randomizers.length = command.randomizer.length
  signature : command.signature = [] ∨ command.signature.length = prepared.pargs.messages.length
  communicationKey : config.communicationKey = some key
  args : prepared.args = ⟨Map.ofList signers, some (K.keyPair key.privkey), some key.pubkey⟩

theorem accepts_of_prepare (h : prepare K name fs command console = .ok (prepared, console')) :
    ∃ config group key signers, Accepts fs command console prepared config group key signers := by
  obtain ⟨config, hread, h⟩ := Outcome.bind_eq_ok_iff.mp h
  obtain ⟨group, hgroup, h⟩ := Outcome.bind_eq_ok_iff.mp h
  obtain ⟨publicKeyPackage, hpublic, h⟩ := Outcome.bind_eq_ok_iff.mp h
  obtain ⟨host, -, h⟩ := Outcome.bind_eq_ok_iff.mp h
  obtain ⟨signers, hsigners, h⟩ := Outcome.bind_eq_ok_iff.mp h
  obtain ⟨⟨messages, console₁⟩, hmessages, h⟩ := Outcome.bind_eq_ok_iff.mp h
  obtain ⟨⟨randomizers, console₂⟩, hrandomizers, h⟩ := Outcome.bind_eq_ok_iff.mp h
  obtain ⟨⟨auxMsg, console₃⟩, -, h⟩ := Outcome.bind_eq_ok_iff.mp h
  obtain ⟨hsignature, h⟩ := Outcome.ite_err_eq_ok_iff.mp h
  obtain ⟨_, -, h⟩ := Outcome.bind_eq_ok_iff.mp h
  obtain ⟨key, hkey, h⟩ := Outcome.bind_eq_ok_iff.mp h
  obtain ⟨rfl, -⟩ := Prod.mk.inj (Outcome.ok.inj h)
  rw [Outcome.okOr_eq_ok_iff] at hpublic hkey
  rw [not_and_or, not_not, not_not] at hsignature
  exact ⟨config, group, key, signers, hread, Outcome.okOr_eq_ok_iff.mp hgroup, hpublic, hsigners, rfl,
    ⟨console₁, hmessages⟩, Console.length_readAll hrandomizers, hsignature, hkey, rfl⟩

end Coordinator

def fileOutputs (signatureFn : List String) : List String :=
  signatureFn.filter fun filename => ¬(filename = "" ∨ filename = "-")

/-- The outputs other than the standard output lead to places that keep what is written there, and not
two of them to one file. -/
structure Console.Separates (console : Console) (signatureFn : List String) : Prop where
  canWrite : ∀ filename ∈ fileOutputs signatureFn, console.paths.canWrite filename = true
  kept : ∀ filename ∈ fileOutputs signatureFn, console.paths.resolve filename ≠ .elsewhere
  files : ((fileOutputs signatureFn).filterMap fun filename =>
    (console.paths.resolve filename).fileName).Nodup

/-- A signature is printed in hex, or can be read back where its name leads. -/
def Console.Shows (console : Console) (filename : String) (bytes : Bytes) : Prop :=
  if filename = "" ∨ filename = "-" then hexEncode bytes ∈ console.stdout
  else match console.paths.resolve filename with
    | .file name => Target.contents console.written name = some bytes
    | .stdout => (.stdout, bytes) ∈ console.written
    | .elsewhere => False

section Outputs

variable {console : Console} {outputs : List (Bytes × String)}

def Console.put (console : Console) (outputs : List (Bytes × String)) : Console :=
  { console with
    stdout := console.stdout ++ outputs.filterMap fun x =>
      if x.2 = "" ∨ x.2 = "-" then some (hexEncode x.1) else none
    written := console.written ++ outputs.filterMap fun x =>
      if x.2 = "" ∨ x.2 = "-" then none else some (console.paths.resolve x.2, x.1) }

theorem Console.put_nil : console.put [] = console := by
  simp [put]

theorem Console.put_cons (x : Bytes × String) :
    (console.put [x]).put outputs = console.put (x :: outputs) := by
  simp only [put, List.append_assoc, ← List.filterMap_append, List.singleton_append]

theorem Console.put_println {bytes : Bytes} {filename : String} (h : filename = "" ∨ filename = "-") :
    console.println (hexEncode bytes) = console.put [(bytes, filename)] := by
  simp [put, println, h]

theorem Console.put_write {bytes : Bytes} {filename : String} (h : ¬(filename = "" ∨ filename = "-"))
    (hwrite : console.paths.canWrite filename = true) :
    console.write filename bytes = .ok (console.put [(bytes, filename)]) := by
  simp [put, write, h, hwrite]

variable (K name) in
/-- One turn of the loop over the signatures. -/
def output (console : Console) (x : (K.suite name).Signature × String) :
    Outcome ConfigError Console :=
  (Outcome.okOr .library ((K.library name).serializeSignature x.1)).bind fun bytes =>
    if x.2 = "" ∨ x.2 = "-" then .ok (console.println (hexEncode bytes))
    else console.write x.2 bytes

theorem foldM_output_eq {l : List ((K.suite name).Signature × String)}
    (h : List.Forall₂ (fun x y => (K.library name).serializeSignature x.1 = some y.1 ∧ x.2 = y.2) l
      outputs)
    (hwrite : ∀ filename ∈ fileOutputs (outputs.map Prod.snd), console.paths.canWrite filename = true) :
    Outcome.foldM (output K name) console l = .ok (console.put outputs) := by
  induction h generalizing console with
  | nil => rw [Console.put_nil]; rfl
  | @cons x y l outputs hxy _ ih =>
    obtain ⟨signature, filename⟩ := x
    obtain ⟨bytes, _⟩ := y
    obtain ⟨hbytes, rfl⟩ := hxy
    have hrest : ∀ name ∈ fileOutputs (outputs.map Prod.snd),
        (console.put [(bytes, filename)]).paths.canWrite name = true := by
      intro name hname
      refine hwrite name ?_
      rw [List.map_cons, fileOutputs]
      exact ((List.sublist_cons_self _ _).filter _).subset hname
    rw [← Console.put_cons]
    refine Eq.trans ?_ (ih hrest)
    change ((Outcome.okOr _ ((K.library name).serializeSignature signature)).bind _).bind _ = _
    rw [show (K.library name).serializeSignature signature = some bytes from hbytes]
    change (if filename = "" ∨ filename = "-" then _ else _ : Outcome ConfigError Console).bind _ = _
    split_ifs with hdash
    · rw [Console.put_println hdash]
      rfl
    · rw [Console.put_write hdash (hwrite filename (List.mem_filter.mpr
        ⟨List.mem_cons_self, by simpa using hdash⟩))]
      rfl

/-- After outputs that are kept apart every one of them can be read back. -/
theorem Console.Separates.shows (h : console.Separates (outputs.map Prod.snd)) {bytes : Bytes}
    {filename : String} (hmem : (bytes, filename) ∈ outputs) :
    (console.put outputs).Shows filename bytes := by
  unfold Console.Shows
  split_ifs with hdash
  · exact List.mem_append_right _ (List.mem_filterMap.mpr ⟨_, hmem, if_pos hdash⟩)
  -- what goes to files, in the order of the names
  have hfiles : Target.filesOf (outputs.filterMap fun x => if x.2 = "" ∨ x.2 = "-" then none
      else some (console.paths.resolve x.2, x.1)) =
        (fileOutputs (outputs.map Prod.snd)).filterMap fun filename =>
          (console.paths.resolve filename).fileName := by
    rw [Target.filesOf, fileOutputs, List.filterMap_filterMap, ← List.filterMap_eq_filter,
      List.filterMap_filterMap, List.filterMap_map]
    refine List.filterMap_congr fun x _ => ?_
    by_cases hx : x.2 = "" ∨ x.2 = "-"
    · rcases hx with hx | hx <;> simp [hx, Option.guard]
    · rw [not_or] at hx
      simp [hx.1, hx.2, Option.guard]
  have hwritten : (console.paths.resolve filename, bytes) ∈ outputs.filterMap fun x =>
      if x.2 = "" ∨ x.2 = "-" then none else some (console.paths.resolve x.2, x.1) :=
    List.mem_filterMap.mpr ⟨_, hmem, if_neg hdash⟩
  have hname : filename ∈ fileOutputs (outputs.map Prod.snd) :=
    List.mem_filter.mpr ⟨List.mem_map_of_mem (f := Prod.snd) hmem, by simpa using hdash⟩
  change match console.paths.resolve filename with
    | .file name => Target.contents (console.written ++ _) name = some bytes
    | .stdout => (.stdout, bytes) ∈ console.written ++ _
    | .elsewhere => False
  cases htarget : console.paths.resolve filename with
  | file name =>
    rw [htarget] at hwritten
    exact Target.contents_append (Target.contents_of_mem hwritten (hfiles ▸ h.files))
  | stdout =>
    rw [htarget] at hwritten
    exact List.mem_append_right _ hwritten
  | elsewhere => exact h.kept _ hname htarget

theorem Console.separates_replicate (n : ℕ) : console.Separates (List.replicate n "-") := by
  have hnone : fileOutputs (List.replicate n "-") = [] :=
    List.filter_eq_nil_iff.mpr fun filename hmem => by simp [List.eq_of_mem_replicate hmem]
  constructor
  · rw [hnone]
    exact fun _ hmem => absurd hmem List.not_mem_nil
  · rw [hnone]
    exact fun _ hmem => absurd hmem List.not_mem_nil
  · rw [hnone]
    exact List.nodup_nil

theorem exists_shown {signatures : List (K.suite name).Signature} {names : List String}
    (hlength : names.length = signatures.length)
    (hserialize : ∀ signature ∈ signatures, ∃ bytes,
      (K.library name).serializeSignature signature = some bytes)
    (houtputs : console.Separates names) : ∃ console',
      Outcome.foldM (output K name) console (signatures.zip names) = .ok console' ∧
      ∀ (i : ℕ) signature filename, signatures[i]? = some signature → names[i]? = some filename →
        ∃ bytes, (K.library name).serializeSignature signature = some bytes ∧
          console'.Shows filename bytes := by
  choose! serialize hbytes using hserialize
  have hnames : ((signatures.map serialize).zip names).map Prod.snd = names :=
    List.map_snd_zip (by rw [List.length_map, hlength])
  have hzip : (signatures.map serialize).zip names =
      (signatures.zip names).map fun x => (serialize x.1, x.2) := by
    rw [List.zip_map_left]
    rfl
  have hall : List.Forall₂ (fun x y => (K.library name).serializeSignature x.1 = some y.1 ∧
      x.2 = y.2) (signatures.zip names) ((signatures.map serialize).zip names) := by
    rw [hzip, List.forall₂_map_right_iff, List.forall₂_same]
    exact fun x hx => ⟨hbytes x.1 (List.of_mem_zip hx).1, rfl⟩
  rw [← hnames] at houtputs
  refine ⟨_, foldM_output_eq hall houtputs.canWrite, fun i signature filename hsignature hfilename => ?_⟩
  refine ⟨_, hbytes signature (List.mem_of_getElem? hsignature), houtputs.shows ?_⟩
  rw [hzip]
  exact List.mem_map.mpr ⟨(signature, filename),
    List.mem_of_getElem? (List.getElem?_zip_eq_some.mpr ⟨hsignature, hfilename⟩), rfl⟩

theorem Coordinator.exists_writeSignatures {signatures : List (K.suite name).Signature}
    {signatureFn : List String}
    (hlength : signatureFn = [] ∨ signatureFn.length = signatures.length)
    (hserialize : ∀ signature ∈ signatures, ∃ bytes,
      (K.library name).serializeSignature signature = some bytes)
    (houtputs : console.Separates signatureFn) : ∃ console',
      writeSignatures K name signatureFn signatures console = .ok console' ∧
      ∀ (i : ℕ) signature, signatures[i]? = some signature →
        ∃ bytes, (K.library name).serializeSignature signature = some bytes ∧
          console'.Shows (signatureFn.getD i "-") bytes := by
  by_cases hnone : signatureFn = []
  · subst hnone
    obtain ⟨console', hwrite, hshows⟩ := exists_shown (List.length_replicate (a := "-"))
      hserialize (Console.separates_replicate _)
    refine ⟨console', hwrite, fun i signature hsignature => hshows i signature _ hsignature ?_⟩
    rw [List.getElem?_replicate, if_pos (List.getElem?_eq_some_iff.mp hsignature).1]
    rfl
  · have hsame := hlength.resolve_left hnone
    obtain ⟨console', hwrite, hshows⟩ := exists_shown hsame hserialize houtputs
    refine ⟨console', ?_, fun i signature hsignature => hshows i signature _ hsignature ?_⟩
    · rw [writeSignatures]
      dsimp only
      rw [if_neg hnone]
      exact hwrite
    · have hi := (List.getElem?_eq_some_iff.mp hsignature).1
      rw [List.getD_eq_getElem?_getD, List.getElem?_eq_getElem (hsame ▸ hi), Option.getD_some]

end Outputs

theorem Participant.prepared_eq {G : SigningGroup K name} {fs : FileSystem L} {config : Config}
    {command : ParticipantCommand} {pubkey : PublicKey} {pair : CommunicationKey} {group : Group}
    {prepared : Prepared K name} (hread : Config.read fs command.config = .ok config)
    (hholds : G.Holds config command.group pubkey pair group)
    (h : prepare K name fs command = .ok prepared) :
    prepared = ⟨⟨G.keyPackage pubkey⟩, K.uuidParseStr (command.session.getD ""),
      ⟨some pubkey, some pubkey, some fun coordinatorPubkey =>
        (((tableOf (L.ciphersuite name) G.members).toSortedList.map Prod.snd).find? fun p =>
          p.pubkey = coordinatorPubkey).map Client.Participant.pubkey⟩⟩ := by
  obtain ⟨_, hread', h⟩ := Outcome.bind_eq_ok_iff.mp h
  obtain ⟨_, hgroup, h⟩ := Outcome.bind_eq_ok_iff.mp h
  obtain ⟨keyPackage, hkeyPackage, h⟩ := Outcome.bind_eq_ok_iff.mp h
  obtain ⟨host, -, h⟩ := Outcome.bind_eq_ok_iff.mp h
  obtain ⟨_, -, h⟩ := Outcome.bind_eq_ok_iff.mp h
  obtain ⟨key, hkey, h⟩ := Outcome.bind_eq_ok_iff.mp h
  obtain rfl := Outcome.ok.inj (hread.symm.trans hread')
  obtain rfl := Option.some.inj (hholds.stored.symm.trans (Outcome.okOr_eq_ok_iff.mp hgroup))
  rw [Outcome.okOr_eq_ok_iff] at hkeyPackage hkey
  obtain rfl := Option.some.inj (hholds.keyPackage.symm.trans hkeyPackage)
  obtain rfl := Option.some.inj (hholds.communicationKey.symm.trans hkey)
  rw [← Outcome.ok.inj h, hholds.keyPair, hholds.own, hholds.participant]

def sampleSigningShares (n : ℕ) : Map (Fin 256) (Fin 256) :=
  .ofList ((List.range n).map fun i => ((UInt8.ofNat (i + 1)).toFin, (UInt8.ofNat (i + 1)).toFin))

/-- The ciphersuites of `sampleSuite`, with up to 255 signers. -/
def sampleSigning : Libraries where
  ciphersuite name := {
    ID := if name = .ed25519 then "ed25519" else "redpallas"
    Identifier := Fin 256
    SecretShare := Fin 256
    KeyPackage := Fin 256
    PublicKeyPackage := Finset (Fin 256)
    Round1Package := UInt8
    Round2Package := UInt8
    decodeDkg := Dkg.Network.sampleCodec.decode
    serializeIdentifier := fun (i : Fin 256) => [UInt8.ofFin i]
    derive := fun _ pubkey => pubkey.bytes.head?.map UInt8.toFin
    generateWithDealer := fun maxSigners minSigners _ =>
      if 1 ≤ minSigners.toNat ∧ minSigners ≤ maxSigners ∧ maxSigners.toNat < 256 then
        some (sampleSigningShares maxSigners.toNat, Finset.univ)
      else none
    evenY := none
    keyPackageTryFrom := some
    minSigners := fun _ => 2
    verifyingKey := fun _ => some [1]
    verifyingShares := fun p => p
    encodeKeyPackage := fun (k : Fin 256) => some [UInt8.ofFin k]
    decodeKeyPackage := fun bytes => bytes.head?.map UInt8.toFin
    encodePublicKeyPackage := fun (p : Finset (Fin 256)) => some ((p.sort (· ≤ ·)).map UInt8.ofFin)
    decodePublicKeyPackage := fun bytes => some (bytes.map UInt8.toFin).toFinset }
  Text := Config
  tomlToStringPretty config := some { config with path := none }
  tomlFromStr := some
  bech32Decode text := (hexDecode text).map fun bytes => ("zffrost", bytes)
  postcardContact bytes := some ⟨some 0, hexEncode bytes, ⟨bytes⟩⟩
  urlHostStr url := some (some url)
  defaultPath := "credentials.toml"

theorem len_sampleSigningShares {n : ℕ} (hn : n < 256) : (sampleSigningShares n).len = n := by
  rw [sampleSigningShares, Map.len_ofList, List.length_map, List.length_range]
  rw [List.map_map]
  apply List.nodup_range.map_on
  intro i hi j hj h
  have hval : (i + 1) % 256 = (j + 1) % 256 := congrArg Fin.val h
  rw [List.mem_range] at hi hj
  omega

theorem sampleSigning_lawful : sampleSigning.Lawful where
  toml h := by
    obtain rfl := Option.some.inj h
    rfl
  keyPackage h := by
    obtain rfl := Option.some.inj h
    rfl
  publicKeyPackage {_ p _} h := by
    obtain rfl := Option.some.inj h
    refine congrArg some ?_
    rw [List.map_map]
    exact (congrArg List.toFinset (List.map_id _)).trans (Finset.sort_toFinset _ _)
  generateWithDealer h := by
    obtain ⟨hsigners, h⟩ := Option.ite_none_right_eq_some.mp h
    obtain ⟨rfl, -⟩ := Prod.mk.inj (Option.some.inj h)
    exact len_sampleSigningShares hsigners.2.2
  ID_ne := by decide

def sampleSigningLibraries : SigningLibraries sampleSigning where
  library _ := {
    SigningCommitments := UInt8
    SigningNonces := UInt8
    SignatureShare := UInt8
    Randomizer := UInt8
    Signature := Bytes × Option UInt8
    identifier := fun keyPackage => keyPackage
    sign := fun _ nonces _ => some nonces
    signRerandomized := fun _ (nonces : UInt8) _ (randomizer : UInt8) => some (nonces + randomizer)
    aggregate := fun package _ _ => some (package.message, none)
    aggregateRerandomized := fun package _ _ randomizer => some (package.message, some randomizer)
    deserializeIdentifier := fun bytes => bytes.head?.map UInt8.toFin
    deserializeRandomizer := List.head?
    serializeSignature := fun signature => some signature.1 }
  http
    | .ed25519 => ⟨fun _ _ => none, ⟨fun _ => none, fun _ => none⟩, fun _ => none, fun _ => [],
      fun _ => [], fun _ => [], fun _ => [], fun _ => []⟩
    | .redpallas => Http.sampleHttpLibrary
  keyPair privkey := ⟨privkey⟩
  uuidParseStr _ := none

theorem sampleSigning_reads (name : CiphersuiteName) :
    ReadsIdentifiers _ (sampleSigningLibraries.library name).deserializeIdentifier :=
  fun _ => rfl

theorem sampleSigning_complete (G : SigningGroup sampleSigningLibraries .redpallas) :
    G.Complete Http.sampleMatches Http.sampleVerifies := by
  intro D hkeyPackage hpublic hsigners hthreshold hcommit
  exact {
    commit := hcommit
    sign := fun randomizer _ _ _ _ _ nonces _ _ _ => by
      cases randomizer <;> exact ⟨_, rfl⟩
    aggregate := fun randomizer _ _ _ _ _ => by
      cases randomizer <;> exact ⟨_, rfl, rfl⟩ }

end FrostTools.Signing
