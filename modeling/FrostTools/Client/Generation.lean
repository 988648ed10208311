import FrostTools.Client.Participants

/-!
# The participants of a generated key

Every participant of a key generation derives the identifiers of the session by itself, and
stores them with the public keys they were derived from.
-/

namespace FrostTools.Client

variable {L : Libraries} {C : Ciphersuite} {sessionId : Uuid} {members : List PublicKey}

def sessionEntries (C : Ciphersuite) (sessionId : Uuid) (members : List PublicKey) :
    List (C.Identifier × PublicKey) :=
  members.dedup.filterMap fun pubkey =>
    (C.derive sessionId pubkey).map fun identifier => (identifier, pubkey)

def sessionTable (C : Ciphersuite) (sessionId : Uuid) (members : List PublicKey) :
    Map String Participant :=
  tableOf C (sessionEntries C sessionId members)

def DerivesDistinct (C : Ciphersuite) (sessionId : Uuid) (members : List PublicKey) : Prop :=
  ∀ p ∈ members, ∀ q ∈ members, C.derive sessionId p = C.derive sessionId q → p = q

/-- A participant of a session with a public key that ends its key generation. The verifying shares
of `part3` are those of the session, and its key package has the participant's identifier. -/
structure Finishes {name : CiphersuiteName}
    (identifierOf : (L.ciphersuite name).KeyPackage → (L.ciphersuite name).Identifier)
    (sessionId : Uuid) (members : List PublicKey) (pubkey : PublicKey) (fs fs' : FileSystem L)
    (args : DkgArgs) (inputs : DkgInputs (L.ciphersuite name)) : Prop where
  own : ∃ config, Config.read fs args.config = .ok config ∧
    config.communicationKey.map CommunicationKey.pubkey = some pubkey
  session : ∀ participants s, inputs.session participants = some s → s = (sessionId, members)
  keyPackage : ∀ identifier maxSigners minSigners k p,
    inputs.part3 identifier maxSigners minSigners = some (k, p) → identifierOf k = identifier
  verifyingShares : ∀ identifier maxSigners minSigners k p,
    inputs.part3 identifier maxSigners minSigners = some (k, p) →
    ∀ i, i ∈ (L.ciphersuite name).verifyingShares p ↔
      ∃ pubkey ∈ members, (L.ciphersuite name).derive sessionId pubkey = some i
  ends : dkgForCiphersuite (L.ciphersuite name) fs args inputs = .ok fs'

def Stores (fs fs' : FileSystem L) (path : Option String) (group : Group) : Prop :=
  ∃ config key, Rewrites fs fs' path config
    { config with group := config.group.insert key group }

theorem mem_sessionEntries_iff {identifier : C.Identifier} {pubkey : PublicKey} :
    (identifier, pubkey) ∈ sessionEntries C sessionId members ↔
      pubkey ∈ members ∧ C.derive sessionId pubkey = some identifier := by
  simp only [sessionEntries, List.mem_filterMap, List.mem_dedup, Option.map_eq_some_iff,
    Prod.mk.injEq]
  constructor
  · rintro ⟨_, hmem, _, hderive, rfl, rfl⟩
    exact ⟨hmem, hderive⟩
  · rintro ⟨hmem, hderive⟩
    exact ⟨pubkey, hmem, identifier, hderive, rfl, rfl⟩

theorem nodup_sessionEntries : (sessionEntries C sessionId members).Nodup := by
  apply (List.nodup_dedup members).filterMap
  intro p q e hp hq
  simp only [Option.mem_def, Option.map_eq_some_iff] at hp hq
  obtain ⟨_, -, rfl⟩ := hp
  obtain ⟨_, -, heq⟩ := hq
  exact (Prod.mk.inj heq).2.symm

theorem nodup_sessionEntries_pubkey :
    ((sessionEntries C sessionId members).map Prod.snd).Nodup := by
  apply List.Nodup.map_on _ nodup_sessionEntries
  rintro ⟨i, p⟩ hp ⟨j, q⟩ hq heq
  dsimp only at heq
  subst heq
  rw [mem_sessionEntries_iff] at hp hq
  rw [Option.some.inj (hp.2.symm.trans hq.2)]

theorem nodup_sessionEntries_identifier (hdistinct : DerivesDistinct C sessionId members) :
    ((sessionEntries C sessionId members).map Prod.fst).Nodup := by
  apply List.Nodup.map_on _ nodup_sessionEntries
  rintro ⟨i, p⟩ hp ⟨j, q⟩ hq heq
  dsimp only at heq
  subst heq
  rw [mem_sessionEntries_iff] at hp hq
  rw [hdistinct p hp.1 q hq.1 (hp.2.trans hq.2.symm)]

theorem lookup_sessionTable_iff {deserialize : Bytes → Option C.Identifier}
    (h : ReadsIdentifiers C deserialize) (hdistinct : DerivesDistinct C sessionId members)
    {key : String} {participant : Participant} :
    (sessionTable C sessionId members).lookup key = some participant ↔
      ∃ identifier, participant.pubkey ∈ members ∧
        C.derive sessionId participant.pubkey = some identifier ∧
        key = hexEncode (C.serializeIdentifier identifier) ∧
        participant.identifier = C.serializeIdentifier identifier := by
  rw [sessionTable, lookup_tableOf_iff h (nodup_sessionEntries_identifier hdistinct)]
  constructor
  · rintro ⟨identifier, pubkey, hmem, rfl, rfl⟩
    rw [mem_sessionEntries_iff] at hmem
    exact ⟨identifier, hmem.1, hmem.2, rfl, rfl⟩
  · rintro ⟨identifier, hmem, hderive, rfl, heq⟩
    refine ⟨identifier, participant.pubkey, mem_sessionEntries_iff.mpr ⟨hmem, hderive⟩, rfl, ?_⟩
    rw [← heq]

theorem lookup_sessionPubkeys_iff {pubkeyMap : Map PublicKey C.Identifier}
    (h : sessionPubkeys C sessionId members = .ok pubkeyMap) {pubkey : PublicKey}
    {identifier : C.Identifier} : pubkeyMap.lookup pubkey = some identifier ↔
      pubkey ∈ members ∧ C.derive sessionId pubkey = some identifier := by
  obtain ⟨_, hentries, h⟩ := Outcome.bind_eq_ok_iff.mp h
  obtain rfl := Outcome.ok.inj h
  obtain ⟨entries, hfst, hderived, rfl⟩ := Outcome.exists_of_mapM_okOr hentries
  rw [show entries.map (fun x => (x.1, x.2)) = entries from List.map_id entries] at hentries ⊢
  constructor
  · intro hlookup
    have hmem := Map.mem_of_lookup_ofList hlookup
    exact ⟨hfst ▸ List.mem_map_of_mem hmem, hderived _ _ hmem⟩
  · rintro ⟨hmem, hderive⟩
    rw [← hfst, ← Map.mem_keys_ofList, Map.mem_keys_iff] at hmem
    obtain ⟨identifier', hlookup⟩ := hmem
    have hderive' := hderived _ _ (Map.mem_of_lookup_ofList hlookup)
    rw [hlookup, ← hderive', hderive]

theorem lookup_reversePubkeyMap_iff {pubkeyMap : Map PublicKey C.Identifier} {order : List PublicKey}
    (horder : order.toFinset = pubkeyMap.keys)
    (hdistinct : ∀ p q i, pubkeyMap.lookup p = some i → pubkeyMap.lookup q = some i → p = q)
    {pubkey : PublicKey} {identifier : C.Identifier} :
    (reversePubkeyMap pubkeyMap order).lookup identifier = some pubkey ↔
      pubkeyMap.lookup pubkey = some identifier := by
  have hmem : ∀ i p, (i, p) ∈ order.filterMap (fun pubkey =>
        (pubkeyMap.lookup pubkey).map fun identifier => (identifier, pubkey)) ↔
      pubkeyMap.lookup p = some i := by
    intro i p
    simp only [List.mem_filterMap, Option.map_eq_some_iff, Prod.mk.injEq]
    constructor
    · rintro ⟨_, -, _, hlookup, rfl, rfl⟩
      exact hlookup
    · intro hlookup
      refine ⟨p, ?_, i, hlookup, rfl, rfl⟩
      rw [← List.mem_toFinset, horder]
      exact Map.mem_keys_of_lookup hlookup
  rw [reversePubkeyMap, Map.lookup_ofList_of_unique, hmem]
  intro i p q hp hq
  exact hdistinct p q i ((hmem i p).mp hp) ((hmem i q).mp hq)

theorem dkgParticipants_eq {p : C.PublicKeyPackage} {pubkeyMap : Map C.Identifier PublicKey}
    {table : Map String Participant} (h : dkgParticipants p pubkeyMap = .ok table) :
    ∃ entries, table = tableOf C entries ∧
      entries.map Prod.fst = (C.verifyingShares p).sort (· ≤ ·) ∧
      ∀ identifier pubkey, (identifier, pubkey) ∈ entries →
        pubkeyMap.lookup identifier = some pubkey := by
  obtain ⟨_, hstored, h⟩ := Outcome.bind_eq_ok_iff.mp h
  obtain rfl := Outcome.ok.inj h
  obtain ⟨entries, hfst, hlookup, rfl⟩ := Outcome.exists_of_mapM_okOr hstored
  exact ⟨entries, rfl, hfst, hlookup⟩

section Participant

variable {name : CiphersuiteName} {deserialize : Bytes → Option (L.ciphersuite name).Identifier}
  {identifierOf : (L.ciphersuite name).KeyPackage → (L.ciphersuite name).Identifier}
  {pubkey : PublicKey} {fs fs' : FileSystem L} {args : DkgArgs}
  {inputs : DkgInputs (L.ciphersuite name)}

/-- The participants of a group with a verifying share for each identifier of the session. -/
theorem Generates.participant_eq (hreads : ReadsIdentifiers _ deserialize)
    (hdistinct : DerivesDistinct (L.ciphersuite name) sessionId members) {config : Config}
    {identifier : (L.ciphersuite name).Identifier} {k : (L.ciphersuite name).KeyPackage}
    {p : (L.ciphersuite name).PublicKeyPackage}
    {pubkeyMap : Map PublicKey (L.ciphersuite name).Identifier} {key : String} {group : Group}
    (h : Generates fs fs' args inputs config pubkey sessionId members identifier k p pubkeyMap key group)
    (hshares : ∀ i, i ∈ (L.ciphersuite name).verifyingShares p ↔
      ∃ pubkey ∈ members, (L.ciphersuite name).derive sessionId pubkey = some i) :
    group.participant = sessionTable (L.ciphersuite name) sessionId members := by
  have hpubkeys := @lookup_sessionPubkeys_iff _ _ _ _ h.pubkeys
  obtain ⟨entries, htable, hfst, hlookup⟩ := dkgParticipants_eq h.participant
  have hreverse := @lookup_reversePubkeyMap_iff _ pubkeyMap _
    (inputs.iterate pubkeyMap.keys).property.2 (by
      intro p q i hp hq
      rw [hpubkeys] at hp hq
      exact hdistinct p hp.1 q hq.1 (hp.2.trans hq.2.symm))
  rw [htable]
  refine tableOf_congr hreads ?_ (nodup_sessionEntries_identifier hdistinct) fun i q => ?_
  · rw [hfst]
    exact Finset.sort_nodup _ _
  rw [mem_sessionEntries_iff, ← hpubkeys, ← hreverse]
  refine ⟨hlookup i q, fun hq => ?_⟩
  -- every identifier of the session has a verifying share
  rw [hreverse, hpubkeys] at hq
  have hmem : i ∈ entries.map Prod.fst := by
    rw [hfst, Finset.mem_sort, hshares]
    exact ⟨q, hq⟩
  obtain ⟨⟨_, q'⟩, hentry, rfl⟩ := List.mem_map.mp hmem
  have hq' := hlookup _ _ hentry
  rw [hreverse, hpubkeys] at hq'
  rwa [hdistinct q hq.1 q' hq'.1 (hq.2.trans hq'.2.symm)]

theorem Finishes.stores (hL : L.Lawful) (hreads : ReadsIdentifiers _ deserialize)
    (hdistinct : DerivesDistinct (L.ciphersuite name) sessionId members)
    (h : Finishes identifierOf sessionId members pubkey fs fs' args inputs) :
    ∃ group k, Stores fs fs' args.config group ∧
      group.participant = sessionTable (L.ciphersuite name) sessionId members ∧
      (L.ciphersuite name).decodeKeyPackage group.keyPackage = some k ∧
      (L.ciphersuite name).derive sessionId pubkey = some (identifierOf k) := by
  obtain ⟨config, pubkey', _, _, identifier, k, p, pubkeyMap, key, group, hgenerates⟩ :=
    dkgForCiphersuite_cases hL h.ends
  -- the participant's own public key and its session
  obtain ⟨config', hread, hown⟩ := h.own
  obtain rfl := Outcome.ok.inj (hread.symm.trans hgenerates.rewrites.before)
  obtain rfl := Option.some.inj (hown.symm.trans hgenerates.own)
  obtain ⟨participants, hsession⟩ := hgenerates.session
  obtain ⟨rfl, rfl⟩ := Prod.mk.inj (h.session participants _ hsession)
  refine ⟨group, k, ⟨config', key, hgenerates.rewrites⟩, ?_, hL.keyPackage hgenerates.keyPackage, ?_⟩
  · exact hgenerates.participant_eq hreads hdistinct (h.verifyingShares _ _ _ _ _ hgenerates.part3)
  · rw [h.keyPackage _ _ _ _ _ hgenerates.part3]
    exact hgenerates.derived

end Participant

/-- All participants have the same table, which has one entry for each public key, with the
identifier in the key package of its owner. -/
structure TablesAgree {name : CiphersuiteName}
    (deserialize : Bytes → Option (L.ciphersuite name).Identifier)
    (identifierOf : (L.ciphersuite name).KeyPackage → (L.ciphersuite name).Identifier)
    (members : List PublicKey) (table : Map String Participant) (groups : PublicKey → Group) :
    Prop where
  participant : ∀ pubkey ∈ members, (groups pubkey).participant = table
  member : ∀ key participant, table.lookup key = some participant → participant.pubkey ∈ members
  entry : ∀ pubkey ∈ members, ∃! key, ∃ participant, table.lookup key = some participant ∧
    participant.pubkey = pubkey
  identifier : ∀ pubkey ∈ members, ∀ owner ∈ members, ∃ k,
    (L.ciphersuite name).decodeKeyPackage (groups owner).keyPackage = some k ∧
      (groups pubkey).identifierByPubkey deserialize owner = .ok (identifierOf k)

/-- The participants of a key generation that all of them end store the same participants. -/
theorem participant_tables_agree (hL : L.Lawful) {name : CiphersuiteName}
    {deserialize : Bytes → Option (L.ciphersuite name).Identifier}
    (hreads : ReadsIdentifiers _ deserialize)
    {identifierOf : (L.ciphersuite name).KeyPackage → (L.ciphersuite name).Identifier}
    (hdistinct : DerivesDistinct (L.ciphersuite name) sessionId members)
    {before after : PublicKey → FileSystem L} {args : PublicKey → DkgArgs}
    {inputs : PublicKey → DkgInputs (L.ciphersuite name)}
    (h : ∀ pubkey ∈ members, Finishes identifierOf sessionId members pubkey (before pubkey)
      (after pubkey) (args pubkey) (inputs pubkey)) :
    ∃ table groups,
      (∀ pubkey ∈ members,
        Stores (before pubkey) (after pubkey) (args pubkey).config (groups pubkey)) ∧
      TablesAgree deserialize identifierOf members table groups := by
  -- every participant derives the same table by itself
  have hstores : ∀ pubkey, ∃ group, pubkey ∈ members → ∃ k,
      Stores (before pubkey) (after pubkey) (args pubkey).config group ∧
      group.participant = sessionTable (L.ciphersuite name) sessionId members ∧
      (L.ciphersuite name).decodeKeyPackage group.keyPackage = some k ∧
      (L.ciphersuite name).derive sessionId pubkey = some (identifierOf k) := by
    intro pubkey
    by_cases hpubkey : pubkey ∈ members
    · obtain ⟨group, hgroup⟩ := (h pubkey hpubkey).stores hL hreads hdistinct
      exact ⟨group, fun _ => hgroup⟩
    · exact ⟨⟨"", "", [], [], none, ∅⟩, fun hmem => absurd hmem hpubkey⟩
  choose groups hgroups using hstores
  have htable : ∀ pubkey ∈ members,
      (groups pubkey).participant = sessionTable (L.ciphersuite name) sessionId members := by
    intro pubkey hpubkey
    obtain ⟨_, -, htable, -, -⟩ := hgroups pubkey hpubkey
    exact htable
  refine ⟨sessionTable (L.ciphersuite name) sessionId members, groups, fun pubkey hpubkey => ?_,
    htable, fun key participant hlookup => ?_, fun pubkey hpubkey => ?_,
    fun pubkey hpubkey owner howner => ?_⟩
  · obtain ⟨_, hstores, -⟩ := hgroups pubkey hpubkey
    exact hstores
  · obtain ⟨_, hmember, -⟩ := (lookup_sessionTable_iff hreads hdistinct).mp hlookup
    exact hmember
  · obtain ⟨k, -, -, -, hderive⟩ := hgroups pubkey hpubkey
    refine ⟨_, ⟨⟨_, pubkey⟩, (lookup_sessionTable_iff hreads hdistinct).mpr
      ⟨_, hpubkey, hderive, rfl, rfl⟩, rfl⟩, ?_⟩
    rintro key ⟨participant, hlookup, rfl⟩
    obtain ⟨_, -, hderive', rfl, -⟩ := (lookup_sessionTable_iff hreads hdistinct).mp hlookup
    rw [Option.some.inj (hderive'.symm.trans hderive)]
  · obtain ⟨k, -, -, hk, hderive⟩ := hgroups owner howner
    refine ⟨k, hk, ?_⟩
    exact (forall_identifierByPubkey_iff hreads (nodup_sessionEntries_identifier hdistinct)
      (htable pubkey hpubkey)).mpr nodup_sessionEntries_pubkey _ _
        (mem_sessionEntries_iff.mpr ⟨howner, hderive⟩)

/-- The sample libraries, with identifiers that are the first byte of a public key, in unary. -/
def sampleGenerator : Libraries := { sampleLibraries with
  ciphersuite := fun name => { sampleLibraries.ciphersuite name with
    serializeIdentifier := fun (i : ℕ) => List.replicate i 1
    derive := fun _ pubkey => pubkey.bytes.head?.map UInt8.toNat
    verifyingShares := fun _ => ({1, 2} : Finset ℕ)
    decodeDkg := ⟨fun _ => some (), fun _ => none, fun _ => some ()⟩ }
  urlHostStr := fun url => some (some url) }

theorem sampleGenerator_lawful : sampleGenerator.Lawful where
  toml := sampleLibraries_lawful.toml
  keyPackage h := by
    obtain rfl := Option.some.inj h
    rfl
  publicKeyPackage h := by
    obtain rfl := Option.some.inj h
    rfl
  generateWithDealer h := by
    obtain ⟨rfl, -⟩ := Prod.mk.inj (Option.some.inj h)
    exact len_sampleShares _
  ID_ne := sampleLibraries_lawful.ID_ne

def sampleMembers : List PublicKey := [⟨[1]⟩, ⟨[2]⟩, ⟨[1]⟩]

def samplePeer (pubkey : PublicKey) : PublicKey := if pubkey = ⟨[1]⟩ then ⟨[2]⟩ else ⟨[1]⟩

def sampleUser (pubkey : PublicKey) : FileSystem sampleGenerator :=
  Map.insert (∅ : Map String Config) "a" { Config.default with
    communicationKey := some ⟨[], pubkey⟩
    contact := Map.insert (∅ : Map String Contact) "peer" ⟨none, "peer", samplePeer pubkey⟩ }

noncomputable def sampleInputs (pubkey : PublicKey) :
    DkgInputs (sampleGenerator.ciphersuite .ed25519) where
  session _ := some (0, sampleMembers)
  msgs := [⟨samplePeer pubkey, []⟩, ⟨samplePeer pubkey, []⟩]
  part3 := fun (identifier : ℕ) _ _ =>
    if identifier = 1 then some ((1 : UInt8), (7 : UInt8))
    else if identifier = 2 then some ((2 : UInt8), (7 : UInt8))
    else none
  iterate keys :=
    if h : keys = {⟨[1]⟩, ⟨[2]⟩} then ⟨[⟨[1]⟩, ⟨[2]⟩], by rw [h]; decide⟩
    else ⟨keys.toList, keys.nodup_toList, keys.toList_toFinset⟩

def sampleDkgArgs : DkgArgs := ⟨some "a", "group", "localhost", "ed25519", 2, []⟩

def sampleIdentifierOf (k : (sampleGenerator.ciphersuite .ed25519).KeyPackage) :
    (sampleGenerator.ciphersuite .ed25519).Identifier :=
  UInt8.toNat k

theorem mem_sampleMembers {pubkey : PublicKey} (h : pubkey ∈ sampleMembers) :
    pubkey = ⟨[1]⟩ ∨ pubkey = ⟨[2]⟩ := by
  have hall : ∀ pubkey ∈ sampleMembers, pubkey = ⟨[1]⟩ ∨ pubkey = ⟨[2]⟩ := by decide
  exact hall pubkey h

theorem sort_verifyingShares (p : (sampleGenerator.ciphersuite .ed25519).PublicKeyPackage) :
    ((sampleGenerator.ciphersuite .ed25519).verifyingShares p).sort (· ≤ ·) = ([1, 2] : List ℕ) := by
  show ({1, 2} : Finset ℕ).sort (· ≤ ·) = [1, 2]
  rw [Finset.sort_insert (· ≤ ·) (by decide) (by decide), Finset.sort_singleton]

theorem sample_ends {pubkey : PublicKey} (h : pubkey ∈ sampleMembers) :
    ∃ fs', dkgForCiphersuite (sampleGenerator.ciphersuite .ed25519) (sampleUser pubkey) sampleDkgArgs
      (sampleInputs pubkey) = .ok fs' := by
  apply Outcome.isOk_iff.mp
  simp only [dkgForCiphersuite, dkgParticipants, sort_verifyingShares]
  rcases mem_sampleMembers h with rfl | rfl
  · decide
  · decide

theorem sample_finishes {pubkey : PublicKey} {fs' : FileSystem sampleGenerator}
    (hends : dkgForCiphersuite (sampleGenerator.ciphersuite .ed25519) (sampleUser pubkey) sampleDkgArgs
      (sampleInputs pubkey) = .ok fs') :
    Finishes sampleIdentifierOf 0 sampleMembers pubkey (sampleUser pubkey) fs' sampleDkgArgs
      (sampleInputs pubkey) where
  own := ⟨_, rfl, rfl⟩
  session _ _ hsession := (Option.some.inj hsession).symm
  keyPackage := by
    intro identifier _ _ k p hpart3
    simp only [sampleInputs] at hpart3
    split_ifs at hpart3 with hone htwo
    · obtain ⟨rfl, -⟩ := Prod.mk.inj (Option.some.inj hpart3)
      exact hone.symm
    · obtain ⟨rfl, -⟩ := Prod.mk.inj (Option.some.inj hpart3)
      exact htwo.symm
  verifyingShares := by
    have hshares : ∀ i : ℕ, i ∈ ({1, 2} : Finset ℕ) ↔
        ∃ pubkey ∈ sampleMembers, pubkey.bytes.head?.map UInt8.toNat = some i := by
      intro i
      simp only [sampleMembers, List.mem_cons, List.not_mem_nil, or_false, Finset.mem_insert,
        Finset.mem_singleton, exists_eq_or_imp, exists_eq_left, List.head?_cons, Option.map_some,
        Option.some.injEq]
      show i = 1 ∨ i = 2 ↔ 1 = i ∨ 2 = i ∨ 1 = i
      omega
    exact fun _ _ _ _ _ _ i => hshares i
  ends := hends

theorem participant_tables_agree_sample :
    ∃ (after : PublicKey → FileSystem sampleGenerator) (table : _) (groups : _),
    (∀ pubkey ∈ sampleMembers,
      Stores (sampleUser pubkey) (after pubkey) sampleDkgArgs.config (groups pubkey)) ∧
    TablesAgree (fun bytes => some bytes.length) sampleIdentifierOf sampleMembers table groups := by
  have hends : ∀ pubkey, ∃ fs', pubkey ∈ sampleMembers →
      dkgForCiphersuite (sampleGenerator.ciphersuite .ed25519) (sampleUser pubkey) sampleDkgArgs
        (sampleInputs pubkey) = .ok fs' := by
    intro pubkey
    by_cases hpubkey : pubkey ∈ sampleMembers
    · obtain ⟨fs', hfs'⟩ := sample_ends hpubkey
      exact ⟨fs', fun _ => hfs'⟩
    · exact ⟨∅, fun hmem => absurd hmem hpubkey⟩
  choose after hafter using hends
  have hdistinct : ∀ p ∈ sampleMembers, ∀ q ∈ sampleMembers,
      p.bytes.head?.map UInt8.toNat = q.bytes.head?.map UInt8.toNat → p = q := by decide
  exact ⟨after, participant_tables_agree sampleGenerator_lawful
    (fun _ => congrArg some (List.length_replicate ..)) hdistinct
    fun pubkey hpubkey => sample_finishes (hafter pubkey hpubkey)⟩

end FrostTools.Client
