import FrostTools.Client.Contacts

/-!
# The participants of a group

A group keeps its participants under their hex-encoded identifiers and finds one by its public
key. Parsing identifiers is a parameter.
-/

namespace FrostTools.Client

variable {C : Ciphersuite}

def Group.participantByPubkey (group : Group) (pubkey : PublicKey) :
    Outcome ConfigError Participant :=
  Outcome.okOr (.eyre "Participant not found")
    ((group.participant.toSortedList.map Prod.snd).find? fun p => p.pubkey = pubkey)

def Participant.parsedIdentifier (deserialize : Bytes → Option C.Identifier)
    (participant : Participant) : Outcome ConfigError C.Identifier :=
  Outcome.okOr .library (deserialize participant.identifier)

def ReadsIdentifiers (C : Ciphersuite) (deserialize : Bytes → Option C.Identifier) : Prop :=
  ∀ identifier, deserialize (C.serializeIdentifier identifier) = some identifier

/-- The identifier that the group has for a public key. -/
def Group.identifierByPubkey (deserialize : Bytes → Option C.Identifier) (group : Group)
    (pubkey : PublicKey) : Outcome ConfigError C.Identifier :=
  (group.participantByPubkey pubkey).bind (Participant.parsedIdentifier deserialize)

def tableOf (C : Ciphersuite) (entries : List (C.Identifier × PublicKey)) :
    Map String Participant :=
  .ofList (entries.map fun (identifier, pubkey) =>
    (hexEncode (C.serializeIdentifier identifier), ⟨C.serializeIdentifier identifier, pubkey⟩))

section Table

variable {deserialize : Bytes → Option C.Identifier} {entries : List (C.Identifier × PublicKey)}

theorem ReadsIdentifiers.injective (h : ReadsIdentifiers C deserialize) :
    Function.Injective C.serializeIdentifier := by
  intro identifier identifier' heq
  rw [← Option.some.injEq, ← h identifier, ← h identifier', heq]

theorem lookup_tableOf_iff (h : ReadsIdentifiers C deserialize)
    (hentries : (entries.map Prod.fst).Nodup) {key : String} {participant : Participant} :
    (tableOf C entries).lookup key = some participant ↔
      ∃ i pubkey, (i, pubkey) ∈ entries ∧ key = hexEncode (C.serializeIdentifier i) ∧
        participant = ⟨C.serializeIdentifier i, pubkey⟩ := by
  have hmem : ∀ key participant, (key, participant) ∈ entries.map (fun (i, pubkey) =>
        (hexEncode (C.serializeIdentifier i),
          (⟨C.serializeIdentifier i, pubkey⟩ : Participant))) ↔
      ∃ i pubkey, (i, pubkey) ∈ entries ∧ key = hexEncode (C.serializeIdentifier i) ∧
        participant = ⟨C.serializeIdentifier i, pubkey⟩ := by
    intro key participant
    simp only [List.mem_map, Prod.exists, Prod.mk.injEq, eq_comm]
  rw [tableOf, Map.lookup_ofList_of_unique, hmem]
  intro key participant participant' hp hp'
  obtain ⟨i, pubkey, hi, hkey, rfl⟩ := (hmem key participant).mp hp
  obtain ⟨j, pubkey', hj, hkey', rfl⟩ := (hmem key participant').mp hp'
  obtain rfl := h.injective (hexEncode_injective (hkey.symm.trans hkey'))
  rw [(Prod.mk.inj (List.inj_on_of_nodup_map hentries hi hj rfl)).2]

theorem tableOf_congr {entries' : List (C.Identifier × PublicKey)}
    (h : ReadsIdentifiers C deserialize) (hentries : (entries.map Prod.fst).Nodup)
    (hentries' : (entries'.map Prod.fst).Nodup)
    (hmem : ∀ i pubkey, (i, pubkey) ∈ entries ↔ (i, pubkey) ∈ entries') :
    tableOf C entries = tableOf C entries' := by
  ext key participant
  rw [lookup_tableOf_iff h hentries, lookup_tableOf_iff h hentries']
  simp only [hmem]

/-- Every identifier is found by its public key if and only if no two have the same. -/
theorem forall_identifierByPubkey_iff (h : ReadsIdentifiers C deserialize)
    (hentries : (entries.map Prod.fst).Nodup) {group : Group}
    (hgroup : group.participant = tableOf C entries) :
    (∀ i pubkey, (i, pubkey) ∈ entries → group.identifierByPubkey deserialize pubkey = .ok i) ↔
      (entries.map Prod.snd).Nodup := by
  constructor
  · intro hfound
    apply List.Nodup.map_on _ (List.Nodup.of_map _ hentries)
    rintro ⟨i, pubkey⟩ hi ⟨j, pubkey'⟩ hj heq
    dsimp only at heq
    subst heq
    have hij := (hfound i pubkey hi).symm.trans (hfound j pubkey hj)
    rw [Outcome.ok.inj hij]
  · intro hunique i pubkey hi
    have hvalues : ∀ p, p ∈ group.participant.toSortedList.map Prod.snd ↔
        ∃ i pubkey, (i, pubkey) ∈ entries ∧ p = ⟨C.serializeIdentifier i, pubkey⟩ := by
      intro p
      simp only [List.mem_map, Prod.exists, exists_eq_right, Map.mem_toSortedList, hgroup,
        lookup_tableOf_iff h hentries]
      constructor
      · rintro ⟨_, i, pubkey, hi, -, hp⟩
        exact ⟨i, pubkey, hi, hp⟩
      · rintro ⟨i, pubkey, hi, hp⟩
        exact ⟨_, i, pubkey, hi, rfl, hp⟩
    have hfind : (group.participant.toSortedList.map Prod.snd).find? (fun p => p.pubkey = pubkey) =
        some ⟨C.serializeIdentifier i, pubkey⟩ := by
      apply find?_eq_some_of_unique ((hvalues _).mpr ⟨i, pubkey, hi, rfl⟩) (decide_eq_true rfl)
      intro p hp hpubkey
      obtain ⟨j, pubkey', hj, rfl⟩ := (hvalues p).mp hp
      obtain rfl : pubkey' = pubkey := of_decide_eq_true hpubkey
      rw [(Prod.mk.inj (List.inj_on_of_nodup_map hunique hi hj rfl)).1]
    simp only [Group.identifierByPubkey, Group.participantByPubkey, Participant.parsedIdentifier,
      hfind, Outcome.okOr, Outcome.bind, h i]

end Table

end FrostTools.Client
