import FrostTools.Lib.Deliver
import FrostTools.Session.Broadcast

namespace FrostTools.Session

variable {I V : Type*} [DecidableEq I]

def received (pubkeys : Map PublicKey I) (decode : Bytes → Option V) (msgs : List Msg) :
    List (I × V) :=
  msgs.filterMap fun msg => (pubkeys.lookup msg.sender).bind fun identifier =>
    (decode msg.msg).map fun v => (identifier, v)

/-- The messages hold one package from each of the expected participants. -/
structure Complete (pubkeys : Map PublicKey I) (decode : Bytes → Option V) (expected : Finset I)
    (msgs : List Msg) : Prop where
  valid : ∀ msg ∈ msgs, ∃ identifier ∈ expected, ∃ v,
    pubkeys.lookup msg.sender = some identifier ∧ decode msg.msg = some v
  distinct : (msgs.map fun msg => pubkeys.lookup msg.sender).Nodup
  complete : ∀ identifier ∈ expected, ∃ msg ∈ msgs, pubkeys.lookup msg.sender = some identifier

section Received

variable {pubkeys : Map PublicKey I} {decode : Bytes → Option V} {expected : Finset I}
  {msgs l : List Msg}

omit [DecidableEq I] in
theorem received_snoc {msg : Msg} {identifier : I} {v : V}
    (hp : pubkeys.lookup msg.sender = some identifier) (hv : decode msg.msg = some v) :
    received pubkeys decode (l ++ [msg]) = received pubkeys decode l ++ [(identifier, v)] := by
  simp [received, hp, hv]

omit [DecidableEq I] in
theorem map_received (h : ∀ msg ∈ l, ∃ identifier ∈ expected, ∃ v,
    pubkeys.lookup msg.sender = some identifier ∧ decode msg.msg = some v) :
    ((received pubkeys decode l).map Prod.fst).map some =
      l.map fun msg => pubkeys.lookup msg.sender := by
  induction l using List.reverseRecOn with
  | nil => rfl
  | append_singleton l msg ih =>
    obtain ⟨identifier, -, v, hp, hv⟩ := h msg (by simp)
    rw [received_snoc hp hv]
    simp only [List.map_append, List.map_cons, List.map_nil, hp,
      ih fun msg' hmem => h msg' (List.mem_append_left _ hmem)]

omit [DecidableEq I] in
theorem mem_received {identifier : I} {v : V} : (identifier, v) ∈ received pubkeys decode l ↔
    ∃ msg ∈ l, pubkeys.lookup msg.sender = some identifier ∧ decode msg.msg = some v := by
  simp [received, Option.bind_eq_some_iff]

namespace Complete

variable (h : Complete pubkeys decode expected msgs)
include h

omit [DecidableEq I] in
theorem map_received_of_subperm (hl : l.Subperm msgs) :
    ((received pubkeys decode l).map Prod.fst).map some =
      l.map fun msg => pubkeys.lookup msg.sender :=
  map_received fun msg hmem => h.valid msg (hl.subset hmem)

omit [DecidableEq I] in
theorem length_received (hl : l.Subperm msgs) : (received pubkeys decode l).length = l.length := by
  simpa using congrArg List.length (h.map_received_of_subperm hl)

omit [DecidableEq I] in
theorem nodup_received (hl : l.Subperm msgs) :
    ((received pubkeys decode l).map Prod.fst).Nodup := by
  apply List.Nodup.of_map some
  rw [h.map_received_of_subperm hl]
  obtain ⟨l', hperm, hsub⟩ := hl
  exact (hperm.map _).nodup_iff.mp (h.distinct.sublist (hsub.map _))

omit [DecidableEq I] in
theorem unique {identifier : I} {v v' : V} (hv : (identifier, v) ∈ received pubkeys decode msgs)
    (hv' : (identifier, v') ∈ received pubkeys decode msgs) : v = v' := by
  obtain ⟨msg, hmem, hp, hd⟩ := mem_received.mp hv
  obtain ⟨msg', hmem', hp', hd'⟩ := mem_received.mp hv'
  obtain rfl := List.inj_on_of_nodup_map h.distinct hmem hmem' (hp.trans hp'.symm)
  exact Option.some.inj (hd.symm.trans hd')

theorem keys_subset (hl : l.Subperm msgs) :
    (Map.ofList (received pubkeys decode l)).keys ⊆ expected := by
  intro identifier hmem
  have hsome : some identifier ∈ l.map fun msg => pubkeys.lookup msg.sender := by
    rw [← h.map_received_of_subperm hl]
    exact List.mem_map_of_mem (Map.mem_keys_ofList.mp hmem)
  obtain ⟨msg, hmsg, hp⟩ := List.mem_map.mp hsome
  obtain ⟨identifier', hexpected, v, hp', hv⟩ := h.valid msg (hl.subset hmsg)
  obtain rfl := Option.some.inj (hp.symm.trans hp')
  exact hexpected

theorem keys_eq : (Map.ofList (received pubkeys decode msgs)).keys = expected := by
  apply (h.keys_subset (List.Subperm.refl _)).antisymm
  intro identifier hexpected
  obtain ⟨msg, hmsg, hp⟩ := h.complete identifier hexpected
  rw [Map.mem_keys_ofList, ← List.mem_map_of_injective (Option.some_injective I),
    h.map_received_of_subperm (List.Subperm.refl _)]
  exact List.mem_map.mpr ⟨msg, hmsg, hp⟩

theorem length_eq : msgs.length = expected.card := by
  rw [← h.keys_eq, ← h.length_received (List.Subperm.refl _),
    ← Map.len_ofList (h.nodup_received (List.Subperm.refl _)), Map.len]

theorem keys_ne_of_lt (hl : l.Subperm msgs) (hlt : l.length < msgs.length) :
    (Map.ofList (received pubkeys decode l)).keys ≠ expected := by
  intro heq
  have hlen : (Map.ofList (received pubkeys decode l)).len = l.length := by
    rw [Map.len_ofList (h.nodup_received hl), h.length_received hl]
  rw [Map.len, heq, ← h.length_eq] at hlen
  omega

/-- A phase that stores the packages and ends when all are there. -/
theorem anyOrder {σ : Type*} {recv : σ → Msg → Outcome Error Unit × σ} {phase : σ → ℕ}
    (wait done : Map I V → σ)
    (hrecv : ∀ m msg identifier v, pubkeys.lookup msg.sender = some identifier →
      decode msg.msg = some v → identifier ∈ expected → (m.insert identifier v).keys ⊆ expected →
      recv (wait m) msg = (.ok (), if (m.insert identifier v).keys = expected then
        done (m.insert identifier v) else wait (m.insert identifier v)))
    (hphase : ∀ m, phase (wait m) = phase (wait ∅))
    (hdone : ∀ m, phase (wait ∅) < phase (done m)) : AnyOrder recv phase (wait ∅) msgs := by
  have hstep : ∀ l msg, (l ++ [msg]).Subperm msgs →
      recv (wait (Map.ofList (received pubkeys decode l))) msg =
        (.ok (), if (Map.ofList (received pubkeys decode (l ++ [msg]))).keys = expected then
          done (Map.ofList (received pubkeys decode (l ++ [msg])))
        else wait (Map.ofList (received pubkeys decode (l ++ [msg])))) := by
    intro l msg hl
    obtain ⟨identifier, hexpected, v, hp, hv⟩ := h.valid msg (hl.subset (by simp))
    have hsub := h.keys_subset hl
    rw [received_snoc hp hv, Map.ofList_append_singleton] at hsub ⊢
    exact hrecv _ msg identifier v hp hv hexpected hsub
  refine anyOrder_of_subperm (fun l => wait (Map.ofList (received pubkeys decode l)))
    (done (Map.ofList (received pubkeys decode msgs))) ?_ ?_ (fun l => hphase _) (hdone _)
  · intro l msg hl hlt
    rw [hstep l msg hl, if_neg (h.keys_ne_of_lt hl hlt)]
  · intro l msg hperm
    have hsame : Map.ofList (received pubkeys decode msgs) =
        Map.ofList (received pubkeys decode (l ++ [msg])) :=
      Map.ofList_congr (fun _ _ _ => h.unique) fun _ => (hperm.filterMap _).symm.mem_iff
    rw [hstep l msg hperm.subperm, ← hsame, if_pos h.keys_eq]

end Complete
end Received

/-- The public keys of a key generation with their identifiers, seen by one participant. -/
structure Group (I : Type*) [DecidableEq I] where
  pubkeys : Map PublicKey I
  key : PublicKey
  identifier : I
  lookup_key : pubkeys.lookup key = some identifier
  injective : Set.InjOn pubkeys.lookup pubkeys.keys

namespace Group

variable (G : Group I)

def others : Finset I :=
  (G.pubkeys.keys.erase G.key).biUnion fun pubkey => (G.pubkeys.lookup pubkey).toFinset

variable {G}

theorem eq_of_lookup {pubkey pubkey' : PublicKey} {identifier : I}
    (h : G.pubkeys.lookup pubkey = some identifier)
    (h' : G.pubkeys.lookup pubkey' = some identifier) : pubkey = pubkey' :=
  G.injective (Map.mem_keys_of_lookup h) (Map.mem_keys_of_lookup h') (h.trans h'.symm)

theorem mem_others {identifier : I} : identifier ∈ G.others ↔
    ∃ pubkey, pubkey ≠ G.key ∧ G.pubkeys.lookup pubkey = some identifier := by
  simp only [others, Finset.mem_biUnion, Finset.mem_erase, Option.mem_toFinset, Option.mem_def]
  constructor
  · rintro ⟨pubkey, ⟨hne, -⟩, h⟩
    exact ⟨pubkey, hne, h⟩
  · rintro ⟨pubkey, hne, h⟩
    exact ⟨pubkey, ⟨hne, Map.mem_keys_of_lookup h⟩, h⟩

theorem identifier_notMem_others : G.identifier ∉ G.others := by
  intro hmem
  obtain ⟨pubkey, hne, h⟩ := mem_others.mp hmem
  exact hne (eq_of_lookup h G.lookup_key)

theorem hasValue_of_mem_others {identifier : I} (h : identifier ∈ G.others) :
    G.pubkeys.HasValue identifier := by
  obtain ⟨pubkey, -, hp⟩ := mem_others.mp h
  exact Map.hasValue_iff.mpr ⟨pubkey, hp⟩

variable (G)

theorem card_others : G.others.card = G.pubkeys.len - 1 := by
  have himage : G.others.image some = (G.pubkeys.keys.erase G.key).image G.pubkeys.lookup := by
    ext o
    simp only [Finset.mem_image, mem_others, Finset.mem_erase]
    constructor
    · rintro ⟨identifier, ⟨pubkey, hne, h⟩, rfl⟩
      exact ⟨pubkey, ⟨hne, Map.mem_keys_of_lookup h⟩, h⟩
    · rintro ⟨pubkey, ⟨hne, hmem⟩, rfl⟩
      obtain ⟨identifier, h⟩ := Map.mem_keys_iff.mp hmem
      exact ⟨identifier, ⟨pubkey, hne, h⟩, h.symm⟩
  have hinj : Set.InjOn G.pubkeys.lookup (G.pubkeys.keys.erase G.key) :=
    G.injective.mono (Finset.coe_subset.mpr (Finset.erase_subset _ _))
  rw [← Finset.card_image_of_injective G.others (Option.some_injective I), himage,
    Finset.card_image_of_injOn hinj,
    Finset.card_erase_of_mem (Map.mem_keys_of_lookup G.lookup_key)]
  rfl

end Group

section Coordinator

variable {C S : Type*} {decode : CoordinatorDecoder C S} {args : CoordinatorSessionStateArgs}
  {pubkeys : Map PublicKey I} {signers : Finset I} {msgs : List Msg}

def listOf (n : ℕ) (decode : Bytes → Option (List V)) (b : Bytes) : Option (List V) :=
  (decode b).filter fun l => l.length = n

theorem listOf_eq_some_iff {n : ℕ} {decode : Bytes → Option (List V)} {b : Bytes} {l : List V} :
    listOf n decode b = some l ↔ decode b = some l ∧ l.length = n := by
  simp [listOf, Option.filter_eq_some_iff]

theorem recv_commitments (hsigners : signers.card = args.numSigners) {m : Map I (List C)} {msg : Msg}
    {identifier : I} {v : List C} (hp : pubkeys.lookup msg.sender = some identifier)
    (hv : listOf args.numMessages decode.commitments msg.msg = some v)
    (hsub : (m.insert identifier v).keys ⊆ signers) :
    CoordinatorSessionState.recv decode (.waitingForCommitments args m pubkeys) msg =
      (.ok (), if (m.insert identifier v).keys = signers then
        .waitingForSignatureShares args (m.insert identifier v) pubkeys ∅
      else .waitingForCommitments args (m.insert identifier v) pubkeys) := by
  obtain ⟨hd, hlen⟩ := listOf_eq_some_iff.mp hv
  have hiff : (m.insert identifier v).len = args.numSigners ↔
      (m.insert identifier v).keys = signers := by
    rw [Map.len, ← hsigners]
    exact ⟨fun heq => Finset.eq_of_subset_of_card_le hsub heq.ge, fun heq => by rw [heq]⟩
  simp only [CoordinatorSessionState.recv, hd, CoordinatorSessionState.handleCommitments, hlen,
    hp, ne_eq, not_true_eq_false, ↓reduceIte, hiff]
  split_ifs <;> rfl

theorem recv_signatureShare {commitments : Map I (List C)} {m : Map I (List S)} {msg : Msg}
    {identifier : I} {v : List S} (hp : pubkeys.lookup msg.sender = some identifier)
    (hv : listOf args.numMessages decode.signatureShares msg.msg = some v)
    (hmem : identifier ∈ commitments.keys) :
    CoordinatorSessionState.recv decode
        (.waitingForSignatureShares args commitments pubkeys m) msg =
      (.ok (), if (m.insert identifier v).keys = commitments.keys then
        .signatureSharesReady args (m.insert identifier v)
      else .waitingForSignatureShares args commitments pubkeys (m.insert identifier v)) := by
  obtain ⟨hd, hlen⟩ := listOf_eq_some_iff.mp hv
  simp only [CoordinatorSessionState.recv, hd, CoordinatorSessionState.handleSignatureShare, hlen,
    hp, hmem, ne_eq, not_true_eq_false, ↓reduceIte]
  split_ifs <;> rfl

theorem anyOrder_commitments (hsigners : signers.card = args.numSigners)
    (h : Complete pubkeys (listOf args.numMessages decode.commitments) signers msgs) :
    AnyOrder (CoordinatorSessionState.recv decode) CoordinatorSessionState.phase
      (.waitingForCommitments args ∅ pubkeys) msgs := by
  refine h.anyOrder (fun m => CoordinatorSessionState.waitingForCommitments args m pubkeys)
    (fun m => CoordinatorSessionState.waitingForSignatureShares args m pubkeys ∅) ?_ (fun _ => rfl)
    (fun _ => Nat.zero_lt_one)
  intro m msg identifier v hp hv _ hsub
  exact recv_commitments hsigners hp hv hsub

theorem anyOrder_signatureShares {commitments : Map I (List C)}
    (h : Complete pubkeys (listOf args.numMessages decode.signatureShares) commitments.keys msgs) :
    AnyOrder (CoordinatorSessionState.recv decode) CoordinatorSessionState.phase
      (.waitingForSignatureShares args commitments pubkeys ∅) msgs := by
  refine h.anyOrder
    (fun m => CoordinatorSessionState.waitingForSignatureShares args commitments pubkeys m)
    (fun m => CoordinatorSessionState.signatureSharesReady args m) ?_ (fun _ => rfl)
    (fun _ => Nat.one_lt_two)
  intro m msg identifier v hp hv hmem _
  exact recv_signatureShare hp hv hmem

end Coordinator

section Dkg

variable {R1 R2 : Type*} [DecidableEq R1] {decode : DKGDecoder I R1 R2} {self : I}
  {pubkeys : Map PublicKey I} {others : Finset I} {msgs l : List Msg}

theorem anyOrder_round1 (hothers : others.card = pubkeys.len - 1)
    (h : Complete pubkeys decode.round1 others msgs) :
    AnyOrder (fun st msg => DKGSessionState.recv decode st msg self) DKGSessionState.phase
      (.waitingForRound1Packages pubkeys ∅) msgs := by
  refine h.anyOrder (fun m => DKGSessionState.waitingForRound1Packages pubkeys m)
    (fun m => if pubkeys.len > 2 then DKGSessionState.waitingForRound1PackagesBroadcast pubkeys m ∅
      else DKGSessionState.waitingForRound2Packages pubkeys m ∅) ?_ (fun _ => rfl) ?_
  · intro m msg identifier v hp hv _ hsub
    have hiff : (m.insert identifier v).len = pubkeys.len - 1 ↔
        (m.insert identifier v).keys = others := by
      rw [Map.len, ← hothers]
      exact ⟨fun heq => Finset.eq_of_subset_of_card_le hsub heq.ge, fun heq => by rw [heq]⟩
    simp only [DKGSessionState.recv, hv, DKGSessionState.handleRound1Package, hp, hiff]
    split_ifs <;> rfl
  · intro m
    split_ifs <;> simp [DKGSessionState.phase]

theorem anyOrder_round2 {r1 : Map I R1} (h : Complete pubkeys decode.round2 r1.keys msgs) :
    AnyOrder (fun st msg => DKGSessionState.recv decode st msg self) DKGSessionState.phase
      (.waitingForRound2Packages pubkeys r1 ∅) msgs := by
  refine h.anyOrder (fun m => DKGSessionState.waitingForRound2Packages pubkeys r1 m)
    (fun m => DKGSessionState.round2PackagesReady pubkeys m) ?_ (fun _ => rfl) (fun _ => Nat.lt_succ_self 2)
  intro m msg identifier v hp hv hmem _
  simp only [DKGSessionState.recv, hv, DKGSessionState.handleRound2Package, hp, hmem,
    not_true_eq_false, ↓reduceIte]
  split_ifs <;> rfl

/-- The messages hold the right echo for every two participants whose packages are known. -/
structure CompleteEchoes (pubkeys : Map PublicKey I) (decode : Bytes → Option (I × R1))
    (r1 : Map I R1) (msgs : List Msg) : Prop where
  valid : ∀ msg ∈ msgs, ∃ sender ∈ r1.keys, ∃ original package,
    pubkeys.lookup msg.sender = some sender ∧ decode msg.msg = some (original, package) ∧
      original ≠ sender ∧ r1.lookup original = some package
  distinct : (msgs.map fun msg =>
    (pubkeys.lookup msg.sender, (decode msg.msg).map Prod.fst)).Nodup
  complete : ∀ original ∈ r1.keys, ∀ sender ∈ r1.keys, original ≠ sender →
    ∃ msg ∈ msgs, pubkeys.lookup msg.sender = some sender ∧
      (decode msg.msg).map Prod.fst = some original

def echoes (pubkeys : Map PublicKey I) (decode : Bytes → Option (I × R1)) (msgs : List Msg) :
    Map I (Map I R1) :=
  msgs.foldl (fun broadcasted msg =>
    match pubkeys.lookup msg.sender, decode msg.msg with
    | some sender, some (original, package) =>
      DKGSessionState.insertBroadcast broadcasted original sender package
    | _, _ => broadcasted) ∅

open DKGSessionState (heard insertBroadcast broadcastComplete)

omit [DecidableEq R1] in
theorem echoes_snoc {decode : Bytes → Option (I × R1)} {msg : Msg} {sender original : I}
    {package : R1} (hp : pubkeys.lookup msg.sender = some sender)
    (hd : decode msg.msg = some (original, package)) :
    echoes pubkeys decode (l ++ [msg]) =
      insertBroadcast (echoes pubkeys decode l) original sender package := by
  simp [echoes, List.foldl_append, hp, hd]

namespace CompleteEchoes

variable {echo : Bytes → Option (I × R1)} {r1 : Map I R1}

omit [DecidableEq R1] in
theorem heard_iff (h : CompleteEchoes pubkeys echo r1 msgs) (hl : l ⊆ msgs)
    (original sender : I) (package : R1) :
    heard (echoes pubkeys echo l) original sender = some package ↔
      ∃ msg ∈ l, pubkeys.lookup msg.sender = some sender ∧
        echo msg.msg = some (original, package) := by
  induction l using List.reverseRecOn with
  | nil => simp [echoes, heard]
  | append_singleton l msg ih =>
    obtain ⟨sender', -, original', package', hp, hd, -, hr1⟩ := h.valid msg (hl (by simp))
    have hl' : l ⊆ msgs := fun _ hmem => hl (List.mem_append_left _ hmem)
    rw [echoes_snoc hp hd, DKGSessionState.heard_insertBroadcast]
    simp only [List.mem_append, List.mem_singleton, or_and_right, exists_or, exists_eq_left, hp,
      hd, ← ih hl', Option.some.injEq, Prod.mk.injEq]
    split_ifs with heq
    · obtain ⟨rfl, rfl⟩ := heq
      constructor
      · intro hpackage
        exact .inr ⟨rfl, rfl, Option.some.inj hpackage⟩
      · rintro (hheard | ⟨-, -, rfl⟩)
        · -- an echo of the same pair that was stored before is the same package
          obtain ⟨msg', hmem, -, hd'⟩ := (ih hl').mp hheard
          obtain ⟨_, -, _, _, -, hd'', -, hr1'⟩ := h.valid msg' (hl' hmem)
          obtain ⟨rfl, rfl⟩ := Prod.mk.inj (Option.some.inj (hd'.symm.trans hd''))
          exact hr1.symm.trans hr1'
        · rfl
    · refine (or_iff_left ?_).symm
      rintro ⟨rfl, rfl, -⟩
      exact heq ⟨rfl, rfl⟩

omit [DecidableEq R1] in
theorem valid_of_heard (h : CompleteEchoes pubkeys echo r1 msgs) (hl : l ⊆ msgs)
    {original sender : I} {package : R1}
    (hheard : heard (echoes pubkeys echo l) original sender = some package) :
    r1.lookup original = some package ∧ sender ∈ r1.keys := by
  obtain ⟨msg, hmem, hp, hd⟩ := (h.heard_iff hl _ _ _).mp hheard
  obtain ⟨sender', hsender, _, _, hp', hd', -, hr1⟩ := h.valid msg (hl hmem)
  obtain rfl := Option.some.inj (hp.symm.trans hp')
  obtain ⟨rfl, rfl⟩ := Prod.mk.inj (Option.some.inj (hd.symm.trans hd'))
  exact ⟨hr1, hsender⟩

omit [DecidableEq R1] in
theorem heard_eq_none (h : CompleteEchoes pubkeys echo r1 msgs) {msg : Msg} {sender original : I}
    {package : R1} (hl : (l ++ [msg]).Subperm msgs) (hp : pubkeys.lookup msg.sender = some sender)
    (hd : echo msg.msg = some (original, package)) :
    heard (echoes pubkeys echo l) original sender = none := by
  rw [Option.eq_none_iff_forall_ne_some]
  intro package' hheard
  have hl' : l ⊆ msgs := fun _ hmem => hl.subset (List.mem_append_left _ hmem)
  obtain ⟨msg', hmem, hp', hd'⟩ := (h.heard_iff hl' _ _ _).mp hheard
  obtain ⟨l', hperm, hsub⟩ := hl
  have hnodup := (hperm.map _).nodup_iff.mp (h.distinct.sublist (hsub.map _))
  rw [List.map_append, List.nodup_append] at hnodup
  refine hnodup.2.2 _ (List.mem_map_of_mem hmem) _
    (List.mem_map_of_mem (List.mem_singleton_self msg)) ?_
  rw [hp, hp', hd, hd']
  rfl

omit [DecidableEq R1] in
theorem nonempty_of_lookup (h : CompleteEchoes pubkeys echo r1 msgs) (hl : l ⊆ msgs)
    {original : I} {m : Map I R1} (hm : (echoes pubkeys echo l).lookup original = some m) :
    m.keys.Nonempty := by
  induction l using List.reverseRecOn generalizing m with
  | nil => simp [echoes] at hm
  | append_singleton l msg ih =>
    obtain ⟨sender', -, original', package', hp, hd, -, -⟩ := h.valid msg (hl (by simp))
    rw [echoes_snoc hp hd, insertBroadcast, Map.lookup_insert] at hm
    split_ifs at hm with heq
    · obtain rfl := Option.some.inj hm
      rw [Map.keys_insert]
      apply Finset.insert_nonempty
    · exact ih (fun _ hmem => hl (List.mem_append_left _ hmem)) hm

theorem complete_of_perm (h : CompleteEchoes pubkeys echo r1 msgs) (hlen : 1 < r1.len)
    (hperm : l.Perm msgs) : broadcastComplete r1 (echoes pubkeys echo l) = true := by
  apply DKGSessionState.complete_of_heard hlen
  · intro original sender package hheard
    exact h.valid_of_heard hperm.subset hheard
  · intro original m hm
    exact h.nonempty_of_lookup hperm.subset hm
  · intro original ho sender hs hne
    obtain ⟨msg, hmem, hp, hd⟩ := h.complete original ho sender hs hne
    obtain ⟨⟨_, package⟩, hecho, rfl⟩ := Option.map_eq_some_iff.mp hd
    exact ⟨package, (h.heard_iff hperm.subset _ _ _).mpr
      ⟨msg, hperm.mem_iff.mpr hmem, hp, hecho⟩⟩

theorem incomplete_of_lt (h : CompleteEchoes pubkeys echo r1 msgs) (hl : l.Subperm msgs)
    (hlt : l.length < msgs.length) : broadcastComplete r1 (echoes pubkeys echo l) = false := by
  rw [Bool.eq_false_iff]
  intro hcomplete
  have hnodup : msgs.Nodup := h.distinct.of_map _
  obtain ⟨msg, hmem, hnot⟩ : ∃ msg ∈ msgs, msg ∉ l := by
    by_contra hall
    have hsub : msgs ⊆ l := fun msg hmem => not_not.mp fun hnot => hall ⟨msg, hmem, hnot⟩
    have hle := (hnodup.subperm hsub).length_le
    omega
  obtain ⟨sender, hs, original, package, hp, hd, hne, hr1⟩ := h.valid msg hmem
  obtain ⟨package', hheard, -⟩ :=
    DKGSessionState.heard_of_complete hcomplete (Map.mem_keys_of_lookup hr1) hs hne
  obtain ⟨msg', hmem', hp', hd'⟩ := (h.heard_iff hl.subset _ _ _).mp hheard
  have heq := List.inj_on_of_nodup_map h.distinct hmem (hl.subset hmem')
    (by rw [hp, hp', hd, hd']; rfl)
  exact hnot (heq ▸ hmem')

end CompleteEchoes

theorem anyOrder_echoes {r1 : Map I R1} (hlen : 1 < r1.len) (hself : self ∉ r1.keys)
    (hvalue : ∀ identifier ∈ r1.keys, pubkeys.HasValue identifier)
    (h : CompleteEchoes pubkeys decode.broadcast r1 msgs) :
    AnyOrder (fun st msg => DKGSessionState.recv decode st msg self) DKGSessionState.phase
      (.waitingForRound1PackagesBroadcast pubkeys r1 ∅) msgs := by
  have hstep : ∀ l msg, (l ++ [msg]).Subperm msgs → DKGSessionState.recv decode
      (.waitingForRound1PackagesBroadcast pubkeys r1 (echoes pubkeys decode.broadcast l)) msg self =
        (.ok (), if broadcastComplete r1 (echoes pubkeys decode.broadcast (l ++ [msg])) then
          .waitingForRound2Packages pubkeys r1 ∅
        else .waitingForRound1PackagesBroadcast pubkeys r1
          (echoes pubkeys decode.broadcast (l ++ [msg]))) := by
    intro l msg hl
    obtain ⟨sender, hs, original, package, hp, hd, hne, hr1⟩ := h.valid msg (hl.subset (by simp))
    have ho := Map.mem_keys_of_lookup hr1
    have hnew := h.heard_eq_none hl hp hd
    rw [echoes_snoc hp hd]
    simp only [DKGSessionState.recv, hd]
    apply DKGSessionState.handleRound1PackageBroadcast_ok_iff.mpr
    exact ⟨sender, hp, hvalue original ho, fun heq => hself (heq ▸ ho), hne, hr1, hnew, rfl⟩
  refine anyOrder_of_subperm (fun l => DKGSessionState.waitingForRound1PackagesBroadcast pubkeys r1
    (echoes pubkeys decode.broadcast l)) (.waitingForRound2Packages pubkeys r1 ∅) ?_ ?_
    (fun _ => rfl) Nat.one_lt_two
  · intro l msg hl hlt
    rw [hstep l msg hl, h.incomplete_of_lt hl hlt]
    rfl
  · intro l msg hperm
    rw [hstep l msg hperm.subperm, h.complete_of_perm hlen hperm]
    rfl

end Dkg

/-- From the start of every phase, the messages that complete it may arrive in any order. -/
theorem arrival_order {C S R1 R2 : Type*} [DecidableEq R1]
    (coordinator : CoordinatorDecoder C S) (args : CoordinatorSessionStateArgs)
    (pubkeys : Map PublicKey I) (dkg : DKGDecoder I R1 R2) (G : Group I) (msgs : List Msg) :
    (∀ signers : Finset I, signers.card = args.numSigners →
      Complete pubkeys (listOf args.numMessages coordinator.commitments) signers msgs →
      AnyOrder (CoordinatorSessionState.recv coordinator) CoordinatorSessionState.phase
        (.new args.numMessages args.numSigners pubkeys) msgs) ∧
    (∀ commitments : Map I (List C),
      Complete pubkeys (listOf args.numMessages coordinator.signatureShares) commitments.keys msgs →
      AnyOrder (CoordinatorSessionState.recv coordinator) CoordinatorSessionState.phase
        (.waitingForSignatureShares args commitments pubkeys ∅) msgs) ∧
    (Complete G.pubkeys dkg.round1 G.others msgs →
      AnyOrder (fun st msg => DKGSessionState.recv dkg st msg G.identifier) DKGSessionState.phase
        (.new G.pubkeys) msgs) ∧
    (∀ r1 : Map I R1, 2 < G.pubkeys.len → r1.keys = G.others →
      CompleteEchoes G.pubkeys dkg.broadcast r1 msgs →
      AnyOrder (fun st msg => DKGSessionState.recv dkg st msg G.identifier) DKGSessionState.phase
        (.waitingForRound1PackagesBroadcast G.pubkeys r1 ∅) msgs) ∧
    (∀ r1 : Map I R1, r1.keys = G.others → Complete G.pubkeys dkg.round2 G.others msgs →
      AnyOrder (fun st msg => DKGSessionState.recv dkg st msg G.identifier) DKGSessionState.phase
        (.waitingForRound2Packages G.pubkeys r1 ∅) msgs) := by
  refine ⟨fun signers hsigners h => anyOrder_commitments hsigners h,
    fun commitments h => anyOrder_signatureShares h, fun h => anyOrder_round1 G.card_others h,
    fun r1 hlen hkeys h => ?_, fun r1 hkeys h => anyOrder_round2 (hkeys ▸ h)⟩
  apply anyOrder_echoes _ _ _ h
  · have hcard := G.card_others
    rw [← hkeys] at hcard
    rw [Map.len]
    omega
  · rw [hkeys]
    exact Group.identifier_notMem_others
  · intro identifier hmem
    exact Group.hasValue_of_mem_others (hkeys ▸ hmem)

/-- A package is one byte, and an echo has the identifier before it. -/
def sampleDKGDecoder : DKGDecoder UInt8 UInt8 UInt8 where
  round1 b := b.head?
  broadcast
    | [original, package] => some (original, package)
    | _ => none
  round2 b := b.head?

def sampleGroup : Group UInt8 where
  pubkeys := .ofList [(⟨[1]⟩, 1), (⟨[2]⟩, 2), (⟨[3]⟩, 3)]
  key := ⟨[1]⟩
  identifier := 1
  lookup_key := by decide
  injective := by
    have hall : ∀ p ∈ [PublicKey.mk [1], ⟨[2]⟩, ⟨[3]⟩], ∀ q ∈ [PublicKey.mk [1], ⟨[2]⟩, ⟨[3]⟩],
        (Map.ofList [(PublicKey.mk [1], (1 : UInt8)), (⟨[2]⟩, 2), (⟨[3]⟩, 3)]).lookup p =
          (Map.ofList [(⟨[1]⟩, 1), (⟨[2]⟩, 2), (⟨[3]⟩, 3)]).lookup q → p = q := by
      decide
    exact fun p hp q hq => hall p (Map.mem_keys_ofList.mp hp) q (Map.mem_keys_ofList.mp hq)

theorem arrival_order_sample : AnyOrder
    (fun st msg => DKGSessionState.recv sampleDKGDecoder st msg sampleGroup.identifier)
    DKGSessionState.phase
    (.waitingForRound1PackagesBroadcast sampleGroup.pubkeys (.ofList [(2, 20), (3, 30)]) ∅)
    [⟨⟨[2]⟩, [3, 30]⟩, ⟨⟨[3]⟩, [2, 20]⟩] := by
  apply (arrival_order CoordinatorSessionState.sampleDecoder ⟨1, 2⟩ sampleGroup.pubkeys
    sampleDKGDecoder sampleGroup _).2.2.2.1 _ (by decide) (by decide)
  constructor
  · intro msg hmem
    rcases List.mem_pair.mp hmem with rfl | rfl
    · exact ⟨2, by decide, 3, 30, by decide, by decide, by decide, by decide⟩
    · exact ⟨3, by decide, 2, 20, by decide, by decide, by decide, by decide⟩
  · decide
  · intro original ho sender hs hne
    rcases List.mem_pair.mp (Map.mem_keys_ofList.mp ho) with rfl | rfl <;>
      rcases List.mem_pair.mp (Map.mem_keys_ofList.mp hs) with rfl | rfl
    · exact absurd rfl hne
    · exact ⟨⟨⟨[3]⟩, [2, 20]⟩, by simp, by decide, by decide⟩
    · exact ⟨⟨⟨[2]⟩, [3, 30]⟩, by simp, by decide, by decide⟩
    · exact absurd rfl hne

end FrostTools.Session
