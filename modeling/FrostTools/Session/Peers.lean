import FrostTools.Session.Confluence

namespace FrostTools.Session.DKGSessionState

variable {I R1 R2 : Type*} [DecidableEq I] [DecidableEq R1]

/-- The payloads that were decoded, and those of them that were accepted, oldest first. -/
structure Log (I R1 R2 : Type*) where
  delivered : List (PublicKey × Payload I R1 R2)
  accepted : List (PublicKey × Payload I R1 R2)

def record (decode : DKGDecoder I R1 R2) (st : DKGSessionState I R1 R2) (msg : Msg)
    (result : Outcome Error Unit) (log : Log I R1 R2) : Log I R1 R2 :=
  match st.payload decode msg.msg with
  | none => log
  | some p =>
    { delivered := log.delivered ++ [(msg.sender, p)]
      accepted := if result = .ok () then log.accepted ++ [(msg.sender, p)] else log.accepted }

def recvAll (decode : DKGDecoder I R1 R2) (self : I) :
    DKGSessionState I R1 R2 × Log I R1 R2 → List Msg → DKGSessionState I R1 R2 × Log I R1 R2 :=
  List.foldl fun (st, log) msg =>
    ((st.recv decode msg self).2, record decode st msg (st.recv decode msg self).1 log)

def session (decode : DKGDecoder I R1 R2) (G : Group I) (msgs : List Msg) :
    DKGSessionState I R1 R2 × Log I R1 R2 :=
  recvAll decode G.identifier (new G.pubkeys, ⟨[], []⟩) msgs

def stored {V : Type*} (select : Payload I R1 R2 → Option V) (pubkeys : Map PublicKey I)
    (l : List (PublicKey × Payload I R1 R2)) : Map I V :=
  .ofList (l.filterMap fun e => (pubkeys.lookup e.1).bind fun identifier =>
    (select e.2).map fun v => (identifier, v))

variable {decode : DKGDecoder I R1 R2} {self : I} {pubkeys : Map PublicKey I} {msg : Msg}
  {l : List (PublicKey × Payload I R1 R2)} {st st' : DKGSessionState I R1 R2}

section Stored

variable {V : Type*} {select : Payload I R1 R2 → Option V}

omit [DecidableEq R1] in
@[simp] theorem stored_nil : stored select pubkeys ([] : List (PublicKey × Payload I R1 R2)) = ∅ :=
  rfl

omit [DecidableEq R1] in
theorem stored_snoc {pubkey : PublicKey} {identifier : I} {p : Payload I R1 R2} {v : V}
    (hp : pubkeys.lookup pubkey = some identifier) (hv : select p = some v) :
    stored select pubkeys (l ++ [(pubkey, p)]) =
      (stored select pubkeys l).insert identifier v := by
  simp only [stored, List.filterMap_append, List.filterMap_cons, hp, hv, Option.bind_some,
    Option.map_some, List.filterMap_nil, Map.ofList_append_singleton]

omit [DecidableEq R1] in
theorem stored_snoc_of_none {e : PublicKey × Payload I R1 R2} (h : select e.2 = none) :
    stored select pubkeys (l ++ [e]) = stored select pubkeys l := by
  simp [stored, h]

omit [DecidableEq R1] in
theorem mem_keys_stored {identifier : I} : identifier ∈ (stored select pubkeys l).keys ↔
    ∃ e ∈ l, pubkeys.lookup e.1 = some identifier ∧ (select e.2).isSome := by
  rw [stored, Map.mem_keys_ofList]
  simp only [List.mem_map, List.mem_filterMap, Option.bind_eq_some_iff, Option.map_eq_some_iff,
    Option.isSome_iff_exists]
  constructor
  · rintro ⟨_, ⟨e, hmem, _, hp, v, hv, rfl⟩, rfl⟩
    exact ⟨e, hmem, hp, v, hv⟩
  · rintro ⟨e, hmem, hp, v, hv⟩
    exact ⟨(identifier, v), ⟨e, hmem, identifier, hp, v, hv, rfl⟩, rfl⟩

end Stored

/-- The maps of a state hold the last accepted package of each participant. -/
inductive Stores (pubkeys : Map PublicKey I) (l : List (PublicKey × Payload I R1 R2)) :
    DKGSessionState I R1 R2 → Prop
  | waitingForRound1Packages :
    Stores pubkeys l (.waitingForRound1Packages pubkeys (stored Payload.asRound1 pubkeys l))
  | waitingForRound1PackagesBroadcast (broadcasted : Map I (Map I R1)) :
    (∀ original sender package, heard broadcasted original sender = some package ↔
      ∃ pubkey, pubkeys.lookup pubkey = some sender ∧ (pubkey, .broadcast original package) ∈ l) →
    Stores pubkeys l (.waitingForRound1PackagesBroadcast pubkeys
      (stored Payload.asRound1 pubkeys l) broadcasted)
  | waitingForRound2Packages :
    Stores pubkeys l (.waitingForRound2Packages pubkeys (stored Payload.asRound1 pubkeys l)
      (stored Payload.asRound2 pubkeys l))
  | round2PackagesReady :
    Stores pubkeys l (.round2PackagesReady pubkeys (stored Payload.asRound2 pubkeys l))

/-- Before the second round no package of it is accepted. -/
theorem Reaches.stored_round2 (h : Reaches self pubkeys l st) (hphase : st.phase ≤ 1) :
    stored Payload.asRound2 pubkeys l = ∅ := by
  induction h with
  | new => rfl
  | snoc hr ha ih =>
    have hle := ih (ha.phase_le.trans hphase)
    cases ha with
    | round1 _ _ _ _ _ => exact (stored_snoc_of_none rfl).trans hle
    | broadcast _ _ _ _ _ _ _ _ _ _ _ _ => exact (stored_snoc_of_none rfl).trans hle
    | round2 _ _ _ _ _ _ _ => split_ifs at hphase <;> simp [phase] at hphase

theorem Reaches.heard_iff (h : Reaches self pubkeys l st) (hlen : 2 ≤ pubkeys.len)
    {r1 : Map I R1} {broadcasted : Map I (Map I R1)}
    (hst : st = .waitingForRound1PackagesBroadcast pubkeys r1 broadcasted)
    (original sender : I) (package : R1) : heard broadcasted original sender = some package ↔
      ∃ pubkey, pubkeys.lookup pubkey = some sender ∧ (pubkey, .broadcast original package) ∈ l := by
  subst hst
  cases h.represents hlen with
  | waitingForRound1PackagesBroadcast _ _ _ hheard _ _ _ _ => exact hheard.heard_iff _ _ _

theorem Reaches.stores (h : Reaches self pubkeys l st) (hlen : 2 ≤ pubkeys.len) :
    Stores pubkeys l st := by
  induction h with
  | new => exact .waitingForRound1Packages
  | @snoc l st st' pubkey p hr ha ih =>
    have hreach := hr.snoc ha
    have hround2 := hr.stored_round2
    cases ha with
    | round1 _ _ identifier package hp =>
      cases ih
      have hr1 : stored Payload.asRound1 pubkeys (l ++ [(pubkey, .round1 package)]) =
          (stored Payload.asRound1 pubkeys l).insert identifier package := stored_snoc hp rfl
      have hr2 : stored Payload.asRound2 pubkeys (l ++ [(pubkey, .round1 package)]) =
          stored Payload.asRound2 pubkeys l := stored_snoc_of_none rfl
      rw [← hr1] at hreach ⊢
      split_ifs at hreach ⊢ with hfull hthree
      · exact .waitingForRound1PackagesBroadcast ∅ (hreach.heard_iff hlen rfl)
      · rw [← hround2 (Nat.zero_le 1), ← hr2]
        exact .waitingForRound2Packages
      · exact .waitingForRound1Packages
    | broadcast _ _ broadcasted sender original package _ _ _ _ _ _ =>
      cases ih
      have hr1 : stored Payload.asRound1 pubkeys (l ++ [(pubkey, .broadcast original package)]) =
          stored Payload.asRound1 pubkeys l := stored_snoc_of_none rfl
      have hr2 : stored Payload.asRound2 pubkeys (l ++ [(pubkey, .broadcast original package)]) =
          stored Payload.asRound2 pubkeys l := stored_snoc_of_none rfl
      rw [← hr1] at hreach ⊢
      split_ifs at hreach ⊢
      · rw [← hround2 le_rfl, ← hr2]
        exact .waitingForRound2Packages
      · exact .waitingForRound1PackagesBroadcast _ (hreach.heard_iff hlen rfl)
    | round2 _ _ _ identifier package hp _ =>
      cases ih
      have hr1 : stored Payload.asRound1 pubkeys (l ++ [(pubkey, .round2 package)]) =
          stored Payload.asRound1 pubkeys l := stored_snoc_of_none rfl
      have hr2 : stored Payload.asRound2 pubkeys (l ++ [(pubkey, .round2 package)]) =
          (stored Payload.asRound2 pubkeys l).insert identifier package := stored_snoc hp rfl
      rw [← hr1, ← hr2]
      split_ifs
      · exact .round2PackagesReady
      · exact .waitingForRound2Packages

theorem Reaches.echo_valid (h : Reaches self pubkeys l st) (hlen : 2 ≤ pubkeys.len)
    {pubkey : PublicKey} {original : I} {package : R1} (hmem : (pubkey, .broadcast original package) ∈ l) :
    ∃ sender, pubkeys.lookup pubkey = some sender ∧ pubkeys.HasValue original ∧
      original ≠ self ∧ original ≠ sender := by
  induction h with
  | new => cases hmem
  | snoc hr ha ih =>
    obtain hmem | hlast := List.mem_append.mp hmem
    · exact ih hmem
    · obtain ⟨rfl, rfl⟩ := Prod.mk.inj (List.mem_singleton.mp hlast)
      have hst := hr.stores hlen
      cases ha with
      | broadcast _ _ _ sender _ _ hp hvalue hself hne _ _ =>
        cases hst
        exact ⟨sender, hp, hvalue, hself, hne⟩

omit [DecidableEq R1] in
theorem insertBroadcast_of_heard {broadcasted : Map I (Map I R1)} {original sender : I}
    {package : R1} (h : heard broadcasted original sender = some package) :
    insertBroadcast broadcasted original sender package = broadcasted := by
  obtain ⟨m, hm, hp⟩ := heard_eq_some_iff.mp h
  rw [insertBroadcast, hm, Option.getD_some, Map.insert_of_lookup hp, Map.insert_of_lookup hm]

theorem Reaches.recv_of_ne_ok (h : Reaches self pubkeys l st) (hlen : 2 ≤ pubkeys.len)
    (hne : (st.recv decode msg self).1 ≠ .ok ()) : (st.recv decode msg self).2 = st := by
  obtain hsame | ⟨_, r1, broadcasted, sender, original, package, rfl, hr1, hheard, heq⟩ :=
    DKGSessionState.recv_of_ne_ok hne
  · exact hsame
  · cases h.represents hlen with
    | waitingForRound1PackagesBroadcast _ _ _ hb _ _ _ _ =>
      obtain ⟨package', hp⟩ := Option.ne_none_iff_exists'.mp hheard
      have hpackage := (hb.valid original sender package' hp).1
      obtain rfl := Option.some.inj (hr1.symm.trans hpackage)
      rw [heq, insertBroadcast_of_heard hp]

theorem Accepts.payload_of_waiting {pubkey : PublicKey} {p : Payload I R1 R2} {r1 : Map I R1}
    {r2 : Map I R2} (h : Accepts self pubkey p (.waitingForRound2Packages pubkeys r1 r2) st') :
    ∃ package, p = .round2 package := by
  cases h with
  | round2 _ _ _ _ package _ _ => exact ⟨package, rfl⟩

theorem Reaches.echoed_of_waiting {pubkeys' : Map PublicKey I} {r1 : Map I R1} {r2 : Map I R2}
    (h : Reaches self pubkeys l (.waitingForRound2Packages pubkeys' r1 r2))
    (hlen : 2 ≤ pubkeys.len) : Echoed pubkeys l (stored Payload.asRound1 pubkeys l) := by
  have hrep := h.represents hlen
  cases h.stores hlen
  cases hrep with
  | waitingForRound2Packages _ _ _ hechoed _ _ _ _ => exact hechoed

omit [DecidableEq R1] in
theorem Echoed.append_round2 (h : Echoed pubkeys l (stored Payload.asRound1 pubkeys l))
    (pubkey : PublicKey) (package : R2) :
    Echoed pubkeys (l ++ [(pubkey, .round2 package)])
      (stored Payload.asRound1 pubkeys (l ++ [(pubkey, .round2 package)])) := by
  rw [stored_snoc_of_none rfl]
  exact h.append _

/-- Past the echoes, everyone echoed everyone else with the stored package. -/
theorem Reaches.echoed (h : Reaches self pubkeys l st) (hlen : 2 ≤ pubkeys.len)
    (hphase : 2 ≤ st.phase) : Echoed pubkeys l (stored Payload.asRound1 pubkeys l) := by
  cases h with
  | new => exact absurd hphase (Nat.not_succ_le_zero 1)
  | @snoc l st₀ _ pubkey p hr ha =>
    cases st with
    | waitingForRound1Packages _ _ => simp [phase] at hphase
    | waitingForRound1PackagesBroadcast _ _ _ => simp [phase] at hphase
    | waitingForRound2Packages _ _ _ => exact (hr.snoc ha).echoed_of_waiting hlen
    | round2PackagesReady _ _ =>
      obtain ⟨_, _, _, rfl⟩ := ha.of_ready rfl
      obtain ⟨package, rfl⟩ := ha.payload_of_waiting
      exact (hr.echoed_of_waiting hlen).append_round2 pubkey package

variable {G : Group I} {msgs : List Msg}

theorem session_snoc (decode : DKGDecoder I R1 R2) (G : Group I) (msgs : List Msg) (msg : Msg) :
    session decode G (msgs ++ [msg]) =
      (((session decode G msgs).1.recv decode msg G.identifier).2,
        record decode (session decode G msgs).1 msg
          ((session decode G msgs).1.recv decode msg G.identifier).1 (session decode G msgs).2) := by
  simp [session, recvAll, List.foldl_append]

theorem session_reaches (decode : DKGDecoder I R1 R2) (G : Group I) (hlen : 2 ≤ G.pubkeys.len)
    (msgs : List Msg) : Reaches G.identifier G.pubkeys (session decode G msgs).2.accepted
      (session decode G msgs).1 := by
  induction msgs using List.reverseRecOn with
  | nil => exact .new
  | append_singleton msgs msg ih =>
    rw [session_snoc]
    generalize session decode G msgs = s at ih ⊢
    by_cases hok : (s.1.recv decode msg G.identifier).1 = .ok ()
    · obtain ⟨p, hp, ha⟩ := recv_ok_iff.mp
        (Prod.ext hok rfl : s.1.recv decode msg G.identifier = (.ok (), _))
      rw [hok, record, hp]
      exact ih.snoc ha
    · rw [ih.recv_of_ne_ok hlen hok, record]
      split
      · exact ih
      · rw [if_neg hok]
        exact ih

structure Tracks (G : Group I) (st : DKGSessionState I R1 R2) (log : Log I R1 R2) : Prop where
  delivered_of_accepted : log.accepted ⊆ log.delivered
  none_delivered : st.phase = 0 → ∀ e ∈ log.delivered, e.2.asBroadcast = none
  /-- An echo with the stored package that was delivered was accepted, then or before. -/
  accepted_of_delivered : ∀ pubkey sender original package,
    (pubkey, .broadcast original package) ∈ log.delivered →
    G.pubkeys.lookup pubkey = some sender → original ∈ G.others → original ≠ sender →
    (stored Payload.asRound1 G.pubkeys log.accepted).lookup original = some package →
    ∃ pubkey', G.pubkeys.lookup pubkey' = some sender ∧
      (pubkey', .broadcast original package) ∈ log.accepted

theorem Reaches.accepted_of_ne_ok (h : Reaches G.identifier G.pubkeys l st)
    (hlen : 2 ≤ G.pubkeys.len) {sender original : I} {package : R1}
    (hp : st.payload decode msg.msg = some (.broadcast original package))
    (hne : (st.recv decode msg G.identifier).1 ≠ .ok ())
    (hsender : G.pubkeys.lookup msg.sender = some sender) (ho : original ∈ G.others)
    (hos : original ≠ sender)
    (hstored : (stored Payload.asRound1 G.pubkeys l).lookup original = some package) :
    ∃ pubkey', G.pubkeys.lookup pubkey' = some sender ∧
      (pubkey', .broadcast original package) ∈ l := by
  have hrep := h.represents hlen
  cases h.stores hlen with
  | waitingForRound1PackagesBroadcast broadcasted hheard =>
    have hself : original ≠ G.identifier := fun heq => Group.identifier_notMem_others (heq ▸ ho)
    have hbefore : heard broadcasted original sender ≠ none := by
      intro hnone
      have ha : Accepts G.identifier msg.sender (.broadcast original package)
          (waitingForRound1PackagesBroadcast G.pubkeys _ broadcasted : DKGSessionState I R1 R2) _ :=
        .broadcast G.pubkeys _ broadcasted sender original package hsender
          (Group.hasValue_of_mem_others ho) hself hos hstored hnone
      exact hne (congrArg Prod.fst (recv_ok_iff.mpr ⟨_, hp, ha⟩))
    obtain ⟨package', hpackage⟩ := Option.ne_none_iff_exists'.mp hbefore
    cases hrep with
    | waitingForRound1PackagesBroadcast _ _ _ hb _ _ _ _ =>
      have hr1 := (hb.valid original sender package' hpackage).1
      obtain rfl := Option.some.inj (hstored.symm.trans hr1)
      exact (hheard original sender package).mp hpackage
  | _ => simp [payload] at hp

omit [DecidableEq I] [DecidableEq R1] in
theorem payload_broadcast {original : I} {package : R1} {b : Bytes}
    (h : st.payload decode b = some (.broadcast original package)) : st.phase = 1 := by
  cases st with
  | waitingForRound1PackagesBroadcast _ _ _ => rfl
  | _ => simp [payload] at h

theorem Accepts.phase_of_round1 {pubkey : PublicKey} {p : Payload I R1 R2}
    (h : Accepts self pubkey p st st') (hp : p.asRound1 ≠ none) : st.phase = 0 := by
  cases h with
  | round1 _ _ _ _ _ => rfl
  | _ => exact absurd rfl hp

theorem Accepts.phase_of_broadcast {pubkey : PublicKey} {p : Payload I R1 R2}
    (h : Accepts self pubkey p st st') (hp : p.asBroadcast ≠ none) : st'.phase ≠ 0 := by
  cases h with
  | broadcast _ _ _ _ _ _ _ _ _ _ _ _ => split_ifs <;> simp [phase]
  | _ => exact absurd rfl hp

section Tracks

variable {log : Log I R1 R2} {pubkey : PublicKey} {p : Payload I R1 R2}

theorem Tracks.accepted (h : Tracks G st log) (ha : Accepts self pubkey p st st') :
    Tracks G st' ⟨log.delivered ++ [(pubkey, p)], log.accepted ++ [(pubkey, p)]⟩ := by
  refine ⟨?_, ?_, ?_⟩
  · exact List.append_subset.mpr ⟨fun _ hmem => List.mem_append_left _ (h.delivered_of_accepted hmem),
      List.subset_append_right _ _⟩
  · intro hphase e hmem
    obtain hmem | hlast := List.mem_append.mp hmem
    · have hle := ha.phase_le
      exact h.none_delivered (by omega) e hmem
    · obtain rfl := List.mem_singleton.mp hlast
      by_contra hbroadcast
      exact ha.phase_of_broadcast hbroadcast hphase
  · intro pubkey₀ sender original package hmem hsender ho hne hstored
    obtain hmem | hlast := List.mem_append.mp hmem
    · have hround1 : p.asRound1 = none := by
        by_contra hround1
        have hnone := h.none_delivered (ha.phase_of_round1 hround1) _ hmem
        cases hnone
      have hsame : stored Payload.asRound1 G.pubkeys (log.accepted ++ [(pubkey, p)]) =
          stored Payload.asRound1 G.pubkeys log.accepted := stored_snoc_of_none hround1
      rw [hsame] at hstored
      obtain ⟨pubkey', hp', hmem'⟩ :=
        h.accepted_of_delivered pubkey₀ sender original package hmem hsender ho hne hstored
      exact ⟨pubkey', hp', List.mem_append_left _ hmem'⟩
    · exact ⟨pubkey₀, hsender, List.mem_append_right _ hlast⟩

theorem Tracks.rejected (h : Tracks G st log)
    (hreach : Reaches G.identifier G.pubkeys log.accepted st) (hlen : 2 ≤ G.pubkeys.len)
    (hp : st.payload decode msg.msg = some p)
    (hne : (st.recv decode msg G.identifier).1 ≠ .ok ()) :
    Tracks G st ⟨log.delivered ++ [(msg.sender, p)], log.accepted⟩ := by
  refine ⟨fun _ hmem => List.mem_append_left _ (h.delivered_of_accepted hmem), ?_, ?_⟩
  · intro hphase e hmem
    obtain hmem | hlast := List.mem_append.mp hmem
    · exact h.none_delivered hphase e hmem
    · obtain rfl := List.mem_singleton.mp hlast
      cases p with
      | broadcast original package =>
        rw [payload_broadcast hp] at hphase
        cases hphase
      | _ => rfl
  · intro pubkey₀ sender original package hmem hsender ho hos hstored
    obtain hmem | hlast := List.mem_append.mp hmem
    · exact h.accepted_of_delivered pubkey₀ sender original package hmem hsender ho hos hstored
    · obtain ⟨rfl, rfl⟩ := Prod.mk.inj (List.mem_singleton.mp hlast)
      exact hreach.accepted_of_ne_ok hlen hp hne hsender ho hos hstored

end Tracks

theorem session_tracks (decode : DKGDecoder I R1 R2) (G : Group I) (hlen : 2 ≤ G.pubkeys.len)
    (msgs : List Msg) : Tracks G (session decode G msgs).1 (session decode G msgs).2 := by
  induction msgs using List.reverseRecOn with
  | nil => exact ⟨List.Subset.refl _, fun _ e he => absurd he List.not_mem_nil,
      fun _ _ _ _ he => absurd he List.not_mem_nil⟩
  | append_singleton msgs msg ih =>
    have hreach := session_reaches decode G hlen msgs
    rw [session_snoc]
    generalize session decode G msgs = s at ih hreach ⊢
    by_cases hok : (s.1.recv decode msg G.identifier).1 = .ok ()
    · obtain ⟨p, hp, ha⟩ := recv_ok_iff.mp
        (Prod.ext hok rfl : s.1.recv decode msg G.identifier = (.ok (), _))
      rw [hok, record, hp]
      exact ih.accepted ha
    · rw [hreach.recv_of_ne_ok hlen hok, record]
      cases hp : s.1.payload decode msg.msg with
      | none => exact ih
      | some p =>
        dsimp only
        rw [if_neg hok]
        exact ih.rejected hreach hlen hp hok

/-- What holds of a session after any messages from others. -/
structure Sound (decode : DKGDecoder I R1 R2) (G : Group I) (msgs : List Msg)
    (st : DKGSessionState I R1 R2) (log : Log I R1 R2) : Prop where
  stores : Stores G.pubkeys log.accepted st
  leaves_iff : st.phase ≠ 0 ↔ (stored Payload.asRound1 G.pubkeys log.accepted).keys = G.others
  frozen : st.phase ≠ 0 → ∀ more,
    stored Payload.asRound1 G.pubkeys (session decode G (msgs ++ more)).2.accepted =
      stored Payload.asRound1 G.pubkeys log.accepted
  echoed_iff : 2 < G.pubkeys.len → (2 ≤ st.phase ↔
    ∀ original ∈ G.others, ∀ sender ∈ G.others, original ≠ sender → ∃ pubkey package,
      G.pubkeys.lookup pubkey = some sender ∧
      (stored Payload.asRound1 G.pubkeys log.accepted).lookup original = some package ∧
      (pubkey, .broadcast original package) ∈ log.delivered)
  echo_valid : ∀ pubkey original package, (pubkey, .broadcast original package) ∈ log.accepted →
    ∃ sender ∈ G.others, G.pubkeys.lookup pubkey = some sender ∧ original ∈ G.others ∧
      original ≠ sender
  ready_iff : st.hasRound2Packages = true ↔
    (stored Payload.asRound2 G.pubkeys log.accepted).keys = G.others
  no_panic : ∀ msg message, (st.recv decode msg G.identifier).1 ≠ .panic message
  no_underflow : ∀ pubkeys r1, st = .waitingForRound1Packages pubkeys r1 → 1 ≤ pubkeys.len

section Others

variable {V : Type*} {select : Payload I R1 R2 → Option V}

omit [DecidableEq R1] in
theorem keys_stored_subset (hsenders : ∀ e ∈ l, e.1 ≠ G.key) :
    (stored select G.pubkeys l).keys ⊆ G.others := by
  intro identifier hmem
  obtain ⟨e, he, hp, -⟩ := mem_keys_stored.mp hmem
  exact Group.mem_others.mpr ⟨e.1, hsenders e he, hp⟩

omit [DecidableEq R1] in
theorem len_stored_iff (hsenders : ∀ e ∈ l, e.1 ≠ G.key) :
    (stored select G.pubkeys l).len = G.pubkeys.len - 1 ↔
      (stored select G.pubkeys l).keys = G.others := by
  rw [← G.card_others, Map.len]
  constructor
  · intro heq
    exact Finset.eq_of_subset_of_card_le (keys_stored_subset hsenders) heq.ge
  · intro heq
    rw [heq]

omit [DecidableEq R1] in
theorem keys_eq_of_collected {r1 : Map I R1} (h : Collected .round1 pubkeys l r1) :
    r1.keys = (stored Payload.asRound1 pubkeys l).keys := by
  ext identifier
  rw [mem_keys_stored]
  constructor
  · intro hmem
    obtain ⟨package, hp⟩ := Map.mem_keys_iff.mp hmem
    obtain ⟨pubkey, hlookup, he⟩ := h.sent identifier package hp
    exact ⟨_, he, hlookup, rfl⟩
  · rintro ⟨⟨pubkey, p⟩, he, hlookup, hsome⟩
    cases p with
    | round1 package =>
      obtain ⟨identifier', hmem, hlookup'⟩ := h.stored pubkey package he
      obtain rfl := Option.some.inj (hlookup.symm.trans hlookup')
      exact hmem
    | _ => cases hsome

end Others

theorem sender_of_delivered (hsenders : ∀ msg ∈ msgs, msg.sender ≠ G.key) :
    ∀ e ∈ (session decode G msgs).2.delivered, e.1 ≠ G.key := by
  induction msgs using List.reverseRecOn with
  | nil => exact fun e he => absurd he List.not_mem_nil
  | append_singleton msgs msg ih =>
    have hold := ih fun msg' hmem => hsenders msg' (List.mem_append_left _ hmem)
    rw [session_snoc, record]
    split
    · exact hold
    · intro e hmem
      obtain hmem | hlast := List.mem_append.mp hmem
      · exact hold e hmem
      · rw [List.mem_singleton.mp hlast]
        exact hsenders msg (by simp)

/-- The first round is over exactly when every other participant has a stored package. -/
theorem Reaches.leaves_iff (h : Reaches G.identifier G.pubkeys l st) (hlen : 2 ≤ G.pubkeys.len)
    (hsenders : ∀ e ∈ l, e.1 ≠ G.key) :
    st.phase ≠ 0 ↔ (stored Payload.asRound1 G.pubkeys l).keys = G.others := by
  rw [← len_stored_iff hsenders]
  cases h.represents hlen with
  | waitingForRound1Packages r1 hr1 _ hne =>
    rw [Map.len, keys_eq_of_collected hr1] at hne
    exact iff_of_false (fun h => h rfl) hne
  | waitingForRound1PackagesBroadcast r1 _ hr1 _ _ hfull _ _ =>
    rw [Map.len, keys_eq_of_collected hr1] at hfull
    exact iff_of_true (by simp [phase]) hfull
  | waitingForRound2Packages r1 _ hr1 _ _ hfull _ _ =>
    rw [Map.len, keys_eq_of_collected hr1] at hfull
    exact iff_of_true (by simp [phase]) hfull
  | round2PackagesReady r1 _ hr1 _ _ hfull _ =>
    rw [Map.len, keys_eq_of_collected hr1] at hfull
    exact iff_of_true (by simp [phase]) hfull

theorem others_nonempty (hlen : 2 ≤ G.pubkeys.len) : G.others.Nonempty := by
  rw [← Finset.card_pos, G.card_others]
  omega

theorem Reaches.ready_iff (h : Reaches G.identifier G.pubkeys l st) (hlen : 2 ≤ G.pubkeys.len)
    (hsenders : ∀ e ∈ l, e.1 ≠ G.key) :
    st.hasRound2Packages = true ↔ (stored Payload.asRound2 G.pubkeys l).keys = G.others := by
  have hleaves := h.leaves_iff hlen hsenders
  have hrep := h.represents hlen
  -- no package of the second round is stored before it
  have hempty : st.phase ≤ 1 → (stored Payload.asRound2 G.pubkeys l).keys ≠ G.others := by
    intro hphase heq
    rw [h.stored_round2 hphase, Map.keys_empty] at heq
    exact (others_nonempty hlen).ne_empty heq.symm
  cases h.stores hlen with
  | waitingForRound1Packages => exact iff_of_false (by simp [hasRound2Packages]) (hempty (Nat.zero_le 1))
  | waitingForRound1PackagesBroadcast _ _ =>
    exact iff_of_false (by simp [hasRound2Packages]) (hempty le_rfl)
  | waitingForRound2Packages =>
    cases hrep with
    | waitingForRound2Packages _ _ _ _ _ _ _ hne =>
      rw [hleaves.mp (by simp [phase])] at hne
      exact iff_of_false (by simp [hasRound2Packages]) hne
  | round2PackagesReady =>
    cases hrep with
    | round2PackagesReady r1 _ hr1 _ _ _ hkeys =>
      rw [keys_eq_of_collected hr1, hleaves.mp (by simp [phase])] at hkeys
      exact iff_of_true rfl hkeys

/-- The broadcast is over exactly when every two others are linked by a right echo. -/
theorem Reaches.echoed_iff (h : Reaches G.identifier G.pubkeys l st) (hthree : 2 < G.pubkeys.len)
    (hsenders : ∀ e ∈ l, e.1 ≠ G.key) : 2 ≤ st.phase ↔
      ∀ original ∈ G.others, ∀ sender ∈ G.others, original ≠ sender → ∃ pubkey package,
        G.pubkeys.lookup pubkey = some sender ∧
        (stored Payload.asRound1 G.pubkeys l).lookup original = some package ∧
        (pubkey, .broadcast original package) ∈ l := by
  have hlen : 2 ≤ G.pubkeys.len := by omega
  have hcard : 1 < G.others.card := by
    rw [G.card_others]
    omega
  have hleaves := h.leaves_iff hlen hsenders
  constructor
  · intro hphase original ho sender hs hne
    rw [← hleaves.mp (by omega)] at ho hs
    exact h.echoed hlen hphase hthree original ho sender hs hne
  -- if all echoes were accepted the broadcast is complete, so the state has left this phase
  · intro hall
    by_contra hphase
    cases h.represents hlen with
    | waitingForRound1Packages r1 _ hround1 _ =>
      obtain ⟨original, ho, sender, hs, hne⟩ := Finset.one_lt_card.mp hcard
      obtain ⟨pubkey, package, -, -, hmem⟩ := hall original ho sender hs hne
      obtain ⟨package', heq⟩ := hround1 _ hmem
      cases heq
    | waitingForRound1PackagesBroadcast r1 broadcasted hr1 hheard _ _ _ hincomplete =>
      have hkeys : r1.keys = G.others :=
        (keys_eq_of_collected hr1).trans (hleaves.mp (by simp [phase]))
      have hcomplete : broadcastComplete r1 broadcasted = true := by
        refine complete_of_heard (by rw [Map.len, hkeys]; exact hcard) ?_ hheard.nonempty ?_
        · intro original sender package hp
          refine ⟨(hheard.valid original sender package hp).1, ?_⟩
          obtain ⟨pubkey, hlookup, hmem⟩ := (hheard.heard_iff original sender package).mp hp
          exact hkeys ▸ Group.mem_others.mpr ⟨pubkey, hsenders _ hmem, hlookup⟩
        · intro original ho sender hs hne
          obtain ⟨pubkey, package, hlookup, -, hmem⟩ :=
            hall original (hkeys ▸ ho) sender (hkeys ▸ hs) hne
          exact ⟨package, (hheard.heard_iff _ _ _).mpr ⟨pubkey, hlookup, hmem⟩⟩
      rw [hincomplete] at hcomplete
      cases hcomplete
    | waitingForRound2Packages _ _ _ _ _ _ _ _ => exact hphase le_rfl
    | round2PackagesReady _ _ _ _ _ _ _ => exact hphase (Nat.le_succ 2)

theorem stored_frozen (hphase : (session decode G msgs).1.phase ≠ 0) (more : List Msg) :
    (session decode G (msgs ++ more)).1.phase ≠ 0 ∧
      stored Payload.asRound1 G.pubkeys (session decode G (msgs ++ more)).2.accepted =
        stored Payload.asRound1 G.pubkeys (session decode G msgs).2.accepted := by
  induction more using List.reverseRecOn with
  | nil => exact ⟨by rwa [List.append_nil], by rw [List.append_nil]⟩
  | append_singleton more msg ih =>
    obtain ⟨hphase', hsame⟩ := ih
    have hle := recv_phase_le decode (session decode G (msgs ++ more)).1 msg G.identifier
    rw [← List.append_assoc, session_snoc, ← hsame]
    generalize session decode G (msgs ++ more) = s at hphase' hle ⊢
    refine ⟨by dsimp only; omega, ?_⟩
    by_cases hok : (s.1.recv decode msg G.identifier).1 = .ok ()
    · obtain ⟨p, hp, ha⟩ := recv_ok_iff.mp
        (Prod.ext hok rfl : s.1.recv decode msg G.identifier = (.ok (), _))
      have hround1 : p.asRound1 = none := by
        by_contra hround1
        exact hphase' (ha.phase_of_round1 hround1)
      rw [hok, record, hp]
      exact stored_snoc_of_none hround1
    · rw [record]
      split
      · rfl
      · rw [if_neg hok]

theorem Reaches.echo_valid_others (h : Reaches G.identifier G.pubkeys l st)
    (hlen : 2 ≤ G.pubkeys.len) (hsenders : ∀ e ∈ l, e.1 ≠ G.key) {pubkey : PublicKey}
    {original : I} {package : R1} (hmem : (pubkey, .broadcast original package) ∈ l) :
    ∃ sender ∈ G.others, G.pubkeys.lookup pubkey = some sender ∧ original ∈ G.others ∧
      original ≠ sender := by
  obtain ⟨sender, hp, hvalue, hself, hne⟩ := h.echo_valid hlen hmem
  obtain ⟨pubkey', hp'⟩ := Map.hasValue_iff.mp hvalue
  have hother : pubkey' ≠ G.key := by
    rintro rfl
    exact hself (Option.some.inj (hp'.symm.trans G.lookup_key))
  exact ⟨sender, Group.mem_others.mpr ⟨pubkey, hsenders _ hmem, hp⟩, hp,
    Group.mem_others.mpr ⟨pubkey', hother, hp'⟩, hne⟩

/-- The session invariant of one participant, whatever its peers send. -/
theorem session_invariant (decode : DKGDecoder I R1 R2) (G : Group I) (hlen : 2 ≤ G.pubkeys.len)
    (msgs : List Msg) (hsenders : ∀ msg ∈ msgs, msg.sender ≠ G.key) :
    Sound decode G msgs (session decode G msgs).1 (session decode G msgs).2 := by
  have hreach := session_reaches decode G hlen msgs
  have htracks := session_tracks decode G hlen msgs
  have hdelivered : ∀ e ∈ (session decode G msgs).2.delivered, e.1 ≠ G.key :=
    sender_of_delivered hsenders
  have haccepted : ∀ e ∈ (session decode G msgs).2.accepted, e.1 ≠ G.key :=
    fun e hmem => hdelivered e (htracks.delivered_of_accepted hmem)
  refine ⟨hreach.stores hlen, hreach.leaves_iff hlen haccepted,
    fun hphase more => (stored_frozen hphase more).2, fun hthree => ?_,
    fun pubkey original package hmem => hreach.echo_valid_others hlen haccepted hmem,
    hreach.ready_iff hlen haccepted, fun msg message => recv_ne_panic message, ?_⟩
  · rw [hreach.echoed_iff hthree haccepted]
    constructor
    · intro hall original ho sender hs hne
      obtain ⟨pubkey, package, hlookup, hstored, hmem⟩ := hall original ho sender hs hne
      exact ⟨pubkey, package, hlookup, hstored, htracks.delivered_of_accepted hmem⟩
    · intro hall original ho sender hs hne
      obtain ⟨pubkey, package, hlookup, hstored, hmem⟩ := hall original ho sender hs hne
      obtain ⟨pubkey', hlookup', hmem'⟩ := htracks.accepted_of_delivered pubkey sender original
        package hmem hlookup ho hne hstored
      exact ⟨pubkey', package, hlookup', hstored, hmem'⟩
  · intro pubkeys r1 heq
    cases heq ▸ hreach.stores hlen
    omega

/-- Participants 2 and 3 send packages; 2 echoes itself and then a wrong package of 3,
and both echo each other; a stranger and a repetition are in between. -/
def sampleDKGMessages : List Msg :=
  [⟨⟨[2]⟩, [20]⟩, ⟨⟨[9]⟩, [90]⟩, ⟨⟨[3]⟩, [30]⟩, ⟨⟨[2]⟩, [2, 20]⟩, ⟨⟨[2]⟩, [3, 31]⟩,
    ⟨⟨[2]⟩, [3, 30]⟩, ⟨⟨[2]⟩, [3, 30]⟩, ⟨⟨[3]⟩, [2, 20]⟩]

theorem session_invariant_sample :
    let s := session sampleDKGDecoder sampleGroup sampleDKGMessages
    s.1.phase = 2 ∧ Sound sampleDKGDecoder sampleGroup sampleDKGMessages s.1 s.2 :=
  ⟨by decide, session_invariant sampleDKGDecoder sampleGroup (by decide) sampleDKGMessages
    (by decide)⟩

end FrostTools.Session.DKGSessionState
