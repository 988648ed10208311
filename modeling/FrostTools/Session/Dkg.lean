import FrostTools.Session.Coordinator

/-!
# The session state of a key generation participant

`I`, `R1` and `R2` are the identifiers and the packages of the two rounds. The
payload type that `recv` decodes is chosen by the phase of the receiver.
-/

namespace FrostTools.Session

inductive DKGSessionState (I R1 R2 : Type*) where
  | waitingForRound1Packages (pubkeys : Map PublicKey I) (round1Packages : Map I R1)
  | waitingForRound1PackagesBroadcast (pubkeys : Map PublicKey I) (round1Packages : Map I R1)
      /- keyed by original sender, then by the sender of the broadcast -/
      (round1BroadcastedPackages : Map I (Map I R1))
  | waitingForRound2Packages (pubkeys : Map PublicKey I) (round1Packages : Map I R1)
      (round2Packages : Map I R2)
  | round2PackagesReady (pubkeys : Map PublicKey I) (round2Packages : Map I R2)

/-- `serde_json::from_slice` at the three payload types. -/
structure DKGDecoder (I R1 R2 : Type*) where
  round1 : Bytes → Option R1
  broadcast : Bytes → Option (I × R1)
  round2 : Bytes → Option R2

inductive Payload (I R1 R2 : Type*) where
  | round1 (package : R1)
  | broadcast (original : I) (package : R1)
  | round2 (package : R2)
  deriving DecidableEq

namespace Payload

variable {I R1 R2 : Type*}

def asRound1 : Payload I R1 R2 → Option R1
  | .round1 package => some package
  | _ => none

def asBroadcast : Payload I R1 R2 → Option (I × R1)
  | .broadcast original package => some (original, package)
  | _ => none

def asRound2 : Payload I R1 R2 → Option R2
  | .round2 package => some package
  | _ => none

end Payload

namespace DKGSessionState

variable {I R1 R2 : Type*} [DecidableEq I] [DecidableEq R1]

def new (pubkeys : Map PublicKey I) : DKGSessionState I R1 R2 := .waitingForRound1Packages pubkeys ∅

def handleRound1Package (st : DKGSessionState I R1 R2) (pubkey : PublicKey) (round1Package : R1) :
    Outcome Error Unit × DKGSessionState I R1 R2 :=
  match st with
  | .waitingForRound1Packages pubkeys round1Packages =>
    match pubkeys.lookup pubkey with
    | none => (.err (.eyre "unknown participant"), st)
    | some identifier =>
      let round1Packages := round1Packages.insert identifier round1Package
      -- `pubkeys` is not empty here, so the subtraction does not underflow
      if round1Packages.len = pubkeys.len - 1 then
        if pubkeys.len > 2 then
          (.ok (), .waitingForRound1PackagesBroadcast pubkeys round1Packages ∅)
        else (.ok (), .waitingForRound2Packages pubkeys round1Packages ∅)
      else (.ok (), .waitingForRound1Packages pubkeys round1Packages)
  | _ => (.panic "wrong state", st)

/-- Every original sender was echoed by all other participants, with the package
that was received from the original sender. -/
def broadcastComplete (round1Packages : Map I R1) (broadcasted : Map I (Map I R1)) : Bool :=
  decide (broadcasted.keys = round1Packages.keys) &&
    broadcasted.all fun original map =>
      decide (insert original map.keys = round1Packages.keys) &&
        map.all fun _ package => decide (some package = round1Packages.lookup original)

/-- `broadcasted.entry(original).or_insert_with(BTreeMap::new).insert(sender, package)`. -/
def insertBroadcast (broadcasted : Map I (Map I R1)) (original sender : I) (package : R1) :
    Map I (Map I R1) :=
  broadcasted.insert original (((broadcasted.lookup original).getD ∅).insert sender package)

def heard (broadcasted : Map I (Map I R1)) (original sender : I) : Option R1 :=
  ((broadcasted.lookup original).getD ∅).lookup sender

def handleRound1PackageBroadcast (st : DKGSessionState I R1 R2) (senderPubkey : PublicKey)
    (selfIdentifier originalIdentifier : I) (round1Package : R1) :
    Outcome Error Unit × DKGSessionState I R1 R2 :=
  match st with
  | .waitingForRound1PackagesBroadcast pubkeys round1Packages broadcasted =>
    match pubkeys.lookup senderPubkey with
    | none => (.err (.eyre "unknown participant"), st)
    | some senderIdentifier =>
      if ¬pubkeys.HasValue originalIdentifier then (.err (.eyre "unknown participant"), st)
      else if originalIdentifier = selfIdentifier then
        (.err (.eyre "received own broadcast Round 1 Package"), st)
      else if originalIdentifier = senderIdentifier then
        (.err (.eyre "received redundant broadcast Round 1 Package"), st)
      else
        match round1Packages.lookup originalIdentifier with
        | none => (.err (.eyre "Round 1 Package not found"), st)
        | some package =>
          if package ≠ round1Package then (.err (.eyre "broadcast mismatch"), st)
          else
            let before := heard broadcasted originalIdentifier senderIdentifier
            let broadcasted :=
              insertBroadcast broadcasted originalIdentifier senderIdentifier round1Package
            if before.isSome then
              -- the map was already written when the duplicate is noticed
              (.err (.eyre "duplicated broadcast Round 1 Package"),
                .waitingForRound1PackagesBroadcast pubkeys round1Packages broadcasted)
            else if broadcastComplete round1Packages broadcasted then
              (.ok (), .waitingForRound2Packages pubkeys round1Packages ∅)
            else (.ok (), .waitingForRound1PackagesBroadcast pubkeys round1Packages broadcasted)
  | _ => (.panic "wrong state", st)

def handleRound2Package (st : DKGSessionState I R1 R2) (pubkey : PublicKey) (round2Package : R2) :
    Outcome Error Unit × DKGSessionState I R1 R2 :=
  match st with
  | .waitingForRound2Packages pubkeys round1Packages round2Packages =>
    match pubkeys.lookup pubkey with
    | none => (.err (.eyre "unknown participant"), st)
    | some identifier =>
      if identifier ∉ round1Packages.keys then (.err (.eyre "unkown participant"), st)
      else
        let round2Packages := round2Packages.insert identifier round2Package
        if round2Packages.keys = round1Packages.keys then
          (.ok (), .round2PackagesReady pubkeys round2Packages)
        else (.ok (), .waitingForRound2Packages pubkeys round1Packages round2Packages)
  | _ => (.panic "wrong state", st)

def recv (decode : DKGDecoder I R1 R2) (st : DKGSessionState I R1 R2) (msg : Msg)
    (selfIdentifier : I) : Outcome Error Unit × DKGSessionState I R1 R2 :=
  match st with
  | .waitingForRound1Packages .. =>
    match decode.round1 msg.msg with
    | none => (.err .malformed, st)
    | some round1Package => st.handleRound1Package msg.sender round1Package
  | .waitingForRound1PackagesBroadcast .. =>
    match decode.broadcast msg.msg with
    | none => (.err .malformed, st)
    | some (identifier, round1Package) =>
      st.handleRound1PackageBroadcast msg.sender selfIdentifier identifier round1Package
  | .waitingForRound2Packages .. =>
    match decode.round2 msg.msg with
    | none => (.err .malformed, st)
    | some round2Package => st.handleRound2Package msg.sender round2Package
  | .round2PackagesReady .. => (.err (.eyre "received message during wrong state"), st)

def hasRound1Packages : DKGSessionState I R1 R2 → Bool
  | .waitingForRound1PackagesBroadcast .. => true
  | .waitingForRound2Packages .. => true
  | _ => false

def round1Packages : DKGSessionState I R1 R2 → Outcome Error (Map I R1)
  | .waitingForRound2Packages _ round1Packages _ => .ok round1Packages
  | .waitingForRound1PackagesBroadcast _ round1Packages _ => .ok round1Packages
  | _ => .panic "wrong state"

def hasRound1BroadcastPackages : DKGSessionState I R1 R2 → Bool
  | .waitingForRound2Packages .. => true
  | _ => false

def hasRound2Packages : DKGSessionState I R1 R2 → Bool
  | .round2PackagesReady .. => true
  | _ => false

def round2Packages : DKGSessionState I R1 R2 → Outcome Error (Map I R2)
  | .round2PackagesReady _ round2Packages => .ok round2Packages
  | _ => .panic "wrong state"

def phase : DKGSessionState I R1 R2 → ℕ
  | .waitingForRound1Packages .. => 0
  | .waitingForRound1PackagesBroadcast .. => 1
  | .waitingForRound2Packages .. => 2
  | .round2PackagesReady .. => 3

def pubkeys : DKGSessionState I R1 R2 → Map PublicKey I
  | .waitingForRound1Packages pubkeys _ => pubkeys
  | .waitingForRound1PackagesBroadcast pubkeys _ _ => pubkeys
  | .waitingForRound2Packages pubkeys _ _ => pubkeys
  | .round2PackagesReady pubkeys _ => pubkeys

omit [DecidableEq I] [DecidableEq R1] in
theorem eq_ready_of_phase {st : DKGSessionState I R1 R2} (h : 3 ≤ st.phase) :
    ∃ pubkeys r2, st = .round2PackagesReady pubkeys r2 := by
  cases st with
  | round2PackagesReady pubkeys r2 => exact ⟨pubkeys, r2, rfl⟩
  | _ => simp [phase] at h

/-- The payload that a state decodes from the bytes of a message. -/
def payload (decode : DKGDecoder I R1 R2) (st : DKGSessionState I R1 R2) (b : Bytes) :
    Option (Payload I R1 R2) :=
  match st with
  | .waitingForRound1Packages .. => (decode.round1 b).map .round1
  | .waitingForRound1PackagesBroadcast .. =>
    (decode.broadcast b).map fun (original, package) => .broadcast original package
  | .waitingForRound2Packages .. => (decode.round2 b).map .round2
  | .round2PackagesReady .. => none

inductive Accepts (self : I) (pubkey : PublicKey) :
    Payload I R1 R2 → DKGSessionState I R1 R2 → DKGSessionState I R1 R2 → Prop
  | round1 (pubkeys : Map PublicKey I) (r1 : Map I R1) (identifier : I) (package : R1) :
    pubkeys.lookup pubkey = some identifier →
    Accepts self pubkey (.round1 package) (.waitingForRound1Packages pubkeys r1)
      (if (r1.insert identifier package).len = pubkeys.len - 1 then
        if pubkeys.len > 2 then
          .waitingForRound1PackagesBroadcast pubkeys (r1.insert identifier package) ∅
        else .waitingForRound2Packages pubkeys (r1.insert identifier package) ∅
      else .waitingForRound1Packages pubkeys (r1.insert identifier package))
  | broadcast (pubkeys : Map PublicKey I) (r1 : Map I R1) (broadcasted : Map I (Map I R1))
    (sender original : I) (package : R1) :
    pubkeys.lookup pubkey = some sender → pubkeys.HasValue original → original ≠ self →
    original ≠ sender → r1.lookup original = some package →
    heard broadcasted original sender = none →
    Accepts self pubkey (.broadcast original package)
      (.waitingForRound1PackagesBroadcast pubkeys r1 broadcasted)
      (if broadcastComplete r1 (insertBroadcast broadcasted original sender package) then
        .waitingForRound2Packages pubkeys r1 ∅
      else .waitingForRound1PackagesBroadcast pubkeys r1
        (insertBroadcast broadcasted original sender package))
  | round2 (pubkeys : Map PublicKey I) (r1 : Map I R1) (r2 : Map I R2) (identifier : I)
    (package : R2) :
    pubkeys.lookup pubkey = some identifier → identifier ∈ r1.keys →
    Accepts self pubkey (.round2 package) (.waitingForRound2Packages pubkeys r1 r2)
      (if (r2.insert identifier package).keys = r1.keys then
        .round2PackagesReady pubkeys (r2.insert identifier package)
      else .waitingForRound2Packages pubkeys r1 (r2.insert identifier package))

variable {decode : DKGDecoder I R1 R2} {self : I} {msg : Msg} {st st' : DKGSessionState I R1 R2}

theorem Accepts.pubkeys {pubkey : PublicKey} {p : Payload I R1 R2}
    (h : Accepts self pubkey p st st') : st'.pubkeys = st.pubkeys := by
  cases h <;> split_ifs <;> rfl

omit [DecidableEq R1] in
theorem handleRound1Package_ok_iff {pubkeys : Map PublicKey I} {r1 : Map I R1} {pubkey : PublicKey}
    {package : R1} :
    (waitingForRound1Packages pubkeys r1).handleRound1Package pubkey package = (.ok (), st') ↔
      ∃ identifier, pubkeys.lookup pubkey = some identifier ∧
        st' = if (r1.insert identifier package).len = pubkeys.len - 1 then
            if pubkeys.len > 2 then
              .waitingForRound1PackagesBroadcast pubkeys (r1.insert identifier package) ∅
            else .waitingForRound2Packages pubkeys (r1.insert identifier package) ∅
          else .waitingForRound1Packages pubkeys (r1.insert identifier package) := by
  unfold handleRound1Package
  cases hp : pubkeys.lookup pubkey with
  | none => simp [hp]
  | some identifier =>
    simp only [hp, Option.some.injEq, exists_eq_left']
    split_ifs <;> simp [eq_comm]

theorem handleRound1PackageBroadcast_ok_iff {pubkeys : Map PublicKey I} {r1 : Map I R1}
    {broadcasted : Map I (Map I R1)} {pubkey : PublicKey} {original : I} {package : R1} :
    (waitingForRound1PackagesBroadcast pubkeys r1 broadcasted).handleRound1PackageBroadcast
        pubkey self original package = (.ok (), st') ↔
      ∃ sender, pubkeys.lookup pubkey = some sender ∧ pubkeys.HasValue original ∧
        original ≠ self ∧ original ≠ sender ∧ r1.lookup original = some package ∧
        heard broadcasted original sender = none ∧
        st' = if broadcastComplete r1 (insertBroadcast broadcasted original sender package) then
            .waitingForRound2Packages pubkeys r1 ∅
          else .waitingForRound1PackagesBroadcast pubkeys r1
            (insertBroadcast broadcasted original sender package) := by
  unfold handleRound1PackageBroadcast
  cases hp : pubkeys.lookup pubkey with
  | none => simp [hp]
  | some sender =>
    simp only [hp, Option.some.injEq, exists_eq_left']
    by_cases hvalue : pubkeys.HasValue original
    · by_cases hself : original = self
      · subst hself
        simp [hvalue]
      · by_cases hsender : original = sender
        · subst hsender
          simp [hvalue, hself]
        · simp only [hvalue, not_true_eq_false, ↓reduceIte, hself, hsender, ne_eq,
            not_false_eq_true, true_and]
          cases hr1 : r1.lookup original with
          | none => simp
          | some package' =>
            by_cases hpackage : package' = package
            · subst hpackage
              cases hheard : heard broadcasted original sender with
              | some _ => simp
              | none =>
                simp only [not_true_eq_false, ↓reduceIte, Option.isSome_none, Bool.false_eq_true,
                  true_and]
                split_ifs <;> simp [eq_comm]
            · simp [hpackage]
    · simp [hvalue]

omit [DecidableEq R1] in
theorem handleRound2Package_ok_iff {pubkeys : Map PublicKey I} {r1 : Map I R1} {r2 : Map I R2}
    {pubkey : PublicKey} {package : R2} :
    (waitingForRound2Packages pubkeys r1 r2).handleRound2Package pubkey package = (.ok (), st') ↔
      ∃ identifier, pubkeys.lookup pubkey = some identifier ∧ identifier ∈ r1.keys ∧
        st' = if (r2.insert identifier package).keys = r1.keys then
            .round2PackagesReady pubkeys (r2.insert identifier package)
          else .waitingForRound2Packages pubkeys r1 (r2.insert identifier package) := by
  unfold handleRound2Package
  cases hp : pubkeys.lookup pubkey with
  | none => simp [hp]
  | some identifier =>
    simp only [hp, Option.some.injEq, exists_eq_left']
    by_cases hmem : identifier ∈ r1.keys
    · simp only [hmem, not_true_eq_false, ↓reduceIte, true_and]
      split_ifs <;> simp [eq_comm]
    · simp [hmem]

theorem recv_ok_iff : st.recv decode msg self = (.ok (), st') ↔
    ∃ p, st.payload decode msg.msg = some p ∧ Accepts self msg.sender p st st' := by
  constructor
  · intro h
    unfold recv at h
    split at h
    · next pubkeys r1 =>
      split at h
      · cases h
      · next package hd =>
        obtain ⟨identifier, hp, rfl⟩ := handleRound1Package_ok_iff.mp h
        exact ⟨_, by rw [payload, hd]; rfl, .round1 pubkeys r1 identifier package hp⟩
    · next pubkeys r1 broadcasted =>
      split at h
      · cases h
      · next original package hd =>
        obtain ⟨sender, hp, hvalue, hself, hne, hr1, hheard, rfl⟩ :=
          handleRound1PackageBroadcast_ok_iff.mp h
        exact ⟨_, by rw [payload, hd]; rfl,
          .broadcast pubkeys r1 broadcasted sender original package hp hvalue hself hne hr1 hheard⟩
    · next pubkeys r1 r2 =>
      split at h
      · cases h
      · next package hd =>
        obtain ⟨identifier, hp, hmem, rfl⟩ := handleRound2Package_ok_iff.mp h
        exact ⟨_, by rw [payload, hd]; rfl, .round2 pubkeys r1 r2 identifier package hp hmem⟩
    · cases h
  · rintro ⟨p, hp, h⟩
    cases h with
    | round1 pubkeys r1 identifier package hid =>
      obtain ⟨_, hd, heq⟩ := Option.map_eq_some_iff.mp hp
      obtain rfl := Payload.round1.inj heq
      simp only [recv, hd]
      exact handleRound1Package_ok_iff.mpr ⟨identifier, hid, rfl⟩
    | broadcast pubkeys r1 broadcasted sender original package hid hvalue hself hne hr1 hheard =>
      obtain ⟨⟨_, _⟩, hd, heq⟩ := Option.map_eq_some_iff.mp hp
      obtain ⟨rfl, rfl⟩ := Payload.broadcast.inj heq
      simp only [recv, hd]
      exact handleRound1PackageBroadcast_ok_iff.mpr
        ⟨sender, hid, hvalue, hself, hne, hr1, hheard, rfl⟩
    | round2 pubkeys r1 r2 identifier package hid hmem =>
      obtain ⟨_, hd, heq⟩ := Option.map_eq_some_iff.mp hp
      obtain rfl := Payload.round2.inj heq
      simp only [recv, hd]
      exact handleRound2Package_ok_iff.mpr ⟨identifier, hid, hmem, rfl⟩

theorem recv_ne_panic (message : String) : (st.recv decode msg self).1 ≠ .panic message := by
  unfold recv
  split
  · split
    · simp
    · simp only [handleRound1Package]
      repeat' split
      all_goals simp
  · split
    · simp
    · simp only [handleRound1PackageBroadcast]
      repeat' split
      all_goals simp
  · split
    · simp
    · simp only [handleRound2Package]
      repeat' split
      all_goals simp
  · simp

theorem handleRound1PackageBroadcast_of_ne_ok {pubkeys : Map PublicKey I} {r1 : Map I R1}
    {broadcasted : Map I (Map I R1)} {pubkey : PublicKey} {original : I} {package : R1}
    (hst : st = .waitingForRound1PackagesBroadcast pubkeys r1 broadcasted)
    (h : (st.handleRound1PackageBroadcast pubkey self original package).1 ≠ .ok ()) :
    (st.handleRound1PackageBroadcast pubkey self original package).2 = st ∨
      ∃ sender, r1.lookup original = some package ∧ heard broadcasted original sender ≠ none ∧
        (st.handleRound1PackageBroadcast pubkey self original package).2 =
          .waitingForRound1PackagesBroadcast pubkeys r1
            (insertBroadcast broadcasted original sender package) := by
  subst hst
  unfold handleRound1PackageBroadcast at h ⊢
  cases hp : pubkeys.lookup pubkey with
  | none => simp [hp]
  | some sender =>
    simp only [hp] at h ⊢
    by_cases hvalue : ¬pubkeys.HasValue original
    · rw [if_pos hvalue]
      exact .inl rfl
    by_cases hself : original = self
    · rw [if_neg hvalue, if_pos hself]
      exact .inl rfl
    by_cases hsender : original = sender
    · rw [if_neg hvalue, if_neg hself, if_pos hsender]
      exact .inl rfl
    rw [if_neg hvalue, if_neg hself, if_neg hsender] at h ⊢
    cases hr1 : r1.lookup original with
    | none => exact .inl rfl
    | some stored =>
      simp only [hr1] at h ⊢
      by_cases hne : stored ≠ package
      · rw [if_pos hne]
        exact .inl rfl
      rw [if_neg hne] at h ⊢
      by_cases hbefore : (heard broadcasted original sender).isSome = true
      · rw [if_pos hbefore]
        refine .inr ⟨sender, ?_, Option.isSome_iff_ne_none.mp hbefore, rfl⟩
        rw [not_not.mp hne]
      · rw [if_neg hbefore] at h
        split_ifs at h <;> exact absurd rfl h

/-- A call of `recv` that fails changes nothing, or rewrites an echo that was stored. -/
theorem recv_of_ne_ok (h : (st.recv decode msg self).1 ≠ .ok ()) :
    (st.recv decode msg self).2 = st ∨
      ∃ pubkeys r1 broadcasted sender original package,
        st = .waitingForRound1PackagesBroadcast pubkeys r1 broadcasted ∧
        r1.lookup original = some package ∧ heard broadcasted original sender ≠ none ∧
        (st.recv decode msg self).2 = .waitingForRound1PackagesBroadcast pubkeys r1
          (insertBroadcast broadcasted original sender package) := by
  cases st with
  | waitingForRound1Packages pubkeys r1 =>
    refine .inl ?_
    simp only [recv, handleRound1Package] at h ⊢
    split at h
    · rfl
    · split at h
      · rfl
      · split_ifs at h <;> exact absurd rfl h
  | waitingForRound1PackagesBroadcast pubkeys r1 broadcasted =>
    rw [recv] at h ⊢
    split at h
    · exact .inl rfl
    · next original package _ =>
      obtain heq | ⟨sender, hr1, hheard, heq⟩ := handleRound1PackageBroadcast_of_ne_ok rfl h
      · exact .inl heq
      · exact .inr ⟨pubkeys, r1, broadcasted, sender, original, package, rfl, hr1, hheard, heq⟩
  | waitingForRound2Packages pubkeys r1 r2 =>
    refine .inl ?_
    simp only [recv, handleRound2Package] at h ⊢
    split at h
    · rfl
    · split at h
      · rfl
      · split_ifs at h ⊢ <;> first | rfl | exact absurd rfl h
  | round2PackagesReady _ _ => exact .inl rfl

inductive Reaches (self : I) (pubkeys : Map PublicKey I) :
    List (PublicKey × Payload I R1 R2) → DKGSessionState I R1 R2 → Prop
  | new : Reaches self pubkeys [] (new pubkeys)
  | snoc {l : List (PublicKey × Payload I R1 R2)} {st st' : DKGSessionState I R1 R2}
    {pubkey : PublicKey} {p : Payload I R1 R2} :
    Reaches self pubkeys l st → Accepts self pubkey p st st' →
    Reaches self pubkeys (l ++ [(pubkey, p)]) st'

end DKGSessionState
end FrostTools.Session
