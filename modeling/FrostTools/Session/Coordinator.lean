import FrostTools.Api
import FrostTools.Lib.FiniteMap
import FrostTools.Lib.Outcome

/-!
# The coordinator's session state

Identifiers, commitments and signature shares are those of any ciphersuite.
Payloads are decoded by parameters, which say which bytes are a list of
commitments or of shares.
-/

namespace FrostTools.Session

inductive Error where
  | malformed
  | eyre (text : String)
  deriving DecidableEq, Repr

structure CoordinatorSessionStateArgs where
  numMessages : ℕ
  numSigners : ℕ
  deriving DecidableEq

/-- `I`, `C` and `S` are the identifiers, commitments and signature shares. -/
inductive CoordinatorSessionState (I C S : Type*) where
  | waitingForCommitments (args : CoordinatorSessionStateArgs) (commitments : Map I (List C))
      (pubkeys : Map PublicKey I)
  | waitingForSignatureShares (args : CoordinatorSessionStateArgs) (commitments : Map I (List C))
      (pubkeys : Map PublicKey I) (signatureShares : Map I (List S))
  | signatureSharesReady (args : CoordinatorSessionStateArgs) (signatureShares : Map I (List S))

/-- `serde_json::from_slice` at the two payload types. -/
structure CoordinatorDecoder (C S : Type*) where
  commitments : Bytes → Option (List C)
  signatureShares : Bytes → Option (List S)

/-- Turns a map of lists into a list of maps; the indexing panics on a short list. -/
def transpose {I V : Type*} [DecidableEq I] (n : ℕ) (m : Map I (List V)) :
    Outcome Error (List (Map I V)) :=
  match (List.range n).mapM fun i => m.traverse fun l => l[i]? with
  | some maps => .ok maps
  | none => .panic "index out of bounds"

namespace CoordinatorSessionState

variable {I C S : Type*} [DecidableEq I]

def new (numMessages numSigners : ℕ) (pubkeys : Map PublicKey I) : CoordinatorSessionState I C S :=
  .waitingForCommitments { numMessages, numSigners } ∅ pubkeys

def handleCommitments (st : CoordinatorSessionState I C S) (pubkey : PublicKey)
    (commitments : List C) : Outcome Error Unit × CoordinatorSessionState I C S :=
  match st with
  | .waitingForCommitments args commitmentsMap pubkeys =>
    if commitments.length ≠ args.numMessages then
      (.err (.eyre "wrong number of commitments"), st)
    else
      match pubkeys.lookup pubkey with
      | none => (.err (.eyre "unknown participant"), st)
      | some identifier =>
        let commitmentsMap := commitmentsMap.insert identifier commitments
        if commitmentsMap.len = args.numSigners then
          (.ok (), .waitingForSignatureShares args commitmentsMap pubkeys ∅)
        else (.ok (), .waitingForCommitments args commitmentsMap pubkeys)
  | _ => (.panic "wrong state", st)

def handleSignatureShare (st : CoordinatorSessionState I C S) (pubkey : PublicKey)
    (signatureShares : List S) : Outcome Error Unit × CoordinatorSessionState I C S :=
  match st with
  | .waitingForSignatureShares args commitments pubkeys signatureSharesMap =>
    if signatureShares.length ≠ args.numMessages then
      (.err (.eyre "wrong number of signature shares"), st)
    else
      match pubkeys.lookup pubkey with
      | none => (.err (.eyre "unknown participant"), st)
      | some identifier =>
        if identifier ∉ commitments.keys then (.err (.eyre "invalid identifier"), st)
        else
          let signatureSharesMap := signatureSharesMap.insert identifier signatureShares
          if signatureSharesMap.keys = commitments.keys then
            (.ok (), .signatureSharesReady args signatureSharesMap)
          else (.ok (), .waitingForSignatureShares args commitments pubkeys signatureSharesMap)
  | _ => (.panic "wrong state", st)

def recv (decode : CoordinatorDecoder C S) (st : CoordinatorSessionState I C S) (msg : Msg) :
    Outcome Error Unit × CoordinatorSessionState I C S :=
  match st with
  | .waitingForCommitments .. =>
    match decode.commitments msg.msg with
    | none => (.err .malformed, st)
    | some commitments => st.handleCommitments msg.sender commitments
  | .waitingForSignatureShares .. =>
    match decode.signatureShares msg.msg with
    | none => (.err .malformed, st)
    | some signatureShares => st.handleSignatureShare msg.sender signatureShares
  | .signatureSharesReady .. => (.err (.eyre "received message during wrong state"), st)

def hasCommitments : CoordinatorSessionState I C S → Bool
  | .waitingForSignatureShares .. => true
  | _ => false

def commitments : CoordinatorSessionState I C S →
    Outcome Error (List (Map I C) × Map PublicKey I)
  | .waitingForSignatureShares args commitments pubkeys _ =>
    (transpose args.numMessages commitments).bind fun maps => .ok (maps, pubkeys)
  | _ => .panic "wrong state"

def hasSignatureShares : CoordinatorSessionState I C S → Bool
  | .signatureSharesReady .. => true
  | _ => false

def signatureShares : CoordinatorSessionState I C S → Outcome Error (List (Map I S))
  | .signatureSharesReady args signatureShares => transpose args.numMessages signatureShares
  | _ => .panic "wrong state"

def phase : CoordinatorSessionState I C S → ℕ
  | .waitingForCommitments .. => 0
  | .waitingForSignatureShares .. => 1
  | .signatureSharesReady .. => 2

def args : CoordinatorSessionState I C S → CoordinatorSessionStateArgs
  | .waitingForCommitments args .. => args
  | .waitingForSignatureShares args .. => args
  | .signatureSharesReady args .. => args

/-- The lists accepted so far, oldest first, with the identifiers they came from. -/
structure Accepted (I C S : Type*) where
  commitments : List (I × List C)
  signatureShares : List (I × List S)

def record (decode : CoordinatorDecoder C S) (st : CoordinatorSessionState I C S) (msg : Msg)
    (result : Outcome Error Unit) (log : Accepted I C S) : Accepted I C S :=
  match result, st with
  | .ok (), .waitingForCommitments _ _ pubkeys =>
    match pubkeys.lookup msg.sender, decode.commitments msg.msg with
    | some identifier, some commitments =>
      { log with commitments := log.commitments ++ [(identifier, commitments)] }
    | _, _ => log
  | .ok (), .waitingForSignatureShares _ _ pubkeys _ =>
    match pubkeys.lookup msg.sender, decode.signatureShares msg.msg with
    | some identifier, some signatureShares =>
      { log with signatureShares := log.signatureShares ++ [(identifier, signatureShares)] }
    | _, _ => log
  | _, _ => log

def recvAll (decode : CoordinatorDecoder C S) :
    CoordinatorSessionState I C S × Accepted I C S → List Msg →
      CoordinatorSessionState I C S × Accepted I C S :=
  List.foldl fun (st, log) msg =>
    ((st.recv decode msg).2, record decode st msg (st.recv decode msg).1 log)

inductive Recv (decode : CoordinatorDecoder C S) (msg : Msg) :
    CoordinatorSessionState I C S → Outcome Error Unit → CoordinatorSessionState I C S → Prop
  | rejected (st : CoordinatorSessionState I C S) (e : Error) : Recv decode msg st (.err e) st
  | commitments (args : CoordinatorSessionStateArgs) (m : Map I (List C))
    (pubkeys : Map PublicKey I) (identifier : I) (l : List C) :
    decode.commitments msg.msg = some l → l.length = args.numMessages →
    pubkeys.lookup msg.sender = some identifier →
    Recv decode msg (.waitingForCommitments args m pubkeys) (.ok ())
      (if (m.insert identifier l).len = args.numSigners then
        .waitingForSignatureShares args (m.insert identifier l) pubkeys ∅
      else .waitingForCommitments args (m.insert identifier l) pubkeys)
  | signatureShares (args : CoordinatorSessionStateArgs) (commitments : Map I (List C))
    (pubkeys : Map PublicKey I) (m : Map I (List S)) (identifier : I) (l : List S) :
    decode.signatureShares msg.msg = some l → l.length = args.numMessages →
    pubkeys.lookup msg.sender = some identifier → identifier ∈ commitments.keys →
    Recv decode msg (.waitingForSignatureShares args commitments pubkeys m) (.ok ())
      (if (m.insert identifier l).keys = commitments.keys then
        .signatureSharesReady args (m.insert identifier l)
      else .waitingForSignatureShares args commitments pubkeys (m.insert identifier l))

variable {decode : CoordinatorDecoder C S} {msg : Msg} {st st' : CoordinatorSessionState I C S}
  {result : Outcome Error Unit} {log : Accepted I C S} {args : CoordinatorSessionStateArgs}
  {pubkeys : Map PublicKey I}

theorem recv_spec (decode : CoordinatorDecoder C S) (msg : Msg)
    (st : CoordinatorSessionState I C S) :
    Recv decode msg st (st.recv decode msg).1 (st.recv decode msg).2 := by
  cases st with
  | waitingForCommitments args m pubkeys =>
    unfold recv
    cases hd : decode.commitments msg.msg with
    | none => exact .rejected _ _
    | some l =>
      dsimp only [handleCommitments]
      split_ifs with hlen
      · exact .rejected _ _
      · cases hp : pubkeys.lookup msg.sender with
        | none => exact .rejected _ _
        | some identifier =>
          have h := Recv.commitments (S := S) args m pubkeys identifier l hd (not_not.mp hlen) hp
          dsimp only
          split_ifs at h ⊢ <;> exact h
  | waitingForSignatureShares args commitments pubkeys m =>
    unfold recv
    cases hd : decode.signatureShares msg.msg with
    | none => exact .rejected _ _
    | some l =>
      dsimp only [handleSignatureShare]
      split_ifs with hlen
      · exact .rejected _ _
      · cases hp : pubkeys.lookup msg.sender with
        | none => exact .rejected _ _
        | some identifier =>
          by_cases hc : identifier ∈ commitments.keys
          · have h := Recv.signatureShares args commitments pubkeys m identifier l hd
              (not_not.mp hlen) hp hc
            simp only [hc, not_true_eq_false, ↓reduceIte]
            split_ifs at h ⊢ <;> exact h
          · simp only [hc, not_false_eq_true, ↓reduceIte]
            exact .rejected _ _
  | signatureSharesReady args m => exact .rejected _ _

theorem Recv.phase_le (h : Recv decode msg st result st') : st.phase ≤ st'.phase := by
  cases h with
  | rejected _ _ => exact le_rfl
  | commitments _ _ _ _ _ _ _ _ => exact Nat.zero_le _
  | signatureShares _ _ _ _ _ _ _ _ _ _ =>
    split_ifs
    · exact Nat.le_succ 1
    · exact le_rfl

theorem Recv.args_eq (h : Recv decode msg st result st') : st'.args = st.args := by
  cases h with
  | rejected _ _ => rfl
  | commitments _ _ _ _ _ _ _ _ => split_ifs <;> rfl
  | signatureShares _ _ _ _ _ _ _ _ _ _ => split_ifs <;> rfl

def identifiers {V : Type*} (l : List (I × V)) : Finset I := (l.map Prod.fst).toFinset

def lastFrom {V : Type*} (l : List (I × V)) (identifier : I) : Option V :=
  ((l.filter fun p => p.1 = identifier).getLast?).map Prod.snd

def FromParticipants {V : Type*} (n : ℕ) (pubkeys : Map PublicKey I) (l : List (I × List V)) : Prop :=
  ∀ p ∈ l, p.2.length = n ∧ ∃ pubkey, pubkeys.lookup pubkey = some p.1

/-- The maps of a state hold the last list accepted from each identifier, and the
phase is the one that the identifiers call for. -/
inductive Represents (args : CoordinatorSessionStateArgs) (pubkeys : Map PublicKey I)
    (log : Accepted I C S) : CoordinatorSessionState I C S → Prop
  | waitingForCommitments :
    (Map.ofList log.commitments).len < args.numSigners → log.signatureShares = [] →
    Represents args pubkeys log
      (.waitingForCommitments args (Map.ofList log.commitments) pubkeys)
  | waitingForSignatureShares :
    (Map.ofList log.commitments).len = args.numSigners →
    (Map.ofList log.signatureShares).keys ≠ (Map.ofList log.commitments).keys →
    Represents args pubkeys log
      (.waitingForSignatureShares args (Map.ofList log.commitments) pubkeys
        (Map.ofList log.signatureShares))
  | signatureSharesReady :
    (Map.ofList log.commitments).len = args.numSigners →
    (Map.ofList log.signatureShares).keys = (Map.ofList log.commitments).keys →
    Represents args pubkeys log (.signatureSharesReady args (Map.ofList log.signatureShares))

theorem Recv.represents (h : Recv decode msg st result st')
    (hst : Represents args pubkeys log st) :
    Represents args pubkeys (record decode st msg result log) st' := by
  cases h with
  | rejected _ _ => exact hst
  | commitments _ _ _ identifier l hd _ hp =>
    cases hst with
    | waitingForCommitments hlt hshares =>
      rw [← Map.ofList_append_singleton log.commitments (identifier, l)]
      have hrecord : record decode (.waitingForCommitments args (Map.ofList log.commitments)
          pubkeys) msg (.ok ()) log =
          { log with commitments := log.commitments ++ [(identifier, l)] } := by
        simp only [record, hp, hd]
      have hle := Map.len_insert_le (Map.ofList log.commitments) identifier l
      have hne := Map.len_insert_pos (Map.ofList log.commitments) identifier l
      rw [← Map.ofList_append_singleton log.commitments (identifier, l)] at hle hne
      rw [hrecord]
      -- the lists are complete, or the phase goes on
      split_ifs with heq
      · have hnil : Map.ofList log.signatureShares = ∅ := by
          rw [hshares]
          rfl
        rw [← hnil]
        refine .waitingForSignatureShares heq fun hkeys => ?_
        have hzero : (Map.ofList (log.commitments ++ [(identifier, l)])).len = 0 := by
          dsimp only at hkeys
          rw [Map.len, ← hkeys, hnil, Map.keys_empty, Finset.card_empty]
        omega
      · exact .waitingForCommitments (by dsimp only; omega) hshares
  | signatureShares _ _ _ _ identifier l hd _ hp _ =>
    cases hst with
    | waitingForSignatureShares hlen hne =>
      rw [← Map.ofList_append_singleton log.signatureShares (identifier, l)]
      have hrecord : record decode (.waitingForSignatureShares args (Map.ofList log.commitments)
          pubkeys (Map.ofList log.signatureShares)) msg (.ok ()) log =
          { log with signatureShares := log.signatureShares ++ [(identifier, l)] } := by
        simp only [record, hp, hd]
      rw [hrecord]
      split_ifs with heq
      · exact .signatureSharesReady hlen heq
      · exact .waitingForSignatureShares hlen heq

theorem Recv.fromParticipants (h : Recv decode msg st result st')
    (hst : Represents args pubkeys log st)
    (hc : FromParticipants args.numMessages pubkeys log.commitments)
    (hs : FromParticipants args.numMessages pubkeys log.signatureShares) :
    FromParticipants args.numMessages pubkeys (record decode st msg result log).commitments ∧
      FromParticipants args.numMessages pubkeys
        (record decode st msg result log).signatureShares := by
  cases h with
  | rejected _ _ => exact ⟨hc, hs⟩
  | commitments _ _ _ identifier l hd hlen hp =>
    cases hst with
    | waitingForCommitments _ _ =>
      simp only [record, hp, hd]
      refine ⟨fun p hmem => ?_, hs⟩
      obtain hmem | hmem := List.mem_append.mp hmem
      · exact hc p hmem
      · obtain rfl := List.mem_singleton.mp hmem
        exact ⟨hlen, msg.sender, hp⟩
  | signatureShares _ _ _ _ identifier l hd hlen hp _ =>
    cases hst with
    | waitingForSignatureShares _ _ =>
      simp only [record, hp, hd]
      refine ⟨hc, fun p hmem => ?_⟩
      obtain hmem | hmem := List.mem_append.mp hmem
      · exact hs p hmem
      · obtain rfl := List.mem_singleton.mp hmem
        exact ⟨hlen, msg.sender, hp⟩

def session (decode : CoordinatorDecoder C S) (args : CoordinatorSessionStateArgs)
    (pubkeys : Map PublicKey I) (msgs : List Msg) :
    CoordinatorSessionState I C S × Accepted I C S :=
  recvAll decode (new args.numMessages args.numSigners pubkeys, ⟨[], []⟩) msgs

theorem recvAll_append (decode : CoordinatorDecoder C S)
    (s : CoordinatorSessionState I C S × Accepted I C S) (msgs more : List Msg) :
    recvAll decode s (msgs ++ more) = recvAll decode (recvAll decode s msgs) more :=
  List.foldl_append

theorem session_represents (decode : CoordinatorDecoder C S) (args : CoordinatorSessionStateArgs)
    (hpos : 1 ≤ args.numSigners) (pubkeys : Map PublicKey I) (msgs : List Msg) :
    let s := session decode args pubkeys msgs
    Represents args pubkeys s.2 s.1 ∧
      FromParticipants args.numMessages pubkeys s.2.commitments ∧
      FromParticipants args.numMessages pubkeys s.2.signatureShares := by
  induction msgs using List.reverseRecOn with
  | nil => exact ⟨.waitingForCommitments hpos rfl, nofun, nofun⟩
  | append_singleton msgs msg ih =>
    obtain ⟨hst, hc, hs⟩ := ih
    rw [session, recvAll_append]
    have hrecv := recv_spec decode msg (session decode args pubkeys msgs).1
    exact ⟨hrecv.represents hst, hrecv.fromParticipants hst hc hs⟩

theorem phase_le_recvAll (decode : CoordinatorDecoder C S)
    (s : CoordinatorSessionState I C S × Accepted I C S) (more : List Msg) :
    s.1.phase ≤ (recvAll decode s more).1.phase := by
  induction more generalizing s with
  | nil => exact le_rfl
  | cons msg more ih =>
    have hrest := ih ((s.1.recv decode msg).2, record decode s.1 msg (s.1.recv decode msg).1 s.2)
    exact (recv_spec decode msg s.1).phase_le.trans hrest

omit [DecidableEq I] in
/-- Once the commitments are complete, no further list of commitments is accepted. -/
theorem record_commitments (h : st.phase ≠ 0) :
    (record decode st msg result log).commitments = log.commitments := by
  cases st with
  | waitingForCommitments _ _ _ => exact absurd rfl h
  | _ =>
    unfold record
    split
    · next heq => cases heq
    · split <;> rfl
    · rfl

theorem commitments_recvAll (decode : CoordinatorDecoder C S)
    (s : CoordinatorSessionState I C S × Accepted I C S) (h : s.1.phase ≠ 0) (more : List Msg) :
    (recvAll decode s more).2.commitments = s.2.commitments := by
  induction more generalizing s with
  | nil => rfl
  | cons msg more ih =>
    have hle := (recv_spec decode msg s.1).phase_le
    exact (ih _ (by dsimp only; omega)).trans (record_commitments h)

theorem mapM_eq_some_map {α β : Type*} {f : α → Option β} {g : α → β} {l : List α}
    (h : ∀ a ∈ l, f a = some (g a)) : l.mapM f = some (l.map g) := by
  induction l with
  | nil => rfl
  | cons a l ih =>
    rw [List.mapM_cons, h a List.mem_cons_self, ih fun b hb => h b (List.mem_cons_of_mem a hb)]
    rfl

theorem length_of_mapM_eq_some {α β : Type*} {f : α → Option β} {l : List α} {l' : List β}
    (h : l.mapM f = some l') : l'.length = l.length := by
  induction l generalizing l' with
  | nil =>
    obtain rfl := Option.some.inj h
    rfl
  | cons a l ih =>
    rw [List.mapM_cons] at h
    obtain ⟨b, -, h⟩ := Option.bind_eq_some_iff.mp h
    obtain ⟨bs, hbs, h⟩ := Option.bind_eq_some_iff.mp h
    obtain rfl := Option.some.inj h
    rw [List.length_cons, List.length_cons, ih hbs]

theorem length_of_transpose {V : Type*} {n : ℕ} {m : Map I (List V)} {maps : List (Map I V)}
    (h : transpose n m = .ok maps) : maps.length = n := by
  unfold transpose at h
  split at h
  · next hmaps =>
    rw [← Outcome.ok.inj h, length_of_mapM_eq_some hmaps, List.length_range]
  · cases h

theorem length_of_commitments {maps : List (Map I C)}
    (h : st.commitments = .ok (maps, pubkeys)) : maps.length = st.args.numMessages := by
  cases st with
  | waitingForSignatureShares args m pubkeys' _ =>
    obtain ⟨maps', hmaps, heq⟩ := Outcome.bind_eq_ok_iff.mp h
    obtain ⟨rfl, -⟩ := Prod.mk.inj (Outcome.ok.inj heq)
    exact length_of_transpose hmaps
  | waitingForCommitments _ _ _ => cases h
  | signatureSharesReady _ _ => cases h

theorem length_of_signatureShares {maps : List (Map I S)}
    (h : st.signatureShares = .ok maps) : maps.length = st.args.numMessages := by
  cases st with
  | signatureSharesReady args m => exact length_of_transpose h
  | waitingForCommitments _ _ _ => cases h
  | waitingForSignatureShares _ _ _ _ => cases h

theorem transpose_ok {V : Type*} {n : ℕ} {m : Map I (List V)}
    (h : ∀ identifier l, m.lookup identifier = some l → l.length = n) :
    ∃ maps, transpose n m = .ok maps ∧ maps.length = n ∧
      ∀ i < n, ∃ mi, maps[i]? = some mi ∧ mi.keys = m.keys ∧
        ∀ identifier, mi.lookup identifier = (m.lookup identifier).bind fun l => l[i]? := by
  have hsome : ∀ i < n, ∀ identifier l, m.lookup identifier = some l → (l[i]?).isSome := by
    intro i hi identifier l hl
    rw [List.getElem?_eq_getElem (by rw [h identifier l hl]; exact hi)]
    rfl
  have hmap : (List.range n).mapM (fun i => m.traverse fun l => l[i]?) =
      some ((List.range n).map fun i => m.filterMap fun l => l[i]?) :=
    mapM_eq_some_map fun i hi => Map.traverse_of_forall (hsome i (List.mem_range.mp hi))
  refine ⟨_, by rw [transpose, hmap], by simp, fun i hi => ?_⟩
  refine ⟨m.filterMap fun l => l[i]?, by simp [hi], ?_, fun identifier => ?_⟩
  · exact Map.keys_filterMap_of_forall (hsome i hi)
  · exact Map.lookup_filterMap _ _ _

/-- The transposition of the last lists accepted from each identifier. -/
theorem transpose_ofList {V : Type*} {n : ℕ} {l : List (I × List V)}
    (h : FromParticipants n pubkeys l) :
    ∃ maps, transpose n (Map.ofList l) = .ok maps ∧ maps.length = n ∧
      ∀ i < n, ∃ mi, maps[i]? = some mi ∧ mi.keys = identifiers l ∧
        ∀ identifier, mi.lookup identifier = (lastFrom l identifier).bind fun last => last[i]? := by
  obtain ⟨maps, hmaps, hlen, hentry⟩ := transpose_ok (m := Map.ofList l) fun identifier c hc =>
    (h _ (Map.mem_of_lookup_ofList hc)).1
  refine ⟨maps, hmaps, hlen, fun i hi => ?_⟩
  obtain ⟨mi, hi, hkeys, hlookup⟩ := hentry i hi
  refine ⟨mi, hi, hkeys.trans (Map.keys_ofList l), fun identifier => ?_⟩
  rw [hlookup, Map.lookup_ofList]
  rfl

/-- What a coordinator can rely on after any sequence of messages. -/
structure Sound (decode : CoordinatorDecoder C S) (args : CoordinatorSessionStateArgs)
    (pubkeys : Map PublicKey I) (msgs : List Msg) (st : CoordinatorSessionState I C S)
    (log : Accepted I C S) : Prop where
  advances : ∀ more, st.phase ≤ (session decode args pubkeys (msgs ++ more)).1.phase
  commitments_accepted : FromParticipants args.numMessages pubkeys log.commitments
  shares_accepted : FromParticipants args.numMessages pubkeys log.signatureShares
  leaves_iff : st.phase ≠ 0 ↔ (identifiers log.commitments).card = args.numSigners
  frozen : st.phase ≠ 0 →
    ∀ more, (session decode args pubkeys (msgs ++ more)).2.commitments = log.commitments
  ready_iff : st.hasSignatureShares = true ↔
    (identifiers log.commitments).card = args.numSigners ∧
      identifiers log.signatureShares = identifiers log.commitments
  commitments : st.hasCommitments = true →
    ∃ maps, st.commitments = .ok (maps, pubkeys) ∧ maps.length = args.numMessages ∧
      ∀ i < args.numMessages, ∃ m, maps[i]? = some m ∧ m.keys = identifiers log.commitments ∧
        ∀ identifier, m.lookup identifier =
          (lastFrom log.commitments identifier).bind fun l => l[i]?
  signatureShares : st.hasSignatureShares = true →
    ∃ maps, st.signatureShares = .ok maps ∧ maps.length = args.numMessages ∧
      ∀ i < args.numMessages, ∃ m, maps[i]? = some m ∧ m.keys = identifiers log.commitments ∧
        ∀ identifier, m.lookup identifier =
          (lastFrom log.signatureShares identifier).bind fun l => l[i]?

theorem card_identifiers {V : Type*} (l : List (I × V)) :
    (identifiers l).card = (Map.ofList l).len := by
  rw [Map.len, Map.keys_ofList, identifiers]

theorem Represents.leaves_iff (h : Represents args pubkeys log st) :
    st.phase ≠ 0 ↔ (identifiers log.commitments).card = args.numSigners := by
  rw [card_identifiers]
  cases h with
  | waitingForCommitments hlt _ => exact iff_of_false (· rfl) hlt.ne
  | waitingForSignatureShares hlen _ => exact iff_of_true nofun hlen
  | signatureSharesReady hlen _ => exact iff_of_true nofun hlen

theorem Represents.ready_iff (h : Represents args pubkeys log st) :
    st.hasSignatureShares = true ↔ (identifiers log.commitments).card = args.numSigners ∧
      identifiers log.signatureShares = identifiers log.commitments := by
  rw [card_identifiers]
  unfold identifiers
  rw [← Map.keys_ofList, ← Map.keys_ofList]
  cases h with
  | waitingForCommitments hlt _ => exact iff_of_false nofun fun h => hlt.ne h.1
  | waitingForSignatureShares _ hne => exact iff_of_false nofun fun h => hne h.2
  | signatureSharesReady hlen hkeys => exact iff_of_true rfl ⟨hlen, hkeys⟩

theorem Represents.commitments_ok (h : Represents args pubkeys log st)
    (hlog : FromParticipants args.numMessages pubkeys log.commitments)
    (hhas : st.hasCommitments = true) :
    ∃ maps, st.commitments = .ok (maps, pubkeys) ∧ maps.length = args.numMessages ∧
      ∀ i < args.numMessages, ∃ m, maps[i]? = some m ∧ m.keys = identifiers log.commitments ∧
        ∀ identifier, m.lookup identifier =
          (lastFrom log.commitments identifier).bind fun l => l[i]? := by
  cases h with
  | waitingForSignatureShares _ _ =>
    obtain ⟨maps, hmaps, hrest⟩ := transpose_ofList hlog
    exact ⟨maps, by rw [commitments, hmaps]; rfl, hrest⟩
  | _ => cases hhas

theorem Represents.signatureShares_ok (h : Represents args pubkeys log st)
    (hlog : FromParticipants args.numMessages pubkeys log.signatureShares)
    (hhas : st.hasSignatureShares = true) :
    ∃ maps, st.signatureShares = .ok maps ∧ maps.length = args.numMessages ∧
      ∀ i < args.numMessages, ∃ m, maps[i]? = some m ∧ m.keys = identifiers log.commitments ∧
        ∀ identifier, m.lookup identifier =
          (lastFrom log.signatureShares identifier).bind fun l => l[i]? := by
  rw [← (h.ready_iff.mp hhas).2]
  cases h with
  | signatureSharesReady _ _ => exact transpose_ofList hlog
  | _ => cases hhas

/-- After any messages, a session with at least one signer is in the phase that the
accepted lists call for, and its accessors return those lists by message. -/
theorem session_sound (decode : CoordinatorDecoder C S) (numMessages numSigners : ℕ)
    (hpos : 1 ≤ numSigners) (pubkeys : Map PublicKey I) (msgs : List Msg) :
    Sound decode ⟨numMessages, numSigners⟩ pubkeys msgs
      (session decode ⟨numMessages, numSigners⟩ pubkeys msgs).1
      (session decode ⟨numMessages, numSigners⟩ pubkeys msgs).2 := by
  obtain ⟨hst, hc, hs⟩ := session_represents decode ⟨numMessages, numSigners⟩ hpos pubkeys msgs
  refine ⟨fun more => ?_, hc, hs, hst.leaves_iff, fun hleft more => ?_, hst.ready_iff,
    hst.commitments_ok hc, hst.signatureShares_ok hs⟩
  · rw [session, session, recvAll_append]
    exact phase_le_recvAll decode _ more
  · rw [session, recvAll_append]
    exact commitments_recvAll decode _ hleft more

/-- Every payload but the empty one is a list of one-byte commitments or shares. -/
def sampleDecoder : CoordinatorDecoder UInt8 UInt8 where
  commitments b := if b = [] then none else some b
  signatureShares b := if b = [] then none else some b

/-- Key 1 sends a malformed message and key 3 is unknown; keys 1 and 2 send one
commitment each, and then one share each. -/
def sampleMessages : List Msg :=
  [⟨⟨[1]⟩, [5]⟩, ⟨⟨[1]⟩, []⟩, ⟨⟨[3]⟩, [6]⟩, ⟨⟨[2]⟩, [7]⟩, ⟨⟨[1]⟩, [8]⟩, ⟨⟨[2]⟩, [9]⟩]

theorem session_sound_sample :
    let pubkeys : Map PublicKey ℕ := Map.ofList [(⟨[1]⟩, 1), (⟨[2]⟩, 2)]
    let s := session sampleDecoder ⟨1, 2⟩ pubkeys sampleMessages
    s.1.hasSignatureShares = true ∧ Sound sampleDecoder ⟨1, 2⟩ pubkeys sampleMessages s.1 s.2 :=
  ⟨by decide, session_sound sampleDecoder 1 2 (by decide) _ sampleMessages⟩

end CoordinatorSessionState
end FrostTools.Session
