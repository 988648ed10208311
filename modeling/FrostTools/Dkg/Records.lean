import FrostTools.Dkg.Steps
import FrostTools.Session.Broadcast

/-!
# What a participant knows of itself

The state of a participant is the one that its accepted payloads lead to, and
everything it encrypts is its own package, or a package from a state it passed.
Nothing is assumed of the other participants or of the server.
-/

namespace FrostTools.Dkg
open Client Session Frostd

variable {S : Snow} {I R1 R2 : Type*} [LinearOrder I] [DecidableEq R1] {D : Setup I R1 R2}
  {self : PublicKey} {order : List PublicKey}

omit [LinearOrder I] [DecidableEq R1] in
theorem Codec.Lawful.payload_encode {codec : Codec I R1 R2} (h : codec.Lawful)
    {st : DKGSessionState I R1 R2} {p q : Payload I R1 R2}
    (hp : st.payload codec.decode (codec.encode p) = some q) : q = p := by
  cases st with
  | waitingForRound1Packages _ _ =>
    rw [DKGSessionState.payload, h.round1] at hp
    cases p <;> cases hp
    rfl
  | waitingForRound1PackagesBroadcast _ _ _ =>
    rw [DKGSessionState.payload, h.broadcast] at hp
    cases p <;> cases hp
    rfl
  | waitingForRound2Packages _ _ _ =>
    rw [DKGSessionState.payload, h.round2] at hp
    cases p <;> cases hp
    rfl
  | round2PackagesReady _ _ => cases hp

def Passed (D : Setup I R1 R2) (self : PublicKey) (accepted : List (PublicKey × Payload I R1 R2))
    (st : DKGSessionState I R1 R2) : Prop :=
  ∃ l, l <+: accepted ∧ DKGSessionState.Reaches (D.identifier self) D.pubkeys l st

theorem Passed.mono {accepted accepted' : List (PublicKey × Payload I R1 R2)}
    {st : DKGSessionState I R1 R2} (h : Passed D self accepted st) (hle : accepted <+: accepted') :
    Passed D self accepted' st := by
  obtain ⟨l, hl, hr⟩ := h
  exact ⟨l, hl.trans hle, hr⟩

/-- All states that a participant passed with complete first-round packages have the
same packages. -/
theorem Passed.frozen {accepted : List (PublicKey × Payload I R1 R2)}
    {st st' : DKGSessionState I R1 R2} {r1 r1' : Map I R1} (h : Passed D self accepted st)
    (h' : Passed D self accepted st') (hr : st.round1Packages = .ok r1)
    (hr' : st'.round1Packages = .ok r1') : r1 = r1' := by
  obtain ⟨l, hl, hst⟩ := h
  obtain ⟨l', hl', hst'⟩ := h'
  obtain hle | hle := List.prefix_or_prefix_of_prefix hl hl'
  · obtain ⟨t, rfl⟩ := hle
    exact hst.frozen hr hst' hr'
  · obtain ⟨t, rfl⟩ := hle
    exact (hst'.frozen hr' hst hr).symm

/-- The first-round packages that a participant used: those of the state that waits
for the second round. -/
def HTTPComms.Used (D : Setup I R1 R2) (self : PublicKey) (c : HTTPComms S I R1 R2)
    (r1 : Map I R1) : Prop :=
  ∃ r2, Passed D self c.accepted (.waitingForRound2Packages D.pubkeys r1 r2)

theorem HTTPComms.Used.unique {c : HTTPComms S I R1 R2} {r1 r1' : Map I R1} (h : c.Used D self r1)
    (h' : c.Used D self r1') : r1 = r1' := by
  obtain ⟨_, h⟩ := h
  obtain ⟨_, h'⟩ := h'
  exact h.frozen h' rfl rfl

def Vouched (D : Setup I R1 R2) (self : PublicKey) (accepted : List (PublicKey × Payload I R1 R2))
    (recipient : PublicKey) : Payload I R1 R2 → Prop
  | .round1 package => package = D.round1Package self
  | .broadcast original package => original ≠ D.identifier recipient ∧
      ∃ st r1, Passed D self accepted st ∧ st.round1Packages = .ok r1 ∧
        r1.lookup original = some package
  | .round2 _ => True

def Sendable (D : Setup I R1 R2) (self : PublicKey) (accepted : List (PublicKey × Payload I R1 R2))
    (recipient : PublicKey) (payload : Payload I R1 R2) : Prop :=
  recipient ∈ D.members ∧ recipient ≠ self ∧ Vouched D self accepted recipient payload

theorem Sendable.mono {accepted accepted' : List (PublicKey × Payload I R1 R2)}
    {recipient : PublicKey} {payload : Payload I R1 R2}
    (h : Sendable D self accepted recipient payload) (hle : accepted <+: accepted') :
    Sendable D self accepted' recipient payload := by
  refine ⟨h.1, h.2.1, ?_⟩
  cases payload with
  | round1 package => exact h.2.2
  | broadcast original package =>
    obtain ⟨hne, st, r1, hst, hr, hp⟩ := h.2.2
    exact ⟨hne, st, r1, hst.mono hle, hr, hp⟩
  | round2 package => trivial

def Decoded (D : Setup I R1 R2) (c : HTTPComms S I R1 R2) : Prop :=
  ∀ e ∈ c.accepted, ∃ (st : DKGSessionState I R1 R2) (b : Bytes),
    ⟨e.1, b⟩ ∈ c.decrypted ∧ st.payload D.codec.decode b = some e.2

structure Recorded (D : Setup I R1 R2) (pubkey : PublicKey) (c : HTTPComms S I R1 R2) : Prop where
  decoded : Decoded D c
  reaches : ∃ st, DKGSessionState.Reaches (D.identifier pubkey) D.pubkeys c.accepted st
  current : ¬HTTPComms.Dead c.phase →
    DKGSessionState.Reaches (D.identifier pubkey) D.pubkeys c.accepted c.state
  produced : ∀ e ∈ c.produced, Sendable D pubkey c.accepted e.1 e.2
  todo : ∀ stage todo, c.phase = .exchange stage todo →
    ∀ e ∈ todo, ∀ p, e.2 = some p → Sendable D pubkey c.accepted e.1 p

omit [LinearOrder I] [DecidableEq R1] in
theorem mem_recipientsFor (horder : D.Iterates order) {pubkey : PublicKey} :
    pubkey ∈ recipientsFor self order ↔ pubkey ∈ D.members ∧ pubkey ≠ self := by
  rw [recipientsFor, List.mem_filter, horder.mem_iff, decide_eq_true_iff]

theorem sendable_round1Todo (horder : D.Iterates order)
    (accepted : List (PublicKey × Payload I R1 R2)) :
    ∀ e ∈ round1Todo D self order, ∀ p, e.2 = some p → Sendable D self accepted e.1 p := by
  intro e he p hp
  obtain ⟨pubkey, hmem, rfl⟩ := List.mem_map.mp he
  obtain rfl := Option.some.inj hp
  obtain ⟨hm, hne⟩ := (mem_recipientsFor horder).mp hmem
  exact ⟨hm, hne, rfl⟩

omit [DecidableEq R1] in
theorem mem_broadcastTodo (horder : D.Iterates order) {r1 : Map I R1}
    {e : PublicKey × Option (Payload I R1 R2)} :
    e ∈ broadcastTodo D self order r1 ↔ ∃ original package, e.2 = some (.broadcast original package) ∧
      e.1 ∈ D.members ∧ e.1 ≠ self ∧ r1.lookup original = some package ∧
      original ≠ D.identifier e.1 := by
  simp only [broadcastTodo, List.mem_flatMap, mem_recipientsFor horder, List.mem_map,
    List.mem_filter, decide_eq_true_eq, Prod.exists, Map.mem_toSortedList]
  constructor
  · rintro ⟨pubkey, ⟨hm, hne⟩, original, package, ⟨hp, ho⟩, rfl⟩
    exact ⟨original, package, rfl, hm, hne, hp, ho⟩
  · rintro ⟨original, package, hp, hm, hne, hr1, ho⟩
    exact ⟨e.1, ⟨hm, hne⟩, original, package, ⟨hr1, ho⟩, Prod.ext rfl hp.symm⟩

theorem sendable_broadcastTodo (horder : D.Iterates order)
    {accepted : List (PublicKey × Payload I R1 R2)} {st : DKGSessionState I R1 R2} {r1 : Map I R1}
    (hst : Passed D self accepted st) (hr : st.round1Packages = .ok r1) :
    ∀ e ∈ broadcastTodo D self order r1, ∀ p, e.2 = some p → Sendable D self accepted e.1 p := by
  intro e he p hp
  obtain ⟨original, package, hb, hm, hne, hr1, ho⟩ := (mem_broadcastTodo horder).mp he
  obtain rfl := Option.some.inj (hp.symm.trans hb)
  exact ⟨hm, hne, ho, st, r1, hst, hr, hr1⟩

theorem sendable_round2Todo (horder : D.Iterates order)
    (accepted : List (PublicKey × Payload I R1 R2)) (r2 : Map I R2) :
    ∀ e ∈ round2Todo D self order r2, ∀ p, e.2 = some p → Sendable D self accepted e.1 p := by
  intro e he p hp
  obtain ⟨pubkey, hmem, rfl⟩ := List.mem_map.mp he
  obtain ⟨package, -, rfl⟩ := Option.map_eq_some_iff.mp hp
  obtain ⟨hm, hne⟩ := (mem_recipientsFor horder).mp hmem
  exact ⟨hm, hne, trivial⟩

omit [DecidableEq R1] in
/-- The phase after a turn of a wait loop sends something new only when it starts
to broadcast. -/
theorem Follows.exchange {stage stage' : Stage} {st : DKGSessionState I R1 R2}
    {todo : Todo I R1 R2} (h : Follows D self order stage st (.exchange stage' todo)) :
    (todo = [] ∧ stage' = stage) ∨
      stage = .round1 ∧ stage' = .broadcast ∧ ∃ r1, st.round1Packages = .ok r1 ∧
        st.hasRound1BroadcastPackages = false ∧ todo = broadcastTodo D self order r1 := by
  generalize hphase : Phase.exchange stage' todo = phase at h
  cases h with
  | waits _ _ _ =>
    obtain ⟨rfl, rfl⟩ := Phase.exchange.inj hphase
    exact .inl ⟨rfl, rfl⟩
  | broadcasts pubkeys r1 broadcasted =>
    obtain ⟨rfl, rfl⟩ := Phase.exchange.inj hphase
    exact .inr ⟨rfl, rfl, r1, rfl, rfl, rfl⟩
  | skips _ _ _ => cases hphase
  | echoed _ _ _ => cases hphase
  | ready _ _ => split_ifs at hphase

omit [DecidableEq R1] in
theorem Follows.not_dead {stage : Stage} {st : DKGSessionState I R1 R2} {phase : Phase I R1 R2}
    (h : Follows D self order stage st phase) : ¬HTTPComms.Dead phase := by
  cases h with
  | ready _ _ => split_ifs <;> exact not_false
  | _ => exact not_false

namespace HTTPComms

variable {c c' : HTTPComms S I R1 R2} {now : ℕ} {app app' : AppState}
  {letter : Option (Letter I R1 R2)}

/-- A batch extends the accepted payloads, and leads to the state they lead to when
it is received without error. -/
theorem recvBatch_recorded (msgs : List Msg)
    (hreach : DKGSessionState.Reaches (D.identifier self) D.pubkeys c.accepted c.state)
    (hdecoded : Decoded D c) :
    Decoded D (c.recvBatch D self msgs).2 ∧ c.accepted <+: (c.recvBatch D self msgs).2.accepted ∧
      (∃ st, DKGSessionState.Reaches (D.identifier self) D.pubkeys
        (c.recvBatch D self msgs).2.accepted st) ∧
      ((c.recvBatch D self msgs).1 = .ok () →
        DKGSessionState.Reaches (D.identifier self) D.pubkeys (c.recvBatch D self msgs).2.accepted
          (c.recvBatch D self msgs).2.state) := by
  induction msgs generalizing c with
  | nil => exact ⟨hdecoded, List.prefix_rfl, ⟨_, hreach⟩, fun _ => hreach⟩
  | cons msg msgs ih =>
    -- a message that is rejected may have been decrypted, and accepts nothing
    have hrejected : ∀ c₁, (c.recvMsg D self msg).2 = c₁ → (c.recvMsg D self msg).1 ≠ .ok () →
        Decoded D c₁ ∧ c.accepted <+: c₁.accepted ∧
          ∃ st, DKGSessionState.Reaches (D.identifier self) D.pubkeys c₁.accepted st := by
      rintro c₁ rfl hne
      obtain ⟨-, -, haccepted, hdecrypted⟩ := recvMsg_frame D self c msg
      refine ⟨fun e he => ?_, by rw [haccepted hne], c.state, by rwa [haccepted hne]⟩
      rw [haccepted hne] at he
      obtain ⟨st, b, hb, hp⟩ := hdecoded e he
      exact ⟨st, b, hdecrypted.subset hb, hp⟩
    rw [recvBatch]
    split
    · next c₁ h1 =>
      obtain ⟨plain, cipher, p, st, -, hp, ha, rfl⟩ := recvMsg_ok_iff.mp h1
      have hdecoded₁ : Decoded D { c with
          cipher
          state := st
          decrypted := c.decrypted ++ [plain]
          accepted := c.accepted ++ [(plain.sender, p)] } := by
        intro e he
        obtain he | he := List.mem_append.mp he
        · obtain ⟨st₀, b, hb, hp₀⟩ := hdecoded e he
          exact ⟨st₀, b, List.mem_append_left _ hb, hp₀⟩
        · obtain rfl := List.mem_singleton.mp he
          exact ⟨c.state, plain.msg, List.mem_append_right _ (List.mem_singleton_self _), hp⟩
      obtain ⟨hd, hle, hst, hok⟩ := ih (.snoc hreach ha) hdecoded₁
      exact ⟨hd, (List.prefix_append _ _).trans hle, hst, hok⟩
    · next e c₁ h1 =>
      obtain ⟨hd, hle, hst⟩ := hrejected c₁ (by rw [h1]) (by rw [h1]; exact Outcome.err_ne_ok e ())
      exact ⟨hd, hle, hst, fun hok => absurd hok (Outcome.err_ne_ok e ())⟩
    · next message c₁ h1 =>
      obtain ⟨hd, hle, hst⟩ := hrejected c₁ (by rw [h1])
        (by rw [h1]; exact Outcome.panic_ne_ok message ())
      exact ⟨hd, hle, hst, fun hok => absurd hok (Outcome.panic_ne_ok message ())⟩

theorem recorded_start (horder : D.Iterates order) :
    Recorded D self (start D self order : HTTPComms S I R1 R2) := by
  unfold start
  split
  · exact ⟨nofun, ⟨_, .new⟩, fun _ => .new, nofun, by
      rintro stage todo ⟨⟩
      exact sendable_round1Todo horder []⟩
  · exact ⟨nofun, ⟨_, .new⟩, fun _ => .new, nofun, nofun⟩

omit [LinearOrder I] [DecidableEq R1] in
theorem enter_eq {α : Type*} (next : α → Phase I R1 R2) (o : Outcome Session.Error α) :
    ∃ phase, c.enter next o = { c with phase } ∧ (Dead phase ∨ ∃ a, o = .ok a ∧ phase = next a) := by
  cases o with
  | ok a => exact ⟨_, rfl, .inr ⟨a, rfl, rfl⟩⟩
  | err e => exact ⟨_, rfl, .inl trivial⟩
  | panic message => exact ⟨_, rfl, .inl trivial⟩

end HTTPComms

open HTTPComms

variable {c c' : HTTPComms S I R1 R2} {now : ℕ} {app app' : AppState}
  {letter : Option (Letter I R1 R2)}

theorem Recorded.enter (h : Recorded D self c) {phase : Phase I R1 R2} (halive : ¬Dead c.phase)
    (htodo : ∀ stage todo, phase = .exchange stage todo →
      ∀ e ∈ todo, ∀ p, e.2 = some p → Sendable D self c.accepted e.1 p) :
    Recorded D self { c with phase } :=
  ⟨h.decoded, h.reaches, fun _ => h.current halive, h.produced, htodo⟩

theorem Recorded.die (h : Recorded D self c) {phase : Phase I R1 R2} (hdead : Dead phase) :
    Recorded D self { c with phase } :=
  ⟨h.decoded, h.reaches, fun hlive => absurd hdead hlive, h.produced, by
    rintro stage todo rfl
    exact absurd hdead not_false⟩

theorem Recorded.batch (h : Recorded D self c) (halive : ¬Dead c.phase) (msgs : List Msg)
    (phase : Phase I R1 R2)
    (hok : ¬Dead phase → (c.recvBatch D self msgs).1 = .ok ())
    (htodo : ∀ stage todo, phase = .exchange stage todo → ∀ e ∈ todo, ∀ p, e.2 = some p →
      Sendable D self (c.recvBatch D self msgs).2.accepted e.1 p) :
    Recorded D self { (c.recvBatch D self msgs).2 with phase } := by
  obtain ⟨hd, hle, hst, hcurrent⟩ := recvBatch_recorded msgs (h.current halive) h.decoded
  refine ⟨hd, hst, fun hlive => hcurrent (hok hlive), fun e he => ?_, htodo⟩
  rw [(recvBatch_frame D self c msgs).1] at he
  exact (h.produced e he).mono hle

theorem Recorded.step (h : Recorded D self c) (horder : D.Iterates order)
    (hstep : Steps D self now order app c c' app' letter) : Recorded D self c' := by
  cases hstep with
  | sent stage recipient payload todo msg cipher hphase _ _ =>
    have htodo := h.todo stage _ hphase
    refine ⟨h.decoded, h.reaches, fun _ => h.current (by rw [hphase]; exact not_false), ?_, ?_⟩
    · intro e he
      obtain he | he := List.mem_append.mp he
      · exact h.produced e he
      · obtain rfl := List.mem_singleton.mp he
        exact htodo _ List.mem_cons_self payload rfl
    · rintro stage' todo' ⟨⟩ e he
      exact htodo e (List.mem_cons_of_mem _ he)
  -- a turn adds to what is accepted, and may prepare echoes of the packages received
  | received stage msgs c₁ phase hphase _ hbatch hfollows =>
    have halive : ¬Dead c.phase := by rw [hphase]; exact not_false
    have hok : (c.recvBatch D self msgs).1 = .ok () := by rw [hbatch]
    obtain ⟨-, -, -, hcurrent⟩ := recvBatch_recorded msgs (h.current halive) h.decoded
    have hbatched := h.batch halive msgs phase fun _ => hok
    rw [hbatch] at hbatched hcurrent
    refine hbatched ?_
    rintro stage' todo rfl
    obtain ⟨rfl, -⟩ | ⟨-, -, r1, hr1, -, rfl⟩ := hfollows.exchange
    · exact nofun
    · exact sendable_broadcastTodo horder ⟨_, List.prefix_rfl, hcurrent rfl⟩ hr1
  | rejected stage msgs phase hphase _ _ hdead _ =>
    have halive : ¬Dead c.phase := by rw [hphase]; exact not_false
    refine h.batch halive msgs phase (fun hlive => absurd hdead hlive) ?_
    rintro stage' todo rfl
    exact absurd hdead not_false
  -- what was encrypted last was on the list
  | stopped cipher produced phase _ hdead _ _ hproduced =>
    refine ⟨h.decoded, h.reaches, fun hlive => absurd hdead hlive, ?_, ?_⟩
    · intro e he
      obtain he | he := List.mem_append.mp he
      · exact h.produced e he
      · obtain ⟨stage, todo, hphase⟩ := hproduced e (Option.mem_toList.mp he)
        exact h.todo stage _ hphase _ List.mem_cons_self e.2 rfl
    · rintro stage todo rfl
      exact absurd hdead not_false
  | part2 r1 r2 hphase _ =>
    refine h.enter (by rw [hphase]; exact not_false) ?_
    rintro stage todo ⟨⟩
    exact sendable_round2Todo horder c.accepted r2
  | closed hphase _ => exact h.enter (by rw [hphase]; exact not_false) nofun
  | loggedOut hphase =>
    obtain ⟨phase, heq, hcases⟩ := enter_eq (c := c) Phase.finished c.state.round2Packages
    rw [heq]
    obtain hdead | ⟨r2, -, rfl⟩ := hcases
    · exact h.die hdead
    · exact h.enter (by rw [hphase]; exact not_false) nofun
  | cleaned e _ => exact h.die trivial

theorem recorded_of_reachable {corrupted : Finset PublicKey} {s : Network S I R1 R2}
    (h : (Network.system S D corrupted).Reachable s) (self : PublicKey) :
    Recorded D self (s.comms self) :=
  Network.invariant_comms (fun _ _ horder => recorded_start horder)
    (fun _ _ _ _ _ _ _ _ _ horder hc hstep => hc.step horder (steps_of_step hstep))
    h self

def Positioned (st : DKGSessionState I R1 R2) : Phase I R1 R2 → Prop
  | .exchange .broadcast _ => 1 ≤ st.phase
  | .round1Done r1 => ∃ pubkeys r2, st = .waitingForRound2Packages pubkeys r1 r2
  | .exchange .round2 _ => 2 ≤ st.phase
  | .closing | .loggingOut | .finished _ => 3 ≤ st.phase
  | _ => True

/-- Receiving extends the accepted payloads and never goes back, even when it fails. -/
theorem recvMsg_le (D : Setup I R1 R2) (self : PublicKey) (c : HTTPComms S I R1 R2) (msg : Msg) :
    c.state.phase ≤ (c.recvMsg D self msg).2.state.phase ∧
      c.accepted <+: (c.recvMsg D self msg).2.accepted := by
  have hphase : c.state.phase ≤ (c.recvMsg D self msg).2.state.phase := by
    unfold recvMsg
    split
    · exact le_rfl
    · exact le_rfl
    · next plain cipher _ =>
      have hle := DKGSessionState.recv_phase_le D.codec.decode c.state plain (D.identifier self)
      dsimp only
      split
      all_goals
        next hr =>
          rw [hr] at hle
          exact hle
  refine ⟨hphase, ?_⟩
  by_cases h : (c.recvMsg D self msg).1 = .ok ()
  · have hmsg : c.recvMsg D self msg = (.ok (), (c.recvMsg D self msg).2) := Prod.ext h rfl
    obtain ⟨plain, _, p, _, -, -, -, heq⟩ := recvMsg_ok_iff.mp hmsg
    generalize (c.recvMsg D self msg).2 = c₁ at heq
    subst heq
    exact List.prefix_append _ _
  · rw [(recvMsg_frame D self c msg).2.2.1 h]

theorem recvBatch_le (D : Setup I R1 R2) (self : PublicKey) (c : HTTPComms S I R1 R2)
    (msgs : List Msg) : c.state.phase ≤ (c.recvBatch D self msgs).2.state.phase ∧
      c.accepted <+: (c.recvBatch D self msgs).2.accepted :=
  recvBatch_invariant (P := fun c' => c.state.phase ≤ c'.state.phase ∧ c.accepted <+: c'.accepted)
    (fun c' msg h => ⟨h.1.trans (recvMsg_le D self c' msg).1, h.2.trans (recvMsg_le D self c' msg).2⟩)
    ⟨le_rfl, List.prefix_rfl⟩

theorem HTTPComms.Steps.le (h : Steps D self now order app c c' app' letter) :
    c.state.phase ≤ c'.state.phase ∧ c.accepted <+: c'.accepted := by
  cases h with
  | received stage msgs c₁ phase _ _ hbatch _ =>
    have hle := recvBatch_le D self c msgs
    rwa [hbatch] at hle
  | rejected stage msgs phase _ _ _ _ _ => exact recvBatch_le D self c msgs
  | loggedOut _ =>
    obtain ⟨phase, heq, -⟩ := enter_eq (c := c) Phase.finished c.state.round2Packages
    rw [heq]
    exact ⟨le_rfl, List.prefix_rfl⟩
  | _ => exact ⟨le_rfl, List.prefix_rfl⟩

omit [LinearOrder I] [DecidableEq R1] in
theorem Positioned.dead {st : DKGSessionState I R1 R2} {phase : Phase I R1 R2} (h : Dead phase) :
    Positioned st phase := by
  cases phase with
  | failed _ => trivial
  | cleaned _ => trivial
  | panicked _ => trivial
  | _ => exact absurd h not_false

theorem Positioned.step (h : Positioned c.state c.phase)
    (hstep : Steps D self now order app c c' app' letter) : Positioned c'.state c'.phase := by
  cases hstep with
  | sent stage recipient payload todo msg cipher hphase _ _ =>
    rw [hphase] at h
    cases stage <;> exact h
  -- a batch only moves the session state forwards, and the loop is left in the phase it waits for
  | received stage msgs c₁ phase hphase _ hbatch hfollows =>
    obtain ⟨hle, -⟩ := recvBatch_le D self c msgs
    rw [hbatch] at hle
    rw [hphase] at h
    change Positioned c₁.state phase
    generalize c₁.state = st at hle hfollows
    cases hfollows with
    | waits _ _ _ =>
      cases stage with
      | round1 => trivial
      | broadcast => exact le_trans h hle
      | round2 => exact le_trans h hle
    | broadcasts _ _ _ => exact le_rfl
    | skips pubkeys _ r2 => exact ⟨pubkeys, r2, rfl⟩
    | echoed pubkeys _ r2 => exact ⟨pubkeys, r2, rfl⟩
    | ready _ _ => split_ifs <;> exact le_rfl
  | rejected _ _ _ _ _ _ hdead _ => exact .dead hdead
  | stopped _ _ _ _ hdead _ _ _ => exact .dead hdead
  | part2 r1 r2 hphase _ =>
    rw [hphase] at h
    obtain ⟨_, _, hst⟩ := h
    change 2 ≤ c.state.phase
    rw [hst]
    exact le_rfl
  | closed hphase _ =>
    rw [hphase] at h
    exact h
  | loggedOut hphase =>
    rw [hphase] at h
    obtain ⟨phase, heq, hcases⟩ := enter_eq (c := c) Phase.finished c.state.round2Packages
    rw [heq]
    obtain hdead | ⟨_, -, rfl⟩ := hcases
    · exact .dead hdead
    · exact h
  | cleaned _ _ => trivial

theorem positioned_of_reachable {corrupted : Finset PublicKey} {s : Network S I R1 R2}
    (h : (Network.system S D corrupted).Reachable s) (self : PublicKey) :
    Positioned (s.comms self).state (s.comms self).phase := by
  refine Network.invariant_comms (P := fun _ c => Positioned c.state c.phase) ?_ ?_ h self
  · intro pubkey order _
    unfold start
    split <;> trivial
  · intro pubkey now order app c c' app' letter _ _ hc hstep
    exact hc.step (steps_of_step hstep)

theorem used_of_round1Done {corrupted : Finset PublicKey} {s : Network S I R1 R2}
    (h : (Network.system S D corrupted).Reachable s) (hlen : 2 ≤ D.pubkeys.len) {self : PublicKey}
    {r1 : Map I R1} (hphase : (s.comms self).phase = .round1Done r1) :
    (s.comms self).Used D self r1 := by
  have hposition := positioned_of_reachable h self
  rw [hphase] at hposition
  obtain ⟨pubkeys, r2, hst⟩ := hposition
  have hreaches := (recorded_of_reachable h self).current (by rw [hphase]; exact not_false)
  have hrepresents := hreaches.represents hlen
  rw [hst] at hreaches hrepresents
  cases hrepresents with
  | waitingForRound2Packages _ _ _ _ _ _ _ _ => exact ⟨r2, _, List.prefix_rfl, hreaches⟩

end FrostTools.Dkg
