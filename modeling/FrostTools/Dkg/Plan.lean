import FrostTools.Dkg.Order

/-!
# What a participant sends

The messages of a participant, together with those it has still to send, are of
different kinds, and each round has one for everyone it is meant for.
-/

namespace FrostTools.Session

variable {I R1 R2 : Type*}

def Payload.round : Payload I R1 R2 → ℕ
  | .round1 _ => 0
  | .broadcast _ _ => 1
  | .round2 _ => 2

end FrostTools.Session

namespace FrostTools.Dkg
open Client Session Frostd DKGSessionState

variable {I R1 R2 : Type*}

def Stage.round : Stage → ℕ
  | .round1 => 0
  | .broadcast => 1
  | .round2 => 2

namespace Phase

def round : Phase I R1 R2 → ℕ
  | .exchange stage _ => stage.round
  | .round1Done _ => 1
  | _ => 2

def todo : Phase I R1 R2 → Todo I R1 R2
  | .exchange _ todo => todo
  | _ => []

def inRound2 : Phase I R1 R2 → Bool
  | .exchange .round2 _ | .closing | .loggingOut | .finished _ => true
  | _ => false

end Phase

/-- The payloads that can still be sent, with their recipients. -/
def pending (todo : Todo I R1 R2) : List (PublicKey × Payload I R1 R2) :=
  todo.filterMap fun e => e.2.map fun p => (e.1, p)

theorem mem_pending {todo : Todo I R1 R2} {e : PublicKey × Payload I R1 R2} :
    e ∈ pending todo ↔ (e.1, some e.2) ∈ todo := by
  simp only [pending, List.mem_filterMap, Option.map_eq_some_iff]
  constructor
  · rintro ⟨⟨_, _⟩, hmem, p, rfl, rfl⟩
    exact hmem
  · intro hmem
    exact ⟨_, hmem, e.2, rfl, rfl⟩

theorem recipients_pending_sublist (todo : Todo I R1 R2) :
    ((kinds (pending todo)).map Prod.fst).Sublist (todo.map Prod.fst) := by
  induction todo with
  | nil => exact List.Sublist.slnil
  | cons e todo ih =>
    obtain ⟨recipient, p⟩ := e
    cases p with
    | none => exact ih.cons _
    | some p => exact ih.cons_cons _

theorem nodup_of_recipients {todo : Todo I R1 R2} (h : (todo.map Prod.fst).Nodup) :
    (kinds (pending todo)).Nodup :=
  List.Nodup.of_map Prod.fst (h.sublist (recipients_pending_sublist todo))

theorem round_kind {p : Payload I R1 R2} {k : Payload I Unit Unit} (h : p.kind = k) :
    p.round = k.round := by
  subst h
  cases p <;> rfl

theorem round_of_mem_kinds {l : List (PublicKey × Payload I R1 R2)}
    {k : PublicKey × Payload I Unit Unit} (h : k ∈ kinds l) :
    ∃ e ∈ l, e.2.round = k.2.round := by
  obtain ⟨e, he, rfl⟩ := List.mem_map.mp h
  exact ⟨e, he, round_kind rfl⟩

theorem nodup_append_of_round {l l' : List (PublicKey × Payload I R1 R2)} {n : ℕ}
    (h : (kinds l).Nodup) (h' : (kinds l').Nodup) (hl : ∀ e ∈ l, e.2.round < n)
    (hl' : ∀ e ∈ l', e.2.round = n) : (kinds (l ++ l')).Nodup := by
  rw [kinds_append, List.nodup_append]
  refine ⟨h, h', ?_⟩
  rintro k hk _ hk' rfl
  obtain ⟨e, he, hround⟩ := round_of_mem_kinds hk
  obtain ⟨e', he', hround'⟩ := round_of_mem_kinds hk'
  have hlt := hl e he
  have heq := hl' e' he'
  omega

variable {S : Snow} [LinearOrder I] {D : Setup I R1 R2} {self : PublicKey}
  {order : List PublicKey}

omit [LinearOrder I] in
theorem nodup_recipientsFor (self : PublicKey) (horder : D.Iterates order) : (recipientsFor self order).Nodup :=
  horder.1.filter _

omit [LinearOrder I] in
theorem other_iff_mem_recipientsFor (horder : D.Iterates order) {pubkey : PublicKey} :
    pubkey ∈ recipientsFor self order ↔ Other D self pubkey := mem_recipientsFor horder

omit [LinearOrder I] in
theorem recipients_round1Todo :
    (round1Todo D self order).map Prod.fst = recipientsFor self order := by
  rw [round1Todo, List.map_map]
  exact List.map_id _

omit [LinearOrder I] in
theorem round_round1Todo : ∀ e ∈ pending (round1Todo D self order), e.2.round = 0 := by
  intro e he
  obtain ⟨_, -, heq⟩ := List.mem_map.mp (mem_pending.mp he)
  obtain ⟨-, heq⟩ := Prod.mk.inj heq
  rw [← Option.some.inj heq]
  rfl

omit [LinearOrder I] in
theorem hasRound1_round1Todo (horder : D.Iterates order) :
    HasRound1 D self (pending (round1Todo D self order)) := by
  intro recipient hrecipient
  refine mem_kinds_round1.mpr ⟨D.round1Package self, mem_pending.mpr ?_⟩
  exact List.mem_map.mpr ⟨recipient, (other_iff_mem_recipientsFor horder).mpr hrecipient, rfl⟩

theorem recipients_round2Todo (r2 : Map I R2) :
    (round2Todo D self order r2).map Prod.fst = recipientsFor self order := by
  rw [round2Todo, List.map_map]
  exact List.map_id _

theorem round_round2Todo (r2 : Map I R2) :
    ∀ e ∈ pending (round2Todo D self order r2), e.2.round = 2 := by
  intro e he
  obtain ⟨_, -, heq⟩ := List.mem_map.mp (mem_pending.mp he)
  obtain ⟨-, heq⟩ := Prod.mk.inj heq
  obtain ⟨package, -, heq⟩ := Option.map_eq_some_iff.mp heq
  rw [← heq]
  rfl

theorem mem_pending_broadcastTodo (horder : D.Iterates order) {r1 : Map I R1}
    {e : PublicKey × Payload I R1 R2} :
    e ∈ pending (broadcastTodo D self order r1) ↔ ∃ original package,
      e.2 = .broadcast original package ∧ Other D self e.1 ∧ r1.lookup original = some package ∧
        original ≠ D.identifier e.1 := by
  rw [mem_pending, mem_broadcastTodo horder]
  simp only [Option.some.injEq, Other, and_assoc]

theorem round_broadcastTodo (horder : D.Iterates order) {r1 : Map I R1} :
    ∀ e ∈ pending (broadcastTodo D self order r1), e.2.round = 1 := by
  intro e he
  obtain ⟨original, package, heq, -⟩ := (mem_pending_broadcastTodo horder).mp he
  rw [heq]
  rfl

theorem hasEchoes_broadcastTodo (hD : D.Distinct) (horder : D.Iterates order) {r1 : Map I R1}
    (hkeys : r1.keys = otherIdentifiers D self) :
    HasEchoes D self (pending (broadcastTodo D self order r1)) := by
  intro recipient hrecipient original horiginal hne
  have hmem : D.identifier original ∈ r1.keys :=
    hkeys ▸ mem_otherIdentifiers.mpr ⟨original, horiginal, rfl⟩
  obtain ⟨package, hp⟩ := Map.mem_keys_iff.mp hmem
  refine mem_kinds_broadcast.mpr ⟨package, (mem_pending_broadcastTodo horder).mpr ?_⟩
  refine ⟨_, package, rfl, hrecipient, hp, fun heq => hne ?_⟩
  exact hD _ horiginal.1 _ hrecipient.1 heq

theorem nodup_broadcastTodo (horder : D.Iterates order) (r1 : Map I R1) :
    (kinds (pending (broadcastTodo D self order r1))).Nodup := by
  have hkinds : kinds (pending (broadcastTodo D self order r1)) =
      (recipientsFor self order).flatMap fun pubkey =>
        (r1.toSortedList.filter fun entry => entry.1 ≠ D.identifier pubkey).map
          fun entry => (pubkey, .broadcast entry.1 ()) := by
    simp [kinds, pending, broadcastTodo, List.filterMap_flatMap, List.map_flatMap, Payload.kind,
      Function.comp_def]
  rw [hkinds, List.nodup_flatMap]
  refine ⟨fun pubkey _ => ?_, (nodup_recipientsFor self horder).imp fun hne => ?_⟩
  · refine List.Nodup.map_on ?_ (r1.nodup_toSortedList.filter _)
    rintro ⟨original, package⟩ he ⟨original', package'⟩ he' heq
    obtain rfl := Payload.broadcast.inj (Prod.mk.inj heq).2 |>.1
    have hp := Map.mem_toSortedList.mp (List.mem_of_mem_filter he)
    have hp' := Map.mem_toSortedList.mp (List.mem_of_mem_filter he')
    rw [Option.some.inj (hp.symm.trans hp')]
  · intro k hk hk'
    obtain ⟨_, -, rfl⟩ := List.mem_map.mp hk
    obtain ⟨_, -, heq⟩ := List.mem_map.mp hk'
    exact hne (Prod.mk.inj heq).1.symm

open HTTPComms

/-- What a participant has sent and has still to send. -/
structure Planned (D : Setup I R1 R2) (pubkey : PublicKey) (c : HTTPComms S I R1 R2) : Prop where
  nodup : (kinds (c.produced ++ pending c.phase.todo)).Nodup
  produced_round : ∀ e ∈ c.produced, e.2.round ≤ c.phase.round
  todo_round : ∀ e ∈ pending c.phase.todo, e.2.round = c.phase.round
  round1 : ¬Dead c.phase → HasRound1 D pubkey (c.produced ++ pending c.phase.todo)
  broadcast : ∀ todo, c.phase = .exchange .broadcast todo →
    HasEchoes D pubkey (c.produced ++ pending todo)
  round2 : c.phase.inRound2 = true → ∀ recipient, Other D pubkey recipient →
    (recipient, .round2 ()) ∈ kinds c.produced ∨ recipient ∈ c.phase.todo.map Prod.fst
  unsent : ∀ todo, c.phase = .exchange .round2 todo → (todo.map Prod.fst).Nodup ∧
    ∀ recipient ∈ todo.map Prod.fst, Other D pubkey recipient ∧
      (recipient, .round2 ()) ∉ kinds c.produced
  closing : c.phase = .closing → pubkey = D.creator

variable [DecidableEq R1] {c c' : HTTPComms S I R1 R2} {now : ℕ} {app app' : AppState}
  {letter : Option (Letter I R1 R2)}

omit [LinearOrder I] [DecidableEq R1] in
theorem planned_start (horder : D.Iterates order) :
    Planned D self (start D self order : HTTPComms S I R1 R2) := by
  have hnodup := nodup_recipientsFor self horder
  unfold start
  split
  · refine ⟨?_, nofun, round_round1Todo, fun _ => hasRound1_round1Todo horder, nofun, nofun,
      nofun, nofun⟩
    exact nodup_of_recipients (recipients_round1Todo (D := D) ▸ hnodup)
  · exact ⟨List.nodup_nil, nofun, nofun, fun h => absurd trivial h, nofun, nofun, nofun, nofun⟩

omit [LinearOrder I] [DecidableEq R1] in
theorem Dead.todo {phase : Phase I R1 R2} (h : Dead phase) : phase.todo = [] := by
  cases phase with
  | exchange _ _ => exact absurd h not_false
  | _ => rfl

omit [LinearOrder I] [DecidableEq R1] in
theorem Dead.round {phase : Phase I R1 R2} (h : Dead phase) : phase.round = 2 := by
  cases phase with
  | exchange _ _ => exact absurd h not_false
  | round1Done _ => exact absurd h not_false
  | _ => rfl

omit [LinearOrder I] [DecidableEq R1] in
theorem Dead.inRound2 {phase : Phase I R1 R2} (h : Dead phase) : phase.inRound2 = false := by
  cases phase with
  | failed _ => rfl
  | cleaned _ => rfl
  | panicked _ => rfl
  | _ => exact absurd h not_false

omit [LinearOrder I] [DecidableEq R1] in
theorem round_le_two (p : Payload I R1 R2) : p.round ≤ 2 := by
  cases p <;> simp [Payload.round]

omit [LinearOrder I] [DecidableEq R1] in
/-- A participant that gives up, having encrypted at most one more message. -/
theorem planned_of_dead {c' : HTTPComms S I R1 R2} (hdead : Dead c'.phase)
    (hnodup : (kinds c'.produced).Nodup) : Planned D self c' := by
  have htodo := Dead.todo hdead
  refine ⟨?_, ?_, ?_, fun h => absurd hdead h, ?_, ?_, ?_, ?_⟩
  · rw [htodo]
    change (kinds (c'.produced ++ [])).Nodup
    rwa [List.append_nil]
  · intro e _
    rw [Dead.round hdead]
    exact round_le_two e.2
  · rw [htodo]
    exact nofun
  · intro todo hphase
    rw [hphase] at hdead
    exact absurd hdead not_false
  · intro h
    rw [Dead.inRound2 hdead] at h
    cases h
  · intro todo hphase
    rw [hphase] at hdead
    exact absurd hdead not_false
  · intro hphase
    rw [hphase] at hdead
    exact absurd hdead not_false

omit [LinearOrder I] [DecidableEq R1] in
theorem Planned.quiet (h : Planned D self c) (hc : c'.produced = c.produced)
    (htodo : c.phase.todo = []) (hlive : ¬Dead c.phase) (htodo' : c'.phase.todo = [])
    (hround : c.phase.round ≤ c'.phase.round) (hphase : ∀ stage todo, c'.phase ≠ .exchange stage todo)
    (hround2 : c'.phase.inRound2 = true → c.phase.inRound2 = true)
    (hclosing : c'.phase = .closing → self = D.creator) : Planned D self c' := by
  have hnodup := h.nodup
  have hround1 := h.round1 hlive
  rw [htodo] at hnodup hround1
  refine ⟨?_, ?_, ?_, ?_, fun todo htodo => absurd htodo (hphase _ todo), ?_,
    fun todo htodo => absurd htodo (hphase _ todo), hclosing⟩
  · rwa [hc, htodo']
  · rw [hc]
    exact fun e he => (h.produced_round e he).trans hround
  · rw [htodo']
    exact nofun
  · rw [hc, htodo']
    exact fun _ => hround1
  · intro hin recipient hrecipient
    rw [hc]
    have hsent := h.round2 (hround2 hin) recipient hrecipient
    rw [htodo] at hsent
    exact .inl (hsent.resolve_right nofun)

theorem Planned.step (h : Planned D self c) (hD : D.Distinct) (horder : D.Iterates order)
    (hkeys : ∀ r1, c'.state.round1Packages = .ok r1 → ¬Dead c'.phase →
      r1.keys = otherIdentifiers D self)
    (hstep : Steps D self now order app c c' app' letter) : Planned D self c' := by
  have hinitial := h.nodup.sublist (List.sublist_append_left c.produced _ |>.map _)
  cases hstep with
  -- the payload moves from the list to the record, so the two together stay the same
  | sent stage recipient payload todo msg cipher hphase _ _ =>
    obtain ⟨hnodup, hproduced, htodo, hround1, hbroadcast, hround2, hunsent, -⟩ := h
    rw [hphase] at hnodup hproduced htodo hround1 hround2
    have hsame : c.produced ++ [(recipient, payload)] ++ pending todo =
        c.produced ++ pending ((recipient, some payload) :: todo) := List.append_assoc _ _ _
    have hround : payload.round = stage.round := htodo (recipient, payload) List.mem_cons_self
    refine ⟨?_, ?_, ?_, ?_, ?_, ?_, ?_, nofun⟩
    · exact hsame ▸ hnodup
    · intro e he
      obtain he | he := List.mem_append.mp he
      · exact hproduced e he
      · obtain rfl := List.mem_singleton.mp he
        exact hround.le
    · exact fun e he => htodo e (List.mem_cons_of_mem _ he)
    · exact fun _ => hsame ▸ hround1 not_false
    · rintro todo' heq
      obtain ⟨rfl, rfl⟩ := Phase.exchange.inj heq
      exact hsame ▸ hbroadcast _ hphase
    · intro hin recipient' hrecipient'
      cases stage with
      | round2 =>
        obtain hsent | hmem := hround2 rfl recipient' hrecipient'
        · rw [kinds_append]
          exact .inl (List.mem_append_left _ hsent)
        · obtain heq | hmem := List.mem_cons.mp hmem
          · refine .inl ?_
            change recipient' = recipient at heq
            rw [kinds_append, heq]
            cases payload with
            | round2 package => exact List.mem_append_right _ List.mem_cons_self
            | _ => cases hround
          · exact .inr hmem
      | _ => cases hin
    · intro todo' heq
      obtain ⟨rfl, rfl⟩ := Phase.exchange.inj heq
      obtain ⟨hnodup', hothers⟩ := hunsent _ hphase
      obtain ⟨hhead, htail⟩ := List.nodup_cons.mp hnodup'
      refine ⟨htail, fun recipient' hmem => ?_⟩
      obtain ⟨hother, hnot⟩ := hothers recipient' (List.mem_cons_of_mem _ hmem)
      refine ⟨hother, fun hsent => ?_⟩
      rw [kinds_append] at hsent
      obtain hsent | hsent := List.mem_append.mp hsent
      · exact hnot hsent
      · obtain ⟨rfl, -⟩ := Prod.mk.inj (List.mem_singleton.mp hsent)
        exact hhead hmem
  -- a turn encrypts nothing, and only the way to the broadcast adds payloads to the list
  | received stage msgs c₁ phase hphase _ hbatch hfollows =>
    have hproduced := (recvBatch_frame D self c msgs).1
    rw [hbatch] at hproduced
    have hlive : ¬Dead c.phase := by rw [hphase]; exact not_false
    have htodo : c.phase.todo = [] := by rw [hphase]; rfl
    change ∀ r1, c₁.state.round1Packages = .ok r1 → ¬Dead phase → _ at hkeys
    generalize hst : c₁.state = st at hfollows hkeys
    cases hfollows with
    | waits _ _ _ =>
      obtain ⟨hnodup, hround, htodo, hround1, hbroadcast, hround2, -, -⟩ := h
      rw [hphase] at hnodup hround htodo hround1 hround2
      rw [← hproduced] at hnodup hround hround1 hround2
      refine ⟨hnodup, hround, htodo, fun _ => hround1 not_false, ?_, hround2, ?_, nofun⟩
      · rintro todo' heq
        obtain ⟨rfl, rfl⟩ := Phase.exchange.inj heq
        exact hproduced.symm ▸ hbroadcast _ hphase
      · rintro todo' heq
        obtain ⟨-, rfl⟩ := Phase.exchange.inj heq
        exact ⟨List.nodup_nil, nofun⟩
    | broadcasts pubkeys r1 broadcasted =>
      have hr1 := hkeys r1 rfl not_false
      have hround : ∀ e ∈ c₁.produced, e.2.round < 1 := by
        intro e he
        have hle := h.produced_round e (hproduced ▸ he)
        rw [hphase] at hle
        exact Nat.lt_succ_of_le hle
      have hround1 := h.round1 hlive
      rw [htodo, ← hproduced] at hround1
      refine ⟨?_, fun e he => (hround e he).le, round_broadcastTodo horder, fun _ => ?_, ?_, nofun,
        nofun, nofun⟩
      · exact nodup_append_of_round (hproduced ▸ hinitial) (nodup_broadcastTodo horder r1) hround
          (round_broadcastTodo horder)
      · intro recipient hrecipient
        rw [kinds_append]
        have hsent := hround1 recipient hrecipient
        rw [kinds_append] at hsent
        exact List.mem_append_left _ ((List.mem_append.mp hsent).resolve_right nofun)
      · rintro todo' heq
        obtain ⟨-, rfl⟩ := Phase.exchange.inj heq
        intro recipient hrecipient original horiginal hne
        rw [kinds_append]
        exact List.mem_append_right _
          (hasEchoes_broadcastTodo hD horder hr1 recipient hrecipient original horiginal hne)
    | skips _ r1 _ =>
      exact h.quiet hproduced htodo hlive rfl (by rw [hphase]; exact Nat.zero_le _) nofun nofun
        nofun
    | echoed _ r1 _ =>
      exact h.quiet hproduced htodo hlive rfl (by rw [hphase]; exact le_rfl) nofun nofun nofun
    | ready _ _ =>
      have hin : c.phase.inRound2 = true := by rw [hphase]; rfl
      split_ifs with hcreator
      · exact h.quiet hproduced htodo hlive rfl (by rw [hphase]; exact le_rfl) nofun (fun _ => hin)
          fun _ => hcreator
      · exact h.quiet hproduced htodo hlive rfl (by rw [hphase]; exact le_rfl) nofun (fun _ => hin)
          nofun
  -- nothing is sent any more, so only the record matters
  | rejected stage msgs phase _ _ _ hdead _ =>
    refine planned_of_dead hdead ?_
    rwa [(recvBatch_frame D self c msgs).1]
  | stopped cipher produced phase _ hdead _ _ hproduced =>
    refine planned_of_dead hdead ?_
    cases produced with
    | none => rwa [Option.toList_none, List.append_nil]
    | some entry =>
      obtain ⟨stage, todo, hphase⟩ := hproduced entry rfl
      refine h.nodup.sublist (List.Sublist.map _ ((List.append_sublist_append_left _).mpr ?_))
      rw [hphase]
      exact List.Sublist.cons_cons _ (List.nil_sublist _)
  -- the packages of the second round are new, all earlier ones being of rounds before it
  | part2 r1 r2 hphase _ =>
    have hround1 := h.round1 (by rw [hphase]; exact not_false)
    rw [hphase] at hround1
    have hround : ∀ e ∈ c.produced, e.2.round < 2 := by
      intro e he
      have hle := h.produced_round e he
      rw [hphase] at hle
      exact Nat.lt_succ_of_le hle
    have hnodup := nodup_recipientsFor self horder
    refine ⟨?_, fun e he => (hround e he).le, round_round2Todo r2, fun _ => ?_, nofun, ?_, ?_, nofun⟩
    · exact nodup_append_of_round hinitial
        (nodup_of_recipients (recipients_round2Todo (D := D) r2 ▸ hnodup)) hround
        (round_round2Todo r2)
    · intro recipient hrecipient
      have hsent := hround1 recipient hrecipient
      rw [kinds_append] at hsent ⊢
      exact List.mem_append_left _ ((List.mem_append.mp hsent).resolve_right nofun)
    · intro _ recipient hrecipient
      refine .inr ?_
      change recipient ∈ (round2Todo D self order r2).map Prod.fst
      rw [recipients_round2Todo]
      exact (other_iff_mem_recipientsFor horder).mpr hrecipient
    · intro todo' heq
      obtain ⟨-, rfl⟩ := Phase.exchange.inj heq
      rw [recipients_round2Todo]
      refine ⟨hnodup, fun recipient hmem => ⟨(other_iff_mem_recipientsFor horder).mp hmem, ?_⟩⟩
      intro hsent
      obtain ⟨e, he, hround'⟩ := round_of_mem_kinds hsent
      exact absurd hround' (hround e he).ne
  | closed hphase _ =>
    exact h.quiet rfl (by rw [hphase]; rfl) (by rw [hphase]; exact not_false) rfl
      (by rw [hphase]; exact le_rfl) nofun (fun _ => by rw [hphase]; rfl) nofun
  | loggedOut hphase =>
    obtain ⟨phase, heq, hcases⟩ := enter_eq (c := c) Phase.finished c.state.round2Packages
    rw [heq]
    obtain hdead | ⟨_, -, rfl⟩ := hcases
    · exact planned_of_dead hdead hinitial
    · exact h.quiet rfl (by rw [hphase]; rfl) (by rw [hphase]; exact not_false) rfl
        (by rw [hphase]; exact le_rfl) nofun (fun _ => by rw [hphase]; rfl) nofun
  | cleaned e _ => exact planned_of_dead trivial hinitial

end FrostTools.Dkg
