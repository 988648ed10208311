import FrostTools.Signing.Alignment
import FrostTools.Signing.Rerandomization
import FrostTools.Signing.SocketRoles
import Mathlib.Data.Fintype.BigOperators

/-!
# A signing session over sockets

All messages go through one channel at the coordinator, and say of themselves only what they are.
The two rounds do not mix all the same.
-/

namespace FrostTools.Signing.Socket
open Client Setup

variable {C : Ciphersuite} {D : Setup C}

namespace Participant.Phase

def sent : Phase → ℕ
  | committing => 0
  | finished => 2
  | _ => 1

def fetched : Phase → ℕ
  | committing => 0
  | waiting => 0
  | _ => 1

def rank : Phase → ℕ
  | committing => 5
  | waiting => 4
  | asking => 3
  | confirming => 2
  | sharing => 1
  | _ => 0

theorem sent_le (φ : Phase) : φ.sent ≤ φ.fetched + 1 := by
  cases φ <;> decide

end Participant.Phase

namespace Coordinator.Phase

variable {σ : Type} [DecidableEq σ]

def taken : Phase σ → σ → ℕ
  | receiving round got, k => if k ∈ got then round + 1 else round
  | sending _ _, _ => 1
  | finished, _ => 2

def posted : Phase σ → σ → ℕ
  | receiving round _, _ => round
  | sending k' left, k => if k ∈ k' :: left then 0 else 1
  | finished, _ => 1

def rank (signers : ℕ) : Phase σ → ℕ
  | receiving round got => (if round = 0 then 2 * signers else 0) + (signers - got.length)
  | sending _ left => signers + (left.length + 1)
  | finished => 0

/-- The coordinator waits for signers it has not heard, and has no signer twice on its list. -/
def Waits (signers : ℕ) : Phase σ → Prop
  | receiving round got => round ≤ 1 ∧ got.Nodup ∧ got.length < signers
  | sending k left => (k :: left).Nodup
  | finished => True

section Numbers

variable {round : ℕ} {got left : List σ} {k : σ}

theorem taken_of_mem (h : k ∈ got) : (receiving round got).taken k = round + 1 := if_pos h

theorem taken_of_notMem (h : k ∉ got) : (receiving round got).taken k = round := if_neg h

theorem taken_snoc :
    (receiving round (got ++ [k])).taken = Function.update (receiving round got).taken k (round + 1) := by
  funext j
  by_cases hj : j = k
  · rw [hj, Function.update_self]
    exact taken_of_mem (List.mem_append_right _ (List.mem_singleton_self k))
  · rw [Function.update_of_ne hj]
    simp only [taken, List.mem_append, List.mem_singleton, hj, or_false]

theorem taken_last (h : ∀ j, j ∈ got ++ [k]) :
    Function.update (receiving round got).taken k (round + 1) = fun _ => round + 1 :=
  taken_snoc.symm.trans (funext fun j => taken_of_mem (h j))

theorem taken_send : (send left).taken = fun _ => 1 := by
  cases left <;> rfl

theorem posted_send (hk : k ∉ left) :
    (send left).posted = Function.update (sending k left).posted k 1 := by
  have hsend : (send left).posted = fun j => if j ∈ left then 0 else 1 := by
    cases left with
    | nil => exact funext fun j => (if_neg List.not_mem_nil).symm
    | cons k' left => rfl
  rw [hsend]
  funext j
  by_cases hj : j = k
  · rw [hj, Function.update_self, if_neg hk]
  · rw [Function.update_of_ne hj]
    simp only [posted, List.mem_cons, hj, false_or]

theorem posted_send_all (h : ∀ j, j ∈ k :: left) : (send (k :: left)).posted = fun _ => 0 :=
  funext fun j => if_pos (h j)

end Numbers

/-- The coordinator sends packages after it has taken all commitments. -/
theorem posted_le_taken (φ : Phase σ) (k : σ) : φ.posted k ≤ φ.taken k := by
  cases φ with
  | receiving round got =>
    change round ≤ ite _ _ _
    split_ifs <;> omega
  | sending k' left =>
    change ite _ _ _ ≤ 1
    split_ifs <;> omega
  | finished => exact Nat.le_succ 1

end Coordinator.Phase

theorem length_all : D.all.length = D.signers.card := (length_eq_iff nodup_all).mpr mem_all

section Received

open Coordinator.Phase

variable {round : ℕ} {got left : List D.Signer} {k : D.Signer}

theorem received_spec (hwaits : (receiving round got).Waits D.signers.card) (hk : k ∉ got) :
    (D.received round (got ++ [k])).taken = Function.update (receiving round got).taken k (round + 1) ∧
      (D.received round (got ++ [k])).posted = (receiving round got).posted ∧
      (D.received round (got ++ [k])).Waits D.signers.card ∧
      (D.received round (got ++ [k])).rank D.signers.card + 1 ≤
        (receiving round got).rank D.signers.card := by
  obtain ⟨hround, hnodup, hless⟩ := hwaits
  have hnodup' := nodup_snoc hnodup hk
  have hlength : (got ++ [k]).length = got.length + 1 := List.length_append
  by_cases hlast : (got ++ [k]).length = D.signers.card
  · have hmem := (length_eq_iff hnodup').mp hlast
    rw [taken_last hmem]
    obtain rfl | rfl : round = 0 ∨ round = 1 := by omega
    · -- all commitments are there, and the packages go out
      obtain ⟨k', left, hall⟩ := List.exists_cons_of_ne_nil (List.ne_nil_of_mem (mem_all k))
      have hcard := length_all (D := D)
      rw [hall, List.length_cons] at hcard
      rw [(received_of_length hlast).1, hall]
      refine ⟨taken_send, posted_send_all fun j => hall ▸ mem_all j, ?_, ?_⟩
      · have hnodup := nodup_all (D := D)
        rwa [hall] at hnodup
      · change D.signers.card + (left.length + 1) + 1 ≤ 2 * D.signers.card + (_ - got.length)
        omega
    · rw [(received_of_length hlast).2]
      refine ⟨rfl, rfl, trivial, ?_⟩
      change 0 + 1 ≤ 0 + (D.signers.card - got.length)
      omega
  · have hless' : (got ++ [k]).length < D.signers.card := by omega
    rw [received_of_length_lt hless']
    refine ⟨taken_snoc, rfl, ⟨hround, hnodup', hless'⟩, ?_⟩
    change (if round = 0 then 2 * D.signers.card else 0) + (_ - (got ++ [k]).length) + 1 ≤
      (if round = 0 then 2 * D.signers.card else 0) + (_ - got.length)
    omega

theorem send_spec (hwaits : (sending k left).Waits D.signers.card) :
    (Coordinator.Phase.send left).taken = (sending k left).taken ∧
      (Coordinator.Phase.send left).posted = Function.update (sending k left).posted k 1 ∧
      (Coordinator.Phase.send left).Waits D.signers.card ∧
      (Coordinator.Phase.send left).rank D.signers.card + 1 ≤ (sending k left).rank D.signers.card := by
  obtain ⟨hk, hleft⟩ := List.nodup_cons.mp hwaits
  refine ⟨taken_send, posted_send hk, ?_⟩
  cases left with
  | nil =>
    refine ⟨⟨Nat.le_refl 1, List.nodup_nil, Finset.card_pos.mpr D.signers_nonempty⟩, ?_⟩
    change 0 + (D.signers.card - 0) + 1 ≤ D.signers.card + (0 + 1)
    omega
  | cons k' left =>
    refine ⟨hleft, ?_⟩
    change D.signers.card + (left.length + 1) + 1 ≤ D.signers.card + (left.length + 1 + 1)
    omega

end Received

section Answers

variable {h h' : Hub D.Signer Bytes} {taken sent fetched posted : D.Signer → ℕ} {q : Query}
  {answer : q.Answer}

theorem Answers.exists_post {endpoint : Endpoint} {data : Bytes} {u : Unit}
    (hanswers : Answers D h none (.socketSend endpoint data) u h') :
    ∃ k : D.Signer, D.endpoint k = endpoint ∧ h' = h.post k data := by
  cases hanswers with
  | post => exact ⟨_, rfl, rfl⟩

theorem Answers.eq_send {k : D.Signer} {endpoint : Endpoint} {data : Bytes} {u : Unit}
    (hanswers : Answers D h (some k) (.socketSend endpoint data) u h') : h' = h.send k data := by
  cases hanswers with
  | send => rfl

theorem answers_coordinator {φ : Coordinator.Phase D.Signer} {leads : q.Answer → _ → Prop}
    (hnum : h.Numbered D.uplink D.downlink φ.taken sent fetched φ.posted)
    (hwaits : φ.Waits D.signers.card) (hsent : ∀ k, sent k ≤ fetched k + 1)
    (hnext : D.coordinatorRole.next φ = some ⟨q, leads⟩) (hanswers : Answers D h none q answer h') :
    ∃ φ', leads answer φ' ∧ h'.Numbered D.uplink D.downlink φ'.taken sent fetched φ'.posted ∧
      φ'.Waits D.signers.card ∧ φ'.rank D.signers.card + 1 ≤ φ.rank D.signers.card := by
  cases φ with
  | finished => cases hnext
  | receiving round got =>
    cases hnext
    cases hanswers with
    | closed _ hclosed => exact absurd (hclosed.symm.trans hnum.listening) Bool.false_ne_true
    | @recv k data _ htakes =>
      obtain ⟨hlt, rfl, hnum'⟩ := hnum.takes htakes
      have hfetched : fetched k ≤ round := hnum.fetched_le k
      have hk : k ∉ got := by
        -- its message of this round would be its second answer to packages it has not received
        intro hk
        rw [Coordinator.Phase.taken_of_mem hk] at hlt
        have hle := hsent k
        omega
      have htaken : (Coordinator.Phase.receiving round got).taken k = round :=
        Coordinator.Phase.taken_of_notMem hk
      obtain ⟨hupdate, hposted, hwaits', hrank⟩ := received_spec hwaits hk
      rw [htaken, ← hupdate, ← hposted] at hnum'
      exact ⟨_, ⟨k, hk, by rw [htaken], rfl⟩, hnum', hwaits', hrank⟩
  | sending k left =>
    cases hnext
    obtain ⟨k', hk', hpost⟩ := hanswers.exists_post
    obtain rfl : k' = k := Subtype.ext (D.endpoint_injective hk')
    obtain ⟨htaken, hupdate, hwaits', hrank⟩ := send_spec hwaits
    have hnum' := hnum.post (i := k')
    rw [show (Coordinator.Phase.sending k' left).posted k' = 0 from if_pos List.mem_cons_self,
      ← hupdate, ← htaken] at hnum'
    exact ⟨_, rfl, hpost ▸ hnum', hwaits', hrank⟩

theorem answers_participant {k : D.Signer} {φ : Participant.Phase} {leads : q.Answer → _ → Prop}
    (hnum : h.Numbered D.uplink D.downlink taken sent fetched posted) (hsent : sent k = φ.sent)
    (hfetched : fetched k = φ.fetched) (hnext : (D.participantRole k).next φ = some ⟨q, leads⟩)
    (hanswers : Answers D h (some k) q answer h') :
    ∃ φ' : Participant.Phase, leads answer φ' ∧ h'.Numbered D.uplink D.downlink taken
      (Function.update sent k φ'.sent) (Function.update fetched k φ'.fetched) posted ∧
      φ'.rank + 1 ≤ φ.rank := by
  -- the numbers that the next phase does not change
  have hkeepsSent : ∀ φ' : Participant.Phase, φ'.sent = φ.sent →
      Function.update sent k φ'.sent = sent := by
    intro φ' hφ
    rw [hφ, ← hsent, Function.update_eq_self]
  have hkeepsFetched : ∀ φ' : Participant.Phase, φ'.fetched = φ.fetched →
      Function.update fetched k φ'.fetched = fetched := by
    intro φ' hφ
    rw [hφ, ← hfetched, Function.update_eq_self]
  cases φ with
  | finished => cases hnext
  | refused => cases hnext
  | committing =>
    cases hnext
    have hnum' := hnum.send (i := k)
    rw [hsent] at hnum'
    refine ⟨.waiting, rfl, ?_, Nat.le_refl _⟩
    rw [hanswers.eq_send, hkeepsFetched .waiting rfl]
    exact hnum'
  | waiting =>
    cases hnext
    cases hanswers with
    | fetch hfetches =>
      obtain ⟨-, rfl, hnum'⟩ := hnum.fetches hfetches
      rw [hfetched] at hnum' ⊢
      refine ⟨.asking, ⟨rfl, rfl⟩, ?_, Nat.le_refl _⟩
      rw [hkeepsSent .asking rfl]
      exact hnum'
  | asking =>
    cases hnext
    cases hanswers with
    | eprintln =>
      refine ⟨.confirming, rfl, ?_, Nat.le_refl _⟩
      rwa [hkeepsSent .confirming rfl, hkeepsFetched .confirming rfl]
  | confirming =>
    cases hnext
    cases hanswers with
    | @readLine _ line =>
      refine ⟨_, rfl, ?_⟩
      split_ifs with hline
      · refine ⟨?_, Nat.le_refl _⟩
        rwa [hkeepsSent .sharing rfl, hkeepsFetched .sharing rfl]
      · refine ⟨?_, Nat.le_succ 1⟩
        rwa [hkeepsSent .refused rfl, hkeepsFetched .refused rfl]
  | sharing =>
    cases hnext
    have hnum' := hnum.send (i := k)
    rw [hsent] at hnum'
    refine ⟨.finished, rfl, ?_, Nat.le_refl _⟩
    rw [hanswers.eq_send, hkeepsFetched .finished rfl]
    exact hnum'

end Answers

namespace Setup

variable (D)

abbrev Phase : D.Party → Type
  | none => Coordinator.Phase D.Signer
  | some _ => Participant.Phase

def start : (i : D.Party) → D.Phase i
  | none => .receiving 0 []
  | some _ => .committing

def role : (i : D.Party) → Role World (D.Phase i)
  | none => D.coordinatorRole
  | some k => D.participantRole k

def rank : (i : D.Party) → D.Phase i → ℕ
  | none => Coordinator.Phase.rank D.signers.card
  | some _ => Participant.Phase.rank

def Returns : (i : D.Party) → D.Result i → D.Phase i → Prop
  | none => fun r φ => φ = Coordinator.Phase.finished ∧
      ∃ signature, D.signature = some signature ∧ r.1 = .ok [signature]
  | some _ => fun r φ => (φ = Participant.Phase.finished ∧ r.1 = .ok ()) ∨
      φ = Participant.Phase.refused ∧ ∃ e, r.1 = .err e ∧ Participant.Refused e

end Setup

/-- The numbers of the messages in flight are those that the phases tell. -/
structure Connected (h : Hub D.Signer Bytes) (φ : (i : D.Party) → D.Phase i) : Prop where
  numbered : h.Numbered D.uplink D.downlink (Coordinator.Phase.taken (φ none))
    (fun k => Participant.Phase.sent (φ (some k))) (fun k => Participant.Phase.fetched (φ (some k)))
    (Coordinator.Phase.posted (φ none))
  waits : Coordinator.Phase.Waits D.signers.card (φ none)

section Connected

variable {h h' : Hub D.Signer Bytes} {φ : (i : D.Party) → D.Phase i}

theorem participants_update_none (number : Participant.Phase → ℕ) (φ' : D.Phase none) :
    (fun k : D.Signer => number (Function.update φ none φ' (some k))) =
      fun k : D.Signer => number (φ (some k)) :=
  funext fun k => congrArg number (Function.update_of_ne (Option.some_ne_none k) φ' φ)

theorem participants_update_some (number : Participant.Phase → ℕ) {k : D.Signer}
    (φ' : D.Phase (some k)) :
    (fun j : D.Signer => number (Function.update φ (some k) φ' (some j))) =
      Function.update (fun j : D.Signer => number (φ (some j))) k (number φ') := by
  funext j
  by_cases hj : j = k
  · subst hj
    rw [Function.update_self, Function.update_self]
  · rw [Function.update_of_ne hj, Function.update_of_ne fun h => hj (Option.some.inj h)]

theorem connected_start : Connected (D := D) .new D.start where
  numbered := by
    have htaken : Coordinator.Phase.taken (D.start none) = fun _ => 0 :=
      funext fun k => Coordinator.Phase.taken_of_notMem List.not_mem_nil
    rw [htaken]
    exact Hub.numbered_new
  waits := ⟨Nat.zero_le 1, List.nodup_nil, Finset.card_pos.mpr D.signers_nonempty⟩

/-- No participant has more than one message in flight. -/
theorem Connected.sent_le (hconnected : Connected h φ) (k : D.Signer) :
    Participant.Phase.sent (φ (some k)) ≤ Coordinator.Phase.taken (φ none) k + 1 := by
  have hsent := Participant.Phase.sent_le (φ (some k))
  have hfetched := hconnected.numbered.fetched_le k
  have hposted := Coordinator.Phase.posted_le_taken (φ none) k
  omega

theorem Connected.fits (hconnected : Connected h φ) :
    ∑ k : D.Signer, (Participant.Phase.sent (φ (some k)) - Coordinator.Phase.taken (φ none) k) ≤
      capacity := by
  calc _ ≤ ∑ _k : D.Signer, 1 := Finset.sum_le_sum fun k _ => by
        have hsent := hconnected.sent_le k
        omega
    _ = D.signers.card := by rw [Finset.sum_const, Finset.card_univ, Fintype.card_coe,
        Nat.nsmul_eq_mul, Nat.mul_one]
    _ ≤ capacity := D.signers_fit

theorem Connected.arrives (hconnected : Connected h φ) (harrives : h.Arrives capacity h') :
    Connected h' φ :=
  ⟨hconnected.numbered.arrives hconnected.fits harrives, hconnected.waits⟩

theorem Connected.answers (hconnected : Connected h φ) {i : D.Party} {q : Query}
    {leads : q.Answer → D.Phase i → Prop} {answer : q.Answer}
    (hnext : (D.role i).next (φ i) = some ⟨q, leads⟩) (hanswers : Answers D h i q answer h') :
    ∃ φ', leads answer φ' ∧ Connected h' (Function.update φ i φ') ∧
      ∑ j, D.rank j (Function.update φ i φ' j) + 1 ≤ ∑ j, D.rank j (φ j) := by
  obtain ⟨hnum, hwaits⟩ := hconnected
  cases i with
  | none =>
    obtain ⟨φ', hleads, hnum', hwaits', hrank⟩ :=
      answers_coordinator hnum hwaits (fun k => Participant.Phase.sent_le (φ (some k))) hnext hanswers
    refine ⟨φ', hleads, ⟨?_, ?_⟩, Environment.sum_update_add_le D.rank (m := 0) hrank⟩
    · rw [participants_update_none, participants_update_none, Function.update_self]
      exact hnum'
    · rw [Function.update_self]
      exact hwaits'
  | some k =>
    obtain ⟨φ', hleads, hnum', hrank⟩ := answers_participant hnum rfl rfl hnext hanswers
    have hnone : Function.update φ (some k) φ' none = φ none :=
      Function.update_of_ne (Option.some_ne_none k).symm _ _
    refine ⟨φ', hleads, ⟨?_, ?_⟩, Environment.sum_update_add_le D.rank (m := 0) hrank⟩
    · rw [participants_update_some, participants_update_some, hnone]
      exact hnum'
    · rw [hnone]
      exact hwaits

theorem keeps : (connections D).Keeps D.role (fun _ => true) Connected
    fun φ => ∑ i, D.rank i (φ i) where
  idles hconnected harrives := hconnected.arrives harrives
  works hconnected _ harrives := hconnected.arrives harrives
  answers hconnected hnext hanswers := hconnected.answers hnext hanswers

end Connected

section Progress

variable {h : Hub D.Signer Bytes} {φ : (i : D.Party) → D.Phase i}

def NoneRefused (φ : (i : D.Party) → D.Phase i) : Prop :=
  ∀ k : D.Signer, φ (some k) ≠ Participant.Phase.refused

/-- A participant that is not done, and does not wait in vain, can go on. -/
theorem exists_answer_participant (hconnected : Connected h φ) {k : D.Signer}
    (hfinished : φ (some k) ≠ Participant.Phase.finished)
    (hrefused : φ (some k) ≠ Participant.Phase.refused)
    (hwaiting : φ (some k) = Participant.Phase.waiting →
      Coordinator.Phase.posted (φ none) k ≠ 0) :
    ∃ (q : Query) (leads : q.Answer → Participant.Phase → Prop) (answer : q.Answer),
      (D.participantRole k).next (φ (some k)) = some ⟨q, leads⟩ ∧
      (connections D).CanAnswer h (some k) q answer ∧ ∀ φ', leads answer φ' → φ' ≠ .refused := by
  cases hφ : (show Participant.Phase from φ (some k)) with
  | finished => exact absurd hφ hfinished
  | refused => exact absurd hφ hrefused
  | committing =>
    refine ⟨.socketSend (D.server k) (D.uplink k 0), _, (), congrArg _ hφ, ⟨h, _, .inl rfl, .send⟩, ?_⟩
    rintro _ rfl
    decide
  | asking =>
    refine ⟨.eprintln (question D.message), _, (), congrArg _ hφ, ⟨h, _, .inl rfl, .eprintln⟩, ?_⟩
    rintro _ rfl
    decide
  | sharing =>
    refine ⟨.socketSend (D.server k) (D.uplink k 1), _, (), congrArg _ hφ, ⟨h, _, .inl rfl, .send⟩, ?_⟩
    rintro _ rfl
    decide
  | confirming =>
    -- of all that the user can type, this line confirms
    refine ⟨.readLine, _, some "y", congrArg _ hφ, ⟨h, _, .inl rfl, .readLine⟩, ?_⟩
    rintro _ rfl
    rw [if_pos (by decide)]
    decide
  | waiting =>
    have hlt : Participant.Phase.fetched (φ (some k)) < Coordinator.Phase.posted (φ none) k := by
      rw [show Participant.Phase.fetched (φ (some k)) = 0 from congrArg Participant.Phase.fetched hφ]
      exact Nat.pos_of_ne_zero (hwaiting hφ)
    obtain ⟨data, h', hfetches⟩ := hconnected.numbered.exists_fetches hlt
    refine ⟨.socketRecv, _, some (D.server k, data), congrArg _ hφ, ⟨h, h', .inl rfl, .fetch hfetches⟩,
      ?_⟩
    rintro _ ⟨-, rfl⟩
    decide

theorem exists_answer_coordinator (hconnected : Connected h φ)
    (hfinished : φ none ≠ Coordinator.Phase.finished)
    (hreceiving : ∀ round got, φ none = Coordinator.Phase.receiving round got →
      ∃ k : D.Signer, Coordinator.Phase.taken (φ none) k < Participant.Phase.sent (φ (some k))) :
    ∃ (q : Query) (leads : q.Answer → Coordinator.Phase D.Signer → Prop) (answer : q.Answer),
      D.coordinatorRole.next (φ none) = some ⟨q, leads⟩ ∧
      (connections D).CanAnswer h none q answer := by
  cases hφ : (show Coordinator.Phase D.Signer from φ none) with
  | finished => exact absurd hφ hfinished
  | sending k left =>
    exact ⟨.socketSend (D.endpoint k) (D.downlink k 0), _, (), congrArg _ hφ, h, _, .inl rfl, .post⟩
  | receiving round got =>
    obtain ⟨k, hlt⟩ := hreceiving round got hφ
    obtain ⟨h₁, im, h₂, harrives, htakes⟩ :=
      hconnected.numbered.exists_takes hlt hconnected.fits
    exact ⟨.socketRecv, _, some (D.endpoint im.1, im.2), congrArg _ hφ, h₁, h₂, harrives, .recv htakes⟩

/-- A coordinator that waits for a signer whose message was sent has not taken it yet. -/
theorem exists_sent (hconnected : Connected h φ) {round : ℕ} {got : List D.Signer}
    (hφ : φ none = Coordinator.Phase.receiving round got)
    (hidle : ∀ k : D.Signer, φ (some k) = Participant.Phase.finished ∨
      (φ (some k) = Participant.Phase.waiting ∧ Coordinator.Phase.posted (φ none) k = 0)) :
    ∃ k : D.Signer, Coordinator.Phase.taken (φ none) k < Participant.Phase.sent (φ (some k)) := by
  have hwaits := hconnected.waits
  rw [hφ] at hwaits
  obtain ⟨hround, hnodup, hless⟩ := hwaits
  obtain ⟨k, hk⟩ : ∃ k, k ∉ got := by
    by_contra hall
    exact Nat.ne_of_lt hless ((length_eq_iff hnodup).mpr fun k => not_not.mp fun hk => hall ⟨k, hk⟩)
  have htaken : Coordinator.Phase.taken (φ none) k = round := by
    rw [hφ]
    exact Coordinator.Phase.taken_of_notMem hk
  have hposted : Coordinator.Phase.posted (φ none) k = round := by
    rw [hφ]
    rfl
  refine ⟨k, ?_⟩
  -- in the first round no package is out, so that the signer has sent its commitments at least
  rcases hidle k with hdone | ⟨hwaiting, hnone⟩
  · have hsent : Participant.Phase.sent (φ (some k)) = 2 := congrArg Participant.Phase.sent hdone
    omega
  · have hsent : Participant.Phase.sent (φ (some k)) = 1 := congrArg Participant.Phase.sent hwaiting
    omega

theorem progress : (connections D).Progress D.role (fun _ => true) Connected NoneRefused
    fun φ => ∀ i, (D.role i).next (φ i) = none := by
  intro h φ hconnected hnone hgoal
  by_cases hidle : ∀ k : D.Signer, φ (some k) = Participant.Phase.finished ∨
      (φ (some k) = Participant.Phase.waiting ∧ Coordinator.Phase.posted (φ none) k = 0)
  · -- all participants are done or wait for the package, so that it is the coordinator's turn
    have hfinished : φ none ≠ Coordinator.Phase.finished := by
      intro hdone
      refine hgoal fun i => ?_
      cases i with
      | none => exact congrArg D.coordinatorRole.next hdone
      | some k =>
        rcases hidle k with hk | ⟨-, hposted⟩
        · exact congrArg (D.participantRole k).next hk
        · rw [hdone] at hposted
          exact absurd hposted Nat.one_ne_zero
    obtain ⟨q, leads, answer, hnext, hanswer⟩ := exists_answer_coordinator hconnected hfinished
      fun round got hφ => exists_sent hconnected hφ hidle
    refine ⟨none, q, leads, answer, hnext, hanswer, rfl, fun φ' _ k => ?_⟩
    rw [Function.update_of_ne (Option.some_ne_none k)]
    exact hnone k
  · obtain ⟨k, hk⟩ := not_forall.mp hidle
    obtain ⟨hfinished, hwaiting⟩ := not_or.mp hk
    obtain ⟨q, leads, answer, hnext, hanswer, hleads⟩ := exists_answer_participant hconnected
      hfinished (hnone k) fun hφ hposted => hwaiting ⟨hφ, hposted⟩
    refine ⟨some k, q, leads, answer, hnext, hanswer, rfl, fun φ' hφ' j => ?_⟩
    by_cases hj : j = k
    · subst hj
      rw [Function.update_self]
      exact hleads φ' hφ'
    · rw [Function.update_of_ne fun heq => hj (Option.some.inj heq)]
      exact hnone j

end Progress

def Setup.Unrefused (s : D.State) : Prop :=
  ∀ (k : D.Signer) (r : Outcome Failure Unit × Endpoint), s.2 (some k) = .done r → r.1 = .ok ()

/-- The parts of the signature: the message with the commitments that every signer makes, and the
shares that the signers make for this package with the nonces of these commitments. -/
structure Setup.Aggregates (D : Setup C) (package : C.Package)
    (shares : Map C.Identifier C.SignatureShare) (signature : C.Signature) : Prop where
  message : package.message = D.message
  commitments : ∀ k commitments, package.signingCommitments.lookup k = some commitments ↔
    k ∈ D.signers ∧ (D.commit k 0).2 = commitments
  signed : ∀ k ∈ D.signers, ∃ share,
    C.signWith D.randomizer package (D.commit k 0).1 (D.keyPackage k) = some share
  collected : ∀ k share, shares.lookup k = some share ↔ k ∈ D.signers ∧
    C.signWith D.randomizer package (D.commit k 0).1 (D.keyPackage k) = some share
  aggregated : C.aggregateWith D.randomizer package shares D.publicKeyPackage = some signature

section Session

variable {Matches : C.SigningNonces → C.SigningCommitments → Prop}
  {Verifies : Option C.Randomizer → Bytes → C.Signature → Prop}

theorem aggregates_signature (hcomplete : D.Complete Matches Verifies) {signature : C.Signature}
    (hsignature : D.signature = some signature) :
    D.Aggregates D.package (D.collect D.share) signature where
  message := rfl
  commitments k commitments := by
    rw [package, lookup_collect_iff, Option.some.injEq]
    rfl
  signed k hk := exists_share hcomplete hk
  collected k share := lookup_collect_iff
  aggregated := hsignature

theorem allPlay_programs (hcomplete : D.Complete Matches Verifies) :
    Environment.AllPlay D.role D.Returns D.programs D.start := by
  intro i
  cases i with
  | none => exact Coordinator.plays_coordinator hcomplete
  | some k => exact Participant.plays_participant hcomplete k

theorem final_of_returns (i : D.Party) (r : D.Result i) (φ : D.Phase i) (h : D.Returns i r φ) :
    (D.role i).next φ = none := by
  cases i with
  | none =>
    obtain ⟨rfl, -⟩ := h
    rfl
  | some k =>
    rcases h with ⟨rfl, -⟩ | ⟨rfl, -⟩
    · rfl
    · rfl

theorem sum_rank_start : ∑ i, D.rank i (D.start i) = 8 * D.signers.card := by
  rw [Fintype.sum_option]
  change (2 * D.signers.card + (D.signers.card - 0)) + ∑ _k : D.Signer, 5 = _
  rw [Finset.sum_const, Finset.card_univ, Fintype.card_coe, Nat.nsmul_eq_mul]
  omega

/-- The participants of a coordinator that is done are done. -/
theorem Connected.finished {h : Hub D.Signer Bytes} {φ : (i : D.Party) → D.Phase i}
    (hconnected : Connected h φ) (hφ : φ none = Coordinator.Phase.finished) (k : D.Signer) :
    φ (some k) = Participant.Phase.finished := by
  have hsent : 2 ≤ Participant.Phase.sent (φ (some k)) := by
    have hle := hconnected.numbered.taken_le k
    rwa [hφ] at hle
  -- the coordinator has taken two messages of it, and only this phase tells of two
  cases hk : (show Participant.Phase from φ (some k)) with
  | finished => exact hk
  | _ =>
    have hless : Participant.Phase.sent (φ (some k)) ≤ 1 := by
      rw [show Participant.Phase.sent (φ (some k)) = Participant.Phase.sent _ from
        congrArg Participant.Phase.sent hk]
      decide
    omega

section Unrefused

variable {s : D.State} {φ : (i : D.Party) → D.Phase i}
  (hplay : Environment.AllPlay D.role D.Returns s.2 φ)
include hplay

theorem exists_ok_of_finished {k : D.Signer} (hφ : φ (some k) = Participant.Phase.finished) :
    ∃ r : Outcome Failure Unit × Endpoint, s.2 (some k) = .done r ∧ r.1 = .ok () := by
  obtain ⟨r, hr, hreturns⟩ := (hplay (some k)).exists_done
    (show (D.participantRole k).next (φ (some k)) = none by rw [hφ]; rfl)
  rcases hreturns with ⟨-, hok⟩ | ⟨hrefused, -⟩
  · exact ⟨r, hr, hok⟩
  · rw [hφ] at hrefused
    cases hrefused

theorem noneRefused_of_unrefused (h : Unrefused s) : NoneRefused φ := by
  intro k hk
  obtain ⟨r, hr, hreturns⟩ := (hplay (some k)).exists_done
    (show (D.participantRole k).next (φ (some k)) = none by rw [hk]; rfl)
  rcases hreturns with ⟨hfinished, -⟩ | ⟨-, e, herr, -⟩
  · rw [hk] at hfinished
    cases hfinished
  · have hok := h k r hr
    rw [herr] at hok
    cases hok

theorem unrefused_of_noneRefused (h : NoneRefused φ) : Unrefused s := by
  intro k r hr
  rcases Environment.AllPlay.returned hplay hr with ⟨-, hok⟩ | ⟨hrefused, -⟩
  · exact hok
  · exact absurd hrefused (h k)

end Unrefused

/-- The coordinator and the participants in any interleaving, with users that type anything. The
coordinator returns the signature only when every participant has returned without an error, the
channel never overflows, and every run is bounded and can go on until all have returned unless some
user has refused. -/
theorem signing_completes (hcomplete : D.Complete Matches Verifies) {ms : List (Move World D.Party)}
    {s : D.State} (hrun : D.network.Run ms s) :
    (∀ r : Outcome Failure (List C.Signature) × Endpoints C, s.2 none = .done r →
      (∃ package shares signature, D.Aggregates package shares signature ∧ r.1 = .ok [signature] ∧
        Verifies D.randomizer D.message signature) ∧
      ∀ k : D.Signer, ∃ r' : Outcome Failure Unit × Endpoint, s.2 (some k) = .done r' ∧
        r'.1 = .ok ()) ∧
    (∀ (k : D.Signer) (r : Outcome Failure Unit × Endpoint), s.2 (some k) = .done r →
      r.1 = .ok () ∨ ∃ e, r.1 = .err e ∧ Participant.Refused e) ∧
    s.1.listening = true ∧
    ms.countP (Move.counts fun _ => true) ≤ 8 * D.signers.card ∧
    (Unrefused s → ∃ ms' s', D.network.Run (ms ++ ms') s' ∧ Unrefused s' ∧
      ∀ i, ∃ r, s'.2 i = .done r) := by
  obtain ⟨φ, hconnected, hplay, hrank⟩ := keeps.run connected_start (allPlay_programs hcomplete) hrun
  refine ⟨fun r hr => ?_, fun k r hr => ?_, hconnected.numbered.listening, ?_, fun hunrefused => ?_⟩
  · obtain ⟨hφ, signature, hsignature, hok⟩ := Environment.AllPlay.returned hplay hr
    refine ⟨⟨D.package, D.collect D.share, signature, aggregates_signature hcomplete hsignature, hok,
      ?_⟩, fun k => ?_⟩
    · obtain ⟨signature', hsignature', hverifies⟩ := exists_signature hcomplete
      rwa [← Option.some.inj (hsignature.symm.trans hsignature')] at hverifies
    · exact exists_ok_of_finished hplay (hconnected.finished hφ k)
  · rcases Environment.AllPlay.returned hplay hr with ⟨-, hok⟩ | ⟨-, herr⟩
    · exact .inl hok
    · exact .inr herr
  · rw [sum_rank_start] at hrank
    exact Nat.le_trans (Nat.le_add_left _ _) hrank
  · obtain ⟨ms', s', φ', hrun', -, hplay', hnone, hgoal⟩ := keeps.exists_run progress final_of_returns
      hrun hconnected hplay (noneRefused_of_unrefused hplay hunrefused)
    refine ⟨ms', s', hrun', unrefused_of_noneRefused hplay' hnone, fun i => ?_⟩
    obtain ⟨r, hr, -⟩ := (hplay' i).exists_done (hgoal i)
    exact ⟨r, hr⟩

end Session

def sampleCodec : MessageCodec (sampleSuite .ed25519Sha512) where
  toVec
    | .identifiedCommitments identifier commitments => [0, UInt8.ofFin identifier, commitments]
    | .signatureShare share => [1, share]
    | .signingPackageAndRandomizer package none => 2 :: packageBytes package
    | .signingPackageAndRandomizer package (some randomizer) => 3 :: randomizer :: packageBytes package
  fromSlice
    | [0, identifier, commitments] => some (.identifiedCommitments identifier.toFin commitments)
    | [1, share] => some (.signatureShare share)
    | 2 :: rest => (packageOfBytes rest).map fun package => .signingPackageAndRandomizer package none
    | 3 :: randomizer :: rest => (packageOfBytes rest).map fun package =>
        .signingPackageAndRandomizer package (some randomizer)
    | _ => none

theorem sampleCodec_lawful (message : Message (sampleSuite .ed25519Sha512)) :
    sampleCodec.fromSlice (sampleCodec.toVec message) = some message := by
  cases message with
  | identifiedCommitments identifier commitments => rfl
  | signatureShare share => rfl
  | signingPackageAndRandomizer package randomizer =>
    cases randomizer with
    | none => exact congrArg (Option.map _) (packageOfBytes_packageBytes package)
    | some randomizer => exact congrArg (Option.map _) (packageOfBytes_packageBytes package)

/-- The commitment to a nonce is greater by 100. -/
def sampleParties : Setup (sampleSuite .ed25519Sha512) where
  codec := sampleCodec
  publicKeyPackage := ({Http.sampleIdentifier 1, Http.sampleIdentifier 2} : Finset (Fin 256))
  message := [5]
  randomizer := none
  signers := ({Http.sampleIdentifier 1, Http.sampleIdentifier 2} : Finset (Fin 256))
  keyPackage k := k
  commit k _ := (UInt8.ofFin k, (UInt8.ofFin k + 100 : UInt8))
  endpoint k := Fin.val k
  server _ := 0
  codec_lawful := sampleCodec_lawful
  signers_nonempty := Finset.insert_nonempty _ _
  signers_fit := by decide
  identifier_keyPackage _ _ := rfl
  endpoint_injective := Fin.val_injective
  ciphersuite h := by cases h

theorem sampleParties_complete : sampleParties.Complete Http.sampleMatches Http.sampleVerifies where
  commit _ _ := rfl
  sign randomizer _ _ _ _ _ nonces _ _ _ := by
    cases randomizer <;> exact ⟨_, rfl⟩
  aggregate randomizer _ _ _ _ _ := by
    cases randomizer <;> exact ⟨_, rfl, rfl⟩

theorem signing_completes_sample : ∃ ms s, sampleParties.network.Run ms s ∧
    ∃ r : Outcome Failure (List (Bytes × Option UInt8)) × _, s.2 none = .done r ∧
      r.1 = .ok [([5], none)] := by
  obtain ⟨-, -, -, -, hcontinue⟩ := signing_completes sampleParties_complete (.start rfl)
  obtain ⟨ms, s, hrun, -, hdone⟩ := hcontinue fun k r hr => by cases hr
  obtain ⟨r, hr⟩ := hdone none
  refine ⟨_, s, hrun, r, hr, ?_⟩
  obtain ⟨⟨-, -, signature, -, hok, hverifies⟩, -⟩ :=
    (signing_completes sampleParties_complete hrun).1 r hr
  rw [hok, hverifies]
  rfl

end FrostTools.Signing.Socket
