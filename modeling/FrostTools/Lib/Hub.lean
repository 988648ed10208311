import Mathlib.Algebra.BigOperators.Group.Finset.Basic
import Mathlib.Algebra.Order.BigOperators.Group.Finset
import Mathlib.Data.List.Range

/-!
# Parties connected to a hub

Every party has a link to the hub and a link back, each of which keeps its messages in order. What
arrives at the hub goes to one inbox of bounded capacity, in any order of the parties.
-/

namespace FrostTools

def stretch {M : Type} (message : ℕ → M) (a b : ℕ) : List M := (List.range' a (b - a)).map message

section Stretch

variable {M : Type} {message : ℕ → M} {a b : ℕ}

@[simp] theorem stretch_self : stretch message a a = [] := by
  rw [stretch, Nat.sub_self]
  rfl

theorem stretch_snoc (h : a ≤ b) : stretch message a b ++ [message b] = stretch message a (b + 1) := by
  have hlast : b + 1 - a = b - a + 1 := by omega
  have hindex : a + 1 * (b - a) = b := by omega
  rw [stretch, stretch, hlast, List.range'_concat, List.map_append, hindex]
  rfl

theorem stretch_eq_cons {m : M} {l : List M} (h : stretch message a b = m :: l) :
    a < b ∧ m = message a ∧ l = stretch message (a + 1) b := by
  have hlt : a < b := by
    by_contra hle
    rw [stretch, Nat.sub_eq_zero_of_le (by omega)] at h
    cases h
  have hlength : b - a = b - (a + 1) + 1 := by omega
  rw [stretch, hlength, List.range'_succ, List.map_cons] at h
  obtain ⟨rfl, rfl⟩ := List.cons.inj h
  exact ⟨hlt, rfl, rfl⟩

theorem length_stretch : (stretch message a b).length = b - a := by
  rw [stretch, List.length_map, List.length_range']

theorem stretch_ne_nil (h : a < b) : stretch message a b ≠ [] := by
  intro hnil
  have hlength := congrArg List.length hnil
  rw [length_stretch, List.length_nil] at hlength
  omega

end Stretch

section Family

variable {ι M : Type} [DecidableEq ι] {message : ι → ℕ → M} {l : ι → List M} {a b : ι → ℕ} {i : ι}
  (hl : ∀ j, l j = stretch (message j) (a j) (b j))
include hl

theorem stretch_update_snoc (h : a i ≤ b i) (j : ι) :
    Function.update l i (l i ++ [message i (b i)]) j =
      stretch (message j) (a j) (Function.update b i (b i + 1) j) := by
  by_cases hj : j = i
  · subst hj
    rw [Function.update_self, Function.update_self, hl, stretch_snoc h]
  · rw [Function.update_of_ne hj, Function.update_of_ne hj, hl]

theorem stretch_update_tail {m : M} {rest : List M} (h : l i = m :: rest) :
    a i < b i ∧ m = message i (a i) ∧ ∀ j, Function.update l i rest j =
      stretch (message j) (Function.update a i (a i + 1) j) (b j) := by
  rw [hl] at h
  obtain ⟨hlt, hm, hrest⟩ := stretch_eq_cons h
  refine ⟨hlt, hm, fun j => ?_⟩
  by_cases hj : j = i
  · subst hj
    rw [Function.update_self, Function.update_self, hrest]
  · rw [Function.update_of_ne hj, Function.update_of_ne hj, hl]

end Family

structure Hub (ι M : Type) where
  uplink : ι → List M
  /-- What has arrived, with the parties it comes from. -/
  inbox : List (ι × M)
  /-- Whether the hub still takes in what arrives. -/
  listening : Bool
  /-- What is on its way to each party. -/
  downlink : ι → List M

namespace Hub

variable {ι M : Type} [DecidableEq ι]

def new : Hub ι M := ⟨fun _ => [], [], true, fun _ => []⟩

def send (h : Hub ι M) (i : ι) (m : M) : Hub ι M :=
  { h with uplink := Function.update h.uplink i (h.uplink i ++ [m]) }

def post (h : Hub ι M) (i : ι) (m : M) : Hub ι M :=
  { h with downlink := Function.update h.downlink i (h.downlink i ++ [m]) }

/-- A message arrives. A hub stops listening when it has no place for a message. -/
inductive Arrives (capacity : ℕ) (h : Hub ι M) : Hub ι M → Prop
  | stored {i : ι} {m : M} {rest : List M} : h.uplink i = m :: rest → h.listening = true →
    h.inbox.length < capacity →
    Arrives capacity h
      { h with uplink := Function.update h.uplink i rest, inbox := h.inbox ++ [(i, m)] }
  | overflow {i : ι} {m : M} {rest : List M} : h.uplink i = m :: rest → h.listening = true →
    capacity ≤ h.inbox.length →
    Arrives capacity h { h with uplink := Function.update h.uplink i rest, listening := false }

inductive Takes (h : Hub ι M) : ι × M → Hub ι M → Prop
  | first {im : ι × M} {rest : List (ι × M)} : h.inbox = im :: rest →
    Takes h im { h with inbox := rest }

inductive Fetches (h : Hub ι M) (i : ι) : M → Hub ι M → Prop
  | first {m : M} {rest : List M} : h.downlink i = m :: rest →
    Fetches h i m { h with downlink := Function.update h.downlink i rest }

def inFlight (h : Hub ι M) (i : ι) : List M :=
  (h.inbox.filter fun im => im.1 = i).map Prod.snd ++ h.uplink i

@[simp] theorem downlink_post (h : Hub ι M) (i : ι) (m : M) :
    (h.post i m).downlink = Function.update h.downlink i (h.downlink i ++ [m]) := rfl

theorem inFlight_send (h : Hub ι M) (i : ι) (m : M) :
    (h.send i m).inFlight = Function.update h.inFlight i (h.inFlight i ++ [m]) := by
  funext j
  by_cases hj : j = i
  · subst hj
    simp only [inFlight, send, Function.update_self, List.append_assoc]
  · simp only [inFlight, send, Function.update_of_ne hj]

theorem inFlight_stored {h : Hub ι M} {i : ι} {m : M} {rest : List M} (hlink : h.uplink i = m :: rest) :
    inFlight { h with uplink := Function.update h.uplink i rest, inbox := h.inbox ++ [(i, m)] } =
      h.inFlight := by
  funext j
  by_cases hj : j = i
  · subst hj
    simp [inFlight, List.filter_append, hlink]
  · simp [inFlight, List.filter_append, Function.update_of_ne hj, Ne.symm hj]

theorem inFlight_takes {h h' : Hub ι M} {i : ι} {m : M} (htakes : h.Takes (i, m) h') :
    ∃ rest, h.inFlight i = m :: rest ∧ h'.inFlight = Function.update h.inFlight i rest := by
  cases htakes with
  | @first rest hinbox =>
    refine ⟨inFlight { h with inbox := rest } i, by simp [inFlight, hinbox], ?_⟩
    funext j
    by_cases hj : j = i
    · subst hj
      simp [inFlight]
    · simp [inFlight, hinbox, Function.update_of_ne hj, Ne.symm hj]

/-- The inbox and one link hold no more than what is in flight. -/
theorem length_inbox_add_le [Fintype ι] (h : Hub ι M) (i : ι) :
    h.inbox.length + (h.uplink i).length ≤ ∑ j, (h.inFlight j).length := by
  have hinbox : h.inbox.length = ∑ j, (h.inbox.filter fun im => im.1 = j).length := by
    have hcount := Multiset.sum_count_eq_card (s := Finset.univ)
      (m := ((h.inbox.map Prod.fst : List ι) : Multiset ι)) fun j _ => Finset.mem_univ j
    rw [Multiset.coe_card, List.length_map] at hcount
    rw [← hcount]
    refine Finset.sum_congr rfl fun j _ => ?_
    rw [Multiset.coe_count, List.count, List.countP_map, List.countP_eq_length_filter]
    rfl
  have hlink : (h.uplink i).length ≤ ∑ j, (h.uplink j).length :=
    Finset.single_le_sum (f := fun j => (h.uplink j).length) (fun _ _ => Nat.zero_le _)
      (Finset.mem_univ i)
  simp only [inFlight, List.length_append, List.length_map, Finset.sum_add_distrib]
  omega

/-- What is in flight are the messages with these numbers. -/
structure Numbered (h : Hub ι M) (up down : ι → ℕ → M) (taken sent fetched posted : ι → ℕ) : Prop where
  taken_le : ∀ i, taken i ≤ sent i
  inFlight : ∀ i, h.inFlight i = stretch (up i) (taken i) (sent i)
  fetched_le : ∀ i, fetched i ≤ posted i
  downlink : ∀ i, h.downlink i = stretch (down i) (fetched i) (posted i)
  listening : h.listening = true

variable {h h' : Hub ι M} {up down : ι → ℕ → M} {taken sent fetched posted : ι → ℕ} {capacity : ℕ}

theorem numbered_new : (new : Hub ι M).Numbered up down (fun _ => 0) (fun _ => 0) (fun _ => 0)
    (fun _ => 0) where
  taken_le _ := Nat.le_refl _
  inFlight _ := stretch_self.symm
  fetched_le _ := Nat.le_refl _
  downlink _ := stretch_self.symm
  listening := rfl

namespace Numbered

variable (hnum : h.Numbered up down taken sent fetched posted)
include hnum

theorem send {i : ι} : (h.send i (up i (sent i))).Numbered up down taken
    (Function.update sent i (sent i + 1)) fetched posted := by
  refine ⟨?_, fun j => ?_, hnum.fetched_le, hnum.downlink, hnum.listening⟩
  · exact (Function.forall_update_iff sent fun j n => taken j ≤ n).mpr
      ⟨Nat.le_succ_of_le (hnum.taken_le i), fun j _ => hnum.taken_le j⟩
  · rw [inFlight_send]
    exact stretch_update_snoc hnum.inFlight (hnum.taken_le i) j

theorem post {i : ι} : (h.post i (down i (posted i))).Numbered up down taken sent fetched
    (Function.update posted i (posted i + 1)) := by
  refine ⟨hnum.taken_le, hnum.inFlight, ?_, fun j => ?_, hnum.listening⟩
  · exact (Function.forall_update_iff posted fun j n => fetched j ≤ n).mpr
      ⟨Nat.le_succ_of_le (hnum.fetched_le i), fun j _ => hnum.fetched_le j⟩
  · rw [downlink_post]
    exact stretch_update_snoc hnum.downlink (hnum.fetched_le i) j

theorem takes {i : ι} {m : M} (htakes : h.Takes (i, m) h') : taken i < sent i ∧ m = up i (taken i) ∧
    h'.Numbered up down (Function.update taken i (taken i + 1)) sent fetched posted := by
  obtain ⟨rest, hfirst, hrest⟩ := inFlight_takes htakes
  obtain ⟨hlt, rfl, hstretch⟩ := stretch_update_tail hnum.inFlight hfirst
  have hframe : h'.downlink = h.downlink ∧ h'.listening = h.listening := by
    cases htakes with
    | first _ => exact ⟨rfl, rfl⟩
  refine ⟨hlt, rfl, ?_, fun j => ?_, hnum.fetched_le, fun j => ?_, ?_⟩
  · exact (Function.forall_update_iff taken fun j n => n ≤ sent j).mpr
      ⟨hlt, fun j _ => hnum.taken_le j⟩
  · rw [hrest]
    exact hstretch j
  · rw [hframe.1, hnum.downlink]
  · rw [hframe.2, hnum.listening]

theorem fetches {i : ι} {m : M} (hfetches : h.Fetches i m h') : fetched i < posted i ∧
    m = down i (fetched i) ∧
    h'.Numbered up down taken sent (Function.update fetched i (fetched i + 1)) posted := by
  cases hfetches with
  | first hlink =>
    obtain ⟨hlt, rfl, hstretch⟩ := stretch_update_tail hnum.downlink hlink
    refine ⟨hlt, rfl, hnum.taken_le, hnum.inFlight, ?_, hstretch, hnum.listening⟩
    exact (Function.forall_update_iff fetched fun j n => n ≤ posted j).mpr
      ⟨hlt, fun j _ => hnum.fetched_le j⟩

theorem length_inbox_add_le [Fintype ι] (i : ι) :
    h.inbox.length + (h.uplink i).length ≤ ∑ j, (sent j - taken j) := by
  refine (h.length_inbox_add_le i).trans_eq (Finset.sum_congr rfl fun j _ => ?_)
  rw [hnum.inFlight, length_stretch]

/-- While there is a place for all messages, nothing is lost. -/
theorem arrives [Fintype ι] (hcapacity : ∑ j, (sent j - taken j) ≤ capacity)
    (harrives : h.Arrives capacity h') : h'.Numbered up down taken sent fetched posted := by
  cases harrives with
  | stored hlink =>
    refine ⟨hnum.taken_le, fun j => ?_, hnum.fetched_le, hnum.downlink, hnum.listening⟩
    rw [inFlight_stored hlink, hnum.inFlight]
  | @overflow i m rest hlink _ hfull =>
    -- the full inbox and the message at the head of the link would be more than is in flight
    have hle := hnum.length_inbox_add_le i
    rw [hlink, List.length_cons] at hle
    omega

/-- What is in flight can be taken, possibly after it has arrived. -/
theorem exists_takes [Fintype ι] {i : ι} (hlt : taken i < sent i)
    (hcapacity : ∑ j, (sent j - taken j) ≤ capacity) :
    ∃ h₁ im h₂, (h₁ = h ∨ h.Arrives capacity h₁) ∧ h₁.Takes im h₂ := by
  cases hinbox : h.inbox with
  | cons im rest => exact ⟨h, im, _, .inl rfl, .first hinbox⟩
  | nil =>
    have hflight : h.inFlight i = h.uplink i := by
      rw [Hub.inFlight, hinbox]
      rfl
    cases hlink : h.uplink i with
    | nil =>
      rw [hnum.inFlight, hlink] at hflight
      exact absurd hflight (stretch_ne_nil hlt)
    | cons m rest =>
      have hle := hnum.length_inbox_add_le i
      rw [hlink, List.length_cons] at hle
      have hstored : h.inbox ++ [(i, m)] = (i, m) :: [] := by
        rw [hinbox]
        rfl
      exact ⟨_, (i, m), _, .inr (.stored hlink hnum.listening (by omega)), .first hstored⟩

theorem exists_fetches {i : ι} (hlt : fetched i < posted i) : ∃ m h', h.Fetches i m h' := by
  cases hlink : h.downlink i with
  | nil =>
    rw [hnum.downlink] at hlink
    exact absurd hlink (stretch_ne_nil hlt)
  | cons m rest => exact ⟨m, _, .first hlink⟩

end Numbered
end Hub
end FrostTools
