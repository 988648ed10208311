import FrostTools.Lib.Role
import FrostTools.Lib.TransitionSystem
import Mathlib.Algebra.BigOperators.Group.Finset.Basic
import Mathlib.Algebra.Order.BigOperators.Group.Finset

/-!
# Parties that share an environment

Every party runs a program, and an environment answers their queries in any order. An invariant
of the environment and the phases of the parties carries over to the programs that play the roles.
-/

namespace FrostTools

structure Environment (F : Interface) (ι E : Type) where
  idles : E → E → Prop
  /-- Works on the query of a party without answering it. -/
  works : E → ι → F.Query → E → Prop
  answers : E → ι → (q : F.Query) → F.Answer q → E → Prop

inductive Move (F : Interface) (ι : Type) where
  | idles
  | works (i : ι)
  | answers (i : ι) (e : F.Event)

/-- Whether a move answers a query, with an answer that counts. -/
def Move.counts {F : Interface} {ι : Type} (productive : F.Event → Bool) : Move F ι → Bool
  | .answers _ e => productive e
  | _ => false

namespace Environment

variable {F : Interface} {ι E : Type} {α Φ : ι → Type} [DecidableEq ι] (env : Environment F ι E)

inductive Step : E × ((i : ι) → Program F (α i)) → Move F ι →
    E × ((i : ι) → Program F (α i)) → Prop
  | idles {e e' : E} {p : (i : ι) → Program F (α i)} : env.idles e e' → Step (e, p) .idles (e', p)
  | works {e e' : E} {p : (i : ι) → Program F (α i)} {i : ι} {q : F.Query}
    {k : F.Answer q → Program F (α i)} : (p i).next = some ⟨q, k⟩ → env.works e i q e' →
    Step (e, p) (.works i) (e', p)
  | answers {e e' : E} {p : (i : ι) → Program F (α i)} {i : ι} {q : F.Query}
    {k : F.Answer q → Program F (α i)} {answer : F.Answer q} : (p i).next = some ⟨q, k⟩ →
    env.answers e i q answer e' →
    Step (e, p) (.answers i ⟨q, answer⟩) (e', Function.update p i (k answer))

/-- An answer to a query that can be given, possibly after the environment has worked on it. -/
def CanAnswer (e : E) (i : ι) (q : F.Query) (answer : F.Answer q) : Prop :=
  ∃ e₁ e₂, (e₁ = e ∨ env.works e i q e₁) ∧ env.answers e₁ i q answer e₂

def system (start : E) (programs : (i : ι) → Program F (α i)) :
    TransitionSystem (E × ((i : ι) → Program F (α i))) (Move F ι) where
  init s := s = (start, programs)
  step := env.Step

def restrict (may : ι → F.Event → Prop) : Environment F ι E :=
  { env with answers := fun e i q answer e' => env.answers e i q answer e' ∧ may i ⟨q, answer⟩ }

variable {env} in
theorem run_restrict {may : ι → F.Event → Prop} {start : E} {programs : (i : ι) → Program F (α i)}
    {ms : List (Move F ι)} {s : E × ((i : ι) → Program F (α i))}
    (h : (env.system start programs).Run ms s)
    (hmay : ∀ i event, Move.answers i event ∈ ms → may i event) :
    ((env.restrict may).system start programs).Run ms s := by
  induction h with
  | start hinit => exact .start hinit
  | @snoc ms s s' m _ hstep ih =>
    refine (ih fun i event hmem => hmay i event (List.mem_append_left _ hmem)).snoc ?_
    cases hstep with
    | idles hidles => exact .idles hidles
    | works hnext hworks => exact .works hnext hworks
    | answers hnext hanswers =>
      exact .answers hnext ⟨hanswers, hmay _ _ (List.mem_append_right _ List.mem_cons_self)⟩

/-- An invariant of the environment and the phases, and a rank that every productive answer
lowers. -/
structure Keeps (R : (i : ι) → Role F (Φ i)) (productive : F.Event → Bool)
    (Inv : E → ((i : ι) → Φ i) → Prop) (rank : ((i : ι) → Φ i) → ℕ) : Prop where
  idles : ∀ {e e' : E} {φ : (i : ι) → Φ i}, Inv e φ → env.idles e e' → Inv e' φ
  works : ∀ {e e' : E} {φ : (i : ι) → Φ i} {i : ι} {q : F.Query} {leads : F.Answer q → Φ i → Prop},
    Inv e φ → (R i).next (φ i) = some ⟨q, leads⟩ → env.works e i q e' → Inv e' φ
  answers : ∀ {e e' : E} {φ : (i : ι) → Φ i} {i : ι} {q : F.Query} {leads : F.Answer q → Φ i → Prop}
    {answer : F.Answer q}, Inv e φ → (R i).next (φ i) = some ⟨q, leads⟩ →
    env.answers e i q answer e' → ∃ φ', leads answer φ' ∧ Inv e' (Function.update φ i φ') ∧
      rank (Function.update φ i φ') + (productive ⟨q, answer⟩).toNat ≤ rank φ

omit [DecidableEq ι] in
theorem sum_update_add_le [Fintype ι] [DecidableEq ι] (number : (i : ι) → Φ i → ℕ)
    {φ : (i : ι) → Φ i} {i : ι} {φ' : Φ i} {m n : ℕ} (h : number i φ' + n ≤ number i (φ i) + m) :
    ∑ j, number j (Function.update φ i φ' j) + n ≤ ∑ j, number j (φ j) + m := by
  rw [← Finset.add_sum_erase _ _ (Finset.mem_univ i),
    ← Finset.add_sum_erase _ (fun j => number j (φ j)) (Finset.mem_univ i), Function.update_self]
  have hrest : ∑ j ∈ Finset.univ.erase i, number j (Function.update φ i φ' j) =
      ∑ j ∈ Finset.univ.erase i, number j (φ j) :=
    Finset.sum_congr rfl fun j hj => by rw [Function.update_of_ne (Finset.ne_of_mem_erase hj)]
  omega

variable {env} {R : (i : ι) → Role F (Φ i)} {Q : (i : ι) → α i → Φ i → Prop}
  {productive : F.Event → Bool} {Inv : E → ((i : ι) → Φ i) → Prop} {rank : ((i : ι) → Φ i) → ℕ}
  {e e' : E} {p p' : (i : ι) → Program F (α i)} {φ : (i : ι) → Φ i}

def AllPlay (R : (i : ι) → Role F (Φ i)) (Q : (i : ι) → α i → Φ i → Prop)
    (p : (i : ι) → Program F (α i)) (φ : (i : ι) → Φ i) : Prop :=
  ∀ i, (p i).Plays (R i) (Q i) (φ i)

theorem AllPlay.update (h : AllPlay R Q p φ) {i : ι} {p' : Program F (α i)} {φ' : Φ i}
    (h' : p'.Plays (R i) (Q i) φ') :
    AllPlay R Q (Function.update p i p') (Function.update φ i φ') := by
  intro j
  by_cases hj : j = i
  · subst hj
    rwa [Function.update_self, Function.update_self]
  · rw [Function.update_of_ne hj, Function.update_of_ne hj]
    exact h j

theorem Keeps.step (hkeeps : env.Keeps R productive Inv rank) {m : Move F ι}
    (h : env.Step (e, p) m (e', p')) (hinv : Inv e φ) (hplay : AllPlay R Q p φ) :
    ∃ φ', Inv e' φ' ∧ AllPlay R Q p' φ' ∧ rank φ' + (m.counts productive).toNat ≤ rank φ := by
  cases h with
  | idles hidles => exact ⟨φ, hkeeps.idles hinv hidles, hplay, Nat.le_refl _⟩
  | @works _ _ _ i _ _ hnext hworks =>
    obtain ⟨leads, hrole, -⟩ := (hplay i).next hnext
    exact ⟨φ, hkeeps.works hinv hrole hworks, hplay, Nat.le_refl _⟩
  | @answers _ _ _ i _ _ answer hnext hanswers =>
    obtain ⟨leads, hrole, hplays⟩ := (hplay i).next hnext
    obtain ⟨φ', hleads, hinv', hrank⟩ := hkeeps.answers hinv hrole hanswers
    exact ⟨_, hinv', hplay.update (hplays answer φ' hleads), hrank⟩

omit [DecidableEq ι] in
theorem AllPlay.returned (h : AllPlay R Q p φ) {i : ι} {a : α i} (hi : p i = .done a) :
    Q i a (φ i) := by
  have hplays := h i
  rwa [hi] at hplays

variable {start : E} {programs : (i : ι) → Program F (α i)} {ms : List (Move F ι)}
  {s : E × ((i : ι) → Program F (α i))} {φ₀ : (i : ι) → Φ i}

theorem Keeps.run (hkeeps : env.Keeps R productive Inv rank) (hstart : Inv start φ₀)
    (hplay : AllPlay R Q programs φ₀) (h : (env.system start programs).Run ms s) :
    ∃ φ, Inv s.1 φ ∧ AllPlay R Q s.2 φ ∧ rank φ + ms.countP (Move.counts productive) ≤ rank φ₀ := by
  induction h with
  | start hinit =>
    subst hinit
    exact ⟨φ₀, hstart, hplay, Nat.le_refl _⟩
  | @snoc ms s s' m _ hstep ih =>
    obtain ⟨φ, hinv, hplays, hrank⟩ := ih
    obtain ⟨φ', hinv', hplays', hrank'⟩ := hkeeps.step hstep hinv hplays
    refine ⟨φ', hinv', hplays', ?_⟩
    have hcount : [m].countP (Move.counts productive) = (m.counts productive).toNat := by
      rw [List.countP_singleton]
      cases m.counts productive <;> rfl
    rw [List.countP_append, hcount]
    omega

/-- While the phases are good and the goal is not reached, some query has a productive answer that
leaves the phases good. -/
def Progress (env : Environment F ι E) (R : (i : ι) → Role F (Φ i)) (productive : F.Event → Bool)
    (Inv : E → ((i : ι) → Φ i) → Prop) (Good Goal : ((i : ι) → Φ i) → Prop) : Prop :=
  ∀ e φ, Inv e φ → Good φ → ¬Goal φ → ∃ (i : ι) (q : F.Query) (leads : F.Answer q → Φ i → Prop)
    (answer : F.Answer q), (R i).next (φ i) = some ⟨q, leads⟩ ∧ env.CanAnswer e i q answer ∧
      productive ⟨q, answer⟩ = true ∧ ∀ φ', leads answer φ' → Good (Function.update φ i φ')

/-- Every run with good phases can go on to the goal. -/
theorem Keeps.exists_run (hkeeps : env.Keeps R productive Inv rank)
    {Good Goal : ((i : ι) → Φ i) → Prop} (hprogress : env.Progress R productive Inv Good Goal)
    (hfinal : ∀ i a φ, Q i a φ → (R i).next φ = none) (h : (env.system start programs).Run ms s)
    (hinv : Inv s.1 φ) (hplay : AllPlay R Q s.2 φ) (hgood : Good φ) :
    ∃ ms' s' φ', (env.system start programs).Run (ms ++ ms') s' ∧ Inv s'.1 φ' ∧
      AllPlay R Q s'.2 φ' ∧ Good φ' ∧ Goal φ' := by
  induction hr : rank φ using Nat.strongRecOn generalizing ms s φ with
  | ind r ih =>
    subst hr
    by_cases hgoal : Goal φ
    · exact ⟨[], s, φ, by rwa [List.append_nil], hinv, hplay, hgood, hgoal⟩
    · obtain ⟨i, q, leads, answer, hrole, ⟨e₁, e₂, hworks, hanswers⟩, hproductive, hgood'⟩ :=
        hprogress s.1 φ hinv hgood hgoal
      obtain ⟨k, hnext⟩ := (hplay i).exists_next (hfinal i) hrole
      obtain ⟨leads', hrole', hplays⟩ := (hplay i).next hnext
      obtain rfl : leads = leads' := by
        rw [hrole] at hrole'
        cases hrole'
        rfl
      -- the state in which the query is answered
      obtain ⟨ms₁, hrun₁, hinv₁⟩ :
          ∃ ms₁, (env.system start programs).Run (ms ++ ms₁) (e₁, s.2) ∧ Inv e₁ φ := by
        rcases hworks with rfl | hworks
        · exact ⟨[], by rwa [List.append_nil], hinv⟩
        · exact ⟨[_], h.snoc (.works hnext hworks), hkeeps.works hinv hrole hworks⟩
      obtain ⟨φ', hleads, hinv₂, hrank⟩ := hkeeps.answers hinv₁ hrole hanswers
      rw [hproductive, Bool.toNat_true] at hrank
      have hrun₂ := hrun₁.snoc (.answers hnext hanswers)
      obtain ⟨ms', s', φ'', hrun, hend⟩ := ih _ (Nat.lt_of_succ_le hrank) hrun₂ hinv₂
        (hplay.update (hplays answer φ' hleads)) (hgood' φ' hleads) rfl
      rw [List.append_assoc, List.append_assoc] at hrun
      exact ⟨_, s', φ'', hrun, hend⟩

end Environment
end FrostTools
