import FrostTools.Lib.Outcome
import Mathlib.Data.List.Perm.Subperm

namespace FrostTools

variable {σ μ ε : Type*} {recv : σ → μ → Outcome ε Unit × σ}

/-- The state after messages that are all accepted. -/
def deliver (recv : σ → μ → Outcome ε Unit × σ) (s : σ) : List μ → Option σ
  | [] => some s
  | msg :: msgs =>
    match recv s msg with
    | (.ok (), s') => deliver recv s' msgs
    | _ => none

theorem deliver_cons_of_ok {s s' : σ} {msg : μ} (h : recv s msg = (.ok (), s')) (msgs : List μ) :
    deliver recv s (msg :: msgs) = deliver recv s' msgs := by
  rw [deliver, h]

theorem deliver_append (s : σ) (msgs more : List μ) :
    deliver recv s (msgs ++ more) =
      (deliver recv s msgs).bind fun s' => deliver recv s' more := by
  induction msgs generalizing s with
  | nil => rfl
  | cons msg msgs ih =>
    simp only [List.cons_append, deliver]
    split
    · apply ih
    · rfl

theorem deliver_snoc_of_ok {s s' s'' : σ} {msgs : List μ} {msg : μ}
    (h : deliver recv s msgs = some s') (hmsg : recv s' msg = (.ok (), s'')) :
    deliver recv s (msgs ++ [msg]) = some s'' := by
  rw [deliver_append, h, Option.bind_some, deliver_cons_of_ok hmsg]
  rfl

theorem deliver_snoc_eq_some_iff {s s'' : σ} {msgs : List μ} {msg : μ} :
    deliver recv s (msgs ++ [msg]) = some s'' ↔
      ∃ s', deliver recv s msgs = some s' ∧ recv s' msg = (.ok (), s'') := by
  rw [deliver_append, Option.bind_eq_some_iff]
  refine exists_congr fun s' => and_congr_right fun _ => ?_
  simp only [deliver]
  split
  · next heq => rw [heq, Option.some.injEq, Prod.mk.injEq, and_iff_right rfl]
  · next hne =>
    refine iff_of_false (fun h => ?_) (hne s'')
    cases h

/-- Messages delivered in any order are all accepted, leave the phase with the last
one, and lead to one state. -/
def AnyOrder (recv : σ → μ → Outcome ε Unit × σ) (phase : σ → ℕ) (s : σ) (msgs : List μ) : Prop :=
  ∃ next, (msgs ≠ [] → phase s < phase next) ∧
    ∀ msgs', msgs'.Perm msgs → deliver recv s msgs' = some next ∧
      ∀ l, l <+: msgs' → l ≠ msgs' → ∃ s', deliver recv s l = some s' ∧ phase s' = phase s

/-- It is enough that a message is accepted after any part of the others, and that the
last one leads to a state that does not depend on the order. -/
theorem anyOrder_of_subperm {phase : σ → ℕ} {msgs : List μ} (wait : List μ → σ) (next : σ)
    (hwait : ∀ l msg, (l ++ [msg]).Subperm msgs → (l ++ [msg]).length < msgs.length →
      recv (wait l) msg = (.ok (), wait (l ++ [msg])))
    (hdone : ∀ l msg, (l ++ [msg]).Perm msgs → recv (wait l) msg = (.ok (), next))
    (hphase : ∀ l, phase (wait l) = phase (wait []))
    (hnext : phase (wait []) < phase next) : AnyOrder recv phase (wait []) msgs := by
  have hinitial : ∀ msgs' l, msgs'.Perm msgs → l <+: msgs' → l ≠ msgs' →
      deliver recv (wait []) l = some (wait l) := by
    intro msgs' l hperm hl hne
    induction l using List.reverseRecOn with
    | nil => rfl
    | append_singleton l msg ih =>
      have hlt : (l ++ [msg]).length < msgs'.length :=
        Nat.lt_of_le_of_ne hl.length_le fun heq => hne (hl.eq_of_length heq)
      have hl' : l <+: msgs' := (List.prefix_append l [msg]).trans hl
      have hne' : l ≠ msgs' := by
        rintro rfl
        rw [List.length_append, List.length_singleton] at hlt
        omega
      apply deliver_snoc_of_ok (ih hl' hne')
      apply hwait l msg (hl.sublist.subperm.trans hperm.subperm)
      rwa [← hperm.length_eq]
  by_cases hnil : msgs = []
  · subst hnil
    refine ⟨wait [], fun h => absurd rfl h, fun msgs' hperm => ?_⟩
    obtain rfl := hperm.eq_nil
    refine ⟨rfl, fun l hl hne => absurd (List.prefix_nil.mp hl) hne⟩
  · refine ⟨next, fun _ => hnext, fun msgs' hperm => ⟨?_, fun l hl hne => ?_⟩⟩
    · rcases List.eq_nil_or_concat msgs' with rfl | ⟨l, msg, rfl⟩
      · exact absurd hperm.symm.eq_nil hnil
      · rw [List.concat_eq_append] at hperm ⊢
        have hl : l <+: l ++ [msg] := List.prefix_append l [msg]
        exact deliver_snoc_of_ok (hinitial _ l hperm hl (by simp)) (hdone l msg hperm)
    · exact ⟨wait l, hinitial msgs' l hperm hl hne, hphase l⟩

end FrostTools
