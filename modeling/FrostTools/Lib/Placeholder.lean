import Mathlib.Data.List.Infix

namespace FrostTools

variable {α : Type*} [DecidableEq α] {l r : α}

/-- Replaces every placeholder `l r`, from left to right. -/
def fill (l r : α) (s : List α) : List α → List α
  | [] => []
  | [a] => [a]
  | a :: b :: t => if a = l ∧ b = r then s ++ fill l r s t else a :: fill l r s (b :: t)

def placeholders (l r : α) : List α → ℕ
  | [] => 0
  | [_] => 0
  | a :: b :: t => if a = l ∧ b = r then placeholders l r t + 1 else placeholders l r (b :: t)

theorem length_fill (s t : List α) :
    (fill l r s t).length + 2 * placeholders l r t = t.length + placeholders l r t * s.length := by
  fun_induction placeholders l r t with
  | case1 => simp [fill]
  | case2 a => simp [fill]
  | case3 a b t h ih =>
    rw [fill, if_pos h, List.length_append, List.length_cons, List.length_cons, Nat.add_mul]
    omega
  | case4 a b t h ih =>
    rw [fill, if_neg h, List.length_cons, List.length_cons (a := a)]
    omega

/-- A template with a placeholder gives different texts for different replacements. -/
theorem fill_injective {t : List α} (h : 0 < placeholders l r t) :
    Function.Injective fun s => fill l r s t := by
  intro s s' heq
  have hlength : s.length = s'.length := by
    have hs := length_fill (l := l) (r := r) s t
    have hs' := length_fill (l := l) (r := r) s' t
    rw [show fill l r s t = fill l r s' t from heq, hs'] at hs
    have hmul := Nat.add_left_cancel hs
    exact (Nat.eq_of_mul_eq_mul_left h hmul).symm
  have hfill : fill l r s t = fill l r s' t := heq
  clear heq
  fun_induction placeholders l r t with
  | case1 => cases h
  | case2 a => cases h
  | case3 a b t hab ih =>
    rw [fill, fill, if_pos hab, if_pos hab] at hfill
    exact (List.append_inj hfill hlength).1
  | case4 a b t hab ih =>
    rw [fill, fill, if_neg hab, if_neg hab] at hfill
    exact ih h (List.cons.inj hfill).2

theorem fill_of_placeholders_eq_zero {t : List α} (s : List α) (h : placeholders l r t = 0) :
    fill l r s t = t := by
  fun_induction placeholders l r t with
  | case1 => rfl
  | case2 a => rfl
  | case3 a b t hab ih => cases h
  | case4 a b t hab ih => rw [fill, if_neg hab, ih h]

theorem placeholders_pos_iff {t : List α} : 0 < placeholders l r t ↔ [l, r] <:+: t := by
  fun_induction placeholders l r t with
  | case1 => simp
  | case2 a => simp [List.infix_cons_iff]
  | case3 a b t h ih =>
    obtain ⟨rfl, rfl⟩ := h
    exact iff_of_true (Nat.succ_pos _) ⟨[], t, rfl⟩
  | case4 a b t h ih =>
    rw [ih, List.infix_cons_iff (a := a)]
    constructor
    · exact .inr
    · rintro (hstart | hinfix)
      · obtain ⟨hl, hstart⟩ := List.cons_prefix_cons.mp hstart
        obtain ⟨hr, -⟩ := List.cons_prefix_cons.mp hstart
        exact absurd ⟨hl.symm, hr.symm⟩ h
      · exact hinfix

end FrostTools
