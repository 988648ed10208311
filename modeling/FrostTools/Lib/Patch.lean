import FrostTools.Lib.Outcome

namespace FrostTools.Outcome

variable {ε α β : Type*} {f : α → β → Outcome ε α}

/-- Replaces the entry at the position of a patch; a position outside the list is a panic. -/
def patch (f : α → β → Outcome ε α) (as : List α) (p : ℕ × β) : Outcome ε (List α) :=
  match as[p.1]? with
  | none => .panic "index out of bounds"
  | some a => (f a p.2).bind fun a' => .ok (as.set p.1 a')

theorem patch_eq_ok_iff {as as' : List α} {p : ℕ × β} : patch f as p = .ok as' ↔
    ∃ a a', as[p.1]? = some a ∧ f a p.2 = .ok a' ∧ as.set p.1 a' = as' := by
  unfold patch
  cases as[p.1]? with
  | none => simp
  | some a => simp [bind_eq_ok_iff]

theorem length_of_foldM_patch {as as' : List α} {ps : List (ℕ × β)}
    (h : foldM (patch f) as ps = .ok as') : as'.length = as.length := by
  induction ps generalizing as with
  | nil => rw [Outcome.ok.inj h]
  | cons p ps ih =>
    obtain ⟨as₁, hfirst, hrest⟩ := bind_eq_ok_iff.mp h
    obtain ⟨a, a', -, -, rfl⟩ := patch_eq_ok_iff.mp hfirst
    rw [ih hrest, List.length_set]

/-- What patches at distinct positions make of a list: the entries at their positions are
replaced once, and no other entry changes. -/
theorem of_foldM_patch {as as' : List α} {ps : List (ℕ × β)} (h : foldM (patch f) as ps = .ok as')
    (hnodup : (ps.map Prod.fst).Nodup) :
    (∀ i, i ∉ ps.map Prod.fst → as'[i]? = as[i]?) ∧
      ∀ p ∈ ps, ∃ a a', as[p.1]? = some a ∧ f a p.2 = .ok a' ∧ as'[p.1]? = some a' := by
  induction ps generalizing as with
  | nil =>
    have has : as = as' := Outcome.ok.inj h
    rw [has]
    exact ⟨fun _ _ => rfl, fun p hp => absurd hp List.not_mem_nil⟩
  | cons p ps ih =>
    obtain ⟨as₁, hfirst, hrest⟩ := bind_eq_ok_iff.mp h
    obtain ⟨a, a', ha, hf, rfl⟩ := patch_eq_ok_iff.mp hfirst
    rw [List.map_cons, List.nodup_cons] at hnodup
    obtain ⟨hother, hpatched⟩ := ih hrest hnodup.2
    have hlt : p.1 < as.length := (List.getElem?_eq_some_iff.mp ha).1
    constructor
    · intro i hi
      rw [List.map_cons, List.mem_cons, not_or] at hi
      rw [hother i hi.2, List.getElem?_set_ne (Ne.symm hi.1)]
    · intro q hq
      rcases List.mem_cons.mp hq with rfl | hq
      · refine ⟨a, a', ha, hf, ?_⟩
        rw [hother q.1 hnodup.1, List.getElem?_set_self hlt]
      · have hne : p.1 ≠ q.1 := by
          intro heq
          exact hnodup.1 (heq ▸ List.mem_map_of_mem hq)
        obtain ⟨b, b', hb, hfb, hb'⟩ := hpatched q hq
        rw [List.getElem?_set_ne hne] at hb
        exact ⟨b, b', hb, hfb, hb'⟩

theorem foldM_patch_ne_panic {as : List α} {ps : List (ℕ × β)} {message : String}
    (hf : ∀ a b m, f a b ≠ .panic m) (hlt : ∀ p ∈ ps, p.1 < as.length) :
    foldM (patch f) as ps ≠ .panic message := by
  induction ps generalizing as with
  | nil => exact ok_ne_panic as message
  | cons p ps ih =>
    rw [List.forall_mem_cons] at hlt
    intro h
    simp only [foldM, patch, List.getElem?_eq_getElem hlt.1] at h
    cases hfirst : f as[p.1] p.2 with
    | ok a =>
      rw [hfirst] at h
      apply ih _ h
      intro q hq
      rw [List.length_set]
      exact hlt.2 q hq
    | err e =>
      rw [hfirst] at h
      cases h
    | panic m => exact hf _ _ m hfirst

end FrostTools.Outcome
