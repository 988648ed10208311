import FrostTools.Lib.Program

/-!
# Roles in a protocol

A role says what a party asks in each of its phases, and which phases the answers lead to. A
program that plays a role asks these queries only, as long as it is given these answers only.
-/

namespace FrostTools

/-- The query of each phase, unless it is final, and the phases after its answers. -/
structure Role (F : Interface) (Φ : Type) where
  next : Φ → Option ((q : F.Query) × (F.Answer q → Φ → Prop))

variable {F : Interface} {Φ α β σ ε ρ : Type} {R : Role F Φ} {φ : Φ}

namespace Program

/-- A program in phase `φ` plays the role, and what it returns meets `Q` in the phase it ends. -/
def Plays (R : Role F Φ) (Q : α → Φ → Prop) : Program F α → Φ → Prop
  | done a, φ => Q a φ
  | ask q k, φ => ∃ leads, R.next φ = some ⟨q, leads⟩ ∧
      ∀ answer φ', leads answer φ' → (k answer).Plays R Q φ'
  -- with an invariant of the turns
  | loop s q turn k, φ => ∃ I : _ → Φ → Prop, I s φ ∧ ∀ s φ, I s φ → ∃ leads,
      R.next φ = some ⟨q, leads⟩ ∧ ∀ answer φ', leads answer φ' →
        (∀ s', turn s answer = .inl s' → I s' φ') ∧
          ∀ b, turn s answer = .inr b → (k b).Plays R Q φ'

variable {Q Q' : α → Φ → Prop} {p : Program F α}

theorem Plays.bind {f : α → Program F β} {Q : β → Φ → Prop}
    (h : p.Plays R (fun a φ => (f a).Plays R Q φ) φ) : (p.bind f).Plays R Q φ := by
  induction p generalizing φ with
  | done a => exact h
  | ask q k ih =>
    obtain ⟨leads, hnext, hplays⟩ := h
    exact ⟨leads, hnext, fun answer φ' hφ => ih answer (hplays answer φ' hφ)⟩
  | loop s q turn k ih =>
    obtain ⟨I, hI, hturn⟩ := h
    refine ⟨I, hI, fun s φ hs => ?_⟩
    obtain ⟨leads, hnext, hplays⟩ := hturn s φ hs
    refine ⟨leads, hnext, fun answer φ' hφ => ?_⟩
    obtain ⟨hstay, hleave⟩ := hplays answer φ' hφ
    exact ⟨hstay, fun b hb => ih b (hleave b hb)⟩

theorem Plays.mono (h : p.Plays R Q φ) (hQ : ∀ a φ, Q a φ → Q' a φ) : p.Plays R Q' φ := by
  induction p generalizing φ with
  | done a => exact hQ a φ h
  | ask q k ih =>
    obtain ⟨leads, hnext, hplays⟩ := h
    exact ⟨leads, hnext, fun answer φ' hφ => ih answer (hplays answer φ' hφ)⟩
  | loop s q turn k ih =>
    obtain ⟨I, hI, hturn⟩ := h
    refine ⟨I, hI, fun s φ hs => ?_⟩
    obtain ⟨leads, hnext, hplays⟩ := hturn s φ hs
    refine ⟨leads, hnext, fun answer φ' hφ => ?_⟩
    obtain ⟨hstay, hleave⟩ := hplays answer φ' hφ
    exact ⟨hstay, fun b hb => ih b (hleave b hb)⟩

theorem Plays.next {q : F.Query} {k : F.Answer q → Program F α} (h : p.Plays R Q φ)
    (hnext : p.next = some ⟨q, k⟩) : ∃ leads, R.next φ = some ⟨q, leads⟩ ∧
      ∀ answer φ', leads answer φ' → (k answer).Plays R Q φ' := by
  cases p with
  | done a => cases hnext
  | ask q' k' =>
    cases hnext
    exact h
  | loop s q' turn k' =>
    cases hnext
    obtain ⟨I, hI, hturn⟩ := h
    obtain ⟨leads, hrole, hplays⟩ := hturn s φ hI
    refine ⟨leads, hrole, fun answer φ' hφ => ?_⟩
    obtain ⟨hstay, hleave⟩ := hplays answer φ' hφ
    dsimp only
    cases ht : turn s answer with
    | inl s' => exact ⟨I, hstay s' ht, hturn⟩
    | inr b => exact hleave b ht

theorem Plays.exists_next {q : F.Query} {leads : F.Answer q → Φ → Prop} (h : p.Plays R Q φ)
    (hfinal : ∀ a φ, Q a φ → R.next φ = none) (hnext : R.next φ = some ⟨q, leads⟩) :
    ∃ k, p.next = some ⟨q, k⟩ := by
  cases p with
  | done a =>
    rw [hfinal a φ h] at hnext
    cases hnext
  | ask q' k' =>
    obtain ⟨leads', hrole, -⟩ := h
    rw [hrole] at hnext
    cases hnext
    exact ⟨k', rfl⟩
  | loop s q' turn k' =>
    obtain ⟨I, hI, hturn⟩ := h
    obtain ⟨leads', hrole, -⟩ := hturn s φ hI
    rw [hrole] at hnext
    cases hnext
    exact ⟨_, rfl⟩

theorem Plays.exists_done (h : p.Plays R Q φ) (hnext : R.next φ = none) : ∃ a, p = done a ∧ Q a φ := by
  cases p with
  | done a => exact ⟨a, rfl, h⟩
  | ask q k =>
    obtain ⟨leads, hrole, -⟩ := h
    rw [hrole] at hnext
    cases hnext
  | loop s q turn k =>
    obtain ⟨I, hI, hturn⟩ := h
    obtain ⟨leads, hrole, -⟩ := hturn s φ hI
    rw [hrole] at hnext
    cases hnext

end Program

namespace Method

/-- The method plays the role up to a value and a state that meet `Q`, or an error that meets `E`. -/
def Plays (R : Role F Φ) (E : ε → Φ → Prop) (Q : α → σ → Φ → Prop) (x : Method F σ ε α) (s : σ)
    (φ : Φ) : Prop :=
  (x s).Plays R (fun r φ => (∃ a, r.1 = .ok a ∧ Q a r.2 φ) ∨ ∃ e, r.1 = .err e ∧ E e φ) φ

variable {E : ε → Φ → Prop} {Q : α → σ → Φ → Prop} {Q' : β → σ → Φ → Prop} {x : Method F σ ε α}
  {f : α → Method F σ ε β} {s : σ} {a : α}

theorem Plays.pure (h : Q a s φ) : (Pure.pure a : Method F σ ε α).Plays R E Q s φ :=
  .inl ⟨a, rfl, h⟩

theorem Plays.bind (h : x.Plays R E (fun a s φ => (f a).Plays R E Q' s φ) s φ) :
    (x >>= f).Plays R E Q' s φ := by
  apply Program.Plays.bind
  apply Program.Plays.mono h
  rintro ⟨o, s'⟩ φ' (⟨a, rfl, ha⟩ | ⟨e, rfl, he⟩)
  · exact ha
  · exact .inr ⟨e, rfl, he⟩

theorem Plays.mono {Q₁ : α → σ → Φ → Prop} (h : x.Plays R E Q s φ)
    (hQ : ∀ a s φ, Q a s φ → Q₁ a s φ) : x.Plays R E Q₁ s φ := by
  apply Program.Plays.mono h
  rintro ⟨o, s'⟩ φ' (⟨a, ho, ha⟩ | herr)
  · exact .inl ⟨a, ho, hQ a s' φ' ha⟩
  · exact .inr herr

theorem Plays.lift {o : Outcome ε α} (ho : o = .ok a) (h : Q a s φ) :
    (Method.lift o : Method F σ ε α).Plays R E Q s φ := .inl ⟨a, ho, h⟩

theorem Plays.fail {e : ε} (h : E e φ) : (Method.fail e : Method F σ ε α).Plays R E Q s φ :=
  .inr ⟨e, rfl, h⟩

theorem Plays.read {Q : σ → σ → Φ → Prop} (h : Q s s φ) :
    (Method.read : Method F σ ε σ).Plays R E Q s φ := .inl ⟨s, rfl, h⟩

theorem Plays.modify {g : σ → σ} {Q : Unit → σ → Φ → Prop} (h : Q () (g s) φ) :
    (Method.modify g : Method F σ ε Unit).Plays R E Q s φ := .inl ⟨(), rfl, h⟩

theorem Plays.query {q : F.Query} {leads : F.Answer q → Φ → Prop} {Q : F.Answer q → σ → Φ → Prop}
    (hnext : R.next φ = some ⟨q, leads⟩) (hleads : ∀ answer φ', leads answer φ' → Q answer s φ') :
    (Method.query q : Method F σ ε (F.Answer q)).Plays R E Q s φ :=
  ⟨leads, hnext, fun answer φ' hφ => .inl ⟨answer, rfl, hleads answer φ' hφ⟩⟩

/-- A wait loop, with an invariant of its turns. -/
theorem Plays.poll {l : ρ} {q : F.Query}
    {turn : ρ × σ → F.Answer q → (ρ × σ) ⊕ (Outcome ε α × σ)} (I : ρ → σ → Φ → Prop)
    (hstart : I l s φ)
    (hturn : ∀ l s φ, I l s φ → ∃ leads, R.next φ = some ⟨q, leads⟩ ∧ ∀ answer φ', leads answer φ' →
      (∃ l' s', turn (l, s) answer = .inl (l', s') ∧ I l' s' φ') ∨
        ∃ a s', turn (l, s) answer = .inr (.ok a, s') ∧ Q a s' φ') :
    (Method.poll l q turn).Plays R E Q s φ := by
  refine ⟨fun t φ => I t.1 t.2 φ, hstart, fun t φ ht => ?_⟩
  obtain ⟨leads, hnext, hleads⟩ := hturn t.1 t.2 φ ht
  refine ⟨leads, hnext, fun answer φ' hφ => ?_⟩
  rcases hleads answer φ' hφ with ⟨l', s', hinl, hI⟩ | ⟨a, s', hinr, ha⟩
  · refine ⟨fun t' ht' => ?_, fun b hb => ?_⟩
    · rw [hinl] at ht'
      obtain rfl := Sum.inl.inj ht'
      exact hI
    · rw [hinl] at hb
      cases hb
  · refine ⟨fun t' ht' => ?_, fun b hb => ?_⟩
    · rw [hinr] at ht'
      cases ht'
    · rw [hinr] at hb
      obtain rfl := Sum.inr.inj hb
      exact .inl ⟨a, rfl, ha⟩

/-- A loop over a list, with an invariant that knows what is left of it. -/
theorem Plays.foldM {g : β → α → Method F σ ε β} {b : β} {as : List α}
    (I : β → List α → σ → Φ → Prop) (hstart : I b as s φ)
    (hend : ∀ b s φ, I b [] s φ → Q' b s φ)
    (hturn : ∀ b a as s φ, I b (a :: as) s φ →
      (g b a).Plays R E (fun b s φ => I b as s φ) s φ) :
    (Method.foldM g b as).Plays R E Q' s φ := by
  induction as generalizing b s φ with
  | nil => exact .inl ⟨b, rfl, hend b s φ hstart⟩
  | cons a as ih =>
    apply Plays.bind
    exact (hturn b a as s φ hstart).mono fun b s φ h => ih h

end Method
end FrostTools
