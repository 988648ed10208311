import FrostTools.Lib.Environment

/-!
# Monitored programs

A monitor follows the answered queries of a program. It says which queries are allowed and which
answers are expected, and where the program is afterwards. Other than a role, it does not say which
of the allowed queries comes next, so that it fits many programs.
-/

namespace FrostTools

structure Monitor (F : Interface) (M : Type) where
  allows : M → F.Query → Prop
  expects : M → (q : F.Query) → F.Answer q → Prop
  next : M → (q : F.Query) → F.Answer q → M

variable {F : Interface} {M α β σ ε : Type} {A : Monitor F M} {m : M}

namespace Program

/-- The program asks allowed queries only, as long as it is given expected answers only, and what it
returns meets `Q` where it ends. -/
def Obeys (A : Monitor F M) (Q : α → M → Prop) : Program F α → M → Prop
  | done a, m => Q a m
  | ask q k, m => A.allows m q ∧ ∀ answer, A.expects m q answer →
      (k answer).Obeys A Q (A.next m q answer)
  -- with an invariant of the turns
  | loop s q turn k, m => ∃ I : _ → M → Prop, I s m ∧ ∀ s m, I s m → A.allows m q ∧
      ∀ answer, A.expects m q answer →
        (∀ s', turn s answer = .inl s' → I s' (A.next m q answer)) ∧
          ∀ b, turn s answer = .inr b → (k b).Obeys A Q (A.next m q answer)

variable {Q Q' : α → M → Prop} {p : Program F α}

theorem Obeys.bind {f : α → Program F β} {Q : β → M → Prop}
    (h : p.Obeys A (fun a m => (f a).Obeys A Q m) m) : (p.bind f).Obeys A Q m := by
  induction p generalizing m with
  | done a => exact h
  | ask q k ih =>
    obtain ⟨hallows, hobeys⟩ := h
    exact ⟨hallows, fun answer hanswer => ih answer (hobeys answer hanswer)⟩
  | loop s q turn k ih =>
    obtain ⟨I, hI, hturn⟩ := h
    refine ⟨I, hI, fun s m hs => ?_⟩
    obtain ⟨hallows, hobeys⟩ := hturn s m hs
    refine ⟨hallows, fun answer hanswer => ?_⟩
    obtain ⟨hstay, hleave⟩ := hobeys answer hanswer
    exact ⟨hstay, fun b hb => ih b (hleave b hb)⟩

theorem Obeys.mono (h : p.Obeys A Q m) (hQ : ∀ a m, Q a m → Q' a m) : p.Obeys A Q' m := by
  induction p generalizing m with
  | done a => exact hQ a m h
  | ask q k ih =>
    obtain ⟨hallows, hobeys⟩ := h
    exact ⟨hallows, fun answer hanswer => ih answer (hobeys answer hanswer)⟩
  | loop s q turn k ih =>
    obtain ⟨I, hI, hturn⟩ := h
    refine ⟨I, hI, fun s m hs => ?_⟩
    obtain ⟨hallows, hobeys⟩ := hturn s m hs
    refine ⟨hallows, fun answer hanswer => ?_⟩
    obtain ⟨hstay, hleave⟩ := hobeys answer hanswer
    exact ⟨hstay, fun b hb => ih b (hleave b hb)⟩

theorem Obeys.next {q : F.Query} {k : F.Answer q → Program F α} (h : p.Obeys A Q m)
    (hnext : p.next = some ⟨q, k⟩) : A.allows m q ∧
      ∀ answer, A.expects m q answer → (k answer).Obeys A Q (A.next m q answer) := by
  cases p with
  | done a => cases hnext
  | ask q' k' =>
    cases hnext
    exact h
  | loop s q' turn k' =>
    cases hnext
    obtain ⟨I, hI, hturn⟩ := h
    obtain ⟨hallows, hobeys⟩ := hturn s m hI
    refine ⟨hallows, fun answer hanswer => ?_⟩
    obtain ⟨hstay, hleave⟩ := hobeys answer hanswer
    dsimp only
    cases ht : turn s answer with
    | inl s' => exact ⟨I, hstay s' ht, hturn⟩
    | inr b => exact hleave b ht

end Program

namespace Method

/-- The method obeys up to a value and a state that meet `Q`, or an error that meets `E`. -/
def Obeys (A : Monitor F M) (E : ε → M → Prop) (Q : α → σ → M → Prop) (x : Method F σ ε α) (s : σ)
    (m : M) : Prop :=
  (x s).Obeys A (fun r m => (∃ a, r.1 = .ok a ∧ Q a r.2 m) ∨ ∃ e, r.1 = .err e ∧ E e m) m

variable {E E' : ε → M → Prop} {Q : α → σ → M → Prop} {Q' : β → σ → M → Prop}
  {x : Method F σ ε α} {f : α → Method F σ ε β} {s : σ} {a : α}

theorem Obeys.pure (h : Q a s m) : (Pure.pure a : Method F σ ε α).Obeys A E Q s m :=
  .inl ⟨a, rfl, h⟩

theorem Obeys.bind (h : x.Obeys A E (fun a s m => (f a).Obeys A E Q' s m) s m) :
    (x >>= f).Obeys A E Q' s m := by
  apply Program.Obeys.bind
  apply Program.Obeys.mono h
  rintro ⟨o, s'⟩ m' (⟨a, rfl, ha⟩ | ⟨e, rfl, he⟩)
  · exact ha
  · exact .inr ⟨e, rfl, he⟩

theorem Obeys.mono {Q₁ : α → σ → M → Prop} (h : x.Obeys A E Q s m)
    (hE : ∀ e m, E e m → E' e m) (hQ : ∀ a s m, Q a s m → Q₁ a s m) : x.Obeys A E' Q₁ s m := by
  apply Program.Obeys.mono h
  rintro ⟨o, s'⟩ m' (⟨a, rfl, ha⟩ | ⟨e, rfl, he⟩)
  · exact .inl ⟨a, rfl, hQ a s' m' ha⟩
  · exact .inr ⟨e, rfl, hE e m' he⟩

theorem Obeys.fail {e : ε} (h : E e m) : (Method.fail e : Method F σ ε α).Obeys A E Q s m :=
  .inr ⟨e, rfl, h⟩

theorem Obeys.lift {o : Outcome ε α} (hpanic : ∀ message, o ≠ .panic message)
    (hok : ∀ a, o = .ok a → Q a s m) (herr : ∀ e, o = .err e → E e m) :
    (Method.lift o : Method F σ ε α).Obeys A E Q s m := by
  cases o with
  | ok a => exact .inl ⟨a, rfl, hok a rfl⟩
  | err e => exact .inr ⟨e, rfl, herr e rfl⟩
  | panic message => exact absurd rfl (hpanic message)

theorem Obeys.query {q : F.Query} {Q : F.Answer q → σ → M → Prop} (hallows : A.allows m q)
    (hQ : ∀ answer, A.expects m q answer → Q answer s (A.next m q answer)) :
    (Method.query q : Method F σ ε (F.Answer q)).Obeys A E Q s m :=
  ⟨hallows, fun answer hanswer => .inl ⟨answer, rfl, hQ answer hanswer⟩⟩

/-- With an invariant of the elements that are left. -/
theorem Obeys.foldM {g : β → α → Method F σ ε β} {b : β} {l : List α}
    (I : List α → β → σ → M → Prop) (hI : I l b s m)
    (hstep : ∀ a l b s m, I (a :: l) b s m → (g b a).Obeys A E (I l) s m) :
    (Method.foldM g b l).Obeys A E (I []) s m := by
  induction l generalizing b s m with
  | nil => exact .pure hI
  | cons a l ih =>
    apply Obeys.bind
    exact (hstep a l b s m hI).mono (fun _ _ h => h) fun b' s' m' hI' => ih hI'

end Method

namespace Environment

variable {ι E : Type} {α M : ι → Type} [DecidableEq ι] {env : Environment F ι E}

/-- An invariant of the moves so far, the environment and the monitors, under which the answers are
the expected ones. -/
structure Guards (env : Environment F ι E) (A : (i : ι) → Monitor F (M i))
    (Inv : List (Move F ι) → E → ((i : ι) → M i) → Prop) : Prop where
  idles : ∀ {ms : List (Move F ι)} {e e' : E} {m : (i : ι) → M i}, Inv ms e m → env.idles e e' →
    Inv (ms ++ [.idles]) e' m
  works : ∀ {ms : List (Move F ι)} {e e' : E} {m : (i : ι) → M i} {i : ι} {q : F.Query},
    Inv ms e m → (A i).allows (m i) q → env.works e i q e' → Inv (ms ++ [.works i]) e' m
  answers : ∀ {ms : List (Move F ι)} {e e' : E} {m : (i : ι) → M i} {i : ι} {q : F.Query}
    {answer : F.Answer q}, Inv ms e m → (A i).allows (m i) q → env.answers e i q answer e' →
    (A i).expects (m i) q answer ∧
      Inv (ms ++ [.answers i ⟨q, answer⟩]) e' (Function.update m i ((A i).next (m i) q answer))

variable {A : (i : ι) → Monitor F (M i)} {Q : (i : ι) → α i → M i → Prop}
  {Inv : List (Move F ι) → E → ((i : ι) → M i) → Prop} {start : E}
  {programs : (i : ι) → Program F (α i)} {ms : List (Move F ι)}
  {s : E × ((i : ι) → Program F (α i))} {m₀ : (i : ι) → M i}

theorem Guards.run (hguards : env.Guards A Inv) (hstart : Inv [] start m₀)
    (hobeys : ∀ i, (programs i).Obeys (A i) (Q i) (m₀ i)) (h : (env.system start programs).Run ms s) :
    ∃ m, Inv ms s.1 m ∧ ∀ i, (s.2 i).Obeys (A i) (Q i) (m i) := by
  induction h with
  | start hinit =>
    subst hinit
    exact ⟨m₀, hstart, hobeys⟩
  | @snoc ms s s' move _ hstep ih =>
    obtain ⟨m, hinv, hobey⟩ := ih
    cases hstep with
    | idles hidles => exact ⟨m, hguards.idles hinv hidles, hobey⟩
    | @works _ _ _ i _ _ hnext hworks =>
      exact ⟨m, hguards.works hinv ((hobey i).next hnext).1 hworks, hobey⟩
    | @answers _ _ _ i q k answer hnext hanswers =>
      obtain ⟨hallows, hgoes⟩ := (hobey i).next hnext
      obtain ⟨hexpects, hinv'⟩ := hguards.answers hinv hallows hanswers
      refine ⟨_, hinv', fun j => ?_⟩
      dsimp only
      by_cases hj : j = i
      · subst hj
        rw [Function.update_self, Function.update_self]
        exact hgoes answer hexpects
      · rw [Function.update_of_ne hj, Function.update_of_ne hj]
        exact hobey j

end Environment
end FrostTools
