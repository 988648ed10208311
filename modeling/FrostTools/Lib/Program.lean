import FrostTools.Lib.Outcome

/-!
# Programs that ask their environment

A program is run up to its next query and goes on with the answer. Nothing is assumed
about the answers, so an interleaving of programs over a shared environment is a
sequence of answered queries.
-/

namespace FrostTools

/-- The queries of a program, each with the type of its answers. -/
structure Interface where
  Query : Type
  Answer : Query → Type

structure Interface.Event (F : Interface) where
  query : F.Query
  answer : F.Answer query

inductive Program (F : Interface) (α : Type) : Type 1 where
  | done (a : α)
  | ask (q : F.Query) (k : F.Answer q → Program F α)
  /-- Asks one query over and over, until a turn leaves the loop with a value. -/
  | loop {ρ β : Type} (s : ρ) (q : F.Query) (turn : ρ → F.Answer q → ρ ⊕ β)
      (k : β → Program F α)

variable {F : Interface} {α β γ σ ε ρ : Type}

namespace Program

def bind : Program F α → (α → Program F β) → Program F β
  | done a, f => f a
  | ask q k, f => ask q fun answer => (k answer).bind f
  | loop s q turn k, f => loop s q turn fun b => (k b).bind f

/-- The next query of a program, and how it goes on with the answer. -/
def next : Program F α → Option ((q : F.Query) × (F.Answer q → Program F α))
  | done _ => none
  | ask q k => some ⟨q, k⟩
  | loop s q turn k => some ⟨q, fun answer =>
      match turn s answer with
      | .inl s' => loop s' q turn k
      | .inr b => k b⟩

def value : Program F α → Option α
  | done a => some a
  | _ => none

@[simp] theorem bind_done (a : α) (f : α → Program F β) : (done a).bind f = f a := rfl

theorem bind_assoc (p : Program F α) (f : α → Program F β) (g : β → Program F γ) :
    (p.bind f).bind g = p.bind fun a => (f a).bind g := by
  induction p with
  | done a => rfl
  | ask q k ih => exact congrArg (ask q) (funext ih)
  | loop s q turn k ih => exact congrArg (loop s q turn) (funext ih)

@[simp] theorem value_eq_some_iff {p : Program F α} {a : α} : p.value = some a ↔ p = done a := by
  cases p <;> simp [value]

theorem next_bind {p : Program F α} {q : F.Query} {k : F.Answer q → Program F α}
    (h : p.next = some ⟨q, k⟩) (f : α → Program F β) :
    (p.bind f).next = some ⟨q, fun answer => (k answer).bind f⟩ := by
  cases p with
  | done a => cases h
  | ask q' k' =>
    cases h
    rfl
  | loop s q' turn k' =>
    cases h
    simp only [bind, next, Option.some.injEq, Sigma.mk.injEq, heq_eq_eq, true_and]
    funext answer
    cases turn s answer <;> rfl

/-- `p.Runs es p'`: after the answers `es` the program `p` has become `p'`. -/
inductive Runs : Program F α → List F.Event → Program F α → Prop
  | refl (p : Program F α) : Runs p [] p
  | step {p p' : Program F α} {q : F.Query} {k : F.Answer q → Program F α} {es : List F.Event}
      (answer : F.Answer q) : p.next = some ⟨q, k⟩ → Runs (k answer) es p' →
      Runs p (⟨q, answer⟩ :: es) p'

def Returns (p : Program F α) (es : List F.Event) (a : α) : Prop := p.Runs es (done a)

variable {p p' p'' : Program F α} {es es' : List F.Event} {a : α} {b : β}

@[simp] theorem returns_done_iff {a' : α} : (done a).Returns es a' ↔ es = [] ∧ a = a' := by
  constructor
  · intro h
    cases h with
    | refl _ => exact ⟨rfl, rfl⟩
    | step _ hnext _ => cases hnext
  · rintro ⟨rfl, rfl⟩
    exact .refl _

theorem returns_ask_iff {q : F.Query} {k : F.Answer q → Program F α} :
    (ask q k).Returns es a ↔
      ∃ answer es', es = ⟨q, answer⟩ :: es' ∧ (k answer).Returns es' a := by
  constructor
  · intro h
    cases h with
    | step answer hnext hrest =>
      cases hnext
      exact ⟨answer, _, rfl, hrest⟩
  · rintro ⟨answer, es', rfl, hrest⟩
    exact .step answer rfl hrest

theorem Returns.bind {f : α → Program F β} (h : p.Returns es a) (h' : (f a).Returns es' b) :
    (p.bind f).Returns (es ++ es') b := by
  unfold Returns at h
  generalize hd : done a = d at h
  induction h with
  | refl _ =>
    subst hd
    exact h'
  | step answer hnext _ ih => exact .step answer (next_bind hnext f) (ih hd)

theorem returns_bind_iff {f : α → Program F β} : (p.bind f).Returns es b ↔
    ∃ a es₁ es₂, es = es₁ ++ es₂ ∧ p.Returns es₁ a ∧ (f a).Returns es₂ b := by
  refine ⟨fun h => ?_, fun ⟨a, es₁, es₂, he, h, h'⟩ => he ▸ h.bind h'⟩
  unfold Returns at h
  generalize hp : p.bind f = x at h
  generalize hd : done b = d at h
  induction h generalizing p with
  | refl _ =>
    subst hd
    cases p with
    | done a =>
      rw [bind_done] at hp
      exact ⟨a, [], [], rfl, .refl _, by rw [hp]; exact .refl _⟩
    | ask q k => cases hp
    | loop s q turn k => cases hp
  | @step x x' q k es answer hnext hrest ih =>
    subst hd
    cases hpn : p.next with
    | none =>
      cases p with
      | done a =>
        refine ⟨a, [], _, rfl, .refl _, ?_⟩
        rw [bind_done] at hp
        exact hp ▸ .step answer hnext hrest
      | ask q k => cases hpn
      | loop s q turn k => cases hpn
    | some qk =>
      obtain ⟨q', k'⟩ := qk
      rw [← hp, next_bind hpn f] at hnext
      cases hnext
      obtain ⟨a, es₁, es₂, rfl, h₁, h₂⟩ := ih rfl rfl
      exact ⟨a, _ :: es₁, es₂, rfl, .step answer hpn h₁, h₂⟩

/-- A loop that returns has left in a state with any property that all its turns keep. -/
theorem Returns.leaves {s : ρ} {q : F.Query} {turn : ρ → F.Answer q → ρ ⊕ β}
    {k : β → Program F α} (h : (loop s q turn k).Returns es a) {I : ρ → Prop} (hs : I s)
    (hturn : ∀ s answer s', I s → turn s answer = .inl s' → I s') :
    ∃ s' answer b es₁ es₂, I s' ∧ turn s' answer = .inr b ∧ es = es₁ ++ ⟨q, answer⟩ :: es₂ ∧
      (∀ e ∈ es₁, e.query = q) ∧ (k b).Returns es₂ a := by
  unfold Returns at h
  generalize hl : loop s q turn k = l at h
  generalize hd : done a = d at h
  induction h generalizing s with
  | refl _ => subst hd; cases hl
  | @step l l' q' k' es answer hnext hrest ih =>
    subst hl hd
    cases hnext
    cases ht : turn s answer with
    | inl s' =>
      simp only [ht] at hrest ih
      obtain ⟨s'', answer', b, es₁, es₂, hI, hb, rfl, hquery, hk⟩ :=
        ih (hturn s answer s' hs ht) rfl trivial
      refine ⟨s'', answer', b, _ :: es₁, es₂, hI, hb, rfl, fun e he => ?_, hk⟩
      rcases List.mem_cons.mp he with rfl | he
      · rfl
      · exact hquery e he
    | inr b =>
      simp only [ht] at hrest
      exact ⟨s, answer, b, [], es, hs, ht, rfl, fun e he => absurd he List.not_mem_nil, hrest⟩

def Asks (p : Program F α) (es : List F.Event) (q : F.Query) : Prop :=
  ∃ p' k, p.Runs es p' ∧ p'.next = some ⟨q, k⟩

variable {q : F.Query}

theorem not_asks_done : ¬(done a).Asks es q := by
  rintro ⟨p', k, h, hnext⟩
  cases h with
  | refl _ => cases hnext
  | step _ hfirst _ => cases hfirst

theorem asks_ask_iff {q' : F.Query} {k : F.Answer q' → Program F α} : (ask q' k).Asks es q ↔
    es = [] ∧ q' = q ∨ ∃ answer es', es = ⟨q', answer⟩ :: es' ∧ (k answer).Asks es' q := by
  constructor
  · rintro ⟨p', k', h, hnext⟩
    cases h with
    | refl _ =>
      cases hnext
      exact .inl ⟨rfl, rfl⟩
    | step answer hfirst hrest =>
      cases hfirst
      exact .inr ⟨answer, _, rfl, p', k', hrest, hnext⟩
  · rintro (⟨rfl, rfl⟩ | ⟨answer, es', rfl, p', k', hrest, hnext⟩)
    · exact ⟨_, k, .refl _, rfl⟩
    · exact ⟨p', k', .step answer rfl hrest, hnext⟩

theorem asks_loop {s : ρ} {q' : F.Query} {turn : ρ → F.Answer q' → ρ ⊕ β} {k : β → Program F α}
    (h : (loop s q' turn k).Asks es q) (hk : ∀ b es, ¬(k b).Asks es q) : q = q' := by
  obtain ⟨p', k', h, hnext⟩ := h
  generalize hl : loop s q' turn k = l at h
  induction h generalizing s with
  | refl _ =>
    subst hl
    cases hnext
    rfl
  | step answer hfirst hrest ih =>
    subst hl
    cases hfirst
    cases ht : turn s answer with
    | inl s' =>
      simp only [ht] at ih
      exact ih hnext rfl
    | inr b =>
      simp only [ht] at hrest
      exact absurd ⟨_, k', hrest, hnext⟩ (hk b _)

theorem asks_bind_iff {f : α → Program F β} : (p.bind f).Asks es q ↔
    p.Asks es q ∨ ∃ a es₁ es₂, es = es₁ ++ es₂ ∧ p.Returns es₁ a ∧ (f a).Asks es₂ q := by
  constructor
  · rintro ⟨r, k, h, hnext⟩
    -- on the answers: `p` is still running, or it has returned and `f` goes on
    generalize hp : p.bind f = x at h
    induction h generalizing p with
    | refl _ =>
      cases hpn : p.next with
      | none =>
        cases p with
        | done a => exact .inr ⟨a, [], [], rfl, .refl _, _, k, .refl _, by rwa [← hp] at hnext⟩
        | ask q k => cases hpn
        | loop s q turn k => cases hpn
      | some qk =>
        obtain ⟨q', k'⟩ := qk
        rw [← hp, next_bind hpn f] at hnext
        cases hnext
        exact .inl ⟨p, k', .refl _, hpn⟩
    | @step x x' q' k' es answer hfirst hrest ih =>
      cases hpn : p.next with
      | none =>
        cases p with
        | done a =>
          rw [bind_done] at hp
          exact .inr ⟨a, [], _, rfl, .refl _, _, k, hp ▸ .step answer hfirst hrest, hnext⟩
        | ask q k => cases hpn
        | loop s q turn k => cases hpn
      | some qk =>
        obtain ⟨q'', k''⟩ := qk
        rw [← hp, next_bind hpn f] at hfirst
        cases hfirst
        rcases ih hnext rfl with ⟨p', k₁, hasks, hnext'⟩ | ⟨a, es₁, es₂, rfl, h₁, h₂⟩
        · exact .inl ⟨p', k₁, .step answer hpn hasks, hnext'⟩
        · exact .inr ⟨a, _ :: es₁, es₂, rfl, .step answer hpn h₁, h₂⟩
  · rintro (⟨p', k, h, hnext⟩ | ⟨a, es₁, es₂, rfl, h, p', k, h', hnext⟩)
    · refine ⟨p'.bind f, _, ?_, next_bind hnext f⟩
      clear hnext
      induction h with
      | refl _ => exact .refl _
      | step answer hfirst _ ih => exact .step answer (next_bind hfirst f) ih
    · refine ⟨p', k, ?_, hnext⟩
      unfold Returns at h
      generalize hd : done a = d at h
      induction h with
      | refl _ =>
        subst hd
        exact h'
      | step answer hfirst _ ih => exact .step answer (next_bind hfirst f) (ih hd)

theorem Runs.forall_query {P : F.Query → Prop} (h : p.Runs es p')
    (hasks : ∀ es q, p.Asks es q → P q) : ∀ e ∈ es, P e.query := by
  induction h with
  | refl _ => exact fun e he => absurd he List.not_mem_nil
  | @step p p' q k es answer hfirst hrest ih =>
    intro e he
    rcases List.mem_cons.mp he with rfl | he
    · exact hasks [] q ⟨p, k, .refl _, hfirst⟩
    · refine ih (fun es' q' h' => ?_) e he
      obtain ⟨p'', k', hruns, hnext⟩ := h'
      exact hasks _ q' ⟨p'', k', .step answer hfirst hruns, hnext⟩

end Program

/-- A method of an object with state `σ`: a call that fails leaves a state as well. -/
def Method (F : Interface) (σ ε α : Type) : Type 1 := σ → Program F (Outcome ε α × σ)

namespace Method

def ret (a : α) : Method F σ ε α := fun s => .done (.ok a, s)

def andThen (x : Method F σ ε α) (f : α → Method F σ ε β) : Method F σ ε β := fun s =>
  (x s).bind fun
    | (.ok a, s') => f a s'
    | (.err e, s') => .done (.err e, s')
    | (.panic message, s') => .done (.panic message, s')

instance : Monad (Method F σ ε) where
  pure := ret
  bind := andThen

def lift (o : Outcome ε α) : Method F σ ε α := fun s => .done (o, s)

def fail (e : ε) : Method F σ ε α := lift (.err e)

def read : Method F σ ε σ := fun s => .done (.ok s, s)

def modify (f : σ → σ) : Method F σ ε Unit := fun s => .done (.ok (), f s)

/-- A call on a part of the state. -/
def update (call : σ → Outcome ε α × σ) : Method F σ ε α := fun s => .done (call s)

def query (q : F.Query) : Method F σ ε (F.Answer q) := fun s =>
  .ask q fun answer => .done (.ok answer, s)

/-- Asks a query until a turn ends the loop with an outcome. The loop has a local variable. -/
def poll (l : ρ) (q : F.Query) (turn : ρ × σ → F.Answer q → (ρ × σ) ⊕ (Outcome ε α × σ)) :
    Method F σ ε α := fun s =>
  .loop (l, s) q turn .done

def foldM (f : β → α → Method F σ ε β) : β → List α → Method F σ ε β
  | b, [] => ret b
  | b, a :: as => andThen (f b a) fun b => foldM f b as

def Yields (x : Method F σ ε α) (s : σ) (es : List F.Event) (a : α) (s' : σ) : Prop :=
  (x s).Returns es (.ok a, s')

variable {x : Method F σ ε α} {f : α → Method F σ ε β} {s s' s'' : σ} {es es' : List F.Event}
  {a : α} {b : β}

theorem yields_andThen_iff : (andThen x f).Yields s es b s'' ↔
    ∃ a s' es₁ es₂, es = es₁ ++ es₂ ∧ x.Yields s es₁ a s' ∧ (f a).Yields s' es₂ b s'' := by
  unfold Yields andThen
  rw [Program.returns_bind_iff]
  constructor
  · rintro ⟨⟨o, s'⟩, es₁, es₂, rfl, hx, hf⟩
    cases o with
    | ok a => exact ⟨a, s', es₁, es₂, rfl, hx, hf⟩
    | err e => simp at hf
    | panic message => simp at hf
  · rintro ⟨a, s', es₁, es₂, rfl, hx, hf⟩
    exact ⟨(.ok a, s'), es₁, es₂, rfl, hx, hf⟩

@[simp] theorem yields_bind_iff : (x >>= f).Yields s es b s'' ↔
    ∃ a s' es₁ es₂, es = es₁ ++ es₂ ∧ x.Yields s es₁ a s' ∧ (f a).Yields s' es₂ b s'' :=
  yields_andThen_iff

@[simp] theorem yields_pure_iff {a' : α} : (pure a : Method F σ ε α).Yields s es a' s' ↔
    es = [] ∧ a = a' ∧ s = s' := by
  change (Program.done _).Returns _ _ ↔ _
  simp

theorem Yields.pure (a : α) (s : σ) : (Pure.pure a : Method F σ ε α).Yields s [] a s :=
  yields_pure_iff.mpr ⟨rfl, rfl, rfl⟩

theorem Yields.bind (h : x.Yields s es a s') (h' : (f a).Yields s' es' b s'') :
    (x >>= f).Yields s (es ++ es') b s'' :=
  yields_bind_iff.mpr ⟨a, s', es, es', rfl, h, h'⟩

@[simp] theorem yields_lift_iff {o : Outcome ε α} :
    (lift o : Method F σ ε α).Yields s es a s' ↔ es = [] ∧ o = .ok a ∧ s = s' := by
  simp [lift, Yields]

@[simp] theorem not_yields_fail {e : ε} : ¬(fail e : Method F σ ε α).Yields s es a s' := by
  simp [fail]

@[simp] theorem yields_read_iff {t : σ} : (read : Method F σ ε σ).Yields s es t s' ↔
    es = [] ∧ s = t ∧ s = s' := by
  simp [read, Yields]

@[simp] theorem yields_modify_iff {g : σ → σ} {u : Unit} :
    (modify g : Method F σ ε Unit).Yields s es u s' ↔ es = [] ∧ g s = s' := by
  simp [modify, Yields]

@[simp] theorem yields_update_iff {call : σ → Outcome ε α × σ} :
    (update call : Method F σ ε α).Yields s es a s' ↔ es = [] ∧ call s = (.ok a, s') := by
  simp [update, Yields]

@[simp] theorem yields_query_iff {q : F.Query} {answer : F.Answer q} :
    Yields (α := no_index F.Answer q) (query q : Method F σ ε (F.Answer q)) s es answer s' ↔
      es = [⟨q, answer⟩] ∧ s = s' := by
  simp only [query, Yields, Program.returns_ask_iff, Program.returns_done_iff, Prod.mk.injEq,
    Outcome.ok.injEq]
  constructor
  · rintro ⟨answer', es', rfl, rfl, rfl, rfl⟩
    exact ⟨rfl, rfl⟩
  · rintro ⟨rfl, rfl⟩
    exact ⟨answer, [], rfl, rfl, rfl, rfl⟩

/-- A loop that succeeds has left in a state with any property that all its turns keep. -/
theorem Yields.leaves {l : ρ} {q : F.Query}
    {turn : ρ × σ → F.Answer q → (ρ × σ) ⊕ (Outcome ε α × σ)}
    (h : (poll l q turn).Yields s es a s') {I : ρ × σ → Prop} (hs : I (l, s))
    (hturn : ∀ t answer t', I t → turn t answer = .inl t' → I t') :
    ∃ t answer es', I t ∧ turn t answer = .inr (.ok a, s') ∧ es = es' ++ [⟨q, answer⟩] ∧
      ∀ e ∈ es, e.query = q := by
  obtain ⟨t, answer, b, es₁, es₂, hI, hb, rfl, hquery, hdone⟩ := Program.Returns.leaves h hs hturn
  obtain ⟨rfl, rfl⟩ := Program.returns_done_iff.mp hdone
  refine ⟨t, answer, es₁, hI, hb, rfl, fun e he => ?_⟩
  rcases List.mem_append.mp he with he | he
  · exact hquery e he
  · rw [List.mem_singleton.mp he]

@[simp] theorem yields_foldM_nil_iff {g : β → α → Method F σ ε β} {b' : β} :
    (foldM g b []).Yields s es b' s' ↔ es = [] ∧ b = b' ∧ s = s' := yields_pure_iff

theorem yields_foldM_cons_iff {g : β → α → Method F σ ε β} {as : List α} {b' : β} :
    (foldM g b (a :: as)).Yields s es b' s'' ↔ ∃ b₁ s' es₁ es₂, es = es₁ ++ es₂ ∧
      (g b a).Yields s es₁ b₁ s' ∧ (foldM g b₁ as).Yields s' es₂ b' s'' :=
  yields_andThen_iff

theorem Yields.foldM_nil {g : β → α → Method F σ ε β} : (foldM g b []).Yields s [] b s :=
  .pure b s

theorem Yields.foldM_cons {g : β → α → Method F σ ε β} {as : List α} {b' b'' : β}
    (h : (g b a).Yields s es b' s') (h' : (foldM g b' as).Yields s' es' b'' s'') :
    (foldM g b (a :: as)).Yields s (es ++ es') b'' s'' :=
  yields_foldM_cons_iff.mpr ⟨b', s', es, es', rfl, h, h'⟩

theorem exists_yields_foldM {g : β → α → Method F σ ε β}
    (hturn : ∀ b a s, ∃ es b' s', (g b a).Yields s es b' s') (b : β) (as : List α) (s : σ) :
    ∃ es b' s', (foldM g b as).Yields s es b' s' := by
  induction as generalizing b s with
  | nil => exact ⟨[], b, s, yields_foldM_nil_iff.mpr ⟨rfl, rfl, rfl⟩⟩
  | cons a as ih =>
    obtain ⟨es₁, b₁, s₁, hfirst⟩ := hturn b a s
    obtain ⟨es₂, b₂, s₂, hrest⟩ := ih b₁ s₁
    exact ⟨es₁ ++ es₂, b₂, s₂, yields_foldM_cons_iff.mpr ⟨b₁, s₁, es₁, es₂, rfl, hfirst, hrest⟩⟩

/-- What every turn of a loop keeps, given the answers so far, holds at its end. -/
theorem Yields.foldM_invariant {g : β → α → Method F σ ε β} {as : List α} {b' : β}
    {P : ℕ → List F.Event → β → σ → Prop} (h : (foldM g b as).Yields s es b' s')
    (hstart : P 0 [] b s)
    (hturn : ∀ n es₁ b s a es₂ b' s', P n es₁ b s → (g b a).Yields s es₂ b' s' →
      P (n + 1) (es₁ ++ es₂) b' s') :
    P as.length es b' s' := by
  suffices hgen : ∀ n es₀ b s es, P n es₀ b s → (foldM g b as).Yields s es b' s' →
      P (n + as.length) (es₀ ++ es) b' s' by
    have hend := hgen 0 [] b s es hstart h
    rwa [Nat.zero_add] at hend
  clear h hstart
  induction as with
  | nil =>
    intro n es₀ b s es hP h
    obtain ⟨rfl, rfl, rfl⟩ := yields_foldM_nil_iff.mp h
    rwa [List.append_nil]
  | cons a as ih =>
    intro n es₀ b s es hP h
    obtain ⟨b₁, s₁, es₁, es₂, rfl, hfirst, hrest⟩ := yields_foldM_cons_iff.mp h
    have hend := ih (n + 1) (es₀ ++ es₁) b₁ s₁ es₂ (hturn n es₀ b s a es₁ b₁ s₁ hP hfirst) hrest
    rwa [List.append_assoc, Nat.add_right_comm, Nat.add_assoc] at hend

/-- After the answers `es` the method has ended with the outcome `o` and left the state `s'`. -/
def Ends (x : Method F σ ε α) (s : σ) (es : List F.Event) (o : Outcome ε α) (s' : σ) : Prop :=
  (x s).Returns es (o, s')

theorem ends_andThen_iff {o : Outcome ε β} : (andThen x f).Ends s es o s'' ↔
    (∃ a s' es₁ es₂, es = es₁ ++ es₂ ∧ x.Yields s es₁ a s' ∧ (f a).Ends s' es₂ o s'') ∨
    (∃ e, x.Ends s es (.err e) s'' ∧ o = .err e) ∨
    ∃ message, x.Ends s es (.panic message) s'' ∧ o = .panic message := by
  unfold Ends Yields andThen
  rw [Program.returns_bind_iff]
  constructor
  · rintro ⟨⟨o', s'⟩, es₁, es₂, rfl, hx, hf⟩
    cases o' with
    | ok a => exact .inl ⟨a, s', es₁, es₂, rfl, hx, hf⟩
    | err e =>
      obtain ⟨rfl, heq⟩ := Program.returns_done_iff.mp hf
      obtain ⟨rfl, rfl⟩ := Prod.mk.inj heq
      exact .inr (.inl ⟨e, by rwa [List.append_nil], rfl⟩)
    | panic message =>
      obtain ⟨rfl, heq⟩ := Program.returns_done_iff.mp hf
      obtain ⟨rfl, rfl⟩ := Prod.mk.inj heq
      exact .inr (.inr ⟨message, by rwa [List.append_nil], rfl⟩)
  · rintro (⟨a, s', es₁, es₂, rfl, hx, hf⟩ | ⟨e, hx, rfl⟩ | ⟨message, hx, rfl⟩)
    · exact ⟨(.ok a, s'), es₁, es₂, rfl, hx, hf⟩
    · exact ⟨_, es, [], (List.append_nil es).symm, hx, .refl _⟩
    · exact ⟨_, es, [], (List.append_nil es).symm, hx, .refl _⟩

theorem ends_bind_iff {o : Outcome ε β} : (x >>= f).Ends s es o s'' ↔
    (∃ a s' es₁ es₂, es = es₁ ++ es₂ ∧ x.Yields s es₁ a s' ∧ (f a).Ends s' es₂ o s'') ∨
    (∃ e, x.Ends s es (.err e) s'' ∧ o = .err e) ∨
    ∃ message, x.Ends s es (.panic message) s'' ∧ o = .panic message :=
  ends_andThen_iff

theorem ends_foldM_cons_iff {g : β → α → Method F σ ε β} {as : List α} {o : Outcome ε β} :
    (foldM g b (a :: as)).Ends s es o s'' ↔
      (∃ b' s' es₁ es₂, es = es₁ ++ es₂ ∧ (g b a).Yields s es₁ b' s' ∧
        (foldM g b' as).Ends s' es₂ o s'') ∨
      (∃ e, (g b a).Ends s es (.err e) s'' ∧ o = .err e) ∨
      ∃ message, (g b a).Ends s es (.panic message) s'' ∧ o = .panic message :=
  ends_andThen_iff

@[simp] theorem ends_foldM_nil_iff {g : β → α → Method F σ ε β} {o : Outcome ε β} :
    (foldM g b []).Ends s es o s' ↔ es = [] ∧ .ok b = o ∧ s = s' := by
  simp [foldM, ret, Ends]

@[simp] theorem ends_pure_iff {o : Outcome ε α} :
    (pure a : Method F σ ε α).Ends s es o s' ↔ es = [] ∧ .ok a = o ∧ s = s' := by
  change (Program.done _).Returns _ _ ↔ _
  simp

@[simp] theorem ends_lift_iff {o o' : Outcome ε α} :
    (lift o : Method F σ ε α).Ends s es o' s' ↔ es = [] ∧ o = o' ∧ s = s' := by
  simp [lift, Ends]

@[simp] theorem ends_fail_iff {e : ε} {o : Outcome ε α} :
    (fail e : Method F σ ε α).Ends s es o s' ↔ es = [] ∧ .err e = o ∧ s = s' := by
  simp [fail]

theorem ends_query_iff {q : F.Query} {o : Outcome ε (F.Answer q)} :
    (query q : Method F σ ε (F.Answer q)).Ends s es o s' ↔
      ∃ answer, es = [⟨q, answer⟩] ∧ .ok answer = o ∧ s = s' := by
  simp [query, Ends, Program.returns_ask_iff, eq_comm]

theorem ends_query_bind_iff {q : F.Query} {g : F.Answer q → Method F σ ε β} {o : Outcome ε β} :
    ((query q : Method F σ ε (F.Answer q)) >>= g).Ends s es o s' ↔
      ∃ answer es', es = ⟨q, answer⟩ :: es' ∧ (g answer).Ends s es' o s' :=
  Program.returns_ask_iff

theorem ends_modify_bind_iff {g : σ → σ} {f : Unit → Method F σ ε β} {o : Outcome ε β} :
    (modify g >>= f : Method F σ ε β).Ends s es o s' ↔ (f ()).Ends (g s) es o s' := Iff.rfl

/-- A loop that ends has left in a state with any property that all its turns keep. -/
theorem Ends.leaves {l : ρ} {q : F.Query}
    {turn : ρ × σ → F.Answer q → (ρ × σ) ⊕ (Outcome ε α × σ)} {o : Outcome ε α}
    (h : (poll l q turn).Ends s es o s') {I : ρ × σ → Prop} (hs : I (l, s))
    (hturn : ∀ t answer t', I t → turn t answer = .inl t' → I t') :
    ∃ t answer, I t ∧ turn t answer = .inr (o, s') := by
  obtain ⟨t, answer, b, es₁, es₂, hI, hb, -, -, hdone⟩ := Program.Returns.leaves h hs hturn
  obtain ⟨-, rfl⟩ := Program.returns_done_iff.mp hdone
  exact ⟨t, answer, hI, hb⟩

theorem lift_ok_bind (a : α) (f : α → Method F σ ε β) : (lift (.ok a) >>= f) = f a := rfl

theorem lift_err_bind (e : ε) (f : α → Method F σ ε β) : (lift (.err e) >>= f) = lift (.err e) :=
  rfl

def NeverPanics (x : Method F σ ε α) : Prop :=
  ∀ s es message s', ¬x.Ends s es (.panic message) s'

theorem neverPanics_lift {o : Outcome ε α} (h : ∀ message, o ≠ .panic message) :
    (lift o : Method F σ ε α).NeverPanics :=
  fun _ _ message _ hends => h message (ends_lift_iff.mp hends).2.1

theorem neverPanics_pure : (pure a : Method F σ ε α).NeverPanics :=
  neverPanics_lift fun _ => Outcome.ok_ne_panic _ _

theorem neverPanics_query {q : F.Query} :
    (query q : Method F σ ε (F.Answer q)).NeverPanics := by
  intro s es message s' hends
  obtain ⟨_, -, heq, -⟩ := ends_query_iff.mp hends
  cases heq

theorem NeverPanics.bind (h : x.NeverPanics) (h' : ∀ a, (f a).NeverPanics) :
    (x >>= f).NeverPanics := by
  intro s es message s' hends
  rcases ends_bind_iff.mp hends with ⟨a, s₁, _, es₂, -, -, hf⟩ | ⟨e, -, heq⟩ | ⟨_, hx, -⟩
  · exact h' a s₁ es₂ message s' hf
  · cases heq
  · exact h s es _ s' hx

theorem neverPanics_read : (read : Method F σ ε σ).NeverPanics := by
  intro s es message s' hends
  cases (Prod.mk.inj (Program.returns_done_iff.mp hends).2).1

theorem neverPanics_modify {g : σ → σ} : (modify g : Method F σ ε Unit).NeverPanics := by
  intro s es message s' hends
  cases (Prod.mk.inj (Program.returns_done_iff.mp hends).2).1

theorem neverPanics_foldM {g : β → α → Method F σ ε β} (h : ∀ b a, (g b a).NeverPanics) (b : β)
    (as : List α) : (foldM g b as).NeverPanics := by
  induction as generalizing b with
  | nil => exact neverPanics_pure
  | cons a as ih => exact (h b a).bind fun b => ih b

def Asks (x : Method F σ ε α) (s : σ) (es : List F.Event) (q : F.Query) : Prop :=
  (x s).Asks es q

section Asks

variable {q : F.Query}

theorem asks_bind_iff : (x >>= f).Asks s es q ↔ x.Asks s es q ∨
    ∃ a s' es₁ es₂, es = es₁ ++ es₂ ∧ x.Yields s es₁ a s' ∧ (f a).Asks s' es₂ q := by
  change ((x s).bind _).Asks es q ↔ _
  rw [Program.asks_bind_iff]
  apply or_congr_right
  constructor
  · rintro ⟨⟨o, s'⟩, es₁, es₂, rfl, hx, hf⟩
    cases o with
    | ok a => exact ⟨a, s', es₁, es₂, rfl, hx, hf⟩
    | err e => exact absurd hf Program.not_asks_done
    | panic message => exact absurd hf Program.not_asks_done
  · rintro ⟨a, s', es₁, es₂, rfl, hx, hf⟩
    exact ⟨(.ok a, s'), es₁, es₂, rfl, hx, hf⟩

theorem not_asks_pure : ¬(pure a : Method F σ ε α).Asks s es q := Program.not_asks_done

theorem not_asks_lift {o : Outcome ε α} : ¬(lift o : Method F σ ε α).Asks s es q :=
  Program.not_asks_done

theorem asks_query_iff {q' : F.Query} :
    (query q' : Method F σ ε (F.Answer q')).Asks s es q ↔ es = [] ∧ q' = q := by
  rw [Asks, query, Program.asks_ask_iff]
  refine or_iff_left ?_
  rintro ⟨answer, es', -, h⟩
  exact Program.not_asks_done h

theorem asks_modify_bind_iff {g : σ → σ} {f : Unit → Method F σ ε β} :
    (modify g >>= f : Method F σ ε β).Asks s es q ↔ (f ()).Asks (g s) es q := Iff.rfl

def OnlyAsks (x : Method F σ ε α) (P : F.Query → Prop) : Prop :=
  ∀ s es q, x.Asks s es q → P q

variable {P : F.Query → Prop}

theorem OnlyAsks.forall_query (h : x.OnlyAsks P) {o : Outcome ε α} (hends : x.Ends s es o s') :
    ∀ e ∈ es, P e.query := Program.Runs.forall_query hends (h s)

theorem onlyAsks_pure : (pure a : Method F σ ε α).OnlyAsks P :=
  fun _ _ _ h => absurd h not_asks_pure

theorem onlyAsks_lift {o : Outcome ε α} : (lift o : Method F σ ε α).OnlyAsks P :=
  fun _ _ _ h => absurd h not_asks_lift

theorem onlyAsks_read : (read : Method F σ ε σ).OnlyAsks P :=
  fun _ _ _ h => absurd h Program.not_asks_done

theorem onlyAsks_modify {g : σ → σ} : (modify g : Method F σ ε Unit).OnlyAsks P :=
  fun _ _ _ h => absurd h Program.not_asks_done

theorem onlyAsks_query {q : F.Query} (hq : P q) :
    (query q : Method F σ ε (F.Answer q)).OnlyAsks P := by
  intro s es q' h
  obtain ⟨-, rfl⟩ := asks_query_iff.mp h
  exact hq

theorem onlyAsks_poll {l : ρ} {q : F.Query}
    {turn : ρ × σ → F.Answer q → (ρ × σ) ⊕ (Outcome ε α × σ)} (hq : P q) :
    (poll l q turn).OnlyAsks P := by
  intro s es q' h
  rw [Program.asks_loop h fun b es => Program.not_asks_done]
  exact hq

theorem OnlyAsks.bind (h : x.OnlyAsks P) (h' : ∀ a, (f a).OnlyAsks P) : (x >>= f).OnlyAsks P := by
  intro s es q hq
  rcases asks_bind_iff.mp hq with hq | ⟨a, s', es₁, es₂, -, -, hq⟩
  · exact h s es q hq
  · exact h' a s' es₂ q hq

theorem onlyAsks_foldM {g : β → α → Method F σ ε β} (h : ∀ b a, (g b a).OnlyAsks P) (b : β)
    (as : List α) : (foldM g b as).OnlyAsks P := by
  induction as generalizing b with
  | nil => exact onlyAsks_pure
  | cons a as ih => exact (h b a).bind fun b => ih b

end Asks

end Method
end FrostTools
