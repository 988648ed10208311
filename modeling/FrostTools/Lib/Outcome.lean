import Mathlib.Data.List.Forall2
import Mathlib.Data.List.Induction

namespace FrostTools

/-- A call returns a value, returns an error, or panics. -/
inductive Outcome (ε α : Type*) where
  | ok (a : α)
  | err (e : ε)
  | panic (message : String)
  deriving DecidableEq, Repr

namespace Outcome

variable {ε α β : Type*}

def bind : Outcome ε α → (α → Outcome ε β) → Outcome ε β
  | .ok a, f => f a
  | .err e, _ => .err e
  | .panic message, _ => .panic message

def isOk : Outcome ε α → Bool
  | .ok _ => true
  | _ => false

def okOr (e : ε) : Option α → Outcome ε α
  | some a => .ok a
  | none => .err e

def mapErr {δ : Type*} (f : ε → δ) : Outcome ε α → Outcome δ α
  | .ok a => .ok a
  | .err e => .err (f e)
  | .panic message => .panic message

def mapM (f : α → Outcome ε β) : List α → Outcome ε (List β)
  | [] => .ok []
  | a :: as => (f a).bind fun b => (mapM f as).bind fun bs => .ok (b :: bs)

def foldM (f : β → α → Outcome ε β) : β → List α → Outcome ε β
  | b, [] => .ok b
  | b, a :: as => (f b a).bind fun b => foldM f b as

theorem err_ne_ok (e : ε) (a : α) : (.err e : Outcome ε α) ≠ .ok a := by
  intro h
  cases h

theorem panic_ne_ok (message : String) (a : α) : (.panic message : Outcome ε α) ≠ .ok a := by
  intro h
  cases h

theorem ok_ne_panic (a : α) (message : String) : (.ok a : Outcome ε α) ≠ .panic message := by
  intro h
  cases h

theorem err_ne_panic (e : ε) (message : String) : (.err e : Outcome ε α) ≠ .panic message := by
  intro h
  cases h

theorem okOr_ne_panic (e : ε) (o : Option α) (message : String) : okOr e o ≠ .panic message := by
  cases o with
  | none => exact err_ne_panic e message
  | some a => exact ok_ne_panic a message

theorem bind_eq_ok_iff {x : Outcome ε α} {f : α → Outcome ε β} {b : β} :
    x.bind f = .ok b ↔ ∃ a, x = .ok a ∧ f a = .ok b := by
  cases x <;> simp [bind]

theorem panic_of_bind_eq_panic {x : Outcome ε α} {f : α → Outcome ε β} {message : String}
    (h : x.bind f = .panic message) (hf : ∀ a, f a ≠ .panic message) : x = .panic message := by
  cases x with
  | ok a => exact absurd h (hf a)
  | err e => cases h
  | panic m => rw [Outcome.panic.inj h]

@[simp] theorem okOr_eq_ok_iff {e : ε} {o : Option α} {a : α} : okOr e o = .ok a ↔ o = some a := by
  cases o <;> simp [okOr]

@[simp] theorem mapErr_eq_ok_iff {δ : Type*} {f : ε → δ} {x : Outcome ε α} {a : α} :
    x.mapErr f = .ok a ↔ x = .ok a := by
  cases x <;> simp [mapErr]

theorem mapErr_eq_panic_iff {δ : Type*} {f : ε → δ} {x : Outcome ε α} {message : String} :
    x.mapErr f = .panic message ↔ x = .panic message := by
  cases x <;> simp [mapErr]

theorem isOk_iff {x : Outcome ε α} : x.isOk = true ↔ ∃ a, x = .ok a := by
  cases x <;> simp [isOk]

theorem ite_err_eq_ok_iff {p : Prop} [Decidable p] {e : ε} {x : Outcome ε α} {a : α} :
    (if p then .err e else x) = .ok a ↔ ¬p ∧ x = .ok a := by
  split_ifs with hp <;> simp [hp]

@[simp] theorem mapM_nil (f : α → Outcome ε β) : mapM f [] = .ok [] := rfl

theorem mapM_cons_eq_ok_iff {f : α → Outcome ε β} {a : α} {as : List α} {bs : List β} :
    mapM f (a :: as) = .ok bs ↔ ∃ b bs', f a = .ok b ∧ mapM f as = .ok bs' ∧ b :: bs' = bs := by
  simp [mapM, bind_eq_ok_iff]

theorem mapM_eq_ok_iff {f : α → Outcome ε β} {as : List α} {bs : List β} :
    mapM f as = .ok bs ↔ List.Forall₂ (fun a b => f a = .ok b) as bs := by
  induction as generalizing bs with
  | nil => simp [eq_comm]
  | cons a as ih => simp [mapM_cons_eq_ok_iff, ih, List.forall₂_cons_left_iff, eq_comm]

theorem length_of_mapM {f : α → Outcome ε β} {as : List α} {bs : List β}
    (h : mapM f as = .ok bs) : bs.length = as.length := (mapM_eq_ok_iff.mp h).length_eq.symm

theorem map_of_mapM {γ : Type*} {f : α → Outcome ε β} {g : β → γ} {k : α → γ} {as : List α}
    {bs : List β} (h : mapM f as = .ok bs) (hg : ∀ a b, f a = .ok b → g b = k a) :
    bs.map g = as.map k := by
  have hall := mapM_eq_ok_iff.mp h
  clear h
  induction hall with
  | nil => rfl
  | cons hb _ ih => rw [List.map_cons, List.map_cons, hg _ _ hb, ih]

theorem exists_of_mapM_okOr {γ : Type*} {e : ε} {f : α → Option γ} {g : α → γ → β} {as : List α}
    {bs : List β} (h : mapM (fun a => (okOr e (f a)).bind fun c => .ok (g a c)) as = .ok bs) :
    ∃ found : List (α × γ), found.map Prod.fst = as ∧ (∀ a c, (a, c) ∈ found → f a = some c) ∧
      bs = found.map fun x => g x.1 x.2 := by
  induction as generalizing bs with
  | nil =>
    obtain rfl := ok.inj h
    exact ⟨[], rfl, fun _ _ hmem => absurd hmem List.not_mem_nil, rfl⟩
  | cons a as ih =>
    obtain ⟨b, bs', hb, hbs, rfl⟩ := mapM_cons_eq_ok_iff.mp h
    obtain ⟨found, rfl, hfound, rfl⟩ := ih hbs
    obtain ⟨c, hc, hb⟩ := bind_eq_ok_iff.mp hb
    obtain rfl := ok.inj hb
    refine ⟨(a, c) :: found, rfl, fun a' c' hmem => ?_, rfl⟩
    rcases List.mem_cons.mp hmem with heq | hmem'
    · obtain ⟨rfl, rfl⟩ := Prod.mk.inj heq
      exact okOr_eq_ok_iff.mp hc
    · exact hfound a' c' hmem'

theorem exists_of_mem_mapM {f : α → Outcome ε β} {as : List α} {bs : List β} {b : β}
    (h : mapM f as = .ok bs) (hmem : b ∈ bs) : ∃ a ∈ as, f a = .ok b := by
  have hall := mapM_eq_ok_iff.mp h
  clear h
  induction hall with
  | nil => cases hmem
  | @cons a _ _ _ hb _ ih =>
    obtain rfl | hmem := List.mem_cons.mp hmem
    · exact ⟨a, List.mem_cons_self, hb⟩
    · obtain ⟨a, ha, hf⟩ := ih hmem
      exact ⟨a, List.mem_cons_of_mem _ ha, hf⟩

theorem exists_mapM_eq_ok_iff {f : α → Outcome ε β} {as : List α} :
    (∃ bs, mapM f as = .ok bs) ↔ ∀ a ∈ as, ∃ b, f a = .ok b := by
  simp only [mapM_eq_ok_iff]
  induction as with
  | nil => simp
  | cons a as ih =>
    rw [List.forall_mem_cons, ← ih]
    constructor
    · rintro ⟨_, h⟩
      cases h with
      | cons hb hbs => exact ⟨⟨_, hb⟩, ⟨_, hbs⟩⟩
    · rintro ⟨⟨b, hb⟩, ⟨bs, hbs⟩⟩
      exact ⟨b :: bs, .cons hb hbs⟩

theorem foldM_congr {f g : β → α → Outcome ε β} {b : β} {as : List α}
    (h : ∀ b, ∀ a ∈ as, f b a = g b a) : foldM f b as = foldM g b as := by
  induction as generalizing b with
  | nil => rfl
  | cons a as ih =>
    rw [foldM, foldM, h b a List.mem_cons_self]
    congr 1
    funext b'
    exact ih fun b a ha => h b a (List.mem_cons_of_mem _ ha)

theorem foldM_append {f : β → α → Outcome ε β} {b : β} {as as' : List α} :
    foldM f b (as ++ as') = (foldM f b as).bind fun b' => foldM f b' as' := by
  induction as generalizing b with
  | nil => rfl
  | cons a as ih =>
    simp only [List.cons_append, foldM]
    cases f b a with
    | ok b' => exact ih
    | err e => rfl
    | panic message => rfl

theorem foldM_append_singleton {f : β → α → Outcome ε β} {b : β} {as : List α} {a : α} :
    foldM f b (as ++ [a]) = (foldM f b as).bind fun b => f b a := by
  rw [foldM_append]
  congr 1
  funext b
  rw [foldM]
  cases f b a <;> rfl

theorem bind_assoc {γ : Type*} (x : Outcome ε α) (f : α → Outcome ε β) (g : β → Outcome ε γ) :
    (x.bind f).bind g = x.bind fun a => (f a).bind g := by
  cases x <;> rfl

def NeverPanics (x : Outcome ε α) : Prop := ∀ message, x ≠ .panic message

namespace NeverPanics

theorem ok (a : α) : (.ok a : Outcome ε α).NeverPanics := ok_ne_panic a

theorem err (e : ε) : (.err e : Outcome ε α).NeverPanics := err_ne_panic e

theorem okOr (e : ε) (o : Option α) : (okOr e o).NeverPanics := okOr_ne_panic e o

theorem bind {x : Outcome ε α} {f : α → Outcome ε β} (h : x.NeverPanics)
    (hf : ∀ a, (f a).NeverPanics) : (x.bind f).NeverPanics :=
  fun message hpanic => h message (panic_of_bind_eq_panic hpanic fun a => hf a message)

theorem mapM {f : α → Outcome ε β} (h : ∀ a, (f a).NeverPanics) (as : List α) :
    (mapM f as).NeverPanics := by
  induction as with
  | nil => exact ok []
  | cons a as ih => exact (h a).bind fun b => ih.bind fun bs => ok (b :: bs)

end NeverPanics

/-- The outcome is a value where `p` holds, and a panic where it does not. -/
def PanicsUnless (x : Outcome ε α) (p : Prop) : Prop :=
  (p → ∃ a, x = .ok a) ∧ (¬p → ∃ message, x = .panic message)

namespace PanicsUnless

variable {x : Outcome ε α} {p q : Prop}

theorem congr (h : x.PanicsUnless p) (hpq : p ↔ q) : x.PanicsUnless q := by
  rwa [← propext hpq]

theorem of_ok {a : α} (h : x = .ok a) (hp : p) : x.PanicsUnless p :=
  ⟨fun _ => ⟨a, h⟩, fun hnot => absurd hp hnot⟩

theorem of_panic {message : String} (h : x = .panic message) (hp : ¬p) : x.PanicsUnless p :=
  ⟨fun hp' => absurd hp' hp, fun _ => ⟨message, h⟩⟩

theorem never_panics_iff (h : x.PanicsUnless p) : (∀ message, x ≠ .panic message) ↔ p := by
  constructor
  · intro hnever
    by_contra hp
    obtain ⟨message, hpanic⟩ := h.2 hp
    exact hnever message hpanic
  · intro hp message
    obtain ⟨a, ha⟩ := h.1 hp
    rw [ha]
    exact ok_ne_panic a message

theorem bind {f : α → Outcome ε β} (h : x.PanicsUnless p)
    (hf : ∀ a, x = .ok a → (f a).PanicsUnless q) : (x.bind f).PanicsUnless (p ∧ q) := by
  by_cases hp : p
  · obtain ⟨a, ha⟩ := h.1 hp
    have hfa := hf a ha
    rw [ha]
    exact hfa.congr (and_iff_right hp).symm
  · obtain ⟨message, hpanic⟩ := h.2 hp
    rw [hpanic]
    exact of_panic rfl fun hand => hp hand.1

end PanicsUnless
end Outcome
end FrostTools
