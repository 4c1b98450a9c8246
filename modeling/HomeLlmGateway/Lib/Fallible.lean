import Mathlib.Data.List.Forall2

/-! # Computations that may fail

What it takes for a computation in `Except` to succeed: each of its parts does. For the two loops over a list
whose body knows its place: one that collects results (`traverseFrom`), one that carries a state along
(`foldFrom`). -/

namespace HomeLlmGateway.Lib.Fallible

variable {ε ε' α β σ : Type}

theorem bind_eq_ok {x : Except ε α} {f : α → Except ε β} {b : β} (h : x >>= f = .ok b) :
    ∃ a, x = .ok a ∧ f a = .ok b := by
  cases x with
  | error e => cases h
  | ok a => exact ⟨a, rfl, h⟩

theorem mapError_eq_ok {f : ε → ε'} {x : Except ε α} {a : α} (h : x.mapError f = .ok a) : x = .ok a := by
  cases x with
  | error e => cases h
  | ok b =>
    cases h
    rfl

/-- The results of `f` for the elements of a list, the first one at place `i`. -/
def traverseFrom (f : ℕ → α → Except ε β) : ℕ → List α → Except ε (List β)
  | _, [] => pure []
  | i, a :: l => do
    let b ← f i a
    let bs ← traverseFrom f (i + 1) l
    pure (b :: bs)

theorem traverseFrom_ok {f : ℕ → α → Except ε β} : ∀ {l : List α} {i : ℕ} {bs : List β},
    traverseFrom f i l = .ok bs → List.Forall₂ (fun a b => ∃ j, f j a = .ok b) l bs
  | [], _, _, h => by
    cases h
    exact .nil
  | a :: l, i, _, h => by
    obtain ⟨b, hb, h⟩ := bind_eq_ok h
    obtain ⟨bs, hbs, h⟩ := bind_eq_ok h
    cases h
    exact .cons ⟨i, hb⟩ (traverseFrom_ok hbs)

theorem traverseFrom_of_forall₂ {f : ℕ → α → Except ε β} {l : List α} {bs : List β}
    (h : List.Forall₂ (fun a b => ∀ j, f j a = .ok b) l bs) : ∀ i, traverseFrom f i l = .ok bs := by
  induction h with
  | nil => exact fun _ => rfl
  | cons hab _ ih =>
    intro i
    unfold traverseFrom
    rw [hab i, ih (i + 1)]
    rfl

/-- The state after `f` has run for the elements of a list, the first one at place `i`. -/
def foldFrom (f : ℕ → σ → α → Except ε σ) : ℕ → σ → List α → Except ε σ
  | _, s, [] => pure s
  | i, s, a :: l => do
    let s ← f i s a
    foldFrom f (i + 1) s l

/-- What each step of the loop extends by its element holds of all of them in the end. -/
theorem foldFrom_ok {f : ℕ → σ → α → Except ε σ} {I : List α → σ → Prop}
    (hstep : ∀ i before a s s', I before s → f i s a = .ok s' → I (before ++ [a]) s') :
    ∀ {l before : List α} {i : ℕ} {s s' : σ}, I before s → foldFrom f i s l = .ok s' → I (before ++ l) s'
  | [], before, _, _, _, hI, h => by
    cases h
    rw [List.append_nil]
    exact hI
  | a :: l, before, i, s, s', hI, h => by
    obtain ⟨s1, hs1, h⟩ := bind_eq_ok h
    have hrest := foldFrom_ok hstep (hstep i before a s s1 hI hs1) h
    rw [List.append_assoc] at hrest
    exact hrest

end HomeLlmGateway.Lib.Fallible
