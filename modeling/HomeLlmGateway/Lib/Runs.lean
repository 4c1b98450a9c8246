import Mathlib.Data.List.Basic
import Mathlib.Tactic

/-! # Runs of a partial step function

A system is a function `step : σ → ι → Option σ`: the label says which party moves and how the
environment answers, and `none` means that this label is not possible in this state. A run is a list
of labels. Everything about runs is reduced to one step: an invariant kept by every step holds at the
end of every run (`run_invariant`), and if it is only kept by the steps that meet a condition `C`, it
holds at the end of every run all of whose steps meet `C` (`run_invariant_of`). -/

namespace HomeLlmGateway.Lib.Runs

variable {σ ι : Type*} {step : σ → ι → Option σ}

/-- The state after the labels `ls`, if each of them is possible when its turn comes. -/
def run (step : σ → ι → Option σ) : σ → List ι → Option σ
  | s, [] => some s
  | s, l :: ls => (step s l).bind fun s' => run step s' ls

/-- Some run leads from `s` to `s'`. -/
def Reaches (step : σ → ι → Option σ) (s s' : σ) : Prop := ∃ ls, run step s ls = some s'

/-- Every step of the run from `s` along `ls` meets `C` (a label together with the state before it). -/
def AllSteps (step : σ → ι → Option σ) (C : σ → ι → Prop) : σ → List ι → Prop
  | _, [] => True
  | s, l :: ls => C s l ∧ ∀ s', step s l = some s' → AllSteps step C s' ls

@[simp] theorem run_nil (s : σ) : run step s [] = some s := rfl

theorem run_cons_eq_some {s s' : σ} {l : ι} {ls : List ι} :
    run step s (l :: ls) = some s' ↔ ∃ s1, step s l = some s1 ∧ run step s1 ls = some s' := by
  simp [run, Option.bind_eq_some_iff]

theorem run_append : ∀ (as bs : List ι) (s : σ),
    run step s (as ++ bs) = (run step s as).bind fun s' => run step s' bs
  | [], bs, s => by simp
  | a :: as, bs, s => by
    rw [List.cons_append]
    cases h : step s a with
    | none => simp [run, h]
    | some s1 => simpa [run, h] using run_append as bs s1

theorem run_concat_eq_some {s s' : σ} {l : ι} {ls : List ι} :
    run step s (ls ++ [l]) = some s' ↔ ∃ s1, run step s ls = some s1 ∧ step s1 l = some s' := by
  rw [run_append, Option.bind_eq_some_iff]
  simp [run]

theorem Reaches.refl (s : σ) : Reaches step s s := ⟨[], rfl⟩

theorem Reaches.tail {s s1 s2 : σ} {l : ι} (h : Reaches step s s1) (hl : step s1 l = some s2) :
    Reaches step s s2 := by
  obtain ⟨ls, hls⟩ := h
  exact ⟨ls ++ [l], run_concat_eq_some.mpr ⟨s1, hls, hl⟩⟩

/-- What `f` accumulates over the steps of the run from `s` along `ls`, each with the state before it. -/
def foldAlong {α : Type*} (f : α → σ → ι → α) (step : σ → ι → Option σ) : α → σ → List ι → α
  | a, _, [] => a
  | a, s, l :: ls => (step s l).elim (f a s l) fun s' => foldAlong f step (f a s l) s' ls

theorem foldAlong_concat {α : Type*} (f : α → σ → ι → α) {l : ι} : ∀ {ls : List ι} {a : α} {s s1 : σ},
    run step s ls = some s1 →
    foldAlong f step a s (ls ++ [l]) = f (foldAlong f step a s ls) s1 l
  | [], a, s, s1, h => by
    simp only [run_nil, Option.some.injEq] at h
    subst h
    cases hl : step s l <;> simp [foldAlong, hl]
  | l1 :: ls, a, s, s1, h => by
    obtain ⟨s2, h1, h2⟩ := run_cons_eq_some.mp h
    have ih := foldAlong_concat f (l := l) (a := f a s l1) h2
    simpa only [List.cons_append, foldAlong, h1, Option.elim_some] using ih

/-- The first value that `f` gives on the steps of the run from `s` along `ls`. -/
def firstAlong {α : Type*} (f : σ → ι → Option α) (step : σ → ι → Option σ) (s : σ) (ls : List ι) :
    Option α :=
  foldAlong (fun a s l => a.or (f s l)) step none s ls

theorem firstAlong_concat {α : Type*} (f : σ → ι → Option α) {l : ι} {ls : List ι} {s s1 : σ}
    (h : run step s ls = some s1) :
    firstAlong f step s (ls ++ [l]) = (firstAlong f step s ls).or (f s1 l) :=
  foldAlong_concat _ h

theorem allSteps_concat {C : σ → ι → Prop} {l : ι} : ∀ {ls : List ι} {s s1 : σ},
    AllSteps step C s (ls ++ [l]) → run step s ls = some s1 → AllSteps step C s ls ∧ C s1 l
  | [], s, s1, hC, h => by
    simp only [run_nil, Option.some.injEq] at h
    subst h
    exact ⟨trivial, hC.1⟩
  | a :: ls, s, s1, hC, h => by
    obtain ⟨s2, h1, h2⟩ := run_cons_eq_some.mp h
    obtain ⟨hls, hl⟩ := allSteps_concat (hC.2 s2 h1) h2
    refine ⟨⟨hC.1, fun s' hs' => ?_⟩, hl⟩
    rw [h1] at hs'
    cases hs'
    exact hls

theorem allSteps_append {C : σ → ι → Prop} {bs : List ι} : ∀ {as : List ι} {s s1 : σ},
    AllSteps step C s (as ++ bs) → run step s as = some s1 → AllSteps step C s as ∧ AllSteps step C s1 bs
  | [], s, s1, hC, h => by
    simp only [run_nil, Option.some.injEq] at h
    subst h
    exact ⟨trivial, hC⟩
  | a :: as, s, s1, hC, h => by
    obtain ⟨s2, h1, h2⟩ := run_cons_eq_some.mp h
    obtain ⟨has, hbs⟩ := allSteps_append (hC.2 s2 h1) h2
    refine ⟨⟨hC.1, fun s' hs' => ?_⟩, hbs⟩
    rw [h1] at hs'
    cases hs'
    exact has

theorem AllSteps.and {C D : σ → ι → Prop} : ∀ {ls : List ι} {s : σ}, AllSteps step C s ls →
    AllSteps step D s ls → AllSteps step (fun s l => C s l ∧ D s l) s ls
  | [], _, _, _ => trivial
  | _ :: _, _, hC, hD => ⟨⟨hC.1, hD.1⟩, fun s' h => (hC.2 s' h).and (hD.2 s' h)⟩

theorem allSteps_of_forall {C : ι → Prop} : ∀ {ls : List ι} {s : σ}, (∀ l ∈ ls, C l) →
    AllSteps step (fun _ l => C l) s ls
  | [], _, _ => trivial
  | l :: _, _, h => ⟨h l (by simp), fun _ _ => allSteps_of_forall fun l' hl' => h l' (by simp [hl'])⟩

/-- Whether the steps of a given run meet a decidable condition can be computed. -/
instance decidableAllSteps {C : σ → ι → Prop} [∀ s l, Decidable (C s l)] :
    ∀ (s : σ) (ls : List ι), Decidable (AllSteps step C s ls)
  | _, [] => isTrue trivial
  | s, l :: ls =>
    match h : step s l with
    | none => decidable_of_iff (C s l) (by simp [AllSteps, h])
    | some s1 =>
      have := decidableAllSteps (C := C) s1 ls
      decidable_of_iff (C s l ∧ AllSteps step C s1 ls) (by simp [AllSteps, h])

/-- A run to a state with a decidable property, found by computing it. -/
theorem exists_run (step : σ → ι → Option σ) (s : σ) (ls : List ι) (P : σ → Prop) [DecidablePred P]
    (h : (run step s ls).any (fun s' => P s') = true) : ∃ s', run step s ls = some s' ∧ P s' := by
  obtain ⟨s', hs, hp⟩ := (Option.any_eq_true _ _).mp h
  exact ⟨s', hs, of_decide_eq_true hp⟩

/-! ### The rules -/

/-- **The invariant rule with a condition**: what the steps that meet `C` keep, a run whose steps all
meet `C` keeps. -/
theorem run_invariant_of {I : σ → Prop} {C : σ → ι → Prop}
    (hstep : ∀ s l s', I s → C s l → step s l = some s' → I s') :
    ∀ (ls : List ι) (s s' : σ), I s → AllSteps step C s ls → run step s ls = some s' → I s'
  | [], s, s', hI, _, h => by
    simp only [run_nil, Option.some.injEq] at h
    subst h
    exact hI
  | l :: ls, s, s', hI, hC, h => by
    obtain ⟨s1, h1, h2⟩ := run_cons_eq_some.mp h
    exact run_invariant_of hstep ls s1 s' (hstep s l s1 hI hC.1 h1) (hC.2 s1 h1) h2

/-- **The invariant rule with the past**: the property of a state may also speak of the run that led
to it. -/
theorem run_history {H : List ι → σ → Prop} {C : σ → ι → Prop} {s0 : σ} (h0 : H [] s0)
    (hstep : ∀ ls s l s', run step s0 ls = some s → H ls s → C s l → step s l = some s' →
      H (ls ++ [l]) s') (ls : List ι) :
    ∀ s, AllSteps step C s0 ls → run step s0 ls = some s → H ls s := by
  induction ls using List.reverseRecOn with
  | nil =>
    intro s _ h
    simp only [run_nil, Option.some.injEq] at h
    subst h
    exact h0
  | append_singleton ls l ih =>
    intro s hC h
    obtain ⟨s1, h1, h2⟩ := run_concat_eq_some.mp h
    obtain ⟨hls, hl⟩ := allSteps_concat hC h1
    exact hstep ls s1 l s h1 (ih s1 hls h1) hl h2

theorem allSteps_true (ls : List ι) (s : σ) : AllSteps step (fun _ _ => True) s ls :=
  allSteps_of_forall fun _ _ => trivial

/-- **The invariant rule**: what every step keeps, every run keeps. -/
theorem run_invariant {I : σ → Prop} (hstep : ∀ s l s', I s → step s l = some s' → I s')
    {s s' : σ} (hI : I s) (h : Reaches step s s') : I s' := by
  obtain ⟨ls, hls⟩ := h
  exact run_invariant_of (C := fun _ _ => True) (fun s l s' hs _ => hstep s l s' hs) ls s s' hI
    (allSteps_true ls s) hls

/-- What an invariant gives about the next step holds of every step of the run. -/
theorem allSteps_of_invariant {I : σ → Prop} {C P : σ → ι → Prop}
    (hstep : ∀ s l s', I s → C s l → step s l = some s' → I s')
    (hP : ∀ s l, I s → C s l → P s l) :
    ∀ (ls : List ι) (s : σ), I s → AllSteps step C s ls → AllSteps step P s ls
  | [], _, _, _ => trivial
  | l :: ls, s, hI, hC => ⟨hP s l hI hC.1, fun s' h =>
    allSteps_of_invariant hstep hP ls s' (hstep s l s' hI hC.1 h) (hC.2 s' h)⟩

end HomeLlmGateway.Lib.Runs
