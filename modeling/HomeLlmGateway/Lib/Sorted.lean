import Mathlib.Data.List.Destutter
import Mathlib.Data.List.Sort
import Mathlib.Order.Lattice

/-! # Sorted lists

Lists sorted by a key, and without repetitions: what a program gets that collects from a hash map and sorts.
The result does not depend on the order in which the elements came (`sortOn_congr`), nor, without
repetitions, on how often they came (`sortDedup_congr`). Both sorts are stable: what is picked from a sorted list
is what is picked, sorted (`filter_mergeSort`, `filter_sortOn`). -/

namespace HomeLlmGateway.Lib.Sorted

/-! ### Stability -/

section stable

variable {α : Type*} {le : α → α → Bool}

/-- Where a list falls into two parts that a property tells apart, these are determined. -/
theorem append_inj_of_forall {p : α → Bool} {l₁ l₂ l₁' l₂' : List α} (h : l₁ ++ l₂ = l₁' ++ l₂')
    (h₁ : ∀ b ∈ l₁, p b = false) (h₂ : ∀ b ∈ l₂, p b = true) (h₁' : ∀ b ∈ l₁', p b = false)
    (h₂' : ∀ b ∈ l₂', p b = true) : l₁ = l₁' ∧ l₂ = l₂' := by
  have hpart : ∀ {l₁ l₂ : List α}, (∀ b ∈ l₁, p b = false) → (∀ b ∈ l₂, p b = true) →
      (l₁ ++ l₂).filter p = l₂ := by
    intro l₁ l₂ h₁ h₂
    rw [List.filter_append, List.filter_eq_nil_iff.mpr fun b hb => by simp [h₁ b hb],
      List.filter_eq_self.mpr h₂, List.nil_append]
  have hl₂ : l₂ = l₂' := by rw [← hpart h₁ h₂, h, hpart h₁' h₂']
  subst hl₂
  exact ⟨List.append_cancel_right h, rfl⟩

variable (htrans : ∀ a b c, le a b = true → le b c = true → le a c = true)
  (htotal : ∀ a b, (le a b || le b a) = true)

include htrans htotal

theorem mergeSort_cons_parts (a : α) (l : List α) : ∃ l₁ l₂, (a :: l).mergeSort le = l₁ ++ a :: l₂ ∧
    l.mergeSort le = l₁ ++ l₂ ∧ (∀ b ∈ l₁, le a b = false) ∧ ∀ b ∈ l₂, le a b = true := by
  obtain ⟨l₁, l₂, hcons, hl, hlt⟩ := List.mergeSort_cons htrans htotal a l
  refine ⟨l₁, l₂, hcons, hl, fun b hb => by simpa using hlt b hb, ?_⟩
  have hsorted : (l₁ ++ a :: l₂).Pairwise fun a b => le a b = true := by
    rw [← hcons]
    exact List.pairwise_mergeSort htrans htotal _
  exact (List.pairwise_cons.mp (List.pairwise_append.mp hsorted).2.1).1

theorem filter_mergeSort (q : α → Bool) (l : List α) :
    (l.mergeSort le).filter q = (l.filter q).mergeSort le := by
  induction l with
  | nil => simp
  | cons a l ih =>
    obtain ⟨l₁, l₂, hcons, hl, hlt, hge⟩ := mergeSort_cons_parts htrans htotal a l
    rw [hl, List.filter_append] at ih
    rw [hcons, List.filter_append]
    by_cases hq : q a = true
    · obtain ⟨l₁', l₂', hcons', hl', hlt', hge'⟩ := mergeSort_cons_parts htrans htotal a (l.filter q)
      -- what is picked from before `a` is what is before `a` among what is picked
      have hparts : l₁.filter q = l₁' ∧ l₂.filter q = l₂' := append_inj_of_forall (ih.trans hl')
        (fun b hb => hlt b (List.mem_of_mem_filter hb)) (fun b hb => hge b (List.mem_of_mem_filter hb)) hlt' hge'
      rw [List.filter_cons_of_pos hq, List.filter_cons_of_pos hq, hcons', hparts.1, hparts.2]
    · rw [List.filter_cons_of_neg hq, List.filter_cons_of_neg hq, ih]

end stable

/-- Without antisymmetry: both sorts are stable. -/
theorem insertionSort_eq_mergeSort {α : Type*} (r : α → α → Prop) [DecidableRel r] [Std.Total r] [IsTrans α r]
    (l : List α) : l.insertionSort r = l.mergeSort fun a b => r a b := by
  induction l with
  | nil => simp
  | cons a l ih =>
    have htrans : ∀ a b c, decide (r a b) = true → decide (r b c) = true → decide (r a c) = true := by
      simpa using fun a b c => trans_of r
    have htotal : ∀ a b, (decide (r a b) || decide (r b a)) = true := by
      simpa using total_of r
    obtain ⟨l₁, l₂, hcons, hl, hlt, hge⟩ := mergeSort_cons_parts htrans htotal a l
    rw [List.insertionSort_cons, ih, hl, hcons, List.orderedInsert_eq_take_drop]
    have hp : ∀ b ∈ l₁, (fun b => decide ¬ r a b) b = true := fun b hb => by simpa using hlt b hb
    rw [List.takeWhile_append_of_pos hp, List.dropWhile_append_of_pos hp]
    cases l₂ with
    | nil => simp
    | cons b l₂ =>
      have hb : r a b := by simpa using hge b List.mem_cons_self
      simp [hb]

variable {α β : Type*} [LinearOrder β] {f : α → β}

/-! ### By a key -/

def sortOn (f : α → β) (l : List α) : List α := l.insertionSort fun a b => f a ≤ f b

theorem sortOn_perm (f : α → β) (l : List α) : (sortOn f l).Perm l := List.perm_insertionSort _ l

theorem mem_sortOn {l : List α} {a : α} : a ∈ sortOn f l ↔ a ∈ l := (sortOn_perm f l).mem_iff

theorem pairwise_sortOn (f : α → β) (l : List α) : (sortOn f l).Pairwise fun a b => f a ≤ f b := by
  have htotal : Std.Total fun a b => f a ≤ f b := ⟨fun a b => le_total (f a) (f b)⟩
  have htrans : IsTrans α fun a b => f a ≤ f b := ⟨fun a b c => le_trans⟩
  exact List.pairwise_insertionSort _ l

theorem perm_sortOn (f : α → β) {l l' : List α} (h : l.Perm l') : (sortOn f l).Perm (sortOn f l') :=
  (sortOn_perm f l).trans (h.trans (sortOn_perm f l').symm)

/-- What is picked from the sorted list is what is picked, sorted. -/
theorem filter_sortOn (f : α → β) (q : α → Bool) (l : List α) :
    (sortOn f l).filter q = sortOn f (l.filter q) := by
  have htotal : Std.Total fun a b => f a ≤ f b := ⟨fun a b => le_total (f a) (f b)⟩
  have htrans : IsTrans α fun a b => f a ≤ f b := ⟨fun a b c => le_trans⟩
  rw [sortOn, sortOn, insertionSort_eq_mergeSort, insertionSort_eq_mergeSort]
  exact filter_mergeSort (fun a b c => by simpa using le_trans) (fun a b => by simpa using le_total (f a) (f b)) q l

/-- The order of the elements makes no difference. -/
theorem sortOn_congr (hf : Function.Injective f) {l l' : List α} (h : l.Perm l') : sortOn f l = sortOn f l' :=
  List.Perm.eq_of_pairwise (fun _ _ _ _ hab hba => hf (le_antisymm hab hba)) (pairwise_sortOn f l)
    (pairwise_sortOn f l') (perm_sortOn f h)

/-- Lists of the same elements, sorted by a key, agree in the keys. -/
theorem map_eq_of_perm {l l' : List α} (hl : l.Pairwise fun a b => f a ≤ f b)
    (hl' : l'.Pairwise fun a b => f a ≤ f b) (h : l.Perm l') : l.map f = l'.map f :=
  List.Perm.eq_of_pairwise (fun _ _ _ _ => le_antisymm) (List.pairwise_map.mpr hl) (List.pairwise_map.mpr hl')
    (h.map f)

/-! ### Without repetitions -/

theorem mem_destutter' {α : Type*} [DecidableEq α] {x : α} : ∀ {l : List α} {a : α},
    x ∈ l.destutter' (· ≠ ·) a ↔ x = a ∨ x ∈ l
  | [], a => by simp
  | b :: l, a => by
    rw [List.destutter'_cons]
    by_cases hab : a = b
    · subst hab
      simp [mem_destutter' (l := l)]
    · simp [hab, mem_destutter' (l := l)]

theorem mem_destutter {α : Type*} [DecidableEq α] {x : α} {l : List α} : x ∈ l.destutter (· ≠ ·) ↔ x ∈ l := by
  cases l with
  | nil => simp
  | cons a l => rw [List.destutter_cons', mem_destutter', List.mem_cons]

/-- `sort`, then `dedup`. -/
def sortDedup (l : List β) : List β := (sortOn id l).destutter (· ≠ ·)

theorem mem_sortDedup {l : List β} {x : β} : x ∈ sortDedup l ↔ x ∈ l := by
  rw [sortDedup, mem_destutter, mem_sortOn]

theorem pairwise_sortDedup (l : List β) : (sortDedup l).Pairwise (· < ·) := by
  have hle : (sortDedup l).Pairwise (· ≤ ·) := (pairwise_sortOn id l).sublist (List.destutter_sublist _ _)
  have hne : (sortDedup l).IsChain (· ≠ ·) := List.isChain_destutter _ _
  have hlt : (sortDedup l).IsChain (· < ·) := by
    refine List.isChain_iff_getElem.mpr fun i hi => ?_
    exact lt_of_le_of_ne (List.isChain_iff_getElem.mp hle.isChain i hi) (List.isChain_iff_getElem.mp hne i hi)
  exact List.isChain_iff_pairwise.mp hlt

theorem sortDedup_congr {l l' : List β} (h : ∀ x, x ∈ l ↔ x ∈ l') : sortDedup l = sortDedup l' := by
  have hnodup : ∀ l : List β, (sortDedup l).Nodup := fun l => (pairwise_sortDedup l).imp ne_of_lt
  refine List.Perm.eq_of_pairwise (fun a b _ _ hab hba => absurd hab (not_lt_of_gt hba)) (pairwise_sortDedup l)
    (pairwise_sortDedup l') ?_
  refine (List.perm_ext_iff_of_nodup (hnodup l) (hnodup l')).mpr fun x => ?_
  rw [mem_sortDedup, mem_sortDedup]
  exact h x

end HomeLlmGateway.Lib.Sorted
