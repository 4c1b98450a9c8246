import Mathlib.Data.List.Basic

/-! # Splitting and trimming lists

What the pieces of `List.splitOnP` consist of, and what `List.dropWhile` depends on. -/

namespace HomeLlmGateway.Lib.Split

variable {α : Type*} {p q : α → Bool}

theorem mem_of_mem_splitOnP : ∀ {l piece : List α} {x : α}, piece ∈ l.splitOnP p → x ∈ piece →
    x ∈ l ∧ p x = false
  | [], piece, x, hp, hx => by
    rw [List.splitOnP_nil, List.mem_singleton] at hp
    subst hp
    cases hx
  | y :: l, piece, x, hp, hx => by
    rw [List.splitOnP_cons_eq_if_modifyHead] at hp
    split_ifs at hp with hy
    · rcases List.mem_cons.mp hp with rfl | hp
      · cases hx
      · obtain ⟨h, hpx⟩ := mem_of_mem_splitOnP hp hx
        exact ⟨List.mem_cons_of_mem _ h, hpx⟩
    · -- the first piece got `y` in front
      obtain ⟨q, qs, hq⟩ := List.exists_cons_of_ne_nil (List.splitOnP_ne_nil p l)
      rw [hq, List.modifyHead_cons] at hp
      have hrest : ∀ {piece'}, piece' ∈ q :: qs → x ∈ piece' → x ∈ y :: l ∧ p x = false := by
        intro piece' hm hx
        obtain ⟨h, hpx⟩ := mem_of_mem_splitOnP (hq ▸ hm) hx
        exact ⟨List.mem_cons_of_mem _ h, hpx⟩
      rcases List.mem_cons.mp hp with rfl | hp
      · rcases List.mem_cons.mp hx with rfl | hx
        · exact ⟨List.mem_cons_self, (Bool.not_eq_true _).mp hy⟩
        · exact hrest List.mem_cons_self hx
      · exact hrest (List.mem_cons_of_mem _ hp) hx

theorem splitOnP_congr : ∀ {l : List α}, (∀ x ∈ l, p x = q x) → l.splitOnP p = l.splitOnP q
  | [], _ => rfl
  | x :: l, h => by
    rw [List.splitOnP_cons_eq_if_modifyHead, List.splitOnP_cons_eq_if_modifyHead,
      h x List.mem_cons_self, splitOnP_congr fun y hy => h y (List.mem_cons_of_mem _ hy)]

theorem splitOnP_eq_cons : ∀ l : List α, ∃ pieces, l.splitOnP p = l.takeWhile (fun x => !p x) :: pieces
  | [] => ⟨[], rfl⟩
  | x :: l => by
    obtain ⟨pieces, h⟩ := splitOnP_eq_cons l
    rw [List.splitOnP_cons_eq_if_modifyHead, h]
    cases hx : p x with
    | true => exact ⟨l.takeWhile (fun x => !p x) :: pieces, by simp [hx]⟩
    | false => exact ⟨pieces, by simp [hx]⟩

theorem isInfix_of_mem_splitOnP : ∀ {l piece : List α}, piece ∈ l.splitOnP p → piece <:+: l
  | [], piece, h => by
    rw [List.splitOnP_nil, List.mem_singleton] at h
    exact h ▸ List.nil_infix
  | x :: l, piece, h => by
    obtain ⟨pieces, hl⟩ := splitOnP_eq_cons (p := p) l
    have htail : ∀ {piece'}, piece' ∈ l.splitOnP p → piece' <:+: x :: l := fun hm =>
      (isInfix_of_mem_splitOnP hm).trans (List.suffix_cons x l).isInfix
    rw [List.splitOnP_cons_eq_if_modifyHead] at h
    split_ifs at h
    · rcases List.mem_cons.mp h with rfl | h
      · exact List.nil_infix
      · exact htail h
    · rw [hl, List.modifyHead_cons] at h
      rcases List.mem_cons.mp h with rfl | h
      · exact (List.cons_prefix_cons.mpr ⟨rfl, List.takeWhile_prefix _⟩).isInfix
      · exact htail (hl ▸ List.mem_cons_of_mem _ h)

/-- The whole pieces of a list are pieces of every list that goes on. -/
theorem dropLast_splitOnP_prefix : ∀ {l l' : List α}, l <+: l' →
    (l.splitOnP p).dropLast <+: l'.splitOnP p
  | [], l', _ => by simp
  | x :: l, l', h => by
    obtain ⟨t, rfl⟩ := h
    have ih : (l.splitOnP p).dropLast <+: (l ++ t).splitOnP p :=
      dropLast_splitOnP_prefix (List.prefix_append l t)
    obtain ⟨pieces, hl⟩ := splitOnP_eq_cons (p := p) l
    obtain ⟨pieces', hl'⟩ := splitOnP_eq_cons (p := p) (l ++ t)
    rw [List.cons_append, List.splitOnP_cons_eq_if_modifyHead, List.splitOnP_cons_eq_if_modifyHead]
    rw [hl, hl'] at ih ⊢
    split_ifs
    · rw [List.dropLast_cons_of_ne_nil (List.cons_ne_nil _ _)]
      exact List.cons_prefix_cons.mpr ⟨rfl, ih⟩
    · rw [List.modifyHead_cons, List.modifyHead_cons]
      cases pieces with
      | nil => exact List.nil_prefix
      | cons piece pieces =>
        rw [List.dropLast_cons_of_ne_nil (List.cons_ne_nil _ _)] at ih ⊢
        obtain ⟨hhead, htail⟩ := List.cons_prefix_cons.mp ih
        exact List.cons_prefix_cons.mpr ⟨by rw [hhead], htail⟩

theorem mem_of_mem_splitOn [BEq α] {a x : α} {l piece : List α} (hp : piece ∈ l.splitOn a)
    (hx : x ∈ piece) : x ∈ l := by
  rw [List.splitOn_eq_splitOnP] at hp
  exact (mem_of_mem_splitOnP hp hx).1

theorem dropWhile_congr : ∀ {l : List α}, (∀ x ∈ l, p x = q x) →
    l.dropWhile p = l.dropWhile q
  | [], _ => rfl
  | x :: l, h => by
    rw [List.dropWhile_cons, List.dropWhile_cons, h x List.mem_cons_self,
      dropWhile_congr fun y hy => h y (List.mem_cons_of_mem _ hy)]

/-! ### Splitting once -/

section once

variable [BEq α] [LawfulBEq α]

/-- What comes before the first `sep` in the list, and what comes after it. -/
def splitOnce (sep : List α) : List α → Option (List α × List α)
  | [] => if sep.isEmpty then some ([], []) else none
  | x :: l =>
    if sep.isPrefixOf (x :: l) then some ([], (x :: l).drop sep.length)
    else (splitOnce sep l).map fun r => (x :: r.1, r.2)

/-- The separator ends what comes before it, if it can begin nowhere there. -/
theorem splitOnce_append {x : α} {sep : List α} : ∀ {a : List α} (b : List α), x ∉ a →
    splitOnce (x :: sep) (a ++ (x :: sep) ++ b) = some (a, b)
  | [], b, _ => by
    have hpre : (x :: sep).isPrefixOf (x :: (sep ++ b)) = true :=
      List.isPrefixOf_iff_prefix.mpr (List.prefix_append (x :: sep) b)
    show splitOnce (x :: sep) (x :: (sep ++ b)) = some ([], b)
    rw [splitOnce, if_pos hpre]
    simp
  | y :: a, b, h => by
    obtain ⟨hne, ha⟩ := List.ne_and_not_mem_of_not_mem_cons h
    have hpre : ¬ (x :: sep).isPrefixOf (y :: (a ++ (x :: sep) ++ b)) = true := by
      rw [List.isPrefixOf_iff_prefix, List.cons_prefix_cons]
      exact fun hp => hne hp.1
    show splitOnce (x :: sep) (y :: (a ++ (x :: sep) ++ b)) = some (y :: a, b)
    rw [splitOnce, if_neg hpre, splitOnce_append b ha]
    rfl

theorem splitOnce_eq_some_iff {x : α} : ∀ {l a b : List α},
    splitOnce [x] l = some (a, b) ↔ l = a ++ x :: b ∧ x ∉ a
  | [], a, b => by simp [splitOnce]
  | y :: l, a, b => by
    rw [splitOnce]
    by_cases hy : x = y
    · subst hy
      have hpre : [x].isPrefixOf (x :: l) = true :=
        List.isPrefixOf_iff_prefix.mpr (List.prefix_append [x] l)
      rw [if_pos hpre]
      cases a with
      | nil => simp
      | cons z a =>
        refine ⟨fun h => by simp at h, fun h => ?_⟩
        obtain ⟨hl, ha⟩ := h
        exact absurd (List.mem_cons.mpr (Or.inl (List.cons.inj hl).1)) ha
    · have hpre : ¬ [x].isPrefixOf (y :: l) = true := by
        rw [List.isPrefixOf_iff_prefix, List.cons_prefix_cons]
        exact fun hp => hy hp.1
      rw [if_neg hpre, Option.map_eq_some_iff]
      constructor
      · rintro ⟨⟨a', b'⟩, hsplit, heq⟩
        cases heq
        obtain ⟨rfl, ha⟩ := splitOnce_eq_some_iff.mp hsplit
        exact ⟨rfl, List.not_mem_cons_of_ne_of_not_mem hy ha⟩
      · rintro ⟨hl, ha⟩
        cases a with
        | nil => exact absurd (List.cons.inj hl).1.symm hy
        | cons z a =>
          obtain ⟨rfl, rfl⟩ := List.cons.inj hl
          exact ⟨(a, b), splitOnce_eq_some_iff.mpr ⟨rfl, List.not_mem_of_not_mem_cons ha⟩, rfl⟩

end once

end HomeLlmGateway.Lib.Split
