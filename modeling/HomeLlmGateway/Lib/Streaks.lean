import Mathlib.Data.List.DropRight
import Mathlib.Tactic

/-! # Streaks at the end of a list

`streak p l` is how many elements at the end of `l`, one after the other, satisfy `p`: what a counter of
failures shows that every success sets back to zero. -/

namespace HomeLlmGateway.Lib.Streaks

variable {α : Type*} (p : α → Bool)

def streak (l : List α) : ℕ := (l.rtakeWhile p).length

variable {p}

@[simp] theorem streak_nil : streak p [] = 0 := by
  simp [streak]

theorem streak_concat (l : List α) (x : α) : streak p (l ++ [x]) = if p x then streak p l + 1 else 0 := by
  unfold streak
  rw [List.rtakeWhile_concat]
  split_ifs <;> simp

theorem le_streak_iff {n : ℕ} {l : List α} :
    n ≤ streak p l ↔ ∃ pre post, l = pre ++ post ∧ post.length = n ∧ ∀ x ∈ post, p x = true := by
  constructor
  · intro h
    refine ⟨l.take (l.length - n), l.drop (l.length - n), (List.take_append_drop _ _).symm, ?_, ?_⟩
    · have hle : streak p l ≤ l.length := List.rtakeWhile_suffix p l |>.length_le
      rw [List.length_drop]
      omega
    · intro x hx
      have hsuffix : l.drop (l.length - n) <:+ l.rtakeWhile p := by
        refine List.suffix_of_suffix_length_le (List.drop_suffix _ _) (List.rtakeWhile_suffix p l) ?_
        rw [List.length_drop]
        unfold streak at h
        omega
      exact List.mem_rtakeWhile_imp (hsuffix.subset hx)
  · rintro ⟨pre, post, rfl, rfl, hpost⟩
    induction post using List.reverseRecOn with
    | nil => exact Nat.zero_le _
    | append_singleton post x ih =>
      rw [← List.append_assoc, streak_concat, if_pos (hpost x (by simp)), List.length_append,
        List.length_singleton]
      exact Nat.succ_le_succ (ih fun y hy => hpost y (by simp [hy]))

/-! ### Two in a row -/

/-- Somewhere in the list two neighbours satisfy `p`. -/
def TwoInARow (p : α → Bool) (l : List α) : Prop :=
  ∃ pre x y post, l = pre ++ x :: y :: post ∧ p x = true ∧ p y = true

theorem TwoInARow.of_map {β : Type*} {p : α → Bool} {q : β → Bool} {l : List α} {l' : List β}
    (h : l.map p = l'.map q) (h2 : TwoInARow p l) : TwoInARow q l' := by
  obtain ⟨pre, x, y, post, rfl, hx, hy⟩ := h2
  rw [List.map_append, List.map_cons, List.map_cons] at h
  obtain ⟨pre', rest, rfl, -, hrest⟩ := List.map_eq_append_iff.mp h.symm
  obtain ⟨x', rest', rfl, hx', hrest'⟩ := List.map_eq_cons_iff.mp hrest
  obtain ⟨y', post', rfl, hy', -⟩ := List.map_eq_cons_iff.mp hrest'
  exact ⟨pre', x', y', post', rfl, hx'.trans hx, hy'.trans hy⟩

theorem twoInARow_map {β : Type*} {p : α → Bool} {q : β → Bool} {l : List α} {l' : List β}
    (h : l.map p = l'.map q) : TwoInARow p l ↔ TwoInARow q l' :=
  ⟨TwoInARow.of_map h, TwoInARow.of_map h.symm⟩

/-- A streak of two at some point. -/
theorem twoInARow_iff {l : List α} : TwoInARow p l ↔ ∃ l', l' <+: l ∧ 2 ≤ streak p l' := by
  constructor
  · rintro ⟨pre, x, y, post, rfl, hx, hy⟩
    refine ⟨pre ++ [x, y], ⟨post, by simp⟩, le_streak_iff.mpr ⟨pre, [x, y], rfl, rfl, fun z hz => ?_⟩⟩
    rcases List.mem_pair.mp hz with rfl | rfl
    · exact hx
    · exact hy
  · rintro ⟨l', ⟨post, rfl⟩, h⟩
    obtain ⟨pre, two, rfl, hlen, hp⟩ := le_streak_iff.mp h
    obtain ⟨x, y, rfl⟩ := List.length_eq_two.mp hlen
    exact ⟨pre, x, y, post, by simp, hp x (by simp), hp y (by simp)⟩

end HomeLlmGateway.Lib.Streaks
