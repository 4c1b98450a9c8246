import HomeLlmGateway.Lib.Assoc

/-! # Calls that hold something exclusively

Calls are under way, each in its own slot; `held c` is what the call `c` holds, if anything. If no two calls
ever hold the same thing (`Exclusive`), a property of each thing and of the call that holds it (`On`) can be
carried from step to step: a step of one call has to be looked at for what that call holds, and everything
else needs a frame condition only (`forall_on_step`). -/

namespace HomeLlmGateway.Lib.Holding

open HomeLlmGateway.Lib.Assoc

variable {ι γ υ : Type*} [DecidableEq ι] (held : γ → Option υ)

/-- The call that holds `u`, or that none does. -/
def On (calls : HashMap ι γ) (u : υ) : Option γ → Prop
  | none => ∀ i c, calls.lookup i = some c → held c ≠ some u
  | some c => held c = some u ∧ ∃ i, calls.lookup i = some c

/-- No two calls hold the same thing. -/
def Exclusive (calls : HashMap ι γ) : Prop :=
  ∀ i j c c' u, calls.lookup i = some c → calls.lookup j = some c' → held c = some u →
    held c' = some u → i = j

variable {held} {calls : HashMap ι γ} {i : ι} {c c' : γ} {u v : υ}

theorem exclusive_empty : Exclusive held (∅ : HashMap ι γ) := by
  intro i j c c' u hi
  cases hi

theorem forall_on_empty {P : υ → Option γ → Prop} (h : ∀ u, P u none) :
    ∀ u o, On held (∅ : HashMap ι γ) u o → P u o := by
  intro u o ho
  cases o with
  | none => exact h u
  | some c =>
    obtain ⟨-, i, hi⟩ := ho
    cases hi

theorem exists_on (held : γ → Option υ) (calls : HashMap ι γ) (u : υ) : ∃ o, On held calls u o := by
  by_cases h : ∃ i c, calls.lookup i = some c ∧ held c = some u
  · obtain ⟨i, c, hi, hc⟩ := h
    exact ⟨some c, hc, i, hi⟩
  · exact ⟨none, fun i c hi hc => h ⟨i, c, hi, hc⟩⟩

/-- What a call newly holds has to be free. -/
theorem Exclusive.insert (h : Exclusive held calls)
    (hfree : ∀ u, held c' = some u → (∃ c, calls.lookup i = some c ∧ held c = some u) ∨
      On held calls u none) : Exclusive held (calls.insert i c') := by
  have key : ∀ j d u, held c' = some u → (calls.insert i c').lookup j = some d → held d = some u →
      i = j := by
    intro j d u hu hj hd
    rw [lookup_insert] at hj
    split_ifs at hj with hji
    · exact hji.symm
    · rcases hfree u hu with ⟨c, hi, hc⟩ | hnone
      · exact h i j c d u hi hj hc hd
      · exact absurd hd (hnone j d hj)
  intro j k d d' u hj hk hd hd'
  have hj' := hj
  have hk' := hk
  rw [lookup_insert] at hj hk
  split_ifs at hj hk with hji hki
  · rw [hji, hki]
  · cases hj
    rw [hji]
    exact key k d' u hd hk' hd'
  · cases hk
    rw [show k = i by assumption]
    exact (key j d u hd' hj' hd).symm
  · exact h j k d d' u hj hk hd hd'

/-- A step of the call in slot `i` does not change who holds what it does not hold. -/
theorem on_of_on_insert (hc : ∀ c, calls.lookup i = some c → held c ≠ some v) (hc' : held c' ≠ some v)
    {o : Option γ} (h : On held (calls.insert i c') v o) : On held calls v o := by
  cases o with
  | none =>
    intro j d hj hd
    by_cases hji : j = i
    · subst hji
      exact hc d hj hd
    · exact h j d (by rw [lookup_insert, if_neg hji]; exact hj) hd
  | some d =>
    obtain ⟨hd, j, hj⟩ := h
    rw [lookup_insert] at hj
    split_ifs at hj
    · cases hj
      exact absurd hd hc'
    · exact ⟨hd, j, hj⟩

theorem on_insert_self (h : Exclusive held calls) (hi : calls.lookup i = some c) (hu : held c = some u)
    {o : Option γ} (ho : On held (calls.insert i c') u o) :
    (o = some c' ∧ held c' = some u) ∨ (o = none ∧ held c' ≠ some u) := by
  cases o with
  | none => exact Or.inr ⟨rfl, fun hu' => ho i c' (by rw [lookup_insert, if_pos rfl]) hu'⟩
  | some d =>
    obtain ⟨hd, j, hj⟩ := ho
    rw [lookup_insert] at hj
    split_ifs at hj with hji
    · cases hj
      exact Or.inl ⟨rfl, hd⟩
    · exact absurd (h i j c d u hi hj hu hd) (fun he => hji he.symm)

/-- **One step**: `P` holds of each thing and its holder after a step of the call in slot `i`, if it holds of
what that call holds and is kept for everything else. -/
theorem forall_on_step {P P' : υ → Option γ → Prop} (h : Exclusive held calls)
    (hi : calls.lookup i = some c) (hu : held c = some u) (hc' : ∀ v, held c' = some v → v = u)
    (hP : ∀ v o, On held calls v o → P v o)
    (hframe : ∀ v o, v ≠ u → On held calls v o → P v o → P' v o)
    (hown : held c' = some u → P' u (some c')) (hleft : held c' = none → P' u none) :
    ∀ v o, On held (calls.insert i c') v o → P' v o := by
  intro v o ho
  by_cases hv : v = u
  · subst hv
    rcases on_insert_self h hi hu ho with ⟨rfl, hd⟩ | ⟨rfl, hd⟩
    · exact hown hd
    · refine hleft ?_
      cases hd' : held c' with
      | none => rfl
      | some w =>
        rw [hc' w hd'] at hd'
        exact absurd hd' hd
  · have hon : On held calls v o := by
      refine on_of_on_insert (fun d hd hdv => ?_) (fun hd => hv (hc' v hd)) ho
      rw [hi] at hd
      cases hd
      rw [hu] at hdv
      exact hv (Option.some.inj hdv).symm
    exact hframe v o hv hon (hP v o hon)

theorem forall_on_free {P P' : υ → Option γ → Prop}
    (hc : ∀ c, calls.lookup i = some c → held c = none) (hc' : held c' = none)
    (hP : ∀ v o, On held calls v o → P v o) (hframe : ∀ v o, On held calls v o → P v o → P' v o) :
    ∀ v o, On held (calls.insert i c') v o → P' v o := by
  intro v o ho
  have hon : On held calls v o := by
    refine on_of_on_insert (fun d hd hdv => ?_) (fun hd => ?_) ho
    · rw [hc d hd] at hdv
      cases hdv
    · rw [hc'] at hd
      cases hd
  exact hframe v o hon (hP v o hon)

theorem forall_on_take {P P' : υ → Option γ → Prop}
    (hc : ∀ c, calls.lookup i = some c → held c = none) (hfree : On held calls u none)
    (hu : held c' = some u) (hP : ∀ v o, On held calls v o → P v o)
    (hframe : ∀ v o, v ≠ u → On held calls v o → P v o → P' v o) (hown : P u none → P' u (some c')) :
    ∀ v o, On held (calls.insert i c') v o → P' v o := by
  intro v o ho
  by_cases hv : v = u
  · subst hv
    cases o with
    | none => exact absurd hu (ho i c' (by rw [lookup_insert, if_pos rfl]))
    | some d =>
      obtain ⟨hd, j, hj⟩ := ho
      rw [lookup_insert] at hj
      split_ifs at hj
      · cases hj
        exact hown (hP v none hfree)
      · exact absurd hd (hfree j d hj)
  · have hon : On held calls v o := by
      refine on_of_on_insert (fun d hd hdv => ?_) (fun hd => ?_) ho
      · rw [hc d hd] at hdv
        cases hdv
      · rw [hu] at hd
        exact hv (Option.some.inj hd).symm
    exact hframe v o hv hon (hP v o hon)

/-- **One step of any call**: what it held it holds still or lets go, and what it takes was free. -/
theorem forall_on_insert {P P' : υ → Option γ → Prop} (h : Exclusive held calls) (hi : calls.lookup i = some c)
    (hstay : ∀ u, held c = some u → held c' = none ∨ held c' = some u)
    (htake : ∀ u, held c = none → held c' = some u → On held calls u none)
    (hP : ∀ v o, On held calls v o → P v o)
    (hframe : ∀ v o, held c ≠ some v → held c' ≠ some v → P v o → P' v o)
    (hown : ∀ u, held c = some u → held c' = some u → P u (some c) → P' u (some c'))
    (hleft : ∀ u, held c = some u → held c' = none → P u (some c) → P' u none)
    (hnew : ∀ u, held c = none → held c' = some u → P u none → P' u (some c')) :
    ∀ v o, On held (calls.insert i c') v o → P' v o := by
  cases hu : held c with
  | some u =>
    have hself : ∀ v, held c' = some v → v = u := by
      intro v hv
      rcases hstay u hu with hn | hs
      · rw [hn] at hv
        cases hv
      · exact Option.some.inj (hv.symm.trans hs)
    have hc : P u (some c) := hP u (some c) ⟨hu, i, hi⟩
    refine forall_on_step h hi hu hself hP (fun v o hv _ hp => ?_) (fun hs => hown u hu hs hc)
      fun hn => hleft u hu hn hc
    exact hframe v o (fun he => hv (Option.some.inj (he.symm.trans hu))) (fun he => hv (hself v he)) hp
  | none =>
    have hnone : ∀ d, calls.lookup i = some d → held d = none := by
      intro d hd
      rw [hi] at hd
      cases hd
      exact hu
    cases hu' : held c' with
    | none =>
      exact forall_on_free hnone hu' hP fun v o _ hp => hframe v o (by simp [hu]) (by simp [hu']) hp
    | some u =>
      refine forall_on_take hnone (htake u hu hu') hu' hP (fun v o hv _ hp => ?_) (hnew u hu hu')
      refine hframe v o (by simp [hu]) ?_ hp
      rw [hu']
      exact fun he => hv (Option.some.inj he).symm

end HomeLlmGateway.Lib.Holding
