import HomeLlmGateway.Lib.Assoc

/-! # Changes of a table that stay within a property

`ChangesWithin P m m'`: where the tables differ, whatever stands there before and after has the property
`P`. It composes (`ChangesWithin.trans`), so what each write of a program keeps to, a run of it does. -/

namespace HomeLlmGateway.Lib.Changes

open HomeLlmGateway.Lib.Assoc

variable {κ ν : Type*} [DecidableEq κ] {P Q : ν → Prop} {m m' m'' : HashMap κ ν} {k : κ}

def ChangesWithin (P : ν → Prop) (m m' : HashMap κ ν) : Prop :=
  ∀ k, m'.lookup k = m.lookup k ∨
    (∀ v, m.lookup k = some v → P v) ∧ ∀ v, m'.lookup k = some v → P v

theorem ChangesWithin.refl (P : ν → Prop) (m : HashMap κ ν) : ChangesWithin P m m := fun _ => Or.inl rfl

theorem ChangesWithin.trans (h : ChangesWithin P m m') (h' : ChangesWithin P m' m'') :
    ChangesWithin P m m'' := by
  intro k
  rcases h k with h1 | ⟨h1, h2⟩ <;> rcases h' k with h3 | ⟨h3, h4⟩
  · exact Or.inl (h3.trans h1)
  · exact Or.inr ⟨fun v hv => h3 v (h1.trans hv), h4⟩
  · exact Or.inr ⟨h1, fun v hv => h2 v (h3 ▸ hv)⟩
  · exact Or.inr ⟨h1, h4⟩

theorem ChangesWithin.mono (h : ChangesWithin P m m') (hPQ : ∀ v, P v → Q v) : ChangesWithin Q m m' := by
  intro k
  rcases h k with h1 | ⟨h1, h2⟩
  · exact Or.inl h1
  · exact Or.inr ⟨fun v hv => hPQ v (h1 v hv), fun v hv => hPQ v (h2 v hv)⟩

theorem ChangesWithin.forall (h : ChangesWithin P m m') (hQ : ∀ v, P v → Q v)
    (hk : ∀ v, m.lookup k = some v → Q v) : ∀ v, m'.lookup k = some v → Q v := by
  intro v hv
  rcases h k with h1 | ⟨-, h1⟩
  · exact hk v (h1 ▸ hv)
  · exact hQ v (h1 v hv)

/-! ### Writes -/

theorem changesWithin_insert {v : ν} (hold : ∀ v, m.lookup k = some v → P v) (hv : P v) :
    ChangesWithin P m (m.insert k v) := by
  intro k'
  rw [lookup_insert]
  split_ifs with h
  · subst h
    exact Or.inr ⟨hold, fun w hw => Option.some.inj hw ▸ hv⟩
  · exact Or.inl rfl

theorem changesWithin_erase (hold : ∀ v, m.lookup k = some v → P v) : ChangesWithin P m (m.erase k) := by
  intro k'
  rw [lookup_erase]
  split_ifs with h
  · subst h
    exact Or.inr ⟨hold, fun w hw => (by cases hw)⟩
  · exact Or.inl rfl

theorem changesWithin_modify {f : ν → ν} (hold : ∀ v, m.lookup k = some v → P v ∧ P (f v)) :
    ChangesWithin P m (modify k f m) := by
  intro k'
  rw [lookup_modify]
  split_ifs with h
  · subst h
    refine Or.inr ⟨fun v hv => (hold v hv).1, fun w hw => ?_⟩
    obtain ⟨v, hv, rfl⟩ := Option.map_eq_some_iff.mp hw
    exact (hold v hv).2
  · exact Or.inl rfl

theorem changesWithin_mapVal {f : κ → ν → ν} (hold : ∀ k v, m.lookup k = some v → f k v = v ∨ P v ∧ P (f k v)) :
    ChangesWithin P m (mapVal f m) := by
  intro k
  rw [lookup_mapVal]
  cases hv : m.lookup k with
  | none => exact Or.inl rfl
  | some v =>
    rcases hold k v hv with h | h
    · exact Or.inl (congrArg some h)
    · refine Or.inr ⟨fun w hw => ?_, fun w hw => ?_⟩
      · exact Option.some.inj hw ▸ h.1
      · exact Option.some.inj hw ▸ h.2

theorem changesWithin_retain {p : κ → ν → Bool} (hold : ∀ k v, m.lookup k = some v → p k v = false → P v) :
    ChangesWithin P m (retain p m) := by
  intro k
  rw [lookup_retain]
  cases hv : m.lookup k with
  | none => exact Or.inl rfl
  | some v =>
    cases hp : p k v with
    | true => exact Or.inl (by simp [Option.filter, hp])
    | false =>
      refine Or.inr ⟨fun w hw => ?_, fun w hw => ?_⟩
      · exact Option.some.inj hw ▸ hold k v hv hp
      · simp [Option.filter, hp] at hw

end HomeLlmGateway.Lib.Changes
