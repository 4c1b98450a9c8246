import Mathlib.Data.List.AList
import Mathlib.Tactic

/-! # Hash maps as association lists

A hash map is Mathlib's `AList` with a constant value type: a list of key/value pairs without repeated
keys. Its list order stands for the iteration order, which a hash map does not specify; statements
about lookups do not depend on it. Added here: the lookup of an inserted or erased key as one
conditional, and the two bulk updates of a hash map, `retain` and the update of every value. -/

namespace HomeLlmGateway.Lib.Assoc

/-- A hash map from `κ` to `ν`. -/
abbrev HashMap (κ ν : Type*) := AList (fun _ : κ => ν)

variable {κ ν : Type*}

section lookups

variable [DecidableEq κ]

theorem lookup_insert (m : HashMap κ ν) (k k' : κ) (v : ν) :
    (m.insert k v).lookup k' = if k' = k then some v else m.lookup k' := by
  split_ifs with h
  · subst h
    exact AList.lookup_insert m
  · exact AList.lookup_insert_ne h

theorem lookup_erase (m : HashMap κ ν) (k k' : κ) :
    (m.erase k).lookup k' = if k' = k then none else m.lookup k' := by
  split_ifs with h
  · subst h
    exact AList.lookup_erase _ m
  · exact AList.lookup_erase_ne h

theorem mem_entries_iff (m : HashMap κ ν) (k : κ) (v : ν) :
    ⟨k, v⟩ ∈ m.entries ↔ m.lookup k = some v := by
  rw [← AList.mem_lookup_iff, Option.mem_def]

theorem mem_map_entries {α : Type*} (f : ν → α) (m : HashMap κ ν) (p : κ × α) :
    p ∈ (m.entries.map fun e => (e.1, f e.2)) ↔ (m.lookup p.1).map f = some p.2 := by
  rw [List.mem_map, Option.map_eq_some_iff]
  constructor
  · rintro ⟨⟨k, v⟩, hv, rfl⟩
    exact ⟨v, (mem_entries_iff m k v).mp hv, rfl⟩
  · rintro ⟨v, hv, he⟩
    exact ⟨⟨p.1, v⟩, (mem_entries_iff m p.1 v).mpr hv, Prod.ext rfl he⟩

/-- The values, in iteration order. -/
def values (m : HashMap κ ν) : List ν := m.entries.map Sigma.snd

theorem mem_values (m : HashMap κ ν) (v : ν) : v ∈ values m ↔ ∃ k, m.lookup k = some v := by
  simp only [values, List.mem_map]
  constructor
  · rintro ⟨⟨k, w⟩, hm, rfl⟩
    exact ⟨k, (mem_entries_iff m k w).mp hm⟩
  · rintro ⟨k, hk⟩
    exact ⟨⟨k, v⟩, (mem_entries_iff m k v).mpr hk, rfl⟩

theorem perm_filter_entries {m m' : HashMap κ ν} (p : κ → ν → Bool)
    (h : ∀ k v, p k v = true → (m.lookup k = some v ↔ m'.lookup k = some v)) :
    (m.entries.filter fun e => p e.1 e.2).Perm (m'.entries.filter fun e => p e.1 e.2) := by
  refine (List.perm_ext_iff_of_nodup (m.nodupKeys.nodup.filter _) (m'.nodupKeys.nodup.filter _)).mpr ?_
  rintro ⟨k, v⟩
  simp only [List.mem_filter, mem_entries_iff]
  constructor
  · rintro ⟨hk, hv⟩
    exact ⟨(h k v hv).mp hk, hv⟩
  · rintro ⟨hk, hv⟩
    exact ⟨(h k v hv).mpr hk, hv⟩

/-- Two maps with the same pairs whose value satisfies `p` have the same such values, each as often. -/
theorem perm_filter_values {m m' : HashMap κ ν} (p : ν → Bool)
    (h : ∀ k v, p v = true → (m.lookup k = some v ↔ m'.lookup k = some v)) :
    ((values m).filter p).Perm ((values m').filter p) := by
  unfold values
  rw [List.filter_map, List.filter_map]
  exact (perm_filter_entries (fun _ => p) h).map _

/-- Keep the pairs that satisfy `p`. -/
def retain (p : κ → ν → Bool) (m : HashMap κ ν) : HashMap κ ν where
  entries := m.entries.filter fun e => p e.1 e.2
  nodupKeys := by
    have hs : List.Sublist ((m.entries.filter fun e => p e.1 e.2).map Sigma.fst)
        (m.entries.map Sigma.fst) := List.Sublist.map _ List.filter_sublist
    exact List.Nodup.sublist hs m.nodupKeys

theorem lookup_retain (p : κ → ν → Bool) (m : HashMap κ ν) (k : κ) :
    (retain p m).lookup k = (m.lookup k).filter (p k) := by
  ext v
  rw [← mem_entries_iff, Option.filter_eq_some_iff]
  simp only [retain, List.mem_filter, mem_entries_iff]

/-- Replace every value. -/
def mapVal (f : κ → ν → ν) (m : HashMap κ ν) : HashMap κ ν where
  entries := m.entries.map fun e => ⟨e.1, f e.1 e.2⟩
  nodupKeys := by
    have hk : (m.entries.map fun e => (⟨e.1, f e.1 e.2⟩ : (_ : κ) × ν)).map Sigma.fst =
        m.entries.map Sigma.fst := by
      rw [List.map_map]; rfl
    show List.Nodup _
    rw [List.keys, hk]
    exact m.nodupKeys

theorem lookup_mapVal (f : κ → ν → ν) (m : HashMap κ ν) (k : κ) :
    (mapVal f m).lookup k = (m.lookup k).map (f k) := by
  ext v
  rw [← mem_entries_iff, Option.map_eq_some_iff]
  simp only [mapVal, List.mem_map]
  constructor
  · rintro ⟨⟨k', w⟩, hm, he⟩
    cases he
    exact ⟨w, (mem_entries_iff m k' w).mp hm, rfl⟩
  · rintro ⟨w, hw, rfl⟩
    exact ⟨⟨k, w⟩, (mem_entries_iff m k w).mpr hw, rfl⟩

/-- Change the value of one key, if it is there. -/
def modify (k : κ) (f : ν → ν) (m : HashMap κ ν) : HashMap κ ν :=
  mapVal (fun k' v => if k' = k then f v else v) m

theorem lookup_modify (k : κ) (f : ν → ν) (m : HashMap κ ν) (k' : κ) :
    (modify k f m).lookup k' = if k' = k then (m.lookup k').map f else m.lookup k' := by
  unfold modify
  rw [lookup_mapVal]
  split_ifs
  · rfl
  · simp

theorem map_lookup_modify {β : Type*} (g : ν → β) {f : ν → ν} (hf : ∀ v, g (f v) = g v) (k : κ)
    (m : HashMap κ ν) (k' : κ) : ((modify k f m).lookup k').map g = (m.lookup k').map g := by
  rw [lookup_modify]
  split_ifs
  · rw [Option.map_map]
    exact congrArg (fun g => Option.map g (m.lookup k')) (funext hf)
  · rfl

/-! ### Counting values -/

/-- How many values satisfy `p`. -/
def countVal (p : ν → Bool) (m : HashMap κ ν) : ℕ := (values m).countP p

theorem countVal_pos {p : ν → Bool} {m : HashMap κ ν} :
    0 < countVal p m ↔ ∃ k v, m.lookup k = some v ∧ p v = true := by
  simp only [countVal, List.countP_pos_iff, mem_values]
  constructor
  · rintro ⟨v, ⟨k, hk⟩, hv⟩
    exact ⟨k, v, hk, hv⟩
  · rintro ⟨k, v, hk, hv⟩
    exact ⟨v, ⟨k, hk⟩, hv⟩

theorem values_erase {m : HashMap κ ν} {k : κ} {v : ν} (h : m.lookup k = some v) :
    ∃ l1 l2, values m = l1 ++ v :: l2 ∧ values (m.erase k) = l1 ++ l2 := by
  have hk : k ∈ m.entries.keys := AList.lookup_isSome.mp (by rw [h]; rfl)
  obtain ⟨w, l1, l2, -, hl, he⟩ := List.exists_of_kerase hk
  have hw : w = v := by
    have hm : ⟨k, w⟩ ∈ m.entries := by rw [hl]; simp
    have := (mem_entries_iff m k w).mp hm
    rw [h] at this
    exact (Option.some.inj this).symm
  subst hw
  have hm : values m = l1.map Sigma.snd ++ w :: l2.map Sigma.snd := by simp [values, hl]
  have hm' : values (m.erase k) = l1.map Sigma.snd ++ l2.map Sigma.snd := by
    show (m.entries.kerase k).map Sigma.snd = _
    rw [he, List.map_append]
  exact ⟨_, _, hm, hm'⟩

theorem erase_of_lookup_none {m : HashMap κ ν} {k : κ} (h : m.lookup k = none) : m.erase k = m := by
  have hk : k ∉ m.entries.keys := fun hk => by
    have := AList.lookup_isSome.mpr hk
    rw [h] at this
    cases this
  exact AList.ext (List.kerase_of_notMem_keys hk)

theorem erase_eq_self {m : HashMap κ ν} {k : κ} : m.erase k = m ↔ m.lookup k = none := by
  constructor
  · intro h
    rw [← h, lookup_erase, if_pos rfl]
  · exact erase_of_lookup_none

theorem erase_insert_of_none {m : HashMap κ ν} {k : κ} (h : m.lookup k = none) (v : ν) :
    (m.insert k v).erase k = m := by
  have he : (m.insert k v).erase k = m.erase k := by
    refine AList.ext ?_
    show List.kerase k (⟨k, v⟩ :: List.kerase k m.entries) = List.kerase k m.entries
    exact List.kerase_cons_eq (s := (⟨k, v⟩ : (_ : κ) × ν)) rfl
  rw [he, erase_of_lookup_none h]

theorem countVal_erase {m : HashMap κ ν} {k : κ} {v : ν} (p : ν → Bool) (h : m.lookup k = some v) :
    countVal p m = countVal p (m.erase k) + if p v then 1 else 0 := by
  obtain ⟨l1, l2, hm, hm'⟩ := values_erase h
  unfold countVal
  rw [hm, hm', List.countP_append, List.countP_append, List.countP_cons]
  omega

theorem countVal_insert_erase (m : HashMap κ ν) (k : κ) (v : ν) (p : ν → Bool) :
    countVal p (m.insert k v) = countVal p (m.erase k) + if p v then 1 else 0 :=
  List.countP_cons

theorem countVal_insert_of_none {m : HashMap κ ν} {k : κ} (v : ν) (p : ν → Bool)
    (h : m.lookup k = none) :
    countVal p (m.insert k v) = countVal p m + if p v then 1 else 0 := by
  rw [countVal_insert_erase, erase_of_lookup_none h]

theorem countVal_replace {m : HashMap κ ν} {k : κ} {v v' : ν} (p : ν → Bool)
    (h : m.lookup k = some v) (hp : p v' = p v) : countVal p (m.insert k v') = countVal p m := by
  rw [countVal_insert_erase, countVal_erase p h, hp]

theorem countVal_step {m : HashMap κ ν} {k : κ} {v : ν} (p : ν → Bool) (h : m.lookup k = some v)
    (v' : ν) : countVal p (m.insert k v') + (p v).toNat = countVal p m + (p v').toNat := by
  rw [countVal_insert_erase, countVal_erase p h]
  unfold Bool.toNat
  cases p v <;> cases p v' <;> simp

/-- A counter of 64 bits that shows how many values meet `p` goes on showing it when the value of a key is
replaced and the counter moves along. -/
theorem ofNat_countVal_step {m : HashMap κ ν} {k : κ} {v v' : ν} {p : ν → Bool} {n n' : UInt64}
    (hv : m.lookup k = some v) (hn : n = UInt64.ofNat (countVal p m))
    (h : n' + UInt64.ofNat (p v).toNat = n + UInt64.ofNat (p v').toNat) :
    n' = UInt64.ofNat (countVal p (m.insert k v')) := by
  have hcount := countVal_step p hv v'
  rw [hn, ← UInt64.ofNat_add, ← hcount, UInt64.ofNat_add] at h
  exact (UInt64.add_left_inj _).mp h

theorem countVal_add {m : HashMap κ ν} {p q r : ν → Bool}
    (h : ∀ k v, m.lookup k = some v → (p v).toNat = (q v).toNat + (r v).toNat) :
    countVal p m = countVal q m + countVal r m := by
  have hlist : ∀ l : List ν, (∀ v ∈ l, (p v).toNat = (q v).toNat + (r v).toNat) →
      l.countP p = l.countP q + l.countP r := by
    intro l
    induction l with
    | nil => intro _; rfl
    | cons v l ih =>
      intro hl
      have hv := hl v (by simp)
      have htail := ih fun w hw => hl w (by simp [hw])
      simp only [List.countP_cons, htail]
      revert hv
      cases p v <;> cases q v <;> cases r v <;> simp <;> omega
  refine hlist _ fun v hv => ?_
  obtain ⟨k, hk⟩ := (mem_values m v).mp hv
  exact h k v hk

omit [DecidableEq κ] in
theorem countVal_mono {p q : ν → Bool} (h : ∀ v, p v = true → q v = true) (m : HashMap κ ν) :
    countVal p m ≤ countVal q m :=
  List.countP_mono_left fun v _ => h v

theorem countVal_le {p q : ν → Bool} {m : HashMap κ ν}
    (h : ∀ k v, m.lookup k = some v → p v = true → q v = true) : countVal p m ≤ countVal q m := by
  refine List.countP_mono_left fun v hv hp => ?_
  obtain ⟨k, hk⟩ := (mem_values m v).mp hv
  exact h k v hk hp

theorem countVal_congr {p q : ν → Bool} {m : HashMap κ ν}
    (h : ∀ k v, m.lookup k = some v → p v = q v) : countVal p m = countVal q m := by
  refine List.countP_congr fun v hv => ?_
  obtain ⟨k, hk⟩ := (mem_values m v).mp hv
  rw [h k v hk]

omit [DecidableEq κ] in
theorem countVal_mapVal {p : ν → Bool} {f : κ → ν → ν} (h : ∀ k v, p (f k v) = p v) (m : HashMap κ ν) :
    countVal p (mapVal f m) = countVal p m := by
  have hvalues : values (mapVal f m) = m.entries.map fun e => f e.1 e.2 := by
    simp [values, mapVal]
  unfold countVal
  rw [hvalues, values, List.countP_map, List.countP_map]
  refine List.countP_congr fun e _ => ?_
  simp [h]

omit [DecidableEq κ] in
theorem countVal_retain {p : ν → Bool} {q : κ → ν → Bool} (h : ∀ k v, p v = true → q k v = true)
    (m : HashMap κ ν) : countVal p (retain q m) = countVal p m := by
  unfold countVal values retain
  rw [List.countP_map, List.countP_map, List.countP_filter]
  refine List.countP_congr fun e _ => ?_
  simp only [Function.comp_apply, Bool.and_eq_true, and_iff_left_iff_imp]
  exact h e.1 e.2

/-! ### Sums over the values -/

/-- The sum of `f` over the values. -/
def sumVal {α : Type*} [AddCommMonoid α] (f : ν → α) (m : HashMap κ ν) : α := ((values m).map f).sum

section sums

variable {α : Type*} [AddCommMonoid α] (f : ν → α)

theorem sumVal_insert_erase (m : HashMap κ ν) (k : κ) (v : ν) :
    sumVal f (m.insert k v) = f v + sumVal f (m.erase k) :=
  List.sum_cons

theorem sumVal_erase {m : HashMap κ ν} {k : κ} {v : ν} (h : m.lookup k = some v) :
    sumVal f m = f v + sumVal f (m.erase k) := by
  obtain ⟨l1, l2, hm, hm'⟩ := values_erase h
  unfold sumVal
  rw [hm, hm', List.map_append, List.map_append, List.map_cons, List.sum_append, List.sum_append,
    List.sum_cons, add_left_comm]

theorem sumVal_insert_of_none {m : HashMap κ ν} {k : κ} (v : ν) (h : m.lookup k = none) :
    sumVal f (m.insert k v) = f v + sumVal f m := by
  rw [sumVal_insert_erase, erase_of_lookup_none h]

theorem sumVal_replace {m : HashMap κ ν} {k : κ} {v v' : ν} {d : α} (h : m.lookup k = some v)
    (hd : f v' = f v + d) : sumVal f (m.insert k v') = sumVal f m + d := by
  rw [sumVal_insert_erase, sumVal_erase f h, hd, add_right_comm]

theorem sumVal_congr {μ : Type*} {f : ν → α} {g : μ → α} {m : HashMap κ ν} {m' : HashMap κ μ}
    (h : ∀ k, (m.lookup k).map f = (m'.lookup k).map g) : sumVal f m = sumVal g m' := by
  have hp : (m.entries.map fun e => (e.1, f e.2)).Perm (m'.entries.map fun e => (e.1, g e.2)) := by
    refine (List.perm_ext_iff_of_nodup ?_ ?_).mpr fun p => ?_
    · refine List.Nodup.of_map Prod.fst ?_
      rw [List.map_map]
      exact m.nodupKeys
    · refine List.Nodup.of_map Prod.fst ?_
      rw [List.map_map]
      exact m'.nodupKeys
    · rw [mem_map_entries, mem_map_entries, h p.1]
  have hsum := (hp.map Prod.snd).sum_eq
  unfold sumVal values
  rw [List.map_map, List.map_map] at hsum ⊢
  exact hsum

end sums

/-! ### Loops over a batch of keys -/

/-- Insert the pairs of a list, one after the other. -/
def insertAll (m : HashMap κ ν) (l : List (κ × ν)) : HashMap κ ν :=
  l.foldl (fun m p => m.insert p.1 p.2) m

theorem insertAll_concat (m : HashMap κ ν) (l : List (κ × ν)) (p : κ × ν) :
    insertAll m (l ++ [p]) = (insertAll m l).insert p.1 p.2 := by
  simp [insertAll]

theorem lookup_insertAll_of_notMem {k : κ} : ∀ (l : List (κ × ν)) (m : HashMap κ ν),
    k ∉ l.map Prod.fst → (insertAll m l).lookup k = m.lookup k
  | [], _, _ => rfl
  | p :: l, m, h => by
    simp only [List.map_cons, List.mem_cons, not_or] at h
    have ih := lookup_insertAll_of_notMem l (m.insert p.1 p.2) h.2
    rw [lookup_insert, if_neg h.1] at ih
    exact ih

theorem lookup_insertAll_of_mem {k : κ} {v : ν} : ∀ (l : List (κ × ν)) (m : HashMap κ ν),
    (l.map Prod.fst).Nodup → (k, v) ∈ l → (insertAll m l).lookup k = some v
  | p :: l, m, hn, h => by
    simp only [List.map_cons, List.nodup_cons] at hn
    rcases List.mem_cons.mp h with rfl | h
    · have ih := lookup_insertAll_of_notMem l (m.insert k v) hn.1
      rw [lookup_insert, if_pos rfl] at ih
      exact ih
    · exact lookup_insertAll_of_mem l (m.insert p.1 p.2) hn.2 h

theorem mem_of_lookup_insertAll {k : κ} {v : ν} : ∀ {l : List (κ × ν)} {m : HashMap κ ν},
    (insertAll m l).lookup k = some v → (k, v) ∈ l ∨ m.lookup k = some v
  | [], _, h => Or.inr h
  | p :: l, m, h => by
    rcases mem_of_lookup_insertAll (m := m.insert p.1 p.2) h with h | h
    · exact Or.inl (List.mem_cons_of_mem _ h)
    · rw [lookup_insert] at h
      split_ifs at h with hk
      · cases h
        subst hk
        exact Or.inl List.mem_cons_self
      · exact Or.inr h

theorem values_insertAll_perm {l : List (κ × ν)} (h : (l.map Prod.fst).Nodup) :
    (values (insertAll ∅ l)).Perm (l.map Prod.snd) := by
  induction l using List.reverseRecOn with
  | nil => exact .refl _
  | append_singleton l p ih =>
    rw [List.map_append, List.map_singleton, List.nodup_append] at h
    obtain ⟨hl, -, hne⟩ := h
    have hnone : (insertAll (∅ : HashMap κ ν) l).lookup p.1 = none := by
      rw [lookup_insertAll_of_notMem l _ fun hmem => hne p.1 hmem p.1 (List.mem_singleton_self _) rfl]
      rfl
    have hvalues : values ((insertAll ∅ l).insert p.1 p.2) = p.2 :: values (insertAll ∅ l) := by
      show p.2 :: values ((insertAll ∅ l).erase p.1) = _
      rw [erase_of_lookup_none hnone]
    rw [insertAll_concat, hvalues, List.map_append, List.map_singleton]
    exact ((ih hl).cons p.2).trans (List.perm_append_singleton p.2 _).symm

theorem isSome_lookup_insertAll {k : κ} : ∀ (l : List (κ × ν)) (m : HashMap κ ν),
    (m.lookup k).isSome → ((insertAll m l).lookup k).isSome
  | [], _, h => h
  | p :: l, m, h => by
    refine isSome_lookup_insertAll l (m.insert p.1 p.2) ?_
    rw [lookup_insert]
    split_ifs
    · rfl
    · exact h

/-- Change the values found under the keys of a list, one after the other; a key that is not there is
passed over. -/
def updateAll {μ : Type*} (f : μ → ν → ν) (m : HashMap κ ν) (l : List (κ × μ)) : HashMap κ ν :=
  l.foldl (fun m p => match m.lookup p.1 with
    | some v => m.insert p.1 (f p.2 v)
    | none => m) m

theorem lookup_updateAll_of_notMem {μ : Type*} (f : μ → ν → ν) {k : κ} :
    ∀ (l : List (κ × μ)) (m : HashMap κ ν), k ∉ l.map Prod.fst →
      (updateAll f m l).lookup k = m.lookup k
  | [], _, _ => rfl
  | p :: l, m, h => by
    simp only [List.map_cons, List.mem_cons, not_or] at h
    cases hp : m.lookup p.1 with
    | none =>
      have ih := lookup_updateAll_of_notMem f l m h.2
      simpa [updateAll, hp] using ih
    | some v =>
      have ih := lookup_updateAll_of_notMem f l (m.insert p.1 (f p.2 v)) h.2
      rw [lookup_insert, if_neg h.1] at ih
      simpa [updateAll, hp] using ih

theorem lookup_updateAll_of_mem {μ : Type*} (f : μ → ν → ν) {k : κ} {x : μ} :
    ∀ (l : List (κ × μ)) (m : HashMap κ ν), (l.map Prod.fst).Nodup → (k, x) ∈ l →
      (updateAll f m l).lookup k = (m.lookup k).map (f x)
  | p :: l, m, hn, h => by
    simp only [List.map_cons, List.nodup_cons] at hn
    rcases List.mem_cons.mp h with rfl | h
    · cases hp : m.lookup k with
      | none =>
        have ih := lookup_updateAll_of_notMem f l m hn.1
        rw [hp] at ih
        simpa [updateAll, hp] using ih
      | some v =>
        have ih := lookup_updateAll_of_notMem f l (m.insert k (f x v)) hn.1
        rw [lookup_insert, if_pos rfl] at ih
        simpa [updateAll, hp] using ih
    · have hne : k ≠ p.1 := by
        rintro rfl
        exact hn.1 (List.mem_map.mpr ⟨_, h, rfl⟩)
      cases hp : m.lookup p.1 with
      | none =>
        have ih := lookup_updateAll_of_mem f l m hn.2 h
        simpa [updateAll, hp] using ih
      | some v =>
        have ih := lookup_updateAll_of_mem f l (m.insert p.1 (f p.2 v)) hn.2 h
        rw [lookup_insert, if_neg hne] at ih
        simpa [updateAll, hp] using ih

theorem map_lookup_updateAll {β μ : Type*} (g : ν → β) {f : μ → ν → ν} (hf : ∀ x v, g (f x v) = g v)
    (k : κ) : ∀ (l : List (κ × μ)) (m : HashMap κ ν),
    ((updateAll f m l).lookup k).map g = (m.lookup k).map g
  | [], _ => rfl
  | p :: l, m => by
    cases hp : m.lookup p.1 with
    | none =>
      have ih := map_lookup_updateAll g hf k l m
      simpa [updateAll, hp] using ih
    | some v =>
      have ih := map_lookup_updateAll g hf k l (m.insert p.1 (f p.2 v))
      have hk : ((m.insert p.1 (f p.2 v)).lookup k).map g = (m.lookup k).map g := by
        rw [lookup_insert]
        split_ifs with h
        · rw [h, hp, Option.map_some, Option.map_some, hf]
        · rfl
      rw [hk] at ih
      simpa [updateAll, hp] using ih

@[inherit_doc map_lookup_updateAll]
theorem sumVal_updateAll {α μ : Type*} [AddCommMonoid α] (f : ν → α) {g : μ → ν → ν}
    (hg : ∀ x v, f (g x v) = f v) : ∀ (l : List (κ × μ)) (m : HashMap κ ν),
    sumVal f (updateAll g m l) = sumVal f m
  | [], _ => rfl
  | p :: l, m => by
    cases hp : m.lookup p.1 with
    | none =>
      have ih := sumVal_updateAll f hg l m
      simpa [updateAll, hp] using ih
    | some v =>
      have ih := sumVal_updateAll f hg l (m.insert p.1 (g p.2 v))
      rw [sumVal_replace f hp (d := 0) (by rw [hg, add_zero]), add_zero] at ih
      simpa [updateAll, hp] using ih

end lookups

/-- A batch drawn from the pairs of a map has pairwise different keys. -/
theorem nodup_keys_batch {μ : Type*} (p : κ × ν → Bool) (f : ν → μ) (l : List ((_ : κ) × ν))
    (hl : (l.map Sigma.fst).Nodup) :
    (((l.filter fun e => p (e.1, e.2)).map fun e => (e.1, f e.2)).map Prod.fst).Nodup := by
  rw [List.map_map]
  exact List.Nodup.sublist (List.Sublist.map _ List.filter_sublist) hl

end HomeLlmGateway.Lib.Assoc
