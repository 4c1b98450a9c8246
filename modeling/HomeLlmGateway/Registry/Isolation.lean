import Mathlib.Data.List.Destutter
import Mathlib.Data.String.Basic
import HomeLlmGateway.Registry.Routing
import HomeLlmGateway.Registry.System

/-! # Routing of one tenant

`try_acquire_excluding_for_tenant` (`gateway/src/registry/admission.rs`) and `healthy_models_for_tenant`
(`gateway/src/registry/table.rs`) read the whole table. They depend on the entries of their tenant only:
on two tables that agree on these entries the one reports the same error, or takes entries of the same
rank, and the other lists the same models. Which of several entries of one rank is taken is decided by
the iteration order of the hash map, and that order is not the tenant's own: an insertion of another
tenant can make the map grow and move every entry. -/

namespace HomeLlmGateway.Registry.Isolation

open HomeLlmGateway.Lib.Assoc HomeLlmGateway.Registry.Node HomeLlmGateway.Registry.Table
open HomeLlmGateway.Registry.Routing HomeLlmGateway.Registry.System

/-! ### The two readers -/

/-- Count a request on an entry. -/
def occupy (m : Mem) (e : Entry) : Mem :=
  { m with inflight := Function.update m.inflight e.inflight (m.inflight e.inflight + 1) }

/-- `try_acquire_excluding_for_tenant`: the first candidate with a free slot, with the slot taken. -/
def tryAcquireExcludingForTenant (t : Agents) (m : Mem) (now staleAfter : UInt64)
    (tenantId model : String) (exclude : List ℕ) : Except AcquireError (Entry × Mem) :=
  match pickForTenant (values t) m now staleAfter tenantId model exclude with
  | .error err => .error err
  | .ok candidates =>
    match candidates.find? (canAcquire m) with
    | some e => .ok (e, occupy m e)
    | none => .error .atCapacity

/-- The models of the usable entries, in iteration order. -/
def declared (entries : List Entry) (m : Mem) (now staleAfter : UInt64) (tenantId : String) :
    List String :=
  (entries.filter (usable m now staleAfter tenantId)).flatMap fun e => e.models.filter (· != "*")

/-- `healthy_models_for_tenant`. -/
def healthyModelsForTenant (t : Agents) (m : Mem) (now staleAfter : UInt64) (tenantId : String) :
    List String :=
  ((declared (values t) m now staleAfter tenantId).insertionSort (· ≤ ·)).destutter (· ≠ ·)

/-! ### Rank -/

section rank

variable (m : Mem) (model : String)

theorem keyLe_iff (a b : Entry) : keyLe m model a b = true ↔
    (exact model a = true ∧ exact model b = false) ∨
      (exact model a = exact model b ∧
        ((m.inflight a.inflight).toNat < (m.inflight b.inflight).toNat ∨
          ((m.inflight a.inflight).toNat = (m.inflight b.inflight).toNat ∧
            (m.health b.stableId).lastSeenMillis.toNat ≤ (m.health a.stableId).lastSeenMillis.toNat))) := by
  unfold keyLe
  by_cases hx : exact model a = exact model b
  · by_cases hi : m.inflight a.inflight = m.inflight b.inflight
    · simp [hx, hi, UInt64.le_iff_toNat_le]
    · have hn : (m.inflight a.inflight).toNat ≠ (m.inflight b.inflight).toNat :=
        fun h => hi (UInt32.toNat_inj.mp h)
      simp [hx, hi, hn, UInt32.lt_iff_toNat_lt]
  · have hb : exact model b = !exact model a := (Bool.eq_not.mpr (Ne.symm hx))
    simp [hb]

theorem keyLe_total (a b : Entry) : keyLe m model a b = true ∨ keyLe m model b a = true := by
  rw [keyLe_iff, keyLe_iff]
  by_cases hx : exact model a = exact model b
  · simp only [hx, true_and]
    omega
  · have hb : exact model b = !exact model a := (Bool.eq_not.mpr (Ne.symm hx))
    by_cases ha : exact model a = true
    · exact Or.inl (Or.inl ⟨ha, by rw [hb, ha]; rfl⟩)
    · have ha' : exact model a = false := by simpa using ha
      exact Or.inr (Or.inl ⟨by rw [hb, ha']; rfl, ha'⟩)

theorem keyLe_trans {a b c : Entry} (hab : keyLe m model a b = true) (hbc : keyLe m model b c = true) :
    keyLe m model a c = true := by
  rw [keyLe_iff] at *
  rcases hab with ⟨ha, hb⟩ | ⟨hx, hab⟩
  · rcases hbc with ⟨hb', hc⟩ | ⟨hx', -⟩
    · exact Or.inl ⟨ha, hc⟩
    · exact Or.inl ⟨ha, hx' ▸ hb⟩
  · rcases hbc with ⟨hb', hc⟩ | ⟨hx', hbc⟩
    · exact Or.inl ⟨hx ▸ hb', hc⟩
    · refine Or.inr ⟨hx.trans hx', ?_⟩
      omega

/-- Two entries that the sort key does not tell apart. -/
def Tied (a b : Entry) : Prop := keyLe m model a b = true ∧ keyLe m model b a = true

theorem tied_iff (a b : Entry) : Tied m model a b ↔
    exact model a = exact model b ∧ m.inflight a.inflight = m.inflight b.inflight ∧
      (m.health a.stableId).lastSeenMillis = (m.health b.stableId).lastSeenMillis := by
  unfold Tied
  rw [keyLe_iff, keyLe_iff, ← UInt32.toNat_inj, ← UInt64.toNat_inj]
  constructor
  · rintro ⟨⟨ha, hb⟩ | ⟨hx, hab⟩, ⟨hb', ha'⟩ | ⟨hx', hba⟩⟩
    · rw [ha] at ha'
      cases ha'
    · rw [ha, hb] at hx'
      cases hx'
    · rw [ha', hb'] at hx
      cases hx
    · exact ⟨hx, by omega, by omega⟩
  · rintro ⟨hx, hi, hl⟩
    exact ⟨Or.inr ⟨hx, by omega⟩, Or.inr ⟨hx.symm, by omega⟩⟩

end rank

/-- The first candidate with a free slot is a best one among those with a free slot. -/
theorem keyLe_of_find {m : Mem} {model : String} {l : List Entry} {e b : Entry}
    (hl : l.Pairwise fun a b => keyLe m model a b = true) (he : l.find? (canAcquire m) = some e)
    (hb : b ∈ l) (hc : canAcquire m b = true) : keyLe m model e b = true := by
  obtain ⟨-, as, bs, rfl, has⟩ := List.find?_eq_some_iff_append.mp he
  rcases List.mem_append.mp hb with hb | hb
  · have := has b hb
    rw [hc] at this
    cases this
  · rcases List.mem_cons.mp hb with rfl | hb
    · exact (keyLe_total m model b b).elim id id
    · exact (List.pairwise_cons.mp (List.pairwise_append.mp hl).2.1).1 b hb

/-! ### Agreeing on a tenant -/

/-- The entry carries the same load and the same health in both memories. -/
def SameReads (m m' : Mem) (e : Entry) : Prop :=
  m.inflight e.inflight = m'.inflight e.inflight ∧ m.health e.stableId = m'.health e.stableId

/-- Two registries that agree on the entries of a tenant. -/
structure AgreeOn (tenantId : String) (t t' : Agents) (m m' : Mem) : Prop where
  entries : ∀ key e, e.tenantId = tenantId → (t.lookup key = some e ↔ t'.lookup key = some e)
  reads : ∀ key e, t.lookup key = some e → e.tenantId = tenantId → SameReads m m' e

/-- Both registries iterate over the entries of the tenant in the same order. -/
def SameOrder (tenantId : String) (t t' : Agents) : Prop :=
  (values t).filter (·.tenantId == tenantId) = (values t').filter (·.tenantId == tenantId)

section reads

variable {m m' : Mem} {a b : Entry}

theorem canAcquire_eq (ha : SameReads m m' a) : canAcquire m a = canAcquire m' a := by
  unfold canAcquire
  rw [ha.1]

theorem keyLe_eq (model : String) (ha : SameReads m m' a) (hb : SameReads m m' b) :
    keyLe m model a b = keyLe m' model a b := by
  unfold keyLe
  rw [ha.1, ha.2, hb.1, hb.2]

theorem usable_eq (now staleAfter : UInt64) (tenantId : String) (ha : SameReads m m' a) :
    usable m now staleAfter tenantId a = usable m' now staleAfter tenantId a := by
  unfold usable
  rw [ha.2]

end reads

section agreement

variable {tenantId : String} {t t' : Agents} {m m' : Mem} {now staleAfter : UInt64}

theorem tenantId_of_usable {e : Entry} (h : usable m now staleAfter tenantId e = true) :
    e.tenantId = tenantId := by
  unfold usable at h
  simp only [Bool.and_eq_true, beq_iff_eq] at h
  exact h.1

theorem AgreeOn.reads_of_mem (h : AgreeOn tenantId t t' m m') {e : Entry}
    (he : e ∈ (values t).filter (·.tenantId == tenantId)) : SameReads m m' e := by
  obtain ⟨hv, ht⟩ := List.mem_filter.mp he
  obtain ⟨key, hk⟩ := (mem_values t e).mp hv
  exact h.reads key e hk (by simpa using ht)

theorem filter_usable (l : List Entry) : l.filter (usable m now staleAfter tenantId) =
    (l.filter (·.tenantId == tenantId)).filter (usable m now staleAfter tenantId) := by
  rw [List.filter_filter]
  refine List.filter_congr fun e _ => ?_
  by_cases hu : usable m now staleAfter tenantId e = true
  · simp [hu, tenantId_of_usable hu]
  · simp [hu]

theorem AgreeOn.perm (h : AgreeOn tenantId t t' m m') :
    ((values t).filter (·.tenantId == tenantId)).Perm ((values t').filter (·.tenantId == tenantId)) :=
  perm_filter_values _ fun k e he => h.entries k e (by simpa using he)

theorem AgreeOn.usable_perm (h : AgreeOn tenantId t t' m m') (now staleAfter : UInt64) :
    ((values t).filter (usable m now staleAfter tenantId)).Perm
      ((values t').filter (usable m' now staleAfter tenantId)) := by
  rw [filter_usable, filter_usable (values t')]
  have hc : ((values t).filter (·.tenantId == tenantId)).filter (usable m now staleAfter tenantId) =
      ((values t).filter (·.tenantId == tenantId)).filter (usable m' now staleAfter tenantId) :=
    List.filter_congr fun e he => usable_eq now staleAfter tenantId (h.reads_of_mem he)
  rw [hc]
  exact h.perm.filter _

theorem AgreeOn.usable_eq_of_sameOrder (h : AgreeOn tenantId t t' m m') (ho : SameOrder tenantId t t') :
    (values t).filter (usable m now staleAfter tenantId) =
      (values t').filter (usable m' now staleAfter tenantId) := by
  rw [filter_usable, filter_usable (values t'), ← ho]
  exact List.filter_congr fun e he => usable_eq now staleAfter tenantId (h.reads_of_mem he)

end agreement

/-! ### Picking from the usable entries -/

/-- What `pick_for_tenant` makes of the usable entries. -/
def pickFrom (m : Mem) (model : String) (exclude : List ℕ) (l : List Entry) :
    Except AcquireError (List Entry) :=
  if l.isEmpty then .error .noAgent
  else if (l.filter fun e => !exclude.contains e.stableId && serves model e).isEmpty then
    .error (emptyReason (l.any (serves model)))
  else .ok ((l.filter fun e => !exclude.contains e.stableId && serves model e).insertionSort
    fun a b => keyLe m model a b)

theorem pickForTenant_eq (entries : List Entry) (m : Mem) (now staleAfter : UInt64)
    (tenantId model : String) (exclude : List ℕ) :
    pickForTenant entries m now staleAfter tenantId model exclude =
      pickFrom m model exclude (entries.filter (usable m now staleAfter tenantId)) := by
  have hf : ∀ l : List Entry, (l.filter fun e => !exclude.contains e.stableId && serves model e) =
      (l.filter fun e => !exclude.contains e.stableId).filter (serves model) := fun l => by
    rw [List.filter_filter]
    exact List.filter_congr fun e _ => Bool.and_comm _ _
  unfold pickForTenant pickFrom
  dsimp only
  rw [hf]
  by_cases h1 : (entries.filter (usable m now staleAfter tenantId)).isEmpty = true
  · rw [if_pos h1, if_pos h1]
  · rw [if_neg h1, if_neg h1]
    by_cases h2 : ((entries.filter (usable m now staleAfter tenantId)).filter fun e =>
        !exclude.contains e.stableId).isEmpty = true
    · rw [if_pos h2, List.isEmpty_iff.mp h2]
      rfl
    · rw [if_neg h2]

/-- Two outcomes alike: the same error, or the same candidates in some order each. -/
theorem pickFrom_perm (m m' : Mem) {l l' : List Entry} (model : String) (exclude : List ℕ)
    (hl : l.Perm l') :
    (∃ err, pickFrom m model exclude l = .error err ∧ pickFrom m' model exclude l' = .error err) ∨
      ∃ cs cs', pickFrom m model exclude l = .ok cs ∧ pickFrom m' model exclude l' = .ok cs' ∧
        cs.Perm cs' ∧ cs.Perm (l.filter fun e => !exclude.contains e.stableId && serves model e) ∧
        (cs.Pairwise fun a b => keyLe m model a b = true) ∧
        cs'.Pairwise fun a b => keyLe m' model a b = true := by
  have hs : ∀ (m : Mem) (l : List Entry),
      (l.insertionSort fun a b => keyLe m model a b).Pairwise fun a b => keyLe m model a b = true := by
    intro m l
    have : Std.Total fun a b => keyLe m model a b = true := ⟨keyLe_total m model⟩
    have : IsTrans Entry fun a b => keyLe m model a b = true := ⟨fun _ _ _ => keyLe_trans m model⟩
    exact List.pairwise_insertionSort _ l
  have hf := hl.filter fun e => !exclude.contains e.stableId && serves model e
  have ha : l.any (serves model) = l'.any (serves model) := by
    rw [Bool.eq_iff_iff, List.any_eq_true, List.any_eq_true]
    simp only [hl.mem_iff]
  unfold pickFrom
  rw [hl.isEmpty_eq, hf.isEmpty_eq, ha]
  split_ifs
  · exact Or.inl ⟨_, rfl, rfl⟩
  · exact Or.inl ⟨_, rfl, rfl⟩
  · refine Or.inr ⟨_, _, rfl, rfl, ?_, List.perm_insertionSort _ _, hs m _, hs m' _⟩
    exact (List.perm_insertionSort _ _).trans (hf.trans (List.perm_insertionSort _ _).symm)

theorem pickFrom_congr {m m' : Mem} {l : List Entry} (model : String) (exclude : List ℕ)
    (hr : ∀ e ∈ l, SameReads m m' e) : pickFrom m model exclude l = pickFrom m' model exclude l := by
  have hs : ((l.filter fun e => !exclude.contains e.stableId && serves model e).insertionSort
      fun a b => keyLe m model a b) =
      ((l.filter fun e => !exclude.contains e.stableId && serves model e).insertionSort
        fun a b => keyLe m' model a b) := by
    have hc : ∀ a ∈ l.filter (fun e => !exclude.contains e.stableId && serves model e),
        ∀ b ∈ l.filter (fun e => !exclude.contains e.stableId && serves model e),
        (keyLe m model a b = true ↔ keyLe m' model (id a) (id b) = true) := by
      intro a ha b hb
      have he := keyLe_eq model (hr a (List.mem_filter.mp ha).1) (hr b (List.mem_filter.mp hb).1)
      rw [he]
      rfl
    have h := List.map_insertionSort (fun a b => keyLe m model a b = true)
      (fun a b => keyLe m' model a b = true) id _ hc
    simpa only [List.map_id] using h
  unfold pickFrom
  rw [hs]

/-! ### Two nodes of one rank -/

/-- Two idle nodes of a tenant, registered at the same moment. -/
def twin (n : ℕ) : Entry := ⟨n, n, "edge", "acme", ["m"], 1, n⟩

/-- The key of such a node. -/
def twinKey (n : ℕ) : AgentKey := ⟨"acme", "edge", .v4 n.toUInt32⟩

/-- The nodes, iterated over in the given order. -/
def twins (a b : ℕ) : Agents := ((∅ : Agents).insert (twinKey b) (twin b)).insert (twinKey a) (twin a)

/-- Nothing in flight, every node just seen. -/
def idle : Mem := ⟨fun _ => 0, fun _ => .new 0⟩

/-- A node of another tenant. -/
def stranger : Entry := ⟨3, 3, "edge", "umbrella", ["m", "n"], 1, 3⟩

/-! ### Isolation -/

section isolation

variable {tenantId : String} {t t' : Agents} {m m' : Mem}

/-- The chosen entry or the error. -/
def choice (r : Except AcquireError (Entry × Mem)) : Except AcquireError Entry := r.map Prod.fst

/-- Both report the same error, or both choose entries of the tenant of one rank. -/
def SameChoice (tenantId model : String) (t : Agents) (m : Mem) (r r' : Except AcquireError Entry) :
    Prop :=
  (∃ err, r = .error err ∧ r' = .error err) ∨
    ∃ e e', r = .ok e ∧ r' = .ok e' ∧ Tied m model e e' ∧
      (e.tenantId = tenantId ∧ ∃ key, t.lookup key = some e) ∧
      (e'.tenantId = tenantId ∧ ∃ key, t.lookup key = some e')

theorem sameChoice_of_agreeOn (h : AgreeOn tenantId t t' m m') (now staleAfter : UInt64) (model : String)
    (exclude : List ℕ) : SameChoice tenantId model t m
      (choice (tryAcquireExcludingForTenant t m now staleAfter tenantId model exclude))
      (choice (tryAcquireExcludingForTenant t' m' now staleAfter tenantId model exclude)) := by
  unfold tryAcquireExcludingForTenant
  rw [pickForTenant_eq, pickForTenant_eq]
  rcases pickFrom_perm m m' model exclude (h.usable_perm now staleAfter) with
    ⟨err, h1, h2⟩ | ⟨cs, cs', h1, h2, hp, hc, hs, hs'⟩
  · rw [h1, h2]
    exact Or.inl ⟨err, rfl, rfl⟩
  · rw [h1, h2]
    have hmem : ∀ e ∈ cs, e.tenantId = tenantId ∧ ∃ key, t.lookup key = some e := by
      intro e he
      have hu := (List.mem_filter.mp (hc.mem_iff.mp he)).1
      obtain ⟨hv, hu⟩ := List.mem_filter.mp hu
      exact ⟨tenantId_of_usable hu, (mem_values t e).mp hv⟩
    have hreads : ∀ e ∈ cs, SameReads m m' e := by
      intro e he
      obtain ⟨ht, key, hk⟩ := hmem e he
      exact h.reads key e hk ht
    have hacq : ∀ e ∈ cs, canAcquire m e = canAcquire m' e := fun e he => canAcquire_eq (hreads e he)
    dsimp only
    cases hf : cs.find? (canAcquire m) with
    | none =>
      have hf' : cs'.find? (canAcquire m') = none := by
        rw [List.find?_eq_none] at hf ⊢
        intro e he
        have he := hp.mem_iff.mpr he
        rw [← hacq e he]
        exact hf e he
      rw [hf']
      exact Or.inl ⟨_, rfl, rfl⟩
    | some e =>
      have he := List.mem_of_find?_eq_some hf
      have hea := List.find?_some hf
      obtain ⟨e', hf'⟩ : ∃ e', cs'.find? (canAcquire m') = some e' := by
        rw [← Option.isSome_iff_exists, List.find?_isSome]
        exact ⟨e, hp.mem_iff.mp he, by rw [← hacq e he]; exact hea⟩
      have he' := hp.mem_iff.mpr (List.mem_of_find?_eq_some hf')
      have hea' := List.find?_some hf'
      rw [hf']
      refine Or.inr ⟨e, e', rfl, rfl, ⟨?_, ?_⟩, hmem e he, hmem e' he'⟩
      · exact keyLe_of_find hs hf he' (by rw [hacq e' he']; exact hea')
      · rw [keyLe_eq model (hreads e' he') (hreads e he)]
        exact keyLe_of_find hs' hf' (hp.mem_iff.mp he) (by rw [← hacq e he]; exact hea)

theorem choice_eq_of_sameOrder (h : AgreeOn tenantId t t' m m') (ho : SameOrder tenantId t t')
    (now staleAfter : UInt64) (model : String) (exclude : List ℕ) :
    choice (tryAcquireExcludingForTenant t m now staleAfter tenantId model exclude) =
      choice (tryAcquireExcludingForTenant t' m' now staleAfter tenantId model exclude) := by
  have hr : ∀ e ∈ (values t).filter (usable m now staleAfter tenantId), SameReads m m' e := by
    intro e he
    rw [filter_usable] at he
    exact h.reads_of_mem (List.mem_filter.mp he).1
  have hpick : pickForTenant (values t) m now staleAfter tenantId model exclude =
      pickForTenant (values t') m' now staleAfter tenantId model exclude := by
    rw [pickForTenant_eq, pickForTenant_eq, ← h.usable_eq_of_sameOrder ho]
    exact pickFrom_congr model exclude hr
  unfold tryAcquireExcludingForTenant
  rw [← hpick]
  cases hp : pickForTenant (values t) m now staleAfter tenantId model exclude with
  | error err => rfl
  | ok cs =>
    have hf : cs.find? (canAcquire m) = cs.find? (canAcquire m') := by
      refine List.find?_congr fun e he => canAcquire_eq (hr e ?_)
      have hm := (pickForTenant_perm hp).mem_iff.mp he
      simp only [List.mem_filter, Bool.and_eq_true] at hm ⊢
      exact ⟨hm.1, hm.2.1.1⟩
    dsimp only
    rw [hf]
    cases cs.find? (canAcquire m') with
    | none => rfl
    | some e => rfl

theorem healthyModelsForTenant_eq (h : AgreeOn tenantId t t' m m') (now staleAfter : UInt64) :
    healthyModelsForTenant t m now staleAfter tenantId =
      healthyModelsForTenant t' m' now staleAfter tenantId := by
  have hp : (declared (values t) m now staleAfter tenantId).Perm
      (declared (values t') m' now staleAfter tenantId) := (h.usable_perm now staleAfter).flatMap_right _
  have hs : (declared (values t) m now staleAfter tenantId).insertionSort (· ≤ ·) =
      (declared (values t') m' now staleAfter tenantId).insertionSort (· ≤ ·) := by
    refine List.Perm.eq_of_pairwise' (List.pairwise_insertionSort _ _)
      (List.pairwise_insertionSort _ _) ?_
    exact (List.perm_insertionSort _ _).trans (hp.trans (List.perm_insertionSort _ _).symm)
  unfold healthyModelsForTenant
  rw [hs]

/-- A table keeps agreeing with itself when another tenant's node comes in. -/
theorem agreeOn_insert_other (t : Agents) (m : Mem) {key : AgentKey} {e : Entry}
    (hn : t.lookup key = none) (he : e.tenantId ≠ tenantId) :
    AgreeOn tenantId t (t.insert key e) m m := by
  refine ⟨fun k e' ht => ?_, fun _ _ _ _ => ⟨rfl, rfl⟩⟩
  rw [lookup_insert]
  by_cases hk : k = key
  · subst hk
    rw [if_pos rfl, hn]
    constructor
    · intro h
      cases h
    · intro h
      cases h
      exact absurd ht he
  · rw [if_neg hk]

/-- **Tenant isolation of routing.** -/
theorem routing_isolation (h : AgreeOn tenantId t t' m m') (now staleAfter : UInt64) :
    healthyModelsForTenant t m now staleAfter tenantId =
      healthyModelsForTenant t' m' now staleAfter tenantId ∧
    ∀ (model : String) (exclude : List ℕ),
      SameChoice tenantId model t m
        (choice (tryAcquireExcludingForTenant t m now staleAfter tenantId model exclude))
        (choice (tryAcquireExcludingForTenant t' m' now staleAfter tenantId model exclude)) ∧
      (SameOrder tenantId t t' →
        choice (tryAcquireExcludingForTenant t m now staleAfter tenantId model exclude) =
          choice (tryAcquireExcludingForTenant t' m' now staleAfter tenantId model exclude)) :=
  ⟨healthyModelsForTenant_eq h now staleAfter, fun model exclude =>
    ⟨sameChoice_of_agreeOn h now staleAfter model exclude,
      fun ho => choice_eq_of_sameOrder h ho now staleAfter model exclude⟩⟩

/-- A node of another tenant joins two nodes of `acme`. -/
theorem routing_isolation_stranger :
    AgreeOn "acme" (twins 1 2) ((twins 1 2).insert ⟨"umbrella", "edge", .v4 3⟩ stranger) idle idle ∧
      healthyModelsForTenant (twins 1 2) idle 0 1 "acme" =
        healthyModelsForTenant ((twins 1 2).insert ⟨"umbrella", "edge", .v4 3⟩ stranger) idle 0 1 "acme" ∧
      SameOrder "acme" (twins 1 2) ((twins 1 2).insert ⟨"umbrella", "edge", .v4 3⟩ stranger) ∧
      choice (tryAcquireExcludingForTenant (twins 1 2) idle 0 1 "acme" "m" []) =
        choice (tryAcquireExcludingForTenant
          ((twins 1 2).insert ⟨"umbrella", "edge", .v4 3⟩ stranger) idle 0 1 "acme" "m" []) :=
  have h := agreeOn_insert_other (twins 1 2) idle (by decide) (by decide)
  ⟨h, (routing_isolation h 0 1).1, rfl, ((routing_isolation h 0 1).2 "m" []).2 rfl⟩

end isolation

/-- **The iteration order shows**: the same entries in another order, and another entry is chosen. -/
theorem iteration_order_shows : ¬ ∀ (tenantId : String) (t t' : Agents) (m m' : Mem),
    AgreeOn tenantId t t' m m' → ∀ (now staleAfter : UInt64) (model : String) (exclude : List ℕ),
      choice (tryAcquireExcludingForTenant t m now staleAfter tenantId model exclude) =
        choice (tryAcquireExcludingForTenant t' m' now staleAfter tenantId model exclude) := by
  intro h
  have hk : twinKey 1 ≠ twinKey 2 := by decide
  have ha : AgreeOn "acme" (twins 1 2) (twins 2 1) idle idle := by
    refine ⟨fun k e _ => ?_, fun _ _ _ _ => ⟨rfl, rfl⟩⟩
    unfold twins
    rw [lookup_insert, lookup_insert, lookup_insert, lookup_insert]
    by_cases h1 : k = twinKey 1
    · simp [h1, hk]
    · simp [h1]
  have hc := h "acme" (twins 1 2) (twins 2 1) idle idle ha 0 1 "m" []
  have h1 : choice (tryAcquireExcludingForTenant (twins 1 2) idle 0 1 "acme" "m" []) = .ok (twin 1) := rfl
  have h2 : choice (tryAcquireExcludingForTenant (twins 2 1) idle 0 1 "acme" "m" []) = .ok (twin 2) := rfl
  rw [h1, h2] at hc
  cases hc

end HomeLlmGateway.Registry.Isolation
