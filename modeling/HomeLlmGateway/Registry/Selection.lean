import HomeLlmGateway.Registry.Isolation

/-! # What is selected

`try_acquire_excluding_for_tenant` without another operation in between: the entry it takes is a best one
among the candidates with a free slot, and its four errors tell the tables apart in which there is none
(`selection_correct`). -/

namespace HomeLlmGateway.Registry.Selection

open HomeLlmGateway.Lib.Assoc HomeLlmGateway.Registry.Node HomeLlmGateway.Registry.Table
open HomeLlmGateway.Registry.Routing HomeLlmGateway.Registry.System HomeLlmGateway.Registry.Isolation

/-- An entry of the tenant in the table, with a fresh heartbeat. -/
structure Fresh (t : Agents) (m : Mem) (now staleAfter : UInt64) (tenantId : String) (e : Entry) :
    Prop where
  mem : ∃ key, t.lookup key = some e
  tenant : e.tenantId = tenantId
  fresh : isFresh (m.health e.stableId).lastSeenMillis now staleAfter = true

/-- A fresh entry that serves the model and is not excluded. -/
structure Candidate (t : Agents) (m : Mem) (now staleAfter : UInt64) (tenantId model : String)
    (exclude : List ℕ) (e : Entry) : Prop extends Fresh t m now staleAfter tenantId e where
  serves : serves model e = true
  allowed : e.stableId ∉ exclude

section selection

variable {t : Agents} {m : Mem} {now staleAfter : UInt64} {tenantId model : String} {exclude : List ℕ}

theorem mem_filter_usable {e : Entry} :
    e ∈ (values t).filter (usable m now staleAfter tenantId) ↔ Fresh t m now staleAfter tenantId e := by
  rw [List.mem_filter, mem_values]
  unfold usable
  rw [Bool.and_eq_true, beq_iff_eq]
  exact ⟨fun h => ⟨h.1, h.2.1, h.2.2⟩, fun h => ⟨h.mem, h.tenant, h.fresh⟩⟩

theorem mem_filter_candidate {e : Entry} :
    e ∈ ((values t).filter (usable m now staleAfter tenantId)).filter
        (fun e => !exclude.contains e.stableId && serves model e) ↔
      Candidate t m now staleAfter tenantId model exclude e := by
  rw [List.mem_filter, mem_filter_usable]
  simp only [Bool.and_eq_true, Bool.not_eq_true', List.contains_eq_mem, decide_eq_false_iff_not]
  exact ⟨fun h => ⟨h.1, h.2.2, h.2.1⟩, fun h => ⟨h.toFresh, h.allowed, h.serves⟩⟩

/-! ### The picking -/

theorem pick_noAgent (h : ∀ e, ¬ Fresh t m now staleAfter tenantId e) :
    pickForTenant (values t) m now staleAfter tenantId model exclude = .error .noAgent := by
  have hnil : (values t).filter (usable m now staleAfter tenantId) = [] :=
    List.eq_nil_iff_forall_not_mem.mpr fun e he => h e (mem_filter_usable.mp he)
  rw [pickForTenant_eq, pickFrom, hnil]
  rfl

/-- Fresh entries, but no candidate: whether one of them serves the model makes the difference. -/
theorem pick_empty (hfresh : ∃ e, Fresh t m now staleAfter tenantId e)
    (h : ∀ e, ¬ Candidate t m now staleAfter tenantId model exclude e) :
    pickForTenant (values t) m now staleAfter tenantId model exclude =
      .error (emptyReason (((values t).filter (usable m now staleAfter tenantId)).any (serves model))) := by
  obtain ⟨e, he⟩ := hfresh
  have hsome : ((values t).filter (usable m now staleAfter tenantId)).isEmpty = false := by
    rw [List.isEmpty_eq_false_iff_exists_mem]
    exact ⟨e, mem_filter_usable.mpr he⟩
  have hnil : (((values t).filter (usable m now staleAfter tenantId)).filter
      fun e => !exclude.contains e.stableId && serves model e) = [] :=
    List.eq_nil_iff_forall_not_mem.mpr fun e he => h e (mem_filter_candidate.mp he)
  rw [pickForTenant_eq, pickFrom, hsome, hnil]
  rfl

theorem pick_ok {e : Entry} (he : Candidate t m now staleAfter tenantId model exclude e) :
    ∃ cs, pickForTenant (values t) m now staleAfter tenantId model exclude = .ok cs ∧
      (∀ e, e ∈ cs ↔ Candidate t m now staleAfter tenantId model exclude e) ∧
      cs.Pairwise fun a b => keyLe m model a b = true := by
  rw [pickForTenant_eq]
  rcases pickFrom_perm m m model exclude (List.Perm.refl
    ((values t).filter (usable m now staleAfter tenantId))) with ⟨err, herr, -⟩ | ⟨cs, -, hok, -, -, hp, hs, -⟩
  · exfalso
    have hmem := mem_filter_candidate.mpr he
    have hfresh := mem_filter_usable.mpr he.toFresh
    unfold pickFrom at herr
    rw [if_neg (by rw [List.isEmpty_iff]; exact List.ne_nil_of_mem hfresh),
      if_neg (by rw [List.isEmpty_iff]; exact List.ne_nil_of_mem hmem)] at herr
    cases herr
  · exact ⟨cs, hok, fun e => hp.mem_iff.trans mem_filter_candidate, hs⟩

/-! ### The outcomes -/

theorem acquire_noAgent (h : ∀ e, ¬ Fresh t m now staleAfter tenantId e) :
    tryAcquireExcludingForTenant t m now staleAfter tenantId model exclude = .error .noAgent := by
  rw [tryAcquireExcludingForTenant, pick_noAgent h]

theorem acquire_noModel (hfresh : ∃ e, Fresh t m now staleAfter tenantId e)
    (h : ∀ e, Fresh t m now staleAfter tenantId e → serves model e = false) :
    tryAcquireExcludingForTenant t m now staleAfter tenantId model exclude = .error .noModel := by
  have hany : ((values t).filter (usable m now staleAfter tenantId)).any (serves model) = false := by
    rw [List.any_eq_false]
    intro e he
    rw [h e (mem_filter_usable.mp he)]
    simp
  have hnone : ∀ e, ¬ Candidate t m now staleAfter tenantId model exclude e := by
    intro e he
    have hserves := he.serves
    rw [h e he.toFresh] at hserves
    cases hserves
  rw [tryAcquireExcludingForTenant, pick_empty hfresh hnone, hany]
  rfl

theorem acquire_allExcluded (hserves : ∃ e, Fresh t m now staleAfter tenantId e ∧ serves model e = true)
    (h : ∀ e, Fresh t m now staleAfter tenantId e → serves model e = true → e.stableId ∈ exclude) :
    tryAcquireExcludingForTenant t m now staleAfter tenantId model exclude = .error .allExcluded := by
  obtain ⟨e, he, hs⟩ := hserves
  have hany : ((values t).filter (usable m now staleAfter tenantId)).any (serves model) = true :=
    List.any_eq_true.mpr ⟨e, mem_filter_usable.mpr he, hs⟩
  have hnone : ∀ e, ¬ Candidate t m now staleAfter tenantId model exclude e :=
    fun e he => he.allowed (h e he.toFresh he.serves)
  rw [tryAcquireExcludingForTenant, pick_empty ⟨e, he⟩ hnone, hany]
  rfl

theorem acquire_atCapacity (hsome : ∃ e, Candidate t m now staleAfter tenantId model exclude e)
    (h : ∀ e, Candidate t m now staleAfter tenantId model exclude e → canAcquire m e = false) :
    tryAcquireExcludingForTenant t m now staleAfter tenantId model exclude = .error .atCapacity := by
  obtain ⟨e, he⟩ := hsome
  obtain ⟨cs, hpick, hmem, -⟩ := pick_ok he
  have hfind : cs.find? (canAcquire m) = none := by
    rw [List.find?_eq_none]
    intro e he
    rw [h e ((hmem e).mp he)]
    simp
  rw [tryAcquireExcludingForTenant, hpick]
  dsimp only
  rw [hfind]

theorem acquire_ok {b : Entry} (hb : Candidate t m now staleAfter tenantId model exclude b)
    (hfree : canAcquire m b = true) :
    ∃ e, tryAcquireExcludingForTenant t m now staleAfter tenantId model exclude = .ok (e, occupy m e) ∧
      Candidate t m now staleAfter tenantId model exclude e ∧ canAcquire m e = true ∧
      ∀ b, Candidate t m now staleAfter tenantId model exclude b → canAcquire m b = true →
        keyLe m model e b = true := by
  obtain ⟨cs, hpick, hmem, hsorted⟩ := pick_ok hb
  obtain ⟨e, hfind⟩ : ∃ e, cs.find? (canAcquire m) = some e := by
    rw [← Option.isSome_iff_exists, List.find?_isSome]
    exact ⟨b, (hmem b).mpr hb, hfree⟩
  refine ⟨e, ?_, (hmem e).mp (List.mem_of_find?_eq_some hfind), List.find?_some hfind,
    fun b hb hfree => keyLe_of_find hsorted hfind ((hmem b).mpr hb) hfree⟩
  rw [tryAcquireExcludingForTenant, hpick]
  dsimp only
  rw [hfind]

theorem exact_of_keyLe {a b : Entry} (h : keyLe m model a b = true) (hb : exact model b = true) :
    exact model a = true := by
  rcases (keyLe_iff m model a b).mp h with ⟨ha, -⟩ | ⟨hx, -⟩
  · exact ha
  · rw [hx]
    exact hb

end selection

/-- What each outcome says about the table. -/
def Explains (t : Agents) (m : Mem) (now staleAfter : UInt64) (tenantId model : String)
    (exclude : List ℕ) : Except AcquireError (Entry × Mem) → Prop
  | .ok (e, m') => Candidate t m now staleAfter tenantId model exclude e ∧ canAcquire m e = true ∧
    m' = occupy m e ∧ ∀ b, Candidate t m now staleAfter tenantId model exclude b →
      canAcquire m b = true → keyLe m model e b = true ∧ (exact model b = true → exact model e = true)
  | .error .noAgent => ∀ e, ¬ Fresh t m now staleAfter tenantId e
  | .error .noModel => (∃ e, Fresh t m now staleAfter tenantId e) ∧
    ∀ e, Fresh t m now staleAfter tenantId e → serves model e = false
  | .error .allExcluded => (∃ e, Fresh t m now staleAfter tenantId e ∧ serves model e = true) ∧
    ∀ e, Fresh t m now staleAfter tenantId e → serves model e = true → e.stableId ∈ exclude
  | .error .atCapacity => (∃ e, Candidate t m now staleAfter tenantId model exclude e) ∧
    ∀ e, Candidate t m now staleAfter tenantId model exclude e → canAcquire m e = false

theorem explains_outcome (t : Agents) (m : Mem) (now staleAfter : UInt64) (tenantId model : String)
    (exclude : List ℕ) :
    Explains t m now staleAfter tenantId model exclude
      (tryAcquireExcludingForTenant t m now staleAfter tenantId model exclude) := by
  by_cases hfresh : ∃ e, Fresh t m now staleAfter tenantId e
  · by_cases hserves : ∃ e, Fresh t m now staleAfter tenantId e ∧ serves model e = true
    · by_cases hcand : ∃ e, Candidate t m now staleAfter tenantId model exclude e
      · by_cases hfree : ∃ e, Candidate t m now staleAfter tenantId model exclude e ∧ canAcquire m e = true
        · obtain ⟨b, hb, hcan⟩ := hfree
          obtain ⟨e, h, he, hcan', hbest⟩ := acquire_ok hb hcan
          rw [h]
          exact ⟨he, hcan', rfl, fun b hb hc => ⟨hbest b hb hc, exact_of_keyLe (hbest b hb hc)⟩⟩
        · have hfull : ∀ e, Candidate t m now staleAfter tenantId model exclude e →
              canAcquire m e = false :=
            fun e he => Bool.eq_false_of_not_eq_true fun hc => hfree ⟨e, he, hc⟩
          rw [acquire_atCapacity hcand hfull]
          exact ⟨hcand, hfull⟩
      · have hexcluded : ∀ e, Fresh t m now staleAfter tenantId e → serves model e = true →
            e.stableId ∈ exclude := by
          intro e he hs
          by_contra hx
          exact hcand ⟨e, he, hs, hx⟩
        rw [acquire_allExcluded hserves hexcluded]
        exact ⟨hserves, hexcluded⟩
    · have hnot : ∀ e, Fresh t m now staleAfter tenantId e → serves model e = false :=
        fun e he => Bool.eq_false_of_not_eq_true fun hs => hserves ⟨e, he, hs⟩
      rw [acquire_noModel hfresh hnot]
      exact ⟨hfresh, hnot⟩
  · have hnone : ∀ e, ¬ Fresh t m now staleAfter tenantId e := fun e he => hfresh ⟨e, he⟩
    rw [acquire_noAgent hnone]
    exact hnone

/-- **Routing correctness.** What is taken is a candidate with a free slot, no candidate with a free slot
ranks before it, and it declares the model itself if one of them does. There is an error exactly if no
candidate has a free slot: `NoAgent` if the tenant has no fresh entry, `NoModel` if it has some but none
serves the model, `AllExcluded` if some do but all of these are excluded, `AtCapacity` if some are not and
all of those are full. -/
theorem selection_correct (t : Agents) (m : Mem) (now staleAfter : UInt64) (tenantId model : String)
    (exclude : List ℕ) :
    (∀ e m', tryAcquireExcludingForTenant t m now staleAfter tenantId model exclude = .ok (e, m') →
      Candidate t m now staleAfter tenantId model exclude e ∧ canAcquire m e = true ∧ m' = occupy m e ∧
        ∀ b, Candidate t m now staleAfter tenantId model exclude b → canAcquire m b = true →
          keyLe m model e b = true ∧ (exact model b = true → exact model e = true)) ∧
    ((∃ p, tryAcquireExcludingForTenant t m now staleAfter tenantId model exclude = .ok p) ↔
      ∃ e, Candidate t m now staleAfter tenantId model exclude e ∧ canAcquire m e = true) ∧
    (tryAcquireExcludingForTenant t m now staleAfter tenantId model exclude = .error .noAgent ↔
      ∀ e, ¬ Fresh t m now staleAfter tenantId e) ∧
    (tryAcquireExcludingForTenant t m now staleAfter tenantId model exclude = .error .noModel ↔
      (∃ e, Fresh t m now staleAfter tenantId e) ∧
        ∀ e, Fresh t m now staleAfter tenantId e → serves model e = false) ∧
    (tryAcquireExcludingForTenant t m now staleAfter tenantId model exclude = .error .allExcluded ↔
      (∃ e, Fresh t m now staleAfter tenantId e ∧ serves model e = true) ∧
        ∀ e, Fresh t m now staleAfter tenantId e → serves model e = true → e.stableId ∈ exclude) ∧
    (tryAcquireExcludingForTenant t m now staleAfter tenantId model exclude = .error .atCapacity ↔
      (∃ e, Candidate t m now staleAfter tenantId model exclude e) ∧
        ∀ e, Candidate t m now staleAfter tenantId model exclude e → canAcquire m e = false) := by
  have hx := explains_outcome t m now staleAfter tenantId model exclude
  refine ⟨fun e m' h => ?_, ⟨fun ⟨p, h⟩ => ?_, fun ⟨e, he, hfree⟩ => ?_⟩, ⟨fun h => ?_, acquire_noAgent⟩,
    ⟨fun h => ?_, fun h => acquire_noModel h.1 h.2⟩,
    ⟨fun h => ?_, fun h => acquire_allExcluded h.1 h.2⟩,
    ⟨fun h => ?_, fun h => acquire_atCapacity h.1 h.2⟩⟩
  · rw [h] at hx
    exact hx
  · rw [h] at hx
    exact ⟨p.1, hx.1, hx.2.1⟩
  · obtain ⟨e', h, -⟩ := acquire_ok he hfree
    exact ⟨_, h⟩
  · rw [h] at hx
    exact hx
  · rw [h] at hx
    exact hx
  · rw [h] at hx
    exact hx
  · rw [h] at hx
    exact hx

end HomeLlmGateway.Registry.Selection
