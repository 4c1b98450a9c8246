import HomeLlmGateway.Proxy.Delivery

/-! # The recorded reason of a rejection

A request whose tenant has no usable agent is refused with a reason that goes into the metrics:
`registry-empty` or `all-candidates-stale` (`open_and_send` and `rejection_response`,
`gateway/src/proxy/routing.rs`). That there is no agent comes from `pick_for_tenant`, which looks at the
entries of the tenant; which of the two reasons it is comes from `status`, called after it, which counts the
entries of all tenants. `rejection_reason_iff` says when the two fit together. -/

namespace HomeLlmGateway.Proxy.Rejection

open HomeLlmGateway.Lib.Runs HomeLlmGateway.Lib.Assoc
open HomeLlmGateway.Registry.Node HomeLlmGateway.Registry.Table HomeLlmGateway.Registry.Routing
open HomeLlmGateway.Proto.Frames HomeLlmGateway.Proto.Io HomeLlmGateway.Proxy.Routing
open HomeLlmGateway.Proxy.Delivery (wildcardAgent)

/-! ### What the reason says -/

/-- The tenant has an entry in the table. -/
def Registered (t : Agents) (tenantId : String) : Prop := ∃ e ∈ values t, e.tenantId = tenantId

/-- No entry of the tenant is fresh. -/
def AllStale (t : Agents) (m : Mem) (now staleAfter : UInt64) (tenantId : String) : Prop :=
  ∀ e ∈ values t, e.tenantId = tenantId →
    isFresh (m.health e.stableId).lastSeenMillis now staleAfter = false

/-- No tenant has an entry. -/
def Nobody (t : Agents) : Prop := values t = []

instance (t : Agents) : Decidable (Nobody t) := inferInstanceAs (Decidable (_ = _))

/-- The reason tells how the tenant stands in the registry. -/
structure Describes (reg : Registry.System.State) (i : Input) (now : UInt64) (why : String) : Prop where
  empty : why = "registry-empty" ↔ ¬ Registered reg.agents i.tenantId
  stale : why = "all-candidates-stale" ↔ Registered reg.agents i.tenantId ∧
    AllStale reg.agents reg.mem now i.agentStaleAfter i.tenantId

/-- A reason with the property `D` is the next metric after those of `s`. -/
def Records (s s' : State) (D : String → Prop) : Prop :=
  ∃ why rest, s'.metrics = s.metrics ++ .agentRejection why :: rest ∧ D why

/-! ### The steps of a refusal -/

section refusal

variable {P : Postcard} {allowLegacy : Bool} {i : Input} {s s' : State} {order : List Entry} {now : UInt64}

theorem emptyReason_ne_noAgent (b : Bool) : emptyReason b ≠ .noAgent := by
  cases b
  · simp [emptyReason]
  · simp [emptyReason]

/-- `NoAgent` means that no entry of the tenant is fresh. -/
theorem allStale_of_noAgent {m : Mem} {t : Agents} {staleAfter : UInt64} {tenantId model : String}
    {exclude : List ℕ} (hperm : order.Perm (values t))
    (h : pickForTenant order m now staleAfter tenantId model exclude = .error .noAgent) :
    AllStale t m now staleAfter tenantId := by
  have hnone : order.filter (usable m now staleAfter tenantId) = [] := by
    simp only [pickForTenant] at h
    split_ifs at h with hempty
    · exact List.isEmpty_iff.mp hempty
    · exact absurd (Except.error.inj h) (emptyReason_ne_noAgent _)
    · exact absurd (Except.error.inj h) (emptyReason_ne_noAgent _)
  intro e he ht
  by_contra hfresh
  have husable : usable m now staleAfter tenantId e = true := by
    unfold usable
    simpa [ht] using hfresh
  have hmem : e ∈ order.filter (usable m now staleAfter tenantId) :=
    List.mem_filter.mpr ⟨hperm.mem_iff.mpr he, husable⟩
  rw [hnone] at hmem
  cases hmem

theorem of_pick_noAgent (hpick : step P allowLegacy i s (.pick order now) = some s')
    (hpc : s'.pc = .rejected .noAgent) :
    s'.reg = s.reg ∧ AllStale s.reg.agents s.reg.mem now i.agentStaleAfter i.tenantId := by
  simp only [step] at hpick
  split at hpick
  · split_ifs at hpick with hperm
    split at hpick
    · cases hpick
      cases hpc
    · next reason hr =>
      cases hpick
      cases hpc
      exact ⟨rfl, allStale_of_noAgent hperm hr⟩
  · cases hpick

theorem of_env_run : ∀ {envs : List Registry.System.Label} {s s' : State},
    run (step P allowLegacy i) s (envs.map .env) = some s' → s'.pc = s.pc ∧ s'.metrics = s.metrics
  | [], s, s', h => by
    cases h
    exact ⟨rfl, rfl⟩
  | l :: envs, s, s', h => by
    obtain ⟨s1, h1, h2⟩ := run_cons_eq_some.mp h
    obtain ⟨hpc, hmetrics⟩ := of_env_run h2
    simp only [step] at h1
    split_ifs at h1
    obtain ⟨reg, -, rfl⟩ := onReg_eq_some.mp h1
    exact ⟨hpc, hmetrics⟩

theorem rejectionResponse_noAgent (t : Agents) : rejectionResponse .noAgent (values t).length =
    (if Nobody t then "registry-empty" else "all-candidates-stale", .noEdge) := by
  by_cases hn : Nobody t
  · have hlen : (values t).length = 0 := by rw [hn]; rfl
    simp [rejectionResponse, hlen, hn]
  · have hlen : (values t).length ≠ 0 := fun h => hn (List.eq_nil_of_length_eq_zero h)
    simp only [rejectionResponse, hlen, if_false, hn]

theorem records_of_reject {D : String → Prop} (hpc : s.pc = .rejected .noAgent)
    (h : step P allowLegacy i s .reject = some s') :
    Records s s' D ↔ D (if Nobody s.reg.agents then "registry-empty" else "all-candidates-stale") := by
  have hwhy : ∃ rest, s'.metrics = s.metrics ++
      .agentRejection (if Nobody s.reg.agents then "registry-empty" else "all-candidates-stale") :: rest := by
    simp only [step, hpc, Option.some.injEq] at h
    subst h
    unfold rejectWith
    rw [rejectionResponse_noAgent]
    cases s.lastFailure with
    | none => exact ⟨[], rfl⟩
    | some err => exact ⟨[.tunnelRetry "no-alternative"], by simp⟩
  obtain ⟨rest, hrest⟩ := hwhy
  constructor
  · rintro ⟨why, rest', heq, hD⟩
    rw [hrest, List.append_cancel_left_eq, List.cons.injEq, Metric.agentRejection.injEq] at heq
    rw [heq.1]
    exact hD
  · intro hD
    exact ⟨_, rest, hrest, hD⟩

/-- Which of the two reasons tells how a tenant without a fresh entry stands. -/
theorem describes_iff {reg : Registry.System.State} {t : Agents}
    (hstale : AllStale reg.agents reg.mem now i.agentStaleAfter i.tenantId) :
    Describes reg i now (if Nobody t then "registry-empty" else "all-candidates-stale") ↔
      (Nobody t ↔ ¬ Registered reg.agents i.tenantId) := by
  have hne : "registry-empty" ≠ "all-candidates-stale" := by decide
  constructor
  · intro h
    rw [← h.empty]
    split_ifs with hn
    · simp [hn]
    · simp [hn, hne.symm]
  · intro h
    by_cases hn : Nobody t
    · rw [if_pos hn]
      exact ⟨by simp [h.mp hn], by simp [h.mp hn]⟩
    · have hreg : Registered reg.agents i.tenantId := by
        by_contra hreg
        exact hn (h.mpr hreg)
      rw [if_neg hn]
      exact ⟨by simp [hreg], by simp [hreg, hstale]⟩

end refusal

theorem not_registered_of_nobody {t : Agents} {tenantId : String} (h : Nobody t) :
    ¬ Registered t tenantId := by
  rintro ⟨e, he, -⟩
  rw [h] at he
  cases he

/-- **The rejection reason.** A request is refused since its tenant has no usable agent, and whatever the
others do before `status` is read. The recorded reason tells how the tenant stood exactly if `status` finds
the table empty just when the tenant had no entry. If nothing happens in between: exactly if the tenant has
an entry, or no tenant has one. -/
theorem rejection_reason_iff {P : Postcard} {allowLegacy : Bool} {i : Input} {s s1 s2 s3 : State}
    {order : List Entry} {now : UInt64} {envs : List Registry.System.Label}
    (hpick : step P allowLegacy i s (.pick order now) = some s1) (hpc : s1.pc = .rejected .noAgent)
    (henv : run (step P allowLegacy i) s1 (envs.map .env) = some s2)
    (hreject : step P allowLegacy i s2 .reject = some s3) :
    (Records s2 s3 (Describes s.reg i now) ↔
      (Nobody s2.reg.agents ↔ ¬ Registered s.reg.agents i.tenantId)) ∧
    (envs = [] → (Records s2 s3 (Describes s.reg i now) ↔
      Registered s.reg.agents i.tenantId ∨ Nobody s.reg.agents)) := by
  obtain ⟨hreg, hstale⟩ := of_pick_noAgent hpick hpc
  have hiff : Records s2 s3 (Describes s.reg i now) ↔
      (Nobody s2.reg.agents ↔ ¬ Registered s.reg.agents i.tenantId) := by
    rw [records_of_reject ((of_env_run henv).1.trans hpc) hreject, describes_iff hstale]
  refine ⟨hiff, fun hnil => ?_⟩
  subst hnil
  cases henv
  rw [hiff, hreg]
  constructor
  · intro h
    by_cases hr : Registered s.reg.agents i.tenantId
    · exact Or.inl hr
    · exact Or.inr (h.mpr hr)
  · rintro (hr | hn)
    · exact ⟨fun hn => absurd hr (not_registered_of_nobody hn), fun h => absurd hr h⟩
    · exact ⟨fun _ => not_registered_of_nobody hn, fun _ => hn⟩

/-! ### Two refusals -/

/-- A request of a tenant. -/
def requestOf (tenantId : String) : Input :=
  ⟨tenantId, "m", .proxyRequest 7 "POST" "/v1" [] [1], 15000, 100⟩

/-- An agent of the default tenant registers. -/
def oneAgent : List Label :=
  [.env (.connect 0 (.v4 1)), .env (.frame 0 (.register "a" ["*"] 2 "") false 0), .env (.insert 0 0)]

/-- The agent of the default tenant has been silent for a minute, and a request of that tenant is refused
for the right reason. -/
theorem rejection_reason_stale : ∃ s s1 s2,
    run (step postcard true (requestOf "default")) (start Registry.System.init) oneAgent = some s ∧
      step postcard true (requestOf "default") s (.pick [wildcardAgent] 60000) = some s1 ∧
      step postcard true (requestOf "default") s1 .reject = some s2 ∧
      Records s1 s2 (Describes s.reg (requestOf "default") 60000) := by
  obtain ⟨s, hs, hvals, hrun⟩ := exists_run (step postcard true (requestOf "default"))
    (start Registry.System.init) oneAgent (fun s => values s.reg.agents = [wildcardAgent] ∧
      (step postcard true (requestOf "default") s (.pick [wildcardAgent] 60000)).any
        (fun s1 => s1.pc = .rejected .noAgent ∧
          (step postcard true (requestOf "default") s1 .reject).isSome) = true) (by decide)
  obtain ⟨s1, h1, hp⟩ := (Option.any_eq_true _ _).mp hrun
  obtain ⟨hpc, hsome⟩ := of_decide_eq_true hp
  obtain ⟨s2, h2⟩ := Option.isSome_iff_exists.mp hsome
  refine ⟨s, s1, s2, hs, h1, h2, ?_⟩
  have hnone : run (step postcard true (requestOf "default")) s1
      (([] : List Registry.System.Label).map .env) = some s1 := rfl
  rw [(rejection_reason_iff h1 hpc hnone h2).2 rfl]
  exact Or.inl ⟨wildcardAgent, by rw [hvals]; simp, rfl⟩

/-- The agent of the default tenant is fresh. A request of a tenant without agents is refused as if that
tenant had some and all of them were stale. -/
theorem rejection_reason_other_tenant : ∃ s s1 s2,
    run (step postcard true (requestOf "alpha")) (start Registry.System.init) oneAgent = some s ∧
      step postcard true (requestOf "alpha") s (.pick [wildcardAgent] 0) = some s1 ∧
      s1.pc = .rejected .noAgent ∧ step postcard true (requestOf "alpha") s1 .reject = some s2 ∧
      s2.metrics = [.agentRejection "all-candidates-stale"] ∧
      ¬ Registered s.reg.agents "alpha" ∧
      ¬ Records s1 s2 (Describes s.reg (requestOf "alpha") 0) := by
  obtain ⟨s, hs, hvals, hrun⟩ := exists_run (step postcard true (requestOf "alpha"))
    (start Registry.System.init) oneAgent (fun s => values s.reg.agents = [wildcardAgent] ∧
      (step postcard true (requestOf "alpha") s (.pick [wildcardAgent] 0)).any
        (fun s1 => s1.pc = .rejected .noAgent ∧ s1.metrics = [] ∧
          (step postcard true (requestOf "alpha") s1 .reject).any
            (fun s2 => s2.metrics = [.agentRejection "all-candidates-stale"]) = true) = true) (by decide)
  obtain ⟨s1, h1, hp⟩ := (Option.any_eq_true _ _).mp hrun
  obtain ⟨hpc, hm1, hrej⟩ := of_decide_eq_true hp
  obtain ⟨s2, h2, hp2⟩ := (Option.any_eq_true _ _).mp hrej
  have hm2 := of_decide_eq_true hp2
  have hnot : ¬ Registered s.reg.agents "alpha" := by
    rintro ⟨e, he, ht⟩
    rw [hvals, List.mem_singleton] at he
    subst he
    exact absurd ht (by decide)
  refine ⟨s, s1, s2, hs, h1, hpc, h2, hm2, hnot, ?_⟩
  rintro ⟨why, rest, heq, hD⟩
  rw [hm1, hm2, List.nil_append, List.cons.injEq, Metric.agentRejection.injEq] at heq
  rw [← heq.1] at hD
  exact absurd (hD.empty.mpr hnot) (by decide)

end HomeLlmGateway.Proxy.Rejection
