import Mathlib.Data.String.Basic
import HomeLlmGateway.Access.RequestLimits
import HomeLlmGateway.Lib.Decimal
import HomeLlmGateway.Lib.Sorted
import HomeLlmGateway.Registry.Selection

/-! # What the gateway says it serves

The readings of the table that are not for routing (`gateway/src/registry/table.rs`): the list of models of
`GET /v1/models` (`models_route`, `gateway/src/http/api.rs`), and the counts of `/metrics` and of the log line
of a rejection. `discovery_agrees_with_routing` compares the list with what a request for a model gets at the
same moment. -/

namespace HomeLlmGateway.Registry.Discovery

open HomeLlmGateway.Lib.Assoc HomeLlmGateway.Lib.Decimal HomeLlmGateway.Lib.Sorted
open HomeLlmGateway.Access.RequestLimits (Limits Arrival ErrorResponse authenticate)
open HomeLlmGateway.Registry.Node HomeLlmGateway.Registry.Table
open HomeLlmGateway.Registry.Routing HomeLlmGateway.Registry.Selection HomeLlmGateway.Registry.Isolation

/-! ### Models -/

/-- `models_route`: the ids of the list. -/
def modelsRoute (s : Limits) (r : Arrival) (t : Agents) (m : Mem) (now staleAfter : UInt64) :
    Limits × Except ErrorResponse (List String) :=
  match authenticate s r with
  | (s, .error e) => (s, .error e.intoResponse)
  | (s, .ok key) => (s, .ok (healthyModelsForTenant t m now staleAfter key.tenantId))

section models

variable {t : Agents} {m : Mem} {now staleAfter : UInt64} {tenantId model : String}

theorem healthyModels_eq : healthyModelsForTenant t m now staleAfter tenantId =
    sortDedup (declared (values t) m now staleAfter tenantId) := rfl

theorem mem_healthyModels : model ∈ healthyModelsForTenant t m now staleAfter tenantId ↔
    model ≠ "*" ∧ ∃ e, Fresh t m now staleAfter tenantId e ∧ model ∈ e.models := by
  rw [healthyModels_eq, mem_sortDedup, declared, List.mem_flatMap]
  have hdeclared : ∀ e : Entry, (model ∈ e.models.filter fun m => m != "*") ↔ model ∈ e.models ∧ model ≠ "*" := by
    intro e
    rw [List.mem_filter, bne_iff_ne]
  constructor
  · rintro ⟨e, he, hm⟩
    obtain ⟨hm, hne⟩ := (hdeclared e).mp hm
    exact ⟨hne, e, mem_filter_usable.mp he, hm⟩
  · rintro ⟨hne, e, he, hm⟩
    exact ⟨e, mem_filter_usable.mpr he, (hdeclared e).mpr ⟨hm, hne⟩⟩

theorem serves_iff {e : Entry} : serves model e = true ↔ "*" ∈ e.models ∨ model ∈ e.models := by
  simp only [serves, List.any_eq_true, Bool.or_eq_true, beq_iff_eq]
  constructor
  · rintro ⟨x, hx, rfl | rfl⟩
    · exact Or.inl hx
    · exact Or.inr hx
  · rintro (h | h)
    · exact ⟨_, h, Or.inl rfl⟩
    · exact ⟨_, h, Or.inr rfl⟩

theorem exists_serves_iff : (∃ e, Fresh t m now staleAfter tenantId e ∧ serves model e = true) ↔
    model ∈ healthyModelsForTenant t m now staleAfter tenantId ∨
      ∃ e, Fresh t m now staleAfter tenantId e ∧ "*" ∈ e.models := by
  rw [mem_healthyModels]
  constructor
  · rintro ⟨e, he, hs⟩
    rcases serves_iff.mp hs with hm | hm
    · exact Or.inr ⟨e, he, hm⟩
    · by_cases hstar : model = "*"
      · exact Or.inr ⟨e, he, hstar ▸ hm⟩
      · exact Or.inl ⟨hstar, e, he, hm⟩
  · rintro (⟨-, e, he, hm⟩ | ⟨e, he, hm⟩)
    · exact ⟨e, he, serves_iff.mpr (Or.inr hm)⟩
    · exact ⟨e, he, serves_iff.mpr (Or.inl hm)⟩

end models

/-- **Discovery agrees with routing.** The list of a tenant is strictly ascending and depends on nothing but
the models that its fresh agents declare. At the same moment a request for a model on the list is turned
away only if all agents that serve it are full; a request is told that there is no such model exactly if the
tenant has fresh agents, the model is not on the list, and no agent takes any model. -/
theorem discovery_agrees_with_routing (t : Agents) (m : Mem) (now staleAfter : UInt64) (tenantId model : String) :
    (healthyModelsForTenant t m now staleAfter tenantId).Pairwise (· < ·) ∧
    (∀ t' m' now', (∀ x, (∃ e, Fresh t m now staleAfter tenantId e ∧ x ∈ e.models) ↔
        ∃ e, Fresh t' m' now' staleAfter tenantId e ∧ x ∈ e.models) →
      healthyModelsForTenant t' m' now' staleAfter tenantId = healthyModelsForTenant t m now staleAfter tenantId) ∧
    (model ∈ healthyModelsForTenant t m now staleAfter tenantId →
      ∀ reason, tryAcquireExcludingForTenant t m now staleAfter tenantId model [] = .error reason →
        reason = .atCapacity) ∧
    (tryAcquireExcludingForTenant t m now staleAfter tenantId model [] = .error .noModel ↔
      (∃ e, Fresh t m now staleAfter tenantId e) ∧
        model ∉ healthyModelsForTenant t m now staleAfter tenantId ∧
        ∀ e, Fresh t m now staleAfter tenantId e → "*" ∉ e.models) := by
  have hx := explains_outcome t m now staleAfter tenantId model []
  refine ⟨pairwise_sortDedup _, fun t' m' now' hsame => ?_, fun hm reason hreason => ?_, ?_⟩
  · rw [healthyModels_eq, healthyModels_eq]
    refine sortDedup_congr fun x => ?_
    have hlisted := mem_healthyModels.trans ((and_congr_right fun _ => (hsame x).symm).trans mem_healthyModels.symm)
    exact mem_sortDedup.symm.trans (hlisted.trans mem_sortDedup)
  · obtain ⟨e, he, hs⟩ := exists_serves_iff.mpr (Or.inl hm)
    rw [hreason] at hx
    cases reason with
    | noAgent => exact absurd he (hx e)
    | noModel =>
      have hnot := hx.2 e he
      rw [hs] at hnot
      cases hnot
    | atCapacity => rfl
    | allExcluded => exact absurd (hx.2 e he hs) (by simp)
  · constructor
    · intro h
      rw [h] at hx
      obtain ⟨hfresh, hnot⟩ := hx
      have hnone : ¬ ∃ e, Fresh t m now staleAfter tenantId e ∧ serves model e = true := by
        rintro ⟨e, he, hs⟩
        rw [hnot e he] at hs
        cases hs
      rw [exists_serves_iff, not_or] at hnone
      exact ⟨hfresh, hnone.1, fun e he hm => hnone.2 ⟨e, he, hm⟩⟩
    · rintro ⟨hfresh, hlist, hstar⟩
      refine acquire_noModel hfresh fun e he => ?_
      by_contra hs
      rw [Bool.not_eq_false] at hs
      rcases exists_serves_iff.mp ⟨e, he, hs⟩ with hm | ⟨e', he', hm⟩
      · exact hlist hm
      · exact hstar e' he' hm

/-! ### Counts -/

/-- `healthy_count`. -/
def healthyCount (t : Agents) (m : Mem) (now staleAfter : UInt64) : ℕ :=
  (values t).countP fun e => isFresh (m.health e.stableId).lastSeenMillis now staleAfter

/-- `RegistryStatus`. -/
structure RegistryStatus where
  registered : ℕ
  healthy : ℕ
  oldestLastSeenAgo : Option UInt64
  deriving DecidableEq

/-- One entry in the loop of `status`. -/
def RegistryStatus.add (m : Mem) (now staleAfter : UInt64) (s : RegistryStatus) (e : Entry) : RegistryStatus :=
  let last := (m.health e.stableId).lastSeenMillis
  let age := sinceMillis last now
  { s with
    healthy := if isFresh last now staleAfter then s.healthy + 1 else s.healthy
    oldestLastSeenAgo := some (match s.oldestLastSeenAgo with
      | some o => if o ≥ age then o else age
      | none => age) }

/-- `status`. -/
def status (t : Agents) (m : Mem) (now staleAfter : UInt64) : RegistryStatus :=
  (values t).foldl (RegistryStatus.add m now staleAfter) ⟨(values t).length, 0, none⟩

section counts

variable {t : Agents} {m : Mem} {now staleAfter : UInt64}

/-- How long an entry has not been heard of. -/
def age (m : Mem) (now : UInt64) (e : Entry) : UInt64 := sinceMillis (m.health e.stableId).lastSeenMillis now

/-- What the loop of `status` has found after the entries `l`. -/
structure Sums (m : Mem) (now staleAfter : UInt64) (l : List Entry) (s : RegistryStatus) : Prop where
  healthy : s.healthy = l.countP fun e => isFresh (m.health e.stableId).lastSeenMillis now staleAfter
  bound : ∀ e ∈ l, ∃ o, s.oldestLastSeenAgo = some o ∧ age m now e ≤ o
  attained : ∀ o, s.oldestLastSeenAgo = some o → ∃ e ∈ l, age m now e = o

theorem Sums.add {l : List Entry} {s : RegistryStatus} (h : Sums m now staleAfter l s) (e : Entry) :
    Sums m now staleAfter (l ++ [e]) (s.add m now staleAfter e) := by
  have hage : sinceMillis (m.health e.stableId).lastSeenMillis now = age m now e := rfl
  refine ⟨?_, fun e' he' => ?_, fun o ho => ?_⟩
  · rw [List.countP_append, List.countP_singleton, ← h.healthy]
    unfold RegistryStatus.add
    dsimp only
    split_ifs <;> rfl
  · unfold RegistryStatus.add
    dsimp only
    rw [hage]
    refine ⟨_, rfl, ?_⟩
    rcases List.mem_append.mp he' with he' | he'
    · obtain ⟨o, ho, hle⟩ := h.bound e' he'
      rw [ho]
      dsimp only
      split_ifs with hge
      · exact hle
      · exact UInt64.le_trans hle (UInt64.le_of_lt (UInt64.not_le.mp hge))
    · rw [List.mem_singleton.mp he']
      split
      · split_ifs with hge
        · exact hge
        · exact UInt64.le_refl _
      · exact UInt64.le_refl _
  · unfold RegistryStatus.add at ho
    dsimp only at ho
    rw [hage] at ho
    cases ho
    cases hold : s.oldestLastSeenAgo with
    | none => exact ⟨e, by simp, rfl⟩
    | some o =>
      dsimp only
      split_ifs with hge
      · obtain ⟨e', he', ha⟩ := h.attained o hold
        exact ⟨e', List.mem_append_left _ he', ha⟩
      · exact ⟨e, by simp, rfl⟩

theorem Sums.foldl : ∀ (rest : List Entry) {l : List Entry} {s : RegistryStatus}, Sums m now staleAfter l s →
    Sums m now staleAfter (l ++ rest) (rest.foldl (RegistryStatus.add m now staleAfter) s)
  | [], l, s, h => by simpa using h
  | e :: rest, l, s, h => by
    have ih := Sums.foldl rest (h.add e)
    rwa [List.append_assoc] at ih

/-- The diagnosis of a rejection: the counts are those of `/metrics`, and the age is that of the entry that
was not heard of for the longest time. -/
theorem status_sums (t : Agents) (m : Mem) (now staleAfter : UInt64) :
    Sums m now staleAfter (values t) (status t m now staleAfter) ∧
      (status t m now staleAfter).healthy = healthyCount t m now staleAfter := by
  have h : Sums m now staleAfter (values t) (status t m now staleAfter) :=
    Sums.foldl (values t) (l := []) ⟨rfl, by simp, by simp⟩
  exact ⟨h, h.healthy⟩

/-- No agent is healthy exactly if every request is turned away because there is no agent. -/
theorem healthyCount_eq_zero_iff : healthyCount t m now staleAfter = 0 ↔ ∀ tenantId model exclude,
    tryAcquireExcludingForTenant t m now staleAfter tenantId model exclude = .error .noAgent := by
  have hfresh : healthyCount t m now staleAfter = 0 ↔ ∀ tenantId e, ¬ Fresh t m now staleAfter tenantId e := by
    rw [healthyCount, List.countP_eq_zero]
    constructor
    · intro h tenantId e he
      exact h e ((mem_values _ _).mpr he.mem) he.fresh
    · intro h e he hf
      exact h e.tenantId e ⟨(mem_values _ _).mp he, rfl, hf⟩
  rw [hfresh]
  constructor
  · intro h tenantId model exclude
    exact acquire_noAgent (h tenantId)
  · intro h tenantId e he
    exact (selection_correct t m now staleAfter tenantId "" []).2.2.1.mp (h tenantId "" []) e he

end counts

/-! ### Nodes -/

/-- The segments of an IPv6 address. -/
def segments (hi lo : UInt64) : List ℕ :=
  [hi, lo].flatMap fun half => [48, 32, 16, 0].map fun shift => half.toNat / 2 ^ shift % 65536

/-- The first of the longest runs of zeros: where it starts, and its length. -/
def zeroes (l : List ℕ) : ℕ × ℕ :=
  (l.zipIdx.foldl (fun (longest, current) (segment, i) =>
    if segment = 0 then
      let current : ℕ × ℕ := (if current.2 = 0 then i else current.1, current.2 + 1)
      (if current.2 > longest.2 then current else longest, current)
    else (longest, (0, 0))) (((0, 0), (0, 0)) : (ℕ × ℕ) × ℕ × ℕ)).1

/-- Segments in hexadecimal, with a colon between two. -/
def segmentsText (l : List ℕ) : String := ":".intercalate (l.map fun n => String.ofList (Nat.toDigits 16 n))

/-- Octets in decimal, with a dot between two. -/
def octetsText (addr : UInt32) : String :=
  ".".intercalate ([24, 16, 8, 0].map fun shift => String.ofList (printNat (addr.toNat / 2 ^ shift % 256)))

/-- `to_string` of an address: of an IPv6 address, a run of zeros is left out. -/
def ipText : IpAddr → String
  | .v4 addr => octetsText addr
  | .v6 hi lo =>
    if hi = 0 ∧ lo >>> 32 = 0xffff then "::ffff:" ++ octetsText lo.toUInt32
    else
      let all := segments hi lo
      let run := zeroes all
      if run.2 > 1 then segmentsText (all.take run.1) ++ "::" ++ segmentsText (all.drop (run.1 + run.2))
      else segmentsText all

example : [IpAddr.v4 0xc0a80102, .v6 0 1, .v6 0x20010db800000000 0x000100000000000a, .v6 0 0, .v6 0 0xffff01020304,
    .v6 0x0001000200030004 0x0005000600070000].map ipText =
    ["192.168.1.2", "::1", "2001:db8::1:0:0:a", "::", "::ffff:1.2.3.4", "1:2:3:4:5:6:7:0"] := by decide +kernel

/-- `AgentInfo`. -/
structure AgentInfo where
  tenantId : String
  agentId : String
  ip : String
  models : List String
  maxConcurrency : UInt32
  inflight : UInt32
  lastSeenSecsAgo : UInt64
  healthy : Bool
  deriving DecidableEq

/-- What `snapshot` shows of an entry. -/
def agentInfo (m : Mem) (now staleAfter : UInt64) (k : AgentKey) (e : Entry) : AgentInfo where
  tenantId := k.tenantId
  agentId := k.agentId
  ip := ipText k.peerIp
  models := e.models
  maxConcurrency := e.maxConcurrency
  inflight := m.inflight e.inflight
  lastSeenSecsAgo := sinceMillis (m.health e.stableId).lastSeenMillis now / 1000
  healthy := isFresh (m.health e.stableId).lastSeenMillis now staleAfter

/-- `snapshot`. -/
def snapshot (t : Agents) (m : Mem) (now staleAfter : UInt64) : List AgentInfo :=
  sortOn (fun a => toLex (a.tenantId, toLex (a.agentId, a.ip)))
    (t.entries.map fun e => agentInfo m now staleAfter e.1 e.2)

/-- `count_for_tenant`. -/
def countForTenant (t : Agents) (tenantId : String) : ℕ := t.keys.countP (·.tenantId = tenantId)

end HomeLlmGateway.Registry.Discovery
