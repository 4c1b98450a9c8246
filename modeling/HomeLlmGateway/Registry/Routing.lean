import Mathlib.Data.List.Sort
import HomeLlmGateway.Registry.Node

/-! # Choosing an agent

`pick_for_tenant` (`gateway/src/registry/routing.rs`): from the entries of the table, those that may serve
a request, best first, or the reason why there is none. It takes no slot; that is left to the
compare-exchange on one candidate after the other (`gateway/src/registry/admission.rs`). -/

namespace HomeLlmGateway.Registry.Routing

open HomeLlmGateway.Registry.Node

/-- `AcquireError`. -/
inductive AcquireError where
  | noAgent
  | noModel
  | atCapacity
  /-- every candidate is in the caller's `exclude` -/
  | allExcluded
  deriving DecidableEq

/-- Whether an entry declares the model itself. -/
def exact (model : String) (e : Entry) : Bool := e.models.any fun m => m == model

/-- Whether an entry declares the model or `*`. -/
def serves (model : String) (e : Entry) : Bool := e.models.any fun m => m == "*" || m == model

/-- `empty_reason`. -/
def emptyReason (hasModelCandidate : Bool) : AcquireError :=
  if hasModelCandidate then .allExcluded else .noModel

/-- The order of the sort key `(!exact, inflight, Reverse(last_seen))`. -/
def keyLe (m : Mem) (model : String) (a b : Entry) : Bool :=
  if exact model a != exact model b then exact model a
  else if m.inflight a.inflight != m.inflight b.inflight then m.inflight a.inflight < m.inflight b.inflight
  else (m.health b.stableId).lastSeenMillis ≤ (m.health a.stableId).lastSeenMillis

/-- Whether an entry is of the tenant and fresh. -/
def usable (m : Mem) (now staleAfter : UInt64) (tenantId : String) (e : Entry) : Bool :=
  e.tenantId == tenantId && isFresh (m.health e.stableId).lastSeenMillis now staleAfter

/-- `pick_for_tenant`. The sort is stable. -/
def pickForTenant (entries : List Entry) (m : Mem) (now staleAfter : UInt64) (tenantId model : String)
    (exclude : List ℕ) : Except AcquireError (List Entry) :=
  let candidates := entries.filter (usable m now staleAfter tenantId)
  if candidates.isEmpty then .error .noAgent
  else
    let hasModelCandidate := candidates.any (serves model)
    let candidates := candidates.filter fun e => !exclude.contains e.stableId
    if candidates.isEmpty then .error (emptyReason hasModelCandidate)
    else
      let candidates := candidates.filter (serves model)
      if candidates.isEmpty then .error (emptyReason hasModelCandidate)
      else .ok (candidates.insertionSort fun a b => keyLe m model a b)

/-- **What is picked**: the usable entries that are not excluded and serve the model, each as often as the
table has it. -/
theorem pickForTenant_perm {entries cs exclude} {m : Mem} {now staleAfter : UInt64}
    {tenantId model : String}
    (h : pickForTenant entries m now staleAfter tenantId model exclude = .ok cs) :
    cs.Perm (entries.filter fun e =>
      usable m now staleAfter tenantId e && !exclude.contains e.stableId && serves model e) := by
  simp only [pickForTenant] at h
  split_ifs at h
  cases h
  refine (List.perm_insertionSort _ _).trans ?_
  rw [List.filter_filter, List.filter_filter]
  refine List.Perm.of_eq (List.filter_congr fun e _ => ?_)
  cases serves model e <;> cases usable m now staleAfter tenantId e <;> simp

/-- An excluded connection is not picked, and what is picked is in the table. -/
theorem mem_of_pickForTenant {entries cs exclude} {m : Mem} {now staleAfter : UInt64}
    {tenantId model : String}
    (h : pickForTenant entries m now staleAfter tenantId model exclude = .ok cs) {e : Entry}
    (he : e ∈ cs) : e ∈ entries ∧ e.stableId ∉ exclude := by
  have hm := (pickForTenant_perm h).mem_iff.mp he
  simp only [List.mem_filter, Bool.and_eq_true, Bool.not_eq_true', List.contains_eq_mem,
    decide_eq_false_iff_not] at hm
  exact ⟨hm.1, hm.2.1.2⟩

end HomeLlmGateway.Registry.Routing
