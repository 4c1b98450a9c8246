import HomeLlmGateway.Lib.Assoc
import Mathlib.Data.List.MinMax

/-! # The cache of verified identities

`VerifiedCache` (`gateway/src/storage/verified.rs`): by the lookup of a token, the record it was verified
against and when, and the slots that keep the calls for one token apart. Each function here is one
section under the mutex of `entries` or of `inflight`; the calls that string them together are in
`Storage.Keys`. Times are in any unit, `now` is the clock of `Instant`. -/

namespace HomeLlmGateway.Storage.Cache

open HomeLlmGateway.Lib.Assoc

/-- `KeyRecord`. -/
structure KeyRecord where
  id : String
  keyHash : String
  lookup : String
  name : String
  createdAt : ℕ
  enabled : Bool
  credVersion : ℕ
  tenantId : String
  ownerUserId : Option String
  deriving DecidableEq

/-- `Verified`. -/
structure Verified where
  record : KeyRecord
  verifiedAt : ℕ
  deriving DecidableEq

/-- `VerifiedCache`. A slot is told by its address. -/
structure VerifiedCache where
  entries : HashMap String Verified
  inflight : HashMap String ℕ

namespace VerifiedCache

/-- `VerifiedCache::new`. -/
def new : VerifiedCache := ⟨∅, ∅⟩

/-- `is_cached`. -/
def isCached (c : VerifiedCache) (ttl now : ℕ) (lookup : String) (credVersion : ℕ) : Bool :=
  match c.entries.lookup lookup with
  | none => false
  | some hit =>
    hit.record.enabled && hit.record.credVersion == credVersion && decide (now - hit.verifiedAt < ttl)

/-- The lookup of the entry that `put` evicts. -/
def oldest (c : VerifiedCache) : Option String :=
  (c.entries.entries.argmin fun p => p.2.verifiedAt).map Sigma.fst

/-- `put`. -/
def put (c : VerifiedCache) (maxEntries now : ℕ) (lookup : String) (record : KeyRecord) :
    VerifiedCache :=
  let entries :=
    if maxEntries ≤ c.entries.entries.length ∧ (c.entries.lookup lookup).isNone then
      match c.oldest with
      | some k => c.entries.erase k
      | none => c.entries
    else c.entries
  { c with entries := entries.insert lookup ⟨record, now⟩ }

/-- `invalidate_by_id`. -/
def invalidateById (c : VerifiedCache) (keyId : String) : VerifiedCache :=
  { c with entries := retain (fun _ v => v.record.id != keyId) c.entries }

/-- `flight`: the slot of a token, made at the address `fresh` if there is none. -/
def flight (c : VerifiedCache) (lookup : String) (fresh : ℕ) : ℕ × VerifiedCache :=
  match c.inflight.lookup lookup with
  | some slot => (slot, c)
  | none => (fresh, { c with inflight := c.inflight.insert lookup fresh })

/-- `is_current`. -/
def isCurrent (c : VerifiedCache) (lookup : String) (slot : ℕ) : Bool :=
  c.inflight.lookup lookup == some slot

/-- `remove_if_current`. -/
def removeIfCurrent (c : VerifiedCache) (lookup : String) (slot : ℕ) : VerifiedCache :=
  if c.isCurrent lookup slot then { c with inflight := c.inflight.erase lookup } else c

/-! ### What the sections do to the entries -/

theorem isCached_eq_true {c : VerifiedCache} {ttl now : ℕ} {lookup : String} {v : ℕ}
    (h : c.isCached ttl now lookup v = true) :
    ∃ hit, c.entries.lookup lookup = some hit ∧ hit.record.credVersion = v := by
  unfold isCached at h
  cases hl : c.entries.lookup lookup with
  | none => simp [hl] at h
  | some hit =>
    simp only [hl, Bool.and_eq_true, beq_iff_eq] at h
    exact ⟨hit, rfl, h.1.2⟩

theorem lookup_put {c : VerifiedCache} {maxEntries now : ℕ} {lookup k : String} {record : KeyRecord}
    {v : Verified} (h : (c.put maxEntries now lookup record).entries.lookup k = some v) :
    (k = lookup ∧ v = ⟨record, now⟩) ∨ c.entries.lookup k = some v := by
  simp only [put, lookup_insert] at h
  split_ifs at h with hk hfull
  · exact Or.inl ⟨hk, (Option.some.inj h).symm⟩
  · split at h
    · rw [lookup_erase] at h
      split_ifs at h
      exact Or.inr h
    · exact Or.inr h
  · exact Or.inr h

theorem lookup_invalidateById {c : VerifiedCache} {keyId k : String} {v : Verified}
    (h : (c.invalidateById keyId).entries.lookup k = some v) : c.entries.lookup k = some v := by
  simp only [invalidateById, lookup_retain, Option.filter_eq_some_iff] at h
  exact h.1

@[simp] theorem entries_flight (c : VerifiedCache) (lookup : String) (fresh : ℕ) :
    (c.flight lookup fresh).2.entries = c.entries := by
  unfold flight
  split <;> rfl

@[simp] theorem entries_removeIfCurrent (c : VerifiedCache) (lookup : String) (slot : ℕ) :
    (c.removeIfCurrent lookup slot).entries = c.entries := by
  unfold removeIfCurrent
  split_ifs <;> rfl

end VerifiedCache

end HomeLlmGateway.Storage.Cache
