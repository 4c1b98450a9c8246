import HomeLlmGateway.Storage.Usage
import Mathlib.Algebra.Order.Monoid.Prod
import Mathlib.Algebra.BigOperators.Group.List.Basic

/-! # The usage ledger over whole runs

What memory and table say about each other along any run of the usage store. `Move` lists what one step
can do. The invariant `Inv` then says: a row is what the flushed marker says, or, between a commit and
its marker update, what the batch says; and marker and batch never exceed the totals in memory. A row
is therefore a value that memory once had, and memory counts each request at most once
(`History`).

The table has signed columns, so this needs totals below `2 ^ 63` (`Admissible`). -/

namespace HomeLlmGateway.Storage.UsageLedger

open HomeLlmGateway.Lib.Runs HomeLlmGateway.Lib.Assoc HomeLlmGateway.Storage.Usage

/-! ### Counters -/

/-- Prompt tokens, completion tokens, requests, estimated requests. -/
abbrev Counters := ℕ × ℕ × ℕ × ℕ

def snapCounters (s : UsageSnapshot) : Counters :=
  (s.promptTokens.toNat, s.completionTokens.toNat, s.requests.toNat, s.estimatedRequests.toNat)

def deltaCounters (d : UsageDelta) : Counters :=
  (d.promptTokens.toNat, d.completionTokens.toNat, 1, if d.estimated then 1 else 0)

/-- All counters are below `2 ^ 63`. -/
def Small (c : Counters) : Prop :=
  c.1 < 2 ^ 63 ∧ c.2.1 < 2 ^ 63 ∧ c.2.2.1 < 2 ^ 63 ∧ c.2.2.2 < 2 ^ 63

instance (c : Counters) : Decidable (Small c) := inferInstanceAs (Decidable (_ ∧ _ ∧ _ ∧ _))

/-- The snapshot fits into the signed columns of a row. -/
def Fits (s : UsageSnapshot) : Prop := Small (snapCounters s) ∧ s.lastUsedAt.toNat < 2 ^ 63

/-- No column of the row is negative. -/
def Valid (r : Row) : Prop :=
  0 ≤ r.promptTokens ∧ 0 ≤ r.completionTokens ∧ 0 ≤ r.requests ∧ 0 ≤ r.estimatedRequests ∧
    0 ≤ r.lastUsedAt

theorem toInt64_nonneg {x : UInt64} (h : x.toNat < 2 ^ 63) : 0 ≤ x.toInt64 := by
  rw [Int64.le_iff_toInt_le]
  have hx : x.toInt64.toInt = (x.toNat : ℤ) := by
    show x.toBitVec.toInt = (x.toBitVec.toNat : ℤ)
    have hlt : x.toBitVec.toNat < 2 ^ 63 := h
    exact BitVec.toInt_eq_toNat_of_lt (by omega)
  rw [hx]
  simp

theorem loadCol_of_nonneg {x : Int64} (h : 0 ≤ x) : loadCol x = x.toUInt64 := by
  unfold loadCol
  rcases eq_or_ne x 0 with rfl | hne
  · rfl
  · have : ¬ x ≤ 0 := fun hle => hne (Int64.le_antisymm hle h)
    simp [max, this]

theorem loadCol_toInt64 {x : UInt64} (h : x.toNat < 2 ^ 63) : loadCol x.toInt64 = x := by
  rw [loadCol_of_nonneg (toInt64_nonneg h), UInt64.toUInt64_toInt64]

theorem toNat_loadCol_lt {x : Int64} (h : 0 ≤ x) : (loadCol x).toNat < 2 ^ 63 := by
  rw [loadCol_of_nonneg h, Int64.toNat_toUInt64_of_le h]
  have := Int64.toInt_lt x
  unfold Int64.toNatClampNeg
  omega

theorem loadRow_toRow {s : UsageSnapshot} (h : Fits s) : loadRow (toRow s) = s := by
  obtain ⟨⟨h1, h2, h3, h4⟩, h5⟩ := h
  simp only [loadRow, toRow, loadCol_toInt64 h1, loadCol_toInt64 h2, loadCol_toInt64 h3,
    loadCol_toInt64 h4, loadCol_toInt64 h5]

theorem toRow_loadRow {r : Row} (h : Valid r) : toRow (loadRow r) = r := by
  obtain ⟨h1, h2, h3, h4, h5⟩ := h
  simp [loadRow, toRow, loadCol_of_nonneg h1, loadCol_of_nonneg h2, loadCol_of_nonneg h3,
    loadCol_of_nonneg h4, loadCol_of_nonneg h5]

theorem fits_loadRow {r : Row} (h : Valid r) : Fits (loadRow r) := by
  obtain ⟨h1, h2, h3, h4, h5⟩ := h
  exact ⟨⟨toNat_loadCol_lt h1, toNat_loadCol_lt h2, toNat_loadCol_lt h3, toNat_loadCol_lt h4⟩,
    toNat_loadCol_lt h5⟩

theorem valid_toRow {s : UsageSnapshot} (h : Fits s) : Valid (toRow s) := by
  obtain ⟨⟨h1, h2, h3, h4⟩, h5⟩ := h
  exact ⟨toInt64_nonneg h1, toInt64_nonneg h2, toInt64_nonneg h3, toInt64_nonneg h4,
    toInt64_nonneg h5⟩

theorem toNat_add_of_small {a b : UInt64} (h : a.toNat + b.toNat < 2 ^ 63) :
    (a + b).toNat = a.toNat + b.toNat := by
  rw [UInt64.toNat_add]
  exact Nat.mod_eq_of_lt (by omega)

theorem snapCounters_add {s : UsageSnapshot} {tenantId name : String} {d : UsageDelta} {now : UInt64}
    (h : Small (snapCounters s + deltaCounters d)) :
    snapCounters (s.add tenantId name d now) = snapCounters s + deltaCounters d := by
  obtain ⟨h1, h2, h3, h4⟩ := h
  simp only [snapCounters, deltaCounters, Prod.mk_add_mk] at h1 h2 h3 h4
  have hone : (1 : UInt64).toNat = 1 := rfl
  simp only [snapCounters, deltaCounters, UsageSnapshot.add, Prod.mk_add_mk, Prod.mk.injEq]
  refine ⟨toNat_add_of_small h1, toNat_add_of_small h2, ?_, ?_⟩
  · rw [toNat_add_of_small (by rw [hone]; exact h3), hone]
  · by_cases he : d.estimated
    · simp only [he, if_true] at h4 ⊢
      rw [toNat_add_of_small (by rw [hone]; exact h4), hone]
    · simp [he]

/-! ### One step -/

/-- What a step can do. -/
inductive Move (s : State) : Label → State → Prop
  | accumulate (k t n : String) (d : UsageDelta) (now : UInt64) :
      Move s (.accumulate k t n d now) { s with usage := accumulate s.usage k t n d now }
  | nothing (force : Bool) (hf : s.flush = .idle)
      (hb : s.hasDb = false ∨ takeBatch s.usage force = []) :
      Move s (.flushOnce force) { s with returned := some 0 }
  | batch (force : Bool) (hf : s.flush = .idle) (hb : takeBatch s.usage force ≠ []) :
      Move s (.flushOnce force) { s with flush := .batched (takeBatch s.usage force) }
  | transaction (b : List (String × UsageSnapshot)) (hf : s.flush = .batched b) :
      Move s (.transaction true) { s with flush := .writing b b s.db 0 }
  | execute (b todo : List (String × UsageSnapshot)) (p : String × UsageSnapshot) (tx : Db) (w : ℕ)
      (hf : s.flush = .writing b (p :: todo) tx w) :
      Move s (.execute true)
        { s with flush := .writing b todo (tx.insert p.1 (toRow p.2)) (w + 1) }
  | commit (b : List (String × UsageSnapshot)) (tx : Db) (w : ℕ) (hf : s.flush = .writing b [] tx w) :
      Move s (.commit true) { s with db := tx, flush := .committed b w }
  | fail (l : Label) (hl : l = .transaction false ∨ l = .execute false ∨ l = .commit false)
      (hf : ∀ b w, s.flush ≠ .committed b w) :
      Move s l { s with flush := .idle, returned := some 0 }
  | mark (b : List (String × UsageSnapshot)) (w : ℕ) (hf : s.flush = .committed b w) :
      Move s .mark
        { s with usage := updateAll UsageRecord.mark s.usage b, flush := .idle, returned := some w }
  | restart : Move s (.restart true) (init s.db)
  | restartBlind : Move s (.restart false) ⟨∅, false, s.db, .idle, none⟩

theorem move_of_step {s s' : State} {l : Label} (h : step s l = some s') : Move s l s' := by
  cases l with
  | accumulate k t n d now =>
    cases h
    exact .accumulate k t n d now
  | flushOnce force =>
    simp only [step] at h
    split at h
    · next hf =>
      split_ifs at h with hb
      · cases h
        refine .nothing force hf ?_
        simpa using hb
      · cases h
        simp only [Bool.or_eq_true, Bool.not_eq_true', List.isEmpty_iff, not_or] at hb
        exact .batch force hf hb.2
    · cases h
  | transaction ok =>
    simp only [step] at h
    split at h
    · next b hf =>
      cases ok with
      | true => cases h; exact .transaction b hf
      | false => cases h; exact .fail _ (Or.inl rfl) (fun b w => by rw [hf]; simp)
    · cases h
  | execute ok =>
    simp only [step] at h
    split at h
    · next b p todo tx w hf =>
      cases ok with
      | true => cases h; exact .execute b todo p tx w hf
      | false => cases h; exact .fail _ (Or.inr (Or.inl rfl)) (fun b w => by rw [hf]; simp)
    · cases h
  | commit ok =>
    simp only [step] at h
    split at h
    · next b tx w hf =>
      cases ok with
      | true => cases h; exact .commit b tx w hf
      | false => cases h; exact .fail _ (Or.inr (Or.inr rfl)) (fun b w => by rw [hf]; simp)
    · cases h
  | mark =>
    simp only [step] at h
    split at h
    · next b w hf => cases h; exact .mark b w hf
    · cases h
  | restart ok =>
    cases ok with
    | true => cases h; exact .restart
    | false => cases h; exact .restartBlind

/-- What the ledger needs of the run: totals and times that fit the columns of the table, and no
`load_usage` that fails. -/
def Admissible (s : State) : Label → Prop
  | .accumulate k _ _ d now =>
    Small (snapCounters (recordOf s.usage k).current + deltaCounters d) ∧ now.toNat < 2 ^ 63
  | .restart loadOk => loadOk = true
  | _ => True

instance : ∀ (s : State) (l : Label), Decidable (Admissible s l)
  | _, .accumulate .. => inferInstanceAs (Decidable (_ ∧ _))
  | _, .restart _ => inferInstanceAs (Decidable (_ = _))
  | _, .flushOnce _ | _, .transaction _ | _, .execute _ | _, .commit _ | _, .mark => isTrue trivial

/-! ### Memory and table -/

/-- The flushed marker of a key, if the key was ever flushed. -/
def marker (s : State) (k : String) : Option UsageSnapshot :=
  (s.usage.lookup k).bind fun r => if r.everFlushed then some r.flushed else none

/-- The batch of the flush under way. -/
def batchOf : Flush → List (String × UsageSnapshot)
  | .idle => []
  | .batched b => b
  | .writing b _ _ _ => b
  | .committed b _ => b

/-- The part of the batch that is in the table and not yet in the markers. -/
def unmarked : Flush → List (String × UsageSnapshot)
  | .committed b _ => b
  | _ => []

/-- What the open transaction sees: the table with the rows written so far. -/
def TxOk (s : State) : Prop :=
  ∀ b todo tx w, s.flush = .writing b todo tx w →
    ∃ done, b = done ++ todo ∧ tx = insertAll s.db (done.map fun p => (p.1, toRow p.2))

/-- **The invariant of the ledger.** -/
structure Inv (s : State) : Prop where
  hasDb : s.hasDb = true
  current_fits : ∀ k r, s.usage.lookup k = some r → Fits r.current
  marker_fits : ∀ k v, marker s k = some v → Fits v
  marker_le : ∀ k v, marker s k = some v →
    snapCounters v ≤ snapCounters (recordOf s.usage k).current
  batch_nodup : ((batchOf s.flush).map Prod.fst).Nodup
  batch_fits : ∀ k v, (k, v) ∈ batchOf s.flush → Fits v
  batch_le : ∀ k v, (k, v) ∈ batchOf s.flush →
    snapCounters v ≤ snapCounters (recordOf s.usage k).current
  batch_known : ∀ k v, (k, v) ∈ batchOf s.flush → (s.usage.lookup k).isSome
  tx_ok : TxOk s
  row_unmarked : ∀ k v, (k, v) ∈ unmarked s.flush → s.db.lookup k = some (toRow v)
  row_marker : ∀ k, k ∉ (unmarked s.flush).map Prod.fst → s.db.lookup k = (marker s k).map toRow

/-! ### The operations on the two maps -/

theorem lookup_loadUsage (db : Db) (k : String) :
    (loadUsage db).lookup k = (db.lookup k).map fun r => ⟨loadRow r, loadRow r, true⟩ := by
  ext v
  rw [← mem_entries_iff, Option.map_eq_some_iff]
  simp only [loadUsage, List.mem_map]
  constructor
  · rintro ⟨⟨k', r⟩, hm, he⟩
    cases he
    exact ⟨r, (mem_entries_iff db k' r).mp hm, rfl⟩
  · rintro ⟨r, hr, rfl⟩
    exact ⟨⟨k, r⟩, (mem_entries_iff db k r).mpr hr, rfl⟩

theorem recordOf_of_lookup {usage : HashMap String UsageRecord} {k : String} {r : UsageRecord}
    (h : usage.lookup k = some r) : recordOf usage k = r := by
  simp [recordOf, h]

theorem marker_eq_some {s : State} {k : String} {v : UsageSnapshot} :
    marker s k = some v ↔ ∃ r, s.usage.lookup k = some r ∧ r.everFlushed = true ∧ r.flushed = v := by
  simp [marker, Option.bind_eq_some_iff]

theorem recordOf_accumulate (usage : HashMap String UsageRecord) (k k' t n : String) (d : UsageDelta)
    (now : UInt64) : recordOf (accumulate usage k t n d now) k' =
      if k' = k then { recordOf usage k with current := (recordOf usage k).current.add t n d now }
      else recordOf usage k' := by
  unfold accumulate
  rw [recordOf, lookup_insert]
  split_ifs with hk
  · rfl
  · rfl

theorem marker_accumulate (s : State) (k k' t n : String) (d : UsageDelta) (now : UInt64) :
    marker { s with usage := accumulate s.usage k t n d now } k' = marker s k' := by
  unfold marker accumulate
  simp only [lookup_insert]
  split_ifs with hk
  · subst hk
    cases hl : s.usage.lookup k' with
    | none => simp [recordOf, hl, UsageRecord.default]
    | some r => simp [recordOf, hl]
  · rfl

theorem isSome_lookup_accumulate {usage : HashMap String UsageRecord} {k k' t n : String}
    {d : UsageDelta} {now : UInt64} (h : (usage.lookup k').isSome) :
    ((accumulate usage k t n d now).lookup k').isSome := by
  unfold accumulate
  rw [lookup_insert]
  split_ifs
  · rfl
  · exact h

theorem counters_le_accumulate {usage : HashMap String UsageRecord} {k t n : String} {d : UsageDelta}
    {now : UInt64} (h : Small (snapCounters (recordOf usage k).current + deltaCounters d))
    (k' : String) : snapCounters (recordOf usage k').current ≤
      snapCounters (recordOf (accumulate usage k t n d now) k').current := by
  rw [recordOf_accumulate]
  split_ifs with hk
  · subst hk
    rw [snapCounters_add h]
    exact le_self_add
  · exact le_rfl

theorem mem_takeBatch {usage : HashMap String UsageRecord} {force : Bool} {k : String}
    {v : UsageSnapshot} : (k, v) ∈ takeBatch usage force ↔
      ∃ r, usage.lookup k = some r ∧ (force = true ∨ r.pending = true) ∧ r.current = v := by
  simp only [takeBatch, List.mem_map, List.mem_filter, Bool.or_eq_true, Prod.mk.injEq]
  constructor
  · rintro ⟨⟨k', r⟩, ⟨hm, hp⟩, rfl, rfl⟩
    exact ⟨r, (mem_entries_iff _ _ _).mp hm, hp, rfl⟩
  · rintro ⟨r, hr, hp, rfl⟩
    exact ⟨⟨k, r⟩, ⟨(mem_entries_iff _ _ _).mpr hr, hp⟩, rfl, rfl⟩

theorem nodup_takeBatch (usage : HashMap String UsageRecord) (force : Bool) :
    ((takeBatch usage force).map Prod.fst).Nodup :=
  nodup_keys_batch (fun p : String × UsageRecord => force || p.2.pending) UsageRecord.current usage.entries
    usage.nodupKeys

section marks

variable (usage : HashMap String UsageRecord) {b : List (String × UsageSnapshot)}

theorem lookup_mark (hb : (b.map Prod.fst).Nodup) (k : String) :
    (updateAll UsageRecord.mark usage b).lookup k = usage.lookup k ∧ k ∉ b.map Prod.fst ∨
      ∃ v, (k, v) ∈ b ∧
        (updateAll UsageRecord.mark usage b).lookup k = (usage.lookup k).map (UsageRecord.mark v) := by
  by_cases hk : k ∈ b.map Prod.fst
  · right
    obtain ⟨⟨k', v⟩, hm, rfl⟩ := List.mem_map.mp hk
    exact ⟨v, hm, lookup_updateAll_of_mem _ b usage hb hm⟩
  · exact Or.inl ⟨lookup_updateAll_of_notMem _ b usage hk, hk⟩

/-- The marker update leaves the totals alone. -/
theorem current_mark (hb : (b.map Prod.fst).Nodup) (k : String) :
    ((updateAll UsageRecord.mark usage b).lookup k).map UsageRecord.current =
      (usage.lookup k).map UsageRecord.current := by
  rcases lookup_mark usage hb k with ⟨h, -⟩ | ⟨v, -, h⟩
  · rw [h]
  · rw [h, Option.map_map]
    rfl

theorem recordOf_mark_current (hb : (b.map Prod.fst).Nodup) (k : String) :
    (recordOf (updateAll UsageRecord.mark usage b) k).current = (recordOf usage k).current := by
  have h := current_mark usage hb k
  unfold recordOf
  cases h1 : usage.lookup k <;> cases h2 : (updateAll UsageRecord.mark usage b).lookup k <;>
    simp_all

end marks

theorem marker_mark {s : State} {b : List (String × UsageSnapshot)} {f : Flush} {r : Option ℕ}
    (hb : (b.map Prod.fst).Nodup) (hk : ∀ k v, (k, v) ∈ b → (s.usage.lookup k).isSome) (k : String) :
    (marker { s with usage := updateAll UsageRecord.mark s.usage b, flush := f, returned := r } k =
        marker s k ∧ k ∉ b.map Prod.fst) ∨
      ∃ v, (k, v) ∈ b ∧
        marker { s with usage := updateAll UsageRecord.mark s.usage b, flush := f, returned := r } k =
          some v := by
  rcases lookup_mark s.usage hb k with ⟨h, hn⟩ | ⟨v, hm, h⟩
  · left
    refine ⟨?_, hn⟩
    unfold marker
    simp only [h]
  · right
    refine ⟨v, hm, ?_⟩
    obtain ⟨r, hr⟩ := Option.isSome_iff_exists.mp (hk k v hm)
    unfold marker
    simp [h, hr, UsageRecord.mark]

/-! ### The invariant holds -/

theorem marker_init (db : Db) (k : String) : marker (init db) k = (db.lookup k).map loadRow := by
  unfold marker init
  simp only [lookup_loadUsage]
  cases db.lookup k <;> simp

theorem inv_init {db : Db} (hdb : ∀ k r, db.lookup k = some r → Valid r) : Inv (init db) where
  hasDb := rfl
  current_fits k r h := by
    simp only [init, lookup_loadUsage, Option.map_eq_some_iff] at h
    obtain ⟨row, hrow, rfl⟩ := h
    exact fits_loadRow (hdb k row hrow)
  marker_fits k v h := by
    rw [marker_init, Option.map_eq_some_iff] at h
    obtain ⟨row, hrow, rfl⟩ := h
    exact fits_loadRow (hdb k row hrow)
  marker_le k v h := by
    rw [marker_init, Option.map_eq_some_iff] at h
    obtain ⟨row, hrow, rfl⟩ := h
    rw [recordOf_of_lookup (r := ⟨loadRow row, loadRow row, true⟩)
      (by simp [init, lookup_loadUsage, hrow])]
  batch_nodup := List.nodup_nil
  batch_fits k v h := by simp [init, batchOf] at h
  batch_le k v h := by simp [init, batchOf] at h
  batch_known k v h := by simp [init, batchOf] at h
  tx_ok b todo tx w h := by simp [init] at h
  row_unmarked k v h := by simp [init, unmarked] at h
  row_marker k h := by
    rw [marker_init, Option.map_map]
    cases hrow : db.lookup k with
    | none => simp [init, hrow]
    | some row => simp [init, hrow, toRow_loadRow (hdb k row hrow)]

theorem Inv.row_valid {s : State} (h : Inv s) {k : String} {row : Row}
    (hr : s.db.lookup k = some row) : Valid row := by
  by_cases hk : k ∈ (unmarked s.flush).map Prod.fst
  · obtain ⟨⟨k', v⟩, hm, rfl⟩ := List.mem_map.mp hk
    rw [h.row_unmarked k' v hm] at hr
    cases hr
    refine valid_toRow (h.batch_fits k' v ?_)
    unfold unmarked at hm
    unfold batchOf
    split at hm
    · next hf => rw [hf]; exact hm
    · cases hm
  · rw [h.row_marker k hk, Option.map_eq_some_iff] at hr
    obtain ⟨v, hv, rfl⟩ := hr
    exact valid_toRow (h.marker_fits k v hv)

theorem Inv.flush {s : State} (h : Inv s) {f : Flush} (ret : Option ℕ)
    (hu : unmarked f = unmarked s.flush)
    (hb : batchOf f = [] ∨ batchOf f = batchOf s.flush ∨
      ∃ force, batchOf f = takeBatch s.usage force)
    (htx : TxOk { s with flush := f, returned := ret }) :
    Inv { s with flush := f, returned := ret } where
  hasDb := h.hasDb
  current_fits := h.current_fits
  marker_fits := h.marker_fits
  marker_le := h.marker_le
  batch_nodup := by
    show ((batchOf f).map Prod.fst).Nodup
    rcases hb with hb | hb | ⟨force, hb⟩
    · rw [hb]; exact List.nodup_nil
    · rw [hb]; exact h.batch_nodup
    · rw [hb]; exact nodup_takeBatch _ _
  batch_fits k v hm := by
    change (k, v) ∈ batchOf f at hm
    rcases hb with hb | hb | ⟨force, hb⟩
    · rw [hb] at hm; cases hm
    · rw [hb] at hm; exact h.batch_fits k v hm
    · rw [hb] at hm
      obtain ⟨r, hr, -, rfl⟩ := mem_takeBatch.mp hm
      exact h.current_fits k r hr
  batch_le k v hm := by
    change (k, v) ∈ batchOf f at hm
    rcases hb with hb | hb | ⟨force, hb⟩
    · rw [hb] at hm; cases hm
    · rw [hb] at hm; exact h.batch_le k v hm
    · rw [hb] at hm
      obtain ⟨r, hr, -, rfl⟩ := mem_takeBatch.mp hm
      show snapCounters r.current ≤ snapCounters (recordOf s.usage k).current
      rw [recordOf_of_lookup hr]
  batch_known k v hm := by
    change (k, v) ∈ batchOf f at hm
    rcases hb with hb | hb | ⟨force, hb⟩
    · rw [hb] at hm; cases hm
    · rw [hb] at hm; exact h.batch_known k v hm
    · rw [hb] at hm
      obtain ⟨r, hr, -, -⟩ := mem_takeBatch.mp hm
      show (s.usage.lookup k).isSome
      rw [hr]; rfl
  tx_ok := htx
  row_unmarked k v hm := h.row_unmarked k v (by rw [← hu]; exact hm)
  row_marker k hk := h.row_marker k (by rw [← hu]; exact hk)

theorem Inv.accumulate {s : State} (h : Inv s) {k t n : String} {d : UsageDelta} {now : UInt64}
    (hC : Admissible s (.accumulate k t n d now)) :
    Inv { s with usage := accumulate s.usage k t n d now } where
  hasDb := h.hasDb
  current_fits k' r hr := by
    have hrec := recordOf_of_lookup hr
    simp only [recordOf_accumulate] at hrec
    split_ifs at hrec with hk
    · subst hrec
      refine ⟨?_, hC.2⟩
      rw [snapCounters_add hC.1]
      exact hC.1
    · refine h.current_fits k' r ?_
      simpa [Usage.accumulate, lookup_insert, hk] using hr
  marker_fits k' v hv := by
    rw [marker_accumulate] at hv
    exact h.marker_fits k' v hv
  marker_le k' v hv := by
    rw [marker_accumulate] at hv
    exact le_trans (h.marker_le k' v hv) (counters_le_accumulate hC.1 k')
  batch_nodup := h.batch_nodup
  batch_fits := h.batch_fits
  batch_le k' v hm := le_trans (h.batch_le k' v hm) (counters_le_accumulate hC.1 k')
  batch_known k' v hm := isSome_lookup_accumulate (h.batch_known k' v hm)
  tx_ok := h.tx_ok
  row_unmarked := h.row_unmarked
  row_marker k' hk := by
    rw [marker_accumulate]
    exact h.row_marker k' hk

theorem Inv.mark {s : State} (h : Inv s) {b : List (String × UsageSnapshot)} {w : ℕ}
    (hf : s.flush = .committed b w) :
    Inv { s with usage := updateAll UsageRecord.mark s.usage b, flush := .idle, returned := some w } := by
  have hnd : (b.map Prod.fst).Nodup := by simpa [hf, batchOf] using h.batch_nodup
  have hmem : ∀ k v, (k, v) ∈ b → (k, v) ∈ batchOf s.flush := fun k v hm => by
    rw [hf]; exact hm
  have hmark := marker_mark (s := s) (f := .idle) (r := some w) hnd
    (fun k v hm => h.batch_known k v (hmem k v hm))
  refine ⟨h.hasDb, fun k r hr => ?_, fun k v hv => ?_, fun k v hv => ?_, List.nodup_nil, by simp [batchOf],
    by simp [batchOf], by simp [batchOf], by simp [TxOk], by simp [unmarked], fun k _ => ?_⟩
  · have hc := current_mark s.usage hnd k
    simp only [hr, Option.map_some] at hc
    obtain ⟨r', hr', he⟩ := Option.map_eq_some_iff.mp hc.symm
    rw [← he]
    exact h.current_fits k r' hr'
  · rcases hmark k with ⟨he, -⟩ | ⟨v', hm, he⟩
    · exact h.marker_fits k v (he ▸ hv)
    · rw [he] at hv
      cases hv
      exact h.batch_fits k v (hmem k v hm)
  · rw [recordOf_mark_current _ hnd]
    rcases hmark k with ⟨he, -⟩ | ⟨v', hm, he⟩
    · exact h.marker_le k v (he ▸ hv)
    · rw [he] at hv
      cases hv
      exact h.batch_le k v (hmem k v hm)
  · rcases hmark k with ⟨he, hn⟩ | ⟨v', hm, he⟩
    · rw [he]
      exact h.row_marker k (by simpa [hf, unmarked] using hn)
    · rw [he]
      exact h.row_unmarked k v' (by rw [hf]; exact hm)

theorem Inv.commit {s : State} (h : Inv s) {b : List (String × UsageSnapshot)} {tx : Db} {w : ℕ}
    (hf : s.flush = .writing b [] tx w) : Inv { s with db := tx, flush := .committed b w } := by
  obtain ⟨done, hdone, htx⟩ := h.tx_ok b [] tx w hf
  rw [List.append_nil] at hdone
  subst hdone
  have hmem : ∀ k v, (k, v) ∈ b → (k, v) ∈ batchOf s.flush := fun k v hm => by rw [hf]; exact hm
  have hkeys : (b.map fun p => (p.1, toRow p.2)).map Prod.fst = b.map Prod.fst := by
    rw [List.map_map]; rfl
  have hnd : (b.map Prod.fst).Nodup := by simpa [hf, batchOf] using h.batch_nodup
  refine ⟨h.hasDb, h.current_fits, h.marker_fits, h.marker_le, hnd,
    fun k v hm => h.batch_fits k v (hmem k v hm), fun k v hm => h.batch_le k v (hmem k v hm),
    fun k v hm => h.batch_known k v (hmem k v hm), by simp [TxOk], fun k v hm => ?_, fun k hk => ?_⟩
  · show tx.lookup k = some (toRow v)
    rw [htx]
    exact lookup_insertAll_of_mem _ s.db (by rw [hkeys]; exact hnd)
      (List.mem_map.mpr ⟨(k, v), hm, rfl⟩)
  · show tx.lookup k = (marker s k).map toRow
    rw [htx, lookup_insertAll_of_notMem _ s.db (by rw [hkeys]; exact hk)]
    exact h.row_marker k (by simp [hf, unmarked])

/-- **Every step keeps the invariant.** -/
theorem inv_step {s s' : State} {l : Label} (h : Inv s) (hC : Admissible s l)
    (hs : step s l = some s') : Inv s' := by
  cases move_of_step hs with
  | accumulate k t n d now => exact h.accumulate hC
  | nothing force hf hb => exact h.flush _ rfl (Or.inr (Or.inl rfl)) h.tx_ok
  | batch force hf hb =>
    exact h.flush s.returned (by rw [hf]; rfl) (Or.inr (Or.inr ⟨force, rfl⟩))
      (by simp [TxOk])
  | transaction b hf =>
    refine h.flush s.returned (by rw [hf]; rfl) (Or.inr (Or.inl (by rw [hf]; rfl))) ?_
    intro b' todo tx w he
    cases he
    exact ⟨[], rfl, rfl⟩
  | execute b todo p tx w hf =>
    refine h.flush s.returned (by rw [hf]; rfl) (Or.inr (Or.inl (by rw [hf]; rfl))) ?_
    obtain ⟨done, hdone, htx⟩ := h.tx_ok b (p :: todo) tx w hf
    intro b' todo' tx' w' he
    cases he
    refine ⟨done ++ [p], by simpa using hdone, ?_⟩
    rw [List.map_append, List.map_singleton, insertAll_concat, ← htx]
  | commit b tx w hf => exact h.commit hf
  | fail _ hl hf =>
    refine h.flush _ ?_ (Or.inl rfl) (by simp [TxOk])
    cases hfl : s.flush with
    | committed b w => exact absurd hfl (hf b w)
    | _ => rfl
  | mark b w hf => exact h.mark hf
  | restart => exact inv_init fun k row hr => h.row_valid hr
  | restartBlind => cases hC

/-! ### What memory counts -/

/-- The totals of a key in memory. -/
def total (s : State) (k : String) : Counters := snapCounters (recordOf s.usage k).current

/-- The totals of a key in the table. -/
def rowTotal (db : Db) (k : String) : Counters :=
  ((db.lookup k).map fun r => snapCounters (loadRow r)).getD 0

/-- What a run adds to a key: the deltas of its `accumulate` calls, in order. -/
def added (k : String) (ls : List Label) : List UsageDelta :=
  ls.filterMap fun
    | .accumulate k' _ _ d _ => if k' = k then some d else none
    | _ => none

theorem added_append (k : String) (ls ls' : List Label) :
    added k (ls ++ ls') = added k ls ++ added k ls' := List.filterMap_append

/-- A step that starts the process again. -/
def isRestart : Label → Bool
  | .restart _ => true
  | _ => false

theorem total_init (db : Db) (k : String) : total (init db) k = rowTotal db k := by
  unfold total rowTotal recordOf init
  simp only [lookup_loadUsage]
  cases db.lookup k <;> rfl

theorem sum_added_accumulate (k k' t n : String) (d : UsageDelta) (now : UInt64) :
    ((added k' [.accumulate k t n d now]).map deltaCounters).sum =
      if k = k' then deltaCounters d else 0 := by
  split_ifs with hk
  · simp [added, hk]
  · simp [added, hk]

theorem total_step {s s' : State} {l : Label} (h : Inv s) (hC : Admissible s l)
    (hl : isRestart l = false) (hs : step s l = some s') (k : String) :
    total s' k = total s k + ((added k [l]).map deltaCounters).sum := by
  cases move_of_step hs with
  | accumulate k' t n d now =>
    rw [sum_added_accumulate]
    unfold total
    simp only [recordOf_accumulate]
    by_cases hk : k = k'
    · subst hk
      rw [if_pos rfl, if_pos rfl, snapCounters_add hC.1]
    · rw [if_neg hk, if_neg (Ne.symm hk), add_zero]
  | mark b w hf =>
    have hnd : (b.map Prod.fst).Nodup := by simpa [hf, batchOf] using h.batch_nodup
    unfold total
    simp only [recordOf_mark_current _ hnd]
    exact (add_zero _).symm
  | fail _ hl' _ =>
    rcases hl' with rfl | rfl | rfl <;> exact (add_zero _).symm
  | restart => cases hl
  | restartBlind => cases hl
  | _ => exact (add_zero _).symm

/-- Within one life of the process the totals grow by exactly what is added. -/
theorem total_run (k : String) : ∀ (ls : List Label) (s s' : State), Inv s →
    AllSteps step Admissible s ls → (∀ l ∈ ls, isRestart l = false) → run step s ls = some s' →
    total s' k = total s k + ((added k ls).map deltaCounters).sum
  | [], s, s', _, _, _, h => by
    cases h
    exact (add_zero _).symm
  | l :: ls, s, s', hI, hC, hl, h => by
    obtain ⟨s1, h1, h2⟩ := run_cons_eq_some.mp h
    have hstep := total_step hI hC.1 (hl l (by simp)) h1 k
    have hrun := total_run k ls s1 s' (inv_step hI hC.1 h1) (hC.2 s1 h1)
      (fun l' hl' => hl l' (by simp [hl'])) h2
    have hsplit : added k (l :: ls) = added k [l] ++ added k ls := added_append k [l] ls
    rw [hrun, hstep, hsplit, List.map_append, List.sum_append, add_assoc]

/-! ### What the table holds -/

section history

variable {db0 : Db}

/-- After the run `ls` from `db0`, `v` is a value that memory had under `k` at some moment. -/
def Past (db0 : Db) (ls : List Label) (k : String) (v : UsageSnapshot) : Prop :=
  ∃ ls1 s1 r1, ls1 <+: ls ∧ run step (init db0) ls1 = some s1 ∧ s1.usage.lookup k = some r1 ∧
    r1.current = v

/-- `c` is what the table held at the start and some of the deltas of the run, each at most once. -/
def Counted (db0 : Db) (ls : List Label) (k : String) (c : Counters) : Prop :=
  ∃ ds : List UsageDelta, ds.Sublist (added k ls) ∧ c = rowTotal db0 k + (ds.map deltaCounters).sum

theorem Past.mono {ls : List Label} {k : String} {v : UsageSnapshot} (h : Past db0 ls k v)
    (ls' : List Label) : Past db0 (ls ++ ls') k v := by
  obtain ⟨ls1, s1, r1, hp, hr, hl, hc⟩ := h
  exact ⟨ls1, s1, r1, hp.trans (List.prefix_append ls ls'), hr, hl, hc⟩

theorem Counted.mono {ls : List Label} {k : String} {c : Counters} (h : Counted db0 ls k c)
    (ls' : List Label) : Counted db0 (ls ++ ls') k c := by
  obtain ⟨ds, hd, hc⟩ := h
  refine ⟨ds, ?_, hc⟩
  rw [added_append]
  exact hd.trans (List.sublist_append_left _ _)

/-- Where the values of a state come from. -/
structure History (db0 : Db) (ls : List Label) (s : State) : Prop where
  inv : Inv s
  marker_past : ∀ k v, marker s k = some v → Past db0 ls k v ∧ Counted db0 ls k (snapCounters v)
  batch_past : ∀ k v, (k, v) ∈ batchOf s.flush →
    Past db0 ls k v ∧ Counted db0 ls k (snapCounters v)
  rows_stay : ∀ k, (db0.lookup k).isSome → (s.db.lookup k).isSome
  counted : ∀ k, Counted db0 ls k (total s k)

theorem unmarked_subset (f : Flush) : unmarked f ⊆ batchOf f := by
  cases f <;> simp [unmarked, batchOf]

/-- A row is a marker or a row of the batch under way. -/
theorem Inv.row_source {s : State} (h : Inv s) {k : String} {row : Row}
    (hr : s.db.lookup k = some row) :
    ∃ v, row = toRow v ∧ Fits v ∧ (marker s k = some v ∨ (k, v) ∈ batchOf s.flush) := by
  by_cases hk : k ∈ (unmarked s.flush).map Prod.fst
  · obtain ⟨⟨k', v⟩, hm, rfl⟩ := List.mem_map.mp hk
    have hb := unmarked_subset _ hm
    rw [h.row_unmarked k' v hm] at hr
    cases hr
    exact ⟨v, rfl, h.batch_fits k' v hb, Or.inr hb⟩
  · rw [h.row_marker k hk, Option.map_eq_some_iff] at hr
    obtain ⟨v, hv, rfl⟩ := hr
    exact ⟨v, rfl, h.marker_fits k v hv, Or.inl hv⟩

/-- A row never exceeds memory. -/
theorem Inv.row_le {s : State} (h : Inv s) {k : String} {row : Row} (hr : s.db.lookup k = some row) :
    ∃ r, s.usage.lookup k = some r ∧ snapCounters (loadRow row) ≤ snapCounters r.current := by
  obtain ⟨v, rfl, hfit, hm | hm⟩ := h.row_source hr
  · obtain ⟨r, hl, -, rfl⟩ := marker_eq_some.mp hm
    refine ⟨r, hl, ?_⟩
    have hle := h.marker_le k r.flushed hm
    rw [recordOf_of_lookup hl] at hle
    rwa [loadRow_toRow hfit]
  · obtain ⟨r, hl⟩ := Option.isSome_iff_exists.mp (h.batch_known k v hm)
    refine ⟨r, hl, ?_⟩
    have hle := h.batch_le k v hm
    rw [recordOf_of_lookup hl] at hle
    rwa [loadRow_toRow hfit]

theorem History.row_past {ls : List Label} {s : State} (h : History db0 ls s) {k : String} {row : Row}
    (hr : s.db.lookup k = some row) :
    ∃ v, row = toRow v ∧ Fits v ∧ Past db0 ls k v ∧ Counted db0 ls k (snapCounters v) := by
  obtain ⟨v, hrow, hfit, hm | hm⟩ := h.inv.row_source hr
  · exact ⟨v, hrow, hfit, h.marker_past k v hm⟩
  · exact ⟨v, hrow, hfit, h.batch_past k v hm⟩

theorem history_init (hdb : ∀ k r, db0.lookup k = some r → Valid r) : History db0 [] (init db0) where
  inv := inv_init hdb
  marker_past k v h := by
    rw [marker_init, Option.map_eq_some_iff] at h
    obtain ⟨row, hrow, rfl⟩ := h
    refine ⟨⟨[], init db0, ⟨loadRow row, loadRow row, true⟩, List.prefix_rfl, rfl, ?_, rfl⟩, [], ?_, ?_⟩
    · simp [init, lookup_loadUsage, hrow]
    · exact List.nil_sublist _
    · simp [rowTotal, hrow]
  batch_past k v h := by simp [init, batchOf] at h
  rows_stay k h := h
  counted k := ⟨[], List.nil_sublist _, by rw [total_init]; simp⟩

theorem History.rows_stay_step {ls : List Label} {s s' : State} {l : Label} (h : History db0 ls s)
    (hs : step s l = some s') (k : String) (hk : (db0.lookup k).isSome) : (s'.db.lookup k).isSome := by
  cases move_of_step hs with
  | commit b tx w hf =>
    obtain ⟨done, -, htx⟩ := h.inv.tx_ok b [] tx w hf
    show (tx.lookup k).isSome
    rw [htx]
    exact isSome_lookup_insertAll _ _ (h.rows_stay k hk)
  | _ => exact h.rows_stay k hk

/-- After a restart memory counts what the table holds. -/
theorem History.counted_restart {ls : List Label} {s : State} (h : History db0 ls s) (k : String) :
    Counted db0 ls k (total (init s.db) k) := by
  rw [total_init]
  cases hr : s.db.lookup k with
  | none =>
    have h0 : db0.lookup k = none := by
      cases h0 : db0.lookup k with
      | none => rfl
      | some r =>
        have := h.rows_stay k (by rw [h0]; rfl)
        rw [hr] at this
        cases this
    exact ⟨[], List.nil_sublist _, by simp [rowTotal, hr, h0]⟩
  | some row =>
    obtain ⟨v, rfl, hfit, -, hc⟩ := h.row_past hr
    simpa [rowTotal, hr, loadRow_toRow hfit] using hc

theorem History.counted_step {ls : List Label} {s s' : State} {l : Label} (h : History db0 ls s)
    (hC : Admissible s l) (hs : step s l = some s') (k : String) :
    Counted db0 (ls ++ [l]) k (total s' k) := by
  cases hl : isRestart l with
  | false =>
    obtain ⟨ds, hd, hc⟩ := h.counted k
    refine ⟨ds ++ added k [l], ?_, ?_⟩
    · rw [added_append]
      exact hd.append (List.Sublist.refl _)
    · rw [total_step h.inv hC hl hs, hc, List.map_append, List.sum_append, add_assoc]
  | true =>
    cases move_of_step hs with
    | restart => exact (h.counted_restart k).mono _
    | restartBlind => cases hC
    | fail _ hl' _ => rcases hl' with rfl | rfl | rfl <;> cases hl
    | _ => cases hl

/-- **Every step keeps the history.** -/
theorem history_step {ls : List Label} {s s' : State} {l : Label}
    (hrun : run step (init db0) ls = some s) (h : History db0 ls s) (hC : Admissible s l)
    (hs : step s l = some s') : History db0 (ls ++ [l]) s' := by
  have hrun' : run step (init db0) (ls ++ [l]) = some s' := run_concat_eq_some.mpr ⟨s, hrun, hs⟩
  have hmarker : ∀ k v, marker s k = some v →
      Past db0 (ls ++ [l]) k v ∧ Counted db0 (ls ++ [l]) k (snapCounters v) := fun k v hv =>
    ⟨(h.marker_past k v hv).1.mono [l], (h.marker_past k v hv).2.mono [l]⟩
  have hbatch : ∀ k v, (k, v) ∈ batchOf s.flush →
      Past db0 (ls ++ [l]) k v ∧ Counted db0 (ls ++ [l]) k (snapCounters v) := fun k v hv =>
    ⟨(h.batch_past k v hv).1.mono [l], (h.batch_past k v hv).2.mono [l]⟩
  -- what memory holds now is a past value of the longer run
  have hnow : ∀ k r, s'.usage.lookup k = some r →
      Past db0 (ls ++ [l]) k r.current ∧ Counted db0 (ls ++ [l]) k (snapCounters r.current) := by
    intro k r hr
    refine ⟨⟨ls ++ [l], s', r, List.prefix_rfl, hrun', hr, rfl⟩, ?_⟩
    have hc := h.counted_step hC hs k
    rwa [total, recordOf_of_lookup hr] at hc
  refine ⟨inv_step h.inv hC hs, ?_, ?_, h.rows_stay_step hs, h.counted_step hC hs⟩
  · intro k v hv
    cases move_of_step hs with
    | accumulate k' t n d now =>
      rw [marker_accumulate] at hv
      exact hmarker k v hv
    | mark b w hf =>
      rcases marker_mark (s := s) (f := .idle) (r := some w)
        (by simpa [hf, batchOf] using h.inv.batch_nodup)
        (fun k v hm => h.inv.batch_known k v (by rw [hf]; exact hm)) k with ⟨he, -⟩ | ⟨v', hm, he⟩
      · exact hmarker k v (he ▸ hv)
      · rw [he] at hv
        cases hv
        exact hbatch k v (by rw [hf]; exact hm)
    | restart =>
      obtain ⟨r, hr, -, rfl⟩ := marker_eq_some.mp hv
      have hcur : r.current = r.flushed := by
        simp only [init, lookup_loadUsage, Option.map_eq_some_iff] at hr
        obtain ⟨row, -, rfl⟩ := hr
        rfl
      rw [← hcur]
      exact hnow k r hr
    | restartBlind => cases hC
    | _ => exact hmarker k v hv
  · intro k v hv
    cases move_of_step hs with
    | batch force hf hb =>
      obtain ⟨r, hr, -, rfl⟩ := mem_takeBatch.mp hv
      exact hnow k r hr
    | transaction b hf => exact hbatch k v (by rw [hf]; exact hv)
    | execute b todo p tx w hf => exact hbatch k v (by rw [hf]; exact hv)
    | commit b tx w hf => exact hbatch k v (by rw [hf]; exact hv)
    | accumulate | nothing => exact hbatch k v hv
    | fail | mark | restart | restartBlind => cases hv

/-- **Every run keeps the history.** -/
theorem history_run (hdb : ∀ k r, db0.lookup k = some r → Valid r) {ls : List Label} {s : State}
    (hC : AllSteps step Admissible (init db0) ls) (h : run step (init db0) ls = some s) :
    History db0 ls s :=
  run_history (H := History db0) (C := Admissible) (history_init hdb)
    (fun _ _ _ _ hrun hh hc hs => history_step hrun hh hc hs) ls s hC h

end history

/-! ### One flush -/

/-- A step of a flush in which no database operation fails. -/
def isCleanFlush : Label → Bool
  | .transaction ok => ok
  | .execute ok => ok
  | .commit ok => ok
  | .mark => true
  | _ => false

/-- Every record is marked with what it holds. -/
def AllFlushed (s : State) : Prop :=
  ∀ k r, s.usage.lookup k = some r → r.everFlushed = true ∧ r.flushed = r.current

/-- A forced flush that nothing disturbs: its batch is all of memory, and when it is done every record
is marked. -/
structure Forced (s : State) : Prop where
  inv : Inv s
  idle : s.flush = .idle → AllFlushed s
  busy : s.flush ≠ .idle → batchOf s.flush = takeBatch s.usage true

theorem forced_begin {s s' : State} (h : Inv s) (hs : step s (.flushOnce true) = some s') :
    Forced s' := by
  have hinv := inv_step (l := .flushOnce true) h trivial hs
  cases move_of_step hs with
  | nothing force hf hb =>
    refine ⟨hinv, fun _ k r hr => ?_, fun hne => absurd hf hne⟩
    rcases hb with hb | hb
    · rw [h.hasDb] at hb
      cases hb
    · have hm : (k, r.current) ∈ takeBatch s.usage true :=
        mem_takeBatch.mpr ⟨r, hr, Or.inl rfl, rfl⟩
      rw [hb] at hm
      cases hm
  | batch force hf hb => exact ⟨hinv, (by simp), fun _ => rfl⟩
  | fail _ hl _ => rcases hl with hl | hl | hl <;> cases hl

theorem forced_step {s s' : State} {l : Label} (h : Forced s) (hl : isCleanFlush l = true)
    (hs : step s l = some s') : Forced s' := by
  have hC : Admissible s l := by
    cases l with
    | accumulate => cases hl
    | restart => cases hl
    | _ => trivial
  have hinv := inv_step h.inv hC hs
  have hbusy := h.busy
  cases move_of_step hs with
  | transaction b hf =>
    rw [hf] at hbusy
    exact ⟨hinv, (by simp), fun _ => hbusy (by simp)⟩
  | execute b todo p tx w hf =>
    rw [hf] at hbusy
    exact ⟨hinv, (by simp), fun _ => hbusy (by simp)⟩
  | commit b tx w hf =>
    rw [hf] at hbusy
    exact ⟨hinv, (by simp), fun _ => hbusy (by simp)⟩
  | mark b w hf =>
    rw [hf] at hbusy
    have hb : b = takeBatch s.usage true := hbusy (by simp)
    have hnd : (b.map Prod.fst).Nodup := by rw [hb]; exact nodup_takeBatch _ _
    refine ⟨hinv, fun _ k r hr => ?_, fun he => absurd rfl he⟩
    simp only at hr
    rcases lookup_mark s.usage hnd k with ⟨he, hn⟩ | ⟨v, hm, he⟩
    · rw [he] at hr
      refine absurd (List.mem_map.mpr ⟨(k, r.current), ?_, rfl⟩) hn
      rw [hb]
      exact mem_takeBatch.mpr ⟨r, hr, Or.inl rfl, rfl⟩
    · rw [he, Option.map_eq_some_iff] at hr
      obtain ⟨r0, hr0, rfl⟩ := hr
      rw [hb] at hm
      obtain ⟨r1, hr1, -, rfl⟩ := mem_takeBatch.mp hm
      rw [hr0] at hr1
      cases hr1
      exact ⟨rfl, rfl⟩
  | fail _ hl' _ => rcases hl' with rfl | rfl | rfl <;> cases hl
  | accumulate | nothing | batch | restart | restartBlind => cases hl

theorem db_of_allFlushed {s : State} (h : Inv s) (hf : s.flush = .idle) (ha : AllFlushed s)
    (k : String) : s.db.lookup k = (s.usage.lookup k).map fun r => toRow r.current := by
  rw [h.row_marker k (by rw [hf]; simp [unmarked])]
  unfold marker
  cases hr : s.usage.lookup k with
  | none => rfl
  | some r =>
    obtain ⟨h1, h2⟩ := ha k r hr
    simp [h1, h2]

theorem hasPending_of_allFlushed {s : State} (ha : AllFlushed s) : hasPending s = false := by
  have hany : (values s.usage).any UsageRecord.pending = false := by
    rw [List.any_eq_false]
    intro r hr
    obtain ⟨k, hk⟩ := (mem_values s.usage r).mp hr
    obtain ⟨h1, h2⟩ := ha k r hk
    simp [UsageRecord.pending, h1, h2]
  simp [hasPending, hany]

/-- No flush is between its commit and its marker update. -/
def Settled (s : State) : Prop := ∀ b w, s.flush ≠ .committed b w

theorem unmarked_of_settled {s : State} (h : Settled s) : unmarked s.flush = [] := by
  cases hf : s.flush with
  | committed b w => exact absurd hf (h b w)
  | _ => rfl

/-- Table and markers change only by a commit with the marker update after it, and by a restart. -/
theorem table_step {s s' : State} {l : Label} (h : Settled s) (hl : l ≠ .commit true)
    (hr : isRestart l = false) (hs : step s l = some s') :
    Settled s' ∧ s'.db = s.db ∧ ∀ k, marker s' k = marker s k := by
  cases move_of_step hs with
  | accumulate k t n d now => exact ⟨h, rfl, fun k' => marker_accumulate s k k' t n d now⟩
  | nothing force => exact ⟨h, rfl, fun k => rfl⟩
  | commit => exact absurd rfl hl
  | mark b w he => exact absurd he (h b w)
  | restart => cases hr
  | restartBlind => cases hr
  | _ => exact ⟨by simp [Settled], rfl, fun k => rfl⟩

theorem table_run : ∀ (ls : List Label) (s s' : State), Settled s →
    (∀ l ∈ ls, l ≠ .commit true ∧ isRestart l = false) → run step s ls = some s' →
    s'.db = s.db ∧ ∀ k, marker s' k = marker s k
  | [], s, s', _, _, h => by
    cases h
    exact ⟨rfl, fun k => rfl⟩
  | l :: ls, s, s', hset, hl, h => by
    obtain ⟨s1, h1, h2⟩ := run_cons_eq_some.mp h
    obtain ⟨hset1, hdb1, hm1⟩ := table_step hset (hl l (by simp)).1 (hl l (by simp)).2 h1
    obtain ⟨hdb2, hm2⟩ := table_run ls s1 s' hset1 (fun l' hl' => hl l' (by simp [hl'])) h2
    exact ⟨hdb2.trans hdb1, fun k => (hm2 k).trans (hm1 k)⟩

/-! ### The ledger -/

/-- **The usage ledger.** In the state `s` after any run from a table without negative columns, whose
totals stay below `2 ^ 63` and whose restarts can read the table:

* a row is a value that memory had under that key at some moment, and none of its counters exceeds the
  one in memory now;
* unless a flush is between its commit and its marker update, the marker of a key that was ever flushed
  is its row;
* a forced flush in which no statement fails and no request is counted leaves table and memory equal,
  and nothing pending;
* a flush that does not commit leaves the table and all markers as they were;
* a restart goes on from the table: from then on the totals are those of the table at the restart and
  what was added since, and over the whole run a total is the table at the start and some of the deltas,
  each counted once. -/
theorem usage_ledger (db0 : Db) (hdb : ∀ k r, db0.lookup k = some r → Valid r) (ls : List Label)
    (hC : AllSteps step Admissible (init db0) ls) (s : State)
    (h : run step (init db0) ls = some s) :
    (∀ k row, s.db.lookup k = some row →
      (∃ ls1 s1 r1, ls1 <+: ls ∧ run step (init db0) ls1 = some s1 ∧
        s1.usage.lookup k = some r1 ∧ row = toRow r1.current) ∧
      ∃ r, s.usage.lookup k = some r ∧ snapCounters (loadRow row) ≤ snapCounters r.current) ∧
    (Settled s → ∀ k r, s.usage.lookup k = some r → r.everFlushed = true →
      s.db.lookup k = some (toRow r.flushed)) ∧
    (∀ fl s', (∀ l ∈ fl, isCleanFlush l = true) → run step s (.flushOnce true :: fl) = some s' →
      s'.flush = .idle →
      (∀ k, s'.db.lookup k = (s'.usage.lookup k).map fun r => toRow r.current) ∧
        hasPending s' = false) ∧
    (∀ force fl s', (∀ l ∈ fl, l ≠ .commit true ∧ isRestart l = false) →
      run step s (.flushOnce force :: fl) = some s' →
      s'.db = s.db ∧ ∀ k, marker s' k = marker s k) ∧
    (∀ ls' s1 s2, step s (.restart true) = some s1 → AllSteps step Admissible s1 ls' →
      (∀ l ∈ ls', isRestart l = false) → run step s1 ls' = some s2 →
      ∀ k, total s2 k = rowTotal s.db k + ((added k ls').map deltaCounters).sum) ∧
    (∀ k, ∃ ds : List UsageDelta, ds.Sublist (added k ls) ∧
      total s k = rowTotal db0 k + (ds.map deltaCounters).sum) := by
  have hist := history_run hdb hC h
  have hinv := hist.inv
  refine ⟨fun k row hr => ⟨?_, ?_⟩, fun hset k r hr he => ?_, fun fl s' hfl hrun hidle => ?_,
    fun force fl s' hfl hrun => ?_, fun ls' s1 s2 hs1 hC' hl hrun k => ?_, hist.counted⟩
  · obtain ⟨v, hrow, -, ⟨ls1, s1, r1, hp, hr1, hl1, hc1⟩, -⟩ := hist.row_past hr
    exact ⟨ls1, s1, r1, hp, hr1, hl1, by rw [hc1]; exact hrow⟩
  · exact hinv.row_le hr
  · rw [hinv.row_marker k (by rw [unmarked_of_settled hset]; simp),
      marker_eq_some.mpr ⟨r, hr, he, rfl⟩]
    rfl
  · obtain ⟨s1, h1, h2⟩ := run_cons_eq_some.mp hrun
    have hforced := run_invariant_of (C := fun _ l => isCleanFlush l = true)
      (fun _ _ _ hf hl hs => forced_step hf hl hs) fl s1 s' (forced_begin hinv h1)
      (allSteps_of_forall hfl) h2
    exact ⟨db_of_allFlushed hforced.inv hidle (hforced.idle hidle),
      hasPending_of_allFlushed (hforced.idle hidle)⟩
  · refine table_run _ s s' ?_ ?_ hrun
    · intro b w hf
      obtain ⟨s1, h1, -⟩ := run_cons_eq_some.mp hrun
      simp [step, hf] at h1
    · intro l hl
      rcases List.mem_cons.mp hl with rfl | hl
      · exact ⟨by simp, rfl⟩
      · exact hfl l hl
  · cases hs1
    rw [total_run k ls' (init s.db) s2 (inv_init fun k r => hinv.row_valid) hC' hl hrun, total_init]

/-- Two requests, one flushed and one not, and a restart: what was flushed is still counted. -/
theorem usage_ledger_restart :
    ∃ s, run step (init ∅) [.accumulate "k" "t" "n" ⟨3, 5, false⟩ 100, .flushOnce false,
        .transaction true, .execute true, .commit true, .accumulate "k" "t" "n" ⟨1, 1, true⟩ 101,
        .mark, .restart true] = some s ∧
      total s "k" = (3, 5, 1, 0) ∧
      ∃ ds : List UsageDelta, ds.Sublist [⟨3, 5, false⟩, ⟨1, 1, true⟩] ∧
        total s "k" = (ds.map deltaCounters).sum := by
  obtain ⟨s, hs⟩ : ∃ s, run step (init ∅) [.accumulate "k" "t" "n" ⟨3, 5, false⟩ 100,
      .flushOnce false, .transaction true, .execute true, .commit true,
      .accumulate "k" "t" "n" ⟨1, 1, true⟩ 101, .mark, .restart true] = some s :=
    Option.isSome_iff_exists.mp (by decide)
  have hledger := usage_ledger ∅ (by simp) _ (by decide) s hs
  obtain ⟨ds, hd, ht⟩ := hledger.2.2.2.2.2 "k"
  refine ⟨s, hs, ?_, ds, hd, ht.trans (zero_add _)⟩
  cases hs
  decide

end HomeLlmGateway.Storage.UsageLedger
