import HomeLlmGateway.Gateway.Shutdown

/-! # What a shutdown writes

The usage of every request that settled before the forced flush took its batch is in the table when
`shutdown` returns. `Books` ties memory, batch and table to the calls of `accumulate_usage`: a total is what
these calls add up to (`totals`), a batch and the rows it writes are totals of a beginning of them. A
request that has not settled by then is not in the table: nothing in `shutdown` waits for its task. -/

namespace HomeLlmGateway.Gateway.Settlement

open HomeLlmGateway.Lib.Runs HomeLlmGateway.Lib.Assoc
open HomeLlmGateway.Storage.Usage (UsageSnapshot UsageRecord Db Flush recordOf accumulate toRow loadUsage
  takeBatch)
open HomeLlmGateway.Storage.UsageLedger (batchOf TxOk mem_takeBatch nodup_takeBatch recordOf_accumulate
  recordOf_mark_current isSome_lookup_accumulate recordOf_of_lookup lookup_mark)
open HomeLlmGateway.Proxy.Forward (Ctx Pc Watch)
open HomeLlmGateway.Proxy.Relay (Settling settling_step)
open HomeLlmGateway.Gateway.Shutdown

/-! ### Totals -/

/-- The totals of a key after one more call. -/
def addEntry (v : UsageSnapshot) (e : Entry) : UsageSnapshot := v.add e.tenantId e.name e.delta e.now

/-- What the calls `log` on the key `k` add up to, from what was loaded. -/
def totals (base : HashMap String UsageRecord) (log : List Entry) (k : String) : UsageSnapshot :=
  (log.filter fun e => e.keyId = k).foldl addEntry (recordOf base k).current

section totals

variable {base usage : HashMap String UsageRecord} {log es : List Entry} {k : String}

theorem totals_append : totals base (log ++ es) k =
    (es.filter fun e => e.keyId = k).foldl addEntry (totals base log k) := by
  unfold totals
  rw [List.filter_append, List.foldl_append]

/-- Memory adds up the calls. -/
theorem current_accumulateAll (k : String) : ∀ (es : List Entry) (usage : HashMap String UsageRecord),
    (recordOf (accumulateAll usage es) k).current =
      (es.filter fun e => e.keyId = k).foldl addEntry (recordOf usage k).current
  | [], _ => rfl
  | e :: es, usage => by
    have ih := current_accumulateAll k es (accumulateEntry usage e)
    have hcons : accumulateAll usage (e :: es) = accumulateAll (accumulateEntry usage e) es := rfl
    rw [hcons, ih]
    unfold accumulateEntry
    rw [recordOf_accumulate]
    by_cases hk : e.keyId = k
    · subst hk
      simp [addEntry]
    · simp [hk, Ne.symm hk]

theorem isSome_accumulateAll : ∀ (es : List Entry) (usage : HashMap String UsageRecord),
    ((usage.lookup k).isSome ∨ ∃ e ∈ es, e.keyId = k) → ((accumulateAll usage es).lookup k).isSome
  | [], _, h => by
    rcases h with h | ⟨e, he, -⟩
    · exact h
    · cases he
  | e :: es, usage, h => by
    refine isSome_accumulateAll es (accumulateEntry usage e) ?_
    rcases h with h | ⟨e', he', hk⟩
    · exact Or.inl (isSome_lookup_accumulate h)
    · rcases List.mem_cons.mp he' with rfl | he'
      · left
        unfold accumulateEntry accumulate
        rw [lookup_insert, if_pos hk.symm]
        rfl
      · exact Or.inr ⟨e', he', hk⟩

end totals

/-! ### Books -/

/-- The row of `k` is the total of at least the first `n` calls. -/
def RowFrom (base : HashMap String UsageRecord) (log : List Entry) (n : ℕ) (db : Db) (k : String) : Prop :=
  ∃ m, n ≤ m ∧ m ≤ log.length ∧ db.lookup k = some (toRow (totals base (log.take m) k))

/-- **Memory, batch and calls.** The batch of a flush under way is of the totals after at least `n` calls. -/
structure Books (base : HashMap String UsageRecord) (log : List Entry) (n : ℕ)
    (u : Storage.Usage.State) : Prop where
  hasDb : u.hasDb = true
  current : ∀ k, (recordOf u.usage k).current = totals base log k
  known : ∀ e ∈ log, (u.usage.lookup e.keyId).isSome
  nodup : ((batchOf u.flush).map Prod.fst).Nodup
  tx : TxOk u
  batch : ∀ k v, (k, v) ∈ batchOf u.flush →
    ∃ m, n ≤ m ∧ m ≤ log.length ∧ v = totals base (log.take m) k

section books

variable {base : HashMap String UsageRecord} {log : List Entry} {n : ℕ} {u u' : Storage.Usage.State}
  {l : Storage.Usage.Label} {k : String}

theorem RowFrom.append {db : Db} (h : RowFrom base log n db k) (es : List Entry) :
    RowFrom base (log ++ es) n db k := by
  obtain ⟨m, h1, h2, h3⟩ := h
  refine ⟨m, h1, by rw [List.length_append]; omega, ?_⟩
  rw [List.take_append_of_le_length h2]
  exact h3

theorem Books.flush (h : Books base log n u) (f : Flush) (ret : Option ℕ) (db : Db)
    (hb : batchOf f = [] ∨ batchOf f = batchOf u.flush)
    (htx : TxOk { u with flush := f, returned := ret, db := db }) :
    Books base log n { u with flush := f, returned := ret, db := db } := by
  refine ⟨h.hasDb, h.current, h.known, ?_, htx, fun k v hm => ?_⟩
  · show ((batchOf f).map Prod.fst).Nodup
    rcases hb with hb | hb
    · rw [hb]; exact List.nodup_nil
    · rw [hb]; exact h.nodup
  · change (k, v) ∈ batchOf f at hm
    rcases hb with hb | hb
    · rw [hb] at hm; cases hm
    · rw [hb] at hm; exact h.batch k v hm

theorem Books.of_takeBatch (h : Books base log n u) (force : Bool) {v : UsageSnapshot}
    (hm : (k, v) ∈ takeBatch u.usage force) : v = totals base log k := by
  obtain ⟨r, hr, -, rfl⟩ := mem_takeBatch.mp hm
  rw [← h.current k, recordOf_of_lookup hr]

theorem Books.batched (h : Books base log n u) (force : Bool) :
    Books base log log.length { u with flush := .batched (takeBatch u.usage force) } := by
  refine ⟨h.hasDb, h.current, h.known, nodup_takeBatch _ _, by simp [TxOk], fun k v hm => ?_⟩
  refine ⟨log.length, le_rfl, le_rfl, ?_⟩
  rw [List.take_length]
  exact h.of_takeBatch force hm

theorem Books.mono (h : Books base log n u) {n' : ℕ} (hn : n' ≤ n) : Books base log n' u := by
  refine ⟨h.hasDb, h.current, h.known, h.nodup, h.tx, fun k v hm => ?_⟩
  obtain ⟨m, h1, h2, h3⟩ := h.batch k v hm
  exact ⟨m, by omega, h2, h3⟩

theorem Books.commit_row (h : Books base log n u) {b : List (String × UsageSnapshot)} {tx : Db} {w : ℕ}
    (hf : u.flush = .writing b [] tx w) :
    (∀ k v, (k, v) ∈ b → tx.lookup k = some (toRow v)) ∧
      ∀ k, k ∉ b.map Prod.fst → tx.lookup k = u.db.lookup k := by
  obtain ⟨done, hdone, rfl⟩ := h.tx b [] tx w hf
  rw [List.append_nil] at hdone
  subst hdone
  have hkeys : (b.map fun p => (p.1, toRow p.2)).map Prod.fst = b.map Prod.fst := by
    rw [List.map_map]; rfl
  have hnd : (b.map Prod.fst).Nodup := by simpa [hf, batchOf] using h.nodup
  refine ⟨fun k v hm => ?_, fun k hk => ?_⟩
  · exact lookup_insertAll_of_mem _ u.db (by rw [hkeys]; exact hnd) (List.mem_map.mpr ⟨(k, v), hm, rfl⟩)
  · exact lookup_insertAll_of_notMem _ u.db (by rw [hkeys]; exact hk)

/-- **A step of a flush** keeps the books, and what the table has from the calls it keeps. -/
theorem Books.flush_step (h : Books base log n u) (hn : n ≤ log.length) (hl : isFlush l = true)
    (hs : Storage.Usage.step u l = some u') :
    Books base log n u' ∧ ∀ k, RowFrom base log n u.db k → RowFrom base log n u'.db k := by
  cases Storage.UsageLedger.move_of_step hs with
  | accumulate => cases hl
  | nothing force hf hb =>
    exact ⟨h.flush u.flush _ u.db (Or.inr rfl) h.tx, fun _ hr => hr⟩
  | batch force hf hb => exact ⟨(h.batched force).mono hn, fun _ hr => hr⟩
  | transaction b hf =>
    refine ⟨h.flush _ u.returned u.db (Or.inr (by rw [hf]; rfl)) ?_, fun _ hr => hr⟩
    intro b' todo tx w he
    cases he
    exact ⟨[], rfl, rfl⟩
  | execute b todo p tx w hf =>
    refine ⟨h.flush _ u.returned u.db (Or.inr (by rw [hf]; rfl)) ?_, fun _ hr => hr⟩
    obtain ⟨done, hdone, htx⟩ := h.tx b (p :: todo) tx w hf
    intro b' todo' tx' w' he
    cases he
    refine ⟨done ++ [p], by simpa using hdone, ?_⟩
    rw [List.map_append, List.map_singleton, insertAll_concat, ← htx]
  | commit b tx w hf =>
    refine ⟨h.flush _ u.returned _ (Or.inr (by rw [hf]; rfl)) (by simp [TxOk]), fun k hr => ?_⟩
    obtain ⟨hin, hout⟩ := h.commit_row hf
    by_cases hk : k ∈ b.map Prod.fst
    · obtain ⟨⟨k', v⟩, hm, rfl⟩ := List.mem_map.mp hk
      obtain ⟨m, h1, h2, rfl⟩ := h.batch k' v (by rw [hf]; exact hm)
      exact ⟨m, h1, h2, hin _ _ hm⟩
    · obtain ⟨m, h1, h2, h3⟩ := hr
      exact ⟨m, h1, h2, (hout k hk).trans h3⟩
  | fail _ hl' hf => exact ⟨h.flush _ _ u.db (Or.inl rfl) (by simp [TxOk]), fun _ hr => hr⟩
  | mark b w hf =>
    have hnd : (b.map Prod.fst).Nodup := by simpa [hf, batchOf] using h.nodup
    refine ⟨⟨h.hasDb, fun k => ?_, fun e he => ?_, List.nodup_nil, by simp [TxOk], by simp [batchOf]⟩,
      fun _ hr => hr⟩
    · rw [← h.current k]
      exact recordOf_mark_current u.usage hnd k
    · have hk := h.known e he
      rcases lookup_mark u.usage hnd e.keyId with ⟨h1, -⟩ | ⟨v, -, h1⟩
      · rw [h1]; exact hk
      · rw [h1]; simpa using hk
  | restart => cases hl
  | restartBlind => cases hl

/-- **A relay settles**: its calls are added. -/
theorem Books.accumulate (h : Books base log n u) (es : List Entry) :
    Books base (log ++ es) n { u with usage := accumulateAll u.usage es } := by
  refine ⟨h.hasDb, fun k => ?_, fun e he => ?_, h.nodup, h.tx, fun k v hm => ?_⟩
  · rw [totals_append, ← h.current k]
    exact current_accumulateAll k es u.usage
  · rcases List.mem_append.mp he with he | he
    · exact isSome_accumulateAll es u.usage (Or.inl (h.known e he))
    · exact isSome_accumulateAll es u.usage (Or.inr ⟨e, he, rfl⟩)
  · obtain ⟨m, h1, h2, h3⟩ := h.batch k v hm
    refine ⟨m, h1, by rw [List.length_append]; omega, ?_⟩
    rw [List.take_append_of_le_length h2]
    exact h3

end books

/-! ### The invariant -/

theorem over_step {ctx : Ctx} {t t' : Proxy.Forward.State} {l : Proxy.Forward.Label}
    (h : t.pc.over = true) (hs : Proxy.Forward.step ctx t l = some t') :
    t'.pc = t.pc ∧ t'.ledger = t.ledger := by
  cases Proxy.Forward.move_of_step ctx hs with
  | retry | clientTake | clientDrop | advance | controllerDrop => exact ⟨rfl, rfl⟩
  | abort hpc => rw [h] at hpc; cases hpc
  | select hpc | announce hpc | shutdown hpc | idle hpc | clientClosed hpc =>
    rw [hpc] at h; cases h
  | wake _ hpc | cancelled _ hpc => rw [hpc] at h; cases h
  | stopChunk _ _ hpc => rw [hpc] at h; cases h
  | stopSignal _ _ _ hpc => rw [hpc] at h; cases h
  | chunk _ _ _ hpc => rw [hpc] at h; cases h
  | upstreamEnd _ _ hpc => rw [hpc] at h; cases h
  | signal _ _ _ _ hpc => rw [hpc] at h; cases h
  | skip _ _ hpc => rw [hpc] at h; cases h
  | announceSent _ _ _ hpc => rw [hpc] at h; cases h
  | chunkSent _ _ _ _ hpc => rw [hpc] at h; cases h
  | signalSent _ _ _ _ _ hpc => rw [hpc] at h; cases h

/-- The request `i` has settled with one of these calls. -/
def SettledIn (log : List Entry) (i : ℕ) (r : Relay) : Prop :=
  ∃ e ∈ log, e.request = i ∧ e.keyId = r.keyId ∧ r.task.ledger = [e.delta]

/-- What `shutdown` has achieved, with `base` what was loaded. -/
def PhaseOk (base : HashMap String UsageRecord) (s : State) : Prop :=
  match s.phase with
  | .flushing => s.usage.flush ≠ .idle ∧
      (∀ e ∈ s.log.take s.seen, (e.keyId, totals base (s.log.take s.seen) e.keyId) ∈ batchOf s.usage.flush) ∧
      ∀ b w, s.usage.flush = .committed b w →
        ∀ e ∈ s.log.take s.seen, RowFrom base s.log s.seen s.usage.db e.keyId
  | .flushed => ∀ e ∈ s.log.take s.seen, RowFrom base s.log s.seen s.usage.db e.keyId
  | .returned true => ∀ e ∈ s.log.take s.seen, RowFrom base s.log s.seen s.usage.db e.keyId
  | _ => True

/-- **The invariant** of a gateway and its shutdown. -/
structure Inv (base : HashMap String UsageRecord) (s : State) : Prop where
  settling : ∀ i r, s.relays.lookup i = some r → Settling r.task
  settled : ∀ i r, s.relays.lookup i = some r → r.task.pc.over = true → SettledIn s.log i r
  seen_le : s.seen ≤ s.log.length
  books : Books base s.log s.seen s.usage
  phase : PhaseOk base s

section steps

variable {base : HashMap String UsageRecord} {s s' : State}

theorem SettledIn.append {log : List Entry} {i : ℕ} {r : Relay} (h : SettledIn log i r) (es : List Entry) :
    SettledIn (log ++ es) i r := by
  obtain ⟨e, he, h1⟩ := h
  exact ⟨e, List.mem_append_left _ he, h1⟩

theorem phaseOk_append (h : PhaseOk base s) (hseen : s.seen ≤ s.log.length) (es : List Entry)
    (hphase : s'.phase = s.phase) (hlog : s'.log = s.log ++ es) (hs : s'.seen = s.seen)
    (hf : s'.usage.flush = s.usage.flush) (hdb : s'.usage.db = s.usage.db) : PhaseOk base s' := by
  have htake : s'.log.take s'.seen = s.log.take s.seen := by
    rw [hlog, hs, List.take_append_of_le_length hseen]
  have hrow : ∀ k, RowFrom base s.log s.seen s.usage.db k → RowFrom base s'.log s'.seen s'.usage.db k := by
    intro k hk
    rw [hlog, hs, hdb]
    exact hk.append es
  unfold PhaseOk at h ⊢
  rw [hphase]
  cases hp : s.phase with
  | flushing =>
    simp only [hp] at h ⊢
    rw [htake, hf]
    exact ⟨h.1, h.2.1, fun b w hb e he => hrow _ (h.2.2 b w hb e he)⟩
  | flushed =>
    simp only [hp] at h ⊢
    rw [htake]
    exact fun e he => hrow _ (h e he)
  | returned ok =>
    cases ok with
    | true =>
      simp only [hp] at h ⊢
      rw [htake]
      exact fun e he => hrow _ (h e he)
    | false => trivial
  | serving | draining | drained | unflushed => trivial

/-- The calls of a step of a relay: none if it was over, and one if it is over now. -/
theorem entriesOf_spec (i : ℕ) {r : Relay} {t : Proxy.Forward.State} {l : Proxy.Forward.Label}
    (tenantId : String) (now : UInt64) (h : Settling r.task) (hs : Proxy.Forward.step r.ctx r.task l = some t) :
    Settling t ∧ (r.task.pc.over = true → t.pc = r.task.pc ∧ t.ledger = r.task.ledger) ∧
      (r.task.pc.over = false → t.pc.over = true →
        SettledIn (entriesOf i r t tenantId now) i { r with task := t }) := by
  have ht := settling_step h hs
  refine ⟨ht, fun ho => over_step ho hs, fun hn ho => ?_⟩
  have hnil : r.task.ledger = [] := (h.open hn).1
  have hone : t.ledger.length = 1 := by simpa [Settling, ho] using ht
  obtain ⟨d, hd⟩ := List.length_eq_one_iff.mp hone
  refine ⟨⟨i, r.keyId, tenantId, r.keyName, d, now⟩, ?_, rfl, rfl, hd⟩
  simp [entriesOf, hnil, hd]

theorem inv_relay (h : Inv base s) {i : ℕ} {r : Relay} {t : Proxy.Forward.State}
    {l : Proxy.Forward.Label} {tenantId : String} {now : UInt64} (hr : s.relays.lookup i = some r)
    (hs : Proxy.Forward.step r.ctx r.task l = some t) :
    Inv base { s with
      relays := s.relays.insert i { r with task := t }
      usage := { s.usage with usage := accumulateAll s.usage.usage (entriesOf i r t tenantId now) }
      log := s.log ++ entriesOf i r t tenantId now } := by
  obtain ⟨ht, hover, hnew⟩ := entriesOf_spec i tenantId now (h.settling i r hr) hs
  refine ⟨fun j q hq => ?_, fun j q hq ho => ?_, ?_, h.books.accumulate _,
    phaseOk_append h.phase h.seen_le _ rfl rfl rfl rfl rfl⟩
  · rw [lookup_insert] at hq
    split_ifs at hq with hj
    · cases hq
      exact ht
    · exact h.settling j q hq
  · rw [lookup_insert] at hq
    split_ifs at hq with hj
    · subst hj
      cases hq
      by_cases hb : r.task.pc.over = true
      · obtain ⟨-, hl⟩ := hover hb
        obtain ⟨e, he, h1, h2, h3⟩ := h.settled j r hr hb
        exact ⟨e, List.mem_append_left _ he, h1, h2, hl.trans h3⟩
      · obtain ⟨e, he, h1⟩ := hnew (by simpa using hb) ho
        exact ⟨e, List.mem_append_right _ he, h1⟩
    · exact (h.settled j q hq ho).append _
  · have := h.seen_le
    show s.seen ≤ (s.log ++ _).length
    rw [List.length_append]
    omega

theorem phaseOk_flush {l : Storage.Usage.Label} {u : Storage.Usage.State} (h : Inv base s)
    (hl : isFlush l = true) (hs : Storage.Usage.step s.usage l = some u) :
    PhaseOk base { s with usage := u, phase := s.phase.afterFlush l } := by
  obtain ⟨-, hrow⟩ := h.books.flush_step h.seen_le hl hs
  have hph := h.phase
  unfold PhaseOk at hph ⊢
  cases hp : s.phase with
  | flushing =>
    simp only [hp] at hph
    obtain ⟨hidle, hcov, hcom⟩ := hph
    simp only [Phase.afterFlush, if_true]
    cases Storage.UsageLedger.move_of_step hs with
    | accumulate => cases hl
    | nothing force hf => exact absurd hf hidle
    | batch force hf => exact absurd hf hidle
    | transaction b hf =>
      rw [hf] at hcov
      exact ⟨by simp, hcov, fun b' w' hb => (by cases hb)⟩
    | execute b todo p tx w hf =>
      rw [hf] at hcov
      exact ⟨by simp, hcov, fun b' w' hb => (by cases hb)⟩
    | commit b tx w hf =>
      rw [hf] at hcov
      refine ⟨by simp, hcov, fun b' w' hb e he => ?_⟩
      exact ⟨s.seen, le_rfl, h.seen_le, (h.books.commit_row hf).1 _ _ (hcov e he)⟩
    | fail _ hf' hf => rcases hf' with rfl | rfl | rfl <;> trivial
    | mark b w hf => exact fun e he => hcom b w hf e he
    | restart => cases hl
    | restartBlind => cases hl
  | flushed =>
    simp only [hp] at hph
    exact fun e he => hrow _ (hph e he)
  | returned ok =>
    cases ok with
    | true =>
      simp only [hp] at hph
      exact fun e he => hrow _ (hph e he)
    | false => trivial
  | serving | draining | drained | unflushed => trivial

/-- The forced flush takes its batch: all that has settled so far. -/
theorem inv_forceFlush {u : Storage.Usage.State} (h : Inv base s)
    (hs : Storage.Usage.step s.usage (.flushOnce true) = some u) :
    Inv base { s with
      usage := u
      seen := s.log.length
      phase := if u.flush = .idle then .flushed else .flushing } := by
  have hall : ∀ e ∈ s.log, (e.keyId, totals base s.log e.keyId) ∈ takeBatch s.usage.usage true := by
    intro e he
    obtain ⟨r, hr⟩ := Option.isSome_iff_exists.mp (h.books.known e he)
    refine mem_takeBatch.mpr ⟨r, hr, Or.inl rfl, ?_⟩
    rw [← h.books.current e.keyId, recordOf_of_lookup hr]
  cases Storage.UsageLedger.move_of_step hs with
  | nothing force hf hb =>
    have hnil : s.log = [] := by
      rcases hb with hb | hb
      · rw [h.books.hasDb] at hb; cases hb
      · by_contra hne
        obtain ⟨e, log, hlog⟩ := List.exists_cons_of_ne_nil hne
        have := hall e (by rw [hlog]; simp)
        rw [hb] at this
        cases this
    have hbooks : Books base s.log s.log.length { s.usage with returned := some 0 } := by
      refine ⟨h.books.hasDb, h.books.current, h.books.known, h.books.nodup, h.books.tx, ?_⟩
      simp [hf, batchOf]
    refine ⟨h.settling, h.settled, le_rfl, hbooks, ?_⟩
    simp only [PhaseOk, hf, if_true, hnil]
    simp
  | batch force hf hb =>
    refine ⟨h.settling, h.settled, le_rfl, h.books.batched true, ?_⟩
    simp only [PhaseOk, reduceCtorEq, if_false, List.take_length]
    exact ⟨by simp, hall, fun b w hbw => (by cases hbw)⟩
  | fail _ hl => rcases hl with hl | hl | hl <;> cases hl

/-- **Every step keeps the invariant.** -/
theorem inv_step {l : Label} (h : Inv base s) (hs : step s l = some s') : Inv base s' := by
  cases l with
  | enter =>
    cases hs
    exact ⟨h.settling, h.settled, h.seen_le, h.books, h.phase⟩
  | leave =>
    simp only [step] at hs
    split_ifs at hs
    cases hs
    exact ⟨h.settling, h.settled, h.seen_le, h.books, h.phase⟩
  | head i ctx keyId keyName upstream w =>
    simp only [step] at hs
    split at hs
    · cases hs
    · next hnone =>
      split_ifs at hs
      cases hs
      refine ⟨fun j q hq => ?_, fun j q hq ho => ?_, h.seen_le, h.books, h.phase⟩
      · rw [lookup_insert] at hq
        split_ifs at hq
        · cases hq
          simp [Settling, Proxy.Forward.init, Pc.over, Proxy.Usage.UsageCollector.new]
        · exact h.settling j q hq
      · rw [lookup_insert] at hq
        split_ifs at hq
        · cases hq
          cases ho
        · exact h.settled j q hq ho
  | relay i l tenantId now =>
    simp only [step, Option.bind_eq_some_iff, Option.map_eq_some_iff] at hs
    obtain ⟨r, hr, t, ht, rfl⟩ := hs
    exact inv_relay h hr ht
  | flush l =>
    simp only [step] at hs
    split_ifs at hs with hl
    obtain ⟨u, hu, rfl⟩ := Option.map_eq_some_iff.mp hs
    exact ⟨h.settling, h.settled, h.seen_le, (h.books.flush_step h.seen_le hl hu).1, phaseOk_flush h hl hu⟩
  | beginDrain =>
    simp only [step] at hs
    split_ifs at hs
    cases hs
    exact ⟨h.settling, h.settled, h.seen_le, h.books, trivial⟩
  | drained graceElapsed =>
    simp only [step] at hs
    split_ifs at hs
    cases hs
    exact ⟨h.settling, h.settled, h.seen_le, h.books, trivial⟩
  | forceFlush =>
    simp only [step] at hs
    split_ifs at hs
    obtain ⟨u, hu, rfl⟩ := Option.map_eq_some_iff.mp hs
    exact inv_forceFlush h hu
  | flushTimeout =>
    simp only [step] at hs
    split_ifs at hs
    cases hs
    exact ⟨h.settling, h.settled, h.seen_le, h.books, trivial⟩
  | returns =>
    simp only [step] at hs
    split at hs
    · next hp =>
      cases hs
      have hph := h.phase
      simp only [PhaseOk, hp] at hph
      exact ⟨h.settling, h.settled, h.seen_le, h.books, hph⟩
    · cases hs
      exact ⟨h.settling, h.settled, h.seen_le, h.books, trivial⟩
    · cases hs

end steps

theorem inv_init (db : Db) : Inv (loadUsage db) (init db) where
  settling i r hr := by cases hr
  settled i r hr := by cases hr
  seen_le := le_rfl
  books := ⟨rfl, fun _ => rfl, by simp [init], List.nodup_nil, by simp [TxOk, init, Storage.Usage.init],
    by simp [init, Storage.Usage.init, batchOf]⟩
  phase := trivial

/-! ### Early requests -/

/-- The forced flush has taken its batch. -/
def Phase.begun : Phase → Bool
  | .flushing => true
  | .flushed => true
  | .unflushed => true
  | .returned _ => true
  | _ => false

/-- When the forced flush takes its batch, the forward task of every early request is over. -/
def Prompt (s : State) (l : Label) : Prop :=
  l = .forceFlush → s.phase = .drained →
    ∀ i r, s.relays.lookup i = some r → r.early = true → r.task.pc.over = true

/-- A client leaves only when the forward task of its request is over. -/
def Stays (s : State) : Label → Prop
  | .relay i .clientDrop _ _ => ∀ r, s.relays.lookup i = some r → r.task.pc.over = true
  | _ => True

instance (s : State) : (l : Label) → Decidable (Stays s l)
  | .relay i .clientDrop _ _ =>
    decidable_of_iff ((s.relays.lookup i).all (fun r => r.task.pc.over) = true) (by
      cases h : s.relays.lookup i <;> simp [Stays, h])
  | .relay _ .loopTop _ _ | .relay _ .read _ _ | .relay _ .idle _ _ | .relay _ .txClosed _ _
  | .relay _ .shutdownChanged _ _ | .relay _ (.send _) _ _ | .relay _ .cancelled _ _
  | .relay _ .clientTake _ _ | .relay _ (.advance _) _ _ | .relay _ .controllerDrop _ _
  | .relay _ .abort _ _ | .enter | .leave | .head .. | .flush _ | .beginDrain | .drained _
  | .forceFlush | .flushTimeout | .returns => isTrue trivial

/-- `drain` returns because it reads zero. -/
def Drains : Label → Prop
  | .drained graceElapsed => graceElapsed = false
  | _ => True

instance : (l : Label) → Decidable (Drains l)
  | .drained g => inferInstanceAs (Decidable (g = false))
  | .relay .. | .enter | .leave | .head .. | .flush _ | .beginDrain | .forceFlush | .flushTimeout
  | .returns => isTrue trivial

/-- Every early request settled before the forced flush took its batch. -/
def EarlySettled (s : State) : Prop :=
  Phase.begun s.phase = true →
    ∀ i r, s.relays.lookup i = some r → r.early = true → SettledIn (s.log.take s.seen) i r

/-- No response body is gone before the task is over; once `drain` has read zero, every early task is. -/
def Waited (s : State) : Prop :=
  (∀ i r, s.relays.lookup i = some r → r.task.chan.rxAlive = false → r.task.pc.over = true) ∧
    (s.phase ≠ .serving → s.phase ≠ .draining →
      ∀ i r, s.relays.lookup i = some r → r.early = true → r.task.pc.over = true)

section early

variable {base : HashMap String UsageRecord} {s s' : State} {l : Label}

theorem relay_of_step (hs : step s l = some s') {j : ℕ} {q : Relay} (hq : s'.relays.lookup j = some q) :
    s.relays.lookup j = some q ∨
      (q.early = decide (s.phase = .serving) ∧ q.task.chan.rxAlive = true ∧ s'.phase = s.phase) ∨
      ∃ r l' tenantId now, l = .relay j l' tenantId now ∧ s.relays.lookup j = some r ∧
        Proxy.Forward.step r.ctx r.task l' = some q.task ∧ q = { r with task := q.task } ∧
        s'.phase = s.phase := by
  cases l with
  | head i ctx keyId keyName upstream w =>
    simp only [step] at hs
    split at hs
    · cases hs
    · split_ifs at hs
      cases hs
      rw [lookup_insert] at hq
      split_ifs at hq
      · cases hq
        exact Or.inr (Or.inl ⟨rfl, rfl, rfl⟩)
      · exact Or.inl hq
  | relay i l' tenantId now =>
    simp only [step, Option.bind_eq_some_iff, Option.map_eq_some_iff] at hs
    obtain ⟨r, hr, t, ht, rfl⟩ := hs
    rw [lookup_insert] at hq
    split_ifs at hq with hj
    · subst hj
      cases hq
      exact Or.inr (Or.inr ⟨r, l', tenantId, now, rfl, hr, ht, rfl, rfl⟩)
    · exact Or.inl hq
  | enter =>
    cases hs
    exact Or.inl hq
  | leave | beginDrain | drained | flushTimeout =>
    simp only [step] at hs
    split_ifs at hs
    cases hs
    exact Or.inl hq
  | flush l =>
    simp only [step] at hs
    split_ifs at hs
    obtain ⟨u, -, rfl⟩ := Option.map_eq_some_iff.mp hs
    exact Or.inl hq
  | forceFlush =>
    simp only [step] at hs
    split_ifs at hs
    obtain ⟨u, -, rfl⟩ := Option.map_eq_some_iff.mp hs
    exact Or.inl hq
  | returns =>
    simp only [step] at hs
    split at hs
    · cases hs
      exact Or.inl hq
    · cases hs
      exact Or.inl hq
    · cases hs

theorem begun_step (hs : step s l = some s') (hl : l ≠ .forceFlush) :
    (∃ es, s'.log = s.log ++ es) ∧ s'.seen = s.seen ∧
      (Phase.begun s'.phase = true → Phase.begun s.phase = true) := by
  have hnone : ∃ es, s.log = s.log ++ es := ⟨[], (List.append_nil _).symm⟩
  cases l with
  | head i ctx keyId keyName upstream w =>
    simp only [step] at hs
    split at hs
    · cases hs
    · split_ifs at hs
      cases hs
      exact ⟨hnone, rfl, fun h => h⟩
  | relay i l' tenantId now =>
    simp only [step, Option.bind_eq_some_iff, Option.map_eq_some_iff] at hs
    obtain ⟨r, hr, t, ht, rfl⟩ := hs
    exact ⟨⟨_, rfl⟩, rfl, fun h => h⟩
  | enter =>
    cases hs
    exact ⟨hnone, rfl, fun h => h⟩
  | leave =>
    simp only [step] at hs
    split_ifs at hs
    cases hs
    exact ⟨hnone, rfl, fun h => h⟩
  | beginDrain | drained =>
    simp only [step] at hs
    split_ifs at hs
    cases hs
    exact ⟨hnone, rfl, fun h => (by cases h)⟩
  | flushTimeout =>
    simp only [step] at hs
    split_ifs at hs with hp
    cases hs
    exact ⟨hnone, rfl, fun _ => by rw [hp]; rfl⟩
  | flush l =>
    simp only [step] at hs
    split_ifs at hs
    obtain ⟨u, -, rfl⟩ := Option.map_eq_some_iff.mp hs
    refine ⟨hnone, rfl, fun h => ?_⟩
    unfold Phase.afterFlush at h
    by_cases hp : s.phase = .flushing
    · rw [hp]; rfl
    · simpa only [hp, if_false] using h
  | forceFlush => exact absurd rfl hl
  | returns =>
    simp only [step] at hs
    split at hs
    · next hp => cases hs; exact ⟨hnone, rfl, fun _ => by rw [hp]; rfl⟩
    · next hp => cases hs; exact ⟨hnone, rfl, fun _ => by rw [hp]; rfl⟩
    · cases hs

theorem earlySettled_step (h : Inv base s) (hE : EarlySettled s) (hC : Prompt s l)
    (hs : step s l = some s') : EarlySettled s' := by
  intro hbegun j q hq hearly
  by_cases hl : l = .forceFlush
  · subst hl
    simp only [step] at hs
    split_ifs at hs with hp
    obtain ⟨u, -, rfl⟩ := Option.map_eq_some_iff.mp hs
    rw [List.take_length]
    exact h.settled j q hq (hC rfl hp j q hq hearly)
  · obtain ⟨⟨es, hlog⟩, hseen, hb⟩ := begun_step hs hl
    have htake : s'.log.take s'.seen = s.log.take s.seen := by
      rw [hlog, hseen, List.take_append_of_le_length h.seen_le]
    rw [htake]
    rcases relay_of_step hs hq with hq | ⟨he, -, -⟩ | ⟨r, l', tenantId, now, -, hr, ht, hqr, -⟩
    · exact hE (hb hbegun) j q hq hearly
    · rw [he] at hearly
      have hserving : s.phase = .serving := by simpa using hearly
      have := hb hbegun
      rw [hserving] at this
      cases this
    · have hre : r.early = true := by rw [hqr] at hearly; exact hearly
      obtain ⟨e, hmem, h1, h2, h3⟩ := hE (hb hbegun) j r hr hre
      have hover : r.task.pc.over = true := by
        by_contra hno
        have := ((h.settling j r hr).open (by simpa using hno)).1
        rw [h3] at this
        cases this
      refine ⟨e, hmem, h1, ?_, ?_⟩
      · rw [hqr]; exact h2
      · rw [(over_step hover ht).2]; exact h3

/-- Only the client, when it leaves, gives the body up. -/
theorem rxAlive_step {ctx : Ctx} {t t' : Proxy.Forward.State} {l : Proxy.Forward.Label}
    (hs : Proxy.Forward.step ctx t l = some t') (h : t'.chan.rxAlive = false) :
    t.chan.rxAlive = false ∨ l = .clientDrop := by
  cases Proxy.Forward.move_of_step ctx hs with
  | clientDrop => exact Or.inr rfl
  | stopSignal w item e hpc hw ht =>
    rw [(Proxy.Relay.afterSignal_spec ctx _ e).2.1] at h
    exact Or.inl h
  | announceSent ev o c hpc hc =>
    rcases Proxy.Relay.sendToClient_cases hc with ⟨-, -, -, hrx⟩ | ⟨-, -, rfl, -⟩ | ⟨-, -, rfl⟩
    · rw [← hrx]; cases o <;> exact Or.inl h
    · cases o <;> exact Or.inl h
    · cases o <;> exact Or.inl h
  | chunkSent ev o c b hpc hc =>
    rcases Proxy.Relay.sendToClient_cases hc with ⟨-, -, -, hrx⟩ | ⟨-, -, rfl, -⟩ | ⟨-, -, rfl⟩
    · rw [← hrx]; cases o <;> exact Or.inl h
    · cases o <;> exact Or.inl h
    · cases o <;> exact Or.inl h
  | signalSent ev o c item e hpc hc =>
    rw [(Proxy.Relay.afterSignal_spec ctx _ e).2.1] at h
    rcases Proxy.Relay.sendToClient_cases hc with ⟨-, -, -, hrx⟩ | ⟨-, -, rfl, -⟩ | ⟨-, -, rfl⟩
    · rw [← hrx]; exact Or.inl h
    · exact Or.inl h
    · exact Or.inl h
  | abort hpc =>
    left
    simp only [Proxy.Forward.Channel.trySendPanicked] at h
    split_ifs at h <;> exact h
  | _ => exact Or.inl h

theorem phase_step (hs : step s l = some s') (hl : ¬ ∃ g, l = .drained g) (h1 : s'.phase ≠ .serving)
    (h2 : s'.phase ≠ .draining) : s.phase ≠ .serving ∧ s.phase ≠ .draining := by
  cases l with
  | drained g => exact absurd ⟨g, rfl⟩ hl
  | head i ctx keyId keyName upstream w =>
    simp only [step] at hs
    split at hs
    · cases hs
    · split_ifs at hs
      cases hs
      exact ⟨h1, h2⟩
  | relay i l' tenantId now =>
    simp only [step, Option.bind_eq_some_iff, Option.map_eq_some_iff] at hs
    obtain ⟨r, hr, t, ht, rfl⟩ := hs
    exact ⟨h1, h2⟩
  | enter =>
    cases hs
    exact ⟨h1, h2⟩
  | leave =>
    simp only [step] at hs
    split_ifs at hs
    cases hs
    exact ⟨h1, h2⟩
  | beginDrain =>
    simp only [step] at hs
    split_ifs at hs
    cases hs
    exact absurd rfl h2
  | flushTimeout =>
    simp only [step] at hs
    split_ifs at hs with hp
    rw [hp]
    exact ⟨by simp, by simp⟩
  | forceFlush =>
    simp only [step] at hs
    split_ifs at hs with hp
    rw [hp]
    exact ⟨by simp, by simp⟩
  | flush l =>
    simp only [step] at hs
    split_ifs at hs
    obtain ⟨u, -, rfl⟩ := Option.map_eq_some_iff.mp hs
    by_cases hp : s.phase = .flushing
    · rw [hp]
      exact ⟨by simp, by simp⟩
    · simp only [Phase.afterFlush, hp, if_false] at h1 h2
      exact ⟨h1, h2⟩
  | returns =>
    simp only [step] at hs
    split at hs
    · next hp => rw [hp]; exact ⟨by simp, by simp⟩
    · next hp => rw [hp]; exact ⟨by simp, by simp⟩
    · cases hs

theorem waited_step (hW : Waited s) (hC : Stays s l ∧ Drains l)
    (hs : step s l = some s') : Waited s' := by
  have hfirst : ∀ i r, s'.relays.lookup i = some r → r.task.chan.rxAlive = false → r.task.pc.over = true := by
    intro j q hq hrx
    rcases relay_of_step hs hq with hq | ⟨-, hrx', -⟩ | ⟨r, l', tenantId, now, rfl, hr, ht, -, -⟩
    · exact hW.1 j q hq hrx
    · rw [hrx] at hrx'; cases hrx'
    · have hover : r.task.pc.over = true := by
        rcases rxAlive_step ht hrx with hrx' | rfl
        · exact hW.1 j r hr hrx'
        · exact hC.1 r hr
      rw [(over_step hover ht).1]
      exact hover
  refine ⟨hfirst, fun h1 h2 j q hq hearly => ?_⟩
  have hold : s.phase ≠ .serving → s.phase ≠ .draining → q.task.pc.over = true := by
    intro h1 h2
    rcases relay_of_step hs hq with hq | ⟨he, -, -⟩ | ⟨r, l', tenantId, now, -, hr, ht, hqr, -⟩
    · exact hW.2 h1 h2 j q hq hearly
    · rw [he] at hearly
      exact absurd (by simpa using hearly) h1
    · have hre : r.early = true := by rw [hqr] at hearly; exact hearly
      have hover := hW.2 h1 h2 j r hr hre
      rw [(over_step hover ht).1]
      exact hover
  by_cases hl : ∃ g, l = .drained g
  · obtain ⟨g, rfl⟩ := hl
    have hg : g = false := hC.2
    subst hg
    simp only [step, Bool.false_eq_true, false_or] at hs
    split_ifs at hs with hp
    cases hs
    refine hW.1 j q hq ?_
    by_contra hrx
    have hpos := countVal_pos (p := fun r : Relay => r.task.chan.rxAlive).mpr ⟨j, q, hq, by simpa using hrx⟩
    have hle : countVal (fun r : Relay => r.task.chan.rxAlive) s.relays ≤ activeCount s :=
      Nat.le_add_right _ _
    exact absurd (hle.trans_eq hp.2) (Nat.not_le.mpr hpos)
  · exact hold (phase_step hs hl h1 h2).1 (phase_step hs hl h1 h2).2

end early

/-! ### When `shutdown` returns -/

/-- The usage of every early request is in its key's row: the row is the total of the first `n` calls of
`accumulate_usage`, and the one call of that request is among them. -/
def Included (db : Db) (s : State) : Prop :=
  ∀ i r, s.relays.lookup i = some r → r.early = true →
    ∃ n, ∃ e ∈ s.log.take n, e.request = i ∧ e.keyId = r.keyId ∧ r.task.ledger = [e.delta] ∧
      s.usage.db.lookup r.keyId = some (toRow (totals (loadUsage db) (s.log.take n) r.keyId))

/-- `shutdown` has returned, `drain` read zero and the forced flush succeeded. -/
def Returned (s : State) : Prop := s.phase = .returned true ∧ s.reachedZero = true

theorem included_of_inv {db : Db} {s : State} (h : Inv (loadUsage db) s) (hE : EarlySettled s)
    (hp : s.phase = .returned true) : Included db s := by
  intro i r hr hearly
  obtain ⟨e, he, h1, h2, h3⟩ := hE (by rw [hp]; rfl) i r hr hearly
  have hph := h.phase
  simp only [PhaseOk, hp] at hph
  obtain ⟨m, hm, -, hrow⟩ := hph e he
  refine ⟨m, e, List.take_subset_take_left _ hm he, h1, h2, h3, ?_⟩
  rw [← h2]
  exact hrow

/-- **Usage across a shutdown.** If no early request has an unfinished forward task when the forced flush
takes its batch, the rows include the usage of every early request once `shutdown` has returned. So it is
in particular if `drain` reads zero and no client leaves before its forward task is over. -/
theorem shutdown_keeps_usage (db : Db) (ls : List Label) (s : State) (hs : run step (init db) ls = some s)
    (hret : Returned s) :
    (AllSteps step Prompt (init db) ls → Included db s) ∧
      (AllSteps step (fun s l => Stays s l ∧ Drains l) (init db) ls → Included db s) := by
  have hkey : AllSteps step Prompt (init db) ls → Included db s := by
    intro hC
    obtain ⟨hI, hE⟩ := run_invariant_of (I := fun s => Inv (loadUsage db) s ∧ EarlySettled s)
      (fun s l s' h hC hs => ⟨inv_step h.1 hs, earlySettled_step h.1 h.2 hC hs⟩) ls (init db) s
      ⟨inv_init db, fun h => (by cases h)⟩ hC hs
    exact included_of_inv hI hE hret.1
  refine ⟨hkey, fun hC => hkey ?_⟩
  have hinit : Waited (init db) := ⟨fun i r hr => (by cases hr), fun h => absurd rfl h⟩
  refine allSteps_of_invariant (fun s l s' h hC hs => waited_step h hC hs) ?_ ls (init db) hinit hC
  intro s l hW _ _ hp
  exact hW.2 (by rw [hp]; simp) (by rw [hp]; simp)

/-- The context of a request that reports nothing. -/
def quiet : Ctx := ⟨1, 3, false, fun _ => none⟩

/-- The phases a new relay sees before the shutdown. -/
def running : Watch := ⟨.running, false, false⟩

/-- A response that ends, and its client, before the shutdown; then the shutdown. -/
def orderly : List Label :=
  [.enter, .head 1 quiet "k" "main" [.ok (some (.proxyResponseEnd 1 true))] running,
    .relay 1 .loopTop "alpha" 7, .relay 1 .read "alpha" 7, .beginDrain, .relay 1 .clientDrop "alpha" 7,
    .drained false, .forceFlush, .flush (.transaction true), .flush (.execute true),
    .flush (.commit true), .flush .mark, .returns]

/-- The client leaves first. Its ticket is gone while the forward task still waits in `abandon`. -/
def hasty : List Label :=
  [.enter, .head 1 quiet "k" "main" [.ok (some (.proxyResponseEnd 1 true))] running,
    .relay 1 .loopTop "alpha" 7, .relay 1 .clientDrop "alpha" 7, .beginDrain,
    .relay 1 .txClosed "alpha" 7, .drained false, .forceFlush, .relay 1 .abort "alpha" 7, .returns]

theorem shutdown_keeps_usage_orderly : ∃ s, run step (init ∅) orderly = some s ∧ Included ∅ s ∧
    (s.relays.lookup 1).map (·.early) = some true := by
  obtain ⟨s, hs, hret, hearly⟩ := exists_run step (init ∅) orderly
    (fun s => (s.phase = .returned true ∧ s.reachedZero = true) ∧
      (s.relays.lookup 1).map (·.early) = some true) (by decide +kernel)
  refine ⟨s, hs, (shutdown_keeps_usage ∅ orderly s hs hret).2 ?_, hearly⟩
  decide +kernel

/-- The usage of a request whose client leaves during the shutdown is lost. -/
theorem shutdown_loses_usage : ∃ s, run step (init ∅) hasty = some s ∧ Returned s ∧ ¬ Included ∅ s := by
  obtain ⟨s, hs, hret, hearly, hrow⟩ := exists_run step (init ∅) hasty
    (fun s => (s.phase = .returned true ∧ s.reachedZero = true) ∧
      ((s.relays.lookup 1).map fun r => (r.early, r.keyId)) = some (true, "k") ∧
      s.usage.db.lookup "k" = none) (by decide +kernel)
  refine ⟨s, hs, hret, fun h => ?_⟩
  obtain ⟨r, hr, he⟩ := Option.map_eq_some_iff.mp hearly
  obtain ⟨hearly, hkey⟩ := Prod.mk.inj he
  obtain ⟨n, e, -, -, -, -, hdb⟩ := h 1 r hr hearly
  rw [hkey, hrow] at hdb
  cases hdb

end HomeLlmGateway.Gateway.Settlement
