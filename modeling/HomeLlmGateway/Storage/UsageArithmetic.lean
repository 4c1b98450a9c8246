import HomeLlmGateway.Storage.Attribution

/-! # The arithmetic of the usage store

The counters of `gateway/src/storage/usage.rs` and what is shown of them, with their additions modulo `2 ^ 64`
and their columns of 63 bits and a sign, beside a book that counts in natural numbers and for which a flush and
a restart are nothing. Code and book agree, and go on to do so over every flush and restart, exactly if the
book stays within bounds (`sound_iff`): each counter of a key below `2 ^ 63`, and the totals of each tenant
below `2 ^ 64`.

An event is a call from its start to its end; `after_reaches` says that events are runs of `Storage.Usage`. -/

namespace HomeLlmGateway.Storage.UsageArithmetic

open HomeLlmGateway.Lib.Runs HomeLlmGateway.Lib.Assoc HomeLlmGateway.Storage.Usage
open HomeLlmGateway.Storage.UsageLedger (Counters snapCounters deltaCounters AllFlushed lookup_loadUsage
  snapCounters_add recordOf_of_lookup mem_takeBatch nodup_takeBatch lookup_mark loadCol_toInt64)
open HomeLlmGateway.Storage.Attribution (Totals tenantTotals tenantTotals_eq shareOf snapTotals)

/-! ### What is shown -/

/-- `KeyUsageInfo`. -/
structure KeyUsageInfo where
  keyId : String
  tenantId : String
  name : String
  promptTokens : UInt64
  completionTokens : UInt64
  totalTokens : UInt64
  requests : UInt64
  estimatedRequests : UInt64
  lastUsedAt : UInt64

/-- `cell_to_info`. -/
def cellToInfo (keyId : String) (snap : UsageSnapshot) : KeyUsageInfo where
  keyId := keyId
  tenantId := snap.tenantId
  name := snap.name
  promptTokens := snap.promptTokens
  completionTokens := snap.completionTokens
  totalTokens := snap.promptTokens + snap.completionTokens
  requests := snap.requests
  estimatedRequests := snap.estimatedRequests
  lastUsedAt := snap.lastUsedAt

/-- `UsageStore::of`. -/
def usageOf (usage : HashMap String UsageRecord) (keyId : String) : Option KeyUsageInfo :=
  (usage.lookup keyId).map fun r => cellToInfo keyId r.current

/-- Prompt tokens, completion tokens, their sum, requests, estimated requests. -/
abbrev Numbers := ℕ × ℕ × ℕ × ℕ × ℕ

def KeyUsageInfo.numbers (i : KeyUsageInfo) : Numbers :=
  (i.promptTokens.toNat, i.completionTokens.toNat, i.totalTokens.toNat, i.requests.toNat,
    i.estimatedRequests.toNat)

def totalsToNat (t : Totals) : ℕ × ℕ × ℕ × ℕ := (t.1.toNat, t.2.1.toNat, t.2.2.1.toNat, t.2.2.2.toNat)

/-! ### The events -/

/-- A tenant has an id. -/
abbrev TenantId := {t : String // t ≠ ""}

inductive Event where
  /-- `accumulate` -/
  | settle (keyId : String) (tenantId : TenantId) (name : String) (delta : UsageDelta) (now : UInt64)
  /-- `flush_once` -/
  | flush (force ok : Bool)
  /-- `flush_once` succeeds and the process starts again -/
  | reboot (force : Bool)

/-- A `flush_once` that succeeds. -/
def flushOnce (s : State) (force : Bool) : State :=
  let batch := takeBatch s.usage force
  { s with
    usage := updateAll UsageRecord.mark s.usage batch
    db := insertAll s.db (batch.map fun p => (p.1, toRow p.2))
    returned := some batch.length }

def apply (s : State) : Event → State
  | .settle keyId tenantId name delta now =>
    { s with usage := accumulate s.usage keyId tenantId name delta now }
  | .flush force true => flushOnce s force
  | .flush _ false => { s with returned := some 0 }
  | .reboot force => init (flushOnce s force).db

/-- The store after these events, which begin with an empty table. -/
def after (es : List Event) : State := es.foldl apply (init ∅)

section reaches

variable {s : State}

theorem run_execute (batch : List (String × UsageSnapshot)) :
    ∀ (todo : List (String × UsageSnapshot)) (tx : Db) (written : ℕ),
      run step { s with flush := .writing batch todo tx written } (todo.map fun _ => .execute true) =
        some { s with
          flush := .writing batch [] (insertAll tx (todo.map fun p => (p.1, toRow p.2))) (written + todo.length) }
  | [], _, _ => rfl
  | p :: todo, tx, written => by
    have hlength : written + (p :: todo).length = written + 1 + todo.length := by
      rw [List.length_cons]
      omega
    rw [hlength]
    exact run_execute batch todo (tx.insert p.1 (toRow p.2)) (written + 1)

theorem reaches_flushOnce (hflush : s.flush = .idle) (hdb : s.hasDb = true) (force : Bool) :
    Reaches step s (flushOnce s force) := by
  obtain ⟨usage, hasDb, db, flush, returned⟩ := s
  dsimp only at hflush hdb
  subst hflush hdb
  by_cases hempty : (takeBatch usage force).isEmpty = true
  · refine ⟨[.flushOnce force], run_cons_eq_some.mpr ⟨_, ?_, rfl⟩⟩
    have hnil := List.isEmpty_iff.mp hempty
    unfold flushOnce
    simp only [step, hnil]
    rfl
  · have hbegin : step ⟨usage, true, db, .idle, returned⟩ (.flushOnce force) =
        some ⟨usage, true, db, .batched (takeBatch usage force), returned⟩ := by
      simp [step, hempty]
    have hrows := run_execute (s := ⟨usage, true, db, .idle, returned⟩) (takeBatch usage force)
      (takeBatch usage force) db 0
    refine ⟨.flushOnce force :: .transaction true ::
      (((takeBatch usage force).map fun _ => .execute true) ++ [.commit true, .mark]), ?_⟩
    refine run_cons_eq_some.mpr ⟨_, hbegin, run_cons_eq_some.mpr ⟨_, rfl, ?_⟩⟩
    rw [run_append]
    refine Option.bind_eq_some_iff.mpr ⟨_, hrows, ?_⟩
    rw [Nat.zero_add]
    rfl

theorem reaches_apply (hflush : s.flush = .idle) (hdb : s.hasDb = true) :
    ∀ e, Reaches step s (apply s e)
  | .settle keyId tenantId name delta now => ⟨[.accumulate keyId tenantId name delta now], rfl⟩
  | .flush force true => reaches_flushOnce hflush hdb force
  | .flush force false => by
    obtain ⟨usage, hasDb, db, flush, returned⟩ := s
    dsimp only at hflush hdb
    subst hflush hdb
    by_cases hempty : (takeBatch usage force).isEmpty = true
    · refine ⟨[.flushOnce force], run_cons_eq_some.mpr ⟨_, ?_, rfl⟩⟩
      simp [step, hempty, apply]
    · refine ⟨[.flushOnce force, .transaction false], run_cons_eq_some.mpr
        ⟨⟨usage, true, db, .batched (takeBatch usage force), returned⟩, ?_, rfl⟩⟩
      simp [step, hempty]
  | .reboot force => (reaches_flushOnce hflush hdb force).tail (l := .restart true) rfl

theorem after_concat (es : List Event) (e : Event) : after (es ++ [e]) = apply (after es) e :=
  List.foldl_concat ..

theorem idle_after (es : List Event) : (after es).flush = .idle ∧ (after es).hasDb = true := by
  induction es using List.reverseRecOn with
  | nil => exact ⟨rfl, rfl⟩
  | append_singleton es e ih =>
    rw [after_concat]
    cases e with
    | settle => exact ih
    | flush force ok => cases ok <;> exact ih
    | reboot => exact ⟨rfl, rfl⟩

/-- Events are runs of the store. -/
theorem after_reaches (es : List Event) : Reaches step (init ∅) (after es) := by
  induction es using List.reverseRecOn with
  | nil => exact .refl _
  | append_singleton es e ih =>
    rw [after_concat]
    obtain ⟨ls, hls⟩ := ih
    obtain ⟨ls', hls'⟩ := reaches_apply (idle_after es).1 (idle_after es).2 e
    refine ⟨ls ++ ls', ?_⟩
    rw [run_append, hls]
    exact hls'

end reaches

/-! ### The book -/

/-- What a key has used. -/
structure Account where
  tenantId : String
  counters : Counters

def Account.numbers (a : Account) : Numbers :=
  (a.counters.1, a.counters.2.1, a.counters.1 + a.counters.2.1, a.counters.2.2.1, a.counters.2.2.2)

/-- What it counts for the tenant `t`. -/
def Account.share (t : String) (a : Account) : ℕ × ℕ × ℕ × ℕ :=
  if a.tenantId = t then (a.counters.1, a.counters.2.1, a.counters.1 + a.counters.2.1, a.counters.2.2.1) else 0

abbrev Book := HashMap String Account

/-- The key belongs to the tenant of its first request. -/
def Book.settle (b : Book) (keyId tenantId : String) (delta : UsageDelta) : Book :=
  b.insert keyId (match b.lookup keyId with
    | none => ⟨tenantId, deltaCounters delta⟩
    | some a => { a with counters := a.counters + deltaCounters delta })

def Book.record (b : Book) : Event → Book
  | .settle keyId tenantId _ delta _ => b.settle keyId tenantId delta
  | .flush _ _ => b
  | .reboot _ => b

def book (es : List Event) : Book := es.foldl Book.record ∅

def Book.totals (b : Book) (t : String) : ℕ × ℕ × ℕ × ℕ := sumVal (Account.share t) b

/-- The bounds of the columns and of the sums. -/
def Bounded (b : Book) : Prop :=
  (∀ k a, b.lookup k = some a → UsageLedger.Small a.counters) ∧
    ∀ t, (b.totals t).2.2.1 < 2 ^ 64 ∧ (b.totals t).2.2.2 < 2 ^ 64

/-! ### Soundness -/

/-- What the store shows is what the book says. -/
def Shows (s : State) (b : Book) : Prop :=
  (∀ k, (usageOf s.usage k).map KeyUsageInfo.numbers = (b.lookup k).map Account.numbers) ∧
    ∀ t, totalsToNat (tenantTotals s.usage t) = b.totals t

/-- Nothing that is shown has decreased. -/
def Grown (s s' : State) : Prop :=
  (∀ k i, usageOf s.usage k = some i →
    ∃ i', usageOf s'.usage k = some i' ∧ i.numbers ≤ i'.numbers) ∧
    ∀ t, totalsToNat (tenantTotals s.usage t) ≤ totalsToNat (tenantTotals s'.usage t)

/-- The same is shown. -/
def Same (s s' : State) : Prop :=
  (∀ k, (usageOf s'.usage k).map KeyUsageInfo.numbers = (usageOf s.usage k).map KeyUsageInfo.numbers) ∧
    ∀ t, tenantTotals s'.usage t = tenantTotals s.usage t

/-- The arithmetic is sound along the events. -/
structure Sound (es : List Event) : Prop where
  /-- no addition wraps around (or panics): every number is the sum that it stands for -/
  exact : ∀ es', es' <+: es → Shows (after es') (book es')
  grows : ∀ es1 es2, es1 <+: es2 → es2 <+: es → Grown (after es1) (after es2)
  /-- a flush that succeeds and a restart -/
  kept : ∀ es', es' <+: es → ∀ force, Same (after es') (apply (after es') (.reboot force))

/-! ### The book only grows -/

/-- Accounts and totals are at least what they were. -/
structure Book.Le (b b' : Book) : Prop where
  accounts : ∀ k a, b.lookup k = some a → ∃ a', b'.lookup k = some a' ∧ a.counters ≤ a'.counters
  totals : ∀ t, b.totals t ≤ b'.totals t

theorem Book.Le.refl (b : Book) : Book.Le b b := ⟨fun _ a h => ⟨a, h, le_rfl⟩, fun _ => le_rfl⟩

theorem Book.Le.trans {b b' b'' : Book} (h : Book.Le b b') (h' : Book.Le b' b'') : Book.Le b b'' := by
  refine ⟨fun k a ha => ?_, fun t => (h.totals t).trans (h'.totals t)⟩
  obtain ⟨a', ha', hle⟩ := h.accounts k a ha
  obtain ⟨a'', ha'', hle'⟩ := h'.accounts k a' ha'
  exact ⟨a'', ha'', hle.trans hle'⟩

theorem Account.numbers_le {a a' : Account} (h : a.counters ≤ a'.counters) : a.numbers ≤ a'.numbers := by
  obtain ⟨h1, h2, h3, h4⟩ := h
  exact ⟨h1, h2, add_le_add h1 h2, h3, h4⟩

theorem Account.share_add (t : String) (a : Account) (c : Counters) :
    Account.share t { a with counters := a.counters + c } =
      Account.share t a + Account.share t { a with counters := c } := by
  unfold Account.share
  split_ifs
  · simp only [Prod.fst_add, Prod.snd_add, Prod.mk_add_mk, add_add_add_comm]
  · rfl

theorem le_settle (b : Book) (keyId tenantId : String) (delta : UsageDelta) :
    Book.Le b (b.settle keyId tenantId delta) := by
  unfold Book.settle
  cases hb : b.lookup keyId with
  | none =>
    refine ⟨fun k a ha => ⟨a, ?_, le_rfl⟩, fun t => ?_⟩
    · rw [lookup_insert, if_neg, ha]
      rintro rfl
      rw [hb] at ha
      cases ha
    · unfold Book.totals
      rw [sumVal_insert_of_none _ _ hb]
      exact le_add_self
  | some a0 =>
    refine ⟨fun k a ha => ?_, fun t => ?_⟩
    · rw [lookup_insert]
      split_ifs with hk
      · rw [hk, hb] at ha
        cases ha
        exact ⟨_, rfl, le_self_add⟩
      · exact ⟨a, ha, le_rfl⟩
    · unfold Book.totals
      rw [sumVal_replace _ hb (Account.share_add t a0 (deltaCounters delta))]
      exact le_self_add

theorem le_record (b : Book) (e : Event) : Book.Le b (b.record e) := by
  cases e with
  | settle keyId tenantId name delta now => exact le_settle b keyId tenantId delta
  | flush | reboot => exact .refl b

theorem book_concat (es : List Event) (e : Event) : book (es ++ [e]) = (book es).record e :=
  List.foldl_concat ..

theorem book_le {es es' : List Event} (h : es <+: es') : Book.Le (book es) (book es') := by
  obtain ⟨l, rfl⟩ := h
  induction l using List.reverseRecOn with
  | nil =>
    rw [List.append_nil]
    exact .refl _
  | append_singleton l e ih =>
    rw [← List.append_assoc, book_concat]
    exact ih.trans (le_record _ e)

theorem Bounded.mono {b b' : Book} (hle : Book.Le b b') (h : Bounded b') : Bounded b := by
  refine ⟨fun k a ha => ?_, fun t => ?_⟩
  · obtain ⟨a', ha', h1, h2, h3, h4⟩ := hle.accounts k a ha
    obtain ⟨g1, g2, g3, g4⟩ := h.1 k a' ha'
    exact ⟨lt_of_le_of_lt h1 g1, lt_of_le_of_lt h2 g2, lt_of_le_of_lt h3 g3, lt_of_le_of_lt h4 g4⟩
  · obtain ⟨-, -, h3, h4⟩ := hle.totals t
    exact ⟨lt_of_le_of_lt h3 (h.2 t).1, lt_of_le_of_lt h4 (h.2 t).2⟩

/-! ### Store and book -/

/-- What a snapshot says of its key. -/
def account (v : UsageSnapshot) : Account := ⟨v.tenantId, snapCounters v⟩

/-- Memory is the book, and the rows load to what was flushed. -/
structure Agrees (s : State) (b : Book) : Prop where
  memory : ∀ k, (s.usage.lookup k).map (fun r => account r.current) = b.lookup k
  rows : ∀ k r, s.usage.lookup k = some r → r.everFlushed = true →
    (s.db.lookup k).map (fun row => account (loadRow row)) = some (account r.flushed)
  known : ∀ k, s.usage.lookup k = none → s.db.lookup k = none

section agrees

variable {s : State} {b : Book}

theorem account_load {v : UsageSnapshot} (h : UsageLedger.Small (snapCounters v)) :
    account (loadRow (toRow v)) = account v := by
  obtain ⟨h1, h2, h3, h4⟩ := h
  simp only [account, snapCounters, loadRow, toRow, loadCol_toInt64 h1, loadCol_toInt64 h2, loadCol_toInt64 h3,
    loadCol_toInt64 h4]

theorem Agrees.account_of (h : Agrees s b) {k : String} {r : UsageRecord} (hr : s.usage.lookup k = some r) :
    b.lookup k = some (account r.current) := by
  rw [← h.memory k, hr, Option.map_some]

theorem account_add {v : UsageSnapshot} {tenantId name : String} {d : UsageDelta} {now : UInt64}
    (h : UsageLedger.Small (snapCounters v + deltaCounters d)) : account (v.add tenantId name d now) =
      ⟨if v.tenantId.isEmpty then tenantId else v.tenantId, snapCounters v + deltaCounters d⟩ := by
  unfold account
  rw [snapCounters_add h]
  rfl

theorem Agrees.account_settle (h : Agrees s b) {k name : String} {tenantId : TenantId} {d : UsageDelta}
    {now : UInt64} (htenants : ∀ k a, b.lookup k = some a → a.tenantId ≠ "")
    (hbound : Bounded (b.settle k tenantId d)) :
    (b.settle k tenantId d).lookup k = some (account ((recordOf s.usage k).current.add tenantId name d now)) := by
  have hsmall := hbound.1 k
  unfold Book.settle at hsmall ⊢
  rw [lookup_insert, if_pos rfl] at hsmall ⊢
  cases hr : s.usage.lookup k with
  | none =>
    have hb : b.lookup k = none := by
      rw [← h.memory k, hr]
      rfl
    have hrec : recordOf s.usage k = .default := by
      unfold recordOf
      rw [hr]
      rfl
    rw [hb] at hsmall ⊢
    have hfit : UsageLedger.Small (snapCounters UsageRecord.default.current + deltaCounters d) := by
      show UsageLedger.Small (0 + deltaCounters d)
      rw [zero_add]
      exact hsmall _ rfl
    rw [hrec, account_add hfit]
    show some (Account.mk tenantId (deltaCounters d)) = some ⟨tenantId, 0 + deltaCounters d⟩
    rw [zero_add]
  | some r =>
    have hb := h.account_of hr
    have hne : r.current.tenantId.isEmpty = false := by
      rw [Bool.eq_false_iff]
      exact fun he => htenants k _ hb (String.isEmpty_iff.mp he)
    rw [hb] at hsmall ⊢
    rw [recordOf_of_lookup hr, account_add (hsmall _ rfl), hne]
    rfl

theorem Agrees.settle (h : Agrees s b) {k name : String} {tenantId : TenantId} {d : UsageDelta} {now : UInt64}
    (htenants : ∀ k a, b.lookup k = some a → a.tenantId ≠ "") (hbound : Bounded (b.settle k tenantId d)) :
    Agrees (apply s (.settle k tenantId name d now)) (b.settle k tenantId d) := by
  have hlookup : ∀ k', (accumulate s.usage k tenantId name d now).lookup k' =
      if k' = k then some { recordOf s.usage k with
        current := (recordOf s.usage k).current.add tenantId name d now } else s.usage.lookup k' :=
    fun k' => lookup_insert _ _ _ _
  refine ⟨fun k' => ?_, fun k' r hr hflushed => ?_, fun k' hk' => ?_⟩
  · show ((accumulate s.usage k tenantId name d now).lookup k').map _ = _
    rw [hlookup]
    split_ifs with hk
    · subst hk
      rw [h.account_settle htenants hbound]
      rfl
    · unfold Book.settle
      rw [h.memory k', lookup_insert, if_neg hk]
  · change (accumulate s.usage k tenantId name d now).lookup k' = some r at hr
    show (s.db.lookup k').map _ = _
    rw [hlookup] at hr
    split_ifs at hr with hk
    · subst hk
      cases hr
      -- a record that was flushed was there before
      cases hold : s.usage.lookup k' with
      | none =>
        simp only [recordOf, hold, Option.getD_none, UsageRecord.default] at hflushed
        cases hflushed
      | some r0 =>
        rw [recordOf_of_lookup hold] at hflushed ⊢
        exact h.rows k' r0 hold hflushed
    · exact h.rows k' r hr hflushed
  · change (accumulate s.usage k tenantId name d now).lookup k' = none at hk'
    rw [hlookup] at hk'
    split_ifs at hk'
    exact h.known k' hk'

theorem allFlushed_flushOnce (s : State) (force : Bool) : AllFlushed (flushOnce s force) := by
  intro k r hr
  have hnodup := nodup_takeBatch s.usage force
  rcases lookup_mark s.usage hnodup k with ⟨he, hn⟩ | ⟨v, hv, he⟩
  · change (updateAll UsageRecord.mark s.usage (takeBatch s.usage force)).lookup k = some r at hr
    rw [he] at hr
    by_contra hpending
    refine hn (List.mem_map.mpr ⟨(k, r.current), mem_takeBatch.mpr ⟨r, hr, Or.inr ?_, rfl⟩, rfl⟩)
    unfold UsageRecord.pending
    by_contra hp
    simp only [Bool.or_eq_true, Bool.not_eq_true', bne_iff_ne, not_or, Bool.not_eq_false, not_not] at hp
    exact hpending ⟨hp.1, hp.2.symm⟩
  · change (updateAll UsageRecord.mark s.usage (takeBatch s.usage force)).lookup k = some r at hr
    obtain ⟨r0, hr0, -, rfl⟩ := mem_takeBatch.mp hv
    rw [he, hr0, Option.map_some, Option.some_inj] at hr
    rw [← hr]
    exact ⟨rfl, rfl⟩

theorem keys_rows (batch : List (String × UsageSnapshot)) :
    (batch.map fun p => (p.1, toRow p.2)).map Prod.fst = batch.map Prod.fst := by
  rw [List.map_map]
  rfl

theorem lookup_flushOnce (s : State) (force : Bool) (k : String) :
    (flushOnce s force).db.lookup k = s.db.lookup k ∧
        (flushOnce s force).usage.lookup k = s.usage.lookup k ∨
      ∃ r, s.usage.lookup k = some r ∧ (flushOnce s force).db.lookup k = some (toRow r.current) ∧
        (flushOnce s force).usage.lookup k = some (r.mark r.current) := by
  have hnodup := nodup_takeBatch s.usage force
  rcases lookup_mark s.usage hnodup k with ⟨he, hn⟩ | ⟨v, hv, he⟩
  · exact Or.inl ⟨lookup_insertAll_of_notMem _ _ (by rw [keys_rows]; exact hn), he⟩
  · obtain ⟨r, hr, -, rfl⟩ := mem_takeBatch.mp hv
    refine Or.inr ⟨r, hr, ?_, ?_⟩
    · exact lookup_insertAll_of_mem _ s.db (by rw [keys_rows]; exact hnodup)
        (List.mem_map.mpr ⟨(k, r.current), hv, rfl⟩)
    · rw [hr] at he
      exact he

theorem lookup_forced {k : String} {r : UsageRecord} (hr : s.usage.lookup k = some r) :
    (flushOnce s true).db.lookup k = some (toRow r.current) :=
  lookup_insertAll_of_mem _ s.db (by rw [keys_rows]; exact nodup_takeBatch s.usage true)
    (List.mem_map.mpr ⟨(k, r.current), mem_takeBatch.mpr ⟨r, hr, Or.inl rfl, rfl⟩, rfl⟩)

theorem Agrees.flushOnce (h : Agrees s b) (hbound : Bounded b) (force : Bool) :
    Agrees (flushOnce s force) b := by
  refine ⟨fun k => ?_, fun k r hr hflushed => ?_, fun k hk => ?_⟩
  · rcases lookup_flushOnce s force k with ⟨-, hu⟩ | ⟨r, hr, -, hu⟩
    · rw [hu]
      exact h.memory k
    · rw [hu, h.account_of hr]
      rfl
  · rcases lookup_flushOnce s force k with ⟨hd, hu⟩ | ⟨r0, hr0, hd, hu⟩
    · rw [hu] at hr
      rw [hd]
      exact h.rows k r hr hflushed
    · rw [hu] at hr
      cases hr
      rw [hd, Option.map_some, account_load (hbound.1 k _ (h.account_of hr0))]
      rfl
  · rcases lookup_flushOnce s force k with ⟨hd, hu⟩ | ⟨r, -, -, hu⟩
    · rw [hu] at hk
      rw [hd]
      exact h.known k hk
    · rw [hu] at hk
      cases hk

theorem Agrees.reboot (h : Agrees s b) (hbound : Bounded b) (force : Bool) :
    Agrees (init (UsageArithmetic.flushOnce s force).db) b := by
  have hf := h.flushOnce hbound force
  refine ⟨fun k => ?_, fun k r hr _ => ?_, fun k hk => ?_⟩
  · show ((loadUsage _).lookup k).map _ = _
    rw [lookup_loadUsage, Option.map_map, ← hf.memory k]
    cases hu : (UsageArithmetic.flushOnce s force).usage.lookup k with
    | none =>
      rw [hf.known k hu]
      rfl
    | some r =>
      obtain ⟨hflushed, hcurrent⟩ := allFlushed_flushOnce s force k r hu
      have hrow := hf.rows k r hu hflushed
      rw [hcurrent] at hrow
      exact hrow
  · change (loadUsage _).lookup k = some r at hr
    rw [lookup_loadUsage] at hr
    obtain ⟨row, hrow, rfl⟩ := Option.map_eq_some_iff.mp hr
    exact congrArg (Option.map fun row => account (loadRow row)) hrow
  · change (loadUsage _).lookup k = none at hk
    rw [lookup_loadUsage] at hk
    exact Option.map_eq_none_iff.mp hk

end agrees

theorem tenants_of_book (es : List Event) : ∀ k a, (book es).lookup k = some a → a.tenantId ≠ "" := by
  induction es using List.reverseRecOn with
  | nil =>
    intro k a h
    cases h
  | append_singleton es e ih =>
    intro k a h
    rw [book_concat] at h
    cases e with
    | settle keyId tenantId name delta now =>
      change ((book es).settle keyId tenantId delta).lookup k = some a at h
      unfold Book.settle at h
      rw [lookup_insert] at h
      split_ifs at h
      · cases hb : (book es).lookup keyId with
        | none =>
          rw [hb] at h
          cases h
          exact tenantId.2
        | some a0 =>
          rw [hb] at h
          cases h
          exact ih keyId a0 hb
      · exact ih k a h
    | flush | reboot => exact ih k a h

/-- **As long as the book stays within bounds, the store agrees with it.** -/
theorem agrees_after (es : List Event) (h : Bounded (book es)) : Agrees (after es) (book es) := by
  induction es using List.reverseRecOn with
  | nil =>
    refine ⟨fun k => rfl, fun k r hr => ?_, fun k _ => rfl⟩
    cases hr
  | append_singleton es e ih =>
    have hbefore := h.mono (book_le (List.prefix_append es [e]))
    rw [book_concat] at h ⊢
    rw [after_concat]
    cases e with
    | settle => exact (ih hbefore).settle (tenants_of_book es) h
    | flush force ok =>
      cases ok with
      | false => exact ⟨(ih hbefore).memory, (ih hbefore).rows, (ih hbefore).known⟩
      | true => exact (ih hbefore).flushOnce hbefore force
    | reboot force => exact (ih hbefore).reboot hbefore force

/-! ### What is shown -/

/-- A number modulo `2 ^ 64`. -/
def ofNat64 : ℕ →+ UInt64 where
  toFun := UInt64.ofNat
  map_zero' := rfl
  map_add' := UInt64.ofNat_add

/-- Totals modulo `2 ^ 64`. -/
def ofNats : ℕ × ℕ × ℕ × ℕ →+ Totals :=
  ofNat64.prodMap (ofNat64.prodMap (ofNat64.prodMap ofNat64))

theorem ofNats_apply (n : ℕ × ℕ × ℕ × ℕ) : ofNats n =
    (UInt64.ofNat n.1, UInt64.ofNat n.2.1, UInt64.ofNat n.2.2.1, UInt64.ofNat n.2.2.2) := rfl

theorem shareOf_eq (t : String) (r : UsageRecord) :
    shareOf t r = ofNats (Account.share t (account r.current)) := by
  unfold shareOf Account.share account
  dsimp only
  split_ifs
  · simp only [snapTotals, ofNats_apply, snapCounters, UInt64.ofNat_add, UInt64.ofNat_toNat]
  · exact (map_zero ofNats).symm

section shows

variable {s : State} {b : Book}

theorem sumVal_ofNats {ν : Type} (f : ν → ℕ × ℕ × ℕ × ℕ) (m : HashMap String ν) :
    sumVal (fun v => ofNats (f v)) m = ofNats (sumVal f m) := by
  unfold sumVal
  rw [map_list_sum, List.map_map]
  rfl

/-- The totals of a tenant are those of the book modulo `2 ^ 64`. -/
theorem Agrees.tenantTotals_eq (h : Agrees s b) (t : String) : tenantTotals s.usage t = ofNats (b.totals t) := by
  rw [Attribution.tenantTotals_eq]
  unfold Book.totals
  rw [← sumVal_ofNats]
  refine sumVal_congr fun k => ?_
  rw [← h.memory k, Option.map_map]
  exact Option.map_congr fun r _ => shareOf_eq t r

theorem totalsToNat_ofNats {n : ℕ × ℕ × ℕ × ℕ} (h1 : n.1 < 2 ^ 64) (h2 : n.2.1 < 2 ^ 64) (h3 : n.2.2.1 < 2 ^ 64)
    (h4 : n.2.2.2 < 2 ^ 64) : totalsToNat (ofNats n) = n := by
  rw [ofNats_apply]
  simp only [totalsToNat, UInt64.toNat_ofNat_of_lt' h1, UInt64.toNat_ofNat_of_lt' h2,
    UInt64.toNat_ofNat_of_lt' h3, UInt64.toNat_ofNat_of_lt' h4]

theorem totals_sum (b : Book) (t : String) : (b.totals t).2.2.1 = (b.totals t).1 + (b.totals t).2.1 := by
  unfold Book.totals sumVal
  induction values b with
  | nil => rfl
  | cons a l ih =>
    rw [List.map_cons, List.sum_cons]
    simp only [Prod.fst_add, Prod.snd_add, ih]
    unfold Account.share
    split_ifs
    · dsimp only
      omega
    · simp only [Prod.fst_zero, Prod.snd_zero]
      omega

theorem numbers_cellToInfo {v : UsageSnapshot} (h : UsageLedger.Small (snapCounters v)) (k : String) :
    (cellToInfo k v).numbers = (account v).numbers := by
  have hsum : (v.promptTokens + v.completionTokens).toNat = v.promptTokens.toNat + v.completionTokens.toNat := by
    obtain ⟨h1, h2, -, -⟩ := h
    simp only [snapCounters] at h1 h2
    rw [UInt64.toNat_add]
    exact Nat.mod_eq_of_lt (by omega)
  simp only [KeyUsageInfo.numbers, cellToInfo, Account.numbers, account, snapCounters, hsum]

theorem Agrees.shows (h : Agrees s b) (hbound : Bounded b) : Shows s b := by
  constructor
  · intro k
    unfold usageOf
    rw [← h.memory k, Option.map_map, Option.map_map]
    refine Option.map_congr fun r hr => ?_
    exact numbers_cellToInfo (hbound.1 k _ (h.account_of hr)) k
  · intro t
    obtain ⟨h3, h4⟩ := hbound.2 t
    have hsum := totals_sum b t
    rw [h.tenantTotals_eq]
    exact totalsToNat_ofNats (by omega) (by omega) h3 h4

theorem totalsToNat_inj {x y : Totals} (h : totalsToNat x = totalsToNat y) : x = y := by
  obtain ⟨h1, h2⟩ := Prod.mk.inj h
  obtain ⟨h2, h3⟩ := Prod.mk.inj h2
  obtain ⟨h3, h4⟩ := Prod.mk.inj h3
  exact Prod.ext (UInt64.toNat_inj.mp h1) (Prod.ext (UInt64.toNat_inj.mp h2)
    (Prod.ext (UInt64.toNat_inj.mp h3) (UInt64.toNat_inj.mp h4)))

theorem Shows.same {s' : State} (h : Shows s b) (h' : Shows s' b) : Same s s' :=
  ⟨fun k => (h'.1 k).trans (h.1 k).symm, fun t => totalsToNat_inj ((h'.2 t).trans (h.2 t).symm)⟩

theorem Shows.grown {s' : State} {b' : Book} (h : Shows s b) (h' : Shows s' b') (hle : Book.Le b b') :
    Grown s s' := by
  constructor
  · intro k i hi
    have hk := h.1 k
    rw [hi, Option.map_some] at hk
    obtain ⟨a, ha, hnumbers⟩ := Option.map_eq_some_iff.mp hk.symm
    obtain ⟨a', ha', hcounters⟩ := hle.accounts k a ha
    have hk' := h'.1 k
    rw [ha', Option.map_some] at hk'
    obtain ⟨i', hi', hnumbers'⟩ := Option.map_eq_some_iff.mp hk'
    refine ⟨i', hi', ?_⟩
    rw [← hnumbers, hnumbers']
    exact Account.numbers_le hcounters
  · intro t
    rw [h.2 t, h'.2 t]
    exact hle.totals t

/-! ### The bounds are needed -/

theorem toNat_loadCol_lt (x : Int64) : (loadCol x).toNat < 2 ^ 63 := by
  by_cases hx : 0 ≤ x
  · exact UsageLedger.toNat_loadCol_lt hx
  · have hmax : max x 0 = 0 := if_pos (Int64.le_of_lt (Int64.not_le.mp hx))
    unfold loadCol
    rw [hmax]
    decide

/-- What the book and the store agree on before and after a restart is within bounds. -/
theorem bounded_of_shows (h : Shows s b) (hsame : Same s (init (flushOnce s true).db)) : Bounded b := by
  refine ⟨fun k a ha => ?_, fun t => ?_⟩
  · have hk := h.1 k
    rw [ha, Option.map_some] at hk
    obtain ⟨i, hi, hnumbers⟩ := Option.map_eq_some_iff.mp hk
    obtain ⟨r, hr, rfl⟩ := Option.map_eq_some_iff.mp hi
    have hloaded : usageOf (init (flushOnce s true).db).usage k =
        some (cellToInfo k (loadRow (toRow r.current))) := by
      show ((loadUsage _).lookup k).map _ = _
      rw [lookup_loadUsage, lookup_forced hr]
      rfl
    have hkept := hsame.1 k
    rw [hloaded, hi, Option.map_some, Option.map_some, Option.some_inj, hnumbers] at hkept
    obtain ⟨h1, hrest⟩ := Prod.mk.inj hkept
    obtain ⟨h2, hrest⟩ := Prod.mk.inj hrest
    obtain ⟨-, hrest⟩ := Prod.mk.inj hrest
    obtain ⟨h3, h4⟩ := Prod.mk.inj hrest
    refine ⟨?_, ?_, ?_, ?_⟩
    · rw [← h1]
      exact toNat_loadCol_lt _
    · rw [← h2]
      exact toNat_loadCol_lt _
    · rw [← h3]
      exact toNat_loadCol_lt _
    · rw [← h4]
      exact toNat_loadCol_lt _
  · rw [← h.2 t]
    exact ⟨UInt64.toNat_lt _, UInt64.toNat_lt _⟩

end shows

/-- **Sound arithmetic.** Along any events, counters, totals and their sums are exact, never decrease, and are
kept by a flush and a restart, exactly if the book stays within bounds. -/
theorem sound_iff (es : List Event) : Sound es ↔ Bounded (book es) := by
  constructor
  · intro h
    exact bounded_of_shows (h.exact es List.prefix_rfl) (h.kept es List.prefix_rfl true)
  · intro h
    have hbound : ∀ es', es' <+: es → Bounded (book es') := fun es' hp => h.mono (book_le hp)
    have hshows : ∀ es', es' <+: es → Shows (after es') (book es') := fun es' hp =>
      (agrees_after es' (hbound es' hp)).shows (hbound es' hp)
    refine ⟨hshows, fun es1 es2 h1 h2 => ?_, fun es' hp force => ?_⟩
    · exact (hshows es1 (h1.trans h2)).grown (hshows es2 h2) (book_le h1)
    · have hreboot := (agrees_after es' (hbound es' hp)).reboot (hbound es' hp) force
      exact (hshows es' hp).same (hreboot.shows (hbound es' hp))

/-- An upstream reports `2 ^ 64 - 1` prompt tokens and one completion token. -/
def overflows : List Event :=
  [.settle "key-1" ⟨"default", by decide⟩ "laptop" ⟨18446744073709551615, 1, false⟩ 0]

/-- Their sum is shown as 0. -/
theorem not_sound : ¬ Sound overflows := by
  intro h
  exact absurd ((h.exact overflows List.prefix_rfl).1 "key-1") (by decide +kernel)

end HomeLlmGateway.Storage.UsageArithmetic
