import HomeLlmGateway.Gateway.Tenant
import HomeLlmGateway.Storage.UsageLedger
import HomeLlmGateway.Storage.Revocation
import Mathlib.Data.UInt

/-! # Which tenant a request is counted for

`Storage::accumulate_usage` (`gateway/src/storage/mod.rs`) looks the tenant of a key up when the response
has ended; for a key that is not there any more it takes the default tenant. `UsageStore::accumulate` uses
the answer only when it has no record of the key yet.

The machine is the key store (`Storage.Keys`) with its table, the usage store (`Storage.Usage`) with its
table, and the requests in flight. It starts with both tables empty, so every state of a deployment is the
end of a run. -/

namespace HomeLlmGateway.Storage.Attribution

open HomeLlmGateway.Lib.Runs HomeLlmGateway.Lib.Assoc
open HomeLlmGateway.Gateway.Tenant (defaultTenantId)
open HomeLlmGateway.Storage.Cache (KeyRecord)
open HomeLlmGateway.Storage.Keys (Config Call callStep loadKeys rowsAfter)
open HomeLlmGateway.Storage.Usage (UsageDelta UsageSnapshot UsageRecord recordOf accumulate loadUsage)
open HomeLlmGateway.Storage.UsageLedger (batchOf lookup_loadUsage mem_takeBatch recordOf_of_lookup)
open HomeLlmGateway.Storage.Versions (read result callStep_spec lookup_rowsAfter)

/-! ### Totals -/

/-- Prompt tokens, completion tokens, their sum, requests. -/
abbrev Totals := UInt64 × UInt64 × UInt64 × UInt64

/-- `tenant_totals`. -/
def tenantTotals (usage : HashMap String UsageRecord) (tenantId : String) : Totals :=
  ((values usage).filter fun r => r.current.tenantId = tenantId).foldl (fun (p, c, t, r) rec =>
    (p + rec.current.promptTokens, c + rec.current.completionTokens,
      t + rec.current.promptTokens + rec.current.completionTokens, r + rec.current.requests)) (0, 0, 0, 0)

/-- What one request adds to the totals of a tenant. -/
def deltaTotals (d : UsageDelta) : Totals :=
  (d.promptTokens, d.completionTokens, d.promptTokens + d.completionTokens, 1)

/-- `tenant_of_key`. -/
def tenantOfKey (runtime : HashMap String KeyRecord) (keyId : String) : Option String :=
  ((values runtime).find? fun r => r.id = keyId).map (·.tenantId)

/-! ### The machine -/

/-- How far a request in flight is. -/
inductive Stage where
  /-- not settled -/
  | serving
  /-- in `accumulate_usage`, with the tenant that was looked up -/
  | settling (tenantId : String) (delta : UsageDelta)
  | settled
  deriving DecidableEq

structure Request where
  /-- the record that authenticated it -/
  record : KeyRecord
  stage : Stage
  deriving DecidableEq

structure State where
  keys : Keys.State
  /-- the `api_keys` table, by lookup -/
  keyRows : HashMap String KeyRecord
  usage : Storage.Usage.State
  requests : HashMap ℕ Request
  /-- the key ids drawn so far, with the tenant of the key -/
  issued : HashMap String String
  /-- the usage that this process started with -/
  loaded : HashMap String UsageRecord
  /-- what the requests of this process have settled with, and the records that authenticated them -/
  settled : List (KeyRecord × UsageDelta)

/-- The first start. -/
def init : State where
  keys := Keys.init (loadKeys ∅)
  keyRows := ∅
  usage := Storage.Usage.init ∅
  requests := ∅
  issued := ∅
  loaded := ∅
  settled := []

/-- What happens next. -/
inductive Label where
  /-- a call on the key store -/
  | keys (l : Keys.Label)
  /-- the request `i`, authenticated by the call `c` of `authorize_record`, is let in -/
  | accept (i c : ℕ)
  /-- the request `i` settles: `accumulate_usage` looks the tenant up -/
  | lookUp (i : ℕ) (delta : UsageDelta)
  /-- `UsageStore::accumulate` -/
  | accumulate (i : ℕ) (now : UInt64)
  /-- a step of `flush_once` -/
  | flush (l : Storage.Usage.Label)
  /-- the process ends and starts again; `load_keys` and `load_usage` may fail -/
  | restart (keysOk usageOk : Bool)
  deriving DecidableEq

/-- What a step of a call does to the `api_keys` table and to the ids drawn. A random id of 16 bytes is not
drawn twice, and the lookup of a new key is unique in the table; tenants have ids. -/
def onKeyRows (cfg : Config) (s : State) (c : Call) (a : Keys.Answer) :
    Option (HashMap String KeyRecord × HashMap String String) :=
  match c, a with
  | .createIn tenantId _ _ (.inserting _), .inserted id plaintext _ _ =>
    if (s.issued.lookup id).isNone ∧ (s.keyRows.lookup (cfg.lookupOf plaintext)).isNone ∧ tenantId ≠ "" then
      some (rowsAfter cfg s.keyRows a c, s.issued.insert id tenantId)
    else none
  | _, _ => some (rowsAfter cfg s.keyRows a c, s.issued)

/-- The steps of a flush. -/
def isFlush : Storage.Usage.Label → Bool
  | .accumulate .. => false
  | .restart _ => false
  | _ => true

def step (cfg : Config) (s : State) : Label → Option State
  | .keys (.step c a) =>
    (s.keys.calls.lookup c).bind fun call => (onKeyRows cfg s call a).bind fun rows =>
      (Keys.step cfg s.keys (.step c a)).map fun keys =>
        { s with keys := keys, keyRows := rows.1, issued := rows.2 }
  | .keys l => (Keys.step cfg s.keys l).map fun keys => { s with keys := keys }
  | .accept i c =>
    match s.requests.lookup i, s.keys.calls.lookup c with
    | none, some (.authorizeRecord _ (.done (some record))) =>
      some { s with requests := s.requests.insert i ⟨record, .serving⟩ }
    | _, _ => none
  | .lookUp i delta =>
    match s.requests.lookup i with
    | some ⟨record, .serving⟩ =>
      let tenantId := (tenantOfKey s.keys.store.runtime record.id).getD defaultTenantId
      some { s with requests := s.requests.insert i ⟨record, .settling tenantId delta⟩ }
    | _ => none
  | .accumulate i now =>
    match s.requests.lookup i with
    | some ⟨record, .settling tenantId delta⟩ =>
      some { s with
        usage := { s.usage with
          usage := accumulate s.usage.usage record.id tenantId record.name delta now }
        requests := s.requests.insert i ⟨record, .settled⟩
        settled := s.settled ++ [(record, delta)] }
    | _ => none
  | .flush l =>
    if isFlush l then (Storage.Usage.step s.usage l).map fun usage => { s with usage := usage } else none
  | .restart keysOk usageOk =>
    (Storage.Usage.step s.usage (.restart usageOk)).map fun usage =>
      { s with
        keys := Keys.init (loadKeys (if keysOk then s.keyRows else ∅))
        usage := usage
        requests := ∅
        loaded := usage.usage
        settled := [] }

/-! ### Totals as sums -/

/-- The counters of a snapshot. -/
def snapTotals (v : UsageSnapshot) : Totals :=
  (v.promptTokens, v.completionTokens, v.promptTokens + v.completionTokens, v.requests)

/-- What a record counts for the tenant `t`. -/
def shareOf (t : String) (r : UsageRecord) : Totals :=
  if r.current.tenantId = t then snapTotals r.current else 0

theorem tenantTotals_eq (usage : HashMap String UsageRecord) (t : String) :
    tenantTotals usage t = sumVal (shareOf t) usage := by
  have hfold : ∀ (l : List UsageRecord) (a : Totals),
      (l.filter fun r => r.current.tenantId = t).foldl (fun (p, c, t, r) rec =>
        (p + rec.current.promptTokens, c + rec.current.completionTokens,
          t + rec.current.promptTokens + rec.current.completionTokens, r + rec.current.requests)) a =
      a + (l.map (shareOf t)).sum := by
    intro l
    induction l with
    | nil =>
      intro a
      simp
    | cons r l ih =>
      intro a
      rw [List.filter_cons, List.map_cons, List.sum_cons]
      by_cases hr : r.current.tenantId = t
      · rw [if_pos (by simpa using hr), List.foldl_cons, ih, ← add_assoc]
        congr 1
        obtain ⟨p, c, t, n⟩ := a
        simp only [shareOf, snapTotals, hr, if_true, Prod.mk_add_mk, add_assoc]
      · rw [if_neg (by simpa using hr), ih, shareOf, if_neg hr, zero_add]
  have h := hfold (values usage) 0
  rw [zero_add] at h
  exact h

theorem shareOf_mark (t : String) (v : UsageSnapshot) (r : UsageRecord) :
    shareOf t (r.mark v) = shareOf t r := rfl

theorem snapTotals_add (v : UsageSnapshot) (tenantId name : String) (d : UsageDelta) (now : UInt64) :
    snapTotals (v.add tenantId name d now) = snapTotals v + deltaTotals d := by
  simp only [snapTotals, UsageSnapshot.add, deltaTotals, Prod.mk_add_mk, add_add_add_comm]

/-- **`accumulate` counts for one tenant**: the one of the record of the key, or the one it is given if there
is no record. -/
theorem tenantTotals_accumulate (usage : HashMap String UsageRecord) (k tenantId name : String)
    (d : UsageDelta) (now : UInt64) {owner : String} (howner : owner ≠ "")
    (h : (usage.lookup k = none ∧ tenantId = owner) ∨
      ∃ r, usage.lookup k = some r ∧ r.current.tenantId = owner) (t : String) :
    tenantTotals (accumulate usage k tenantId name d now) t =
      tenantTotals usage t + if owner = t then deltaTotals d else 0 := by
  rw [tenantTotals_eq, tenantTotals_eq]
  unfold accumulate
  rcases h with ⟨hk, rfl⟩ | ⟨r, hk, ht⟩
  · have hrec : recordOf usage k = .default := by simp [recordOf, hk]
    have htenant : (UsageRecord.default.current.add tenantId name d now).tenantId = tenantId := rfl
    rw [sumVal_insert_of_none _ _ hk, add_comm, hrec]
    congr 1
    simp only [shareOf, htenant, snapTotals_add]
    split_ifs
    · exact zero_add _
    · rfl
  · have htenant : (r.current.add tenantId name d now).tenantId = owner := by
      simp [UsageSnapshot.add, ht, howner]
    rw [recordOf_of_lookup hk]
    refine sumVal_replace _ hk ?_
    simp only [shareOf, htenant, ht, snapTotals_add]
    split_ifs
    · rfl
    · exact (add_zero _).symm

/-! ### Records and their tenants -/

/-- The record has the tenant that its id was drawn for. -/
def Of (issued : HashMap String String) (r : KeyRecord) : Prop := issued.lookup r.id = some r.tenantId

/-- Further ids are drawn. -/
def Grows (issued issued' : HashMap String String) : Prop :=
  ∀ id t, issued.lookup id = some t → issued'.lookup id = some t

/-- A call has this record in hand. -/
def Holds (r : KeyRecord) : Call → Prop
  | .createIn _ _ _ (.bumping p _) | .createIn _ _ _ (.publishing p _) => r = p
  | .authorizeRecord _ pc => read pc = some r ∨ result pc = some r
  | _ => False

section keys

variable {cfg : Config} {st st' : Keys.Store} {a : Keys.Answer} {s : State}

theorem holds_step {c c' : Call} (h : callStep cfg st a c = some (st', c')) {r : KeyRecord}
    (hr : Holds r c') :
    (∃ r0, Holds r0 c ∧ r0.id = r.id ∧ r0.tenantId = r.tenantId) ∨
      (∃ k, st.runtime.lookup k = some r) ∨
      ∃ tenantId owner name n id plaintext keyHash createdAt,
        c = .createIn tenantId owner name (.inserting n) ∧
        a = .inserted id plaintext keyHash createdAt ∧ r.id = id ∧ r.tenantId = tenantId := by
  have hspec := callStep_spec h
  cases c with
  | authorizeRecord token pc =>
    obtain ⟨⟨st1, pc'⟩, -, he⟩ := Option.map_eq_some_iff.mp h
    cases he
    obtain ⟨pc0, hpc0, ha⟩ := hspec.authorize token pc' rfl
    cases hpc0
    rcases hr with hr | hr
    · rcases ha.read r hr with hr | ⟨hr, -⟩
      · exact Or.inl ⟨r, Or.inl hr, rfl, rfl⟩
      · exact Or.inr (Or.inl ⟨_, hr⟩)
    · rcases ha.result r hr with hr | ⟨hr, -⟩
      · exact Or.inl ⟨r, Or.inr hr, rfl, rfl⟩
      · exact Or.inl ⟨r, Or.inl hr, rfl, rfl⟩
  | createIn tenantId owner name pc =>
    obtain ⟨⟨st1, pc'⟩, h1, he⟩ := Option.map_eq_some_iff.mp h
    cases he
    cases pc with
    | start =>
      simp only [Keys.createStep] at h1
      split at h1
      · split at h1 <;> cases h1 <;> cases hr
      · cases h1
    | inserting n =>
      simp only [Keys.createStep] at h1
      split at h1
      · cases h1
        cases hr
        exact Or.inr (Or.inr ⟨_, _, _, _, _, _, _, _, rfl, rfl, rfl, rfl⟩)
      · split_ifs at h1 <;> cases h1 <;> cases hr
      · cases h1
        cases hr
      · cases h1
    | bumping p plaintext =>
      cases h1
      cases hr
      exact Or.inl ⟨p, rfl, rfl, rfl⟩
    | publishing p plaintext =>
      cases h1
      cases hr
    | failed e => cases h1
    | done p plaintext => cases h1
  | delete id pc =>
    obtain ⟨⟨st1, pc'⟩, -, he⟩ := Option.map_eq_some_iff.mp h
    cases he
    cases hr
  | disableKeysForOwner owner pc =>
    obtain ⟨⟨st1, pc'⟩, -, he⟩ := Option.map_eq_some_iff.mp h
    cases he
    cases hr

theorem holds_of_pending {c : Call} {r : KeyRecord} (h : Versions.pending c = some r) : Holds r c := by
  unfold Versions.pending at h
  split at h
  · cases h
    rfl
  · cases h

/-- What a step of a call does to the table and the ids. -/
structure RowsSpec (s : State) (c : Call) (a : Keys.Answer) (rows : HashMap String KeyRecord)
    (issued : HashMap String String) : Prop where
  grows : Grows s.issued issued
  named : ∀ id t, issued.lookup id = some t → s.issued.lookup id = some t ∨ t ≠ ""
  rows : ∀ k r, rows.lookup k = some r →
    (∃ r0, s.keyRows.lookup k = some r0 ∧ r0.id = r.id ∧ r0.tenantId = r.tenantId) ∨ Of issued r
  created : ∀ tenantId owner name n id plaintext keyHash createdAt,
    c = .createIn tenantId owner name (.inserting n) → a = .inserted id plaintext keyHash createdAt →
    issued.lookup id = some tenantId

theorem onKeyRows_spec {c : Call} {rows : HashMap String KeyRecord} {issued : HashMap String String}
    (h : onKeyRows cfg s c a = some (rows, issued)) : RowsSpec s c a rows issued := by
  unfold onKeyRows at h
  split at h
  · next tenantId owner name n id plaintext keyHash createdAt =>
    split_ifs at h with hf
    cases h
    obtain ⟨hid, -, hne⟩ := hf
    have hid' : s.issued.lookup id = none := by simpa using hid
    refine ⟨fun id' t ht => ?_, fun id' t ht => ?_, fun k r hr => ?_, ?_⟩
    · rw [lookup_insert, if_neg (by rintro rfl; rw [hid'] at ht; cases ht)]
      exact ht
    · rw [lookup_insert] at ht
      split_ifs at ht
      · cases ht
        exact Or.inr hne
      · exact Or.inl ht
    · rcases lookup_rowsAfter hr with ⟨r0, hr0, rfl | rfl⟩ | ⟨_, _, _, _, _, _, _, _, hc, ha, -, rfl⟩
      · exact Or.inl ⟨r, hr0, rfl, rfl⟩
      · exact Or.inl ⟨r0, hr0, rfl, rfl⟩
      · cases hc
        cases ha
        exact Or.inr (by rw [Of, lookup_insert, if_pos rfl])
    · intro _ _ _ _ _ _ _ _ hc ha
      cases hc
      cases ha
      rw [lookup_insert, if_pos rfl]
  · next hno =>
    cases h
    refine ⟨fun _ _ ht => ht, fun _ _ ht => Or.inl ht, fun k r hr => Or.inl ?_, ?_⟩
    · rcases lookup_rowsAfter hr with ⟨r0, hr0, rfl | rfl⟩ | ⟨_, _, _, _, _, _, _, _, hc, ha, -, -⟩
      · exact ⟨r, hr0, rfl, rfl⟩
      · exact ⟨r0, hr0, rfl, rfl⟩
      · exact absurd ha (hno _ _ _ _ _ _ _ _ hc)
    · intro _ _ _ _ _ _ _ _ hc ha
      exact absurd ha (hno _ _ _ _ _ _ _ _ hc)

end keys

/-! ### The invariant -/

/-- Whatever the usage store has of a key, in memory, in a batch or in the table, bears the key's tenant. -/
structure Labelled (issued : HashMap String String) (u : Storage.Usage.State) : Prop where
  memory : ∀ k r, u.usage.lookup k = some r → issued.lookup k = some r.current.tenantId
  batch : ∀ k v, (k, v) ∈ batchOf u.flush → issued.lookup k = some v.tenantId
  todo : ∀ b todo tx w, u.flush = .writing b todo tx w → ∀ k v, (k, v) ∈ todo →
    issued.lookup k = some v.tenantId
  tx : ∀ b todo tx w, u.flush = .writing b todo tx w → ∀ k row, tx.lookup k = some row →
    issued.lookup k = some row.tenantId
  db : ∀ k row, u.db.lookup k = some row → issued.lookup k = some row.tenantId

/-- **The totals of every tenant** are what the process started with, and what the requests that the tenant's
keys authenticated have settled with. -/
def Attributed (s : State) : Prop :=
  ∀ t, tenantTotals s.usage.usage t = tenantTotals s.loaded t +
    ((s.settled.filter fun p => p.1.tenantId = t).map fun p => deltaTotals p.2).sum

structure Inv (s : State) : Prop where
  named : ∀ id t, s.issued.lookup id = some t → t ≠ ""
  runtime : ∀ k r, s.keys.store.runtime.lookup k = some r → Of s.issued r
  keyRows : ∀ k r, s.keyRows.lookup k = some r → Of s.issued r
  calls : ∀ i c r, s.keys.calls.lookup i = some c → Holds r c → Of s.issued r
  requests : ∀ i q, s.requests.lookup i = some q → Of s.issued q.record
  settling : ∀ i r tenantId d, s.requests.lookup i = some ⟨r, .settling tenantId d⟩ →
    tenantId = r.tenantId ∨ (s.usage.usage.lookup r.id).isSome
  usage : Labelled s.issued s.usage
  attributed : Attributed s

/-- When a request settles, its key is still there, or has usage, or belongs to the default tenant. -/
def Attributable (s : State) : Label → Prop
  | .lookUp i _ => ∀ q, s.requests.lookup i = some q →
      (tenantOfKey s.keys.store.runtime q.record.id).isSome ∨
        (s.usage.usage.lookup q.record.id).isSome ∨ q.record.tenantId = defaultTenantId
  | _ => True

instance (s : State) : (l : Label) → Decidable (Attributable s l)
  | .lookUp i _ => decidable_of_iff ((s.requests.lookup i).all (fun q =>
      (tenantOfKey s.keys.store.runtime q.record.id).isSome ||
        (s.usage.usage.lookup q.record.id).isSome || q.record.tenantId == defaultTenantId) = true) (by
      cases h : s.requests.lookup i <;> simp [Attributable, h, or_assoc])
  | .keys _ | .accept _ _ | .accumulate _ _ | .flush _ | .restart _ _ => isTrue trivial

section labelled

variable {issued issued' : HashMap String String} {u u' : Storage.Usage.State}

theorem Labelled.grow (h : Labelled issued u) (hg : Grows issued issued') : Labelled issued' u where
  memory k r hr := hg _ _ (h.memory k r hr)
  batch k v hv := hg _ _ (h.batch k v hv)
  todo b todo tx w hf k v hv := hg _ _ (h.todo b todo tx w hf k v hv)
  tx b todo tx w hf k row hr := hg _ _ (h.tx b todo tx w hf k row hr)
  db k row hr := hg _ _ (h.db k row hr)

theorem Labelled.flush (h : Labelled issued u) {l : Storage.Usage.Label} (hl : isFlush l = true)
    (hs : Storage.Usage.step u l = some u') :
    Labelled issued u' ∧ (∀ t, tenantTotals u'.usage t = tenantTotals u.usage t) ∧
      ∀ k, (u.usage.lookup k).isSome → (u'.usage.lookup k).isSome := by
  cases Storage.UsageLedger.move_of_step hs with
  | accumulate => cases hl
  | nothing force hf => exact ⟨⟨h.memory, h.batch, h.todo, h.tx, h.db⟩, fun _ => rfl, fun _ hk => hk⟩
  | batch force hf =>
    refine ⟨⟨h.memory, fun k v hv => ?_, by simp, by simp, h.db⟩, fun _ => rfl, fun _ hk => hk⟩
    obtain ⟨r, hr, -, rfl⟩ := mem_takeBatch.mp hv
    exact h.memory k r hr
  | transaction b hf =>
    have hb := h.batch
    rw [hf] at hb
    refine ⟨⟨h.memory, hb, ?_, ?_, h.db⟩, fun _ => rfl, fun _ hk => hk⟩
    · intro b' todo tx w he k v hv
      cases he
      exact hb k v hv
    · intro b' todo tx w he k row hr
      cases he
      exact h.db k row hr
  | execute b todo p tx w hf =>
    have hb := h.batch
    rw [hf] at hb
    refine ⟨⟨h.memory, hb, ?_, ?_, h.db⟩, fun _ => rfl, fun _ hk => hk⟩
    · intro b' todo' tx' w' he k v hv
      cases he
      exact h.todo b (p :: todo) tx w hf k v (List.mem_cons_of_mem _ hv)
    · intro b' todo' tx' w' he k row hr
      cases he
      rw [lookup_insert] at hr
      split_ifs at hr with hk
      · cases hr
        subst hk
        exact h.todo b (p :: todo) tx w hf p.1 p.2 List.mem_cons_self
      · exact h.tx b (p :: todo) tx w hf k row hr
  | commit b tx w hf =>
    have hb := h.batch
    rw [hf] at hb
    exact ⟨⟨h.memory, hb, by simp, by simp, fun k row hr => h.tx b [] tx w hf k row hr⟩, fun _ => rfl,
      fun _ hk => hk⟩
  | fail _ hl' hf =>
    exact ⟨⟨h.memory, by simp [batchOf], by simp, by simp, h.db⟩, fun _ => rfl, fun _ hk => hk⟩
  | mark b w hf =>
    have hcur : ∀ k, ((updateAll UsageRecord.mark u.usage b).lookup k).map UsageRecord.current =
        (u.usage.lookup k).map UsageRecord.current :=
      fun k => map_lookup_updateAll UsageRecord.current (f := UsageRecord.mark) (fun _ _ => rfl) k b u.usage
    refine ⟨⟨fun k r hr => ?_, by simp [batchOf], by simp, by simp, h.db⟩, fun t => ?_, fun k hk => ?_⟩
    · have hk := hcur k
      rw [hr] at hk
      obtain ⟨r0, hr0, he⟩ := Option.map_eq_some_iff.mp hk.symm
      rw [← he]
      exact h.memory k r0 hr0
    · rw [tenantTotals_eq, tenantTotals_eq]
      exact sumVal_updateAll (shareOf t) (shareOf_mark t) b u.usage
    · have := congrArg Option.isSome (hcur k)
      rw [Option.isSome_map, Option.isSome_map] at this
      rw [this]
      exact hk
  | restart => cases hl
  | restartBlind => cases hl

theorem Labelled.accumulate (h : Labelled issued u) {k tenantId name owner : String} {d : UsageDelta}
    {now : UInt64} (hk : issued.lookup k = some owner) (hne : owner ≠ "")
    (ht : tenantId = owner ∨ (u.usage.lookup k).isSome) :
    Labelled issued { u with usage := Usage.accumulate u.usage k tenantId name d now } := by
  refine ⟨fun k' r hr => ?_, h.batch, h.todo, h.tx, h.db⟩
  unfold Usage.accumulate at hr
  rw [lookup_insert] at hr
  split_ifs at hr with hkk
  · cases hr
    subst hkk
    rw [hk]
    cases hl : u.usage.lookup k' with
    | none =>
      have : tenantId = owner := by simpa [hl] using ht
      simp [recordOf, hl, UsageSnapshot.add, UsageRecord.default, UsageSnapshot.default, this]
    | some r0 =>
      have : r0.current.tenantId = owner := by
        have := h.memory k' r0 hl
        rw [hk] at this
        exact (Option.some.inj this).symm
      simp [recordOf, hl, UsageSnapshot.add, this, hne]
  · exact h.memory k' r hr

theorem Labelled.restart (h : Labelled issued u) {ok : Bool}
    (hs : Storage.Usage.step u (.restart ok) = some u') : Labelled issued u' := by
  cases ok with
  | true =>
    cases hs
    refine ⟨fun k r hr => ?_, by simp [Storage.Usage.init, batchOf], by simp [Storage.Usage.init],
      by simp [Storage.Usage.init], h.db⟩
    have hr' : (loadUsage u.db).lookup k = some r := hr
    rw [lookup_loadUsage] at hr'
    obtain ⟨row, hrow, rfl⟩ := Option.map_eq_some_iff.mp hr'
    exact h.db k row hrow
  | false =>
    cases hs
    exact ⟨fun k r hr => (by cases hr), by simp [batchOf], by simp, by simp, h.db⟩

end labelled

section steps

variable {cfg : Config} {s s' : State}

/-- The answer of `tenant_of_key`, for a key that `runtime` has. -/
theorem tenantOfKey_eq (h : Inv s) {r : KeyRecord} (hr : Of s.issued r) {t : String}
    (ht : tenantOfKey s.keys.store.runtime r.id = some t) : t = r.tenantId := by
  obtain ⟨q, hq, rfl⟩ := Option.map_eq_some_iff.mp ht
  have hid : q.id = r.id := by simpa using List.find?_some hq
  obtain ⟨k, hk⟩ := (mem_values _ _).mp (List.mem_of_find?_eq_some hq)
  have := h.runtime k q hk
  rw [Of, hid, hr] at this
  exact (Option.some.inj this).symm

theorem Of.like {issued issued' : HashMap String String} {r r0 : KeyRecord} (h : Of issued r0)
    (hg : Grows issued issued') (hid : r0.id = r.id) (ht : r0.tenantId = r.tenantId) : Of issued' r := by
  have := hg _ _ h
  rw [hid, ht] at this
  exact this

theorem inv_call (h : Inv s) {i : ℕ} {a : Keys.Answer} {c c' : Call} {st' : Keys.Store}
    {rows : HashMap String KeyRecord} {issued : HashMap String String}
    (hc : s.keys.calls.lookup i = some c) (hrows : onKeyRows cfg s c a = some (rows, issued))
    (hs : callStep cfg s.keys.store a c = some (st', c')) :
    Inv { s with keys := ⟨st', s.keys.calls.insert i c'⟩, keyRows := rows, issued := issued } := by
  have hspec := callStep_spec hs
  have hr := onKeyRows_spec hrows
  refine ⟨fun id t ht => ?_, fun k r hk => ?_, fun k r hk => ?_, fun j cj r hj hh => ?_,
    fun j q hq => hr.grows _ _ (h.requests j q hq), h.settling, h.usage.grow hr.grows, h.attributed⟩
  · rcases hr.named id t ht with ht | ht
    · exact h.named id t ht
    · exact ht
  · rcases hspec.runtime k r hk with ⟨r0, hr0, rfl | rfl⟩ | ⟨hp, -⟩
    · exact hr.grows _ _ (h.runtime k r hr0)
    · exact (h.runtime k r0 hr0).like hr.grows rfl rfl
    · exact hr.grows _ _ (h.calls i c r hc (holds_of_pending hp))
  · rcases hr.rows k r hk with ⟨r0, hr0, hid, ht⟩ | hof
    · exact (h.keyRows k r0 hr0).like hr.grows hid ht
    · exact hof
  · change (s.keys.calls.insert i c').lookup j = some cj at hj
    rw [lookup_insert] at hj
    split_ifs at hj
    · cases hj
      rcases holds_step hs hh with ⟨r0, hr0, hid, ht⟩ | ⟨k, hk⟩ | ⟨_, _, _, _, _, _, _, _, hcr, ha, hid, ht⟩
      · exact (h.calls i c r0 hc hr0).like hr.grows hid ht
      · exact hr.grows _ _ (h.runtime k r hk)
      · rw [Of, hid, ht]
        exact hr.created _ _ _ _ _ _ _ _ hcr ha
    · exact hr.grows _ _ (h.calls j cj r hj hh)

theorem inv_keys (h : Inv s) {l : Keys.Label} (hs : step cfg s (.keys l) = some s') : Inv s' := by
  cases l with
  | start i request =>
    obtain ⟨keys, hk, rfl⟩ := Option.map_eq_some_iff.mp hs
    simp only [Keys.step] at hk
    split at hk
    · cases hk
      refine ⟨h.named, h.runtime, h.keyRows, fun j cj r hj hh => ?_, h.requests, h.settling, h.usage,
        h.attributed⟩
      change (s.keys.calls.insert i request.call).lookup j = some cj at hj
      rw [lookup_insert] at hj
      split_ifs at hj
      · cases hj
        cases request with
        | authorizeRecord token => rcases hh with hh | hh <;> cases hh
        | createIn | delete | disableKeysForOwner => cases hh
      · exact h.calls j cj r hj hh
    · cases hk
  | step i a =>
    simp only [step, Keys.step, Option.bind_eq_some_iff, Option.map_eq_some_iff] at hs
    obtain ⟨c, hc, ⟨rows, issued⟩, hrows, keys, ⟨c1, hc1, ⟨st', c'⟩, hcall, rfl⟩, rfl⟩ := hs
    rw [hc] at hc1
    cases hc1
    exact inv_call h hc hrows hcall
  | tick d =>
    cases hs
    exact ⟨h.named, h.runtime, h.keyRows, h.calls, h.requests, h.settling, h.usage, h.attributed⟩

/-- **A request settles**: its delta is added to the totals of the tenant of its record. -/
theorem accumulate_step (h : Inv s) {i : ℕ} {now : UInt64} (hs : step cfg s (.accumulate i now) = some s') :
    ∃ r tenantId d, s.requests.lookup i = some ⟨r, .settling tenantId d⟩ ∧
      s'.settled = s.settled ++ [(r, d)] ∧ s'.loaded = s.loaded ∧ s'.issued = s.issued ∧
      Labelled s'.issued s'.usage ∧ ∀ t, tenantTotals s'.usage.usage t =
        tenantTotals s.usage.usage t + if r.tenantId = t then deltaTotals d else 0 := by
  simp only [step] at hs
  split at hs
  · next r tenantId d hi =>
    cases hs
    have hof : s.issued.lookup r.id = some r.tenantId := h.requests i _ hi
    have hne := h.named _ _ hof
    have ht := h.settling i r tenantId d hi
    refine ⟨r, tenantId, d, hi, rfl, rfl, rfl, h.usage.accumulate hof hne ht, fun t => ?_⟩
    refine tenantTotals_accumulate s.usage.usage r.id tenantId r.name d now hne ?_ t
    cases hl : s.usage.usage.lookup r.id with
    | none => exact Or.inl ⟨rfl, by simpa [hl] using ht⟩
    | some q =>
      have := h.usage.memory r.id q hl
      rw [hof] at this
      exact Or.inr ⟨q, rfl, (Option.some.inj this).symm⟩
  · cases hs

theorem inv_accumulate (h : Inv s) {i : ℕ} {now : UInt64}
    (hs : step cfg s (.accumulate i now) = some s') : Inv s' := by
  obtain ⟨r, tenantId, d, hi, hset, hload, hiss, hlab, htot⟩ := accumulate_step h hs
  have hatt : Attributed s' := by
    intro t
    rw [htot t, hload, hset, h.attributed t, List.filter_append, List.map_append, List.sum_append,
      ← add_assoc]
    congr 1
    by_cases ht : r.tenantId = t
    · simp [ht]
    · simp [ht]
  have hof : Of s.issued r := h.requests i _ hi
  simp only [step, hi] at hs
  cases hs
  refine ⟨h.named, h.runtime, h.keyRows, h.calls, fun j q hq => ?_, fun j r' t' d' hj => ?_, hlab, hatt⟩
  · rw [lookup_insert] at hq
    split_ifs at hq
    · cases hq
      exact hof
    · exact h.requests j q hq
  · rw [lookup_insert] at hj
    split_ifs at hj
    · cases hj
    · rcases h.settling j r' t' d' hj with ht | ht
      · exact Or.inl ht
      · exact Or.inr (Storage.UsageLedger.isSome_lookup_accumulate ht)

theorem inv_restart (h : Inv s) {keysOk usageOk : Bool}
    (hs : step cfg s (.restart keysOk usageOk) = some s') : Inv s' := by
  obtain ⟨u, hu, rfl⟩ := Option.map_eq_some_iff.mp hs
  refine ⟨h.named, fun k r hr => ?_, h.keyRows, fun i c r hc => (by cases hc), fun i q hq => (by cases hq),
    fun i r t d hq => (by cases hq), h.usage.restart hu, fun t => (by simp)⟩
  change (mapVal _ (if keysOk then s.keyRows else ∅)).lookup k = some r at hr
  rw [lookup_mapVal] at hr
  obtain ⟨r0, hr0, rfl⟩ := Option.map_eq_some_iff.mp hr
  split_ifs at hr0
  · exact h.keyRows k r0 hr0
  · cases hr0

/-- **Every step keeps the invariant**, if a request settles only while its tenant can be told. -/
theorem inv_step {l : Label} (h : Inv s) (hC : Attributable s l) (hs : step cfg s l = some s') : Inv s' := by
  cases l with
  | keys l => exact inv_keys h hs
  | accept i c =>
    simp only [step] at hs
    split at hs
    · next token r hi hc =>
      cases hs
      refine ⟨h.named, h.runtime, h.keyRows, h.calls, fun j q hq => ?_, fun j r' t' d' hj => ?_, h.usage,
        h.attributed⟩
      · rw [lookup_insert] at hq
        split_ifs at hq
        · cases hq
          exact h.calls c _ r hc (Or.inr rfl)
        · exact h.requests j q hq
      · rw [lookup_insert] at hj
        split_ifs at hj
        · cases hj
        · exact h.settling j r' t' d' hj
    · cases hs
  | lookUp i delta =>
    simp only [step] at hs
    split at hs
    · next r hi =>
      have hof : Of s.issued r := h.requests i _ hi
      cases hs
      refine ⟨h.named, h.runtime, h.keyRows, h.calls, fun j q hq => ?_, fun j r' t' d' hj => ?_, h.usage,
        h.attributed⟩
      · rw [lookup_insert] at hq
        split_ifs at hq
        · cases hq
          exact hof
        · exact h.requests j q hq
      · rw [lookup_insert] at hj
        split_ifs at hj
        · cases hj
          cases ht : tenantOfKey s.keys.store.runtime r.id with
          | some t => exact Or.inl (tenantOfKey_eq h hof ht)
          | none =>
            rcases hC _ hi with hsome | hused | hdef
            · rw [ht] at hsome
              cases hsome
            · exact Or.inr hused
            · exact Or.inl hdef.symm
        · exact h.settling j r' t' d' hj
    · cases hs
  | accumulate i now => exact inv_accumulate h hs
  | flush l =>
    simp only [step] at hs
    split_ifs at hs with hl
    obtain ⟨u, hu, rfl⟩ := Option.map_eq_some_iff.mp hs
    obtain ⟨hlab, htot, hsome⟩ := h.usage.flush hl hu
    refine ⟨h.named, h.runtime, h.keyRows, h.calls, h.requests, fun j r' t' d' hj => ?_, hlab, fun t => ?_⟩
    · exact (h.settling j r' t' d' hj).imp_right (hsome _)
    · rw [htot t]
      exact h.attributed t
  | restart keysOk usageOk => exact inv_restart h hs

theorem inv_init : Inv init := by
  refine ⟨fun _ _ h => (by cases h), fun _ _ h => (by cases h), fun _ _ h => (by cases h),
    fun _ _ _ h => (by cases h), fun _ _ h => (by cases h), fun _ _ _ _ h => (by cases h),
    ⟨fun _ _ h => (by cases h), by simp [init, Storage.Usage.init, batchOf],
      by simp [init, Storage.Usage.init], by simp [init, Storage.Usage.init], fun _ _ h => (by cases h)⟩,
    fun t => ?_⟩
  rfl

end steps

/-- **Usage attribution.** If, whenever a request settles, its key is still there, or has usage, or belongs
to the default tenant, then in every state the totals of every tenant are what the process started with and
what the requests of the tenant's keys have settled with; each further request counts for the tenant of the
record that authenticated it, and for no other; and what the store and its table have of a key bears the
tenant of the key. -/
theorem usage_attribution (cfg : Config) (ls : List Label) (s : State) (hs : run (step cfg) init ls = some s)
    (hC : AllSteps (step cfg) Attributable init ls) :
    Attributed s ∧
      (∀ i now s', step cfg s (.accumulate i now) = some s' → ∃ r tenantId d,
        s.requests.lookup i = some ⟨r, .settling tenantId d⟩ ∧
        ∀ t, tenantTotals s'.usage.usage t =
          tenantTotals s.usage.usage t + if r.tenantId = t then deltaTotals d else 0) ∧
      (∀ k r, s.usage.usage.lookup k = some r → s.issued.lookup k = some r.current.tenantId) ∧
      ∀ k row, s.usage.db.lookup k = some row → s.issued.lookup k = some row.tenantId := by
  have h := run_invariant_of (fun s l s' h hC hs => inv_step h hC hs) ls init s inv_init hC hs
  refine ⟨h.attributed, fun i now s' hs' => ?_, h.usage.memory, h.usage.db⟩
  obtain ⟨r, tenantId, d, hi, -, -, -, -, htot⟩ := accumulate_step h hs'
  exact ⟨r, tenantId, d, hi, htot⟩

/-! ### Two runs -/

/-- The example tokens, without the cache. -/
def uncached : Config := { Revocation.exampleConfig with maxEntries := 0 }

/-- A key of the tenant `alpha` is created. -/
def creates : List Label :=
  [.keys (.start 0 (.createIn "alpha" none "a")), .keys (.step 0 (.tables (some true) none)),
    .keys (.step 0 (.inserted "id1" "sk-abc" Revocation.abcHash 5)), .keys (.step 0 .silent),
    .keys (.step 0 .silent)]

/-- The key authenticates the request `i`, by the call `c`. -/
def admits (i c : ℕ) : List Label :=
  [.keys (.start c (.authorizeRecord "sk-abc")), .keys (.step c .silent), .keys (.step c .silent),
    .accept i c]

/-- The request `i` settles. -/
def settles (i : ℕ) : List Label := [.lookUp i ⟨3, 4, false⟩, .accumulate i 9]

/-- The key is deleted. -/
def deletes : List Label :=
  [.keys (.start 9 (.delete "id1")), .keys (.step 9 .silent), .keys (.step 9 (.database none)),
    .keys (.step 9 .silent), .keys (.step 9 .silent), .keys (.step 9 .silent)]

/-- Two requests of the key settle, the second one after the key is deleted. -/
theorem usage_attribution_deleted : ∃ s, run (step uncached) init
    (creates ++ admits 0 1 ++ admits 1 2 ++ settles 0 ++ deletes ++ settles 1) = some s ∧ Attributed s ∧
    tenantTotals s.usage.usage "alpha" = (6, 8, 14, 2) ∧ tenantOfKey s.keys.store.runtime "id1" = none := by
  obtain ⟨s, hs, hp⟩ := exists_run (step uncached) init
    (creates ++ admits 0 1 ++ admits 1 2 ++ settles 0 ++ deletes ++ settles 1)
    (fun s => tenantTotals s.usage.usage "alpha" = (6, 8, 14, 2) ∧
      tenantOfKey s.keys.store.runtime "id1" = none) (by decide +kernel)
  exact ⟨s, hs, (usage_attribution uncached _ s hs (by decide +kernel)).1, hp⟩

/-- The first request of a key settles after the key is deleted: it counts for the default tenant. -/
theorem usage_misattributed : ∃ s, run (step uncached) init
    (creates ++ admits 0 1 ++ deletes ++ settles 0) = some s ∧ ¬ Attributed s ∧
    s.settled.map (fun p => (p.1.tenantId, p.2)) = [("alpha", ⟨3, 4, false⟩)] ∧
    tenantTotals s.usage.usage "alpha" = 0 ∧ tenantTotals s.usage.usage "default" = (3, 4, 7, 1) := by
  obtain ⟨s, hs, hload, hnone, hset, halpha, hdef⟩ := exists_run (step uncached) init
    (creates ++ admits 0 1 ++ deletes ++ settles 0)
    (fun s => tenantTotals s.loaded "default" = (0, 0, 0, 0) ∧
      (s.settled.filter fun p => p.1.tenantId = "default") = [] ∧
      s.settled.map (fun p => (p.1.tenantId, p.2)) = [("alpha", ⟨3, 4, false⟩)] ∧
      tenantTotals s.usage.usage "alpha" = (0, 0, 0, 0) ∧
      tenantTotals s.usage.usage "default" = (3, 4, 7, 1)) (by decide +kernel)
  refine ⟨s, hs, fun h => ?_, hset, halpha, hdef⟩
  have hdefault := h "default"
  rw [hload, hnone, hdef] at hdefault
  exact absurd hdefault (by decide)

end HomeLlmGateway.Storage.Attribution
