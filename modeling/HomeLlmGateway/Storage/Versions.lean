import HomeLlmGateway.Storage.Keys

/-! # Versions of keys

What one step of each call does to the store (`callStep_spec`), and what follows for the records that are
about, in `runtime`, in the cache or in the hands of a call: a lookup and a `cred_version` determine the
hash (`Versioned`). -/

namespace HomeLlmGateway.Storage.Versions

open HomeLlmGateway.Lib.Runs HomeLlmGateway.Lib.Assoc HomeLlmGateway.Storage.Cache
open HomeLlmGateway.Storage.Keys

variable {cfg : Config} {l : Loaded} {st st' : Store} {s s' : State} {a : Answer}

/-! ### What a step of each call does -/

/-- The record that a call has read and not verified. -/
def read : AuthorizePc → Option KeyRecord
  | .probingUncached r | .checking r | .rechecking _ r | .probing _ r => some r
  | .start | .taking | .waiting _ | .confirming _ | .retrying _ | .reading _ | .putting _ _
  | .cleaning _ _ | .unlocking _ _ | .done _ => none

/-- The record that a call returns, once that is settled. -/
def result : AuthorizePc → Option KeyRecord
  | .putting _ r => some r
  | .cleaning _ o | .unlocking _ o | .done o => o
  | .start | .probingUncached _ | .checking _ | .taking | .waiting _ | .confirming _ | .retrying _
  | .reading _ | .rechecking _ _ | .probing _ _ => none

theorem loadEnabled_eq_some {token : String} {r : KeyRecord} (h : loadEnabled cfg st token = some r) :
    st.runtime.lookup (cfg.lookupOf token) = some r ∧ r.enabled = true := by
  simpa [loadEnabled] using h

/-- A step of `authorize_record` reads an enabled record, settles on the record it has read because argon2
or the cache accepts it, or puts the record it settled on into the cache. -/
structure AuthorizeSpec (cfg : Config) (st : Store) (token : String) (pc : AuthorizePc) (st' : Store)
    (pc' : AuthorizePc) : Prop where
  runtime : st'.runtime = st.runtime
  generation : st'.generation = st.generation
  running : ∀ o, pc ≠ .done o
  read : ∀ r, read pc' = some r → read pc = some r ∨
    (st.runtime.lookup (cfg.lookupOf token) = some r ∧ r.enabled = true)
  result : ∀ r, result pc' = some r → result pc = some r ∨ (Versions.read pc = some r ∧
    (cfg.verifyArgon2 token r.keyHash = true ∨
      st.verified.isCached cfg.ttl st.now (cfg.lookupOf token) r.credVersion = true))
  entries : ∀ k v, st'.verified.entries.lookup k = some v → st.verified.entries.lookup k = some v ∨
    (k = cfg.lookupOf token ∧ Versions.result pc = some v.record)

theorem authorizeStep_spec {token : String} {pc pc' : AuthorizePc}
    (h : authorizeStep cfg st token pc = some (st', pc')) :
    AuthorizeSpec cfg st token pc st' pc' := by
  cases pc with
  | start =>
    simp only [authorizeStep] at h
    split at h
    · cases h
      exact ⟨rfl, rfl, by simp, by simp [read], by simp [result], fun _ _ hv => Or.inl hv⟩
    · next r hr =>
      have hl := loadEnabled_eq_some hr
      split_ifs at h <;> cases h
      · exact ⟨rfl, rfl, by simp, by rintro r' ⟨⟩; exact Or.inr hl, by simp [result],
          fun _ _ hv => Or.inl hv⟩
      · exact ⟨rfl, rfl, by simp, by rintro r' ⟨⟩; exact Or.inr hl, by simp [result],
          fun _ _ hv => Or.inl hv⟩
  | probingUncached r =>
    simp only [authorizeStep, Option.some.injEq, Prod.mk.injEq] at h
    obtain ⟨rfl, rfl⟩ := h
    refine ⟨rfl, rfl, by simp, by simp [read], fun r' hr' => Or.inr ?_, fun _ _ hv => Or.inl hv⟩
    simp only [result] at hr'
    split_ifs at hr' with hv
    cases hr'
    exact ⟨rfl, Or.inl hv⟩
  | checking r =>
    simp only [authorizeStep] at h
    split_ifs at h with hc <;> cases h
    · refine ⟨rfl, rfl, by simp, by simp [read], fun r' hr' => Or.inr ?_, fun _ _ hv => Or.inl hv⟩
      cases hr'
      exact ⟨rfl, Or.inr hc⟩
    · exact ⟨rfl, rfl, by simp, by simp [read], by simp [result], fun _ _ hv => Or.inl hv⟩
  | taking =>
    simp only [authorizeStep, Option.some.injEq, Prod.mk.injEq] at h
    obtain ⟨rfl, rfl⟩ := h
    exact ⟨rfl, rfl, by simp, by simp [read], by simp [result], fun _ _ hv => Or.inl (by simpa using hv)⟩
  | waiting slot =>
    simp only [authorizeStep] at h
    split_ifs at h
    cases h
    exact ⟨rfl, rfl, by simp, by simp [read], by simp [result], fun _ _ hv => Or.inl hv⟩
  | confirming slot =>
    simp only [authorizeStep] at h
    split_ifs at h <;> cases h
    · exact ⟨rfl, rfl, by simp, by simp [read], by simp [result], fun _ _ hv => Or.inl hv⟩
    · exact ⟨rfl, rfl, by simp, by simp [read], by simp [result], fun _ _ hv => Or.inl hv⟩
  | retrying slot =>
    cases h
    exact ⟨rfl, rfl, by simp, by simp [read], by simp [result], fun _ _ hv => Or.inl hv⟩
  | reading slot =>
    simp only [authorizeStep] at h
    split at h
    · cases h
      exact ⟨rfl, rfl, by simp, by simp [read], by simp [result], fun _ _ hv => Or.inl hv⟩
    · next r hr =>
      cases h
      exact ⟨rfl, rfl, by simp, by rintro r' ⟨⟩; exact Or.inr (loadEnabled_eq_some hr),
        by simp [result], fun _ _ hv => Or.inl hv⟩
  | rechecking slot r =>
    simp only [authorizeStep] at h
    split_ifs at h with hc <;> cases h
    · refine ⟨rfl, rfl, by simp, by simp [read], fun r' hr' => Or.inr ?_, fun _ _ hv => Or.inl hv⟩
      cases hr'
      exact ⟨rfl, Or.inr hc⟩
    · exact ⟨rfl, rfl, by simp, fun r' hr' => Or.inl hr', by simp [result], fun _ _ hv => Or.inl hv⟩
  | probing slot r =>
    simp only [authorizeStep] at h
    split_ifs at h with hv <;> cases h
    · refine ⟨rfl, rfl, by simp, by simp [read], fun r' hr' => Or.inr ?_, fun _ _ hv => Or.inl hv⟩
      cases hr'
      exact ⟨rfl, Or.inl hv⟩
    · exact ⟨rfl, rfl, by simp, by simp [read], by simp [result], fun _ _ hv => Or.inl hv⟩
  | putting slot r =>
    cases h
    refine ⟨rfl, rfl, by simp, by simp [read], fun r' hr' => Or.inl hr', fun k v hv => ?_⟩
    rcases VerifiedCache.lookup_put hv with ⟨rfl, rfl⟩ | hv
    · exact Or.inr ⟨rfl, rfl⟩
    · exact Or.inl hv
  | cleaning slot o =>
    cases h
    exact ⟨rfl, rfl, by simp, by simp [read], fun r' hr' => Or.inl hr',
      fun _ _ hv => Or.inl (by simpa using hv)⟩
  | unlocking slot o =>
    cases h
    exact ⟨rfl, rfl, by simp, by simp [read], fun r' hr' => Or.inl hr', fun _ _ hv => Or.inl hv⟩
  | done o => cases h

/-- The record that a call of `create_in` is about to put into `runtime`. -/
def pending : Call → Option KeyRecord
  | .createIn _ _ _ (.publishing r _) => some r
  | _ => none

/-- A call that has dealt with the key: `delete` of it, or `disable_keys_for_owner` of its owner. -/
def Past (r : KeyRecord) : Call → Prop
  | .delete id (.invalidating) | .delete id (.bumping) | .delete id (.done _) => id = r.id
  | .disableKeysForOwner o (.bumping _) | .disableKeysForOwner o (.invalidating _ _)
  | .disableKeysForOwner o (.done _) => r.ownerUserId = some o
  | _ => False

/-- The token that a call presents. -/
def presented : Call → Option String
  | .authorizeRecord token _ => some token
  | .createIn _ _ _ _ | .delete _ _ | .disableKeysForOwner _ _ => none

/-- The key is not in `runtime`, or is disabled there. -/
def Gone (r : KeyRecord) (st : Store) : Prop :=
  ∀ k r', st.runtime.lookup k = some r' → r'.id = r.id → r'.ownerUserId = r.ownerUserId →
    r'.enabled = false

/-- What a step of a call does to the store. -/
structure CallSpec (cfg : Config) (st : Store) (c : Call) (st' : Store) (c' : Call) : Prop where
  runtime : ∀ k r', st'.runtime.lookup k = some r' →
    (∃ r, st.runtime.lookup k = some r ∧ (r' = r ∨ r' = { r with enabled := false })) ∨
      (pending c = some r' ∧ k = r'.lookup)
  generation : st.generation ≤ st'.generation
  pending : ∀ r, pending c' = some r →
    r.credVersion = st'.generation ∧ st'.generation = st.generation + 1
  entries : ∀ k v, st'.verified.entries.lookup k = some v → st.verified.entries.lookup k = some v ∨
    ∃ token pc, c = .authorizeRecord token pc ∧ k = cfg.lookupOf token ∧ result pc = some v.record
  authorize : ∀ token pc', c' = .authorizeRecord token pc' → ∃ pc, c = .authorizeRecord token pc ∧
    AuthorizeSpec cfg st token pc st' pc'
  past : ∀ r, Past r c' → Past r c ∨ Gone r st'
  presented : presented c' = presented c

theorem CallSpec.quiet {c c' : Call} (hr : st'.runtime = st.runtime)
    (hg : st.generation ≤ st'.generation) (hv : st'.verified.entries = st.verified.entries)
    (hp : Versions.pending c' = none) (ha : ∀ token pc', c' ≠ .authorizeRecord token pc')
    (ht : Versions.presented c' = Versions.presented c)
    (hpast : ∀ r, Past r c' → Past r c ∨ Gone r st') : CallSpec cfg st c st' c' where
  runtime k r' h := Or.inl ⟨r', hr ▸ h, Or.inl rfl⟩
  generation := hg
  pending r h := by rw [hp] at h; cases h
  entries k v h := Or.inl (hv ▸ h)
  authorize token pc' h := absurd h (ha token pc')
  past := hpast
  presented := ht

theorem createStep_spec {tenantId name : String} {owner : Option String} {pc pc' : CreatePc}
    (h : createStep cfg st tenantId owner name a pc = some (st', pc')) :
    CallSpec cfg st (.createIn tenantId owner name pc) st' (.createIn tenantId owner name pc') := by
  cases pc with
  | start =>
    simp only [createStep] at h
    split at h
    · split at h <;> cases h
      · exact .quiet rfl (Nat.le_refl _) rfl rfl (by simp) rfl fun r hp => by cases hp
      · exact .quiet rfl (Nat.le_refl _) rfl rfl (by simp) rfl fun r hp => by cases hp
    · cases h
  | inserting attempt =>
    simp only [createStep] at h
    split at h
    · cases h
      exact .quiet rfl (Nat.le_refl _) rfl rfl (by simp) rfl fun r hp => by cases hp
    · split_ifs at h <;> cases h
      · exact .quiet rfl (Nat.le_refl _) rfl rfl (by simp) rfl fun r hp => by cases hp
      · exact .quiet rfl (Nat.le_refl _) rfl rfl (by simp) rfl fun r hp => by cases hp
    · cases h
      exact .quiet rfl (Nat.le_refl _) rfl rfl (by simp) rfl fun r hp => by cases hp
    · cases h
  | bumping record plaintext =>
    cases h
    exact ⟨fun k r' hk => Or.inl ⟨r', hk, Or.inl rfl⟩, Nat.le_succ _, by rintro r ⟨⟩; exact ⟨rfl, rfl⟩,
      fun k v hv => Or.inl hv, by simp, (fun r hp => by cases hp), rfl⟩
  | publishing record plaintext =>
    cases h
    refine ⟨fun k r' hk => ?_, Nat.le_refl _, by rintro r ⟨⟩, fun k v hv => Or.inl hv, by simp,
      (fun r hp => by cases hp), rfl⟩
    rw [lookup_insert] at hk
    split_ifs at hk with hkey
    · cases hk
      exact Or.inr ⟨rfl, hkey⟩
    · exact Or.inl ⟨r', hk, Or.inl rfl⟩
  | failed e => cases h
  | done record plaintext => cases h

theorem deleteStep_spec {id : String} {pc pc' : DeletePc}
    (h : deleteStep st id a pc = some (st', pc')) :
    CallSpec cfg st (.delete id pc) st' (.delete id pc') := by
  cases pc with
  | start =>
    simp only [deleteStep] at h
    split_ifs at h with hany <;> cases h
    · exact .quiet rfl (Nat.le_refl _) rfl rfl (by simp) rfl fun r hp => by cases hp
    · refine .quiet rfl (Nat.le_refl _) rfl rfl (by simp) rfl fun r hp => Or.inr fun k r' hk hid _ => ?_
      refine absurd (List.any_eq_true.mpr ⟨r', (mem_values _ _).mpr ⟨k, hk⟩, ?_⟩) hany
      have hp : id = r.id := hp
      simp [hid, hp]
  | deletingRow =>
    simp only [deleteStep] at h
    split at h
    · cases h
      exact .quiet rfl (Nat.le_refl _) rfl rfl (by simp) rfl fun r hp => by cases hp
    · cases h
      exact .quiet rfl (Nat.le_refl _) rfl rfl (by simp) rfl fun r hp => by cases hp
    · cases h
  | retaining =>
    have hgone : ∀ r : KeyRecord, id = r.id →
        Gone r { st with runtime := retain (fun _ r => r.id ≠ id) st.runtime } := by
      intro r hid k r' hk hr' _
      rw [lookup_retain, Option.filter_eq_some_iff] at hk
      have hne : r'.id ≠ id := by simpa using hk.2
      exact absurd (hr'.trans hid.symm) hne
    have hrun : ∀ k r', (retain (fun _ r => r.id ≠ id) st.runtime).lookup k = some r' →
        st.runtime.lookup k = some r' := by
      intro k r' hk
      rw [lookup_retain, Option.filter_eq_some_iff] at hk
      exact hk.1
    simp only [deleteStep] at h
    split_ifs at h <;> cases h
    · exact ⟨fun k r' hk => Or.inl ⟨r', hrun k r' hk, Or.inl rfl⟩, Nat.le_refl _, by simp [pending],
        fun k v hv => Or.inl hv, by simp, fun r hp => Or.inr (hgone r hp), rfl⟩
    · exact ⟨fun k r' hk => Or.inl ⟨r', hrun k r' hk, Or.inl rfl⟩, Nat.le_refl _, by simp [pending],
        fun k v hv => Or.inl hv, by simp, fun r hp => Or.inr (hgone r hp), rfl⟩
  | invalidating =>
    cases h
    exact ⟨fun k r' hk => Or.inl ⟨r', hk, Or.inl rfl⟩, Nat.le_refl _, by simp [pending],
      fun k v hv => Or.inl (VerifiedCache.lookup_invalidateById hv), by simp, fun r hp => Or.inl hp, rfl⟩
  | bumping =>
    cases h
    exact .quiet rfl (Nat.le_succ _) rfl rfl (by simp) rfl fun r hp => Or.inl hp
  | failed e => cases h
  | done b => cases h

theorem disableStep_spec {owner : String} {pc pc' : DisablePc}
    (h : disableStep st owner a pc = some (st', pc')) :
    CallSpec cfg st (.disableKeysForOwner owner pc) st' (.disableKeysForOwner owner pc') := by
  cases pc with
  | start =>
    simp only [disableStep] at h
    split_ifs at h with hids <;> cases h
    · refine .quiet rfl (Nat.le_refl _) rfl rfl (by simp) rfl fun r hp => Or.inr fun k r' hk _ ho => ?_
      have hp : r.ownerUserId = some owner := hp
      simp only [List.map_eq_nil_iff, List.filter_eq_nil_iff] at hids
      have := hids r' ((mem_values _ _).mpr ⟨k, hk⟩)
      simpa [ownedBy, ho, hp] using this
    · exact .quiet rfl (Nat.le_refl _) rfl rfl (by simp) rfl fun r hp => by cases hp
  | updatingRows ids =>
    simp only [disableStep] at h
    split at h
    · cases h
      exact .quiet rfl (Nat.le_refl _) rfl rfl (by simp) rfl fun r hp => by cases hp
    · cases h
      exact .quiet rfl (Nat.le_refl _) rfl rfl (by simp) rfl fun r hp => by cases hp
    · cases h
  | marking ids =>
    cases h
    refine ⟨fun k r' hk => Or.inl ?_, Nat.le_refl _, by simp [pending], fun k v hv => Or.inl hv,
      by simp, (fun r hp => Or.inr fun k r' hk _ ho => ?_), rfl⟩
    · rw [lookup_mapVal] at hk
      obtain ⟨r, hr, rfl⟩ := Option.map_eq_some_iff.mp hk
      refine ⟨r, hr, ?_⟩
      split_ifs
      · exact Or.inr rfl
      · exact Or.inl rfl
    · have hp : r.ownerUserId = some owner := hp
      rw [lookup_mapVal] at hk
      obtain ⟨r0, hr0, rfl⟩ := Option.map_eq_some_iff.mp hk
      split_ifs at ho ⊢ with hown
      · rfl
      · exact absurd (by simp [ownedBy, ho, hp]) hown
  | bumping ids =>
    cases h
    exact .quiet rfl (Nat.le_succ _) rfl rfl (by simp) rfl fun r hp => Or.inl hp
  | invalidating count rest =>
    cases rest with
    | nil =>
      cases h
      exact .quiet rfl (Nat.le_refl _) rfl rfl (by simp) rfl fun r hp => Or.inl hp
    | cons id rest =>
      cases h
      exact ⟨fun k r' hk => Or.inl ⟨r', hk, Or.inl rfl⟩, Nat.le_refl _, by simp [pending],
        fun k v hv => Or.inl (VerifiedCache.lookup_invalidateById hv), by simp, fun r hp => Or.inl hp, rfl⟩
  | failed e => cases h
  | done n => cases h

/-- **One step of a call.** -/
theorem callStep_spec {c c' : Call} (h : callStep cfg st a c = some (st', c')) :
    CallSpec cfg st c st' c' := by
  cases c with
  | authorizeRecord token pc =>
    obtain ⟨⟨st1, pc1⟩, h1, he⟩ := Option.map_eq_some_iff.mp h
    cases he
    have hspec := authorizeStep_spec h1
    refine ⟨fun k r' hk => Or.inl ⟨r', hspec.runtime ▸ hk, Or.inl rfl⟩, hspec.generation.ge,
      by simp [pending], fun k v hv => ?_, ?_, (fun r hp => by cases hp), rfl⟩
    · rcases hspec.entries k v hv with hv | ⟨hk, hr⟩
      · exact Or.inl hv
      · exact Or.inr ⟨token, pc, rfl, hk, hr⟩
    · rintro token' pc' ⟨⟩
      exact ⟨pc, rfl, hspec⟩
  | createIn tenantId owner name pc =>
    obtain ⟨⟨st1, pc1⟩, h1, he⟩ := Option.map_eq_some_iff.mp h
    cases he
    exact createStep_spec h1
  | delete id pc =>
    obtain ⟨⟨st1, pc1⟩, h1, he⟩ := Option.map_eq_some_iff.mp h
    cases he
    exact deleteStep_spec h1
  | disableKeysForOwner owner pc =>
    obtain ⟨⟨st1, pc1⟩, h1, he⟩ := Option.map_eq_some_iff.mp h
    cases he
    exact disableStep_spec h1

theorem lookup_rowsAfter {rows : HashMap String KeyRecord} {c : Call} {k : String} {r : KeyRecord}
    (h : (rowsAfter cfg rows a c).lookup k = some r) :
    (∃ r0, rows.lookup k = some r0 ∧ (r = r0 ∨ r = { r0 with enabled := false })) ∨
      ∃ tenantId owner name n id plaintext keyHash createdAt,
        c = .createIn tenantId owner name (.inserting n) ∧
        a = .inserted id plaintext keyHash createdAt ∧ k = cfg.lookupOf plaintext ∧
        r = ⟨id, keyHash, cfg.lookupOf plaintext, name, createdAt, true, 1, tenantId, owner⟩ := by
  unfold rowsAfter at h
  split at h
  · split at h
    · rw [lookup_insert] at h
      split_ifs at h with hk
      · exact Or.inr ⟨_, _, _, _, _, _, _, _, rfl, rfl, hk, (Option.some.inj h).symm⟩
      · exact Or.inl ⟨r, h, Or.inl rfl⟩
    · exact Or.inl ⟨r, h, Or.inl rfl⟩
  · split at h
    · rw [lookup_retain, Option.filter_eq_some_iff] at h
      exact Or.inl ⟨r, h.1, Or.inl rfl⟩
    · exact Or.inl ⟨r, h, Or.inl rfl⟩
  · split at h
    · rw [lookup_mapVal] at h
      obtain ⟨r0, hr0, rfl⟩ := Option.map_eq_some_iff.mp h
      refine Or.inl ⟨r0, hr0, ?_⟩
      split_ifs
      · exact Or.inr rfl
      · exact Or.inl rfl
    · exact Or.inl ⟨r, h, Or.inl rfl⟩
  · exact Or.inl ⟨r, h, Or.inl rfl⟩

/-! ### Versions -/

/-- A call has this record in hand. -/
def Carries (c : Call) (r : KeyRecord) : Prop :=
  pending c = some r ∨ ∃ token pc, c = .authorizeRecord token pc ∧ (read pc = some r ∨ result pc = some r)

/-- The record is in `runtime`, in the cache or in the hands of a call. -/
def Known (s : State) (r : KeyRecord) : Prop :=
  (∃ k, s.store.runtime.lookup k = some r) ∨
    (∃ k v, s.store.verified.entries.lookup k = some v ∧ v.record = r) ∨
    ∃ i c, s.calls.lookup i = some c ∧ Carries c r

/-- A lookup and a version determine the hash; a key on its way into `runtime` has a version of its own. -/
structure Versioned (s : State) : Prop where
  keyed : ∀ k r, s.store.runtime.lookup k = some r → r.lookup = k
  below : ∀ r, Known s r → r.credVersion ≤ s.store.generation
  unique : ∀ r r', Known s r → Known s r' → r.lookup = r'.lookup → r.credVersion = r'.credVersion →
    r.keyHash = r'.keyHash
  pendingNew : ∀ i c p, s.calls.lookup i = some c → pending c = some p → ∀ k r,
    s.store.runtime.lookup k = some r → r.credVersion ≠ p.credVersion
  pendingOne : ∀ i c p i' c' p', s.calls.lookup i = some c → pending c = some p →
    s.calls.lookup i' = some c' → pending c' = some p' → p.credVersion = p'.credVersion → i = i'

theorem step_cases {lab : Label} (h : step cfg s lab = some s') :
    (∃ i request, s.calls.lookup i = none ∧
      s' = { s with calls := s.calls.insert i (Request.call request) }) ∨
    (∃ d, s' = { s with store := { s.store with now := s.store.now + d } }) ∨
    ∃ i c st' c', s.calls.lookup i = some c ∧ CallSpec cfg s.store c st' c' ∧
      s' = ⟨st', s.calls.insert i c'⟩ := by
  cases lab with
  | start i request =>
    simp only [step] at h
    split at h
    · next hi => cases h; exact Or.inl ⟨i, request, hi, rfl⟩
    · cases h
  | step i a =>
    obtain ⟨c, hi, h⟩ := Option.bind_eq_some_iff.mp h
    obtain ⟨⟨st', c'⟩, hc, rfl⟩ := Option.map_eq_some_iff.mp h
    exact Or.inr (Or.inr ⟨i, c, st', c', hi, callStep_spec hc, rfl⟩)
  | tick d => cases h; exact Or.inr (Or.inl ⟨d, rfl⟩)

theorem not_carries_start (request : Request) (r : KeyRecord) : ¬ Carries request.call r := by
  rintro (h | ⟨token, pc, hc, hr⟩)
  · cases request <;> cases h
  · cases request <;> cases hc
    rcases hr with hr | hr <;> cases hr

theorem pending_start (request : Request) : pending request.call = none := by
  cases request <;> rfl

/-- A record in hand after a step was known before, or is the next version of a new key. -/
theorem carries_step {c c' : Call} {r : KeyRecord} (hspec : CallSpec cfg st c st' c')
    (h : Carries c' r) :
    (Carries c r ∨ ∃ k, st.runtime.lookup k = some r) ∨
      (pending c' = some r ∧ r.credVersion = st'.generation ∧ st'.generation = st.generation + 1) := by
  rcases h with h | ⟨token, pc', rfl, h⟩
  · exact Or.inr ⟨h, hspec.pending r h⟩
  · obtain ⟨pc, rfl, ha⟩ := hspec.authorize token pc' rfl
    left
    rcases h with h | h
    · rcases ha.read r h with h | ⟨h, -⟩
      · exact Or.inl (Or.inr ⟨token, pc, rfl, Or.inl h⟩)
      · exact Or.inr ⟨_, h⟩
    · rcases ha.result r h with h | ⟨h, -⟩
      · exact Or.inl (Or.inr ⟨token, pc, rfl, Or.inr h⟩)
      · exact Or.inl (Or.inr ⟨token, pc, rfl, Or.inl h⟩)

/-- Every record known after a step of the call `i` was known before, up to its `enabled` flag, or is the
new key of that call. -/
theorem known_step {i : ℕ} {c c' : Call} {r' : KeyRecord} (hi : s.calls.lookup i = some c)
    (hspec : CallSpec cfg s.store c st' c') (h : Known ⟨st', s.calls.insert i c'⟩ r') :
    (∃ r, Known s r ∧ r'.lookup = r.lookup ∧ r'.credVersion = r.credVersion ∧
      r'.keyHash = r.keyHash) ∨
    (pending c' = some r' ∧ r'.credVersion = st'.generation ∧
      st'.generation = s.store.generation + 1) := by
  rcases h with ⟨k, h⟩ | ⟨k, v, h, rfl⟩ | ⟨j, cj, hj, h⟩
  · left
    rcases hspec.runtime k r' h with ⟨r, hr, rfl | rfl⟩ | ⟨hp, -⟩
    · exact ⟨r', Or.inl ⟨k, hr⟩, rfl, rfl, rfl⟩
    · exact ⟨r, Or.inl ⟨k, hr⟩, rfl, rfl, rfl⟩
    · exact ⟨r', Or.inr (Or.inr ⟨i, c, hi, Or.inl hp⟩), rfl, rfl, rfl⟩
  · left
    rcases hspec.entries k v h with h | ⟨token, pc, hc, -, hr⟩
    · exact ⟨v.record, Or.inr (Or.inl ⟨k, v, h, rfl⟩), rfl, rfl, rfl⟩
    · exact ⟨v.record, Or.inr (Or.inr ⟨i, c, hi, Or.inr ⟨token, pc, hc, Or.inr hr⟩⟩), rfl, rfl, rfl⟩
  · simp only [lookup_insert] at hj
    split_ifs at hj with hji
    · cases hj
      rcases carries_step hspec h with (h | ⟨k, h⟩) | h
      · exact Or.inl ⟨r', Or.inr (Or.inr ⟨i, c, hi, h⟩), rfl, rfl, rfl⟩
      · exact Or.inl ⟨r', Or.inl ⟨k, h⟩, rfl, rfl, rfl⟩
      · exact Or.inr h
    · exact Or.inl ⟨r', Or.inr (Or.inr ⟨j, cj, hj, h⟩), rfl, rfl, rfl⟩

theorem versioned_init (l : Loaded) : Versioned (init l) := by
  have hknown : ∀ r, Known (init l) r → ∃ k, l.keys.lookup k = some r := by
    rintro r (h | ⟨k, v, h, -⟩ | ⟨i, c, h, -⟩)
    · exact h
    · cases h
    · cases h
  refine ⟨fun k r h => l.lookup_eq h, fun r h => ?_, fun r r' h h' hl _ => ?_,
    (fun i c p h => by cases h), (fun i c p i' c' p' h => by cases h)⟩
  · obtain ⟨k, hk⟩ := hknown r h
    exact (l.credVersion_eq hk).le
  · obtain ⟨k, hk⟩ := hknown r h
    obtain ⟨k', hk'⟩ := hknown r' h'
    rw [l.lookup_eq hk, l.lookup_eq hk'] at hl
    subst hl
    rw [hk] at hk'
    cases hk'
    rfl

theorem versioned_start (h : Versioned s) (i : ℕ) (request : Request) :
    Versioned { s with calls := s.calls.insert i request.call } := by
  have hknown : ∀ r, Known { s with calls := s.calls.insert i request.call } r → Known s r := by
    rintro r (h' | h' | ⟨j, cj, hj, hr⟩)
    · exact Or.inl h'
    · exact Or.inr (Or.inl h')
    · simp only [lookup_insert] at hj
      split_ifs at hj
      · cases hj
        exact absurd hr (not_carries_start request r)
      · exact Or.inr (Or.inr ⟨j, cj, hj, hr⟩)
  have hpend : ∀ j cj p, (s.calls.insert i request.call).lookup j = some cj → pending cj = some p →
      s.calls.lookup j = some cj := by
    intro j cj p hj hp
    rw [lookup_insert] at hj
    split_ifs at hj
    · cases hj
      rw [pending_start] at hp
      cases hp
    · exact hj
  exact ⟨h.keyed, fun r hr => h.below r (hknown r hr),
    fun r r' hr hr' => h.unique r r' (hknown r hr) (hknown r' hr'),
    fun j cj p hj hp => h.pendingNew j cj p (hpend j cj p hj hp) hp,
    fun j cj p j' cj' p' hj hp hj' hp' =>
      h.pendingOne j cj p j' cj' p' (hpend j cj p hj hp) hp (hpend j' cj' p' hj' hp') hp'⟩

theorem pending_step {i : ℕ} {c c' : Call} (hspec : CallSpec cfg s.store c st' c') {j : ℕ} {cj : Call}
    {p : KeyRecord} (hj : (s.calls.insert i c').lookup j = some cj) (hp : pending cj = some p) :
    (j ≠ i ∧ s.calls.lookup j = some cj) ∨
      (j = i ∧ p.credVersion = st'.generation ∧ st'.generation = s.store.generation + 1) := by
  rw [lookup_insert] at hj
  split_ifs at hj with hji
  · cases hj
    exact Or.inr ⟨hji, hspec.pending p hp⟩
  · exact Or.inl ⟨hji, hj⟩

theorem versioned_call (h : Versioned s) {i : ℕ} {c c' : Call} (hi : s.calls.lookup i = some c)
    (hspec : CallSpec cfg s.store c st' c') : Versioned ⟨st', s.calls.insert i c'⟩ := by
  have hge := hspec.generation
  have hcarried : ∀ j cj p, s.calls.lookup j = some cj → pending cj = some p → Known s p :=
    fun j cj p hj hp => Or.inr (Or.inr ⟨j, cj, hj, Or.inl hp⟩)
  refine ⟨fun k r hk => ?_, fun r hr => ?_, fun r r' hr hr' hl hv => ?_,
    fun j cj p hj hp k r hk => ?_, fun j cj p j' cj' p' hj hp hj' hp' hv => ?_⟩
  · rcases hspec.runtime k r hk with ⟨r0, hr0, rfl | rfl⟩ | ⟨-, hk'⟩
    · exact h.keyed k _ hr0
    · exact h.keyed k r0 hr0
    · exact hk'.symm
  · rcases known_step hi hspec hr with ⟨r0, hr0, -, hv, -⟩ | ⟨-, hv, -⟩
    · rw [hv]
      exact Nat.le_trans (h.below r0 hr0) hge
    · exact hv.le
  · rcases known_step hi hspec hr with ⟨r0, hr0, hl0, hv0, hh0⟩ | ⟨hp, hv0, hg⟩
    · rcases known_step hi hspec hr' with ⟨r1, hr1, hl1, hv1, hh1⟩ | ⟨-, hv1, hg⟩
      · rw [hh0, hh1]
        exact h.unique r0 r1 hr0 hr1 (hl0.symm.trans (hl.trans hl1))
          (hv0.symm.trans (hv.trans hv1))
      · have := h.below r0 hr0
        omega
    · rcases known_step hi hspec hr' with ⟨r1, hr1, -, hv1, -⟩ | ⟨hp', -, -⟩
      · have := h.below r1 hr1
        omega
      · rw [hp] at hp'
        cases hp'
        rfl
  · rcases pending_step hspec hj hp with ⟨hji, hj⟩ | ⟨rfl, hv, hg⟩
    · rcases hspec.runtime k r hk with ⟨r0, hr0, hr | hr⟩ | ⟨hpc, -⟩
      · rw [hr]
        exact h.pendingNew j cj p hj hp k r0 hr0
      · rw [hr]
        exact h.pendingNew j cj p hj hp k r0 hr0
      · exact fun heq => hji (h.pendingOne j cj p i c r hj hp hi hpc heq.symm)
    · have hle : r.credVersion ≤ s.store.generation := by
        rcases hspec.runtime k r hk with ⟨r0, hr0, hr | hr⟩ | ⟨hpc, -⟩
        · rw [hr]
          exact h.below r0 (Or.inl ⟨k, hr0⟩)
        · rw [hr]
          exact h.below r0 (Or.inl ⟨k, hr0⟩)
        · exact h.below r (hcarried j c r hi hpc)
      omega
  · rcases pending_step hspec hj hp with ⟨-, hj0⟩ | ⟨hji, hv0, hg⟩
    · rcases pending_step hspec hj' hp' with ⟨-, hj1⟩ | ⟨-, hv1, hg⟩
      · exact h.pendingOne j cj p j' cj' p' hj0 hp hj1 hp' hv
      · have := h.below p (hcarried j cj p hj0 hp)
        omega
    · rcases pending_step hspec hj' hp' with ⟨-, hj1⟩ | ⟨hji', -, -⟩
      · have := h.below p' (hcarried j' cj' p' hj1 hp')
        omega
      · rw [hji, hji']

/-- **One step keeps versions apart.** -/
theorem versioned_step {lab : Label} (h : Versioned s) (hs : step cfg s lab = some s') :
    Versioned s' := by
  rcases step_cases hs with ⟨i, request, hi, rfl⟩ | ⟨d, rfl⟩ | ⟨i, c, st', c', hi, hspec, rfl⟩
  · exact versioned_start h i request
  · exact ⟨h.keyed, h.below, h.unique, h.pendingNew, h.pendingOne⟩
  · exact versioned_call h hi hspec

theorem versioned_reaches (h : Reaches (step cfg) (init l) s) : Versioned s :=
  run_invariant (I := Versioned) (fun _ _ _ hi hs => versioned_step hi hs) (versioned_init l) h

end HomeLlmGateway.Storage.Versions
