import HomeLlmGateway.Storage.Tenants

/-! # Overlapping updates of tenants

`update_tenant` and `rotate_agent_token` copy the record of a tenant, write some columns of its row, and put
the whole copy back. If two calls on one tenant overlap, the later copy undoes in memory what the earlier
call has done: an old token verifies again (`rotated_token_comes_back`). If every call reads its tenant
while no other call is under way that has read it (`Serial`), nothing is lost (`no_lost_tenant_update`): a
token that has been replaced never verifies again, a tenant that has been disabled stays so until an update
enables it, a deleted tenant stays deleted, and when no call is under way memory is what the table says. -/

namespace HomeLlmGateway.Storage.TenantUpdates

open HomeLlmGateway.Lib.Runs HomeLlmGateway.Lib.Assoc HomeLlmGateway.Lib.Holding
open HomeLlmGateway.Gateway.Tenant (defaultTenantId)
open HomeLlmGateway.Storage.Keys (Config)
open HomeLlmGateway.Storage.Tenants

/-! ### How far a call is -/

/-- What a call that is under way has read or written of its tenant. -/
inductive Phase where
  | idle
  /-- it has read that the tenant is there, and goes on with a copy if it needs one -/
  | read (copy : Option TenantRecord)
  /-- it has written the row, or deleted it, and memory comes next -/
  | wrote (row : Option TenantRecord)
  deriving DecidableEq

def phase : Call → Phase
  | .createTenant _ _ _ (.publishing r _) => .wrote (some r)
  | .updateTenant _ _ (.checking r _) | .updateTenant _ _ (.updatingRow r _) => .read (some r)
  | .updateTenant _ _ (.publishing r) => .wrote (some r)
  | .deleteTenant _ .countingKeys | .deleteTenant _ .countingUsers | .deleteTenant _ .deletingRow => .read none
  | .deleteTenant _ .removing => .wrote none
  | .rotateAgentToken _ (.updatingRow r) => .read (some r)
  | .rotateAgentToken _ (.publishing _ r _) => .wrote (some r)
  | _ => .idle

/-- The tenant that a call is about. -/
def tenantOf : Call → Option String
  | .createTenant _ _ _ (.publishing r _) => some r.id
  | .createTenant _ _ _ _ => none
  | .updateTenant id _ _ => some id
  | .deleteTenant id _ => some id
  | .rotateAgentToken id _ => some id

/-- The tenant of a call that is under way. -/
def held (c : Call) : Option String := if phase c = .idle then none else tenantOf c

/-- The tenant that a call is about to read. -/
def begins : Call → Option String
  | .updateTenant id _ .start => some id
  | .deleteTenant id .start => some id
  | .rotateAgentToken id .start => some id
  | _ => none

/-- A call reads its tenant only while no other call is under way that has read it. -/
def Serial (s : State) : Label → Prop
  | .step i _ => ∀ c ∈ s.calls.lookup i, ∀ id ∈ begins c, ∀ e ∈ s.calls.entries, held e.2 ≠ some id
  | _ => True

/-! ### What a step of a call can do -/

/-- The record is put into memory, or taken out. -/
def publish (st : Store) (id : String) : Option TenantRecord → Store
  | some r => { st with tenants := st.tenants.insert id r }
  | none => { st with tenants := st.tenants.erase id }

/-- What a step of a call does to the store. -/
inductive Move (cfg : Config) (st : Store) (a : Answer) : Call → Store → Call → Prop
  /-- a call that holds no tenant goes on without one -/
  | idle (c c' : Call) (hc : phase c = .idle) (hc' : phase c' = .idle) : Move cfg st a c st c'
  | take (c c' : Call) (id : String) (r : TenantRecord) (copy : Option TenantRecord) (hb : begins c = some id)
      (hc : phase c = .idle) (hc' : phase c' = .read copy) (hid : tenantOf c' = some id)
      (hr : st.tenants.lookup id = some r) (hcopy : copy = some r ∨ copy = none ∧ id ≠ defaultTenantId) :
      Move cfg st a c st c'
  | wait (c c' : Call) (copy : Option TenantRecord) (hc : phase c = .read copy) (hc' : phase c' = .read copy)
      (hid : tenantOf c' = tenantOf c) : Move cfg st a c st c'
  | leave (c c' : Call) (copy : Option TenantRecord) (hc : phase c = .read copy) (hc' : phase c' = .idle) :
      Move cfg st a c st c'
  | createRow (name name' : String) (max rpm : UInt32) (token : String) (r : TenantRecord) (now : ℕ)
      (ha : a = .written r.id token now) (hfree : st.tenantRows.lookup r.id = none)
      (hhash : r.agentTokenHash = cfg.lookupOf token) :
      Move cfg st a (.createTenant name max rpm (.inserting name'))
        { st with tenantRows := st.tenantRows.insert r.id r } (.createTenant name max rpm (.publishing r token))
  | updateRow (id : String) (patch : TenantPatch) (current : TenantRecord) (name : String) :
      Move cfg st a (.updateTenant id patch (.updatingRow current name))
        { st with tenantRows := modify id (updateColumns (updatedRecord current patch name)) st.tenantRows }
        (.updateTenant id patch (.publishing (updatedRecord current patch name)))
  | rotateRow (id : String) (current : TenantRecord) (newId token : String) (now : ℕ)
      (ha : a = .written newId token now) :
      Move cfg st a (.rotateAgentToken id (.updatingRow current))
        { st with
          tenantRows := modify id (fun row => { row with agentTokenHash := cfg.lookupOf token }) st.tenantRows }
        (.rotateAgentToken id
          (.publishing current { current with agentTokenHash := cfg.lookupOf token } token))
  | deleteRow (id : String) :
      Move cfg st a (.deleteTenant id .deletingRow) { st with tenantRows := st.tenantRows.erase id }
        (.deleteTenant id .removing)
  | publish (c c' : Call) (id : String) (row : Option TenantRecord) (hc : phase c = .wrote row)
      (hid : tenantOf c = some id) (hc' : phase c' = .idle) : Move cfg st a c (publish st id row) c'

variable {cfg : Config} {st st' : Store} {a : Answer}

theorem move_create {name : String} {max rpm : UInt32} {pc pc' : CreatePc}
    (h : createTenantStep cfg st a name max rpm pc = some (st', pc')) :
    Move cfg st a (.createTenant name max rpm pc) st' (.createTenant name max rpm pc') := by
  rcases pc with _ | name' | ⟨r, token⟩ | res
  · simp only [createTenantStep] at h
    split at h
    · cases h
      exact .idle _ _ rfl rfl
    · split_ifs at h
      · cases h
        exact .idle _ _ rfl rfl
      · cases h
        exact .idle _ _ rfl rfl
  · simp only [createTenantStep] at h
    split at h
    · next id token now =>
      split_ifs at h with htaken
      · cases h
        exact .idle _ _ rfl rfl
      · cases h
        rw [Bool.or_eq_true, not_or] at htaken
        have hfree : st.tenantRows.lookup id = none := by simpa using htaken.1
        exact .createRow name name' max rpm token ⟨id, name', now, true, max, rpm, cfg.lookupOf token⟩ now rfl
          hfree rfl
    · cases h
      exact .idle _ _ rfl rfl
    · cases h
  · cases h
    exact .publish _ _ r.id (some r) rfl rfl rfl
  · cases h

theorem move_update {id : String} {patch : TenantPatch} {pc pc' : UpdatePc}
    (h : updateTenantStep st a id patch pc = some (st', pc')) :
    Move cfg st a (.updateTenant id patch pc) st' (.updateTenant id patch pc') := by
  rcases pc with _ | ⟨r, name⟩ | ⟨r, name⟩ | r | res
  · simp only [updateTenantStep] at h
    rcases hr : st.tenants.lookup id with _ | r
    · simp only [hr] at h
      cases h
      exact .idle _ _ rfl rfl
    · simp only [hr] at h
      split at h
      · cases h
        exact .idle _ _ rfl rfl
      · cases h
        split_ifs
        · exact .take _ _ id r (some r) rfl rfl rfl rfl hr (Or.inl rfl)
        · exact .take _ _ id r (some r) rfl rfl rfl rfl hr (Or.inl rfl)
  · simp only [updateTenantStep] at h
    split_ifs at h
    · cases h
      exact .leave _ _ (some r) rfl rfl
    · cases h
      exact .wait _ _ (some r) rfl rfl rfl
  · simp only [updateTenantStep] at h
    split at h
    · split_ifs at h
      · cases h
        exact .leave _ _ (some r) rfl rfl
      · cases h
        exact .updateRow id patch r name
    · cases h
      exact .leave _ _ (some r) rfl rfl
    · cases h
  · cases h
    exact .publish _ _ id (some r) rfl rfl rfl
  · cases h

theorem move_delete {id : String} {pc pc' : DeletePc} (h : deleteTenantStep st a id pc = some (st', pc')) :
    Move cfg st a (.deleteTenant id pc) st' (.deleteTenant id pc') := by
  rcases pc with _ | _ | _ | _ | _ | res
  · simp only [deleteTenantStep] at h
    split_ifs at h with hd
    · cases h
      exact .idle _ _ rfl rfl
    · rcases hr : st.tenants.lookup id with _ | r
      · simp only [hr] at h
        cases h
        exact .idle _ _ rfl rfl
      · simp only [hr] at h
        cases h
        exact .take _ _ id r none rfl rfl rfl rfl hr (Or.inr ⟨rfl, hd⟩)
  · simp only [deleteTenantStep] at h
    split at h
    · cases h
      split_ifs
      · exact .leave _ _ none rfl rfl
      · exact .wait _ _ none rfl rfl rfl
    · cases h
  · simp only [deleteTenantStep] at h
    split at h
    · cases h
      split_ifs
      · exact .leave _ _ none rfl rfl
      · exact .wait _ _ none rfl rfl rfl
    · cases h
  · simp only [deleteTenantStep] at h
    split at h
    · cases h
      exact .deleteRow id
    · cases h
      exact .leave _ _ none rfl rfl
    · cases h
  · cases h
    exact .publish _ _ id none rfl rfl rfl
  · cases h

theorem move_rotate {id : String} {pc pc' : RotatePc} (h : rotateStep cfg st a id pc = some (st', pc')) :
    Move cfg st a (.rotateAgentToken id pc) st' (.rotateAgentToken id pc') := by
  rcases pc with _ | r | ⟨r, r', token⟩ | res
  · simp only [rotateStep] at h
    rcases hr : st.tenants.lookup id with _ | r
    · simp only [hr] at h
      cases h
      exact .idle _ _ rfl rfl
    · simp only [hr] at h
      cases h
      exact .take _ _ id r (some r) rfl rfl rfl rfl hr (Or.inl rfl)
  · simp only [rotateStep] at h
    split at h
    · next newId token now =>
      cases h
      exact .rotateRow id r newId token now rfl
    · cases h
      exact .leave _ _ (some r) rfl rfl
    · cases h
  · cases h
    exact .publish _ _ id (some r') rfl rfl rfl
  · cases h

theorem move_of_callStep {c c' : Call} (h : callStep cfg st a c = some (st', c')) :
    Move cfg st a c st' c' := by
  unfold callStep at h
  rcases c with ⟨name, max, rpm, pc⟩ | ⟨id, patch, pc⟩ | ⟨id, pc⟩ | ⟨id, pc⟩
  all_goals
    simp only [Option.map_eq_some_iff] at h
    obtain ⟨⟨st1, pc'⟩, hp, he⟩ := h
    cases he
  · exact move_create hp
  · exact move_update hp
  · exact move_delete hp
  · exact move_rotate hp

/-! ### The invariant -/

/-- What memory and the table have of a tenant, given the call that holds it. -/
def SyncedAt (s : State) (u : String) : Option Call → Prop
  | none => s.store.tenants.lookup u = s.store.tenantRows.lookup u
  | some c => u ∈ s.ids ∧
    match phase c with
    | .idle => False
    | .read copy => s.store.tenants.lookup u = s.store.tenantRows.lookup u ∧
        (∀ r, copy = some r → s.store.tenantRows.lookup u = some r) ∧ (copy = none → u ≠ defaultTenantId)
    | .wrote row => s.store.tenantRows.lookup u = row

/-- What the call wrote is what its caller asked for. -/
def Faithful (hashes : List String) : Call → Prop
  | .updateTenant _ patch (.publishing r) => ∀ b, patch.enabled = some b → r.enabled = b
  | .rotateAgentToken _ (.publishing old r _) => old.agentTokenHash ∈ hashes ∧
      r.agentTokenHash ≠ old.agentTokenHash
  | _ => True

structure Inv (s : State) : Prop where
  exclusive : Exclusive held s.calls
  synced : ∀ u o, On held s.calls u o → SyncedAt s u o
  faithful : ∀ i c, s.calls.lookup i = some c → Faithful s.hashes c
  known : ∀ id r, s.store.tenantRows.lookup id = some r → id ∈ s.ids ∧ r.agentTokenHash ∈ s.hashes
  default : (s.store.tenantRows.lookup defaultTenantId).isSome

theorem held_eq_some {c : Call} {u : String} : held c = some u ↔ phase c ≠ .idle ∧ tenantOf c = some u := by
  unfold held
  split_ifs with h
  · simp [h]
  · simp [h]

theorem held_of_idle {c : Call} (h : phase c = .idle) : held c = none := by
  unfold held
  rw [if_pos h]

theorem held_of_phase {c : Call} {p : Phase} (h : phase c = p) (hp : p ≠ .idle) : held c = tenantOf c := by
  unfold held
  rw [if_neg (h ▸ hp)]

/-- A table that has the default tenant is loaded as it is. -/
theorem load_of_default {rows : HashMap String TenantRecord} (h : (rows.lookup defaultTenantId).isSome) :
    Store.load rows = ⟨rows, rows⟩ := by
  unfold Store.load
  simp [h]

theorem inv_init : Inv init := by
  refine ⟨exclusive_empty, forall_on_empty fun u => rfl, fun i c hi => (by cases hi), fun id r h => ?_,
    (by decide)⟩
  have hrows : init.store.tenantRows = AList.insert defaultTenantId defaultTenant ∅ := rfl
  rw [hrows, lookup_insert] at h
  split_ifs at h with hid
  · cases h
    exact ⟨by rw [hid]; exact List.mem_singleton_self _, List.mem_singleton_self _⟩
  · cases h

theorem inv_restart {s : State} (h : Inv s) :
    Inv { s with store := .load s.store.tenantRows, calls := ∅ } := by
  rw [load_of_default h.default]
  exact ⟨exclusive_empty, forall_on_empty fun u => rfl, fun i c hi => (by cases hi), h.known, h.default⟩

theorem inv_start {s : State} (h : Inv s) {i : ℕ} {request : Request} (hi : s.calls.lookup i = none) :
    Inv { s with calls := s.calls.insert i request.call } := by
  have hidle : held request.call = none := by
    rcases request with _ | _ | _ | _ <;> rfl
  refine ⟨h.exclusive.insert fun u hu => ?_, ?_, fun j c hj => ?_, h.known, h.default⟩
  · rw [hidle] at hu
    cases hu
  · refine forall_on_free (fun c hc => ?_) hidle h.synced fun v o _ hP => hP
    rw [hi] at hc
    cases hc
  · rw [lookup_insert] at hj
    split_ifs at hj
    · cases hj
      rcases request with _ | _ | _ | _ <;> trivial
    · exact h.faithful j c hj

/-! ### One step -/

/-- The state after a step of the call `i`. -/
def after (cfg : Config) (s : State) (i : ℕ) (c : Call) (a : Answer) (st' : Store) (c' : Call) : State :=
  ⟨st', s.calls.insert i c', s.ids ++ (newId c a).toList, s.hashes ++ ((newToken c a).map cfg.lookupOf).toList⟩

variable {s s' : State} {i : ℕ} {c c' : Call}

theorem SyncedAt.frame {u : String} {o : Option Call} (h : SyncedAt s u o) (hids : ∀ id ∈ s.ids, id ∈ s'.ids)
    (ht : s'.store.tenants.lookup u = s.store.tenants.lookup u)
    (hr : s'.store.tenantRows.lookup u = s.store.tenantRows.lookup u) : SyncedAt s' u o := by
  rcases o with _ | c
  · unfold SyncedAt at h ⊢
    rw [ht, hr, h]
  · unfold SyncedAt at h ⊢
    obtain ⟨hid, h⟩ := h
    refine ⟨hids u hid, ?_⟩
    rcases hp : phase c with _ | copy | row
    · rw [hp] at h
      exact h
    · rw [hp] at h
      simp only [ht, hr]
      exact h
    · rw [hp] at h
      simp only [hr]
      exact h

theorem mem_ids_after {st' : Store} {id : String} (h : id ∈ s.ids) : id ∈ (after cfg s i c a st' c').ids :=
  List.mem_append_left _ h

theorem mem_hashes_after {st' : Store} {hash : String} (h : hash ∈ s.hashes) :
    hash ∈ (after cfg s i c a st' c').hashes := List.mem_append_left _ h

theorem Faithful.mono {hashes hashes' : List String} {c : Call} (h : Faithful hashes c)
    (hsub : ∀ hash ∈ hashes, hash ∈ hashes') : Faithful hashes' c := by
  unfold Faithful at h ⊢
  split
  · exact h
  · exact ⟨hsub _ h.1, h.2⟩
  · trivial

/-- The calls stay faithful if the one that goes on does. -/
theorem Inv.faithful_after (h : Inv s) {st' : Store} (hc' : Faithful (after cfg s i c a st' c').hashes c') :
    ∀ j d, (after cfg s i c a st' c').calls.lookup j = some d →
      Faithful (after cfg s i c a st' c').hashes d := by
  intro j d hj
  rw [after, lookup_insert] at hj
  split_ifs at hj
  · cases hj
    exact hc'
  · exact (h.faithful j d hj).mono fun hash hh => mem_hashes_after hh

theorem faithful_of_phase {hashes : List String} (h : ∀ row, phase c ≠ .wrote row) : Faithful hashes c := by
  unfold Faithful
  split
  · exact absurd rfl (h _)
  · exact absurd rfl (h _)
  · trivial

theorem Inv.syncedOf (h : Inv s) (hi : s.calls.lookup i = some c) {u : String} (hu : held c = some u) :
    SyncedAt s u (some c) := h.synced u (some c) ⟨hu, i, hi⟩

theorem SyncedAt.of_read {u : String} (h : SyncedAt s u (some c)) (copy : Option TenantRecord)
    (hc : phase c = .read copy) : u ∈ s.ids ∧ s.store.tenants.lookup u = s.store.tenantRows.lookup u ∧
      (∀ r, copy = some r → s.store.tenantRows.lookup u = some r) ∧ (copy = none → u ≠ defaultTenantId) := by
  simp only [SyncedAt, hc] at h
  exact h

theorem SyncedAt.of_wrote {u : String} {row : Option TenantRecord} (h : SyncedAt s u (some c))
    (hc : phase c = .wrote row) : u ∈ s.ids ∧ s.store.tenantRows.lookup u = row := by
  simp only [SyncedAt, hc] at h
  exact h

theorem syncedAt_read {u : String} {copy : Option TenantRecord} (hid : u ∈ s.ids) (hc : phase c = .read copy)
    (h : s.store.tenants.lookup u = s.store.tenantRows.lookup u)
    (hcopy : ∀ r, copy = some r → s.store.tenantRows.lookup u = some r)
    (hd : copy = none → u ≠ defaultTenantId) : SyncedAt s u (some c) := by
  simp only [SyncedAt, hc]
  exact ⟨hid, h, hcopy, hd⟩

theorem syncedAt_wrote {u : String} (row : Option TenantRecord) (hid : u ∈ s.ids) (hc : phase c = .wrote row)
    (h : s.store.tenantRows.lookup u = row) : SyncedAt s u (some c) := by
  simp only [SyncedAt, hc]
  exact ⟨hid, h⟩

theorem Inv.write (h : Inv s) (hi : s.calls.lookup i = some c) (u : String) (copy row : Option TenantRecord)
    (hc : phase c = .read copy) (hu : tenantOf c = some u) (hc' : phase c' = .wrote row)
    (hu' : tenantOf c' = some u) {rows : HashMap String TenantRecord}
    (hrow : rows.lookup u = row) (hrows : ∀ v, v ≠ u → rows.lookup v = s.store.tenantRows.lookup v)
    (hhash : ∀ r, row = some r → r.agentTokenHash ∈ s.hashes ++ ((newToken c a).map cfg.lookupOf).toList)
    (hdef : row = none → u ≠ defaultTenantId)
    (hf : Faithful (after cfg s i c a { s.store with tenantRows := rows } c').hashes c') :
    Inv (after cfg s i c a { s.store with tenantRows := rows } c') := by
  have hheld : held c = some u := by rw [held_of_phase hc (by simp), hu]
  have hheld' : held c' = some u := by rw [held_of_phase hc' (by simp), hu']
  have hid := ((h.syncedOf hi hheld).of_read _ hc).1
  refine ⟨h.exclusive.insert fun v hv => Or.inl ⟨c, hi, ?_⟩, ?_, h.faithful_after hf, fun id r hr => ?_, ?_⟩
  · rw [hheld, ← hheld', hv]
  · refine forall_on_step h.exclusive hi hheld (fun v hv => ?_) h.synced (fun v o hv _ hP => ?_) (fun _ => ?_)
      fun hnone => ?_
    · rw [hheld'] at hv
      exact (Option.some.inj hv).symm
    · exact hP.frame (fun id hid => mem_ids_after hid) rfl (hrows v hv)
    · exact syncedAt_wrote row (mem_ids_after hid) hc' hrow
    · rw [hheld'] at hnone
      cases hnone
  · by_cases hid' : id = u
    · subst hid'
      exact ⟨mem_ids_after hid, hhash r (hrow.symm.trans hr)⟩
    · have hold := h.known id r ((hrows id hid').symm.trans hr)
      exact ⟨mem_ids_after hold.1, mem_hashes_after hold.2⟩
  · show (rows.lookup defaultTenantId).isSome
    by_cases hd : defaultTenantId = u
    · rw [hd, hrow]
      rcases row with _ | r
      · exact absurd hd.symm (hdef rfl)
      · rfl
    · rw [hrows _ hd]
      exact h.default

/-- A call that has read a tenant is about it. -/
theorem tenantOf_of_read {copy : Option TenantRecord} (h : phase c = .read copy) :
    ∃ u, tenantOf c = some u := by
  rcases c with ⟨name, max, rpm, pc⟩ | ⟨id, patch, pc⟩ | ⟨id, pc⟩ | ⟨id, pc⟩
  · rcases pc with _ | _ | _ | _ <;> cases h
  · exact ⟨id, rfl⟩
  · exact ⟨id, rfl⟩
  · exact ⟨id, rfl⟩

theorem Inv.quiet (h : Inv s) (hi : s.calls.lookup i = some c)
    (hc : phase c = .idle ∧ phase c' = .idle ∨
      (∃ copy, phase c = .read copy ∧ (phase c' = .read copy ∧ tenantOf c' = tenantOf c ∨ phase c' = .idle))) :
    Inv (after cfg s i c a s.store c') := by
  have hf : Faithful (after cfg s i c a s.store c').hashes c' := by
    refine faithful_of_phase fun row hrow => ?_
    rcases hc with ⟨-, hc'⟩ | ⟨copy, -, ⟨hc', -⟩ | hc'⟩ <;> rw [hrow] at hc' <;> cases hc'
  have hknown : ∀ id r, s.store.tenantRows.lookup id = some r →
      id ∈ (after cfg s i c a s.store c').ids ∧ r.agentTokenHash ∈ (after cfg s i c a s.store c').hashes :=
    fun id r hr => ⟨mem_ids_after (h.known id r hr).1, mem_hashes_after (h.known id r hr).2⟩
  have hframe : ∀ v o, SyncedAt s v o → SyncedAt (after cfg s i c a s.store c') v o :=
    fun v o hP => hP.frame (fun id hid => mem_ids_after hid) rfl rfl
  rcases hc with ⟨hc, hc'⟩ | ⟨copy, hc, hc'⟩
  · refine ⟨h.exclusive.insert fun u hu => ?_, ?_, h.faithful_after hf, hknown, h.default⟩
    · rw [held_of_idle hc'] at hu
      cases hu
    · refine forall_on_free (fun d hd => ?_) (held_of_idle hc') h.synced fun v o _ hP => hframe v o hP
      rw [hi] at hd
      cases hd
      exact held_of_idle hc
  · obtain ⟨u, hu⟩ := tenantOf_of_read hc
    have hheld : held c = some u := by rw [held_of_phase hc (by simp), hu]
    have hsync := (h.syncedOf hi hheld).of_read _ hc
    have hheld' : ∀ v, held c' = some v → v = u := by
      intro v hv
      obtain ⟨hne, hv⟩ := held_eq_some.mp hv
      rcases hc' with ⟨hc', hid⟩ | hc'
      · rw [hid, hu] at hv
        exact (Option.some.inj hv).symm
      · exact absurd hc' hne
    refine ⟨h.exclusive.insert fun v hv => Or.inl ⟨c, hi, ?_⟩, ?_, h.faithful_after hf, hknown, h.default⟩
    · rw [hheld, hheld' v hv]
    · refine forall_on_step h.exclusive hi hheld hheld' h.synced (fun v o _ _ hP => hframe v o hP)
        (fun hown => ?_) fun _ => hsync.2.1
      rcases hc' with ⟨hc', -⟩ | hc'
      · exact syncedAt_read (mem_ids_after hsync.1) hc' hsync.2.1 hsync.2.2.1 hsync.2.2.2
      · rw [held_of_idle hc'] at hown
        cases hown

theorem Inv.take (h : Inv s) (hi : s.calls.lookup i = some c) {id : String} {r : TenantRecord}
    {copy : Option TenantRecord} (hfree : On held s.calls id none) (hc : phase c = .idle)
    (hc' : phase c' = .read copy) (hid : tenantOf c' = some id) (hr : s.store.tenants.lookup id = some r)
    (hcopy : copy = some r ∨ copy = none ∧ id ≠ defaultTenantId) : Inv (after cfg s i c a s.store c') := by
  have hheld' : held c' = some id := by rw [held_of_phase hc' (by simp), hid]
  have hsync : s.store.tenants.lookup id = s.store.tenantRows.lookup id := h.synced id none hfree
  have hrow : s.store.tenantRows.lookup id = some r := hsync.symm.trans hr
  refine ⟨h.exclusive.insert fun v hv => Or.inr ?_, ?_, h.faithful_after ?_, fun v r' hr' => ?_, h.default⟩
  · rw [hheld'] at hv
    cases hv
    exact hfree
  · refine forall_on_take (fun d hd => ?_) hfree hheld' h.synced (fun v o _ _ hP => ?_) fun _ => ?_
    · rw [hi] at hd
      cases hd
      exact held_of_idle hc
    · exact hP.frame (fun id hid => mem_ids_after hid) rfl rfl
    · refine syncedAt_read (mem_ids_after (h.known id r hrow).1) hc' hsync (fun r' hr' => ?_) fun hnone => ?_
      · rcases hcopy with rfl | ⟨rfl, -⟩
        · cases hr'
          exact hrow
        · cases hr'
      · rcases hcopy with rfl | ⟨-, hd⟩
        · cases hnone
        · exact hd
  · refine faithful_of_phase fun row hrow => ?_
    rw [hc'] at hrow
    cases hrow
  · exact ⟨mem_ids_after (h.known v r' hr').1, mem_hashes_after (h.known v r' hr').2⟩

theorem Inv.create (h : Inv s) {name name' token : String} {max rpm : UInt32} {r : TenantRecord} {now : ℕ}
    (hi : s.calls.lookup i = some (.createTenant name max rpm (.inserting name')))
    (hnew : r.id ∉ s.ids) (hhash : r.agentTokenHash = cfg.lookupOf token) :
    Inv (after cfg s i (.createTenant name max rpm (.inserting name')) (.written r.id token now)
      { s.store with tenantRows := s.store.tenantRows.insert r.id r }
      (.createTenant name max rpm (.publishing r token))) := by
  have hfree : On held s.calls r.id none := by
    intro j d hj hd
    have hsync := h.synced r.id (some d) ⟨hd, j, hj⟩
    unfold SyncedAt at hsync
    exact hnew hsync.1
  refine ⟨h.exclusive.insert fun v hv => Or.inr ?_, ?_, h.faithful_after trivial, fun v r' hr' => ?_, ?_⟩
  · cases hv
    exact hfree
  · refine forall_on_take (fun d hd => ?_) hfree rfl h.synced (fun v o hv _ hP => ?_) fun _ => ?_
    · rw [hi] at hd
      cases hd
      rfl
    · refine hP.frame (fun id hid => mem_ids_after hid) rfl ?_
      show (s.store.tenantRows.insert r.id r).lookup v = _
      rw [lookup_insert, if_neg hv]
    · refine syncedAt_wrote (some r) ?_ rfl ?_
      · exact List.mem_append_right _ (List.mem_singleton_self r.id)
      · show (s.store.tenantRows.insert r.id r).lookup r.id = _
        rw [lookup_insert, if_pos rfl]
  · change (s.store.tenantRows.insert r.id r).lookup v = some r' at hr'
    rw [lookup_insert] at hr'
    split_ifs at hr' with hv
    · cases hr'
      refine ⟨?_, ?_⟩
      · rw [hv]
        exact List.mem_append_right _ (List.mem_singleton_self r.id)
      · rw [hhash]
        exact List.mem_append_right _ (List.mem_singleton_self _)
    · exact ⟨mem_ids_after (h.known v r' hr').1, mem_hashes_after (h.known v r' hr').2⟩
  · show ((s.store.tenantRows.insert r.id r).lookup defaultTenantId).isSome
    rw [lookup_insert]
    split_ifs
    · rfl
    · exact h.default

theorem Inv.published (h : Inv s) (cfg : Config) (a : Answer) (hi : s.calls.lookup i = some c) {id : String}
    {row : Option TenantRecord}
    (hc : phase c = .wrote row) (hid : tenantOf c = some id) (hc' : phase c' = .idle) :
    Inv (after cfg s i c a (publish s.store id row) c') ∧
      (publish s.store id row).tenants.lookup id = row ∧ s.store.tenantRows.lookup id = row ∧ id ∈ s.ids := by
  have hheld : held c = some id := by rw [held_of_phase hc (by simp), hid]
  obtain ⟨hknown, hrow⟩ := (h.syncedOf hi hheld).of_wrote hc
  have hrows : (publish s.store id row).tenantRows = s.store.tenantRows := by
    rcases row with _ | r <;> rfl
  have hself : (publish s.store id row).tenants.lookup id = row := by
    rcases row with _ | r
    · exact (lookup_erase _ _ _).trans (if_pos rfl)
    · exact (lookup_insert _ _ _ _).trans (if_pos rfl)
  have hother : ∀ v, v ≠ id → (publish s.store id row).tenants.lookup v = s.store.tenants.lookup v := by
    intro v hv
    rcases row with _ | r
    · exact (lookup_erase _ _ _).trans (if_neg hv)
    · exact (lookup_insert _ _ _ _).trans (if_neg hv)
  refine ⟨⟨h.exclusive.insert fun v hv => ?_, ?_, h.faithful_after ?_, fun v r' hr' => ?_, ?_⟩, hself, hrow,
    hknown⟩
  · rw [held_of_idle hc'] at hv
    cases hv
  · refine forall_on_step h.exclusive hi hheld (fun v hv => ?_) h.synced (fun v o hv _ hP => ?_)
      (fun hown => ?_)
      fun _ => ?_
    · rw [held_of_idle hc'] at hv
      cases hv
    · refine hP.frame (fun id hid => mem_ids_after hid) (hother v hv) ?_
      show (publish s.store id row).tenantRows.lookup v = _
      rw [hrows]
    · rw [held_of_idle hc'] at hown
      cases hown
    · show (publish s.store id row).tenants.lookup id = (publish s.store id row).tenantRows.lookup id
      rw [hself, hrows, hrow]
  · refine faithful_of_phase fun row hrow => ?_
    rw [hc'] at hrow
    cases hrow
  · have hr : s.store.tenantRows.lookup v = some r' := by
      rw [← hrows]
      exact hr'
    exact ⟨mem_ids_after (h.known v r' hr).1, mem_hashes_after (h.known v r' hr).2⟩
  · show ((publish s.store id row).tenantRows.lookup defaultTenantId).isSome
    rw [hrows]
    exact h.default

theorem fresh_id {name name' id token : String} {max rpm : UInt32} {now : ℕ}
    (h : possible cfg s (.createTenant name max rpm (.inserting name')) (.written id token now) = true) :
    id ∉ s.ids := by
  simp only [possible, newId, newToken, Option.all_some, Bool.and_eq_true] at h
  simpa using h.1

theorem fresh_hash {id newId token : String} {current : TenantRecord} {now : ℕ}
    (h : possible cfg s (.rotateAgentToken id (.updatingRow current)) (.written newId token now) = true) :
    cfg.lookupOf token ∉ s.hashes := by
  simp only [possible, Tenants.newId, newToken, Option.all_none, Option.all_some, Bool.true_and] at h
  simpa using h

theorem Inv.move (h : Inv s) {st' : Store} (hi : s.calls.lookup i = some c)
    (hposs : possible cfg s c a = true)
    (hserial : ∀ id, begins c = some id → On held s.calls id none) (hm : Move cfg s.store a c st' c') :
    Inv (after cfg s i c a st' c') := by
  rcases hm with ⟨_, _, hc, hc'⟩ | ⟨_, _, id, r, copy, hb, hc, hc', hid, hr, hcopy⟩ |
    ⟨_, _, copy, hc, hc', hid⟩ |
    ⟨_, _, copy, hc, hc'⟩ | ⟨name, name', max, rpm, token, r, now, ha, hfree, hhash⟩ |
    ⟨id, patch, current, name⟩ | ⟨id, current, newId, token, now, ha⟩ | id | ⟨_, _, id, row, hc, hid, hc'⟩
  · exact h.quiet hi (Or.inl ⟨hc, hc'⟩)
  · exact h.take hi (hserial id hb) hc hc' hid hr hcopy
  · exact h.quiet hi (Or.inr ⟨copy, hc, Or.inl ⟨hc', hid⟩⟩)
  · exact h.quiet hi (Or.inr ⟨copy, hc, Or.inr hc'⟩)
  · subst ha
    exact h.create hi (fresh_id hposs) hhash
  · obtain ⟨-, -, hcopy, -⟩ := (h.syncedOf hi (u := id) rfl).of_read (some current) rfl
    have hrow := hcopy current rfl
    refine h.write hi id (some current) (some (updatedRecord current patch name)) rfl rfl rfl
      rfl ?_ (fun v hv => ?_) (fun r hr => ?_) (fun hn => (by cases hn)) fun b hb => ?_
    · rw [lookup_modify, if_pos rfl, hrow]
      rfl
    · rw [lookup_modify, if_neg hv]
    · cases hr
      exact List.mem_append_left _ (h.known id current hrow).2
    · simp [updatedRecord, hb]
  · subst ha
    obtain ⟨-, -, hcopy, -⟩ := (h.syncedOf hi (u := id) rfl).of_read (some current) rfl
    have hrow := hcopy current rfl
    have hold := (h.known id current hrow).2
    have hnew := fresh_hash hposs
    refine h.write hi id (some current)
      (some { current with agentTokenHash := cfg.lookupOf token }) rfl rfl rfl rfl ?_ (fun v hv => ?_)
      (fun r hr => ?_) (fun hn => (by cases hn)) ⟨mem_hashes_after hold, fun he => hnew ?_⟩
    · rw [lookup_modify, if_pos rfl, hrow]
      rfl
    · rw [lookup_modify, if_neg hv]
    · cases hr
      exact List.mem_append_right _ (List.mem_singleton_self _)
    · rw [show cfg.lookupOf token = current.agentTokenHash from he]
      exact hold
  · obtain ⟨-, -, -, hd⟩ := (h.syncedOf hi (u := id) rfl).of_read none rfl
    refine h.write hi id none none rfl rfl rfl rfl ?_ (fun v hv => ?_)
      (fun r hr => (by cases hr)) (fun _ => hd rfl) trivial
    · rw [lookup_erase, if_pos rfl]
    · rw [lookup_erase, if_neg hv]
  · exact (h.published cfg a hi hc hid hc').1

theorem step_cases {l : Label} (h : step cfg s l = some s') :
    (∃ i request, l = .start i request ∧ s.calls.lookup i = none ∧
      s' = { s with calls := s.calls.insert i request.call }) ∨
      (∃ i a c st' c', l = .step i a ∧ s.calls.lookup i = some c ∧ possible cfg s c a = true ∧
        Move cfg s.store a c st' c' ∧ s' = after cfg s i c a st' c') ∨
      l = .restart ∧ s' = { s with store := .load s.store.tenantRows, calls := ∅ } := by
  unfold step at h
  rcases l with ⟨i, request⟩ | ⟨i, a⟩ | _
  · rcases hi : s.calls.lookup i with _ | c
    · simp only [hi] at h
      cases h
      exact Or.inl ⟨i, request, rfl, hi, rfl⟩
    · simp only [hi] at h
      cases h
  · rcases hi : s.calls.lookup i with _ | c
    · simp [hi] at h
    · simp only [hi, Option.bind_some] at h
      split_ifs at h with hposs
      obtain ⟨⟨st', c'⟩, hstep, he⟩ := Option.map_eq_some_iff.mp h
      exact Or.inr (Or.inl ⟨i, a, c, st', c', rfl, hi, hposs, move_of_callStep hstep, he.symm⟩)
  · cases h
    exact Or.inr (Or.inr ⟨rfl, rfl⟩)

theorem on_none_of_serial {l : Label} (h : Serial s l) {i : ℕ} {a : Answer} (hl : l = .step i a)
    (hi : s.calls.lookup i = some c) {id : String} (hb : begins c = some id) : On held s.calls id none := by
  subst hl
  intro j d hj
  exact h c hi id hb ⟨j, d⟩ ((mem_entries_iff _ _ _).mpr hj)

theorem inv_step {l : Label} (h : Inv s) (hC : Serial s l) (hs : step cfg s l = some s') : Inv s' := by
  rcases step_cases hs with ⟨i, request, -, hi, rfl⟩ | ⟨i, a, c, st', c', hl, hi, hposs, hm, rfl⟩ | ⟨-, rfl⟩
  · exact inv_start h hi
  · exact h.move hi hposs (fun id hb => on_none_of_serial hC hl hi hb) hm
  · exact inv_restart h

theorem known_step {l : Label} (hs : step cfg s l = some s') :
    (∀ id ∈ s.ids, id ∈ s'.ids) ∧ ∀ hash ∈ s.hashes, hash ∈ s'.hashes := by
  rcases step_cases hs with ⟨i, request, -, hi, rfl⟩ | ⟨i, a, c, st', c', hl, hi, hposs, hm, rfl⟩ | ⟨-, rfl⟩
  · exact ⟨fun _ h => h, fun _ h => h⟩
  · exact ⟨fun _ h => mem_ids_after h, fun _ h => mem_hashes_after h⟩
  · exact ⟨fun _ h => h, fun _ h => h⟩

/-! ### What is true of a tenant for good -/

/-- Whatever memory and table have of the tenant has the property. -/
structure Everywhere (p : TenantRecord → Prop) (u : String) (st : Store) : Prop where
  memory : ∀ r, st.tenants.lookup u = some r → p r
  table : ∀ r, st.tenantRows.lookup u = some r → p r

/-- The statement of this step, if it changes the tenant, keeps the property. -/
def Keeps (p : TenantRecord → Prop) (u : String) (s : State) : Label → Prop
  | .step i _ => ∀ c, s.calls.lookup i = some c →
    match c with
    | .updateTenant id patch (.updatingRow current name) =>
      id = u → p current → p (updatedRecord current patch name)
    | .rotateAgentToken id (.updatingRow current) =>
      id = u → p current → ∀ hash, hash ∉ s.hashes → p { current with agentTokenHash := hash }
    | _ => True
  | _ => True

theorem everywhere_step {p : TenantRecord → Prop} {u : String} {l : Label} (h : Inv s) (hu : u ∈ s.ids)
    (hE : Everywhere p u s.store) (hK : Keeps p u s l) (hs : step cfg s l = some s') :
    Everywhere p u s'.store := by
  rcases step_cases hs with ⟨i, request, -, hi, rfl⟩ | ⟨i, a, c, st', c', rfl, hi, hposs, hm, rfl⟩ | ⟨-, rfl⟩
  · exact hE
  · have hkeep := hK c hi
    rcases hm with ⟨_, _, hc, hc'⟩ | ⟨_, _, id, r, copy, hb, hc, hc', hid, hr, hcopy⟩ |
      ⟨_, _, copy, hc, hc', hid⟩ | ⟨_, _, copy, hc, hc'⟩ |
      ⟨name, name', max, rpm, token, r, now, ha, hfree, hhash⟩ | ⟨id, patch, current, name⟩ |
      ⟨id, current, newId, token, now, ha⟩ | id | ⟨_, _, id, row, hc, hid, hc'⟩
    · exact hE
    · exact hE
    · exact hE
    · exact hE
    · refine ⟨hE.memory, fun r' hr' => hE.table r' ?_⟩
      subst ha
      have hnew := fresh_id hposs
      have hne : u ≠ r.id := fun he => hnew (he ▸ hu)
      change (s.store.tenantRows.insert r.id r).lookup u = some r' at hr'
      rwa [lookup_insert, if_neg hne] at hr'
    · refine ⟨hE.memory, fun r' hr' => ?_⟩
      change (modify id (updateColumns (updatedRecord current patch name))
        s.store.tenantRows).lookup u = some r'
        at hr'
      rw [lookup_modify] at hr'
      split_ifs at hr' with hid
      · subst hid
        obtain ⟨-, -, hcopy, -⟩ := (h.syncedOf hi (u := u) rfl).of_read (some current) rfl
        have hrow := hcopy current rfl
        rw [hrow] at hr'
        cases hr'
        exact hkeep rfl (hE.table current hrow)
      · exact hE.table r' hr'
    · refine ⟨hE.memory, fun r' hr' => ?_⟩
      change (modify id (fun row => { row with agentTokenHash := cfg.lookupOf token })
        s.store.tenantRows).lookup u = some r' at hr'
      rw [lookup_modify] at hr'
      split_ifs at hr' with hid
      · subst hid
        subst ha
        obtain ⟨-, -, hcopy, -⟩ := (h.syncedOf hi (u := u) rfl).of_read (some current) rfl
        have hrow := hcopy current rfl
        rw [hrow] at hr'
        cases hr'
        exact hkeep rfl (hE.table current hrow) _ (fresh_hash hposs)
      · exact hE.table r' hr'
    · refine ⟨hE.memory, fun r' hr' => hE.table r' ?_⟩
      change (s.store.tenantRows.erase id).lookup u = some r' at hr'
      rw [lookup_erase] at hr'
      split_ifs at hr'
      exact hr'
    · obtain ⟨-, hself, hrow, -⟩ := h.published cfg a hi hc hid hc'
      rcases row with _ | r
      · refine ⟨fun r' hr' => hE.memory r' ?_, hE.table⟩
        change (s.store.tenants.erase id).lookup u = some r' at hr'
        rw [lookup_erase] at hr'
        split_ifs at hr'
        exact hr'
      · refine ⟨fun r' hr' => ?_, hE.table⟩
        change (s.store.tenants.insert id r).lookup u = some r' at hr'
        rw [lookup_insert] at hr'
        split_ifs at hr' with hid'
        · cases hr'
          exact hE.table _ (hid' ▸ hrow)
        · exact hE.memory r' hr'
  · rw [load_of_default h.default]
    exact ⟨hE.table, hE.table⟩

/-! ### Whole runs -/

/-- The run takes this step of the call `c` on the way; `s` is the state after it, and `bs` is what follows.
-/
def TakesIn (cfg : Config) (ls : List Label) (c : Call) (s : State) (bs : List Label) : Prop :=
  ∃ as i a s0, ls = as ++ .step i a :: bs ∧ run (step cfg) init as = some s0 ∧ s0.calls.lookup i = some c ∧
    step cfg s0 (.step i a) = some s

/-- The step is the statement of an update that enables the tenant. -/
def Enables (id : String) (s : State) (l : Label) : Prop :=
  ∃ i a patch current name, l = .step i a ∧
    s.calls.lookup i = some (.updateTenant id patch (.updatingRow current name)) ∧ patch.enabled = some true

def isDone : Call → Bool
  | .createTenant _ _ _ (.done _) => true
  | .updateTenant _ _ (.done _) => true
  | .deleteTenant _ (.done _) => true
  | .rotateAgentToken _ (.done _) => true
  | _ => false

/-- All calls have returned. -/
def Quiescent (s : State) : Prop := ∀ i c, s.calls.lookup i = some c → isDone c = true

theorem inv_run {ls : List Label} (hI : Inv s) (hC : AllSteps (step cfg) Serial s ls)
    (h : run (step cfg) s ls = some s') : Inv s' :=
  run_invariant_of (I := Inv) (fun _ _ _ hI hl hs => inv_step hI hl hs) ls s s' hI hC h

theorem everywhere_run {p : TenantRecord → Prop} {u : String} {J : State → Prop} {C : State → Label → Prop}
    (hJ : ∀ s l s', J s → step cfg s l = some s' → J s') (hK : ∀ s l, J s → C s l → Keeps p u s l)
    {ls : List Label} (hI : Inv s) (hu : u ∈ s.ids) (hE : Everywhere p u s.store) (hj : J s)
    (hS : AllSteps (step cfg) Serial s ls) (hC : AllSteps (step cfg) C s ls)
    (h : run (step cfg) s ls = some s') : Everywhere p u s'.store :=
  (run_invariant_of (I := fun s => Inv s ∧ u ∈ s.ids ∧ Everywhere p u s.store ∧ J s)
    (fun s l s1 hI hl hs => ⟨inv_step hI.1 hl.1 hs, (known_step hs).1 u hI.2.1,
      everywhere_step hI.1 hI.2.1 hI.2.2.1 (hK s l hI.2.2.2 hl.2) hs, hJ s l s1 hI.2.2.2 hs⟩)
    ls s s' ⟨hI, hu, hE, hj⟩ (hS.and hC) h).2.2.1

theorem TakesIn.published {ls bs : List Label} {s1 : State} {id : String} (h : TakesIn cfg ls c s1 bs)
    (row : Option TenantRecord) (hS : AllSteps (step cfg) Serial init ls) (hc : phase c = .wrote row)
    (hid : tenantOf c = some id) :
    Inv s1 ∧ Faithful s1.hashes c ∧ id ∈ s1.ids ∧ AllSteps (step cfg) Serial s1 bs ∧
      ∀ p : TenantRecord → Prop, (∀ r, row = some r → p r) → Everywhere p id s1.store := by
  obtain ⟨as, i, a, s0, rfl, hrun, hi, hs⟩ := h
  obtain ⟨has, hbs⟩ := allSteps_append hS hrun
  have hinv := inv_run inv_init has hrun
  rcases step_cases hs with ⟨_, _, hl, -⟩ | ⟨j, b, d, st', c', hl, hj, hposs, hm, rfl⟩ | ⟨hl, -⟩
  · cases hl
  · cases hl
    rw [hi] at hj
    cases hj
    have hstore : st' = publish s0.store id row ∧ phase c' = .idle := by
      rcases hm with ⟨_, _, hidle, -⟩ | ⟨_, _, _, _, _, _, hidle, -⟩ | ⟨_, _, _, hread, -⟩ |
        ⟨_, _, _, hread, -⟩ | ⟨_, _, _, _, _, _, _, _, _, _⟩ | ⟨_, _, _, _⟩ | ⟨_, _, _, _, _, _⟩ | _ |
        ⟨_, _, id', row', hw, hid', hc'⟩
      · rw [hc] at hidle
        cases hidle
      · rw [hc] at hidle
        cases hidle
      · rw [hc] at hread
        cases hread
      · rw [hc] at hread
        cases hread
      · cases hc
      · cases hc
      · cases hc
      · cases hc
      · rw [hc] at hw
        rw [hid] at hid'
        cases hw
        cases hid'
        exact ⟨rfl, hc'⟩
    obtain ⟨rfl, hc'⟩ := hstore
    obtain ⟨hinv', hmem, hrow, hknown⟩ := hinv.published cfg a hi hc hid hc'
    refine ⟨hinv', (hinv.faithful i c hi).mono fun hash hh => mem_hashes_after hh, mem_ids_after hknown,
      hbs.2 _ hs, fun p hp => ⟨fun r hr => hp r (hmem.symm.trans hr), fun r hr => hp r ?_⟩⟩
    have hrows : (publish s0.store id row).tenantRows = s0.store.tenantRows := by
      rcases row with _ | r <;> rfl
    change (publish s0.store id row).tenantRows.lookup id = some r at hr
    rw [hrows, hrow] at hr
    exact hr
  · cases hl

theorem run_of_takesIn {ls bs : List Label} {s1 s2 : State} (h : TakesIn cfg ls c s1 bs)
    (hrun : run (step cfg) init ls = some s2) : run (step cfg) s1 bs = some s2 := by
  obtain ⟨as, i, a, s0, rfl, has, -, hs⟩ := h
  rw [run_append, has] at hrun
  obtain ⟨s', h1, h2⟩ := run_cons_eq_some.mp hrun
  rw [hs] at h1
  cases h1
  exact h2

theorem verify_ne_ok {id token old : String} (hold : cfg.lookupOf token = old)
    (h : Everywhere (fun r => r.agentTokenHash ≠ old) id s.store) (t : TenantRecord) :
    verifyAgentToken cfg s.store id token ≠ .ok t := by
  unfold verifyAgentToken
  rcases hr : s.store.tenants.lookup id with _ | r
  · simp
  · have hne := h.memory r hr
    rw [hold]
    simp only [hne.symm, if_false]
    split_ifs <;> simp

theorem rotated_for_good {ls bs : List Label} {s1 s2 : State} {id token : String} {old r : TenantRecord}
    (hS : AllSteps (step cfg) Serial init ls) (h : run (step cfg) init ls = some s2)
    (ht : TakesIn cfg ls (.rotateAgentToken id (.publishing old r token)) s1 bs) :
    Everywhere (fun r => r.agentTokenHash ≠ old.agentTokenHash) id s2.store := by
  obtain ⟨hinv, hf, hid, hbs, hE⟩ := ht.published (some r) hS rfl rfl
  refine everywhere_run (J := fun s => old.agentTokenHash ∈ s.hashes) (C := fun _ _ => True)
    (fun _ _ _ hj hs => (known_step hs).2 _ hj) (fun s l hj _ => ?_) hinv hid (hE _ ?_) hf.1 hbs
    (allSteps_true bs s1) (run_of_takesIn ht h)
  · rcases l with _ | ⟨i, a⟩ | _
    · trivial
    · intro c _
      split
      · exact fun _ hp => hp
      · intro _ _ hash hnew he
        have hhash : hash = old.agentTokenHash := he
        exact hnew (hhash ▸ hj)
      · trivial
    · trivial
  · intro r' hr'
    cases hr'
    exact hf.2

theorem disabled_for_good {ls bs : List Label} {s1 s2 : State} {id : String} {patch : TenantPatch}
    {r : TenantRecord} (hS : AllSteps (step cfg) Serial init ls) (h : run (step cfg) init ls = some s2)
    (ht : TakesIn cfg ls (.updateTenant id patch (.publishing r)) s1 bs) (hp : patch.enabled = some false)
    (hC : AllSteps (step cfg) (fun s l => ¬ Enables id s l) s1 bs) :
    Everywhere (fun r => r.enabled = false) id s2.store := by
  obtain ⟨hinv, hf, hid, hbs, hE⟩ := ht.published (some r) hS rfl rfl
  refine everywhere_run (J := fun _ => True) (C := fun s l => ¬ Enables id s l) (fun _ _ _ _ _ => trivial)
    (fun s l _ hne => ?_) hinv hid (hE _ ?_) trivial hbs hC (run_of_takesIn ht h)
  · rcases l with _ | ⟨i, a⟩ | _
    · trivial
    · intro c hc
      split
      · next id' patch' current name =>
        rintro rfl hcur
        rcases hen : patch'.enabled with _ | _ | _
        · simpa [updatedRecord, hen] using hcur
        · simp [updatedRecord, hen]
        · exact absurd ⟨i, a, patch', current, name, rfl, hc, hen⟩ hne
      · exact fun _ hp _ _ => hp
      · trivial
    · trivial
  · intro r' hr'
    cases hr'
    exact hf false hp

theorem deleted_for_good {ls bs : List Label} {s1 s2 : State} {id : String}
    (hS : AllSteps (step cfg) Serial init ls) (h : run (step cfg) init ls = some s2)
    (ht : TakesIn cfg ls (.deleteTenant id .removing) s1 bs) : Everywhere (fun _ => False) id s2.store := by
  obtain ⟨hinv, -, hid, hbs, hE⟩ := ht.published none hS rfl rfl
  refine everywhere_run (J := fun _ => True) (C := fun _ _ => True) (fun _ _ _ _ _ => trivial)
    (fun s l _ _ => ?_) hinv hid (hE _ fun r hr => (by cases hr)) trivial hbs (allSteps_true bs s1)
    (run_of_takesIn ht h)
  rcases l with _ | ⟨i, a⟩ | _
  · trivial
  · intro c _
    split
    · exact fun _ hf => hf
    · exact fun _ hf _ _ => hf
    · trivial
  · trivial

/-- When all calls have returned, memory is the table. -/
theorem Inv.synced_of_quiescent (h : Inv s) (hq : Quiescent s) (id : String) :
    s.store.tenants.lookup id = s.store.tenantRows.lookup id := by
  refine h.synced id none fun i c hi hheld => ?_
  have hdone := hq i c hi
  obtain ⟨hphase, -⟩ := held_eq_some.mp hheld
  refine hphase ?_
  unfold isDone at hdone
  split at hdone
  · rfl
  · rfl
  · rfl
  · rfl
  · cases hdone

/-- **No update of a tenant is lost**, in a run where a call reads its tenant only while no other call is
under way that has read it. Statements may fail and the process may restart at any time. Once
`rotate_agent_token` has returned, the token it replaced does not verify; once an update has disabled a
tenant, it is disabled until the statement of an update enables it; once a tenant is deleted, it is gone;
and when all calls have returned, memory is the table, which is also what a restart loads. -/
theorem no_lost_tenant_update {ls : List Label} {s : State} (hS : AllSteps (step cfg) Serial init ls)
    (h : run (step cfg) init ls = some s) :
    (∀ id old r token s1 bs, TakesIn cfg ls (.rotateAgentToken id (.publishing old r token)) s1 bs →
      ∀ token', cfg.lookupOf token' = old.agentTokenHash →
        ∀ t, verifyAgentToken cfg s.store id token' ≠ .ok t) ∧
    (∀ id patch r s1 bs, TakesIn cfg ls (.updateTenant id patch (.publishing r)) s1 bs →
      patch.enabled = some false → AllSteps (step cfg) (fun s l => ¬ Enables id s l) s1 bs →
      ∀ t, s.store.tenants.lookup id = some t → t.enabled = false) ∧
    (∀ id s1 bs, TakesIn cfg ls (.deleteTenant id .removing) s1 bs →
      s.store.tenants.lookup id = none ∧ s.store.tenantRows.lookup id = none) ∧
    (Quiescent s → ∀ id, s.store.tenants.lookup id = s.store.tenantRows.lookup id ∧
      (Store.load s.store.tenantRows).tenants.lookup id = s.store.tenants.lookup id) := by
  have hinv := inv_run inv_init hS h
  refine ⟨fun id old r token s1 bs ht token' htok t => ?_, fun id patch r s1 bs ht hp hC t hid => ?_,
    fun id s1 bs ht => ?_, fun hq id => ?_⟩
  · exact verify_ne_ok htok (rotated_for_good hS h ht) t
  · exact (disabled_for_good hS h ht hp hC).memory t hid
  · have hE := deleted_for_good hS h ht
    exact ⟨Option.eq_none_iff_forall_ne_some.mpr hE.memory, Option.eq_none_iff_forall_ne_some.mpr hE.table⟩
  · have hsync := hinv.synced_of_quiescent hq id
    refine ⟨hsync, ?_⟩
    rw [load_of_default hinv.default, hsync]

/-! ### Two calls at once -/

instance (s : State) : ∀ l : Label, Decidable (Serial s l)
  | .step i _ => inferInstanceAs (Decidable (∀ c ∈ s.calls.lookup i, ∀ id ∈ begins c, ∀ e ∈ s.calls.entries, _))
  | .start .. => isTrue trivial
  | .restart => isTrue trivial

/-- Hashes that end with a mark. -/
def marking : Config := ⟨0, 0, fun token => token ++ "#", fun _ _ => false⟩

/-- The tenant `t1` is created with the token `a`. -/
def createsTenant : List Label :=
  [.start 0 (.createTenant "alpha" 4 0), .step 0 .silent, .step 0 (.written "t1" "a" 1), .step 0 .silent]

/-- Its token is replaced by `b`. -/
def rotates : List Label :=
  [.start 1 (.rotateAgentToken "t1"), .step 1 .silent, .step 1 (.written "" "b" 0)]

/-- The token is replaced and the tenant is disabled, one after the other, and the process restarts. -/
theorem no_lost_tenant_update_restart : ∃ s, run (step marking) init (createsTenant ++ rotates ++ .step 1 .silent ::
      [.start 2 (.updateTenant "t1" ⟨none, some false, none, none⟩), .step 2 .silent,
        .step 2 (.written "" "" 0),
        .step 2 .silent, .restart]) = some s ∧ (s.store.tenants.lookup "t1").isSome = true ∧
    (∀ t, verifyAgentToken marking s.store "t1" "a" ≠ .ok t) ∧
    s.store.tenants.lookup "t1" = s.store.tenantRows.lookup "t1" := by
  obtain ⟨s, hs, ht⟩ := exists_run (step marking) init (createsTenant ++ rotates ++ .step 1 .silent ::
    [.start 2 (.updateTenant "t1" ⟨none, some false, none, none⟩), .step 2 .silent, .step 2 (.written "" "" 0),
      .step 2 .silent, .restart])
    (fun s => (s.store.tenants.lookup "t1").isSome = true ∧ s.calls.entries = []) (by decide +kernel)
  obtain ⟨hrot, -, -, hsync⟩ := no_lost_tenant_update (by decide +kernel) hs
  obtain ⟨s0, h0, hcall⟩ := exists_run (step marking) init (createsTenant ++ rotates)
    (fun s => s.calls.lookup 1 = some (.rotateAgentToken "t1" (.publishing ⟨"t1", "alpha", 1, true, 4, 0, "a#"⟩
      ⟨"t1", "alpha", 1, true, 4, 0, "b#"⟩ "b"))) (by decide +kernel)
  obtain ⟨s1, h1⟩ : ∃ s1, step marking s0 (.step 1 .silent) = some s1 := by
    rw [run_append, h0] at hs
    obtain ⟨s1, h1, -⟩ := run_cons_eq_some.mp hs
    exact ⟨s1, h1⟩
  refine ⟨s, hs, ht.1, hrot "t1" _ _ _ s1 _ ⟨_, 1, .silent, s0, rfl, h0, hcall, h1⟩ "a" (by decide), ?_⟩
  refine (hsync (fun i c hi => ?_) "t1").1
  have hmem := (mem_entries_iff _ _ _).mpr hi
  rw [ht.2] at hmem
  cases hmem

/-- The rate of the tenant is changed by a call that has read the tenant before its token is replaced. -/
def overlaps : List Label :=
  createsTenant ++ [.start 2 (.updateTenant "t1" ⟨none, none, none, some 60⟩), .step 2 .silent] ++ rotates ++
    [.step 1 .silent, .step 2 (.written "" "" 0), .step 2 .silent]

/-- The token that was replaced verifies again. -/
theorem rotated_token_comes_back : ¬ ∀ ls s, run (step marking) init ls = some s →
    ∀ id old r token s1 bs, TakesIn marking ls (.rotateAgentToken id (.publishing old r token)) s1 bs →
      ∀ token', marking.lookupOf token' = old.agentTokenHash →
        ∀ t, verifyAgentToken marking s.store id token' ≠ .ok t := by
  intro hall
  obtain ⟨s, hs, hok⟩ := exists_run (step marking) init overlaps
    (fun s => verifyAgentToken marking s.store "t1" "a" = .ok ⟨"t1", "alpha", 1, true, 4, 60, "a#"⟩)
    (by decide +kernel)
  obtain ⟨s0, h0, hcall⟩ := exists_run (step marking) init
    (createsTenant ++ [.start 2 (.updateTenant "t1" ⟨none, none, none, some 60⟩), .step 2 .silent] ++ rotates)
    (fun s => s.calls.lookup 1 = some (.rotateAgentToken "t1" (.publishing ⟨"t1", "alpha", 1, true, 4, 0, "a#"⟩
      ⟨"t1", "alpha", 1, true, 4, 0, "b#"⟩ "b"))) (by decide +kernel)
  obtain ⟨s1, h1⟩ : ∃ s1, step marking s0 (.step 1 .silent) = some s1 := by
    rw [overlaps, run_append, h0] at hs
    obtain ⟨s1, h1, -⟩ := run_cons_eq_some.mp hs
    exact ⟨s1, h1⟩
  exact hall overlaps s hs "t1" _ _ _ s1 _ ⟨_, 1, .silent, s0, rfl, h0, hcall, h1⟩ "a" (by decide) _ hok

end HomeLlmGateway.Storage.TenantUpdates
