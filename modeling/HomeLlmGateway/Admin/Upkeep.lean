import HomeLlmGateway.Admin.Handlers
import HomeLlmGateway.Storage.KeyTenants

/-! # The accounts between requests

A request makes one call of the store, and that call is alone (`runAccounts_rule`). So memory and tables are
together again when it has returned (`wellKept_run`), whoever has made the request and whatever statements
have failed; they are at the first start, and after every restart. -/

namespace HomeLlmGateway.Admin.Upkeep

open HomeLlmGateway.Lib.Runs HomeLlmGateway.Lib.Assoc HomeLlmGateway.Lib.Holding
open HomeLlmGateway.Storage
open HomeLlmGateway.Storage.Cache (KeyRecord)
open HomeLlmGateway.Storage.Keys (Config)
open HomeLlmGateway.Storage.Accounts (Call Answer held creating possible)
open HomeLlmGateway.Storage.UserSync (Move Synced move_of_callStep synced_start synced_step)
open HomeLlmGateway.Storage.UserUpdates (returned TablesAgree held_of_returned)
open HomeLlmGateway.Storage.KeyRows (SameKey KeyTables Within keyTables_start keyTables_step keys_of_move
  sweepMove_within within_dropId creating_of_keyCall)
open HomeLlmGateway.Admin.Handlers

/-! ### A call that is alone -/

def single (c : Call) : HashMap ℕ Call := (∅ : HashMap ℕ Call).insert 0 c

theorem lookup_single {c d : Call} {i : ℕ} : (single c).lookup i = some d ↔ i = 0 ∧ d = c := by
  rw [single, lookup_insert]
  split_ifs with h
  · simp [h, eq_comm]
  · simp [h]

theorem on_single {c : Call} (h : held c = none) (u : String) : On held (single c) u none := by
  intro i d hi hd
  rw [(lookup_single.mp hi).2, h] at hd
  cases hd

/-- A step of the only call. -/
structure Goes (cfg : Config) (s : Accounts.State) (c : Call) (a : Answer) (s' : Accounts.State) (c' : Call) :
    Prop where
  calls : s.calls = single c
  calls' : s'.calls = single c'
  possible : possible cfg s c a = true
  callStep : Accounts.callStep cfg s.store a c = some (s'.store, c')
  step : Accounts.step cfg s (.step 0 a) = some s'

theorem Goes.move {cfg : Config} {s s' : Accounts.State} {c c' : Call} {a : Answer}
    (h : Goes cfg s c a s' c') : Move cfg s a c s'.store c' :=
  move_of_callStep h.possible h.callStep

theorem Goes.lookup {cfg : Config} {s s' : Accounts.State} {c c' : Call} {a : Answer}
    (h : Goes cfg s c a s' c') : s.calls.lookup 0 = some c := by
  rw [h.calls]
  exact lookup_single.mpr ⟨rfl, rfl⟩

theorem goes_of_step {cfg : Config} {s s' : Accounts.State} {c : Call} {a : Answer} (hc : s.calls = single c)
    (hs : Accounts.step cfg s (.step 0 a) = some s') : ∃ c', Goes cfg s c a s' c' := by
  have hstep := hs
  simp only [Accounts.step, hc, lookup_single.mpr ⟨rfl, rfl⟩, Option.bind_some] at hs
  split_ifs at hs with hposs
  obtain ⟨⟨st', c'⟩, hcall, rfl⟩ := Option.map_eq_some_iff.mp hs
  exact ⟨c', hc, AList.insert_insert .., hposs, hcall, hstep⟩

/-- **What the start of a call gives and each of its steps keeps**, holds when it has returned. -/
theorem runAccounts_rule {cfg : Config} {s s' : Accounts.State} {request : Accounts.Request}
    {answers : List Answer} {c : Call} {P : Accounts.State → Call → Prop}
    (h : runAccounts cfg s request answers = some (s', c))
    (hstart : P { s with calls := single request.call } request.call)
    (hstep : ∀ s c a s' c', P s c → Goes cfg s c a s' c' → P s' c') :
    ∃ s1, s1.calls = single c ∧ P s1 c ∧ returned c = true ∧ s' = { s1 with calls := ∅ } := by
  obtain ⟨s1, hrun, h⟩ := Option.bind_eq_some_iff.mp h
  obtain ⟨c1, hc1, h⟩ := Option.bind_eq_some_iff.mp h
  split_ifs at h with hret
  cases h
  obtain ⟨s0, hs0, hrun⟩ := run_cons_eq_some.mp hrun
  cases hs0
  have hinv := run_invariant_of (I := fun s : Accounts.State => ∃ c, s.calls = single c ∧ P s c)
    (C := fun _ (l : Accounts.Label) => ∃ a, l = .step 0 a) ?_ _ _ _ ⟨request.call, rfl, hstart⟩
    (allSteps_of_forall fun l hl => ?_) hrun
  · obtain ⟨c2, hc2, hP⟩ := hinv
    have : c = c2 := by
      rw [hc2] at hc1
      exact (lookup_single.mp hc1).2
    exact ⟨s1, this ▸ hc2, this ▸ hP, hret, rfl⟩
  · rintro s l s' ⟨c, hc, hP⟩ ⟨a, rfl⟩ hs
    obtain ⟨c', hgo⟩ := goes_of_step hc hs
    exact ⟨c', hgo.calls', hstep s c a s' c' hP hgo⟩
  · obtain ⟨a, -, rfl⟩ := List.mem_map.mp hl
    exact ⟨a, rfl⟩

/-! ### Between requests -/

/-- Users and keys when no call is under way. -/
structure WellKept (st : Accounts.Store) : Prop where
  userIds : ∀ u r, st.users.lookup u = some r → r.id = u
  rowIds : ∀ u r, st.userRows.lookup u = some r → r.id = u
  agree : TablesAgree st
  known : ∀ k row, st.keyRows.lookup k = some row → ∃ r, st.keys.runtime.lookup k = some r ∧ SameKey r row
  /-- no two keys have one id -/
  keyIds : ∀ k k' r r', st.keys.runtime.lookup k = some r → st.keys.runtime.lookup k' = some r' → r.id = r'.id →
    k = k'

/-- The same, during a call. -/
structure InCall (s : Accounts.State) (c : Call) : Prop where
  tables : KeyTables s
  synced : Synced s
  keyIds : ∀ k k' r r', s.store.keys.runtime.lookup k = some r → s.store.keys.runtime.lookup k' = some r' →
    r.id = r'.id → k = k'
  newId : ∀ r, creating c = some r → ∀ k q, s.store.keys.runtime.lookup k = some q → q.id ≠ r.id

section calls

variable {cfg : Config} {s s' : Accounts.State} {c c' : Call} {a : Answer}

theorem creating_of_returned (h : returned c = true) : creating c = none := by
  cases c with
  | createUser | updateUser | deleteUser | setUserPassword | recordLogin => rfl
  | key k =>
    cases k with
    | authorizeRecord | delete | disableKeysForOwner => rfl
    | createIn t o n pc => cases pc <;> first | rfl | cases h

theorem creating_start (request : Accounts.Request) : creating request.call = none := by
  cases request with
  | key r => cases r <;> rfl
  | createUser | updateUser | deleteUser | setUserPassword | recordLogin => rfl

theorem inCall_start (h : WellKept s.store) (request : Accounts.Request) :
    InCall { s with calls := single request.call } request.call := by
  have htables : KeyTables { s with calls := ∅ } := by
    refine ⟨fun k row hk => Or.inl (h.known k row hk), ?_, ?_, ?_, ?_⟩ <;> intros <;> contradiction
  have hsynced : Synced { s with calls := ∅ } :=
    ⟨exclusive_empty, h.userIds, h.rowIds, forall_on_empty fun u => (h.agree u).symm⟩
  refine ⟨keyTables_start htables rfl, synced_start hsynced rfl fun u _ i d hi => ?_, h.keyIds, fun r hr => ?_⟩
  · cases hi
  · rw [creating_start] at hr
    cases hr

theorem keyIds_within {m m' : HashMap String KeyRecord} (hw : Within m' m)
    (h : ∀ k k' r r', m.lookup k = some r → m.lookup k' = some r' → r.id = r'.id → k = k') :
    ∀ k k' r r', m'.lookup k = some r → m'.lookup k' = some r' → r.id = r'.id → k = k' := by
  intro k k' r r' hr hr' hid
  obtain ⟨q, hq, hs, -⟩ := hw k r hr
  obtain ⟨q', hq', hs', -⟩ := hw k' r' hr'
  exact h k k' q q' hq hq' ((hs.1.trans hid).trans hs'.1.symm)

theorem newId_within {m m' : HashMap String KeyRecord} {x : String} (hw : Within m' m)
    (h : ∀ k q, m.lookup k = some q → q.id ≠ x) : ∀ k q, m'.lookup k = some q → q.id ≠ x := by
  intro k q hq
  obtain ⟨q0, hq0, hs, -⟩ := hw k q hq
  rw [← hs.1]
  exact h k q0 hq0

theorem runtime_of_move {st' : Accounts.Store} (hm : Move cfg s a c st' c') :
    (Within st'.keys.runtime s.store.keys.runtime ∧ ∀ r, creating c' = some r →
      (∃ r0, creating c = some r0 ∧ r0.id = r.id) ∨
        ∀ k q, s.store.keys.runtime.lookup k = some q → q.id ≠ r.id) ∨
    ∃ r, creating c = some r ∧ creating c' = none ∧
      st'.keys.runtime = s.store.keys.runtime.insert r.lookup r := by
  rcases keys_of_move hm with ⟨hk, hk', hkeys, -⟩ | ⟨hk, hk', u, pc, pc', -, -, hsw⟩ | ⟨k, k', rfl, rfl, hkm⟩
  · left
    rw [hkeys, creating_of_keyCall hk']
    exact ⟨.refl _, by simp⟩
  · left
    rw [creating_of_keyCall hk']
    exact ⟨(sweepMove_within hsw).2.1, by simp⟩
  · cases hkm with
    | quiet _ _ keys hrun hheld hc hc' hret =>
      left
      rw [hc', hrun]
      exact ⟨.refl _, by simp⟩
    | check | retry => exact Or.inl ⟨.refl _, by simp [creating]⟩
    | insert t o n m r plaintext hfresh ht ho he =>
      refine Or.inl ⟨.refl _, fun q hq => Or.inr fun k q' hq' => ?_⟩
      cases hq
      exact (KeyRows.newKey_of_fresh hfresh).ids k q' hq'
    | bump t o n r plaintext keys hrun v =>
      left
      rw [hrun]
      refine ⟨.refl _, fun q hq => Or.inl ⟨r, rfl, ?_⟩⟩
      cases hq
      rfl
    | publish t o n r plaintext => exact Or.inr ⟨r, rfl, rfl, rfl⟩
    | deleteRow id => exact Or.inl ⟨.refl _, by simp [creating]⟩
    | retain id pc hpc => exact Or.inl ⟨within_dropId id _, by simp [creating]⟩
    | sweep o pc pc' st' hsw => exact Or.inl ⟨(sweepMove_within hsw).2.1, by simp [creating]⟩

theorem inCall_step (h : InCall s c) (hgo : Goes cfg s c a s' c') : InCall s' c' := by
  have htables := keyTables_step h.tables hgo.step
  have hsynced := synced_step (l := .step 0 a) h.synced trivial hgo.step
  rcases runtime_of_move hgo.move with ⟨hw, hnew⟩ | ⟨r, hr, hr', hrun⟩
  · refine ⟨htables, hsynced, keyIds_within hw h.keyIds, fun r hr => newId_within hw ?_⟩
    rcases hnew r hr with ⟨r0, hr0, hid⟩ | hnew
    · rw [← hid]
      exact h.newId r0 hr0
    · exact hnew
  · refine ⟨htables, hsynced, fun k k' q q' hq hq' hid => ?_, by simp [hr']⟩
    rw [hrun, lookup_insert] at hq hq'
    split_ifs at hq hq' with hk hk' hk'
    · rw [hk, hk']
    · cases hq
      exact absurd hid.symm (h.newId _ hr k' q' hq')
    · cases hq'
      exact absurd hid (h.newId _ hr k q hq)
    · exact h.keyIds k k' q q' hq hq' hid

theorem InCall.wellKept (h : InCall s c) (hc : s.calls = single c) (hret : returned c = true) :
    WellKept s.store := by
  have hfree : ∀ u, On held s.calls u none := hc ▸ on_single (held_of_returned hret)
  refine ⟨h.synced.userIds, h.synced.rowIds, fun u => (h.synced.sync u none (hfree u)).symm, fun k row hk => ?_,
    h.keyIds⟩
  rcases h.tables.known k row hk with hr | ⟨i, d, r, hi, hr, -⟩
  · exact hr
  · rw [hc] at hi
    rw [(lookup_single.mp hi).2, creating_of_returned hret] at hr
    cases hr

theorem wellKept_runAccounts {request : Accounts.Request} {answers : List Answer} (h : WellKept s.store)
    (hs : runAccounts cfg s request answers = some (s', c)) : WellKept s'.store := by
  obtain ⟨s1, hc, hin, hret, rfl⟩ := runAccounts_rule hs (inCall_start h request) fun _ _ _ _ _ => inCall_step
  exact hin.wellKept hc hret

end calls

/-! ### Every request -/

/-- **What a served request does**: nothing, or what the one call of the store has done. -/
theorem step_cases {cfg : Config} {s s' : State} {l : Label} (hs : step cfg s l = some s') :
    s' = s ∨
    (∃ request reply a c, handle s l.principal l.request = .ok (.accounts request reply) ∧
      runAccounts cfg s.accounts request l.accountAnswers = some (a, c) ∧ s' = { s with accounts := a }) ∨
    ∃ request reply st c, handle s l.principal l.request = .ok (.tenants request reply) ∧
      runTenants cfg s.tenants request l.tenantAnswers = some (st, c) ∧ s' = { s with tenants := st } := by
  obtain ⟨⟨s1, r⟩, hserve, rfl⟩ := Option.map_eq_some_iff.mp hs
  simp only [serve] at hserve
  split at hserve
  · cases hserve
    exact Or.inl rfl
  · next request reply hh =>
    obtain ⟨⟨a, c⟩, hrun, he⟩ := Option.map_eq_some_iff.mp hserve
    cases he
    exact Or.inr (Or.inl ⟨request, reply, a, c, hh, hrun, rfl⟩)
  · next request reply hh =>
    obtain ⟨⟨st, c⟩, hrun, he⟩ := Option.map_eq_some_iff.mp hserve
    cases he
    exact Or.inr (Or.inr ⟨request, reply, st, c, hh, hrun, rfl⟩)

/-- **Every request** leaves the accounts well kept, whoever makes it. -/
theorem wellKept_step {cfg : Config} {s s' : State} {l : Label} (h : WellKept s.accounts.store)
    (hs : step cfg s l = some s') : WellKept s'.accounts.store := by
  rcases step_cases hs with rfl | ⟨request, reply, a, c, -, hrun, rfl⟩ | ⟨request, reply, st, c, -, -, rfl⟩
  · exact h
  · exact wellKept_runAccounts h hrun
  · exact h

/-- **Every sequence of requests** does. -/
theorem wellKept_run {cfg : Config} {s s' : State} (h : WellKept s.accounts.store)
    (hs : Reaches (step cfg) s s') : WellKept s'.accounts.store :=
  run_invariant (I := fun s => WellKept s.accounts.store) (fun _ _ _ h hs => wellKept_step h hs) h hs

theorem wellKept_reload {st : Accounts.Store} (h : WellKept st) : WellKept st.reload := by
  refine ⟨h.rowIds, h.rowIds, fun _ => rfl, fun k row hk => ?_, fun k k' r r' hr hr' hid => ?_⟩
  · exact ⟨_, KeyRows.lookup_reload.mpr ⟨row, hk, rfl⟩, ⟨rfl, rfl, rfl⟩⟩
  · obtain ⟨row, hrow, rfl⟩ := KeyRows.lookup_reload.mp hr
    obtain ⟨row', hrow', rfl⟩ := KeyRows.lookup_reload.mp hr'
    obtain ⟨q, hq, hs⟩ := h.known k row hrow
    obtain ⟨q', hq', hs'⟩ := h.known k' row' hrow'
    exact h.keyIds k k' q q' hq hq' ((hs.1.trans hid).trans hs'.1.symm)

theorem wellKept_init : WellKept Accounts.init.store := by
  refine ⟨?_, ?_, fun _ => rfl, ?_, ?_⟩ <;> intros <;> contradiction

end HomeLlmGateway.Admin.Upkeep
