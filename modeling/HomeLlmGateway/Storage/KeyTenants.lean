import HomeLlmGateway.Storage.KeyRows

/-! # The tenant of a key and of its owner

`create_in` makes a key only in the tenant of its owner. If calls on one user do not overlap and
`update_user` moves no user that has keys to another tenant, every key stays in the tenant of its owner, in
memory and in the table (`Fits`). -/

namespace HomeLlmGateway.Storage.KeyTenants

open HomeLlmGateway.Lib.Runs HomeLlmGateway.Lib.Assoc HomeLlmGateway.Lib.Holding
open HomeLlmGateway.Storage.Cache (KeyRecord)
open HomeLlmGateway.Storage.Keys (Config)
open HomeLlmGateway.Storage.Users HomeLlmGateway.Storage.Accounts HomeLlmGateway.Storage.UserSync
open HomeLlmGateway.Storage.KeyRows

/-! ### What is known of a user and its keys -/

/-- The keys of the user are in its tenant. -/
def InTenant (keys : HashMap String KeyRecord) (users : HashMap String UserRecord) (u : String) : Prop :=
  ∀ k r x, keys.lookup k = some r → r.ownerUserId = some u → users.lookup u = some x →
    x.tenantId = some r.tenantId

/-- The tenant that a call of `update_user` has read, and the one that it writes. -/
def retenant (c : Call) : Option (Option String × Option String) :=
  match snapshot c, target c with
  | some current, some r => some (current.tenantId, r.tenantId)
  | some current, none => (patchOf c).map fun patch => (current.tenantId, UserPatch.newTenant patch current)
  | none, _ => none

/-- What is known of the call that holds the user. -/
structure Allowed (st : Store) (u : String) (c : Call) : Prop where
  /-- it moves a user to another tenant only if the user has no keys -/
  moves : (∃ old new, retenant c = some (old, new) ∧ old ≠ new) ∨ isCreate c = true →
    NoKeys st.keys.runtime u ∧ NoKeys st.keyRows u
  /-- the key that it makes is in the tenant of the user -/
  mints : ∀ t, minting c = some t → (st.users.lookup u).map UserRecord.tenantId = some (some t) ∧
    (st.userRows.lookup u).map UserRecord.tenantId = some (some t)

structure Fits (st : Store) (u : String) (o : Option Call) : Prop where
  mem : InTenant st.keys.runtime st.users u
  row : InTenant st.keyRows st.userRows u
  allowed : ∀ c, o = some c → Allowed st u c

/-- `update_user` changes the tenant of a user only if the user has no key when it reads the user. -/
def keepsTenant (s : State) : Label → Bool
  | .step i _ =>
    match s.calls.lookup i with
    | some (.updateUser u patch .start) => (s.store.users.lookup u).all fun current =>
        UserPatch.newTenant patch current = current.tenantId ||
          (values s.store.keys.runtime).all fun r => r.ownerUserId ≠ some u
    | _ => true
  | _ => true

/-- A call on a user begins when no call on that user is under way, and no user that has keys is moved to
another tenant. -/
def Orderly (s : State) (l : Label) : Prop := Serial s l ∧ keepsTenant s l = true

instance (s : State) (l : Label) : Decidable (Orderly s l) := inferInstanceAs (Decidable (_ ∧ _))

/-- The user's keys in the one table are in the other. -/
def OwnKeys (keys' keys : HashMap String KeyRecord) (u : String) : Prop :=
  ∀ k r, keys'.lookup k = some r → r.ownerUserId = some u → ∃ r0, keys.lookup k = some r0 ∧ SameKey r0 r

section fits

variable {cfg : Config} {s s' : State} {st st' : Store} {i : ℕ} {c c' : Call} {u : String}
  {keys keys' : HashMap String KeyRecord} {users users' : HashMap String UserRecord}

theorem OwnKeys.refl (keys : HashMap String KeyRecord) (u : String) : OwnKeys keys keys u :=
  fun _ r hr _ => ⟨r, hr, .refl r⟩

theorem ownKeys_of_own (h : OwnWithin keys' keys u) : OwnKeys keys' keys u := by
  intro k r hr ho
  obtain ⟨r0, hr0, hs, -⟩ := h k r hr ho
  exact ⟨r0, hr0, hs⟩

theorem noKeys_of_ownKeys (h : NoKeys keys u) (hk : OwnKeys keys' keys u) : NoKeys keys' u := by
  intro k r hr ho
  obtain ⟨r0, hr0, hs⟩ := hk k r hr ho
  exact h k r0 hr0 (hs.2.1.trans ho)

theorem inTenant_of_noKeys (h : NoKeys keys u) : InTenant keys users u :=
  fun k r _ hr ho => absurd ho (h k r hr)

theorem InTenant.frame (h : InTenant keys users u) (hk : OwnKeys keys' keys u)
    (hu : ∀ t, (users'.lookup u).map UserRecord.tenantId = some t →
      (users.lookup u).map UserRecord.tenantId = some t) : InTenant keys' users' u := by
  intro k r x hr ho hx
  obtain ⟨r0, hr0, hs⟩ := hk k r hr ho
  obtain ⟨y, hy, he⟩ := Option.map_eq_some_iff.mp (hu x.tenantId (by rw [hx]; rfl))
  rw [← he, ← hs.2.2]
  exact h k r0 y hr0 (hs.2.1.trans ho) hy

theorem Fits.frame {o : Option Call} (h : Fits st u o) (hk : OwnKeys st'.keys.runtime st.keys.runtime u)
    (hr : OwnKeys st'.keyRows st.keyRows u)
    (hu : (st'.users.lookup u).map UserRecord.tenantId = (st.users.lookup u).map UserRecord.tenantId)
    (hur : (st'.userRows.lookup u).map UserRecord.tenantId =
      (st.userRows.lookup u).map UserRecord.tenantId) : Fits st' u o := by
  refine ⟨h.mem.frame hk (by rw [hu]; exact fun _ ht => ht), h.row.frame hr (by rw [hur]; exact fun _ ht => ht),
    fun c hc => ⟨fun hm => ?_, fun t ht => ?_⟩⟩
  · exact ⟨noKeys_of_ownKeys ((h.allowed c hc).moves hm).1 hk, noKeys_of_ownKeys ((h.allowed c hc).moves hm).2 hr⟩
  · rw [hu, hur]
    exact (h.allowed c hc).mints t ht

theorem Fits.within {o : Option Call} (h : Fits st u o) (hu : st'.users = st.users)
    (hur : st'.userRows = st.userRows) (hmem : Within st'.keys.runtime st.keys.runtime)
    (hrow : Within st'.keyRows st.keyRows) :
    InTenant st'.keys.runtime st'.users u ∧ InTenant st'.keyRows st'.userRows u := by
  rw [hu, hur]
  exact ⟨h.mem.frame (ownKeys_of_own (hmem.own u)) fun _ ht => ht,
    h.row.frame (ownKeys_of_own (hrow.own u)) fun _ ht => ht⟩

theorem allowed_idle (hr : retenant c = none) (hc : isCreate c = false) (hm : minting c = none) :
    Allowed st u c := by
  refine ⟨?_, fun t ht => ?_⟩
  · rintro (⟨old, new, he, -⟩ | he)
    · rw [hr] at he
      cases he
    · rw [hc] at he
      cases he
  · rw [hm] at ht
    cases ht

theorem target_of_before (h : stage c = .before) : target c = none := by
  cases c with
  | createUser n p role t b pc => cases pc <;> first | rfl | cases h
  | updateUser id patch pc => cases pc <;> first | rfl | cases h
  | deleteUser id pc => rfl
  | setUserPassword id p pc => cases pc <;> first | rfl | cases h
  | recordLogin id pc => rfl
  | key c => rfl

theorem start_of_unread {patch : UserPatch} (hb : stage c = .before) (hu : held c = some u)
    (hp : patchOf c = some patch) (hs : snapshot c = none) : c = .updateUser u patch .start := by
  cases c with
  | updateUser id p pc =>
    cases hp
    cases pc with
    | start =>
      cases hu
      rfl
    | checking | updatingRow => cases hs
    | reindexing | publishing | sweeping => cases hb
    | done => cases hu
  | createUser | deleteUser | setUserPassword | recordLogin | key => cases hp

/-- A user without keys in memory has no rows, if a call other than `create_in` holds it. -/
theorem noRows (hkt : KeyTables s) (hsy : Synced s) (hi : s.calls.lookup i = some c) (hu : held c = some u)
    (hc : creating c = none) (h : NoKeys s.store.keys.runtime u) : NoKeys s.store.keyRows u := by
  intro k row hk ho
  obtain ⟨r, hr, hs⟩ := mem_of_row hkt hsy.exclusive (o := some c) ⟨hu, i, hi⟩
    (fun d hd => by cases hd; exact hc) hk ho
  exact h k r hr (hs.2.1.trans ho)

theorem noKeys_of_keepsTenant {a : Answer} {patch : UserPatch} {current : UserRecord}
    (hC : keepsTenant s (.step i a) = true) (hi : s.calls.lookup i = some (.updateUser u patch .start))
    (hcur : s.store.users.lookup u = some current)
    (hne : UserPatch.newTenant patch current ≠ current.tenantId) : NoKeys s.store.keys.runtime u := by
  simp only [keepsTenant, hi, hcur, Option.all_some, Bool.or_eq_true, decide_eq_true_eq, hne, false_or,
    List.all_eq_true] at hC
  exact fun k r hr => hC r ((mem_values _ _).mpr ⟨k, hr⟩)

theorem allowed_wait {a : Answer} (hkt : KeyTables s) (hsy : Synced s)
    (h : Allowed s.store u c) (hC : keepsTenant s (.step i a) = true) (hi : s.calls.lookup i = some c)
    (hu : held c = some u) (hheld : held c' = held c) (hb : stage c = .before) (hb' : stage c' = .before)
    (hk : keyCall c = none) (hk' : keyCall c' = none) (hpatch : patchOf c' = patchOf c)
    (hs : ∀ r, snapshot c' = some r → snapshot c = some r ∨
      (snapshot c = none ∧ ∃ u, held c = some u ∧ s.store.users.lookup u = some r)) :
    Allowed s.store u c' := by
  refine ⟨?_, fun t ht => ?_⟩
  · rintro (⟨old, new, he, hne⟩ | he)
    · cases hsn : snapshot c' with
      | none =>
        simp only [retenant, hsn] at he
        cases he
      | some current =>
        simp only [retenant, hsn, target_of_before hb'] at he
        obtain ⟨patch, hp, he⟩ := Option.map_eq_some_iff.mp he
        rw [hpatch] at hp
        rcases hs current hsn with hold | ⟨hnone, v, hv, hcur⟩
        · refine h.moves (Or.inl ⟨old, new, ?_, hne⟩)
          simp only [retenant, hold, target_of_before hb, hp]
          exact congrArg some he
        · rw [hu] at hv
          cases hv
          have hstart := start_of_unread hb hu hp hnone
          cases he
          have hmem := noKeys_of_keepsTenant hC (hstart ▸ hi) hcur (Ne.symm hne)
          exact ⟨hmem, noRows hkt hsy hi hu (creating_of_keyCall hk) hmem⟩
    · rw [not_isCreate_of_before hb' (hheld.trans hu)] at he
      cases he
  · rw [minting_of_keyCall hk'] at ht
    cases ht

theorem tenant_of_core {o : Option UserRecord} {r : UserRecord}
    (h : o.map UserRecord.core = some r.core) : o.map UserRecord.tenantId = some r.tenantId := by
  obtain ⟨q, rfl, hq⟩ := map_core_eq_some h
  exact congrArg some (UserRecord.eq_of_core hq).2.1

theorem inTenant_insert {k : String} {r : KeyRecord} (h : InTenant keys users u)
    (hr : (users.lookup u).map UserRecord.tenantId = some (some r.tenantId)) :
    InTenant (keys.insert k r) users u := by
  intro k' q x hq ho hx
  rw [lookup_insert] at hq
  split_ifs at hq
  · cases hq
    rw [hx] at hr
    exact Option.some.inj hr
  · exact h k' q x hq ho hx

/-- **A step of a call on the key store**, and the user that the call holds. -/
theorem Fits.key {k k' : Keys.Call} (hsy : Synced s) (h : Fits s.store u (some (.key k)))
    (hi : s.calls.lookup i = some (.key k)) (hu : held (.key k) = some u) (hm : KeyMove cfg s k st' k') :
    InTenant st'.keys.runtime st'.users u ∧ InTenant st'.keyRows st'.userRows u ∧
      (held (.key k') = some u → Allowed st' u (.key k')) := by
  cases hm with
  | quiet _ _ keys hrun hheld =>
    have hown : OwnKeys keys.runtime s.store.keys.runtime u := by
      rw [hrun]
      exact .refl _ u
    refine ⟨h.mem.frame hown fun _ ht => ht, h.row, fun hn => ?_⟩
    rw [hheld] at hn
    cases hn
  | check tenantId owner name hown =>
    refine ⟨h.mem, h.row, fun _ => ⟨by simp [retenant, snapshot, isCreate], fun t ht => ?_⟩⟩
    cases ht
    have hsame : Same s.store u := (hsy.sync u (some _) ⟨hu, i, hi⟩).1
    obtain ⟨x, hx, hxt⟩ := Option.map_eq_some_iff.mp (hown u hu)
    refine ⟨hown u hu, ?_⟩
    rw [Same, hx] at hsame
    rw [tenant_of_core hsame, hxt]
  | retry tenantId owner name n m =>
    exact ⟨h.mem, h.row, fun _ => ⟨by simp [retenant, snapshot, isCreate], (h.allowed _ rfl).mints⟩⟩
  | insert tenantId owner name n r plaintext hfresh ht ho he =>
    have hmint := (h.allowed _ rfl).mints tenantId rfl
    rw [← ht] at hmint
    refine ⟨h.mem, inTenant_insert h.row hmint.2, fun _ => ⟨by simp [retenant, snapshot, isCreate], fun t hr => ?_⟩⟩
    cases hr
    exact hmint
  | bump tenantId owner name r plaintext keys hrun v =>
    have hown : OwnKeys keys.runtime s.store.keys.runtime u := by
      rw [hrun]
      exact .refl _ u
    exact ⟨h.mem.frame hown fun _ ht => ht, h.row,
      fun _ => ⟨by simp [retenant, snapshot, isCreate], (h.allowed _ rfl).mints⟩⟩
  | publish tenantId owner name r plaintext =>
    have hmint := (h.allowed _ rfl).mints r.tenantId rfl
    exact ⟨inTenant_insert h.mem hmint.1, h.row, fun hn => (by cases hn)⟩
  | deleteRow id => cases hu
  | retain id pc hpc => cases hu
  | sweep owner pc pc' st' hsw =>
    obtain ⟨hrows, hrun, -⟩ := sweepMove_within hsw
    obtain ⟨husers, huserRows⟩ := sweepMove_users hsw
    obtain ⟨hmem, hrow⟩ := h.within husers huserRows hrun hrows
    exact ⟨hmem, hrow, fun _ => allowed_idle rfl rfl rfl⟩

/-- **What a step of a call makes of the user that it holds.** -/
theorem Fits.move {a : Answer} (hkt : KeyTables s) (hsy : Synced s) (h : Fits s.store u (some c))
    (hC : keepsTenant s (.step i a) = true) (hi : s.calls.lookup i = some c) (hm : Move cfg s a c st' c')
    (hu : held c = some u) :
    InTenant st'.keys.runtime st'.users u ∧ InTenant st'.keyRows st'.userRows u ∧
      (held c' = some u → Allowed st' u c') := by
  have hsync : Sync s.store u (some c) := hsy.sync u (some c) ⟨hu, i, hi⟩
  have hall := h.allowed c rfl
  cases hm with
  | wait _ _ hheld hb hb' hk hk' hpatch _ hs =>
    exact ⟨h.mem, h.row, fun _ => allowed_wait hkt hsy hall hC hi hu hheld hb hb' hk hk' hpatch hs⟩
  | leave _ _ hheld =>
    refine ⟨h.mem, h.row, fun hn => ?_⟩
    rw [hheld] at hn
    cases hn
  | insertRow n p role t b name r => cases hu
  | index n p role t b r =>
    exact ⟨h.mem, h.row, fun _ => ⟨fun _ => hall.moves (Or.inr rfl), fun t ht => (by cases ht)⟩⟩
  | created n p role t b r =>
    exact ⟨inTenant_of_noKeys (hall.moves (Or.inr rfl)).1, h.row, fun hn => (by cases hn)⟩
  | updateRow id patch current name hash now =>
    cases hu
    simp only [Sync, stage] at hsync
    have hcur := tenant_of_core (hsync.1.trans (hsync.2 current rfl))
    obtain ⟨q, hq, -⟩ := map_core_eq_some (hsync.1.trans (hsync.2 current rfl))
    refine ⟨h.mem, ?_, fun _ => ⟨hall.moves, fun t ht => (by cases ht)⟩⟩
    by_cases hten : current.tenantId = UserPatch.newTenant patch current
    · refine h.row.frame (.refl _ u) fun t ht => ?_
      rw [lookup_changeRow, if_pos rfl, hq] at ht
      cases ht
      rw [hcur, hten]
      rfl
    · exact inTenant_of_noKeys (hall.moves (Or.inl ⟨_, _, rfl, hten⟩)).2
  | reindex id patch current r =>
    exact ⟨h.mem, h.row, fun _ => ⟨hall.moves, fun t ht => (by cases ht)⟩⟩
  | publish id patch current r pc hpc =>
    cases hu
    have hcur := tenant_of_core (hsync.2 current rfl)
    refine ⟨?_, h.row, fun _ => ?_⟩
    · by_cases hten : current.tenantId = r.tenantId
      · refine h.mem.frame (.refl _ u) fun t ht => ?_
        rw [lookup_publish, if_pos rfl] at ht
        cases ht
        rw [hcur, hten]
      · exact inTenant_of_noKeys (hall.moves (Or.inl ⟨_, _, rfl, hten⟩)).1
    · rw [hpc]
      split_ifs
      · exact allowed_idle rfl rfl rfl
      · exact allowed_idle rfl rfl rfl
  | sweepUpdate id patch r b hb pc pc' st' hsw q hq =>
    have hsw := sweepMove_of_sweepStep hsw
    obtain ⟨hrows, hrun, -⟩ := sweepMove_within hsw
    obtain ⟨husers, huserRows⟩ := sweepMove_users hsw
    obtain ⟨hmem, hrow⟩ := h.within husers huserRows hrun hrows
    refine ⟨hmem, hrow, fun _ => ?_⟩
    rw [hq]
    split_ifs
    · exact allowed_idle rfl rfl rfl
    · exact allowed_idle rfl rfl rfl
  | sweepDelete id b hb pc pc' st' hsw q hq =>
    have hsw := sweepMove_of_sweepStep hsw
    obtain ⟨hrows, hrun, -⟩ := sweepMove_within hsw
    obtain ⟨husers, huserRows⟩ := sweepMove_users hsw
    obtain ⟨hmem, hrow⟩ := h.within husers huserRows hrun hrows
    exact ⟨hmem, hrow, fun _ => allowed_idle rfl rfl rfl⟩
  | deleteRow id =>
    cases hu
    refine ⟨h.mem, h.row.frame (.refl _ u) fun t ht => ?_, fun _ => allowed_idle rfl rfl rfl⟩
    rw [lookup_deleteRow, if_pos rfl] at ht
    cases ht
  | unindex id => exact ⟨h.mem, h.row, fun _ => allowed_idle rfl rfl rfl⟩
  | remove id =>
    cases hu
    refine ⟨h.mem.frame (.refl _ u) fun t ht => ?_, h.row, fun hn => (by cases hn)⟩
    rw [lookup_remove, if_pos rfl] at ht
    cases ht
  | passwordRow id p current hash now =>
    have hten := map_lookup_modify UserRecord.tenantId
      (f := fun row => { row with passwordHash := hash, updatedAt := now }) (fun _ => rfl) id s.store.userRows u
    refine ⟨h.mem, h.row.frame (.refl _ u) fun t ht => hten.symm.trans ht, fun _ => ⟨?_, fun t ht => (by cases ht)⟩⟩
    simp [retenant, snapshot, target, isCreate]
  | password id p current hash now =>
    cases hu
    have hcur := hsync.2 current rfl
    obtain ⟨q, hq, -⟩ := map_core_eq_some hcur
    refine ⟨h.mem.frame (.refl _ u) fun t ht => ?_, h.row, fun hn => (by cases hn)⟩
    rw [lookup_changeUser, if_pos rfl, hq] at ht
    cases ht
    have hten := tenant_of_core hcur
    exact hten
  | loginRow id now => cases hu
  | login id now => cases hu
  | key b hb k k' keys hposs hc => exact h.key hsy hi hu (keyMove_of_callStep hposs hc)

/-- **A step of a call** keeps every key in the tenant of its owner. -/
theorem fits_move {a : Answer} (hkt : KeyTables s) (hsy : Synced s)
    (h : ∀ v o, On held s.calls v o → Fits s.store v o) (hC : keepsTenant s (.step i a) = true)
    (hi : s.calls.lookup i = some c) (hm : Move cfg s a c st' c') :
    ∀ v o, On held (s.calls.insert i c') v o → Fits st' v o := by
  refine forall_on_move hsy.exclusive hi hm h (fun v o hv hv' hf => ?_) (fun u hu hu' hf => ?_)
    (fun u hu _ hf => ?_) ?_
  · obtain ⟨hmem, hrow⟩ := keys_frame hkt hi hm hv
    exact hf.frame (ownKeys_of_own hmem) (ownKeys_of_own hrow) (map_of_core (fun _ => rfl) (users_frame hm hv))
      (map_of_core (fun _ => rfl) (userRows_frame hm hv hv'))
  · obtain ⟨hmem, hrow, hcall⟩ := hf.move hkt hsy hC hi hm hu
    refine ⟨hmem, hrow, fun d hd => ?_⟩
    cases hd
    exact hcall hu'
  · obtain ⟨hmem, hrow, -⟩ := hf.move hkt hsy hC hi hm hu
    exact ⟨hmem, hrow, fun _ hd => (by cases hd)⟩
  · rintro n p role t b name r - rfl rfl hfresh -
    have hkeys := noKeys_of_fresh hfresh
    refine ⟨inTenant_of_noKeys hkeys.1, inTenant_of_noKeys hkeys.2, fun d hd => ?_⟩
    cases hd
    exact ⟨fun _ => hkeys, fun t ht => (by cases ht)⟩

theorem fits_start (h : ∀ v o, On held s.calls v o → Fits s.store v o) {request : Request}
    (hfree : s.calls.lookup i = none) (hC : ∀ u, held request.call = some u → On held s.calls u none) :
    ∀ v o, On held (s.calls.insert i request.call) v o → Fits s.store v o := by
  have hnone : ∀ c, s.calls.lookup i = some c → held c = none := by
    intro c hc
    rw [hfree] at hc
    cases hc
  cases hu : held request.call with
  | none => exact forall_on_free hnone hu h fun _ _ _ hf => hf
  | some u =>
    refine forall_on_take hnone (hC u hu) hu h (fun _ _ _ _ hf => hf) fun hf => ⟨hf.mem, hf.row, fun c hc => ?_⟩
    cases hc
    cases request with
    | key r => cases r <;> exact allowed_idle rfl rfl rfl
    | createUser => cases hu
    | updateUser | deleteUser | setUserPassword | recordLogin => exact allowed_idle rfl rfl rfl

theorem fits_restart (h : ∀ v o, On held s.calls v o → Fits s.store v o) :
    ∀ v o, On held (∅ : HashMap ℕ Call) v o → Fits s.store.reload v o := by
  refine forall_on_empty fun u => ?_
  obtain ⟨o, ho⟩ := exists_on held s.calls u
  have hrow := (h u o ho).row
  refine ⟨fun k r x hr hu hx => ?_, hrow, by simp⟩
  obtain ⟨row, hk, rfl⟩ := lookup_reload.mp hr
  exact hrow k row x hk hu hx

theorem fits_step {l : Label} (hkt : KeyTables s) (hsy : Synced s)
    (h : ∀ v o, On held s.calls v o → Fits s.store v o) (hC : Orderly s l) (hs : step cfg s l = some s') :
    ∀ v o, On held s'.calls v o → Fits s'.store v o := by
  rcases step_cases hs with ⟨i, request, rfl, hi, rfl⟩ | ⟨i, a, c, st', c', rfl, hi, hm, -, rfl⟩ | ⟨-, rfl⟩
  · exact fits_start h hi hC.1
  · exact fits_move hkt hsy h hC.2 hi hm
  · exact fits_restart h

theorem fits_init : ∀ v o, On held init.calls v o → Fits init.store v o :=
  forall_on_empty fun _ => ⟨fun _ _ _ h => (by cases h), fun _ _ _ h => (by cases h), by simp⟩

end fits

/-- **A key stays in the tenant of its owner**, in memory and in the table, in every state of a run in which
calls on one user do not overlap and no user that has keys is moved to another tenant; restarts and failing
statements may come anywhere. -/
theorem keys_in_tenant (cfg : Config) (ls : List Label) (s : State) (hs : run (step cfg) init ls = some s)
    (hC : AllSteps (step cfg) Orderly init ls) :
    ∀ u, InTenant s.store.keys.runtime s.store.users u ∧ InTenant s.store.keyRows s.store.userRows u := by
  have h := run_invariant_of (I := fun s => KeyTables s ∧ Synced s ∧
      ∀ v o, On held s.calls v o → Fits s.store v o)
    (fun s l s' h hC hs => ⟨keyTables_step h.1 hs, synced_step h.2.1 hC.1 hs,
      fits_step h.1 h.2.1 h.2.2 hC hs⟩)
    ls init s ⟨keyTables_init, synced_init, fits_init⟩ hC hs
  intro u
  obtain ⟨o, ho⟩ := exists_on held s.calls u
  exact ⟨(h.2.2 u o ho).mem, (h.2.2 u o ho).row⟩

/-! ### Two runs -/

/-- The user `u1` is moved to the tenant `beta`. -/
def movesUser : List Label :=
  [.start 2 (.updateUser "u1" ⟨none, none, some (some "beta"), none, none⟩), .step 2 .silent,
    .step 2 (.tenant (some true)), .step 2 .silent, .step 2 (.written "" "" 3), .step 2 .silent,
    .step 2 .silent]

/-- The user is moved before it has a key. -/
theorem keys_in_tenant_moved : ∃ s, run (step Revocation.exampleConfig) init
    (createsUser ++ movesUser ++ createsKey 1 "beta" ++ [.restart]) = some s ∧
    (∀ u, InTenant s.store.keys.runtime s.store.users u ∧ InTenant s.store.keyRows s.store.userRows u) ∧
    (values s.store.keys.runtime).map (fun r => (r.tenantId, r.ownerUserId)) = [("beta", some "u1")] ∧
    (s.store.users.lookup "u1").map UserRecord.tenantId = some (some "beta") := by
  obtain ⟨s, hs, hkey, huser⟩ := exists_run (step Revocation.exampleConfig) init
    (createsUser ++ movesUser ++ createsKey 1 "beta" ++ [.restart]) (fun s =>
      (values s.store.keys.runtime).map (fun r => (r.tenantId, r.ownerUserId)) = [("beta", some "u1")] ∧
      (s.store.users.lookup "u1").map UserRecord.tenantId = some (some "beta")) (by decide +kernel)
  exact ⟨s, hs, keys_in_tenant Revocation.exampleConfig _ s hs (by decide +kernel), hkey, huser⟩

/-- The user is moved when it has a key: the key stays behind. -/
theorem key_left_in_tenant : ∃ s, run (step Revocation.exampleConfig) init
    (createsUser ++ createsKey 1 "alpha" ++ movesUser) = some s ∧
    ¬ InTenant s.store.keys.runtime s.store.users "u1" ∧
    (s.calls.lookup 2).any (fun c => c matches .updateUser _ _ (.done (.ok _))) := by
  obtain ⟨s, hs, hkey, huser, hcall⟩ := exists_run (step Revocation.exampleConfig) init
    (createsUser ++ createsKey 1 "alpha" ++ movesUser) (fun s =>
      (s.store.keys.runtime.lookup (Revocation.exampleConfig.lookupOf "sk-abc")).map
        (fun r => (r.tenantId, r.ownerUserId)) = some ("alpha", some "u1") ∧
      (s.store.users.lookup "u1").map UserRecord.tenantId = some (some "beta") ∧
      (s.calls.lookup 2).any (fun c => c matches .updateUser _ _ (.done (.ok _)))) (by decide +kernel)
  refine ⟨s, hs, fun h => ?_, hcall⟩
  obtain ⟨r, hr, he⟩ := Option.map_eq_some_iff.mp hkey
  obtain ⟨x, hx, hxt⟩ := Option.map_eq_some_iff.mp huser
  obtain ⟨ht, ho⟩ := Prod.mk.inj he
  have := h _ r x hr ho hx
  rw [hxt, ht] at this
  exact absurd this (by decide)

end HomeLlmGateway.Storage.KeyTenants
