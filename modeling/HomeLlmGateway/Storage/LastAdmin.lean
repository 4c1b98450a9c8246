import HomeLlmGateway.Storage.UserSync

/-! # The last super admin

`update_user` and `delete_user` ask, before they disable, demote or delete an enabled super admin, whether
there is another one (`ensure_not_last_super`), and change the user some steps later. Two such calls on two
users may both ask before either has changed anything, and then no super admin is left
(`no_super_admin_is_left`). If calls on one user do not overlap, and a call asks only while no other one that
has asked is still to take its super admin away, there is an enabled super admin from the first one on
(`a_super_admin_is_left`): a call that has been let through is the only one, and it leaves another. -/

namespace HomeLlmGateway.Storage.LastAdmin

open HomeLlmGateway.Lib.Runs HomeLlmGateway.Lib.Assoc HomeLlmGateway.Lib.Holding
open HomeLlmGateway.Storage.Keys (Config)
open HomeLlmGateway.Storage.Users HomeLlmGateway.Storage.Accounts HomeLlmGateway.Storage.UserSync

/-! ### Super admins, and who takes them away -/

/-- The user is an enabled super admin. -/
def superAt (users : HashMap String UserRecord) (u : String) : Bool :=
  (users.lookup u).any UserRecord.isEnabledSuper

/-- There is an enabled super admin. -/
def HasSuper (users : HashMap String UserRecord) : Prop := ∃ u, superAt users u = true

/-- The patch leaves an enabled super admin. -/
def leavesSuper (patch : UserPatch) (current : UserRecord) : Bool :=
  UserPatch.newEnabled patch current && decide (UserPatch.newRole patch current = .superAdmin)

/-- The patch makes an enabled super admin something else. -/
def demotes (patch : UserPatch) (current : UserRecord) : Bool :=
  current.isEnabledSuper && !leavesSuper patch current

/-- The enabled super admin that a call, having asked, is going to take away. -/
def threat (users : HashMap String UserRecord) : Call → Option String
  | .updateUser id patch (.checking current _ checks) =>
    if demotes patch current && !checks.contains .notLastSuper then some id else none
  | .updateUser id patch (.updatingRow current _) | .updateUser id patch (.reindexing current _)
  | .updateUser id patch (.publishing current _) => if demotes patch current then some id else none
  | .deleteUser id (.sweeping _) | .deleteUser id .deletingRow | .deleteUser id .unindexing
  | .deleteUser id .removing => if superAt users id then some id else none
  | _ => none

/-- The next step of the call is `ensure_not_last_super`. -/
def asks : Call → Bool
  | .updateUser _ _ (.checking _ _ (.notLastSuper :: _)) => true
  | .deleteUser _ .checking => true
  | _ => false

/-- A call asks only while no other call that has asked is still to take its super admin away. -/
def AsksAlone (s : State) : Label → Prop
  | .step i _ => ∀ c ∈ s.calls.lookup i, asks c → ∀ e ∈ s.calls.entries, e.1 ≠ i →
    threat s.store.users e.2 = none
  | _ => True

variable {cfg : Config} {s s' : State} {st st' : Store} {i : ℕ} {a : Answer} {c c' : Call} {u : String}
  {users users' : HashMap String UserRecord}

theorem superAt_eq_core (users : HashMap String UserRecord) (u : String) :
    superAt users u = ((users.lookup u).map UserRecord.core).any UserRecord.isEnabledSuper := by
  unfold superAt
  rcases users.lookup u with _ | r <;> rfl

theorem superAt_congr (h : (users'.lookup u).map UserRecord.core = (users.lookup u).map UserRecord.core) :
    superAt users' u = superAt users u := by
  rw [superAt_eq_core, superAt_eq_core, h]

theorem superAt_of_lookup {r : UserRecord} (h : users.lookup u = some r) :
    superAt users u = r.isEnabledSuper := by
  unfold superAt
  rw [h]
  rfl

theorem superAt_of_core {r : UserRecord} (h : (users.lookup u).map UserRecord.core = some r.core) :
    superAt users u = r.isEnabledSuper := by
  rw [superAt_eq_core, h]
  rfl

theorem held_of_threat (h : threat users c = some u) : held c = some u := by
  unfold threat at h
  split at h
  all_goals first
    | (split_ifs at h; exact h)
    | cases h

theorem threat_congr (h : ∀ v, held c = some v →
    (users'.lookup v).map UserRecord.core = (users.lookup v).map UserRecord.core) :
    threat users' c = threat users c := by
  unfold threat
  split
  all_goals first
    | rfl
    | rw [superAt_congr (h _ rfl)]

/-- If the last check lets a super admin pass, there is another one. -/
theorem exists_of_ensureNotLastSuper (h : ensureNotLastSuper users u = .ok ()) (hu : superAt users u = true) :
    ∃ v, v ≠ u ∧ superAt users v = true := by
  unfold ensureNotLastSuper at h
  split_ifs at h with hlast
  have hcount : ¬ countVal UserRecord.isEnabledSuper users ≤ 1 := fun hle => hlast ⟨hu, hle⟩
  obtain ⟨r, hr, hsuper⟩ := (Option.any_eq_true _ _).mp hu
  have herase := countVal_erase UserRecord.isEnabledSuper hr
  rw [hsuper, if_pos rfl] at herase
  have hpos : 0 < countVal UserRecord.isEnabledSuper (users.erase u) := by omega
  obtain ⟨v, q, hv, hq⟩ := countVal_pos.mp hpos
  rw [lookup_erase] at hv
  split_ifs at hv with hvu
  exact ⟨v, hvu, by rw [superAt_of_lookup hv, hq]⟩

/-- `update_user` asks before it takes a super admin away. -/
theorem notLastSuper_mem_checksOf {current : UserRecord} {patch : UserPatch} {name : String}
    (h : demotes patch current = true) : (checksOf current patch name).contains .notLastSuper = true := by
  unfold demotes leavesSuper UserRecord.isEnabledSuper at h
  unfold checksOf UserRecord.isEnabledSuper
  rcases hen : UserPatch.newEnabled patch current with _ | _ <;> simp_all

/-! ### What a step of a call does to super admins -/

/-- What a call goes on with. -/
def CallOk (users : HashMap String UserRecord) : Call → Prop
  | .createUser _ _ _ _ _ (.indexing r) | .createUser _ _ _ _ _ (.publishing r) => users.lookup r.id = none
  | .updateUser _ patch (.reindexing current r) | .updateUser _ patch (.publishing current r) =>
    r.isEnabledSuper = leavesSuper patch current
  | _ => True

theorem threat_updateStep {id : String} {patch : UserPatch} {pc pc' : UpdateUserPc}
    (h : updateUserStep cfg st a id patch pc = some (st', pc'))
    (hcur : ∀ r, snapshot (.updateUser id patch pc) = some r → superAt st.users id = r.isEnabledSuper)
    (ht : threat st'.users (.updateUser id patch pc') = some u) :
    threat st.users (.updateUser id patch pc) = some u ∨
      asks (.updateUser id patch pc) = true ∧ ∃ v, v ≠ u ∧ superAt st'.users v = true := by
  rcases pc with _ | ⟨current, name, checks⟩ | ⟨current, name⟩ | ⟨current, r⟩ | ⟨current, r⟩ | ⟨r, pc⟩ | res
  · -- the checks are still to come
    exfalso
    simp only [updateUserStep] at h
    split at h
    · cases h
      cases ht
    · next current hc =>
      split at h
      · cases h
        cases ht
      · cases h
        simp only [threat] at ht
        split_ifs at ht with hd
        rw [Bool.and_eq_true] at hd
        rw [notLastSuper_mem_checksOf hd.1] at hd
        cases hd.2
  · rcases checks with _ | ⟨check, checks⟩
    · cases h
      refine Or.inl ?_
      simp only [threat, List.contains_nil, Bool.not_false, Bool.and_true]
      exact ht
    · obtain ⟨res, hres, he⟩ := Option.map_eq_some_iff.mp h
      rcases res with e | _
      · cases he
        cases ht
      · cases he
        by_cases hc : check = .notLastSuper
        · subst hc
          refine Or.inr ⟨rfl, ?_⟩
          have hheld := held_of_threat ht
          cases hheld
          simp only [threat] at ht
          split_ifs at ht with hd
          rw [Bool.and_eq_true] at hd
          unfold demotes at hd
          rw [Bool.and_eq_true] at hd
          have hsuper : superAt st.users u = true := by
            rw [hcur current rfl]
            exact hd.1.1
          exact exists_of_ensureNotLastSuper (Option.some.inj hres) hsuper
        · refine Or.inl ?_
          simp only [threat] at ht ⊢
          have hsame : (check :: checks).contains Check.notLastSuper = checks.contains Check.notLastSuper := by
            simp [Ne.symm hc]
          rw [hsame]
          exact ht
  · refine Or.inl ?_
    simp only [updateUserStep] at h
    split at h
    · split_ifs at h
      · cases h
        cases ht
      · cases h
        exact ht
    · cases h
      cases ht
    · cases h
  · cases h
    exact Or.inl ht
  · exfalso
    cases h
    split_ifs at ht
    · cases ht
    · cases ht
  · exfalso
    simp only [updateUserStep] at h
    split at h
    · obtain ⟨p, -, he⟩ := Option.map_eq_some_iff.mp h
      cases he
      split_ifs at ht
      · cases ht
      · cases ht
    · cases h
  · cases h

theorem threat_deleteStep {id : String} {pc pc' : DeleteUserPc}
    (h : deleteUserStep cfg st a id pc = some (st', pc'))
    (ht : threat st'.users (.deleteUser id pc') = some u) :
    threat st.users (.deleteUser id pc) = some u ∨
      asks (.deleteUser id pc) = true ∧ ∃ v, v ≠ u ∧ superAt st'.users v = true := by
  rcases pc with _ | _ | pc | _ | _ | _ | res
  · exfalso
    simp only [deleteUserStep] at h
    split at h
    · cases h
      cases ht
    · next current hc =>
      cases h
      split_ifs at ht with hrole
      · cases ht
      · simp only [threat] at ht
        split_ifs at ht with hsuper
        rw [superAt_of_lookup hc] at hsuper
        unfold UserRecord.isEnabledSuper at hsuper
        simp [hrole] at hsuper
  · simp only [deleteUserStep] at h
    rcases hask : ensureNotLastSuper st.users id with e | _
    · simp only [hask] at h
      cases h
      cases ht
    · simp only [hask] at h
      cases h
      refine Or.inr ⟨rfl, ?_⟩
      have hheld := held_of_threat ht
      cases hheld
      simp only [threat] at ht
      split_ifs at ht with hsuper
      exact exists_of_ensureNotLastSuper hask hsuper
  · refine Or.inl ?_
    simp only [deleteUserStep] at h
    split at h
    · obtain ⟨p, hp, he⟩ := Option.map_eq_some_iff.mp h
      obtain ⟨q, -, hq⟩ := Option.map_eq_some_iff.mp hp
      cases hq
      cases he
      split_ifs at ht
      · exact ht
      · exact ht
    · cases h
  · refine Or.inl ?_
    simp only [deleteUserStep] at h
    split at h
    · cases h
      exact ht
    · cases h
      cases ht
    · cases h
  · cases h
    exact Or.inl ht
  · cases h
    cases ht
  · cases h

/-- **A call comes to take a super admin away by asking**, and then there is another one. -/
theorem threat_step (h : callStep cfg st a c = some (st', c'))
    (hcur : ∀ r v, snapshot c = some r → held c = some v → superAt st.users v = r.isEnabledSuper)
    (ht : threat st'.users c' = some u) :
    threat st.users c = some u ∨ asks c = true ∧ ∃ v, v ≠ u ∧ superAt st'.users v = true := by
  rcases c with ⟨n, p, role, t, b, pc⟩ | ⟨id, patch, pc⟩ | ⟨id, pc⟩ | ⟨id, p, pc⟩ | ⟨id, pc⟩ | kc
  · obtain ⟨q, -, he⟩ := Option.map_eq_some_iff.mp h
    cases he
    cases ht
  · obtain ⟨q, hq, he⟩ := Option.map_eq_some_iff.mp h
    cases he
    refine threat_updateStep hq (fun r hr => hcur r id hr ?_) ht
    rcases pc with _ | _ | _ | _ | _ | _ | _
    all_goals first
      | rfl
      | cases hr
  · obtain ⟨q, hq, he⟩ := Option.map_eq_some_iff.mp h
    cases he
    exact threat_deleteStep hq ht
  · obtain ⟨q, -, he⟩ := Option.map_eq_some_iff.mp h
    cases he
    cases ht
  · obtain ⟨q, -, he⟩ := Option.map_eq_some_iff.mp h
    cases he
    cases ht
  · simp only [callStep] at h
    split at h
    · obtain ⟨q, -, he⟩ := Option.map_eq_some_iff.mp h
      cases he
      cases ht
    · cases h

theorem superAt_of_snapshot (h : Synced s) (hi : s.calls.lookup i = some c) {r : UserRecord}
    (hr : snapshot c = some r) (hu : held c = some u) : superAt s.store.users u = r.isEnabledSuper := by
  have hsync := h.sync u (some c) ⟨hu, i, hi⟩
  refine superAt_of_core ?_
  unfold Sync at hsync
  rcases hst : stage c with _ | _ | _ | _ <;> simp only [hst] at hsync
  · exact hsync.2 r hr
  · exact hsync.2 r hr
  · exact hsync.2 r hr
  · -- a call that has published has no use for what it read
    exfalso
    unfold stage at hst
    unfold snapshot at hr
    split at hst
    all_goals first
      | (cases hst; done)
      | cases hr

/-- **A step takes a super admin away only if its call was about to.** -/
theorem superAt_move (h : Synced s) (hi : s.calls.lookup i = some c) (hok : CallOk s.store.users c)
    (hm : Move cfg s a c st' c') (hu : superAt s.store.users u = true)
    (ht : threat s.store.users c ≠ some u) : superAt st'.users u = true := by
  by_cases hheld : held c = some u
  · cases hm with
    | created n p role t b r =>
      cases hheld
      exfalso
      unfold superAt at hu
      rw [show s.store.users.lookup r.id = none from hok] at hu
      cases hu
    | publish id patch current r pc hpc =>
      cases hheld
      have hcur := superAt_of_snapshot h hi (r := current) rfl rfl
      have hlook : (s.store.write (.publish u r)).users.lookup u = some r := by
        rw [lookup_publish, if_pos rfl]
      rw [superAt_of_lookup hlook, show r.isEnabledSuper = leavesSuper patch current from hok]
      by_contra hleaves
      refine ht ?_
      rw [hu] at hcur
      simp only [threat, demotes, ← hcur, Bool.true_and]
      rw [if_pos (by simpa using hleaves)]
    | remove id =>
      cases hheld
      exact absurd (by simp only [threat, hu, if_true]) ht
    | password id p current hash now =>
      cases hheld
      have hcur := superAt_of_snapshot h hi (r := current) rfl rfl
      obtain ⟨q, hq, -⟩ := (Option.any_eq_true _ _).mp hu
      have hlook : (s.store.write (.changeUser u fun _ =>
          { current with passwordHash := hash, updatedAt := now })).users.lookup u =
          some { current with passwordHash := hash, updatedAt := now } := by
        rw [lookup_changeUser, if_pos rfl, hq]
        rfl
      rw [superAt_of_lookup hlook]
      exact hcur.symm.trans hu
    | login id now => cases hheld
    | sweepUpdate id patch r b hb pc pc' st' hsw q hq =>
      rw [(users_of_sweepStep hsw).1]
      exact hu
    | sweepDelete id b hb pc pc' st' hsw q hq =>
      rw [(users_of_sweepStep hsw).1]
      exact hu
    | wait | leave | insertRow | index | updateRow | reindex | deleteRow | unindex | passwordRow | loginRow
    | key => exact hu
  · rw [superAt_congr (users_frame hm hheld)]
    exact hu

theorem CallOk.congr (h : CallOk users c)
    (hu : ∀ v, held c = some v →
      (users'.lookup v).map UserRecord.core = (users.lookup v).map UserRecord.core) : CallOk users' c := by
  unfold CallOk at h ⊢
  split
  · have hv := hu _ rfl
    rw [h] at hv
    exact Option.map_eq_none_iff.mp hv
  · have hv := hu _ rfl
    rw [h] at hv
    exact Option.map_eq_none_iff.mp hv
  · exact h
  · exact h
  · trivial

/-- A call that has not begun to write has nothing to answer for. -/
theorem callOk_of_before (h : stage c = .before) : CallOk users c := by
  unfold stage at h
  unfold CallOk
  split
  all_goals trivial

theorem callOk_move (hok : CallOk s.store.users c) (hm : Move cfg s a c st' c') : CallOk st'.users c' := by
  cases hm with
  | wait _ _ _ _ hb' => exact callOk_of_before hb'
  | leave _ _ _ _ hb' => exact callOk_of_before hb'
  | insertRow n p role t b name r hname hfree hfresh =>
    exact (newUser_of_fresh hfresh).user
  | index n p role t b r => exact hok
  | updateRow id patch current name hash now hfree =>
    show (updatedRecord current patch name hash now).isEnabledSuper = leavesSuper patch current
    unfold updatedRecord UserRecord.isEnabledSuper leavesSuper
    rw [Bool.and_comm]
  | reindex id patch current r => exact hok
  | publish id patch current r pc hpc =>
    rw [hpc]
    split_ifs <;> trivial
  | sweepUpdate id patch r b hb pc pc' st' hsw q hq =>
    rw [hq]
    split_ifs <;> trivial
  | created | sweepDelete | deleteRow | unindex | remove | passwordRow | password | loginRow | login
  | key => trivial

/-! ### The invariant -/

/-- At most one call is to take a super admin away, and then there is another one. -/
structure Guarded (s : State) : Prop where
  ok : ∀ i c, s.calls.lookup i = some c → CallOk s.store.users c
  alone : ∀ i j c d u v, s.calls.lookup i = some c → s.calls.lookup j = some d →
    threat s.store.users c = some u → threat s.store.users d = some v → i = j
  two : ∀ i c u, s.calls.lookup i = some c → threat s.store.users c = some u →
    ∃ v, v ≠ u ∧ superAt s.store.users v = true

theorem guarded_init : Guarded init := by
  refine ⟨fun i c hi => ?_, fun i j c d u v hi => ?_, fun i c u hi => ?_⟩
  · cases hi
  · cases hi
  · cases hi

theorem guarded_start (h : Guarded s) (request : Request) :
    Guarded { s with calls := s.calls.insert i request.call } := by
  have hnone : threat s.store.users request.call = none := by
    rcases request with _ | _ | _ | _ | _ | r <;> rfl
  have hok : CallOk s.store.users request.call := by
    rcases request with _ | _ | _ | _ | _ | r <;> trivial
  have hold : ∀ j d, (s.calls.insert i request.call).lookup j = some d →
      d = request.call ∨ s.calls.lookup j = some d := by
    intro j d hj
    rw [lookup_insert] at hj
    split_ifs at hj
    · exact Or.inl (Option.some.inj hj).symm
    · exact Or.inr hj
  refine ⟨fun j d hj => ?_, fun j k d e u v hj hk hd he => ?_, fun j d u hj hd => ?_⟩
  · rcases hold j d hj with rfl | hj
    · exact hok
    · exact h.ok j d hj
  · rcases hold j d hj with rfl | hj
    · rw [hnone] at hd
      cases hd
    · rcases hold k e hk with rfl | hk
      · rw [hnone] at he
        cases he
      · exact h.alone j k d e u v hj hk hd he
  · rcases hold j d hj with rfl | hj
    · rw [hnone] at hd
      cases hd
    · exact h.two j d u hj hd

theorem frame_other (hsy : Synced s) (hi : s.calls.lookup i = some c) (hm : Move cfg s a c st' c') {j : ℕ}
    {d : Call} (hj : s.calls.lookup j = some d) (hne : j ≠ i) (v : String) (hd : held d = some v) :
    (st'.users.lookup v).map UserRecord.core = (s.store.users.lookup v).map UserRecord.core :=
  users_frame hm fun hc => hne (hsy.exclusive j i d c v hj hi hd hc)

theorem guarded_move (hsy : Synced s) (h : Guarded s) (hi : s.calls.lookup i = some c)
    (hC : asks c = true → ∀ j d, s.calls.lookup j = some d → j ≠ i → threat s.store.users d = none)
    (hm : Move cfg s a c st' c') (hs : callStep cfg s.store a c = some (st', c')) (log : List Change) :
    Guarded ⟨st', s.calls.insert i c', log⟩ := by
  have hold : ∀ j d, (s.calls.insert i c').lookup j = some d →
      j = i ∧ d = c' ∨ j ≠ i ∧ s.calls.lookup j = some d := by
    intro j d hj
    rw [lookup_insert] at hj
    split_ifs at hj with hji
    · exact Or.inl ⟨hji, (Option.some.inj hj).symm⟩
    · exact Or.inr ⟨hji, hj⟩
  -- the others are as they were
  have hother : ∀ j d, s.calls.lookup j = some d → j ≠ i → threat st'.users d = threat s.store.users d :=
    fun j d hj hne => threat_congr (frame_other hsy hi hm hj hne)
  have hself : ∀ u, threat st'.users c' = some u → threat s.store.users c = some u ∨
      asks c = true ∧ ∃ v, v ≠ u ∧ superAt st'.users v = true :=
    fun u hu => threat_step hs (fun r v hr hv => superAt_of_snapshot hsy hi hr hv) hu
  refine ⟨fun j d hj => ?_, fun j k d e u v hj hk hd he => ?_, fun j d u hj hd => ?_⟩
  · rcases hold j d hj with ⟨-, rfl⟩ | ⟨hne, hj⟩
    · exact callOk_move (h.ok i c hi) hm
    · exact (h.ok j d hj).congr (frame_other hsy hi hm hj hne)
  · -- a call that has just asked has found no other
    have hone : ∀ j d u v, j ≠ i → s.calls.lookup j = some d → threat st'.users d = some u →
        threat st'.users c' = some v → False := by
      intro j d u v hne hj hd hc'
      rw [hother j d hj hne] at hd
      rcases hself v hc' with hc | ⟨hask, -⟩
      · exact hne (h.alone j i d c u v hj hi hd hc)
      · rw [hC hask j d hj hne] at hd
        cases hd
    rcases hold j d hj with ⟨rfl, rfl⟩ | ⟨hji, hj0⟩ <;> rcases hold k e hk with ⟨rfl, rfl⟩ | ⟨hki, hk0⟩
    · rfl
    · exact (hone k e v u hki hk0 he hd).elim
    · exact (hone j d u v hji hj0 hd he).elim
    · rw [hother j d hj0 hji] at hd
      rw [hother k e hk0 hki] at he
      exact h.alone j k d e u v hj0 hk0 hd he
  · rcases hold j d hj with ⟨rfl, rfl⟩ | ⟨hne, hj⟩
    · rcases hself u hd with hc | ⟨-, hv⟩
      · obtain ⟨v, hvu, hv⟩ := h.two j c u hi hc
        refine ⟨v, hvu, superAt_move hsy hi (h.ok j c hi) hm hv fun he => hvu ?_⟩
        rw [hc] at he
        exact (Option.some.inj he).symm
      · exact hv
    · rw [hother j d hj hne] at hd
      obtain ⟨v, hvu, hv⟩ := h.two j d u hj hd
      refine ⟨v, hvu, superAt_move hsy hi (h.ok i c hi) hm hv fun he => ?_⟩
      exact hne (h.alone j i d c u v hj hi hd he)

/-- What a call has written of a super admin that it does not take away is a super admin. -/
theorem target_of_super (hsy : Synced s) (hi : s.calls.lookup i = some c) (hok : CallOk s.store.users c)
    (hheld : held c = some u) (hst : stage c = .rowWritten ∨ stage c = .indexed)
    (hu : superAt s.store.users u = true) (ht : threat s.store.users c ≠ some u) :
    ∃ r, target c = some r ∧ r.isEnabledSuper = true := by
  have hsnap : ∀ r, snapshot c = some r → r.isEnabledSuper = true :=
    fun r hr => (superAt_of_snapshot hsy hi hr hheld).symm.trans hu
  rcases c with ⟨n, p, role, t, b, pc⟩ | ⟨id, patch, pc⟩ | ⟨id, pc⟩ | ⟨id, p, pc⟩ | ⟨id, pc⟩ | kc
  · -- a user that is being created is not in memory yet
    exfalso
    rcases pc with _ | _ | _ | r | r | _ <;> simp [stage] at hst
    all_goals
      cases hheld
      unfold superAt at hu
      rw [show s.store.users.lookup r.id = none from hok] at hu
      cases hu
  · have hleaves : ∀ current r : UserRecord, threat s.store.users (.updateUser id patch pc) =
        (if demotes patch current then some id else none) → current.isEnabledSuper = true →
        r.isEnabledSuper = leavesSuper patch current → r.isEnabledSuper = true := by
      intro current r hthreat hcur hr
      rw [hr]
      by_contra hl
      refine ht (hthreat.trans ?_)
      have hid : held (.updateUser id patch pc) = some id := by
        rcases pc with _ | _ | _ | _ | _ | _ | _
        all_goals first
          | rfl
          | cases hheld
      rw [hid] at hheld
      cases hheld
      unfold demotes
      rw [if_pos (by simp [hcur, hl])]
    rcases pc with _ | ⟨current, name, checks⟩ | ⟨current, name⟩ | ⟨current, r⟩ | ⟨current, r⟩ |
      ⟨r, pc⟩ | res <;>
      simp [stage] at hst
    · exact ⟨r, rfl, hleaves current r rfl (hsnap current rfl) hok⟩
    · exact ⟨r, rfl, hleaves current r rfl (hsnap current rfl) hok⟩
  · exfalso
    rcases pc with _ | _ | pc | _ | _ | _ | res <;> simp [stage] at hst
    all_goals
      cases hheld
      exact ht (by simp only [threat, hu, if_true])
  · rcases pc with _ | current | ⟨current, hash⟩ | res <;> simp [stage] at hst
    exact ⟨_, rfl, hsnap current rfl⟩
  · simp [stage] at hst
  · simp [stage] at hst

/-- A super admin that no call is to take away is one in the table too. -/
theorem superAt_rows (hsy : Synced s) (h : Guarded s) (hu : superAt s.store.users u = true)
    (ht : ∀ i c, s.calls.lookup i = some c → threat s.store.users c ≠ some u) :
    superAt s.store.userRows u = true := by
  obtain ⟨o, ho⟩ := exists_on held s.calls u
  have hsync := hsy.sync u o ho
  have hsame : Same s.store u → superAt s.store.userRows u = true := by
    intro hs
    rw [superAt_congr hs]
    exact hu
  rcases o with _ | c
  · exact hsame hsync
  · obtain ⟨hheld, i, hi⟩ := ho
    have hwrote : stage c = .rowWritten ∨ stage c = .indexed →
        (s.store.userRows.lookup u).map UserRecord.core = (target c).map UserRecord.core →
        superAt s.store.userRows u = true := by
      intro hst hrow
      obtain ⟨r, hr, hsuper⟩ := target_of_super hsy hi (h.ok i c hi) hheld hst hu (ht i c hi)
      rw [hr] at hrow
      rw [superAt_of_core hrow]
      exact hsuper
    unfold Sync at hsync
    rcases hst : stage c with _ | _ | _ | _ <;> simp only [hst] at hsync
    · exact hsame hsync.1
    · exact hwrote (Or.inl hst) hsync.1
    · exact hwrote (Or.inr hst) hsync.1
    · exact hsame hsync.1

theorem exists_safe (h : Guarded s) (hs : HasSuper s.store.users) :
    ∃ u, superAt s.store.users u = true ∧
      ∀ i c, s.calls.lookup i = some c → threat s.store.users c ≠ some u := by
  by_cases hthreat : ∃ i c u, s.calls.lookup i = some c ∧ threat s.store.users c = some u
  · obtain ⟨i, c, u, hi, hc⟩ := hthreat
    obtain ⟨v, hvu, hv⟩ := h.two i c u hi hc
    refine ⟨v, hv, fun j d hj hd => hvu ?_⟩
    have hji := h.alone j i d c v u hj hi hd hc
    subst hji
    rw [hi] at hj
    cases hj
    rw [hc] at hd
    exact (Option.some.inj hd).symm
  · obtain ⟨u, hu⟩ := hs
    exact ⟨u, hu, fun i c hi hc => hthreat ⟨i, c, u, hi, hc⟩⟩

/-! ### Whole runs -/

/-- The condition on the steps. -/
def Careful (s : State) (l : Label) : Prop := Serial s l ∧ AsksAlone s l

theorem guarded_step {l : Label} (hsy : Synced s) (h : Guarded s) (hC : AsksAlone s l)
    (hs : step cfg s l = some s') : Guarded s' := by
  rcases step_cases hs with ⟨i, request, rfl, hi, rfl⟩ | ⟨i, a, c, st', c', rfl, hi, hm, hstep, rfl⟩ | ⟨-, rfl⟩
  · exact guarded_start h request
  · refine guarded_move hsy h hi (fun hask j d hj hne => ?_) hm hstep _
    exact hC c hi hask ⟨j, d⟩ ((mem_entries_iff _ _ _).mpr hj) hne
  · refine ⟨fun i c hi => ?_, fun i j c d u v hi => ?_, fun i c u hi => ?_⟩
    · cases hi
    · cases hi
    · cases hi

theorem hasSuper_step {l : Label} (hsy : Synced s) (h : Guarded s) (hsuper : HasSuper s.store.users)
    (hs : step cfg s l = some s') : HasSuper s'.store.users := by
  obtain ⟨u, hu, hsafe⟩ := exists_safe h hsuper
  rcases step_cases hs with ⟨i, request, rfl, hi, rfl⟩ | ⟨i, a, c, st', c', rfl, hi, hm, hstep, rfl⟩ | ⟨-, rfl⟩
  · exact hsuper
  · exact ⟨u, superAt_move hsy hi (h.ok i c hi) hm hu (hsafe i c hi)⟩
  · exact ⟨u, superAt_rows hsy h hu hsafe⟩

/-- **From the first one on there is an enabled super admin**, in a run where calls on one user do not
overlap and none runs `ensure_not_last_super` while another one that has passed it is still to disable,
demote or delete a super admin; also over restarts. -/
theorem a_super_admin_is_left {as bs : List Label} {s1 s2 : State}
    (hC : AllSteps (step cfg) Careful init (as ++ bs)) (h1 : run (step cfg) init as = some s1)
    (hsuper : HasSuper s1.store.users) (h2 : run (step cfg) s1 bs = some s2) : HasSuper s2.store.users := by
  obtain ⟨has, hbs⟩ := allSteps_append hC h1
  have hinv : Synced s1 ∧ Guarded s1 := run_invariant_of (I := fun s => Synced s ∧ Guarded s)
    (fun _ _ _ hI hl hs => ⟨synced_step hI.1 hl.1 hs, guarded_step hI.1 hI.2 hl.2 hs⟩) as init s1
    ⟨synced_init, guarded_init⟩ has h1
  exact (run_invariant_of (I := fun s => Synced s ∧ Guarded s ∧ HasSuper s.store.users)
    (fun _ _ _ hI hl hs => ⟨synced_step hI.1 hl.1 hs, guarded_step hI.1 hI.2.1 hl.2 hs,
      hasSuper_step hI.1 hI.2.1 hI.2.2 hs⟩) bs s1 s2 ⟨hinv.1, hinv.2, hsuper⟩ hbs h2).2.2

/-! ### Two super admins at once -/

instance (users : HashMap String UserRecord) : Decidable (HasSuper users) :=
  decidable_of_iff (∃ r ∈ values users, r.isEnabledSuper = true) (by
    simp only [mem_values, HasSuper, superAt, Option.any_eq_true]
    exact ⟨fun ⟨r, ⟨u, hu⟩, hr⟩ => ⟨u, r, hu, hr⟩, fun ⟨u, r, hu, hr⟩ => ⟨r, ⟨u, hu⟩, hr⟩⟩)

instance (s : State) : ∀ l, Decidable (AsksAlone s l)
  | .step i _ => inferInstanceAs (Decidable (∀ c ∈ s.calls.lookup i, _ → ∀ _ ∈ s.calls.entries, _ → _))
  | .start .. => isTrue trivial
  | .restart => isTrue trivial

instance (s : State) (l : Label) : Decidable (Careful s l) := inferInstanceAs (Decidable (_ ∧ _))

/-- The super admin `u` is created by the call `i`. -/
def createsSuper (i : ℕ) (name u : String) : List Label :=
  [.start i (.createUser name "correct horse" .superAdmin none none), .step i (.tenant none), .step i .silent,
    .step i (.written u "h" 1), .step i .silent, .step i .silent]

/-- The call `i` begins to disable the user `u`, and asks. -/
def begins (i : ℕ) (u : String) : List Label :=
  [.start i (.updateUser u ⟨none, none, none, some false, none⟩), .step i .silent, .step i (.tenant none),
    .step i .silent]

/-- It goes on until memory has changed. -/
def disables (i : ℕ) : List Label :=
  [.step i .silent, .step i (.written "" "" 2), .step i .silent, .step i .silent]

def noCache : Config := ⟨0, 0, fun token => token, fun _ _ => false⟩

/-- One of two is disabled, the other one cannot be. -/
theorem a_super_admin_is_left_one : ∃ s1 s2, run (step noCache) init (createsSuper 0 "alice" "u1") = some s1 ∧
    HasSuper s1.store.users ∧
    run (step noCache) s1 (createsSuper 1 "bob12" "u2" ++ begins 2 "u1" ++ disables 2 ++ begins 3 "u2") =
      some s2 ∧
    s2.calls.lookup 3 = some (.updateUser "u2" ⟨none, none, none, some false, none⟩
      (.done (.error .lastSuperAdmin))) ∧ HasSuper s2.store.users := by
  obtain ⟨s2, h2, hlast⟩ := exists_run (step noCache) init (createsSuper 0 "alice" "u1" ++
    (createsSuper 1 "bob12" "u2" ++ begins 2 "u1" ++ disables 2 ++ begins 3 "u2"))
    (fun s => s.calls.lookup 3 = some (.updateUser "u2" ⟨none, none, none, some false, none⟩
      (.done (.error .lastSuperAdmin)))) (by decide +kernel)
  obtain ⟨s1, h1, hsuper⟩ := exists_run (step noCache) init (createsSuper 0 "alice" "u1")
    (fun s => HasSuper s.store.users) (by decide +kernel)
  have hrun : run (step noCache) s1
      (createsSuper 1 "bob12" "u2" ++ begins 2 "u1" ++ disables 2 ++ begins 3 "u2") = some s2 := by
    rw [run_append, h1, Option.bind_some] at h2
    exact h2
  exact ⟨s1, s2, h1, hsuper, hrun, hlast, a_super_admin_is_left (by decide +kernel) h1 hsuper hrun⟩

/-- Both are disabled at once. -/
theorem no_super_admin_is_left : ¬ ∀ as bs s1 s2, run (step noCache) init as = some s1 →
    HasSuper s1.store.users → run (step noCache) s1 bs = some s2 → HasSuper s2.store.users := by
  intro hall
  obtain ⟨s1, h1, hsuper⟩ := exists_run (step noCache) init (createsSuper 0 "alice" "u1")
    (fun s => HasSuper s.store.users) (by decide +kernel)
  obtain ⟨s2, h2, hnone⟩ := exists_run (step noCache) init (createsSuper 0 "alice" "u1" ++
    (createsSuper 1 "bob12" "u2" ++ begins 2 "u1" ++ begins 3 "u2" ++ disables 2 ++ disables 3))
    (fun s => ¬ HasSuper s.store.users) (by decide +kernel)
  rw [run_append, h1, Option.bind_some] at h2
  exact hnone (hall _ _ s1 s2 h1 hsuper h2)

end HomeLlmGateway.Storage.LastAdmin
