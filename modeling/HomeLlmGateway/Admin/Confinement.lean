import HomeLlmGateway.Lib.Changes
import HomeLlmGateway.Admin.Upkeep

/-! # What a call may touch

A principal that is not a super admin has certain keys and users of its own (`OwnKey`, `OwnUser`). The calls
that it can get the store to make (`Lawful`) change nothing else, in memory or in the tables, and each of
their steps leaves them so (`lawful_step`). -/

namespace HomeLlmGateway.Admin.Confinement

open HomeLlmGateway.Lib.Assoc HomeLlmGateway.Lib.Changes
open HomeLlmGateway.Access.Rbac
open HomeLlmGateway.Storage HomeLlmGateway.Storage.Users
open HomeLlmGateway.Storage.Cache (KeyRecord)
open HomeLlmGateway.Storage.Keys (Config DisablePc CreatePc DeletePc)
open HomeLlmGateway.Storage.Accounts (Store Call Answer CreateUserPc UpdateUserPc DeleteUserPc creating
  possible)
open HomeLlmGateway.Storage.UserSync (Move snapshot target sweep)
open HomeLlmGateway.Storage.KeyRows (SameKey Within SweepMove KeyMove)

/-! ### What is the principal's -/

/-- A key of the tenant; for a user, one of its own. -/
def OwnKey (p : Principal) (r : KeyRecord) : Prop :=
  p.tenantId = some r.tenantId ∧ (p.role = .user → r.ownerUserId = p.userId)

/-- A plain user of the tenant, for a tenant admin. -/
def OwnUser (p : Principal) (r : UserRecord) : Prop :=
  p.role = .tenantAdmin ∧ r.role = .user ∧ r.tenantId = p.tenantId

/-- Users and keys change only where they are the principal's. -/
structure Touches (p : Principal) (st st' : Store) : Prop where
  users : ChangesWithin (OwnUser p) st.users st'.users
  userRows : ChangesWithin (OwnUser p) st.userRows st'.userRows
  keys : ChangesWithin (OwnKey p) st.keys.runtime st'.keys.runtime
  keyRows : ChangesWithin (OwnKey p) st.keyRows st'.keyRows

/-- The keys with these ids are the principal's. -/
structure Covers (p : Principal) (X : Set String) (st : Store) : Prop where
  mem : ∀ k r, st.keys.runtime.lookup k = some r → r.id ∈ X → OwnKey p r
  row : ∀ k r, st.keyRows.lookup k = some r → r.id ∈ X → OwnKey p r

/-- The user and its keys are the principal's. -/
structure UserScope (p : Principal) (X : Set String) (st : Store) (u : String) : Prop where
  user : ∀ r, st.users.lookup u = some r → OwnUser p r
  row : ∀ r, st.userRows.lookup u = some r → OwnUser p r
  keys : ∀ k r, st.keys.runtime.lookup k = some r → r.ownerUserId = some u → OwnKey p r ∧ r.id ∈ X

/-- A call that the principal can get the store to make, wherever it stands. -/
inductive Lawful (p : Principal) (X : Set String) (st : Store) : Call → Prop
  | createUser (username password : String) (createdBy : Option String) (pc : CreateUserPc)
      (hrole : p.role = .tenantAdmin)
      (hrecord : ∀ r, target (.createUser username password .user p.tenantId createdBy pc) = some r →
        OwnUser p r ∧ ∀ q, st.users.lookup r.id = some q → OwnUser p q) :
      Lawful p X st (.createUser username password .user p.tenantId createdBy pc)
  | updateUser (id : String) (patch : UserPatch) (pc : UpdateUserPc) (h : UserScope p X st id)
      (hrole : patch.role = none) (htenant : patch.tenantId = none)
      (hread : ∀ r, snapshot (.updateUser id patch pc) = some r → OwnUser p r)
      (hwritten : ∀ r, target (.updateUser id patch pc) = some r → OwnUser p r)
      (hids : ∀ ids, sweep (.updateUser id patch pc) = .amid (.updatingRows ids) → ∀ x ∈ ids, x ∈ X) :
      Lawful p X st (.updateUser id patch pc)
  | deleteUser (id : String) (pc : DeleteUserPc) (h : UserScope p X st id)
      (hids : ∀ ids, sweep (.deleteUser id pc) = .amid (.updatingRows ids) → ∀ x ∈ ids, x ∈ X) :
      Lawful p X st (.deleteUser id pc)
  | createKey (tenantId : String) (owner : Option String) (name : String) (pc : CreatePc)
      (htenant : p.tenantId = some tenantId) (howner : p.role = .user → owner = p.userId)
      (hrecord : ∀ r, creating (.key (.createIn tenantId owner name pc)) = some r →
        OwnKey p r ∧ ∀ q, st.keys.runtime.lookup r.lookup = some q → OwnKey p q) :
      Lawful p X st (.key (.createIn tenantId owner name pc))
  | deleteKey (id : String) (pc : DeletePc) (h : id ∈ X) : Lawful p X st (.key (.delete id pc))

section calls

variable {cfg : Config} {p : Principal} {X : Set String} {st st' st'' : Store} {s : Accounts.State}
  {a : Answer}
  {u : String}

theorem Touches.refl (p : Principal) (st : Store) : Touches p st st :=
  ⟨.refl _ _, .refl _ _, .refl _ _, .refl _ _⟩

theorem Touches.trans (h : Touches p st st') (h' : Touches p st' st'') : Touches p st st'' :=
  ⟨h.users.trans h'.users, h.userRows.trans h'.userRows, h.keys.trans h'.keys, h.keyRows.trans h'.keyRows⟩

theorem OwnKey.of_same {r q : KeyRecord} (h : OwnKey p r) (hs : SameKey r q) : OwnKey p q := by
  refine ⟨h.1.trans (congrArg some hs.2.2), fun hp => ?_⟩
  rw [← hs.2.1]
  exact h.2 hp

theorem Covers.touch (h : Covers p X st) (ht : Touches p st st') : Covers p X st' :=
  ⟨fun k => ht.keys.forall (fun _ hv _ => hv) (h.mem k),
    fun k => ht.keyRows.forall (fun _ hv _ => hv) (h.row k)⟩

theorem UserScope.touch (h : UserScope p X st u) (ht : Touches p st st')
    (hw : Within st'.keys.runtime st.keys.runtime) : UserScope p X st' u := by
  refine ⟨ht.users.forall (fun _ hv => hv) h.user, ht.userRows.forall (fun _ hv => hv) h.row,
    fun k r hr ho => ?_⟩
  obtain ⟨q, hq, hs, -⟩ := hw k r hr
  obtain ⟨hown, hid⟩ := h.keys k q hq (hs.2.1.trans ho)
  exact ⟨hown.of_same hs, hs.1 ▸ hid⟩

/-! ### Disabling the keys of a user -/

theorem touches_sweep {pc pc' : DisablePc} (hX : Covers p X st) (h : UserScope p X st u)
    (hids : ∀ ids, pc = .updatingRows ids → ∀ x ∈ ids, x ∈ X) (hm : SweepMove st u pc st' pc') :
    Touches p st st' ∧ UserScope p X st' u ∧ ∀ ids, pc' = .updatingRows ids → ∀ x ∈ ids, x ∈ X := by
  have hw := (KeyRows.sweepMove_within hm).2.1
  cases hm with
  | collect =>
    -- the rows are found by these ids alone later on
    refine ⟨.refl _ _, h, fun ids hpc x hx => ?_⟩
    cases hpc
    obtain ⟨r, hr, rfl⟩ := List.mem_map.mp hx
    obtain ⟨hr, hown⟩ := List.mem_filter.mp hr
    obtain ⟨k, hk⟩ := (mem_values _ _).mp hr
    simp only [Keys.ownedBy, Bool.and_eq_true, decide_eq_true_eq] at hown
    exact (h.keys k r hk hown.1).2
  | idle => exact ⟨.refl _ _, h, by simp⟩
  | fail => exact ⟨.refl _ _, h, by simp⟩
  | rows ids =>
    have ht : Touches p st { st with keyRows := KeyRows.disableRows ids st.keyRows } := by
      refine ⟨.refl _ _, .refl _ _, .refl _ _, changesWithin_mapVal fun k r hr => ?_⟩
      split_ifs with hid
      · have hown := hX.row k r hr (hids ids rfl r.id hid)
        exact Or.inr ⟨hown, hown⟩
      · exact Or.inl rfl
    exact ⟨ht, h.touch ht hw, by simp⟩
  | mark ids =>
    have ht : Touches p st { st with keys := { st.keys with
        runtime := KeyRows.markOwned u st.keys.runtime } } := by
      refine ⟨.refl _ _, .refl _ _, changesWithin_mapVal fun k r hr => ?_, .refl _ _⟩
      split_ifs with hown
      · have hown := (h.keys k r hr (by simpa [Keys.ownedBy] using hown)).1
        exact Or.inr ⟨hown, hown⟩
      · exact Or.inl rfl
    exact ⟨ht, h.touch ht hw, by simp⟩
  | rest _ _ keys hrun hpc hpc' =>
    have ht : Touches p st { st with keys := keys } :=
      ⟨.refl _ _, .refl _ _, by rw [hrun]; exact .refl _ _, .refl _ _⟩
    refine ⟨ht, h.touch ht hw, fun ids hpc => ?_⟩
    subst hpc
    cases hpc'

/-! ### One step of each call -/

theorem lawful_createUser {username password : String} {role : UserRole} {tenantId createdBy : Option String}
    {pc pc' : CreateUserPc} (h : Lawful p X s.store (.createUser username password role tenantId createdBy pc))
    (hposs : possible cfg s (.createUser username password role tenantId createdBy pc) a = true)
    (hstep : Accounts.createUserStep s.store a username password role tenantId createdBy pc = some (st', pc')) :
    Touches p s.store st' ∧ Lawful p X st' (.createUser username password role tenantId createdBy pc') := by
  cases h with
  | createUser _ _ _ _ hrole hrecord =>
  have hidle : ∀ pc, target (.createUser username password .user p.tenantId createdBy pc) = none →
      Lawful p X s.store (.createUser username password .user p.tenantId createdBy pc) :=
    fun pc hpc => .createUser _ _ _ _ hrole (by simp [hpc])
  -- a `Move` forgets the role and the tenant of the new user, so the step itself is taken apart
  cases pc with
  | start =>
    simp only [Accounts.createUserStep] at hstep
    split at hstep <;> cases hstep
    refine ⟨.refl _ _, hidle _ ?_⟩
    unfold CreateUserPc.after
    split <;> rfl
  | checking name =>
    simp only [Accounts.createUserStep] at hstep
    split_ifs at hstep <;> cases hstep <;> exact ⟨.refl _ _, hidle _ rfl⟩
  | inserting name =>
    simp only [Accounts.createUserStep] at hstep
    split at hstep
    · next id hash now =>
      obtain ⟨hmem, hrow, -⟩ := UserSync.newUser_of_fresh hposs
      split_ifs at hstep <;> cases hstep
      · exact ⟨.refl _ _, hidle _ rfl⟩
      · have hnew : OwnUser p ⟨id, p.tenantId, name, hash, .user, true, now, now, 0, createdBy⟩ :=
          ⟨hrole, rfl, rfl⟩
        refine ⟨⟨.refl _ _, changesWithin_insert (by simp [hrow]) hnew, .refl _ _, .refl _ _⟩,
          .createUser _ _ _ _ hrole fun r hr => ?_⟩
        cases hr
        exact ⟨hnew, fun q hq => absurd (hmem.symm.trans hq) (by simp)⟩
    · cases hstep
      exact ⟨.refl _ _, hidle _ rfl⟩
    · cases hstep
  | indexing r =>
    cases hstep
    exact ⟨⟨.refl _ _, .refl _ _, .refl _ _, .refl _ _⟩, .createUser _ _ _ _ hrole hrecord⟩
  | publishing r =>
    cases hstep
    obtain ⟨hown, hold⟩ := hrecord r rfl
    refine ⟨⟨changesWithin_insert hold hown, .refl _ _, .refl _ _, .refl _ _⟩, .createUser _ _ _ _ hrole ?_⟩
    simp [target]
  | done r => cases hstep

theorem own_updatedRecord {current : UserRecord} {patch : UserPatch} (h : OwnUser p current)
    (hrole : patch.role = none) (htenant : patch.tenantId = none) (name hash : String) (now : ℕ) :
    OwnUser p (Accounts.updatedRecord current patch name hash now) := by
  simp only [OwnUser, Accounts.updatedRecord, Accounts.UserPatch.newRole, Accounts.UserPatch.newTenant, hrole,
    htenant, Option.getD_none]
  exact h

theorem lawful_updateUser {id : String} {patch : UserPatch} {pc pc' : UpdateUserPc} (hX : Covers p X s.store)
    (h : Lawful p X s.store (.updateUser id patch pc))
    (hm : Move cfg s a (.updateUser id patch pc) st' (.updateUser id patch pc')) :
    Touches p s.store st' ∧ Lawful p X st' (.updateUser id patch pc') := by
  cases h with
  | updateUser _ _ _ hscope hrole htenant hread hwritten hids =>
  cases hm with
  | wait _ _ hheld hb hb' _ _ _ hsweep hs =>
    refine ⟨.refl _ _, .updateUser _ _ _ hscope hrole htenant (fun r hr => ?_) ?_ ?_⟩
    · rcases hs r hr with hr | ⟨-, u, hu, hr⟩
      · exact hread r hr
      · cases UserSync.names_of_held hu
        exact hscope.user r hr
    · simp [KeyTenants.target_of_before hb']
    · rcases hsweep with hsweep | hsweep <;> simp [hsweep]
  | leave _ _ hheld hb hb' =>
    cases pc' with
    | done r => exact ⟨.refl _ _, .updateUser _ _ _ hscope hrole htenant (by simp [snapshot]) (by simp [target])
        (by simp [sweep])⟩
    | start | checking | updatingRow | reindexing | publishing | sweeping => cases hheld
  | updateRow _ _ current name hash now hfree =>
    have hnew := own_updatedRecord (hread current rfl) hrole htenant name hash now
    have ht : Touches p s.store (s.store.write (.changeRow id (Accounts.updateColumns
        (Accounts.updatedRecord current patch name hash now)))) :=
      ⟨.refl _ _, changesWithin_modify fun r hr => ⟨hscope.row r hr, hnew⟩, .refl _ _, .refl _ _⟩
    refine ⟨ht, .updateUser _ _ _ (hscope.touch ht (.refl _)) hrole htenant hread (fun r hr => ?_)
      (by simp [sweep])⟩
    cases hr
    exact hnew
  | reindex _ _ current r =>
    have ht : Touches p s.store (s.store.write (.reindex r.username id)) :=
      ⟨.refl _ _, .refl _ _, .refl _ _, .refl _ _⟩
    exact ⟨ht, .updateUser _ _ _ (hscope.touch ht (.refl _)) hrole htenant hread hwritten (by simp [sweep])⟩
  | publish _ _ current r _ hpc =>
    have ht : Touches p s.store (s.store.write (.publish id r)) :=
      ⟨changesWithin_insert hscope.user (hwritten r rfl), .refl _ _, .refl _ _, .refl _ _⟩
    refine ⟨ht, ?_⟩
    rw [hpc]
    split_ifs
    · exact .updateUser _ _ _ (hscope.touch ht (.refl _)) hrole htenant (by simp [snapshot]) (by simp [target])
        (by simp [sweep])
    · exact .updateUser _ _ _ (hscope.touch ht (.refl _)) hrole htenant (by simp [snapshot]) hwritten
        (by simp [sweep])
  | sweepUpdate _ _ r b hb pc pc' st1 hsw q hq =>
    obtain ⟨ht, hscope', hids'⟩ := touches_sweep hX hscope (fun ids hpc => hids ids (congrArg _ hpc))
      (KeyRows.sweepMove_of_sweepStep hsw)
    refine ⟨ht, ?_⟩
    rw [hq]
    split_ifs
    · exact .updateUser _ _ _ hscope' hrole htenant (by simp [snapshot]) (by simp [target]) (by simp [sweep])
    · refine .updateUser _ _ _ hscope' hrole htenant (by simp [snapshot]) hwritten fun ids hpc => ?_
      exact hids' ids (by simpa [sweep] using hpc)

theorem lawful_deleteUser {id : String} {pc pc' : DeleteUserPc} (hX : Covers p X s.store)
    (h : Lawful p X s.store (.deleteUser id pc))
    (hm : Move cfg s a (.deleteUser id pc) st' (.deleteUser id pc')) :
    Touches p s.store st' ∧ Lawful p X st' (.deleteUser id pc') := by
  cases h with
  | deleteUser _ _ hscope hids =>
  cases hm with
  | wait _ _ hheld hb hb' _ _ _ hsweep hs =>
    refine ⟨.refl _ _, .deleteUser _ _ hscope ?_⟩
    rcases hsweep with hsweep | hsweep <;> simp [hsweep]
  | leave _ _ hheld hb hb' =>
    cases pc' with
    | done r => exact ⟨.refl _ _, .deleteUser _ _ hscope (by simp [sweep])⟩
    | start | checking | sweeping | deletingRow | unindexing | removing => cases hheld
  | sweepDelete _ b hb pc pc' st1 hsw q hq =>
    obtain ⟨ht, hscope', hids'⟩ := touches_sweep hX hscope (fun ids hpc => hids ids (congrArg _ hpc))
      (KeyRows.sweepMove_of_sweepStep hsw)
    refine ⟨ht, ?_⟩
    rw [hq]
    split_ifs
    · exact .deleteUser _ _ hscope' (by simp [sweep])
    · exact .deleteUser _ _ hscope' fun ids hpc => hids' ids (by simpa [sweep] using hpc)
  | deleteRow =>
    have ht : Touches p s.store (s.store.write (.deleteRow id)) :=
      ⟨.refl _ _, changesWithin_erase hscope.row, .refl _ _, .refl _ _⟩
    exact ⟨ht, .deleteUser _ _ (hscope.touch ht (.refl _)) (by simp [sweep])⟩
  | unindex =>
    have ht : Touches p s.store (s.store.write (.unindex id)) := ⟨.refl _ _, .refl _ _, .refl _ _, .refl _ _⟩
    exact ⟨ht, .deleteUser _ _ (hscope.touch ht (.refl _)) (by simp [sweep])⟩
  | remove =>
    have ht : Touches p s.store (s.store.write (.remove id)) :=
      ⟨changesWithin_erase hscope.user, .refl _ _, .refl _ _, .refl _ _⟩
    exact ⟨ht, .deleteUser _ _ (hscope.touch ht (.refl _)) (by simp [sweep])⟩

theorem touches_dropKeys {id : String} (hX : Covers p X st) (h : id ∈ X) :
    ChangesWithin (OwnKey p) st.keys.runtime (KeyRows.dropId id st.keys.runtime) ∧
      ChangesWithin (OwnKey p) st.keyRows (KeyRows.dropId id st.keyRows) := by
  refine ⟨changesWithin_retain fun k r hr hid => hX.mem k r hr ?_,
    changesWithin_retain fun k r hr hid => hX.row k r hr ?_⟩
  · simp only [ne_eq, decide_not, Bool.not_eq_false', decide_eq_true_eq] at hid
    exact hid ▸ h
  · simp only [ne_eq, decide_not, Bool.not_eq_false', decide_eq_true_eq] at hid
    exact hid ▸ h

theorem lawful_deleteKey {id : String} {pc pc' : DeletePc} (hX : Covers p X s.store)
    (h : Lawful p X s.store (.key (.delete id pc)))
    (hm : KeyMove cfg s (.delete id pc) st' (.delete id pc')) :
    Touches p s.store st' ∧ Lawful p X st' (.key (.delete id pc')) := by
  cases h with
  | deleteKey _ _ hid =>
  refine ⟨?_, .deleteKey _ _ hid⟩
  cases hm with
  | quiet _ _ keys hrun => exact ⟨.refl _ _, .refl _ _, by rw [hrun]; exact .refl _ _, .refl _ _⟩
  | deleteRow => exact ⟨.refl _ _, .refl _ _, .refl _ _, (touches_dropKeys hX hid).2⟩
  | retain => exact ⟨.refl _ _, .refl _ _, (touches_dropKeys hX hid).1, .refl _ _⟩

theorem lawful_createKey {tenantId name : String} {owner : Option String} {pc pc' : CreatePc}
    (h : Lawful p X s.store (.key (.createIn tenantId owner name pc)))
    (hm : KeyMove cfg s (.createIn tenantId owner name pc) st' (.createIn tenantId owner name pc')) :
    Touches p s.store st' ∧ Lawful p X st' (.key (.createIn tenantId owner name pc')) := by
  cases h with
  | createKey _ _ _ _ htenant howner hrecord =>
  cases hm with
  | quiet _ _ keys hrun hheld hc hc' =>
    exact ⟨⟨.refl _ _, .refl _ _, by rw [hrun]; exact .refl _ _, .refl _ _⟩,
      .createKey _ _ _ _ htenant howner (by simp [hc'])⟩
  | check => exact ⟨.refl _ _, .createKey _ _ _ _ htenant howner (by simp [creating])⟩
  | retry => exact ⟨.refl _ _, .createKey _ _ _ _ htenant howner (by simp [creating])⟩
  | insert _ _ _ n r plaintext hfresh ht ho he =>
    obtain ⟨hrun, hrow, -⟩ := KeyRows.newKey_of_fresh hfresh
    have hown : OwnKey p r := by
      refine ⟨ht ▸ htenant, fun hp => ho.trans (howner hp)⟩
    refine ⟨⟨.refl _ _, .refl _ _, .refl _ _, changesWithin_insert (by simp [hrow]) hown⟩,
      .createKey _ _ _ _ htenant howner fun q hq => ?_⟩
    cases hq
    exact ⟨hown, fun q hq => absurd (hrun.symm.trans hq) (by simp)⟩
  | bump _ _ _ r plaintext keys hrun v =>
    obtain ⟨hown, hold⟩ := hrecord r rfl
    refine ⟨⟨.refl _ _, .refl _ _, by rw [hrun]; exact .refl _ _, .refl _ _⟩,
      .createKey _ _ _ _ htenant howner fun q hq => ?_⟩
    cases hq
    refine ⟨hown, fun q hq => hold q ?_⟩
    rw [← hrun]
    exact hq
  | publish _ _ _ r plaintext =>
    obtain ⟨hown, hold⟩ := hrecord r rfl
    exact ⟨⟨.refl _ _, .refl _ _, changesWithin_insert hold hown, .refl _ _⟩,
      .createKey _ _ _ _ htenant howner (by simp [creating])⟩

/-- **One step of a call** that the principal may make: it changes what is the principal's only, and goes on
to such a call. -/
theorem lawful_step {c c' : Call} (hX : Covers p X s.store) (h : Lawful p X s.store c)
    (hposs : possible cfg s c a = true) (hstep : Accounts.callStep cfg s.store a c = some (st', c')) :
    Touches p s.store st' ∧ Lawful p X st' c' := by
  have hmove := UserSync.move_of_callStep hposs hstep
  have hlaw := h
  cases h with
  | createUser username password createdBy pc =>
    obtain ⟨⟨st1, pc'⟩, h1, he⟩ := Option.map_eq_some_iff.mp hstep
    cases he
    exact lawful_createUser hlaw hposs h1
  | updateUser id patch pc =>
    obtain ⟨⟨st1, pc'⟩, h1, he⟩ := Option.map_eq_some_iff.mp hstep
    cases he
    exact lawful_updateUser hX hlaw hmove
  | deleteUser id pc =>
    obtain ⟨⟨st1, pc'⟩, h1, he⟩ := Option.map_eq_some_iff.mp hstep
    cases he
    exact lawful_deleteUser hX hlaw hmove
  | createKey tenantId owner name pc =>
    obtain ⟨b, keys, k', rfl, hkstep, hkm⟩ := KeyRows.keyStep_of_move hmove
    obtain ⟨⟨keys1, pc'⟩, h1, he⟩ := Option.map_eq_some_iff.mp hkstep
    cases he
    exact lawful_createKey hlaw hkm
  | deleteKey id pc =>
    obtain ⟨b, keys, k', rfl, hkstep, hkm⟩ := KeyRows.keyStep_of_move hmove
    obtain ⟨⟨keys1, pc'⟩, h1, he⟩ := Option.map_eq_some_iff.mp hkstep
    cases he
    exact lawful_deleteKey hX hlaw hkm

end calls

end HomeLlmGateway.Admin.Confinement
