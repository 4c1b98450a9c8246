import HomeLlmGateway.Storage.Revocation
import HomeLlmGateway.Storage.UserSync

/-! # Keys in memory and in the table

What the calls do to the keys in memory and to the `api_keys` table (`KeyMove`, `SweepMove`), and what holds
of the two whatever the calls do, statements that fail and restarts included (`KeyTables`): every row is in
memory too, with the same id, tenant and owner, or a call of `create_in` is about to put it there. -/

namespace HomeLlmGateway.Storage.KeyRows

open HomeLlmGateway.Lib.Assoc HomeLlmGateway.Lib.Holding
open HomeLlmGateway.Storage.Cache (KeyRecord)
open HomeLlmGateway.Storage.Keys (Config DisablePc CreatePc DeletePc rowsAfter ownedBy)
open HomeLlmGateway.Storage.Users HomeLlmGateway.Storage.Accounts HomeLlmGateway.Storage.UserSync

/-- The tenant of the key that a call of `create_in` makes, once it has checked the owner. -/
def minting : Call → Option String
  | .key (.createIn tenantId _ _ (.inserting _)) => some tenantId
  | .key (.createIn _ _ _ (.bumping r _)) | .key (.createIn _ _ _ (.publishing r _)) => some r.tenantId
  | _ => none

/-! ### What a sweep does -/

/-- The ids that `disable_keys_for_owner` collects. -/
def liveIds (runtime : HashMap String KeyRecord) (owner : String) : List String :=
  ((values runtime).filter fun r => ownedBy owner r && r.enabled).map (·.id)

theorem mem_liveIds {runtime : HashMap String KeyRecord} {owner k : String} {r : KeyRecord}
    (hr : runtime.lookup k = some r) (ho : r.ownerUserId = some owner) (he : r.enabled = true) :
    r.id ∈ liveIds runtime owner := by
  refine List.mem_map.mpr ⟨r, List.mem_filter.mpr ⟨(mem_values _ _).mpr ⟨k, hr⟩, ?_⟩, rfl⟩
  simp [ownedBy, ho, he]

/-- The rows after the transaction of `disable_keys_for_owner`. -/
def disableRows (ids : List String) (rows : HashMap String KeyRecord) : HashMap String KeyRecord :=
  mapVal (fun _ r => if r.id ∈ ids then { r with enabled := false } else r) rows

/-- The keys in memory after `disable_keys_for_owner` has marked them. -/
def markOwned (owner : String) (runtime : HashMap String KeyRecord) : HashMap String KeyRecord :=
  mapVal (fun _ r => if ownedBy owner r then { r with enabled := false } else r) runtime

/-- The keys without the one that `delete` removes. -/
def dropId (id : String) (keys : HashMap String KeyRecord) : HashMap String KeyRecord :=
  retain (fun _ r => r.id ≠ id) keys

/-- The keys are marked in memory, and what remains is the cache. -/
def swept : DisablePc → Bool
  | .bumping _ | .invalidating _ _ | .done _ => true
  | _ => false

/-- What a step of `disable_keys_for_owner` does. -/
inductive SweepMove (st : Store) (owner : String) : DisablePc → Store → DisablePc → Prop
  | collect : SweepMove st owner .start st (.updatingRows (liveIds st.keys.runtime owner))
  | idle (h : liveIds st.keys.runtime owner = []) : SweepMove st owner .start st (.done 0)
  | rows (ids : List String) :
      SweepMove st owner (.updatingRows ids) { st with keyRows := disableRows ids st.keyRows } (.marking ids)
  | fail (ids : List String) (e : String) : SweepMove st owner (.updatingRows ids) st (.failed e)
  | mark (ids : List String) :
      SweepMove st owner (.marking ids)
        { st with keys := { st.keys with runtime := markOwned owner st.keys.runtime } } (.bumping ids)
  | rest (pc pc' : DisablePc) (keys : Keys.Store) (hrun : keys.runtime = st.keys.runtime)
      (hpc : swept pc = true) (hpc' : swept pc' = true) : SweepMove st owner pc { st with keys := keys } pc'

theorem sweepMove_of_sweepStep {cfg : Config} {st st' : Store} {owner : String} {a : Keys.Answer}
    {pc pc' : DisablePc} (h : sweepStep cfg st owner a pc = some (st', pc')) :
    SweepMove st owner pc st' pc' := by
  obtain ⟨⟨keys, pc1⟩, h1, he⟩ := Option.map_eq_some_iff.mp h
  cases he
  cases pc with
  | start =>
    simp only [Keys.disableStep] at h1
    split_ifs at h1 with hids <;> cases h1
    · exact .idle hids
    · exact .collect
  | updatingRows ids =>
    simp only [Keys.disableStep] at h1
    split at h1
    · cases h1
      exact .rows ids
    · cases h1
      exact .fail ids _
    · cases h1
  | marking ids =>
    cases h1
    exact .mark ids
  | bumping ids =>
    cases h1
    exact .rest _ _ _ rfl rfl rfl
  | invalidating count ids =>
    cases ids with
    | nil =>
      cases h1
      exact .rest _ _ _ rfl rfl rfl
    | cons id ids =>
      cases h1
      exact .rest _ _ _ rfl rfl rfl
  | failed e => cases h1
  | done n => cases h1

/-! ### What a call on the key store does -/

/-- What a step of a call on the key store does. -/
inductive KeyMove (cfg : Config) (s : State) : Keys.Call → Store → Keys.Call → Prop
  /-- it leaves the keys alone, and holds no owner after it -/
  | quiet (c c' : Keys.Call) (keys : Keys.Store) (hrun : keys.runtime = s.store.keys.runtime)
      (hheld : held (.key c') = none) (hc : creating (.key c) = none) (hc' : creating (.key c') = none)
      (hret : ∀ id, c' ≠ .delete id .retaining) :
      KeyMove cfg s c { s.store with keys := keys } c'
  /-- `create_in` has found its tenant and its owner -/
  | check (tenantId : String) (owner : Option String) (name : String)
      (hown : ∀ u, owner = some u → (s.store.users.lookup u).map UserRecord.tenantId = some (some tenantId)) :
      KeyMove cfg s (.createIn tenantId owner name .start) s.store (.createIn tenantId owner name (.inserting 0))
  | retry (tenantId : String) (owner : Option String) (name : String) (n m : ℕ) :
      KeyMove cfg s (.createIn tenantId owner name (.inserting n)) s.store
        (.createIn tenantId owner name (.inserting m))
  | insert (tenantId : String) (owner : Option String) (name : String) (n : ℕ) (r : KeyRecord)
      (plaintext : String) (hfresh : freshKey s r.id r.lookup = true) (ht : r.tenantId = tenantId)
      (ho : r.ownerUserId = owner) (he : r.enabled = true) :
      KeyMove cfg s (.createIn tenantId owner name (.inserting n))
        { s.store with keyRows := s.store.keyRows.insert r.lookup { r with credVersion := 1 } }
        (.createIn tenantId owner name (.bumping r plaintext))
  | bump (tenantId : String) (owner : Option String) (name : String) (r : KeyRecord) (plaintext : String)
      (keys : Keys.Store) (hrun : keys.runtime = s.store.keys.runtime) (v : ℕ) :
      KeyMove cfg s (.createIn tenantId owner name (.bumping r plaintext)) { s.store with keys := keys }
        (.createIn tenantId owner name (.publishing { r with credVersion := v } plaintext))
  | publish (tenantId : String) (owner : Option String) (name : String) (r : KeyRecord) (plaintext : String) :
      KeyMove cfg s (.createIn tenantId owner name (.publishing r plaintext))
        { s.store with keys := { s.store.keys with runtime := s.store.keys.runtime.insert r.lookup r } }
        (.createIn tenantId owner name (.done r plaintext))
  | deleteRow (id : String) :
      KeyMove cfg s (.delete id .deletingRow) { s.store with keyRows := dropId id s.store.keyRows }
        (.delete id .retaining)
  | retain (id : String) (pc : DeletePc) (hpc : pc ≠ .retaining) :
      KeyMove cfg s (.delete id .retaining)
        { s.store with keys := { s.store.keys with runtime := dropId id s.store.keys.runtime } }
        (.delete id pc)
  | sweep (owner : String) (pc pc' : DisablePc) (st' : Store) (h : SweepMove s.store owner pc st' pc') :
      KeyMove cfg s (.disableKeysForOwner owner pc) st' (.disableKeysForOwner owner pc')

section moves

variable {cfg : Config} {s : State} {keys : Keys.Store} {a : Keys.Answer}

theorem userTenant_of_createCheck {tenantId u : String} {tenantEnabled : Option Bool}
    {userTenant : Option (Option String)}
    (h : Keys.createCheck tenantId (some u) tenantEnabled userTenant = .ok ()) :
    userTenant = some (some tenantId) := by
  cases tenantEnabled with
  | none => cases h
  | some b =>
    cases b with
    | false => cases h
    | true =>
      cases userTenant with
      | none => cases h
      | some tenant =>
        simp only [Keys.createCheck] at h
        split_ifs at h with ht
        rw [ht]

theorem keyMove_createIn {tenantId name : String} {owner : Option String} {pc pc' : CreatePc}
    (hposs : possible cfg s (.key (.createIn tenantId owner name pc)) (.key a) = true)
    (h : Keys.createStep cfg s.store.keys tenantId owner name a pc = some (keys, pc')) :
    KeyMove cfg s (.createIn tenantId owner name pc)
      { s.store with keys := keys, keyRows := rowsAfter cfg s.store.keyRows a (.createIn tenantId owner name pc) }
      (.createIn tenantId owner name pc') := by
  cases pc with
  | start =>
    simp only [Keys.createStep] at h
    split at h
    · next tenantEnabled userTenant =>
      split at h
      · next hok =>
        cases h
        refine .check tenantId owner name fun u hu => ?_
        subst hu
        have hread : userTenant = (s.store.users.lookup u).map UserRecord.tenantId := by
          simpa [possible] using hposs
        rw [← hread]
        exact userTenant_of_createCheck hok
      · cases h
        exact .quiet _ _ _ rfl rfl rfl rfl (by simp)
    · cases h
  | inserting n =>
    simp only [Keys.createStep] at h
    split at h
    · next id plaintext keyHash createdAt =>
      cases h
      exact .insert tenantId owner name n ⟨id, keyHash, cfg.lookupOf plaintext, name, createdAt, true, 0,
        tenantId, owner⟩ plaintext hposs rfl rfl rfl
    · split_ifs at h <;> cases h
      · exact .retry tenantId owner name n _
      · exact .quiet _ _ _ rfl rfl rfl rfl (by simp)
    · cases h
      exact .quiet _ _ _ rfl rfl rfl rfl (by simp)
    · cases h
  | bumping r plaintext =>
    cases h
    exact .bump tenantId owner name r plaintext
      { s.store.keys with generation := s.store.keys.generation + 1 } rfl (s.store.keys.generation + 1)
  | publishing r plaintext =>
    cases h
    exact .publish tenantId owner name r plaintext
  | failed e => cases h
  | done r plaintext => cases h

theorem keyMove_delete {id : String} {pc pc' : DeletePc}
    (h : Keys.deleteStep s.store.keys id a pc = some (keys, pc')) :
    KeyMove cfg s (.delete id pc)
      { s.store with keys := keys, keyRows := rowsAfter cfg s.store.keyRows a (.delete id pc) }
      (.delete id pc') := by
  cases pc with
  | start =>
    simp only [Keys.deleteStep] at h
    split_ifs at h <;> cases h
    · exact .quiet _ _ _ rfl rfl rfl rfl (by simp)
    · exact .quiet _ _ _ rfl rfl rfl rfl (by simp)
  | deletingRow =>
    simp only [Keys.deleteStep] at h
    split at h
    · cases h
      exact .deleteRow id
    · cases h
      exact .quiet _ _ _ rfl rfl rfl rfl (by simp)
    · cases h
  | retaining =>
    simp only [Keys.deleteStep] at h
    split_ifs at h <;> cases h
    · exact .retain id _ (by simp)
    · exact .retain id _ (by simp)
  | invalidating =>
    cases h
    exact .quiet _ _ _ rfl rfl rfl rfl (by simp)
  | bumping =>
    cases h
    exact .quiet _ _ _ rfl rfl rfl rfl (by simp)
  | failed e => cases h
  | done b => cases h

/-- **One step of a call on the key store.** -/
theorem keyMove_of_callStep {c c' : Keys.Call} (hposs : possible cfg s (.key c) (.key a) = true)
    (h : Keys.callStep cfg s.store.keys a c = some (keys, c')) :
    KeyMove cfg s c { s.store with keys := keys, keyRows := rowsAfter cfg s.store.keyRows a c } c' := by
  cases c with
  | authorizeRecord token pc =>
    obtain ⟨⟨keys1, pc1⟩, h1, he⟩ := Option.map_eq_some_iff.mp h
    cases he
    exact .quiet _ _ _ (Versions.authorizeStep_spec h1).runtime rfl rfl rfl (by simp)
  | createIn tenantId owner name pc =>
    obtain ⟨⟨keys1, pc1⟩, h1, he⟩ := Option.map_eq_some_iff.mp h
    cases he
    exact keyMove_createIn hposs h1
  | delete id pc =>
    obtain ⟨⟨keys1, pc1⟩, h1, he⟩ := Option.map_eq_some_iff.mp h
    cases he
    exact keyMove_delete h1
  | disableKeysForOwner owner pc =>
    obtain ⟨⟨keys1, pc1⟩, h1, he⟩ := Option.map_eq_some_iff.mp h
    cases he
    have hsweep := congrArg (Option.map fun p => (({ s.store with
      keys := p.1
      keyRows := rowsAfter cfg s.store.keyRows a (.disableKeysForOwner owner pc) } : Store), p.2)) h1
    exact .sweep owner pc pc1 _ (sweepMove_of_sweepStep (a := a) hsweep)

/-- What a step of any call does to the keys: nothing, a step of a sweep, or what a call on the key store
does. -/
theorem keys_of_move {b : Answer} {c c' : Call} {st' : Store} (hm : Move cfg s b c st' c') :
    (keyCall c = none ∧ keyCall c' = none ∧ st'.keys = s.store.keys ∧ st'.keyRows = s.store.keyRows) ∨
    (keyCall c = none ∧ keyCall c' = none ∧ ∃ u pc pc', held c = some u ∧ sweep c = .amid pc ∧
      SweepMove s.store u pc st' pc') ∨
    ∃ k k', c = .key k ∧ c' = .key k' ∧ KeyMove cfg s k st' k' := by
  cases hm with
  | wait _ _ _ _ _ hk hk' => exact Or.inl ⟨hk, hk', rfl, rfl⟩
  | leave _ _ _ _ _ hk hk' => exact Or.inl ⟨hk, hk', rfl, rfl⟩
  | sweepUpdate id patch r b hb pc pc' st' h q hq =>
    exact Or.inr (Or.inl ⟨rfl, rfl, id, pc, pc', rfl, rfl, sweepMove_of_sweepStep h⟩)
  | sweepDelete id b hb pc pc' st' h q hq =>
    exact Or.inr (Or.inl ⟨rfl, rfl, id, pc, pc', rfl, rfl, sweepMove_of_sweepStep h⟩)
  | key b hb k k' keys hposs h => exact Or.inr (Or.inr ⟨k, k', rfl, rfl, keyMove_of_callStep hposs h⟩)
  | insertRow | index | created | updateRow | reindex | publish | deleteRow | unindex | remove
  | passwordRow | password | loginRow | login => exact Or.inl ⟨rfl, rfl, rfl, rfl⟩

theorem keyStep_of_move {b : Answer} {k : Keys.Call} {c' : Call} {st' : Store} (hm : Move cfg s b (.key k) st' c') :
    ∃ a keys k', c' = .key k' ∧ Keys.callStep cfg s.store.keys a k = some (keys, k') ∧ KeyMove cfg s k st' k' := by
  cases hm with
  | wait _ _ _ _ _ hk => cases hk
  | leave _ _ _ _ _ hk => cases hk
  | key a ha k k' keys hposs h => exact ⟨a, keys, k', rfl, h, keyMove_of_callStep hposs h⟩

end moves

/-! ### The two tables -/

/-- The two records are of one key. -/
def SameKey (r q : KeyRecord) : Prop :=
  r.id = q.id ∧ r.ownerUserId = q.ownerUserId ∧ r.tenantId = q.tenantId

theorem SameKey.refl (r : KeyRecord) : SameKey r r := ⟨rfl, rfl, rfl⟩

theorem SameKey.trans {r q p : KeyRecord} (h : SameKey r q) (h' : SameKey q p) : SameKey r p :=
  ⟨h.1.trans h'.1, h.2.1.trans h'.2.1, h.2.2.trans h'.2.2⟩

theorem SameKey.symm {r q : KeyRecord} (h : SameKey r q) : SameKey q r := ⟨h.1.symm, h.2.1.symm, h.2.2.symm⟩

/-- A table whose keys all were in another one. -/
def Within (m m' : HashMap String KeyRecord) : Prop :=
  ∀ k r, m.lookup k = some r →
    ∃ r0, m'.lookup k = some r0 ∧ SameKey r0 r ∧ (r.enabled = true → r0.enabled = true)

theorem Within.refl (m : HashMap String KeyRecord) : Within m m := fun _ r hr => ⟨r, hr, .refl r, id⟩

theorem within_disableRows (ids : List String) (rows : HashMap String KeyRecord) :
    Within (disableRows ids rows) rows := by
  intro k r hr
  rw [disableRows, lookup_mapVal] at hr
  obtain ⟨r0, hr0, rfl⟩ := Option.map_eq_some_iff.mp hr
  refine ⟨r0, hr0, ?_, ?_⟩
  · split_ifs <;> exact ⟨rfl, rfl, rfl⟩
  · split_ifs
    · intro he
      cases he
    · exact id

theorem within_markOwned (owner : String) (runtime : HashMap String KeyRecord) :
    Within (markOwned owner runtime) runtime := by
  intro k r hr
  rw [markOwned, lookup_mapVal] at hr
  obtain ⟨r0, hr0, rfl⟩ := Option.map_eq_some_iff.mp hr
  refine ⟨r0, hr0, ?_, ?_⟩
  · split_ifs <;> exact ⟨rfl, rfl, rfl⟩
  · split_ifs
    · intro he
      cases he
    · exact id

theorem lookup_dropId {id : String} {m : HashMap String KeyRecord} {k : String} {r : KeyRecord} :
    (dropId id m).lookup k = some r ↔ m.lookup k = some r ∧ r.id ≠ id := by
  rw [dropId, lookup_retain, Option.filter_eq_some_iff]
  simp

theorem within_dropId (id : String) (m : HashMap String KeyRecord) : Within (dropId id m) m :=
  fun _ r hr => ⟨r, (lookup_dropId.mp hr).1, .refl r, fun he => he⟩

/-- The same for the keys of one user. -/
def OwnWithin (m m' : HashMap String KeyRecord) (u : String) : Prop :=
  ∀ k r, m.lookup k = some r → r.ownerUserId = some u →
    ∃ r0, m'.lookup k = some r0 ∧ SameKey r0 r ∧ (r.enabled = true → r0.enabled = true)

theorem OwnWithin.refl (m : HashMap String KeyRecord) (u : String) : OwnWithin m m u :=
  fun _ r hr _ => ⟨r, hr, .refl r, id⟩

theorem Within.own {m m' : HashMap String KeyRecord} (h : Within m m') (u : String) : OwnWithin m m' u :=
  fun k r hr _ => h k r hr

theorem ownWithin_insert {m : HashMap String KeyRecord} {k u : String} {r : KeyRecord}
    (h : r.ownerUserId ≠ some u) : OwnWithin (m.insert k r) m u := by
  intro k' q hq ho
  rw [lookup_insert] at hq
  split_ifs at hq
  · cases hq
    exact absurd ho h
  · exact ⟨q, hq, .refl q, id⟩

structure KeyTables (s : State) : Prop where
  /-- a row is in memory too, or will be -/
  known : ∀ k row, s.store.keyRows.lookup k = some row →
    (∃ r, s.store.keys.runtime.lookup k = some r ∧ SameKey r row) ∨
      ∃ i c r, s.calls.lookup i = some c ∧ creating c = some r ∧ r.lookup = k ∧ SameKey r row
  reserved : ∀ i c r, s.calls.lookup i = some c → creating c = some r →
    s.store.keys.runtime.lookup r.lookup = none
  distinct : ∀ i j c d r q, s.calls.lookup i = some c → s.calls.lookup j = some d → creating c = some r →
    creating d = some q → r.lookup = q.lookup → i = j
  deleted : ∀ i id, s.calls.lookup i = some (.key (.delete id .retaining)) →
    ∀ k row, s.store.keyRows.lookup k = some row → row.id ≠ id
  /-- the call holds the owner of the key it makes -/
  owned : ∀ i c r, s.calls.lookup i = some c → creating c = some r →
    held c = r.ownerUserId ∧ r.enabled = true

section tables

variable {cfg : Config} {s s' : State} {st' : Store} {i : ℕ} {b : Answer} {c c' : Call}

theorem keyTables_call (h : KeyTables s) (log : List Change) (hi : s.calls.lookup i = some c)
    (hrows : ∀ k row, st'.keyRows.lookup k = some row →
      (∃ row0, s.store.keyRows.lookup k = some row0 ∧ SameKey row0 row) ∨
      ∃ r, creating c' = some r ∧ r.lookup = k ∧ SameKey r row ∧
        ∀ j d, s.calls.lookup j = some d → deleting d ≠ some row.id)
    (hmem : ∀ k row r, st'.keyRows.lookup k = some row → s.store.keys.runtime.lookup k = some r →
      SameKey r row → ∃ r', st'.keys.runtime.lookup k = some r' ∧ SameKey r' row)
    (hdone : ∀ r, creating c = some r →
      (∃ r', creating c' = some r' ∧ r'.lookup = r.lookup ∧ SameKey r' r) ∨
        ∃ r', st'.keys.runtime.lookup r.lookup = some r' ∧ SameKey r' r)
    (hnew : ∀ r', creating c' = some r' → (∃ r, creating c = some r ∧ r.lookup = r'.lookup) ∨
      (s.store.keys.runtime.lookup r'.lookup = none ∧
        ∀ j d q, s.calls.lookup j = some d → creating d = some q → q.lookup ≠ r'.lookup))
    (hfree : ∀ k, s.store.keys.runtime.lookup k = none →
      (∀ r, creating c = some r → r.lookup = k → (creating c').isSome) → st'.keys.runtime.lookup k = none)
    (hret : ∀ id, c' = .key (.delete id .retaining) → ∀ k row, st'.keyRows.lookup k = some row → row.id ≠ id)
    (hown : ∀ r, creating c' = some r → held c' = r.ownerUserId ∧ r.enabled = true) :
    KeyTables ⟨st', s.calls.insert i c', log⟩ := by
  have hlook : ∀ j, (s.calls.insert i c').lookup j = if j = i then some c' else s.calls.lookup j :=
    fun j => lookup_insert _ _ _ _
  have hself : (s.calls.insert i c').lookup i = some c' := (hlook i).trans (if_pos rfl)
  have hother : ∀ j d, j ≠ i → (s.calls.insert i c').lookup j = some d → s.calls.lookup j = some d :=
    fun j d hj hd => by rw [hlook, if_neg hj] at hd; exact hd
  -- what the call at `i` is about to publish has a lookup that no other call is about to publish
  have hapart : ∀ j d q r', j ≠ i → s.calls.lookup j = some d → creating d = some q →
      creating c' = some r' → q.lookup ≠ r'.lookup := by
    intro j d q r' hj hd hq hr' he
    rcases hnew r' hr' with ⟨r, hr, hl⟩ | ⟨-, hall⟩
    · exact hj (h.distinct j i d c q r hd hi hq hr (he.trans hl.symm))
    · exact hall j d q hd hq he
  refine ⟨fun k row hk => ?_, fun j d r hj hd => ?_, fun j j' d d' r q hj hj' hd hd' he => ?_,
    fun j id hj k row hk => ?_, fun j d r hj hd => ?_⟩
  · rcases hrows k row hk with ⟨row0, hk0, hsame⟩ | ⟨r, hr, hl, hsame, -⟩
    · rcases h.known k row0 hk0 with ⟨r, hr, hrs⟩ | ⟨j, d, r, hj, hd, hl, hrs⟩
      · exact Or.inl (hmem k row r hk hr (hrs.trans hsame))
      · by_cases hji : j = i
        · subst hji
          rw [hi] at hj
          cases hj
          rcases hdone r hd with ⟨r', hr', hl', hs'⟩ | ⟨r', hr', hs'⟩
          · exact Or.inr ⟨j, c', r', hself, hr', hl'.trans hl, hs'.trans (hrs.trans hsame)⟩
          · exact Or.inl ⟨r', hl ▸ hr', hs'.trans (hrs.trans hsame)⟩
        · exact Or.inr ⟨j, d, r, by rw [hlook, if_neg hji]; exact hj, hd, hl, hrs.trans hsame⟩
    · exact Or.inr ⟨i, c', r, hself, hr, hl, hsame⟩
  · by_cases hji : j = i
    · subst hji
      rw [hself] at hj
      cases hj
      refine hfree _ ?_ fun _ _ _ => by rw [hd]; rfl
      rcases hnew r hd with ⟨r0, hr0, hl⟩ | ⟨hnone, -⟩
      · rw [← hl]
        exact h.reserved j c r0 hi hr0
      · exact hnone
    · have hj := hother j d hji hj
      refine hfree _ (h.reserved j d r hj hd) fun r0 hr0 hl => ?_
      exact absurd (h.distinct j i d c r r0 hj hi hd hr0 hl.symm) hji
  · by_cases hji : j = i
    · by_cases hji' : j' = i
      · rw [hji, hji']
      · subst hji
        rw [hself] at hj
        cases hj
        exact absurd he.symm (hapart j' d' q r hji' (hother j' d' hji' hj') hd' hd)
    · by_cases hji' : j' = i
      · subst hji'
        rw [hself] at hj'
        cases hj'
        exact absurd he (hapart j d r q hji (hother j d hji hj) hd hd')
      · exact h.distinct j j' d d' r q (hother j d hji hj) (hother j' d' hji' hj') hd hd' he
  · by_cases hji : j = i
    · subst hji
      exact hret id (Option.some.inj (hself.symm.trans hj)) k row hk
    · have hj := hother j _ hji hj
      rcases hrows k row hk with ⟨row0, hk0, hsame⟩ | ⟨-, -, -, -, hall⟩
      · rw [← hsame.1]
        exact h.deleted j id hj k row0 hk0
      · intro he
        exact hall j _ hj (congrArg some he.symm)
  · by_cases hji : j = i
    · subst hji
      rw [hself] at hj
      cases hj
      exact hown r hd
    · exact h.owned j d r (hother j d hji hj) hd

theorem minting_of_keyCall (h : keyCall c = none) : minting c = none := by
  cases c with
  | key k => cases h
  | createUser | updateUser | deleteUser | setUserPassword | recordLogin => rfl

theorem creating_of_keyCall (h : keyCall c = none) : creating c = none := by
  cases c with
  | key k => cases h
  | createUser | updateUser | deleteUser | setUserPassword | recordLogin => rfl

theorem keyTables_within (h : KeyTables s) (log : List Change) (hi : s.calls.lookup i = some c)
    (hc : creating c = none) (hc' : creating c' = none) (hret : ∀ id, c' ≠ .key (.delete id .retaining))
    (hrows : Within st'.keyRows s.store.keyRows) (hrun : Within st'.keys.runtime s.store.keys.runtime)
    (hmem : ∀ k r, s.store.keys.runtime.lookup k = some r →
      ∃ r', st'.keys.runtime.lookup k = some r' ∧ SameKey r' r) :
    KeyTables ⟨st', s.calls.insert i c', log⟩ := by
  refine keyTables_call h log hi (fun k row hk => ?_) (fun k row r _ hr hs => ?_) (fun r hr => ?_)
    (fun r hr => ?_) (fun k hk _ => ?_) (fun id hid => absurd hid (hret id)) fun r hr => ?_
  · obtain ⟨row0, h0, hs, -⟩ := hrows k row hk
    exact Or.inl ⟨row0, h0, hs⟩
  · obtain ⟨r', hr', hs'⟩ := hmem k r hr
    exact ⟨r', hr', hs'.trans hs⟩
  · rw [hc] at hr
    cases hr
  · rw [hc'] at hr
    cases hr
  · cases hk' : st'.keys.runtime.lookup k with
    | none => rfl
    | some r =>
      obtain ⟨r0, hr0, -⟩ := hrun k r hk'
      rw [hk] at hr0
      cases hr0
  · rw [hc'] at hr
    cases hr

/-- The user has no key. -/
def NoKeys (keys : HashMap String KeyRecord) (u : String) : Prop :=
  ∀ k r, keys.lookup k = some r → r.ownerUserId ≠ some u

theorem noKeys_of_fresh {id : String} (h : freshUser s id = true) :
    NoKeys s.store.keys.runtime id ∧ NoKeys s.store.keyRows id := by
  have hnew := newUser_of_fresh h
  exact ⟨hnew.keys, hnew.keyRows⟩

/-- A sweep disables keys in the table or in memory, and does nothing else to them. -/
theorem sweepMove_within {st : Store} {owner : String} {pc pc' : DisablePc}
    (h : SweepMove st owner pc st' pc') :
    Within st'.keyRows st.keyRows ∧ Within st'.keys.runtime st.keys.runtime ∧
      ∀ k r, st.keys.runtime.lookup k = some r →
        ∃ r', st'.keys.runtime.lookup k = some r' ∧ SameKey r' r := by
  cases h with
  | collect | idle | fail => exact ⟨.refl _, .refl _, fun k r hr => ⟨r, hr, .refl r⟩⟩
  | rows ids => exact ⟨within_disableRows ids _, .refl _, fun k r hr => ⟨r, hr, .refl r⟩⟩
  | mark ids =>
    refine ⟨.refl _, within_markOwned owner _, fun k r hr => ?_⟩
    show ∃ r', (markOwned owner st.keys.runtime).lookup k = some r' ∧ SameKey r' r
    rw [markOwned, lookup_mapVal, hr]
    refine ⟨_, rfl, ?_⟩
    dsimp only
    split_ifs <;> exact ⟨rfl, rfl, rfl⟩
  | rest _ _ keys hrun =>
    refine ⟨.refl _, ?_, fun k r hr => ⟨r, ?_, .refl r⟩⟩
    · show Within keys.runtime st.keys.runtime
      rw [hrun]
      exact .refl _
    · show keys.runtime.lookup k = some r
      rw [hrun]
      exact hr

theorem sweepMove_users {st : Store} {owner : String} {pc pc' : DisablePc}
    (h : SweepMove st owner pc st' pc') : st'.users = st.users ∧ st'.userRows = st.userRows := by
  cases h <;> exact ⟨rfl, rfl⟩

/-- What it means that the id and the lookup of a key are new. -/
structure NewKey (s : State) (id lookup : String) : Prop where
  mem : s.store.keys.runtime.lookup lookup = none
  row : s.store.keyRows.lookup lookup = none
  ids : ∀ k r, s.store.keys.runtime.lookup k = some r → r.id ≠ id
  calls : ∀ j d, s.calls.lookup j = some d → (∀ q, creating d = some q → q.lookup ≠ lookup) ∧ deleting d ≠ some id

theorem newKey_of_fresh {id lookup : String} (h : freshKey s id lookup = true) : NewKey s id lookup := by
  simp only [freshKey, Bool.and_eq_true, Option.isNone_iff_eq_none, List.all_eq_true, decide_eq_true_eq,
    Option.all_eq_true] at h
  obtain ⟨⟨⟨⟨hrun, hrow⟩, hids⟩, -⟩, hcalls⟩ := h
  exact ⟨hrun, hrow, fun k r hr => hids r ((mem_values _ _).mpr ⟨k, hr⟩),
    fun j d hj => hcalls d ((mem_values _ _).mpr ⟨j, hj⟩)⟩

/-- **A step of a call on the key store.** -/
theorem keyTables_key {k k' : Keys.Call} (h : KeyTables s) (log : List Change)
    (hi : s.calls.lookup i = some (.key k)) (hm : KeyMove cfg s k st' k') :
    KeyTables ⟨st', s.calls.insert i (.key k'), log⟩ := by
  cases hm with
  | quiet _ _ keys hrun hheld hc hc' hret =>
    refine keyTables_within h log hi hc hc' (fun id he => hret id (Call.key.inj he)) (.refl _) ?_
      fun k r hr => ⟨r, ?_, .refl r⟩
    · show Within keys.runtime s.store.keys.runtime
      rw [hrun]
      exact .refl _
    · show keys.runtime.lookup k = some r
      rw [hrun]
      exact hr
  | check tenantId owner name hown =>
    exact keyTables_within h log hi rfl rfl (by simp) (.refl _) (.refl _) fun k r hr => ⟨r, hr, .refl r⟩
  | retry tenantId owner name n m =>
    exact keyTables_within h log hi rfl rfl (by simp) (.refl _) (.refl _) fun k r hr => ⟨r, hr, .refl r⟩
  | insert tenantId owner name n r plaintext hfresh ht ho he =>
    obtain ⟨hrun, -, -, hcalls⟩ := newKey_of_fresh hfresh
    refine keyTables_call h log hi (fun k row hk => ?_) (fun k row q _ hq hs => ⟨q, hq, hs⟩)
      (fun q hq => (by cases hq)) (fun q hq => ?_) (fun k hk _ => hk) (by simp) fun q hq => ?_
    · change (s.store.keyRows.insert r.lookup _).lookup k = some row at hk
      rw [lookup_insert] at hk
      split_ifs at hk with hkl
      · cases hk
        exact Or.inr ⟨r, rfl, hkl.symm, ⟨rfl, rfl, rfl⟩, fun j d hj => (hcalls j d hj).2⟩
      · exact Or.inl ⟨row, hk, .refl row⟩
    · cases hq
      exact Or.inr ⟨hrun, fun j d q hj hq => (hcalls j d hj).1 q hq⟩
    · cases hq
      exact ⟨ho.symm, he⟩
  | bump tenantId owner name r plaintext keys hrun v =>
    refine keyTables_call h log hi (fun k row hk => Or.inl ⟨row, hk, .refl row⟩)
      (fun k row q _ hq hs => ⟨q, ?_, hs⟩) (fun q hq => ?_) (fun q hq => ?_) (fun k hk _ => ?_) (by simp) fun q hq => ?_
    · show keys.runtime.lookup k = some q
      rw [hrun]
      exact hq
    · cases hq
      exact Or.inl ⟨_, rfl, rfl, ⟨rfl, rfl, rfl⟩⟩
    · cases hq
      exact Or.inl ⟨r, rfl, rfl⟩
    · show keys.runtime.lookup k = none
      rw [hrun]
      exact hk
    · cases hq
      have hown := h.owned i _ r hi rfl
      exact hown
  | publish tenantId owner name r plaintext =>
    have hlook : ∀ k, (s.store.keys.runtime.insert r.lookup r).lookup k =
        if k = r.lookup then some r else s.store.keys.runtime.lookup k := fun k => lookup_insert _ _ _ _
    have hnone : s.store.keys.runtime.lookup r.lookup = none := h.reserved i _ r hi rfl
    refine keyTables_call h log hi (fun k row hk => Or.inl ⟨row, hk, .refl row⟩)
      (fun k row q _ hq hs => ⟨q, ?_, hs⟩) (fun q hq => ?_) (fun q hq => (by cases hq)) (fun k hk hfree => ?_)
      (by simp) fun q hq => (by cases hq)
    · refine (hlook k).trans ((if_neg ?_).trans hq)
      rintro rfl
      rw [hnone] at hq
      cases hq
    · cases hq
      exact Or.inr ⟨r, (hlook _).trans (if_pos rfl), .refl r⟩
    · refine (hlook k).trans ((if_neg ?_).trans hk)
      rintro rfl
      cases hfree r rfl rfl
  | deleteRow id =>
    refine keyTables_call h log hi (fun k row hk => ?_) (fun k row q _ hq hs => ⟨q, hq, hs⟩)
      (fun q hq => (by cases hq)) (fun q hq => (by cases hq)) (fun k hk _ => hk) (fun id' hid k row hk => ?_)
      fun q hq => (by cases hq)
    · exact Or.inl ⟨row, (lookup_dropId.mp hk).1, .refl row⟩
    · cases hid
      exact (lookup_dropId.mp hk).2
  | retain id pc hpc =>
    refine keyTables_call h log hi (fun k row hk => Or.inl ⟨row, hk, .refl row⟩)
      (fun k row q hk hq hs => ⟨q, ?_, hs⟩) (fun q hq => (by cases hq)) (fun q hq => (by cases hq))
      (fun k hk _ => ?_) (fun id' hid => ?_) fun q hq => (by cases hq)
    · refine lookup_dropId.mpr ⟨hq, ?_⟩
      rw [hs.1]
      exact h.deleted i id hi k row hk
    · show (dropId id s.store.keys.runtime).lookup k = none
      rw [dropId, lookup_retain, hk]
      rfl
    · cases hid
      exact absurd rfl hpc
  | sweep owner pc pc' st' hsw =>
    obtain ⟨hrows, hrun, hmem⟩ := sweepMove_within hsw
    exact keyTables_within h log hi rfl rfl (by simp) hrows hrun hmem

/-- **A step of a call.** -/
theorem keyTables_move (h : KeyTables s) (log : List Change) (hi : s.calls.lookup i = some c)
    (hm : Move cfg s b c st' c') : KeyTables ⟨st', s.calls.insert i c', log⟩ := by
  have hret : keyCall c' = none → ∀ id, c' ≠ .key (.delete id .retaining) := by
    rintro hk id rfl
    cases hk
  rcases keys_of_move hm with ⟨hk, hk', hkeys, hrows⟩ | ⟨hk, hk', u, pc, pc', -, -, hsw⟩ |
    ⟨k, k', rfl, rfl, hkm⟩
  · refine keyTables_within h log hi (creating_of_keyCall hk) (creating_of_keyCall hk') (hret hk') ?_ ?_
      fun k r hr => ⟨r, ?_, .refl r⟩
    · rw [hrows]
      exact .refl _
    · rw [hkeys]
      exact .refl _
    · rw [hkeys]
      exact hr
  · obtain ⟨hrows, hrun, hmem⟩ := sweepMove_within hsw
    exact keyTables_within h log hi (creating_of_keyCall hk) (creating_of_keyCall hk') (hret hk') hrows hrun hmem
  · exact keyTables_key h log hi hkm

/-- **A step adds a key to no user** but the one that its call holds. -/
theorem keys_frame (hkt : KeyTables s) (hi : s.calls.lookup i = some c) (hm : Move cfg s b c st' c') {u : String}
    (hu : held c ≠ some u) : OwnWithin st'.keys.runtime s.store.keys.runtime u ∧
      OwnWithin st'.keyRows s.store.keyRows u := by
  rcases keys_of_move hm with ⟨-, -, hkeys, hrows⟩ | ⟨-, -, owner, pc, pc', -, -, hsw⟩ | ⟨k, k', rfl, rfl, hkm⟩
  · rw [hkeys, hrows]
    exact ⟨.refl _ u, .refl _ u⟩
  · obtain ⟨hrows, hrun, -⟩ := sweepMove_within hsw
    exact ⟨hrun.own u, hrows.own u⟩
  · cases hkm with
    | quiet _ _ keys hrun =>
      refine ⟨?_, .refl _ u⟩
      show OwnWithin keys.runtime s.store.keys.runtime u
      rw [hrun]
      exact .refl _ u
    | check | retry => exact ⟨.refl _ u, .refl _ u⟩
    | insert tenantId owner name n r plaintext hfresh ht ho =>
      refine ⟨.refl _ u, ownWithin_insert ?_⟩
      rw [← ho] at hu
      exact hu
    | bump tenantId owner name r plaintext keys hrun =>
      refine ⟨?_, .refl _ u⟩
      show OwnWithin keys.runtime s.store.keys.runtime u
      rw [hrun]
      exact .refl _ u
    | publish tenantId owner name r plaintext =>
      refine ⟨ownWithin_insert ?_, .refl _ u⟩
      rw [← (hkt.owned i _ r hi rfl).1]
      exact hu
    | deleteRow id => exact ⟨.refl _ u, (within_dropId id _).own u⟩
    | retain id pc => exact ⟨(within_dropId id _).own u, .refl _ u⟩
    | sweep owner pc pc' st' hsw =>
      obtain ⟨hrows, hrun, -⟩ := sweepMove_within hsw
      exact ⟨hrun.own u, hrows.own u⟩

theorem keyTables_start (h : KeyTables s) {request : Request} (hfree : s.calls.lookup i = none) :
    KeyTables { s with calls := s.calls.insert i request.call } := by
  have hnew : creating request.call = none ∧ ∀ id, request.call ≠ .key (.delete id .retaining) := by
    cases request with
    | key r => cases r <;> exact ⟨rfl, by simp [Request.call, Keys.Request.call]⟩
    | createUser | updateUser | deleteUser | setUserPassword | recordLogin =>
      exact ⟨rfl, by simp [Request.call]⟩
  have hback : ∀ j d, (s.calls.insert i request.call).lookup j = some d →
      s.calls.lookup j = some d ∨ d = request.call := by
    intro j d hj
    rw [lookup_insert] at hj
    split_ifs at hj
    · exact Or.inr (Option.some.inj hj).symm
    · exact Or.inl hj
  have hold : ∀ j d r, (s.calls.insert i request.call).lookup j = some d → creating d = some r →
      s.calls.lookup j = some d := by
    intro j d r hj hr
    rcases hback j d hj with hj | rfl
    · exact hj
    · rw [hnew.1] at hr
      cases hr
  refine ⟨fun k row hk => ?_, fun j d r hj hr => h.reserved j d r (hold j d r hj hr) hr,
    fun j j' d d' r q hj hj' hr hq =>
      h.distinct j j' d d' r q (hold j d r hj hr) (hold j' d' q hj' hq) hr hq, fun j id hj => ?_,
    fun j d r hj hr => h.owned j d r (hold j d r hj hr) hr⟩
  · rcases h.known k row hk with hr | ⟨j, d, r, hj, hd⟩
    · exact Or.inl hr
    · refine Or.inr ⟨j, d, r, ?_, hd⟩
      show (s.calls.insert i request.call).lookup j = some d
      rw [lookup_insert, if_neg]
      · exact hj
      · rintro rfl
        rw [hfree] at hj
        cases hj
  · rcases hback j _ hj with hj | he
    · exact h.deleted j id hj
    · exact absurd he.symm (hnew.2 id)

/-- The keys in memory after a restart. -/
theorem lookup_reload {st : Store} {k : String} {r : KeyRecord} :
    st.reload.keys.runtime.lookup k = some r ↔
      ∃ row, st.keyRows.lookup k = some row ∧ r = { row with lookup := k, credVersion := 1 } := by
  show (mapVal (fun lookup r => { r with lookup := lookup, credVersion := 1 }) st.keyRows).lookup k = some r ↔ _
  rw [lookup_mapVal, Option.map_eq_some_iff]
  exact ⟨fun ⟨row, hrow, he⟩ => ⟨row, hrow, he.symm⟩, fun ⟨row, hrow, he⟩ => ⟨row, hrow, he.symm⟩⟩

theorem keyTables_restart : KeyTables ⟨s.store.reload, ∅, s.log⟩ := by
  refine ⟨fun k row hk => Or.inl ⟨_, lookup_reload.mpr ⟨row, hk, rfl⟩, ⟨rfl, rfl, rfl⟩⟩,
    fun _ _ _ h => (by cases h), fun _ _ _ _ _ _ h => (by cases h), fun _ _ h => (by cases h),
    fun _ _ _ h => (by cases h)⟩

theorem keyTables_init : KeyTables init :=
  ⟨fun _ _ h => (by cases h), fun _ _ _ h => (by cases h), fun _ _ _ _ _ _ h => (by cases h),
    fun _ _ h => (by cases h), fun _ _ _ h => (by cases h)⟩

theorem sameKey_of_row {k : String} {row r : KeyRecord} (h : KeyTables s)
    (hk : s.store.keyRows.lookup k = some row) (hr : s.store.keys.runtime.lookup k = some r) :
    SameKey r row := by
  rcases h.known k row hk with ⟨r', hr', hs⟩ | ⟨i, c, r', hi, hc, rfl, -⟩
  · rw [hr] at hr'
    cases hr'
    exact hs
  · rw [h.reserved i c r' hi hc] at hr
    cases hr

/-- If no creation of a key holds the owner, each of its rows is in memory. -/
theorem mem_of_row {o : Option Call} {u k : String} {row : KeyRecord} (h : KeyTables s)
    (hex : Exclusive held s.calls) (ho : On held s.calls u o) (hc : ∀ d, o = some d → creating d = none)
    (hk : s.store.keyRows.lookup k = some row) (hu : row.ownerUserId = some u) :
    ∃ r, s.store.keys.runtime.lookup k = some r ∧ SameKey r row := by
  rcases h.known k row hk with hr | ⟨j, d, r, hj, hd, -, hs⟩
  · exact hr
  · have hdu : held d = some u := (h.owned j d r hj hd).1.trans (hs.2.1.trans hu)
    cases o with
    | none => exact absurd hdu (ho j d hj)
    | some e =>
      obtain ⟨he, j', hj'⟩ := ho
      have hjj := hex j j' d e u hj hj' hdu he
      subst hjj
      rw [hj] at hj'
      cases hj'
      rw [hc d rfl] at hd
      cases hd

/-- **Every step** keeps the two tables together. -/
theorem keyTables_step {l : Label} (h : KeyTables s) (hs : step cfg s l = some s') : KeyTables s' := by
  rcases step_cases hs with ⟨i, request, rfl, hi, rfl⟩ | ⟨i, a, c, st', c', -, hi, hm, -, rfl⟩ | ⟨-, rfl⟩
  · exact keyTables_start h hi
  · exact keyTables_move h _ hi hm
  · exact keyTables_restart

end tables

/-! ### An example -/

/-- The call `i` creates a key of the user `u1` in the tenant. -/
def createsKey (i : ℕ) (tenantId : String) : List Label :=
  [.start i (.key (.createIn tenantId (some "u1") "k")),
    .step i (.key (.tables (some true) (some (some tenantId)))),
    .step i (.key (.inserted "id1" "sk-abc" Revocation.abcHash 5)), .step i (.key .silent),
    .step i (.key .silent)]

end HomeLlmGateway.Storage.KeyRows
