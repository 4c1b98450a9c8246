import HomeLlmGateway.Storage.CacheTransparency
import Mathlib.Logic.Relation

/-! # The key store writes through

`create_in`, `delete` and `disable_keys_for_owner` (`gateway/src/storage/keys.rs`), each from its start to its
end, in memory and in the table `api_keys`. Every statement may fail; the table refuses a row whose id or
lookup it has, and a transaction that fails changes nothing. `createIn_steps`, `delete_steps` and
`disable_steps` connect these calls to the steps of `Storage.Keys`; in memory they are the calls of
`Storage.CacheTransparency`, to which the table is only an answer (`serve_keys`).

A call writes the table first and memory last, and returns an error only before its first write, so that what
is in memory is what a restart would load (`write_through`). -/

namespace HomeLlmGateway.Storage.WriteThrough

open HomeLlmGateway.Lib.Assoc HomeLlmGateway.Storage.Cache HomeLlmGateway.Storage.Keys

/-! ### The table -/

/-- The table `api_keys`: its rows by lookup, which is unique, as is the id. -/
structure KeyTable where
  rows : HashMap String KeyRecord
  lookup_eq : ∀ k r, rows.lookup k = some r → r.lookup = k
  id_inj : ∀ k k' r r', rows.lookup k = some r → rows.lookup k' = some r' → r.id = r'.id → k = k'

namespace KeyTable

theorem lookup_eq_empty (k : String) (r : KeyRecord) (h : (∅ : HashMap String KeyRecord).lookup k = some r) :
    r.lookup = k := by
  cases h

theorem id_inj_empty (k k' : String) (r r' : KeyRecord) (h : (∅ : HashMap String KeyRecord).lookup k = some r)
    (_ : (∅ : HashMap String KeyRecord).lookup k' = some r') (_ : r.id = r'.id) : k = k' := by
  cases h

def empty : KeyTable where
  rows := ∅
  lookup_eq := lookup_eq_empty
  id_inj := id_inj_empty

/-- A key has the lookup or the id. -/
def taken (t : KeyTable) (r : KeyRecord) : Bool :=
  (t.rows.lookup r.lookup).isSome || (values t.rows).any (·.id = r.id)

/-- `INSERT`; the column `cred_version` gets its default. -/
def insert (t : KeyTable) (r : KeyRecord) (h : t.taken r = false) : KeyTable where
  rows := t.rows.insert r.lookup { r with credVersion := 1 }
  lookup_eq k q hq := by
    rw [lookup_insert] at hq
    split_ifs at hq with hk
    · cases hq
      exact hk.symm
    · exact t.lookup_eq k q hq
  id_inj k k' q q' hq hq' hid := by
    have hnew : ∀ k q, t.rows.lookup k = some q → q.id ≠ r.id := by
      intro k q hq he
      have hany : (values t.rows).any (·.id = r.id) = true :=
        List.any_eq_true.mpr ⟨q, (mem_values _ _).mpr ⟨k, hq⟩, by simpa using he⟩
      simp [taken, hany] at h
    rw [lookup_insert] at hq hq'
    split_ifs at hq hq' with hk hk' hk'
    · rw [hk, hk']
    · cases hq
      exact absurd hid.symm (hnew k' q' hq')
    · cases hq'
      exact absurd hid (hnew k q hq)
    · exact t.id_inj k k' q q' hq hq' hid

/-- `DELETE .. WHERE id = ..` -/
def deleteId (t : KeyTable) (id : String) : KeyTable where
  rows := retain (fun _ r => r.id ≠ id) t.rows
  lookup_eq k r hr := by
    rw [lookup_retain] at hr
    exact t.lookup_eq k r (Option.filter_eq_some_iff.mp hr).1
  id_inj k k' r r' hr hr' hid := by
    rw [lookup_retain] at hr hr'
    exact t.id_inj k k' r r' (Option.filter_eq_some_iff.mp hr).1 (Option.filter_eq_some_iff.mp hr').1 hid

/-- `UPDATE .. SET enabled = 0 WHERE id = ..`, for each of the ids. -/
def disable (t : KeyTable) (ids : List String) : KeyTable where
  rows := mapVal (fun _ r => if r.id ∈ ids then { r with enabled := false } else r) t.rows
  lookup_eq k r hr := by
    rw [lookup_mapVal] at hr
    obtain ⟨q, hq, rfl⟩ := Option.map_eq_some_iff.mp hr
    split_ifs
    · exact t.lookup_eq k q hq
    · exact t.lookup_eq k q hq
  id_inj k k' r r' hr hr' hid := by
    rw [lookup_mapVal] at hr hr'
    obtain ⟨q, hq, rfl⟩ := Option.map_eq_some_iff.mp hr
    obtain ⟨q', hq', rfl⟩ := Option.map_eq_some_iff.mp hr'
    refine t.id_inj k k' q q' hq hq' ?_
    split_ifs at hid <;> exact hid

end KeyTable

/-! ### The calls -/

/-- The key store with its table. -/
structure KeyStore where
  keys : Store
  table : KeyTable

/-- `Storage::new` on a table. -/
def KeyStore.load (t : KeyTable) : KeyStore := ⟨(init (loadKeys t.rows)).store, t⟩

/-- What one attempt to create a key draws, and the error of its statement, if it fails. -/
structure Draw where
  id : String
  plaintext : String
  keyHash : String
  createdAt : ℕ
  fault : Option String

/-- The error of an `INSERT`, as `is_unique_key_collision` tells them apart. -/
inductive InsertError where
  | collision
  | other (error : String)

/-- `insert_api_key`. -/
def insertApiKey (t : KeyTable) (r : KeyRecord) (fault : Option String) : Except InsertError KeyTable :=
  match fault with
  | some e => .error (.other e)
  | none => if h : t.taken r = false then .ok (t.insert r h) else .error .collision

/-- The loop of `create_in`, with the attempts that are left. -/
def createAttempts (cfg : Config) (s : KeyStore) (tenantId : String) (ownerUserId : Option String)
    (name : String) (draw : ℕ → Draw) : ℕ → KeyStore × Except String (KeyRecord × String)
  | 0 => (s, .error "could not allocate a unique key id")
  | left + 1 =>
    let d := draw left
    let record : KeyRecord := ⟨d.id, d.keyHash, cfg.lookupOf d.plaintext, name, d.createdAt, true, 0,
      tenantId, ownerUserId⟩
    match insertApiKey s.table record d.fault with
    | .ok table =>
      let generation := s.keys.generation + 1
      let record := { record with credVersion := generation }
      (⟨{ s.keys with generation := generation, runtime := s.keys.runtime.insert record.lookup record }, table⟩,
        .ok (record, d.plaintext))
    | .error .collision => createAttempts cfg s tenantId ownerUserId name draw left
    | .error (.other e) => (s, .error e)

/-- `create_in`, with what it finds in memory of the tenant and of the owner. -/
def createIn (cfg : Config) (s : KeyStore) (tenantId : String) (ownerUserId : Option String)
    (name : String) (tenantEnabled : Option Bool) (userTenant : Option (Option String))
    (draw : ℕ → Draw) : KeyStore × Except String (KeyRecord × String) :=
  match createCheck tenantId ownerUserId tenantEnabled userTenant with
  | .ok () => createAttempts cfg s tenantId ownerUserId name draw 3
  | .error e => (s, .error e)

/-- `delete`. -/
def delete (s : KeyStore) (id : String) (fault : Option String) : KeyStore × Except String Bool :=
  if (values s.keys.runtime).any (·.id = id) then
    match fault with
    | some e => (s, .error e)
    | none =>
      (⟨{ s.keys with
          runtime := retain (fun _ r => r.id ≠ id) s.keys.runtime
          verified := s.keys.verified.invalidateById id
          generation := s.keys.generation + 1 }, s.table.deleteId id⟩, .ok true)
  else (s, .ok false)

/-- `disable_keys_for_owner`; its transaction fails with any of its statements. -/
def disableKeysForOwner (s : KeyStore) (ownerUserId : String) (fault : Option String) :
    KeyStore × Except String ℕ :=
  let ids := ((values s.keys.runtime).filter fun r => ownedBy ownerUserId r && r.enabled).map (·.id)
  if ids = [] then (s, .ok 0)
  else
    match fault with
    | some e => (s, .error e)
    | none =>
      let mark := fun (_ : String) r => if ownedBy ownerUserId r then { r with enabled := false } else r
      (⟨{ s.keys with
          runtime := mapVal mark s.keys.runtime
          generation := s.keys.generation + 1
          verified := ids.foldl (fun c id => c.invalidateById id) s.keys.verified }, s.table.disable ids⟩,
        .ok ids.length)

/-- A call, with what it meets. -/
inductive Op where
  | createIn (tenantId : String) (ownerUserId : Option String) (name : String)
      (tenantEnabled : Option Bool) (userTenant : Option (Option String)) (draw : ℕ → Draw)
  | delete (id : String) (fault : Option String)
  | disableKeysForOwner (ownerUserId : String) (fault : Option String)

/-- What a call returns. -/
inductive Reply where
  | created (record : KeyRecord) (plaintext : String)
  | deleted (removed : Bool)
  | disabled (count : ℕ)

def serve (cfg : Config) (s : KeyStore) : Op → KeyStore × Except String Reply
  | .createIn tenantId ownerUserId name tenantEnabled userTenant draw =>
    let (s', result) := createIn cfg s tenantId ownerUserId name tenantEnabled userTenant draw
    (s', result.map fun p => .created p.1 p.2)
  | .delete id fault =>
    let (s', result) := delete s id fault
    (s', result.map .deleted)
  | .disableKeysForOwner ownerUserId fault =>
    let (s', result) := disableKeysForOwner s ownerUserId fault
    (s', result.map .disabled)

/-- The calls of a sequence, each with the store before it, what it returns, and the store after it. -/
def served (cfg : Config) : KeyStore → List Op → List (KeyStore × Except String Reply × KeyStore)
  | _, [] => []
  | s, op :: ops => (s, (serve cfg s op).2, (serve cfg s op).1) :: served cfg (serve cfg s op).1 ops

/-! ### The steps of a call -/

section steps

variable {cfg : Config} {s : KeyStore}

/-- A call takes a step of `Storage.Keys`, with its statement on the rows. -/
def tableStep (cfg : Config) (x y : Store × HashMap String KeyRecord × Call) : Prop :=
  ∃ a, callStep cfg x.1 a x.2.2 = some (y.1, y.2.2) ∧ y.2.1 = rowsAfter cfg x.2.1 a x.2.2

/-- A call gets from one point to the other while no other call moves. -/
def StepsTo (cfg : Config) : (x y : Store × HashMap String KeyRecord × Call) → Prop :=
  Relation.ReflTransGen (tableStep cfg)

theorem StepsTo.step {t u : Store} {rows : HashMap String KeyRecord} {c d : Call}
    {z : Store × HashMap String KeyRecord × Call} (a : Answer) (h : callStep cfg t a c = some (u, d))
    (hrest : StepsTo cfg (u, rowsAfter cfg rows a c, d) z) : StepsTo cfg (t, rows, c) z :=
  Relation.ReflTransGen.head ⟨a, h, rfl⟩ hrest

theorem StepsTo.last {t u : Store} {rows : HashMap String KeyRecord} {c d : Call} (a : Answer)
    (h : callStep cfg t a c = some (u, d)) : StepsTo cfg (t, rows, c) (u, rowsAfter cfg rows a c, d) :=
  .step a h .refl

/-- Where a call of `create_in` stands when it has returned. -/
def createdPc : Except String (KeyRecord × String) → CreatePc
  | .ok p => .done p.1 p.2
  | .error e => .failed e

/-- Where a call of `delete` does. -/
def deletedPc : Except String Bool → DeletePc
  | .ok removed => .done removed
  | .error e => .failed e

/-- Where a call of `disable_keys_for_owner` does. -/
def disabledPc : Except String ℕ → DisablePc
  | .ok count => .done count
  | .error e => .failed e

theorem createAttempts_steps {tenantId name : String} {ownerUserId : Option String} {draw : ℕ → Draw}
    (left : ℕ) (hleft : left < 3) :
    StepsTo cfg (s.keys, s.table.rows, .createIn tenantId ownerUserId name (.inserting (2 - left)))
      ((createAttempts cfg s tenantId ownerUserId name draw (left + 1)).1.keys,
        (createAttempts cfg s tenantId ownerUserId name draw (left + 1)).1.table.rows,
        .createIn tenantId ownerUserId name
          (createdPc (createAttempts cfg s tenantId ownerUserId name draw (left + 1)).2)) := by
  unfold createAttempts insertApiKey
  dsimp only
  cases (draw left).fault with
  | some e => exact .last (.database (some e)) rfl
  | none =>
    dsimp only
    split_ifs with htaken
    · exact .step (.inserted (draw left).id (draw left).plaintext (draw left).keyHash (draw left).createdAt) rfl
        (.step .silent rfl (.last .silent rfl))
    · cases left with
      | zero => exact .last .collision rfl
      | succ left =>
        have hnext : 2 - (left + 1) + 1 = 2 - left := by omega
        have hmore : 2 - left < 3 := by omega
        refine .step .collision ?_ (createAttempts_steps left (by omega))
        simp only [callStep, createStep, hnext, hmore, if_true, Option.map_some]

theorem createIn_steps (s : KeyStore) (tenantId : String) (ownerUserId : Option String) (name : String)
    (tenantEnabled : Option Bool) (userTenant : Option (Option String)) (draw : ℕ → Draw) :
    StepsTo cfg (s.keys, s.table.rows, .createIn tenantId ownerUserId name .start)
      ((createIn cfg s tenantId ownerUserId name tenantEnabled userTenant draw).1.keys,
        (createIn cfg s tenantId ownerUserId name tenantEnabled userTenant draw).1.table.rows,
        .createIn tenantId ownerUserId name
          (createdPc (createIn cfg s tenantId ownerUserId name tenantEnabled userTenant draw).2)) := by
  unfold createIn
  cases hcheck : createCheck tenantId ownerUserId tenantEnabled userTenant with
  | ok u =>
    refine .step (.tables tenantEnabled userTenant) ?_ (createAttempts_steps 2 (by omega))
    simp only [callStep, createStep, hcheck, Option.map_some]
  | error e =>
    refine .last (.tables tenantEnabled userTenant) ?_
    simp only [callStep, createStep, hcheck, Option.map_some, createdPc]

theorem delete_steps (s : KeyStore) (id : String) (fault : Option String) :
    StepsTo cfg (s.keys, s.table.rows, .delete id .start)
      ((delete s id fault).1.keys, (delete s id fault).1.table.rows,
        .delete id (deletedPc (delete s id fault).2)) := by
  unfold delete
  by_cases hany : (values s.keys.runtime).any (·.id = id) = true
  · simp only [hany, if_true]
    have hstart : callStep cfg s.keys .silent (.delete id .start) = some (s.keys, .delete id .deletingRow) := by
      simp only [callStep, deleteStep, hany, if_true, Option.map_some]
    have hretain : callStep cfg s.keys .silent (.delete id .retaining) =
        some ({ s.keys with runtime := retain (fun _ r => r.id ≠ id) s.keys.runtime },
          .delete id .invalidating) := by
      simp only [callStep, deleteStep, hany, if_true, Option.map_some]
    refine .step .silent hstart ?_
    cases fault with
    | some e => exact .last (.database (some e)) rfl
    | none => exact .step (.database none) rfl (.step .silent hretain (.step .silent rfl (.last .silent rfl)))
  · simp only [hany, if_false, Bool.false_eq_true]
    refine .last .silent ?_
    simp only [callStep, deleteStep, hany, if_false, Option.map_some, deletedPc, Bool.false_eq_true]

theorem invalidate_steps (rows : HashMap String KeyRecord) (ownerUserId : String) (count : ℕ) :
    ∀ (ids : List String) (t : Store),
      StepsTo cfg (t, rows, .disableKeysForOwner ownerUserId (.invalidating count ids))
        ({ t with verified := ids.foldl (fun c id => c.invalidateById id) t.verified }, rows,
          .disableKeysForOwner ownerUserId (.done count))
  | [], _ => .last .silent rfl
  | _ :: ids, _ => .step .silent rfl (invalidate_steps rows ownerUserId count ids _)

theorem disable_steps (s : KeyStore) (ownerUserId : String) (fault : Option String) :
    StepsTo cfg (s.keys, s.table.rows, .disableKeysForOwner ownerUserId .start)
      ((disableKeysForOwner s ownerUserId fault).1.keys, (disableKeysForOwner s ownerUserId fault).1.table.rows,
        .disableKeysForOwner ownerUserId (disabledPc (disableKeysForOwner s ownerUserId fault).2)) := by
  unfold disableKeysForOwner
  generalize hids :
    ((values s.keys.runtime).filter fun r => ownedBy ownerUserId r && r.enabled).map (·.id) = ids
  dsimp only
  split_ifs with hnil
  · refine .last .silent ?_
    simp only [callStep, disableStep, hids, hnil, if_true, Option.map_some, disabledPc]
  · have hstart : callStep cfg s.keys .silent (.disableKeysForOwner ownerUserId .start) =
        some (s.keys, .disableKeysForOwner ownerUserId (.updatingRows ids)) := by
      simp only [callStep, disableStep, hids, hnil, if_false, Option.map_some]
    refine .step .silent hstart ?_
    cases fault with
    | some e => exact .last (.database (some e)) rfl
    | none =>
      exact .step (.database none) rfl (.step .silent rfl (.step .silent rfl
        (invalidate_steps _ ownerUserId ids.length ids _)))

/-! ### The calls in memory -/

/-- What the table answers to an attempt. -/
def Draw.insertion (cfg : Config) (t : KeyTable) (tenantId : String) (ownerUserId : Option String)
    (name : String) (d : Draw) : CacheTransparency.Insertion :=
  match insertApiKey t ⟨d.id, d.keyHash, cfg.lookupOf d.plaintext, name, d.createdAt, true, 0, tenantId,
    ownerUserId⟩ d.fault with
  | .ok _ => .inserted d.id d.plaintext d.keyHash d.createdAt
  | .error .collision => .collision
  | .error (.other e) => .failed e

/-- The call, with what the table answers. -/
def Op.inMemory (cfg : Config) (t : KeyTable) : Op → CacheTransparency.Op
  | .createIn tenantId ownerUserId name tenantEnabled userTenant draw =>
    .createIn tenantId ownerUserId name tenantEnabled userTenant fun left =>
      (draw left).insertion cfg t tenantId ownerUserId name
  | .delete id fault => .delete id fault
  | .disableKeysForOwner ownerUserId fault => .disableKeysForOwner ownerUserId fault

theorem createAttempts_keys {tenantId name : String} {ownerUserId : Option String} {draw : ℕ → Draw} (left : ℕ) :
    CacheTransparency.createAttempts cfg s.keys tenantId ownerUserId name
        (fun left => (draw left).insertion cfg s.table tenantId ownerUserId name) left =
      ((createAttempts cfg s tenantId ownerUserId name draw left).1.keys,
        createdPc (createAttempts cfg s tenantId ownerUserId name draw left).2) := by
  induction left with
  | zero => rfl
  | succ left ih =>
    unfold createAttempts CacheTransparency.createAttempts
    dsimp only [Draw.insertion]
    rcases insertApiKey s.table _ (draw left).fault with (_ | e) | table
    · exact ih
    · rfl
    · rfl

theorem createIn_keys (s : KeyStore) (tenantId : String) (ownerUserId : Option String) (name : String)
    (tenantEnabled : Option Bool) (userTenant : Option (Option String)) (draw : ℕ → Draw) :
    CacheTransparency.createIn cfg s.keys tenantId ownerUserId name tenantEnabled userTenant
        (fun left => (draw left).insertion cfg s.table tenantId ownerUserId name) =
      ((createIn cfg s tenantId ownerUserId name tenantEnabled userTenant draw).1.keys,
        createdPc (createIn cfg s tenantId ownerUserId name tenantEnabled userTenant draw).2) := by
  unfold createIn CacheTransparency.createIn
  cases createCheck tenantId ownerUserId tenantEnabled userTenant with
  | ok u => exact createAttempts_keys 3
  | error e => rfl

theorem delete_keys (s : KeyStore) (id : String) (fault : Option String) :
    CacheTransparency.delete s.keys id fault = ((delete s id fault).1.keys, deletedPc (delete s id fault).2) := by
  unfold delete CacheTransparency.delete
  split_ifs
  · cases fault with
    | some e => rfl
    | none => rfl
  · rfl

theorem disable_keys (s : KeyStore) (ownerUserId : String) (fault : Option String) :
    CacheTransparency.disableKeysForOwner s.keys ownerUserId fault =
      ((disableKeysForOwner s ownerUserId fault).1.keys, disabledPc (disableKeysForOwner s ownerUserId fault).2) := by
  unfold disableKeysForOwner CacheTransparency.disableKeysForOwner
  dsimp only
  split_ifs
  · rfl
  · cases fault with
    | some e => rfl
    | none => rfl

/-- In memory a call is the one of `Storage.CacheTransparency`. -/
theorem serve_keys (op : Op) :
    (CacheTransparency.serve cfg s.keys (op.inMemory cfg s.table)).1 = (serve cfg s op).1.keys := by
  cases op with
  | createIn tenantId ownerUserId name tenantEnabled userTenant draw =>
    exact congrArg Prod.fst (createIn_keys s tenantId ownerUserId name tenantEnabled userTenant draw)
  | delete id fault => exact congrArg Prod.fst (delete_keys s id fault)
  | disableKeysForOwner ownerUserId fault => exact congrArg Prod.fst (disable_keys s ownerUserId fault)

end steps

/-! ### Memory and table -/

/-- The record without its credential version. -/
def unversioned (r : KeyRecord) : KeyRecord := { r with credVersion := 0 }

/-- The keys in memory are those that a restart would load, up to their versions. -/
def Synced (s : KeyStore) : Prop :=
  ∀ k, (s.keys.runtime.lookup k).map unversioned =
    ((loadKeys s.table.rows).keys.lookup k).map unversioned

/-- Each lookup and each id occurs at most once. -/
def Once (keys : HashMap String KeyRecord) : Prop :=
  ((values keys).map (·.lookup)).Nodup ∧ ((values keys).map (·.id)).Nodup

section synced

variable {cfg : Config} {s : KeyStore}

theorem loaded_eq (t : KeyTable) (k : String) :
    ((loadKeys t.rows).keys.lookup k).map unversioned = (t.rows.lookup k).map unversioned := by
  show ((mapVal _ t.rows).lookup k).map unversioned = _
  rw [lookup_mapVal, Option.map_map]
  refine Option.map_congr fun r hr => ?_
  have hk := t.lookup_eq k r hr
  subst hk
  rfl

theorem synced_iff : Synced s ↔
    ∀ k, (s.keys.runtime.lookup k).map unversioned = (s.table.rows.lookup k).map unversioned :=
  forall_congr' fun k => by rw [loaded_eq]

theorem synced_load (t : KeyTable) : Synced (.load t) := fun _ => rfl

theorem Synced.row (h : Synced s) {k : String} {r : KeyRecord} (hr : s.keys.runtime.lookup k = some r) :
    ∃ q, s.table.rows.lookup k = some q ∧ unversioned r = unversioned q := by
  have hk := synced_iff.mp h k
  rw [hr, Option.map_some] at hk
  obtain ⟨q, hq, he⟩ := Option.map_eq_some_iff.mp hk.symm
  exact ⟨q, hq, he.symm⟩

theorem fields_of_unversioned {r q : KeyRecord} (h : unversioned r = unversioned q) :
    r.id = q.id ∧ r.lookup = q.lookup ∧ r.enabled = q.enabled ∧ r.ownerUserId = q.ownerUserId := by
  simp only [unversioned, KeyRecord.mk.injEq] at h
  exact ⟨h.1, h.2.2.1, h.2.2.2.2.2.1, h.2.2.2.2.2.2.2.2⟩

theorem once_of_keyed {m : HashMap String KeyRecord} (hlookup : ∀ k r, m.lookup k = some r → r.lookup = k)
    (hid : ∀ k k' r r', m.lookup k = some r → m.lookup k' = some r' → r.id = r'.id → k = k') : Once m := by
  have hnodup : m.entries.Nodup := m.nodupKeys.nodup
  have hentry : ∀ e ∈ m.entries, m.lookup e.1 = some e.2 := fun e he => (mem_entries_iff m e.1 e.2).mp he
  have hext : ∀ e ∈ m.entries, ∀ e' ∈ m.entries, e.1 = e'.1 → e = e' := by
    rintro ⟨k, r⟩ he ⟨k', r'⟩ he' hk
    dsimp only at hk
    subst hk
    have hr := hentry _ he
    rw [hentry _ he'] at hr
    cases hr
    rfl
  unfold Once values
  rw [List.map_map, List.map_map]
  refine ⟨hnodup.map_on fun e he e' he' h => ?_, hnodup.map_on fun e he e' he' h => ?_⟩
  · refine hext e he e' he' ?_
    rw [← hlookup _ _ (hentry e he), ← hlookup _ _ (hentry e' he')]
    exact h
  · exact hext e he e' he' (hid _ _ _ _ (hentry e he) (hentry e' he') h)

theorem Synced.once (h : Synced s) : Once s.keys.runtime := by
  refine once_of_keyed (fun k r hr => ?_) fun k k' r r' hr hr' hid => ?_
  · obtain ⟨q, hq, he⟩ := h.row hr
    rw [(fields_of_unversioned he).2.1]
    exact s.table.lookup_eq k q hq
  · obtain ⟨q, hq, he⟩ := h.row hr
    obtain ⟨q', hq', he'⟩ := h.row hr'
    refine s.table.id_inj k k' q q' hq hq' ?_
    rw [← (fields_of_unversioned he).1, ← (fields_of_unversioned he').1, hid]

/-! ### What a call keeps -/

/-- What a call does: it keeps memory and table together, and with an error it changes neither. -/
def Kept {α : Type} (s : KeyStore) (x : KeyStore × Except String α) : Prop :=
  Synced x.1 ∧ ∀ e, x.2 = .error e → x.1 = s

theorem kept_unchanged {α : Type} (h : Synced s) (result : Except String α) : Kept s (s, result) :=
  ⟨h, fun _ _ => rfl⟩

theorem kept_createAttempts (h : Synced s) {tenantId name : String} {ownerUserId : Option String}
    {draw : ℕ → Draw} : ∀ left, Kept s (createAttempts cfg s tenantId ownerUserId name draw left)
  | 0 => kept_unchanged h _
  | left + 1 => by
    unfold createAttempts insertApiKey
    dsimp only
    cases (draw left).fault with
    | some e => exact kept_unchanged h _
    | none =>
      dsimp only
      split_ifs with htaken
      · refine ⟨synced_iff.mpr fun k => ?_, fun e he => by cases he⟩
        dsimp only [KeyTable.insert]
        rw [lookup_insert, lookup_insert]
        split_ifs
        · rfl
        · exact synced_iff.mp h k
      · exact kept_createAttempts h left

theorem kept_createIn (h : Synced s) (tenantId : String) (ownerUserId : Option String) (name : String)
    (tenantEnabled : Option Bool) (userTenant : Option (Option String)) (draw : ℕ → Draw) :
    Kept s (createIn cfg s tenantId ownerUserId name tenantEnabled userTenant draw) := by
  unfold createIn
  split
  · exact kept_createAttempts h 3
  · exact kept_unchanged h _

theorem kept_delete (h : Synced s) (id : String) (fault : Option String) : Kept s (delete s id fault) := by
  unfold delete
  split_ifs with hany
  · cases fault with
    | some e => exact kept_unchanged h _
    | none =>
      refine ⟨synced_iff.mpr fun k => ?_, fun e he => by cases he⟩
      dsimp only [KeyTable.deleteId]
      rw [lookup_retain, lookup_retain]
      have hk := synced_iff.mp h k
      -- the ids in memory and in the table are the same
      cases hr : s.keys.runtime.lookup k with
      | none =>
        rw [hr] at hk
        rw [Option.map_eq_none_iff.mp hk.symm]
      | some r =>
        obtain ⟨q, hq, he⟩ := h.row hr
        have hid := (fields_of_unversioned he).1
        rw [hq, Option.filter_some, Option.filter_some, hid]
        split_ifs
        · exact congrArg some he
        · rfl
  · exact kept_unchanged h _

/-- Marking the keys of an owner in memory is disabling the rows with the ids of those that are enabled. -/
theorem unversioned_mark (h : Synced s) {ownerUserId k : String} {r q : KeyRecord}
    (hr : s.keys.runtime.lookup k = some r) (hq : s.table.rows.lookup k = some q)
    (he : unversioned r = unversioned q) :
    unversioned (if ownedBy ownerUserId r then { r with enabled := false } else r) =
      unversioned (if q.id ∈ ((values s.keys.runtime).filter fun r => ownedBy ownerUserId r && r.enabled).map
        (·.id) then { q with enabled := false } else q) := by
  obtain ⟨hid, -, henabled, howner⟩ := fields_of_unversioned he
  have hoff : unversioned { r with enabled := false } = unversioned { q with enabled := false } :=
    congrArg (fun u : KeyRecord => { u with enabled := false }) he
  by_cases hown : ownedBy ownerUserId r = true
  · rw [if_pos hown, hoff]
    split_ifs with hmem
    · rfl
    · -- a key that is not collected is disabled already
      have hdisabled : q.enabled = false := by
        rw [← henabled]
        by_contra hen
        refine hmem (List.mem_map.mpr ⟨r, List.mem_filter.mpr ⟨(mem_values _ _).mpr ⟨k, hr⟩, ?_⟩, hid⟩)
        rw [hown, Bool.true_and]
        simpa using hen
      rw [← hdisabled]
  · rw [if_neg hown, if_neg, he]
    intro hmem
    obtain ⟨r', hmem', hid'⟩ := List.mem_map.mp hmem
    obtain ⟨hvalue, hlive⟩ := List.mem_filter.mp hmem'
    obtain ⟨k', hr'⟩ := (mem_values _ _).mp hvalue
    obtain ⟨q', hq', he'⟩ := h.row hr'
    have hk : k' = k := s.table.id_inj k' k q' q hq' hq (by rw [← (fields_of_unversioned he').1, hid'])
    subst hk
    rw [hr] at hr'
    cases hr'
    exact hown (Bool.and_eq_true_iff.mp hlive).1

theorem kept_disable (h : Synced s) (ownerUserId : String) (fault : Option String) :
    Kept s (disableKeysForOwner s ownerUserId fault) := by
  unfold disableKeysForOwner
  dsimp only
  split_ifs
  · exact kept_unchanged h _
  · cases fault with
    | some e => exact kept_unchanged h _
    | none =>
      refine ⟨synced_iff.mpr fun k => ?_, fun e he => by cases he⟩
      dsimp only [KeyTable.disable]
      rw [lookup_mapVal, lookup_mapVal]
      cases hr : s.keys.runtime.lookup k with
      | none =>
        have hk := synced_iff.mp h k
        rw [hr] at hk
        rw [Option.map_eq_none_iff.mp hk.symm]
        rfl
      | some r =>
        obtain ⟨q, hq, he⟩ := h.row hr
        rw [hq]
        exact congrArg some (unversioned_mark h hr hq he)

theorem Kept.map {α β : Type} {x : KeyStore × Except String α} (h : Kept s x) (f : α → β) :
    Kept s (x.1, x.2.map f) := by
  refine ⟨h.1, fun e he => ?_⟩
  cases hx : x.2 with
  | error e' => exact h.2 e' hx
  | ok a =>
    dsimp only at he
    rw [hx] at he
    cases he

/-- **One call.** -/
theorem kept_serve (h : Synced s) (op : Op) : Kept s (serve cfg s op) := by
  cases op with
  | createIn tenantId ownerUserId name tenantEnabled userTenant draw =>
    exact (kept_createIn h tenantId ownerUserId name tenantEnabled userTenant draw).map _
  | delete id fault => exact (kept_delete h id fault).map _
  | disableKeysForOwner ownerUserId fault => exact (kept_disable h ownerUserId fault).map _

theorem kept_served : ∀ (ops : List Op) {s : KeyStore}, Synced s →
    ∀ x ∈ served cfg s ops, Synced x.2.2 ∧ ∀ e, x.2.1 = .error e → x.2.2 = x.1
  | [], _, _ => by
    intro x hx
    cases hx
  | op :: ops, s, h => by
    intro x hx
    rcases List.mem_cons.mp hx with rfl | hx
    · exact kept_serve h op
    · exact kept_served ops (kept_serve h op).1 x hx

end synced

/-- **Write-through.** From any table on, after each call of any sequence, whatever statements fail: the keys
in memory are those that the table would be loaded to, up to their versions; each lookup and each id occurs
once, in memory and in the table; and a call that returns an error has changed nothing. -/
theorem write_through (cfg : Config) (t : KeyTable) (ops : List Op) :
    ∀ x ∈ served cfg (.load t) ops,
      (∀ k, (x.2.2.keys.runtime.lookup k).map unversioned =
        ((loadKeys x.2.2.table.rows).keys.lookup k).map unversioned) ∧
      Once x.2.2.keys.runtime ∧ Once x.2.2.table.rows ∧ ∀ e, x.2.1 = .error e → x.2.2 = x.1 := by
  intro x hx
  obtain ⟨hsynced, herror⟩ := kept_served ops (synced_load t) x hx
  exact ⟨hsynced, hsynced.once, once_of_keyed x.2.2.table.lookup_eq x.2.2.table.id_inj, herror⟩

/-- Lookups are the keys themselves, and nothing is cached. -/
def plainConfig : Config := ⟨0, 0, fun token => token, fun _ _ => false⟩

/-- A key is created, and the statement that would delete it fails. -/
def failingDelete : List Op :=
  [.createIn "default" none "key" (some true) none fun _ => ⟨"id", "secret", "hash", 0, none⟩,
    .delete "id" (some "database is locked")]

/-- After the failed call the key is in memory, and would be there after a restart. -/
theorem write_through_failed_delete : ∃ x ∈ served plainConfig (.load .empty) failingDelete,
    x.2.1 = .error "database is locked" ∧ x.2.2 = x.1 ∧
      (x.2.2.keys.runtime.lookup "secret").isSome = true ∧
      ((loadKeys x.2.2.table.rows).keys.lookup "secret").isSome = true := by
  have hmem : (served plainConfig (.load .empty) failingDelete)[1] ∈
      served plainConfig (.load .empty) failingDelete := List.getElem_mem _
  obtain ⟨hload, -, -, herror⟩ := write_through plainConfig .empty failingDelete _ hmem
  have hlocked : (served plainConfig (.load .empty) failingDelete)[1].2.1 = .error "database is locked" := rfl
  have hkey : ((served plainConfig (.load .empty) failingDelete)[1].2.2.keys.runtime.lookup "secret").isSome =
      true := by decide
  refine ⟨_, hmem, hlocked, herror _ hlocked, hkey, ?_⟩
  rw [← Option.isSome_map, ← hload, Option.isSome_map, hkey]

end HomeLlmGateway.Storage.WriteThrough
