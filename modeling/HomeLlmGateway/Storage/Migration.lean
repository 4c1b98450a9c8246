import HomeLlmGateway.Lib.Fallible
import HomeLlmGateway.Storage.CacheTransparency

/-! # Migrating the legacy keys

`migrate_legacy_keys` and `load_keys` of `gateway/src/storage/schema.rs`. The rows of the legacy table hold the
tokens themselves, and values of any type; they are read, hashed, and written to a new table in one
transaction, which changes the database as a whole or not at all. Every statement may fail.

The main theorem is `migrated_or_unchanged`; `Migrated` says what becomes of the rows. Salts are drawn by
number, SHA-256 and argon2 are parameters. -/

namespace HomeLlmGateway.Storage.Migration

open HomeLlmGateway.Lib.Assoc HomeLlmGateway.Lib.Fallible HomeLlmGateway.Storage.Cache
open HomeLlmGateway.Storage.Keys (Config Loaded init loadEnabled)
open HomeLlmGateway.Storage.CacheTransparency (Delays authorizeRecord authorizeRecord_sound answer sound_init)

/-! ### The database -/

/-- A value in a column. -/
inductive SqlValue where
  | null
  | integer (v : Int64)
  | real
  | text (s : String)
  /-- not UTF-8 -/
  | badText
  | blob
  deriving DecidableEq

/-- A row of the legacy table. -/
structure LegacyRow where
  id : SqlValue
  key : SqlValue
  name : SqlValue
  createdAt : SqlValue
  enabled : SqlValue

/-- A row of `api_keys`. -/
structure KeyRow where
  id : SqlValue
  lookup : SqlValue
  keyHash : SqlValue
  name : SqlValue
  createdAt : SqlValue
  enabled : SqlValue
  credVersion : SqlValue
  tenantId : SqlValue
  ownerUserId : SqlValue

/-- The columns that `open` adds to a table that does not have them. -/
inductive AddedColumn where
  | credVersion
  | tenantId
  | ownerUserId

def AddedColumn.name : AddedColumn → String
  | .credVersion => "cred_version"
  | .tenantId => "tenant_id"
  | .ownerUserId => "owner_user_id"

inductive Table where
  | legacy (added : List AddedColumn) (rows : List LegacyRow)
  /-- `API_KEY_SCHEMA` -/
  | current (rows : List KeyRow)

def Table.columns : Table → List String
  | .legacy added _ => ["id", "key", "name", "created_at", "enabled"] ++ added.map AddedColumn.name
  | .current _ => ["id", "lookup", "key_hash", "name", "created_at", "enabled", "cred_version", "tenant_id",
      "owner_user_id"]

/-- The tables `api_keys` and `api_keys_legacy`, if they are there. -/
structure Db where
  apiKeys : Option Table
  apiKeysLegacy : Option Table

/-- `rusqlite::Error`. -/
inductive SqlError where
  | failure (message : String)
  | invalidColumnType (index : ℕ)
  | constraintViolation (column : String)

/-- Where the database may fail. -/
inductive Statement where
  | tableInfo
  | select
  /-- the step to the row `i` of a query, or past the last one -/
  | fetch (i : ℕ)
  | beginTransaction
  | rename
  | createTable
  | prepareInsert
  | insert (i : ℕ)
  | drop
  | commit

/-- The error of a statement, if it fails. -/
abbrev Faults := Statement → Option String

def Faults.none : Faults := fun _ => .none

def attempt (fault : Faults) (s : Statement) : Except SqlError Unit :=
  match fault s with
  | .none => .ok ()
  | some message => .error (.failure message)

/-- `get::<_, String>`. -/
def getString (index : ℕ) : SqlValue → Except SqlError String
  | .text s => .ok s
  | _ => .error (.invalidColumnType index)

/-- `get::<_, i64>`. -/
def getInt64 (index : ℕ) : SqlValue → Except SqlError Int64
  | .integer v => .ok v
  | _ => .error (.invalidColumnType index)

/-- `get::<_, Option<String>>`. -/
def getOptString (index : ℕ) : SqlValue → Except SqlError (Option String)
  | .null => .ok none
  | v => (getString index v).map some

/-- `get::<_, Option<i64>>`. -/
def getOptInt64 (index : ℕ) : SqlValue → Except SqlError (Option Int64)
  | .null => .ok none
  | v => (getInt64 index v).map some

/-- The rows of a query, the row `i` read with `read i`. -/
def readAll {α β : Type} (fault : Faults) (read : ℕ → α → Except SqlError β) (rows : List α) :
    Except SqlError (List β) := do
  let values ← traverseFrom (fun i row => do
    attempt fault (.fetch i)
    read i row) 0 rows
  -- past the last row
  attempt fault (.fetch rows.length)
  pure values

/-- `table_has_column`. -/
def tableHasColumn (fault : Faults) (table : Option Table) (column : String) : Except SqlError Bool := do
  attempt fault .tableInfo
  pure (table.any fun t => column ∈ t.columns)

/-! ### `migrate_legacy_keys` -/

/-- What is read of a legacy row, its token hashed. -/
structure Hashed where
  id : String
  lookup : String
  keyHash : String
  name : String
  createdAt : Int64
  enabled : Int64

section migrate

variable (cfg : Config) (hashArgon2 : ℕ → String → String) (fault : Faults)

def readLegacyRow (i : ℕ) (row : LegacyRow) : Except SqlError Hashed := do
  let id ← getString 0 row.id
  let plaintext ← getString 1 row.key
  let name ← getString 2 row.name
  let createdAt ← getInt64 3 row.createdAt
  let enabled ← getInt64 4 row.enabled
  pure ⟨id, cfg.lookupOf plaintext, hashArgon2 i plaintext, name, createdAt, enabled⟩

/-- `SELECT id, key, name, created_at, enabled FROM api_keys`. -/
def readLegacyRows (db : Db) : Except SqlError (List Hashed) := do
  attempt fault .select
  match db.apiKeys with
  | some (.legacy _ rows) => readAll fault (readLegacyRow cfg hashArgon2) rows
  | some (.current _) => .error (.failure "no such column: key")
  | none => .error (.failure "no such table: api_keys")

/-- `ALTER TABLE api_keys RENAME TO api_keys_legacy`. -/
def rename (db : Db) : Except SqlError Db := do
  attempt fault .rename
  match db.apiKeys, db.apiKeysLegacy with
  | some table, none => pure ⟨none, some table⟩
  | none, _ => .error (.failure "no such table: api_keys")
  | some _, some _ => .error (.failure "there is already another table or index with this name: api_keys_legacy")

/-- `API_KEY_SCHEMA`: `CREATE TABLE IF NOT EXISTS`. -/
def createTable (db : Db) : Except SqlError Db := do
  attempt fault .createTable
  pure { db with apiKeys := db.apiKeys.or (some (.current [])) }

/-- The row that `INSERT` makes of it; the other columns get their defaults. -/
def Hashed.row (h : Hashed) : KeyRow where
  id := .text h.id
  lookup := .text h.lookup
  keyHash := .text h.keyHash
  name := .text h.name
  createdAt := .integer h.createdAt
  enabled := .integer h.enabled
  credVersion := .integer 1
  tenantId := .text "default"
  ownerUserId := .null

/-- `INSERT INTO api_keys`, whose id and lookup are unique. -/
def insertRow (i : ℕ) (db : Db) (h : Hashed) : Except SqlError Db := do
  attempt fault (.insert i)
  match db.apiKeys with
  | some (.current rows) =>
    if rows.any (·.id = h.row.id) then .error (.constraintViolation "api_keys.id")
    else if rows.any (·.lookup = h.row.lookup) then .error (.constraintViolation "api_keys.lookup")
    else pure { db with apiKeys := some (.current (rows ++ [h.row])) }
  | _ => .error (.failure "no such table: api_keys")

def insertRows (db : Db) (rows : List Hashed) : Except SqlError Db := foldFrom (insertRow fault) 0 db rows

/-- `DROP TABLE api_keys_legacy`. -/
def dropLegacy (db : Db) : Except SqlError Db := do
  attempt fault .drop
  match db.apiKeysLegacy with
  | some _ => pure { db with apiKeysLegacy := none }
  | none => .error (.failure "no such table: api_keys_legacy")

/-- The transaction, with the database as it leaves it. -/
def transaction (db : Db) (rows : List Hashed) : Except SqlError Db := do
  attempt fault .beginTransaction
  let db ← rename fault db
  let db ← createTable fault db
  attempt fault .prepareInsert
  let db ← insertRows fault db rows
  let db ← dropLegacy fault db
  attempt fault .commit
  pure db

/-- `migrate_legacy_keys`. A `VACUUM` follows, whose failure is only logged. -/
def migrateLegacyKeys (db : Db) : Db × Except SqlError ℕ :=
  match tableHasColumn fault db.apiKeys "lookup" with
  | .error e => (db, .error e)
  | .ok true => (db, .ok 0)
  | .ok false =>
    match readLegacyRows cfg hashArgon2 fault db with
    | .error e => (db, .error e)
    | .ok rows =>
      match transaction fault db rows with
      -- rolled back
      | .error e => (db, .error e)
      | .ok db' => (db', .ok rows.length)

end migrate

/-! ### `load_keys` -/

def readKeyRow (row : KeyRow) : Except SqlError KeyRecord := do
  let id ← getString 0 row.id
  let lookup ← getString 1 row.lookup
  let keyHash ← getString 2 row.keyHash
  let name ← getString 3 row.name
  let createdAt ← getInt64 4 row.createdAt
  let enabled ← getInt64 5 row.enabled
  let credVersion ← getOptInt64 6 row.credVersion
  let tenantId ← getString 7 row.tenantId
  let ownerUserId ← getOptString 8 row.ownerUserId
  pure ⟨id, keyHash, lookup, name, createdAt.toUInt64.toNat, enabled ≠ 0,
    (max (credVersion.getD 1) 1).toUInt64.toNat, tenantId, ownerUserId⟩

/-- `load_keys`. -/
def loadKeys (fault : Faults) (db : Db) : Except SqlError (HashMap String KeyRecord) := do
  attempt fault .select
  match db.apiKeys with
  | some (.current rows) =>
    let records ← readAll fault (fun _ => readKeyRow) rows
    pure (insertAll ∅ (records.map fun r => (r.lookup, r)))
  | some (.legacy _ _) => .error (.failure "no such column: lookup")
  | none => .error (.failure "no such table: api_keys")

/-! ### What the steps do -/

section steps

variable {cfg : Config} {hashArgon2 : ℕ → String → String} {fault : Faults} {db db' : Db}

/-- The row `row` is read as `h`, with this token. -/
structure ReadAs (cfg : Config) (hashArgon2 : ℕ → String → String) (row : LegacyRow) (h : Hashed)
    (plaintext : String) : Prop where
  id : row.id = .text h.id
  key : row.key = .text plaintext
  name : row.name = .text h.name
  createdAt : row.createdAt = .integer h.createdAt
  enabled : row.enabled = .integer h.enabled
  lookup : h.lookup = cfg.lookupOf plaintext
  keyHash : ∃ i, h.keyHash = hashArgon2 i plaintext

theorem getString_ok {index : ℕ} {v : SqlValue} {s : String} (h : getString index v = .ok s) : v = .text s := by
  cases v <;> cases h
  rfl

theorem getInt64_ok {index : ℕ} {v : SqlValue} {n : Int64} (h : getInt64 index v = .ok n) : v = .integer n := by
  cases v <;> cases h
  rfl

theorem readLegacyRow_ok {i : ℕ} {row : LegacyRow} {h : Hashed}
    (hread : readLegacyRow cfg hashArgon2 i row = .ok h) : ∃ p, ReadAs cfg hashArgon2 row h p := by
  obtain ⟨id, hid, hread⟩ := bind_eq_ok hread
  obtain ⟨plaintext, hkey, hread⟩ := bind_eq_ok hread
  obtain ⟨name, hname, hread⟩ := bind_eq_ok hread
  obtain ⟨createdAt, hcreated, hread⟩ := bind_eq_ok hread
  obtain ⟨enabled, henabled, hread⟩ := bind_eq_ok hread
  cases hread
  exact ⟨plaintext, getString_ok hid, getString_ok hkey, getString_ok hname, getInt64_ok hcreated,
    getInt64_ok henabled, rfl, i, rfl⟩

theorem readLegacyRows_ok {added : List AddedColumn} {rows : List LegacyRow} {hs : List Hashed}
    (hdb : db.apiKeys = some (.legacy added rows)) (h : readLegacyRows cfg hashArgon2 fault db = .ok hs) :
    List.Forall₂ (fun row h => ∃ p, ReadAs cfg hashArgon2 row h p) rows hs := by
  obtain ⟨-, -, h⟩ := bind_eq_ok h
  rw [hdb] at h
  obtain ⟨values, hvalues, h⟩ := bind_eq_ok h
  obtain ⟨-, -, h⟩ := bind_eq_ok h
  cases h
  refine (traverseFrom_ok hvalues).imp fun row h hrow => ?_
  obtain ⟨i, hrow⟩ := hrow
  obtain ⟨-, -, hrow⟩ := bind_eq_ok hrow
  exact readLegacyRow_ok hrow

/-- The new table after the rows `hs`, whose lookups differ. -/
structure Inserted (legacy : Option Table) (hs : List Hashed) (db : Db) : Prop where
  apiKeys : db.apiKeys = some (.current (hs.map Hashed.row))
  apiKeysLegacy : db.apiKeysLegacy = legacy
  nodup : (hs.map Hashed.lookup).Nodup

theorem inserted_step {legacy : Option Table} (i : ℕ) (before : List Hashed) (h : Hashed) (db db' : Db)
    (hI : Inserted legacy before db) (hinsert : insertRow fault i db h = .ok db') :
    Inserted legacy (before ++ [h]) db' := by
  obtain ⟨-, -, hinsert⟩ := bind_eq_ok hinsert
  rw [hI.apiKeys] at hinsert
  dsimp only at hinsert
  split_ifs at hinsert with hid hlookup
  cases hinsert
  refine ⟨by rw [List.map_append]; rfl, hI.apiKeysLegacy, ?_⟩
  rw [List.map_append, List.map_singleton]
  refine hI.nodup.append (List.nodup_singleton _) ?_
  rw [List.disjoint_singleton]
  intro hmem
  obtain ⟨h0, hh0, he⟩ := List.mem_map.mp hmem
  refine hlookup (List.any_eq_true.mpr ⟨h0.row, List.mem_map_of_mem hh0, ?_⟩)
  exact decide_eq_true (congrArg SqlValue.text he)

theorem transaction_ok {hs : List Hashed} (h : transaction fault db hs = .ok db') : Inserted none hs db' := by
  obtain ⟨-, -, h⟩ := bind_eq_ok h
  obtain ⟨db1, h1, h⟩ := bind_eq_ok h
  obtain ⟨db2, h2, h⟩ := bind_eq_ok h
  obtain ⟨-, -, h⟩ := bind_eq_ok h
  obtain ⟨db3, h3, h⟩ := bind_eq_ok h
  obtain ⟨db4, h4, h⟩ := bind_eq_ok h
  obtain ⟨-, -, h⟩ := bind_eq_ok h
  cases h
  -- the old table is out of the way, and the new one empty
  have hrenamed : db1.apiKeys = none := by
    obtain ⟨-, -, h1⟩ := bind_eq_ok h1
    split at h1 <;> cases h1
    rfl
  have hcreated : Inserted db2.apiKeysLegacy [] db2 := by
    obtain ⟨-, -, h2⟩ := bind_eq_ok h2
    cases h2
    refine ⟨?_, rfl, List.nodup_nil⟩
    rw [hrenamed]
    rfl
  have hinserted := foldFrom_ok inserted_step hcreated h3
  obtain ⟨-, -, h4⟩ := bind_eq_ok h4
  split at h4 <;> cases h4
  exact ⟨hinserted.apiKeys, rfl, hinserted.nodup⟩

end steps

/-! ### What is loaded -/

/-- The record that `load_keys` makes of the row. -/
def Hashed.record (h : Hashed) : KeyRecord :=
  ⟨h.id, h.keyHash, h.lookup, h.name, h.createdAt.toUInt64.toNat, h.enabled ≠ 0, 1, "default", none⟩

theorem readKeyRow_row (h : Hashed) : readKeyRow h.row = .ok h.record := rfl

/-- The records by their lookups. -/
def recordsOf (hs : List Hashed) : HashMap String KeyRecord :=
  insertAll ∅ ((hs.map Hashed.record).map fun r => (r.lookup, r))

theorem loadKeys_eq {legacy : Option Table} {hs : List Hashed} {db : Db} (h : Inserted legacy hs db) :
    loadKeys .none db = .ok (recordsOf hs) := by
  have hread : traverseFrom (fun i row => do
      attempt .none (.fetch i)
      readKeyRow row) 0 (hs.map Hashed.row) = .ok (hs.map Hashed.record) := by
    refine traverseFrom_of_forall₂ ?_ 0
    rw [List.forall₂_map_left_iff, List.forall₂_map_right_iff]
    exact List.forall₂_same.mpr fun h _ j => readKeyRow_row h
  unfold loadKeys readAll
  rw [h.apiKeys]
  dsimp only
  rw [hread]
  rfl

section loaded

variable {hs : List Hashed}

theorem keys_records (hs : List Hashed) :
    ((hs.map Hashed.record).map fun r => (r.lookup, r)).map Prod.fst = hs.map Hashed.lookup := by
  rw [List.map_map, List.map_map]
  rfl

theorem mem_of_lookup_recordsOf {k : String} {r : KeyRecord} (h : (recordsOf hs).lookup k = some r) :
    k = r.lookup ∧ ∃ h0 ∈ hs, r = h0.record := by
  rcases mem_of_lookup_insertAll h with hmem | hnone
  · obtain ⟨r', hr', he⟩ := List.mem_map.mp hmem
    cases he
    obtain ⟨h0, hh0, rfl⟩ := List.mem_map.mp hr'
    exact ⟨rfl, h0, hh0, rfl⟩
  · cases hnone

/-- What `load_keys` reads of the rows. -/
def loadedOf (hs : List Hashed) : Loaded where
  keys := recordsOf hs
  lookup_eq h := (mem_of_lookup_recordsOf h).1.symm
  credVersion_eq h := by
    obtain ⟨-, h, -, rfl⟩ := mem_of_lookup_recordsOf h
    rfl

theorem lookup_recordsOf (hnodup : (hs.map Hashed.lookup).Nodup) {h : Hashed} (hh : h ∈ hs) :
    (recordsOf hs).lookup h.lookup = some h.record :=
  lookup_insertAll_of_mem _ ∅ (by rw [keys_records]; exact hnodup)
    (List.mem_map.mpr ⟨h.record, List.mem_map_of_mem hh, rfl⟩)

theorem values_recordsOf (hnodup : (hs.map Hashed.lookup).Nodup) :
    (values (recordsOf hs)).Perm (hs.map Hashed.record) := by
  have hvalues : ((hs.map Hashed.record).map fun r => (r.lookup, r)).map Prod.snd = hs.map Hashed.record := by
    rw [List.map_map]
    exact List.map_id _
  rw [← hvalues]
  exact values_insertAll_perm (by rw [keys_records]; exact hnodup)

end loaded

/-! ### The migration -/

/-- The record is that of the legacy row, and its key authorises the old token and no other one of `T`. -/
structure SameKey (cfg : Config) (T : Set String) (l : Loaded) (row : LegacyRow) (r : KeyRecord) : Prop where
  id : row.id = .text r.id
  name : row.name = .text r.name
  createdAt : ∃ n, row.createdAt = .integer n ∧ r.createdAt = n.toUInt64.toNat
  enabled : ∃ n, row.enabled = .integer n ∧ (r.enabled = true ↔ n ≠ 0)
  tenantId : r.tenantId = "default"
  ownerUserId : r.ownerUserId = none
  authorises : ∃ plaintext, row.key = .text plaintext ∧ ∀ token ∈ T, ∀ delays,
    (authorizeRecord cfg (init l).store token delays).2 = some r ↔ token = plaintext ∧ r.enabled = true

/-- What a migration that succeeds has made of the legacy rows. -/
structure Migrated (cfg : Config) (hashArgon2 : ℕ → String → String) (T : Set String) (rows : List LegacyRow)
    (db : Db) : Prop where
  gone : db.apiKeysLegacy = none
  /-- one record for each row, and no other -/
  loaded : ∃ l : Loaded, loadKeys .none db = .ok l.keys ∧
    ∃ records, List.Forall₂ (SameKey cfg T l) rows records ∧ (values l.keys).Perm records
  again : ∀ fault, (migrateLegacyKeys cfg hashArgon2 fault db).1 = db

section migrated

variable {cfg : Config} {hashArgon2 : ℕ → String → String} {T : Set String}

theorem authorize_iff (hT : Set.InjOn cfg.lookupOf T) (l : Loaded) {token : String} (ht : token ∈ T)
    (delays : Delays) (r : KeyRecord) : (authorizeRecord cfg (init l).store token delays).2 = some r ↔
      l.keys.lookup (cfg.lookupOf token) = some r ∧ r.enabled = true ∧ cfg.verifyArgon2 token r.keyHash = true := by
  rw [(authorizeRecord_sound (sound_init l) hT ht delays).1]
  unfold answer loadEnabled
  rw [Option.filter_eq_some_iff, Option.filter_eq_some_iff, and_assoc]
  rfl

theorem sameKey_of_read (hT : Set.InjOn cfg.lookupOf T)
    (hargon2 : ∀ i, ∀ p ∈ T, cfg.verifyArgon2 p (hashArgon2 i p) = true) {hs : List Hashed}
    (hnodup : (hs.map Hashed.lookup).Nodup) {row : LegacyRow} {h : Hashed} {p : String} (hh : h ∈ hs)
    (hread : ReadAs cfg hashArgon2 row h p) (hp : p ∈ T) : SameKey cfg T (loadedOf hs) row h.record := by
  refine ⟨hread.id, hread.name, ⟨_, hread.createdAt, rfl⟩, ⟨_, hread.enabled, decide_eq_true_iff⟩, rfl, rfl,
    p, hread.key, fun token ht delays => ?_⟩
  rw [authorize_iff hT _ ht]
  constructor
  · rintro ⟨hlookup, hen, -⟩
    refine ⟨hT ht hp ?_, hen⟩
    rw [← hread.lookup]
    exact (mem_of_lookup_recordsOf hlookup).1
  · rintro ⟨rfl, hen⟩
    refine ⟨?_, hen, ?_⟩
    · rw [← hread.lookup]
      exact lookup_recordsOf hnodup hh
    · obtain ⟨i, hi⟩ := hread.keyHash
      show cfg.verifyArgon2 token h.keyHash = true
      rw [hi]
      exact hargon2 i token ht

theorem migrate_current {legacy : Option Table} {hs : List Hashed} {db : Db} (h : Inserted legacy hs db)
    (fault : Faults) : (migrateLegacyKeys cfg hashArgon2 fault db).1 = db := by
  unfold migrateLegacyKeys tableHasColumn attempt
  rw [h.apiKeys]
  cases fault .tableInfo with
  | none => rfl
  | some e => rfl

theorem migrated_of_inserted (hT : Set.InjOn cfg.lookupOf T)
    (hargon2 : ∀ i, ∀ p ∈ T, cfg.verifyArgon2 p (hashArgon2 i p) = true) {rows : List LegacyRow}
    (hrows : ∀ row ∈ rows, ∀ p, row.key = .text p → p ∈ T) {hs : List Hashed} {db : Db}
    (hread : List.Forall₂ (fun row h => ∃ p, ReadAs cfg hashArgon2 row h p) rows hs)
    (h : Inserted none hs db) : Migrated cfg hashArgon2 T rows db := by
  refine ⟨h.apiKeysLegacy, ⟨loadedOf hs, loadKeys_eq h, hs.map Hashed.record, ?_, values_recordsOf h.nodup⟩,
    migrate_current h⟩
  obtain ⟨hlength, hget⟩ := List.forall₂_iff_get.mp hread
  rw [List.forall₂_map_right_iff]
  refine List.forall₂_iff_get.mpr ⟨hlength, fun i h1 h2 => ?_⟩
  obtain ⟨p, hp⟩ := hget i h1 h2
  exact sameKey_of_read hT hargon2 h.nodup (List.get_mem hs _) hp (hrows _ (List.get_mem rows _) p hp.key)

end migrated

/-- **The migration.** Whatever the legacy rows hold and wherever the database fails: `migrate_legacy_keys`
returns an error and leaves the tables as they were, or it returns the number of the rows and they are migrated.
No two of the tokens in question have the same SHA-256, and argon2 accepts what was hashed. -/
theorem migrated_or_unchanged (cfg : Config) (hashArgon2 : ℕ → String → String) (T : Set String)
    (hT : Set.InjOn cfg.lookupOf T) (hargon2 : ∀ i, ∀ p ∈ T, cfg.verifyArgon2 p (hashArgon2 i p) = true)
    (fault : Faults) (db : Db) (added : List AddedColumn) (rows : List LegacyRow)
    (hdb : db.apiKeys = some (.legacy added rows))
    (hrows : ∀ row ∈ rows, ∀ p, row.key = .text p → p ∈ T) :
    ((∃ e, (migrateLegacyKeys cfg hashArgon2 fault db).2 = .error e) ∧
        (migrateLegacyKeys cfg hashArgon2 fault db).1 = db) ∨
      (migrateLegacyKeys cfg hashArgon2 fault db).2 = .ok rows.length ∧
        Migrated cfg hashArgon2 T rows (migrateLegacyKeys cfg hashArgon2 fault db).1 := by
  unfold migrateLegacyKeys
  cases htable : tableHasColumn fault db.apiKeys "lookup" with
  | error e => exact Or.inl ⟨⟨e, rfl⟩, rfl⟩
  | ok found =>
    have hold : found = false := by
      obtain ⟨-, -, h⟩ := bind_eq_ok htable
      rw [hdb] at h
      cases h
      have hadded : ∀ c ∈ added, AddedColumn.name c ≠ "lookup" := fun c _ => by cases c <;> decide
      simpa [Table.columns] using hadded
    subst hold
    dsimp only
    cases hread : readLegacyRows cfg hashArgon2 fault db with
    | error e => exact Or.inl ⟨⟨e, rfl⟩, rfl⟩
    | ok hs =>
      dsimp only
      cases htransaction : transaction fault db hs with
      | error e => exact Or.inl ⟨⟨e, rfl⟩, rfl⟩
      | ok db' =>
        have hrowsread := readLegacyRows_ok hdb hread
        refine Or.inr ⟨?_, migrated_of_inserted hT hargon2 hrows hrowsread (transaction_ok htransaction)⟩
        rw [hrowsread.length_eq]

/-- Two legacy keys, the second of them disabled. -/
def twoRows : List LegacyRow :=
  [⟨.text "abc123", .text "sk-abc", .text "old", .integer 1700000000, .integer 1⟩,
    ⟨.text "def456", .text "sk-xyz", .text "older", .integer 1600000000, .integer 0⟩]

open HomeLlmGateway.Storage.Revocation in
/-- Argon2 with one salt for each of the tokens. -/
def exampleHash (_ : ℕ) (p : String) : String := if p = "sk-abc" then abcHash else xyzHash

open HomeLlmGateway.Storage.Revocation in
/-- They are migrated when nothing fails. -/
theorem migrated_or_unchanged_two : ∃ db,
    migrateLegacyKeys exampleConfig exampleHash .none ⟨some (.legacy [.credVersion] twoRows), none⟩ = (db, .ok 2) ∧
      Migrated exampleConfig exampleHash {"sk-abc", "sk-xyz"} twoRows db := by
  have hT : Set.InjOn exampleConfig.lookupOf {"sk-abc", "sk-xyz"} := by
    rintro t (rfl | rfl) t' (rfl | rfl) h
    · rfl
    · exact absurd h (by decide)
    · exact absurd h (by decide)
    · rfl
  have hargon2 : ∀ i, ∀ p ∈ ({"sk-abc", "sk-xyz"} : Set String),
      exampleConfig.verifyArgon2 p (exampleHash i p) = true := by
    rintro i p (rfl | rfl)
    · show exampleConfig.verifyArgon2 "sk-abc" (exampleHash 0 "sk-abc") = true
      decide
    · show exampleConfig.verifyArgon2 "sk-xyz" (exampleHash 0 "sk-xyz") = true
      decide
  have hrows : ∀ row ∈ twoRows, ∀ p, row.key = .text p → p ∈ ({"sk-abc", "sk-xyz"} : Set String) := by
    intro row hrow p hp
    simp only [twoRows, List.mem_cons, List.not_mem_nil, or_false] at hrow
    rcases hrow with rfl | rfl
    · cases hp
      exact Or.inl rfl
    · cases hp
      exact Or.inr rfl
  rcases migrated_or_unchanged exampleConfig exampleHash {"sk-abc", "sk-xyz"} hT hargon2 .none
    ⟨some (.legacy [.credVersion] twoRows), none⟩ [.credVersion] twoRows rfl hrows with ⟨⟨e, he⟩, -⟩ | ⟨hok, hdb⟩
  · cases he
  · exact ⟨_, Prod.ext rfl hok, hdb⟩

end HomeLlmGateway.Storage.Migration
