import HomeLlmGateway.Lib.Runs
import HomeLlmGateway.Storage.Cache

/-! # API keys

The calls on the key store (`gateway/src/storage/keys.rs`): `authorize_record` with the protocol of
`VerifiedCache::verify_or_cached`, `create_in`, `delete` and `disable_keys_for_owner`. Any number of them
run at once. A step is one section under a lock, one atomic operation, one answer of the database or one
run of argon2, so a run is any interleaving of the calls. -/

namespace HomeLlmGateway.Storage.Keys

open HomeLlmGateway.Lib.Assoc HomeLlmGateway.Storage.Cache

/-- The settings of the cache, and what the store uses of the crates `sha2` and `argon2`. -/
structure Config where
  maxEntries : ℕ
  ttl : ℕ
  lookupOf : String → String
  verifyArgon2 : String → String → Bool

/-! ### The calls -/

/-- Where a call of `authorize_record` stands. -/
inductive AuthorizePc where
  | start
  /-- no cache: a record was read, argon2 comes -/
  | probingUncached (record : KeyRecord)
  /-- the fast path has read a record -/
  | checking (record : KeyRecord)
  /-- at the top of the loop -/
  | taking
  | waiting (slot : ℕ)
  /-- holds the slot, which may not be the current one any more -/
  | confirming (slot : ℕ)
  | retrying (slot : ℕ)
  | reading (slot : ℕ)
  | rechecking (slot : ℕ) (record : KeyRecord)
  | probing (slot : ℕ) (record : KeyRecord)
  | putting (slot : ℕ) (record : KeyRecord)
  /-- drops its `FlightGuard`, then its lock -/
  | cleaning (slot : ℕ) (result : Option KeyRecord)
  | unlocking (slot : ℕ) (result : Option KeyRecord)
  | done (result : Option KeyRecord)
  deriving DecidableEq

/-- Where a call of `create_in` stands. -/
inductive CreatePc where
  | start
  | inserting (attempt : ℕ)
  | bumping (record : KeyRecord) (plaintext : String)
  | publishing (record : KeyRecord) (plaintext : String)
  | failed (error : String)
  | done (record : KeyRecord) (plaintext : String)
  deriving DecidableEq

/-- Where a call of `delete` stands. -/
inductive DeletePc where
  | start
  | deletingRow
  | retaining
  | invalidating
  | bumping
  | failed (error : String)
  | done (removed : Bool)
  deriving DecidableEq

/-- Where a call of `disable_keys_for_owner` stands. -/
inductive DisablePc where
  | start
  | updatingRows (ids : List String)
  | marking (ids : List String)
  | bumping (ids : List String)
  | invalidating (count : ℕ) (rest : List String)
  | failed (error : String)
  | done (count : ℕ)
  deriving DecidableEq

inductive Call where
  | authorizeRecord (token : String) (pc : AuthorizePc)
  | createIn (tenantId : String) (ownerUserId : Option String) (name : String) (pc : CreatePc)
  | delete (id : String) (pc : DeletePc)
  | disableKeysForOwner (ownerUserId : String) (pc : DisablePc)
  deriving DecidableEq

/-- What the calls share. -/
structure Store where
  /-- `runtime`, by lookup -/
  runtime : HashMap String KeyRecord
  /-- `cred_generation`. It has 64 bits; a process does not change keys `2 ^ 64` times. -/
  generation : ℕ
  verified : VerifiedCache
  /-- the next address for a slot, and which slots are locked -/
  nextSlot : ℕ
  locked : ℕ → Bool
  now : ℕ

/-- What the environment answers: the tables of tenants and users, the random source and the insertion of
a key, the database. -/
inductive Answer where
  | silent
  | tables (tenantEnabled : Option Bool) (userTenant : Option (Option String))
  | collision
  | inserted (id plaintext keyHash : String) (createdAt : ℕ)
  | database (error : Option String)
  deriving DecidableEq

/-! ### `authorize_record` -/

/-- `load_record`, if the record is enabled. -/
def loadEnabled (cfg : Config) (st : Store) (token : String) : Option KeyRecord :=
  (st.runtime.lookup (cfg.lookupOf token)).filter (·.enabled)

def Store.unlock (st : Store) (slot : ℕ) : Store :=
  { st with locked := Function.update st.locked slot false }

def authorizeStep (cfg : Config) (st : Store) (token : String) :
    AuthorizePc → Option (Store × AuthorizePc)
  | .start =>
    match loadEnabled cfg st token with
    | none => some (st, .done none)
    | some record =>
      if cfg.maxEntries = 0 then some (st, .probingUncached record) else some (st, .checking record)
  | .probingUncached record =>
    some (st, .done (if cfg.verifyArgon2 token record.keyHash then some record else none))
  | .checking record =>
    if st.verified.isCached cfg.ttl st.now (cfg.lookupOf token) record.credVersion then
      some (st, .done (some record))
    else some (st, .taking)
  | .taking =>
    let (slot, verified) := st.verified.flight (cfg.lookupOf token) st.nextSlot
    some ({ st with verified := verified, nextSlot := st.nextSlot + 1 }, .waiting slot)
  | .waiting slot =>
    if st.locked slot then none
    else some ({ st with locked := Function.update st.locked slot true }, .confirming slot)
  | .confirming slot =>
    if st.verified.isCurrent (cfg.lookupOf token) slot then some (st, .reading slot)
    else some (st, .retrying slot)
  | .retrying slot => some (st.unlock slot, .taking)
  | .reading slot =>
    match loadEnabled cfg st token with
    | none => some (st, .cleaning slot none)
    | some record => some (st, .rechecking slot record)
  | .rechecking slot record =>
    if st.verified.isCached cfg.ttl st.now (cfg.lookupOf token) record.credVersion then
      some (st, .cleaning slot (some record))
    else some (st, .probing slot record)
  | .probing slot record =>
    if cfg.verifyArgon2 token record.keyHash then some (st, .putting slot record)
    else some (st, .cleaning slot none)
  | .putting slot record =>
    some ({ st with verified :=
      st.verified.put cfg.maxEntries st.now (cfg.lookupOf token) record }, .cleaning slot (some record))
  | .cleaning slot result =>
    some ({ st with verified := st.verified.removeIfCurrent (cfg.lookupOf token) slot },
      .unlocking slot result)
  | .unlocking slot result => some (st.unlock slot, .done result)
  | .done _ => none

/-! ### `create_in` -/

/-- What `create_in` asks of the tenant and of the owner. -/
def createCheck (tenantId : String) (ownerUserId : Option String) (tenantEnabled : Option Bool)
    (userTenant : Option (Option String)) : Except String Unit :=
  match tenantEnabled with
  | none => .error "tenant not found"
  | some false => .error "tenant is disabled"
  | some true =>
    match ownerUserId, userTenant with
    | none, _ => .ok ()
    | some _, none => .error "key owner not found"
    | some _, some tenant =>
      if tenant = some tenantId then .ok () else .error "key owner must belong to the same tenant"

def createStep (cfg : Config) (st : Store) (tenantId : String) (ownerUserId : Option String)
    (name : String) (a : Answer) : CreatePc → Option (Store × CreatePc)
  | .start =>
    match a with
    | .tables tenantEnabled userTenant =>
      match createCheck tenantId ownerUserId tenantEnabled userTenant with
      | .ok () => some (st, .inserting 0)
      | .error e => some (st, .failed e)
    | _ => none
  | .inserting attempt =>
    match a with
    | .inserted id plaintext keyHash createdAt =>
      some (st, .bumping ⟨id, keyHash, cfg.lookupOf plaintext, name, createdAt, true, 0, tenantId,
        ownerUserId⟩ plaintext)
    | .collision =>
      if attempt + 1 < 3 then some (st, .inserting (attempt + 1))
      else some (st, .failed "could not allocate a unique key id")
    | .database (some e) => some (st, .failed e)
    | _ => none
  | .bumping record plaintext =>
    some ({ st with generation := st.generation + 1 },
      .publishing { record with credVersion := st.generation + 1 } plaintext)
  | .publishing record plaintext =>
    some ({ st with runtime := st.runtime.insert record.lookup record }, .done record plaintext)
  | .failed _ | .done _ _ => none

/-! ### `delete` and `disable_keys_for_owner` -/

def deleteStep (st : Store) (id : String) (a : Answer) : DeletePc → Option (Store × DeletePc)
  | .start =>
    if (values st.runtime).any (·.id = id) then some (st, .deletingRow) else some (st, .done false)
  | .deletingRow =>
    match a with
    | .database none => some (st, .retaining)
    | .database (some e) => some (st, .failed e)
    | _ => none
  | .retaining =>
    let st' := { st with runtime := retain (fun _ r => r.id ≠ id) st.runtime }
    if (values st.runtime).any (·.id = id) then some (st', .invalidating) else some (st', .done false)
  | .invalidating => some ({ st with verified := st.verified.invalidateById id }, .bumping)
  | .bumping => some ({ st with generation := st.generation + 1 }, .done true)
  | .failed _ | .done _ => none

/-- Whether the key belongs to the user. -/
def ownedBy (ownerUserId : String) (r : KeyRecord) : Bool := r.ownerUserId = some ownerUserId

def disableStep (st : Store) (ownerUserId : String) (a : Answer) :
    DisablePc → Option (Store × DisablePc)
  | .start =>
    let ids := ((values st.runtime).filter fun r => ownedBy ownerUserId r && r.enabled).map (·.id)
    if ids = [] then some (st, .done 0) else some (st, .updatingRows ids)
  | .updatingRows ids =>
    match a with
    | .database none => some (st, .marking ids)
    | .database (some e) => some (st, .failed e)
    | _ => none
  | .marking ids =>
    let mark := fun (_ : String) r =>
      if ownedBy ownerUserId r then { r with enabled := false } else r
    some ({ st with runtime := mapVal mark st.runtime }, .bumping ids)
  | .bumping ids =>
    some ({ st with generation := st.generation + 1 }, .invalidating ids.length ids)
  | .invalidating count (id :: rest) =>
    some ({ st with verified := st.verified.invalidateById id }, .invalidating count rest)
  | .invalidating count [] => some (st, .done count)
  | .failed _ | .done _ => none

/-! ### The system -/

structure State where
  store : Store
  calls : HashMap ℕ Call

/-- What `load_keys` reads: by their lookups, the keys of the database. The column `cred_version` has its
default 1, no statement of the store writes it. -/
structure Loaded where
  keys : HashMap String KeyRecord
  lookup_eq : ∀ {k r}, keys.lookup k = some r → r.lookup = k
  credVersion_eq : ∀ {k r}, keys.lookup k = some r → r.credVersion = 1

/-- `load_keys`, from the rows of `api_keys` by their lookups. -/
def loadKeys (rows : HashMap String KeyRecord) : Loaded where
  keys := mapVal (fun lookup r => { r with lookup := lookup, credVersion := 1 }) rows
  lookup_eq h := by
    rw [lookup_mapVal] at h
    obtain ⟨r, -, rfl⟩ := Option.map_eq_some_iff.mp h
    rfl
  credVersion_eq h := by
    rw [lookup_mapVal] at h
    obtain ⟨r, -, rfl⟩ := Option.map_eq_some_iff.mp h
    rfl

def init (l : Loaded) : State where
  store := ⟨l.keys, 1, .new, 0, fun _ => false, 0⟩
  calls := ∅

/-- A new call, at its start. -/
inductive Request where
  | authorizeRecord (token : String)
  | createIn (tenantId : String) (ownerUserId : Option String) (name : String)
  | delete (id : String)
  | disableKeysForOwner (ownerUserId : String)
  deriving DecidableEq

def Request.call : Request → Call
  | .authorizeRecord token => .authorizeRecord token .start
  | .createIn tenantId ownerUserId name => .createIn tenantId ownerUserId name .start
  | .delete id => .delete id .start
  | .disableKeysForOwner ownerUserId => .disableKeysForOwner ownerUserId .start

inductive Label where
  /-- the call `i` begins -/
  | start (i : ℕ) (request : Request)
  /-- it goes on -/
  | step (i : ℕ) (a : Answer)
  /-- time passes -/
  | tick (d : ℕ)
  deriving DecidableEq

/-- The `api_keys` table, by lookup, after a statement of a call that the database has answered. -/
def rowsAfter (cfg : Config) (rows : HashMap String KeyRecord) (a : Answer) :
    Call → HashMap String KeyRecord
  | .createIn tenantId ownerUserId name (.inserting _) =>
    match a with
    | .inserted id plaintext keyHash createdAt =>
      rows.insert (cfg.lookupOf plaintext) ⟨id, keyHash, cfg.lookupOf plaintext, name, createdAt, true, 1,
        tenantId, ownerUserId⟩
    | _ => rows
  | .delete id .deletingRow =>
    match a with
    | .database none => retain (fun _ r => r.id ≠ id) rows
    | _ => rows
  | .disableKeysForOwner _ (.updatingRows ids) =>
    match a with
    | .database none => mapVal (fun _ r => if r.id ∈ ids then { r with enabled := false } else r) rows
    | _ => rows
  | _ => rows

def callStep (cfg : Config) (st : Store) (a : Answer) : Call → Option (Store × Call)
  | .authorizeRecord token pc =>
    (authorizeStep cfg st token pc).map fun p => (p.1, .authorizeRecord token p.2)
  | .createIn tenantId ownerUserId name pc =>
    (createStep cfg st tenantId ownerUserId name a pc).map fun p =>
      (p.1, .createIn tenantId ownerUserId name p.2)
  | .delete id pc => (deleteStep st id a pc).map fun p => (p.1, .delete id p.2)
  | .disableKeysForOwner ownerUserId pc =>
    (disableStep st ownerUserId a pc).map fun p => (p.1, .disableKeysForOwner ownerUserId p.2)

def step (cfg : Config) (s : State) : Label → Option State
  | .start i request =>
    match s.calls.lookup i with
    | none => some { s with calls := s.calls.insert i request.call }
    | some _ => none
  | .step i a =>
    (s.calls.lookup i).bind fun c => (callStep cfg s.store a c).map fun p =>
      ⟨p.1, s.calls.insert i p.2⟩
  | .tick d => some { s with store := { s.store with now := s.store.now + d } }

end HomeLlmGateway.Storage.Keys
