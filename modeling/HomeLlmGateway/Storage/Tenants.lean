import HomeLlmGateway.Gateway.Tenant
import HomeLlmGateway.Lib.Runs
import HomeLlmGateway.Lib.Holding
import HomeLlmGateway.Proto.Http
import HomeLlmGateway.Storage.Keys

/-! # Tenants

The calls of `gateway/src/storage/tenants.rs`, in memory and in the table `tenants`. Each call reads a record,
writes the table and puts its record back into memory in separate sections; any number of calls are under way,
and the process may end between any two sections and start again on its table. What becomes of overlapping
calls is in `Storage.TenantUpdates`. -/

namespace HomeLlmGateway.Storage.Tenants

open HomeLlmGateway.Lib.Assoc
open HomeLlmGateway.Gateway.Tenant (defaultTenantId)
open HomeLlmGateway.Proto.Http (trim)
open HomeLlmGateway.Storage.Keys (Config)

/-! ### Records -/

/-- `TenantRecord`. -/
structure TenantRecord where
  id : String
  name : String
  createdAt : ℕ
  enabled : Bool
  maxConcurrentRequests : UInt32
  requestsPerMinute : UInt32
  agentTokenHash : String
  deriving DecidableEq

/-- `TenantPatch`: `none` keeps the value. -/
structure TenantPatch where
  name : Option String
  enabled : Option Bool
  maxConcurrentRequests : Option UInt32
  requestsPerMinute : Option UInt32
  deriving DecidableEq

/-- `TenantError`. -/
inductive TenantError where
  | notFound
  | invalidName
  | nameTaken
  | hasKeys
  | hasUsers
  | defaultTenant
  | disabled
  | badToken
  | database (message : String)
  deriving DecidableEq

/-- `default_tenant`. -/
def defaultTenant : TenantRecord := ⟨defaultTenantId, "default", 0, true, 0, 0, ""⟩

/-- `validate_tenant_name`. -/
def validateTenantName (name : String) : Except TenantError String :=
  let name := trim name.toList
  if name = [] ∨ 64 < name.length then .error .invalidName else .ok (String.ofList name)

/-- The tenants in memory and in the table. -/
structure Store where
  tenants : HashMap String TenantRecord
  tenantRows : HashMap String TenantRecord

/-- `Storage::new`: `ensure_default_tenant`, `load_tenants`, and the default tenant if it was not loaded. -/
def Store.load (rows : HashMap String TenantRecord) : Store :=
  let named := rows.entries.any fun e => e.2.name = defaultTenant.name
  let rows := if (rows.lookup defaultTenantId).isSome || named then rows
    else rows.insert defaultTenantId defaultTenant
  ⟨if (rows.lookup defaultTenantId).isSome then rows else rows.insert defaultTenantId defaultTenant, rows⟩

/-- The unique index on names refuses the name for the tenant `id`. -/
def rowTaken (rows : HashMap String TenantRecord) (id name : String) : Bool :=
  rows.entries.any fun e => e.1 ≠ id && e.2.name = name

/-- `verify_agent_token`. -/
def verifyAgentToken (cfg : Config) (st : Store) (tenantId token : String) :
    Except TenantError TenantRecord :=
  match st.tenants.lookup tenantId with
  | none => .error .notFound
  | some tenant =>
    if !tenant.enabled then .error .disabled
    else if tenant.agentTokenHash.isEmpty || token.isEmpty then .error .badToken
    else if cfg.lookupOf token = tenant.agentTokenHash then .ok tenant
    else .error .badToken

/-! ### The calls -/

/-- Where a call of `create_tenant` stands. -/
inductive CreatePc where
  | start
  | inserting (name : String)
  | publishing (record : TenantRecord) (token : String)
  | done (result : Except TenantError (TenantRecord × String))
  deriving DecidableEq

/-- Where a call of `update_tenant` stands, with the record it has read or written. -/
inductive UpdatePc where
  | start
  | checking (current : TenantRecord) (name : String)
  | updatingRow (current : TenantRecord) (name : String)
  | publishing (updated : TenantRecord)
  | done (result : Except TenantError TenantRecord)
  deriving DecidableEq

/-- Where a call of `delete_tenant` stands. -/
inductive DeletePc where
  | start
  | countingKeys
  | countingUsers
  | deletingRow
  | removing
  | done (result : Except TenantError Unit)
  deriving DecidableEq

/-- Where a call of `rotate_agent_token` stands, with the record it has read and the one it has written. -/
inductive RotatePc where
  | start
  | updatingRow (current : TenantRecord)
  | publishing (current updated : TenantRecord) (token : String)
  | done (result : Except TenantError String)
  deriving DecidableEq

inductive Call where
  | createTenant (name : String) (maxConcurrentRequests requestsPerMinute : UInt32) (pc : CreatePc)
  | updateTenant (id : String) (patch : TenantPatch) (pc : UpdatePc)
  | deleteTenant (id : String) (pc : DeletePc)
  | rotateAgentToken (id : String) (pc : RotatePc)
  deriving DecidableEq

/-- What the environment answers: how many keys or users there are, that a statement is executed, with the id
and the token that were made for it, or that it fails. -/
inductive Answer where
  | silent
  | count (n : ℕ)
  | written (id token : String) (now : ℕ)
  | failed (error : String)
  deriving DecidableEq

def createTenantStep (cfg : Config) (st : Store) (a : Answer) (name : String) (max rpm : UInt32) :
    CreatePc → Option (Store × CreatePc)
  | .start =>
    match validateTenantName name with
    | .error e => some (st, .done (.error e))
    | .ok name =>
      if (values st.tenants).any fun t => t.name = name then some (st, .done (.error .nameTaken))
      else some (st, .inserting name)
  | .inserting name =>
    match a with
    | .written id token now =>
      if (st.tenantRows.lookup id).isSome || rowTaken st.tenantRows id name then
        some (st, .done (.error .nameTaken))
      else
        let record := ⟨id, name, now, true, max, rpm, cfg.lookupOf token⟩
        some ({ st with tenantRows := st.tenantRows.insert id record }, .publishing record token)
    | .failed e => some (st, .done (.error (.database e)))
    | _ => none
  | .publishing record token =>
    some ({ st with tenants := st.tenants.insert record.id record }, .done (.ok (record, token)))
  | .done _ => none

/-- The first checks of `update_tenant`; the name it goes on with. -/
def checkPatch (id : String) (current : TenantRecord) (patch : TenantPatch) : Except TenantError String :=
  if id = defaultTenantId ∧ (patch.enabled = some false ∨ patch.name.any (· ≠ current.name)) then
    .error .defaultTenant
  else patch.name.elim (.ok current.name) validateTenantName

/-- The record that `update_tenant` writes. -/
def updatedRecord (current : TenantRecord) (patch : TenantPatch) (name : String) : TenantRecord where
  id := current.id
  name := name
  createdAt := current.createdAt
  enabled := patch.enabled.getD current.enabled
  maxConcurrentRequests := patch.maxConcurrentRequests.getD current.maxConcurrentRequests
  requestsPerMinute := patch.requestsPerMinute.getD current.requestsPerMinute
  agentTokenHash := current.agentTokenHash

/-- The columns that `update_tenant` sets. -/
def updateColumns (updated row : TenantRecord) : TenantRecord :=
  { row with
    name := updated.name
    enabled := updated.enabled
    maxConcurrentRequests := updated.maxConcurrentRequests
    requestsPerMinute := updated.requestsPerMinute }

def updateTenantStep (st : Store) (a : Answer) (id : String) (patch : TenantPatch) :
    UpdatePc → Option (Store × UpdatePc)
  | .start =>
    match st.tenants.lookup id with
    | none => some (st, .done (.error .notFound))
    | some current =>
      match checkPatch id current patch with
      | .error e => some (st, .done (.error e))
      | .ok name => some (st, if name ≠ current.name then .checking current name else .updatingRow current name)
  | .checking current name =>
    if (values st.tenants).any fun t => t.id ≠ id && t.name = name then some (st, .done (.error .nameTaken))
    else some (st, .updatingRow current name)
  | .updatingRow current name =>
    match a with
    | .written _ _ _ =>
      -- a statement that changes no row breaks no index
      if (st.tenantRows.lookup id).isSome && rowTaken st.tenantRows id name then
        some (st, .done (.error (.database "UNIQUE constraint failed: tenants.name")))
      else
        let updated := updatedRecord current patch name
        some ({ st with tenantRows := modify id (updateColumns updated) st.tenantRows }, .publishing updated)
    | .failed e => some (st, .done (.error (.database e)))
    | _ => none
  | .publishing updated => some ({ st with tenants := st.tenants.insert id updated }, .done (.ok updated))
  | .done _ => none

def deleteTenantStep (st : Store) (a : Answer) (id : String) : DeletePc → Option (Store × DeletePc)
  | .start =>
    if id = defaultTenantId then some (st, .done (.error .defaultTenant))
    else
      match st.tenants.lookup id with
      | none => some (st, .done (.error .notFound))
      | some _ => some (st, .countingKeys)
  | .countingKeys =>
    match a with
    | .count n => some (st, if 0 < n then .done (.error .hasKeys) else .countingUsers)
    | _ => none
  | .countingUsers =>
    match a with
    | .count n => some (st, if 0 < n then .done (.error .hasUsers) else .deletingRow)
    | _ => none
  | .deletingRow =>
    match a with
    | .written _ _ _ => some ({ st with tenantRows := st.tenantRows.erase id }, .removing)
    | .failed e => some (st, .done (.error (.database e)))
    | _ => none
  | .removing => some ({ st with tenants := st.tenants.erase id }, .done (.ok ()))
  | .done _ => none

def rotateStep (cfg : Config) (st : Store) (a : Answer) (id : String) : RotatePc → Option (Store × RotatePc)
  | .start =>
    match st.tenants.lookup id with
    | none => some (st, .done (.error .notFound))
    | some current => some (st, .updatingRow current)
  | .updatingRow current =>
    match a with
    | .written _ token _ =>
      some ({ st with
          tenantRows := modify id (fun row => { row with agentTokenHash := cfg.lookupOf token })
            st.tenantRows },
        .publishing current { current with agentTokenHash := cfg.lookupOf token } token)
    | .failed e => some (st, .done (.error (.database e)))
    | _ => none
  | .publishing _ updated token =>
    some ({ st with tenants := st.tenants.insert id updated }, .done (.ok token))
  | .done _ => none

def callStep (cfg : Config) (st : Store) (a : Answer) : Call → Option (Store × Call)
  | .createTenant name max rpm pc =>
    (createTenantStep cfg st a name max rpm pc).map fun p => (p.1, .createTenant name max rpm p.2)
  | .updateTenant id patch pc =>
    (updateTenantStep st a id patch pc).map fun p => (p.1, .updateTenant id patch p.2)
  | .deleteTenant id pc => (deleteTenantStep st a id pc).map fun p => (p.1, .deleteTenant id p.2)
  | .rotateAgentToken id pc => (rotateStep cfg st a id pc).map fun p => (p.1, .rotateAgentToken id p.2)

/-! ### The system -/

structure State where
  store : Store
  calls : HashMap ℕ Call
  /-- the ids that tenants have had -/
  ids : List String
  /-- the hashes that their tokens have had -/
  hashes : List String

/-- The first start, with an empty table. -/
def init : State := ⟨.load ∅, ∅, [defaultTenantId], [""]⟩

/-- A new call, at its start. -/
inductive Request where
  | createTenant (name : String) (maxConcurrentRequests requestsPerMinute : UInt32)
  | updateTenant (id : String) (patch : TenantPatch)
  | deleteTenant (id : String)
  | rotateAgentToken (id : String)
  deriving DecidableEq

def Request.call : Request → Call
  | .createTenant name max rpm => .createTenant name max rpm .start
  | .updateTenant id patch => .updateTenant id patch .start
  | .deleteTenant id => .deleteTenant id .start
  | .rotateAgentToken id => .rotateAgentToken id .start

inductive Label where
  /-- the call `i` begins -/
  | start (i : ℕ) (request : Request)
  /-- it goes on -/
  | step (i : ℕ) (a : Answer)
  /-- the process ends and starts again on its table -/
  | restart
  deriving DecidableEq

/-- The id of a tenant that is made in this step. -/
def newId : Call → Answer → Option String
  | .createTenant _ _ _ (.inserting _), .written id _ _ => some id
  | _, _ => none

/-- The token that is made in this step. -/
def newToken : Call → Answer → Option String
  | .createTenant _ _ _ (.inserting _), .written _ token _ => some token
  | .rotateAgentToken _ (.updatingRow _), .written _ token _ => some token
  | _, _ => none

/-- An id of 16 random bytes is new, and so is the hash of a token of 32. -/
def possible (cfg : Config) (s : State) (c : Call) (a : Answer) : Bool :=
  (newId c a).all (fun id => !s.ids.contains id) &&
    (newToken c a).all fun token => !s.hashes.contains (cfg.lookupOf token)

def step (cfg : Config) (s : State) : Label → Option State
  | .start i request =>
    match s.calls.lookup i with
    | none => some { s with calls := s.calls.insert i request.call }
    | some _ => none
  | .step i a =>
    (s.calls.lookup i).bind fun c =>
      if possible cfg s c a then
        (callStep cfg s.store a c).map fun p =>
          ⟨p.1, s.calls.insert i p.2, s.ids ++ (newId c a).toList,
            s.hashes ++ ((newToken c a).map cfg.lookupOf).toList⟩
      else none
  | .restart => some { s with store := .load s.store.tenantRows, calls := ∅ }

end HomeLlmGateway.Storage.Tenants
