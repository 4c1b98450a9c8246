import HomeLlmGateway.Lib.Fallible
import HomeLlmGateway.Access.Rbac
import HomeLlmGateway.Storage.UserUpdates
import HomeLlmGateway.Storage.Tenants
import HomeLlmGateway.Pki.Service

/-! # The admin handlers

The handlers of `gateway/src/http/admin` that change keys, users and tenants, and those of
`gateway/src/http/admin_pki` for one credential pair. A handler checks what it reads from memory and
answers, or goes on with one call of the store (`Work`), whose result its reply shows. A request is served
when that call has returned; requests are served one after the other here, whatever the environment answers
to their calls.

Audit records, logs and the limiters are left out, and so is the usage in the replies about tenants. -/

namespace HomeLlmGateway.Admin.Handlers

open HomeLlmGateway.Lib.Runs HomeLlmGateway.Lib.Assoc HomeLlmGateway.Lib.Fallible
open HomeLlmGateway.Gateway.Tenant (defaultTenantId)
open HomeLlmGateway.Proto.Http (eqIgnoreAsciiCase)
open HomeLlmGateway.Access.Rbac
open HomeLlmGateway.Storage HomeLlmGateway.Storage.Users
open HomeLlmGateway.Storage.Cache (KeyRecord)
open HomeLlmGateway.Storage.Keys (Config)
open HomeLlmGateway.Storage.Tenants (TenantRecord TenantError)
open HomeLlmGateway.Pki.Verifier (PkiError)
open HomeLlmGateway.Pki.Service (PkiService PkiRecord DownloadBundle Faults)

/-! ### Responses -/

/-- `user_json`. -/
structure UserJson where
  id : String
  username : String
  role : UserRole
  tenantId : Option String
  tenantName : Option String
  enabled : Bool
  createdAt : ℕ
  updatedAt : ℕ
  lastLoginAt : ℕ
  deriving DecidableEq

/-- What `create_key` shows, besides the usage, which is zero. -/
structure KeyJson where
  id : String
  tenantId : String
  tenantName : String
  ownerUserId : Option String
  key : String
  name : String
  createdAt : ℕ
  enabled : Bool
  deriving DecidableEq

/-- `tenant_json`, without counts and usage. -/
structure TenantJson where
  id : String
  name : String
  createdAt : ℕ
  enabled : Bool
  maxConcurrentRequests : UInt32
  requestsPerMinute : UInt32
  agentToken : Option String
  deriving DecidableEq

inductive Body where
  | empty
  | error (message type : String)
  | key (json : KeyJson)
  | user (json : UserJson)
  | tenant (json : TenantJson)
  | agentToken (token : String)
  | bundle (bundle : DownloadBundle)
  deriving DecidableEq

structure Response where
  status : ℕ
  body : Body
  deriving DecidableEq

/-- `openai_error_type`. -/
def openaiErrorType (status : ℕ) : String :=
  if status = 400 then "invalid_request_error"
  else if status = 401 then "authentication_error"
  else if status = 403 then "permission_error"
  else if status = 404 then "not_found_error"
  else if status = 409 then "conflict_error"
  else if status = 429 then "rate_limit_error"
  else if 500 ≤ status ∧ status ≤ 599 then "server_error"
  else "api_error"

/-- `error_response`. -/
def errorResponse (status : ℕ) (message : String) : Response :=
  ⟨status, .error message (openaiErrorType status)⟩

/-- `rbac::response`. -/
def rbacResponse (e : RbacError) : Response := errorResponse e.status e.message

/-- `Display` of an error. -/
def userErrorMessage : UserError → String
  | .notFound => "user not found"
  | .invalidUsername => "username must be 3-32 lowercase letters, digits, dot, dash or underscore"
  | .invalidPassword => "password must be 12-128 characters"
  | .usernameTaken => "username already exists"
  | .tenantRequired => "tenant is required for this role"
  | .tenantMismatch => "super_admin must not belong to a tenant"
  | .lastSuperAdmin => "cannot remove the last enabled super_admin"
  | .database message => "user storage error: " ++ message

/-- `user_error_response`. -/
def userErrorResponse (e : UserError) : Response :=
  let status := match e with
    | .notFound => 404
    | .usernameTaken | .lastSuperAdmin => 409
    | .invalidUsername | .invalidPassword | .tenantRequired | .tenantMismatch => 400
    | .database _ => 500
  errorResponse status (userErrorMessage e)

@[inherit_doc userErrorMessage]
def tenantErrorMessage : TenantError → String
  | .notFound => "tenant not found"
  | .invalidName => "tenant name must be 1-64 characters"
  | .nameTaken => "tenant name already exists"
  | .hasKeys => "tenant still has API keys"
  | .hasUsers => "tenant still has users"
  | .defaultTenant => "the default tenant cannot be deleted or disabled"
  | .disabled => "tenant is disabled"
  | .badToken => "invalid tenant agent token"
  | .database message => "tenant storage error: " ++ message

/-- `tenant_error_response`. -/
def tenantErrorResponse (e : TenantError) : Response :=
  let status := match e with
    | .notFound => 404
    | .nameTaken | .hasKeys | .hasUsers | .defaultTenant => 409
    | .invalidName | .disabled | .badToken => 400
    | .database _ => 500
  errorResponse status (tenantErrorMessage e)

/-- `pki_error_response`. -/
def pkiErrorResponse : PkiError → Response
  | .invalid message => errorResponse 400 message
  | .conflict message => errorResponse 409 message
  | .notFound => errorResponse 404 "credential pair not found"
  | .downloadConsumed =>
    errorResponse 410 "client private key has already been downloaded; create a new pair"
  | .expired => errorResponse 410 "credential pair has expired; create a new pair"
  | .httpsRequired => errorResponse 409 "client key download requires HTTPS or a loopback/SSH tunnel"
  | .storage _ => errorResponse 500 "credential storage failed"
  | .io _ => errorResponse 500 "credential I/O failed"
  | .generate _ => errorResponse 500 "credential generation failed"

/-! ### Requests -/

/-- The strings that `create_key` finds in its body. -/
structure CreateKeyBody where
  name : Option String
  tenantId : Option String
  ownerUserId : Option String
  deriving DecidableEq

structure CreateUserBody where
  username : String
  password : String
  role : String
  tenantId : Option String
  deriving DecidableEq

structure UpdateUserBody where
  username : Option String
  password : Option String
  role : Option String
  tenantId : Option String
  clearTenant : Option Bool
  enabled : Option Bool
  deriving DecidableEq

/-- What `create_tenant` and `update_tenant` find in their bodies; the numbers have 64 bits. -/
structure TenantBody where
  name : Option String
  enabled : Option Bool
  maxConcurrentRequests : Option ℕ
  requestsPerMinute : Option ℕ
  deriving DecidableEq

inductive Request where
  | createKey (body : CreateKeyBody)
  | deleteKey (id : String)
  | createUser (body : CreateUserBody)
  | updateUser (id : String) (body : UpdateUserBody)
  | deleteUser (id : String)
  | createTenant (body : TenantBody)
  | updateTenant (id : String) (body : TenantBody)
  | deleteTenant (id : String)
  | rotateAgentToken (id : String)
  deriving DecidableEq

/-- The call that a handler goes on with, and how it shows its result. A call that is not over stands for a
task that has failed. -/
inductive Work where
  | accounts (request : Accounts.Request) (reply : Accounts.Call → Response)
  | tenants (request : Tenants.Request) (reply : Tenants.Call → Response)

/-- Users, keys and tenants. -/
structure State where
  accounts : Accounts.State
  tenants : Tenants.Store
  /-- `registry.count_for_tenant` -/
  agents : String → ℕ

/-- `Storage::user`. -/
def State.user (s : State) (id : String) : Option UserRecord := s.accounts.store.users.lookup id

/-- `Storage::key`. -/
def State.key (s : State) (id : String) : Option KeyRecord :=
  (values s.accounts.store.keys.runtime).find? (·.id = id)

/-- `Storage::tenant`. -/
def State.tenant (s : State) (id : String) : Option TenantRecord := s.tenants.tenants.lookup id

/-! ### Keys -/

/-- The tenant of the key that `create_key` makes. -/
def keyTenant (p : Principal) (requested : Option String) : Except Response String :=
  match p.role with
  | .superAdmin => .ok (requested.getD defaultTenantId)
  | _ =>
    match effectiveTenant p requested with
    | .ok (some t) => .ok t
    | .ok none => .error (errorResponse 403 "permission denied")
    | .error e => .error (rbacResponse e)

/-- Its owner. -/
def keyOwner (p : Principal) (requested : Option String) : Option String :=
  match p.role with
  | .user => p.userId
  | .superAdmin => requested
  | .tenantAdmin => none

def checkOwner (s : State) (tenantId : String) : Option String → Except Response Unit
  | none => .ok ()
  | some owner =>
    match s.user owner with
    | none => .error (errorResponse 400 "unknown key owner")
    | some user =>
      if user.tenantId ≠ some tenantId then
        .error (errorResponse 400 "key owner must belong to the same tenant")
      else .ok ()

def keyCreated (tenantName : String) : Accounts.Call → Response
  | .key (.createIn _ _ _ (.done r plaintext)) =>
    ⟨201, .key ⟨r.id, r.tenantId, tenantName, r.ownerUserId, plaintext, r.name, r.createdAt, r.enabled⟩⟩
  | .key (.createIn _ _ _ (.failed _)) => errorResponse 500 "key creation failed; no key was created"
  | _ => errorResponse 500 "key creation failed"

def createKey (s : State) (p : Principal) (body : CreateKeyBody) : Except Response Work := do
  let name := body.name.getD "unnamed"
  if 64 < name.toList.length then throw (errorResponse 400 "name too long")
  let tenantId ← keyTenant p body.tenantId
  (authorize p .keyWrite (some tenantId)).mapError rbacResponse
  let owner := keyOwner p body.ownerUserId
  checkOwner s tenantId owner
  match s.tenant tenantId with
  | none => throw (errorResponse 404 "tenant not found")
  | some tenant =>
    if !tenant.enabled then throw (errorResponse 400 "tenant is disabled")
    pure (.accounts (.key (.createIn tenantId owner name)) (keyCreated tenant.name))

def keyDeleted : Accounts.Call → Response
  | .key (.delete _ (.done true)) => ⟨204, .empty⟩
  | .key (.delete _ (.done false)) => errorResponse 404 "key not found"
  | .key (.delete _ (.failed _)) => errorResponse 500 "key deletion failed; the key is still valid"
  | _ => errorResponse 500 "key deletion failed"

def deleteKey (s : State) (p : Principal) (id : String) : Except Response Work :=
  match s.key id with
  | none => throw (errorResponse 404 "key not found")
  | some key => do
    (authorize p .keyWrite (some key.tenantId)).mapError rbacResponse
    if p.role = .user ∧ key.ownerUserId ≠ p.userId then throw (errorResponse 404 "key not found")
    pure (.accounts (.key (.delete id)) keyDeleted)

/-! ### Users -/

/-- `parse_role`. -/
def parseRole (raw : String) : Option UserRole :=
  if raw = "super_admin" then some .superAdmin
  else if raw = "tenant_admin" then some .tenantAdmin
  else if raw = "user" then some .user
  else none

/-- `user_json_public`. -/
def userJson (s : State) (u : UserRecord) : UserJson :=
  ⟨u.id, u.username, u.role, u.tenantId, (u.tenantId.bind fun t => s.tenant t).map (·.name), u.enabled,
    u.createdAt, u.updatedAt, u.lastLoginAt⟩

def userCreated (s : State) : Accounts.Call → Response
  | .createUser _ _ _ _ _ (.done (.ok r)) => ⟨201, .user (userJson s r)⟩
  | .createUser _ _ _ _ _ (.done (.error e)) => userErrorResponse e
  | _ => errorResponse 500 "user creation failed"

def createUser (s : State) (p : Principal) (body : CreateUserBody) : Except Response Work :=
  match parseRole body.role with
  | none => throw (errorResponse 400 "invalid role")
  | some role => do
    let tenant ← (canCreateUser p role body.tenantId).mapError rbacResponse
    (authorize p .userWrite tenant).mapError rbacResponse
    pure (.accounts (.createUser body.username body.password role tenant p.userId) (userCreated s))

def userUpdated (s : State) : Accounts.Call → Response
  | .updateUser _ _ (.done (.ok r)) => ⟨200, .user (userJson s r)⟩
  | .updateUser _ _ (.done (.error e)) => userErrorResponse e
  | _ => errorResponse 500 "user update failed"

/-- The role in the body of `update_user`. -/
def bodyRole : Option String → Except Response (Option UserRole)
  | none => .ok none
  | some raw =>
    match parseRole raw with
    | some role => .ok (some role)
    | none => .error (errorResponse 400 "invalid role")

def updateUser (s : State) (p : Principal) (id : String) (body : UpdateUserBody) : Except Response Work :=
  match s.user id with
  | none => throw (errorResponse 404 "user not found")
  | some target => do
    (canManageUser p target true).mapError rbacResponse
    if p.userId = some id ∧ body.enabled = some false then
      throw (errorResponse 400 "cannot disable yourself")
    if !canChangeUserScope p && (body.role.isSome || body.tenantId.isSome || body.clearTenant = some true) then
      throw (errorResponse 403 "permission denied")
    let role ← bodyRole body.role
    let tenantPatch := if body.clearTenant = some true then some none else body.tenantId.map some
    pure (.accounts (.updateUser id ⟨body.username, role, tenantPatch, body.enabled, body.password⟩)
      (userUpdated s))

def userDeleted : Accounts.Call → Response
  | .deleteUser _ (.done (.ok ())) => ⟨204, .empty⟩
  | .deleteUser _ (.done (.error e)) => userErrorResponse e
  | _ => errorResponse 500 "user deletion failed"

def deleteUser (s : State) (p : Principal) (id : String) : Except Response Work :=
  match s.user id with
  | none => throw (errorResponse 404 "user not found")
  | some target => do
    if p.userId = some id then throw (errorResponse 400 "cannot delete yourself")
    (canManageUser p target true).mapError rbacResponse
    pure (.accounts (.deleteUser id) userDeleted)

/-! ### Tenants -/

def tenantJson (agentToken : Option String) (t : TenantRecord) : TenantJson :=
  ⟨t.id, t.name, t.createdAt, t.enabled, t.maxConcurrentRequests, t.requestsPerMinute, agentToken⟩

def tenantCreated : Tenants.Call → Response
  | .createTenant _ _ _ (.done (.ok (t, token))) => ⟨201, .tenant (tenantJson (some token) t)⟩
  | .createTenant _ _ _ (.done (.error e)) => tenantErrorResponse e
  | _ => errorResponse 500 "tenant creation failed"

def createTenant (p : Principal) (body : TenantBody) : Except Response Work := do
  (authorize p .tenantWrite none).mapError rbacResponse
  -- `as u32` keeps the lower 32 bits
  let max := UInt32.ofNat (body.maxConcurrentRequests.getD 0)
  let rpm := UInt32.ofNat (body.requestsPerMinute.getD 0)
  pure (.tenants (.createTenant (body.name.getD "") max rpm) tenantCreated)

/-- A tenant that has to be there. -/
def existing (s : State) (id : String) : Except Response Unit :=
  if (s.tenant id).isSome then .ok () else .error (errorResponse 404 "tenant not found")

def tenantUpdated : Tenants.Call → Response
  | .updateTenant _ _ (.done (.ok t)) => ⟨200, .tenant (tenantJson none t)⟩
  | .updateTenant _ _ (.done (.error e)) => tenantErrorResponse e
  | _ => errorResponse 500 "tenant update failed"

def updateTenant (s : State) (p : Principal) (id : String) (body : TenantBody) : Except Response Work := do
  (authorize p .tenantWrite (some id)).mapError rbacResponse
  existing s id
  let patch := ⟨body.name, body.enabled, body.maxConcurrentRequests.map UInt32.ofNat,
    body.requestsPerMinute.map UInt32.ofNat⟩
  pure (.tenants (.updateTenant id patch) tenantUpdated)

def tenantDeleted : Tenants.Call → Response
  | .deleteTenant _ (.done (.ok ())) => ⟨204, .empty⟩
  | .deleteTenant _ (.done (.error e)) => tenantErrorResponse e
  | _ => errorResponse 500 "tenant deletion failed"

def deleteTenant (s : State) (p : Principal) (id : String) : Except Response Work := do
  (authorize p .tenantWrite (some id)).mapError rbacResponse
  existing s id
  if 0 < s.agents id then throw (errorResponse 409 "tenant still has registered agents")
  if 0 < countVal (fun u => u.tenantId = some id) s.accounts.store.users then
    throw (errorResponse 409 "tenant still has users")
  pure (.tenants (.deleteTenant id) tenantDeleted)

def tokenRotated : Tenants.Call → Response
  | .rotateAgentToken _ (.done (.ok token)) => ⟨200, .agentToken token⟩
  | .rotateAgentToken _ (.done (.error e)) => tenantErrorResponse e
  | _ => errorResponse 500 "agent token rotation failed"

def rotateAgentToken (s : State) (p : Principal) (id : String) : Except Response Work := do
  (authorize p .agentTokenRotate (some id)).mapError rbacResponse
  existing s id
  pure (.tenants (.rotateAgentToken id) tokenRotated)

/-! ### What a handler has checked -/

section checks

variable {s : State} {p : Principal} {id : String} {w : Work}

theorem createKey_ok {body : CreateKeyBody} (h : createKey s p body = .ok w) :
    ∃ tenantId name reply, keyTenant p body.tenantId = .ok tenantId ∧
      authorize p .keyWrite (some tenantId) = .ok () ∧
      w = .accounts (.key (.createIn tenantId (keyOwner p body.ownerUserId) name)) reply := by
  unfold createKey at h
  dsimp only at h
  split_ifs at h
  · cases h
  · obtain ⟨tenantId, htenant, h⟩ := bind_eq_ok h
    obtain ⟨⟨⟩, hauth, h⟩ := bind_eq_ok h
    obtain ⟨-, -, h⟩ := bind_eq_ok h
    split at h
    · cases h
    · split_ifs at h <;> cases h
      exact ⟨tenantId, _, _, htenant, mapError_eq_ok hauth, rfl⟩

theorem deleteKey_ok (h : deleteKey s p id = .ok w) :
    ∃ key, s.key id = some key ∧ authorize p .keyWrite (some key.tenantId) = .ok () ∧
      (p.role = .user → key.ownerUserId = p.userId) ∧ w = .accounts (.key (.delete id)) keyDeleted := by
  unfold deleteKey at h
  split at h
  · cases h
  · next key hkey =>
    obtain ⟨⟨⟩, hauth, h⟩ := bind_eq_ok h
    split_ifs at h with howner <;> cases h
    push Not at howner
    exact ⟨key, hkey, mapError_eq_ok hauth, howner, rfl⟩

theorem createUser_ok {body : CreateUserBody} (h : createUser s p body = .ok w) :
    ∃ role tenant, canCreateUser p role body.tenantId = .ok tenant ∧
      w = .accounts (.createUser body.username body.password role tenant p.userId) (userCreated s) := by
  unfold createUser at h
  split at h
  · cases h
  · next role hrole =>
    obtain ⟨tenant, hcan, h⟩ := bind_eq_ok h
    obtain ⟨⟨⟩, -, h⟩ := bind_eq_ok h
    cases h
    exact ⟨role, tenant, mapError_eq_ok hcan, rfl⟩

theorem updateUser_ok {body : UpdateUserBody} (h : updateUser s p id body = .ok w) :
    ∃ target patch, s.user id = some target ∧ canManageUser p target true = .ok () ∧
      (canChangeUserScope p = false → patch.role = none ∧ patch.tenantId = none) ∧
      w = .accounts (.updateUser id patch) (userUpdated s) := by
  unfold updateUser at h
  split at h
  · cases h
  · next target htarget =>
    obtain ⟨⟨⟩, hcan, h⟩ := bind_eq_ok h
    dsimp only at h
    split at h
    · cases h
    · split at h
      · cases h
      · next hscope =>
        obtain ⟨role, hrole, h⟩ := bind_eq_ok h
        cases h
        refine ⟨target, _, htarget, mapError_eq_ok hcan, fun hno => ?_, rfl⟩
        have hbody : body.role = none ∧ body.tenantId = none ∧ body.clearTenant ≠ some true := by
          simpa [hno, and_assoc] using hscope
        rw [hbody.1] at hrole
        cases hrole
        simp [hbody.2]

theorem deleteUser_ok (h : deleteUser s p id = .ok w) :
    ∃ target, s.user id = some target ∧ canManageUser p target true = .ok () ∧
      w = .accounts (.deleteUser id) userDeleted := by
  unfold deleteUser at h
  split at h
  · cases h
  · next target htarget =>
    split_ifs at h
    · cases h
    · obtain ⟨⟨⟩, hcan, h⟩ := bind_eq_ok h
      cases h
      exact ⟨target, htarget, mapError_eq_ok hcan, rfl⟩

theorem createTenant_ok {body : TenantBody} (h : createTenant p body = .ok w) :
    authorize p .tenantWrite none = .ok () := by
  obtain ⟨⟨⟩, hauth, -⟩ := bind_eq_ok h
  exact mapError_eq_ok hauth

theorem updateTenant_ok {body : TenantBody} (h : updateTenant s p id body = .ok w) :
    authorize p .tenantWrite (some id) = .ok () := by
  obtain ⟨⟨⟩, hauth, -⟩ := bind_eq_ok h
  exact mapError_eq_ok hauth

theorem deleteTenant_ok (h : deleteTenant s p id = .ok w) : authorize p .tenantWrite (some id) = .ok () := by
  obtain ⟨⟨⟩, hauth, -⟩ := bind_eq_ok h
  exact mapError_eq_ok hauth

theorem rotateAgentToken_ok (h : rotateAgentToken s p id = .ok w) :
    authorize p .agentTokenRotate (some id) = .ok () ∧ w = .tenants (.rotateAgentToken id) tokenRotated := by
  obtain ⟨⟨⟩, hauth, h⟩ := bind_eq_ok h
  obtain ⟨-, -, h⟩ := bind_eq_ok h
  cases h
  exact ⟨mapError_eq_ok hauth, rfl⟩

end checks

/-! ### Serving requests -/

/-- What the handler of a request makes of it: an answer, or a call of the store. -/
def handle (s : State) (p : Principal) : Request → Except Response Work
  | .createKey body => createKey s p body
  | .deleteKey id => deleteKey s p id
  | .createUser body => createUser s p body
  | .updateUser id body => updateUser s p id body
  | .deleteUser id => deleteUser s p id
  | .createTenant body => createTenant p body
  | .updateTenant id body => updateTenant s p id body
  | .deleteTenant id => deleteTenant s p id
  | .rotateAgentToken id => rotateAgentToken s p id

/-- A call on users or keys, from its start to its end, with the answers that it gets. -/
def runAccounts (cfg : Config) (s : Accounts.State) (request : Accounts.Request)
    (answers : List Accounts.Answer) : Option (Accounts.State × Accounts.Call) :=
  (run (Accounts.step cfg) { s with calls := ∅ } (.start 0 request :: answers.map (.step 0))).bind fun s' =>
    (s'.calls.lookup 0).bind fun c => if UserUpdates.returned c then some ({ s' with calls := ∅ }, c) else none

/-- The call has returned. -/
def tenantReturned : Tenants.Call → Bool
  | .createTenant _ _ _ (.done _) | .updateTenant _ _ (.done _) | .deleteTenant _ (.done _)
  | .rotateAgentToken _ (.done _) => true
  | _ => false

/-- A call on tenants, from its start to its end. -/
def runTenants (cfg : Config) (st : Tenants.Store) (request : Tenants.Request)
    (answers : List Tenants.Answer) : Option (Tenants.Store × Tenants.Call) :=
  (run (fun x a => Tenants.callStep cfg x.1 a x.2) (st, request.call) answers).filter
    fun x => tenantReturned x.2

/-- A request, who makes it, and what the environment answers to the call of the store. -/
structure Label where
  principal : Principal
  request : Request
  accountAnswers : List Accounts.Answer
  tenantAnswers : List Tenants.Answer

/-- The request is served: the state after it, and the response. -/
def serve (cfg : Config) (s : State) (l : Label) : Option (State × Response) :=
  match handle s l.principal l.request with
  | .error r => some (s, r)
  | .ok (.accounts request reply) =>
    (runAccounts cfg s.accounts request l.accountAnswers).map fun x => ({ s with accounts := x.1 }, reply x.2)
  | .ok (.tenants request reply) =>
    (runTenants cfg s.tenants request l.tenantAnswers).map fun x => ({ s with tenants := x.1 }, reply x.2)

def step (cfg : Config) (s : State) (l : Label) : Option State := (serve cfg s l).map Prod.fst

/-! ### Credential pairs -/

section pki

variable {V : Type}

/-- `https_or_test`, of the header `x-forwarded-proto`. -/
def httpsOrTest (forwardedProto : Option String) : Bool := forwardedProto.any (eqIgnoreAsciiCase · "https")

/-- The record of a pair that both handlers begin with, and what they may do with it. -/
def scopedRecord (pki : Option (PkiService V)) (faults : Faults) (p : Principal) (action : Action)
    (id : String) : Except Response (PkiService V × PkiRecord) :=
  match pki with
  | none => .error (errorResponse 404 "PKI is not enabled")
  | some pki => do
    let record ← (Pki.Service.record pki.rows faults id).mapError pkiErrorResponse
    (authorize p action (some record.tenantId)).mapError rbacResponse
    pure (pki, record)

/-- `download`. The clock and what fails are arguments, apart for the record and for the download itself. -/
def download (cfg : Pki.Service.Config V) (requireHttps : Bool) (pki : Option (PkiService V)) (now : ℤ)
    (recordFaults faults : Faults) (p : Principal) (id : String) (forwardedProto : Option String) :
    Option (PkiService V) × Response :=
  match scopedRecord pki recordFaults p .pkiRead id with
  | .error r => (pki, r)
  | .ok (service, _) =>
    if requireHttps && !httpsOrTest forwardedProto then (pki, pkiErrorResponse .httpsRequired)
    else
      match Pki.Service.download cfg service now faults id with
      | (service', .ok bundle) => (some service', ⟨200, .bundle bundle⟩)
      | (service', .error e) => (some service', pkiErrorResponse e)

/-- `revoke`. -/
def revoke (cfg : Pki.Service.Config V) (pki : Option (PkiService V)) (now : ℤ) (recordFaults faults : Faults)
    (p : Principal) (id : String) : Option (PkiService V) × Response :=
  match scopedRecord pki recordFaults p .pkiWrite id with
  | .error r => (pki, r)
  | .ok (service, _) =>
    match Pki.Service.revoke cfg service now faults id with
    | (service', .ok ()) => (some service', ⟨204, .empty⟩)
    | (service', .error e) => (some service', pkiErrorResponse e)

end pki

end HomeLlmGateway.Admin.Handlers
