import HomeLlmGateway.Admin.Handlers
import HomeLlmGateway.Registry.Discovery
import HomeLlmGateway.Storage.UsageArithmetic

/-! # What the listings show

The readings of the admin API: `list_keys`, `usage_route`, `list_users`, `list_tenants`, `tenant_by_id`,
`list_agents`, `list_audit` (`gateway/src/http/admin/`), `status`, `list` (`http/admin_pki/handlers.rs`) and `me`
(`access/session.rs`), with what they call of the store and of the registry. A listing for one tenant is the part
of that tenant in the listing for all (`listing_is_part`), and the figures on the page of a tenant are those of
its listings (`page_agrees_with_listings`). What a principal learns of other tenants is in
`Admin.ListingConfinement`. -/

namespace HomeLlmGateway.Admin.Listings

open HomeLlmGateway.Lib.Assoc HomeLlmGateway.Lib.Sorted
open HomeLlmGateway.Gateway.Tenant (defaultTenantId)
open HomeLlmGateway.Access.Rbac
open HomeLlmGateway.Storage HomeLlmGateway.Storage.Users
open HomeLlmGateway.Storage.Cache (KeyRecord)
open HomeLlmGateway.Storage.Tenants (TenantRecord)
open HomeLlmGateway.Storage.Usage (UsageRecord)
open HomeLlmGateway.Storage.Attribution (Totals tenantTotals tenantTotals_eq snapTotals)
open HomeLlmGateway.Storage.UsageArithmetic (KeyUsageInfo cellToInfo usageOf)
open HomeLlmGateway.Registry.Node HomeLlmGateway.Registry.Table
open HomeLlmGateway.Registry.Discovery (AgentInfo agentInfo snapshot countForTenant)
open HomeLlmGateway.Pki.Verifier (PkiError)
open HomeLlmGateway.Pki.Service (PkiService PkiRecord PkiRuntime activeRecords)
open HomeLlmGateway.Admin.Handlers

/-! ### Readings of the store -/

section store

variable (runtime : HashMap String KeyRecord) (users : HashMap String UserRecord)
  (tenants : HashMap String TenantRecord) (usage : HashMap String UsageRecord)

/-- `Storage::list`. -/
def list : List KeyRecord := sortOn (·.createdAt) (values runtime)

def listForTenant (tenantId : String) : List KeyRecord :=
  sortOn (·.createdAt) ((values runtime).filter (·.tenantId = tenantId))

def listForOwner (tenantId ownerUserId : String) : List KeyRecord :=
  sortOn (·.createdAt) ((values runtime).filter fun r =>
    r.tenantId = tenantId ∧ r.ownerUserId = some ownerUserId)

def keyCountForTenant (tenantId : String) : ℕ := countVal (·.tenantId = tenantId) runtime

/-- `Storage::users`. -/
def allUsers : List UserRecord := sortOn (·.createdAt) (values users)

def usersForTenant (tenantId : String) : List UserRecord :=
  sortOn (·.createdAt) ((values users).filter (·.tenantId = some tenantId))

def userCountForTenant (tenantId : String) : ℕ := countVal (·.tenantId = some tenantId) users

/-- `Storage::tenants`. -/
def allTenants : List TenantRecord := sortOn (·.createdAt) (values tenants)

/-- `usage_snapshot`. -/
def usageSnapshot : List KeyUsageInfo :=
  sortOn (·.keyId) (usage.entries.map fun e => cellToInfo e.1 e.2.current)

def usageForTenant (tenantId : String) : List KeyUsageInfo :=
  sortOn (·.keyId) ((usage.entries.filter fun e => e.2.current.tenantId = tenantId).map
    fun e => cellToInfo e.1 e.2.current)

def usageForOwner (tenantId ownerUserId : String) : List KeyUsageInfo :=
  sortOn (·.keyId) (((listForOwner runtime tenantId ownerUserId).map (·.id)).filterMap (usageOf usage))

end store

/-- A row of `admin_audit`. -/
structure AuditRecord where
  id : String
  actorUserId : Option String
  actorLabel : String
  tenantId : Option String
  action : String
  targetId : String
  createdAt : UInt64
  deriving DecidableEq

/-- `audit_records`, newest first. -/
def auditRecords (rows : List AuditRecord) (tenantId : Option String) (limit : ℕ) : List AuditRecord :=
  ((rows.filter fun r => tenantId.all (r.tenantId = some ·)).mergeSort
    fun a b => b.createdAt ≤ a.createdAt).take limit

/-! ### States and rows -/

/-- What the listings read. -/
structure World (V : Type) where
  accounts : Accounts.State
  tenants : Tenants.Store
  usage : HashMap String UsageRecord
  agents : Agents
  mem : Mem
  pki : Option (PkiService V)
  /-- nothing, without a database -/
  audit : List AuditRecord
  /-- a tenant is under its id -/
  ids : ∀ id r, tenants.tenants.lookup id = some r → r.id = id

/-- What else a response depends on: clocks and settings, and whether the table of credentials can be read. -/
structure Env where
  nowMillis : UInt64
  agentStaleAfter : UInt64
  nowSecs : ℤ
  pkiEnabled : Bool
  listFault : Option PkiError

variable {V : Type}

namespace World

variable (w : World V)

/-- The state of the other handlers. -/
def admin : State := ⟨w.accounts, w.tenants, countForTenant w.agents⟩

def runtime : HashMap String KeyRecord := w.accounts.store.keys.runtime

def users : HashMap String UserRecord := w.accounts.store.users

end World

/-- The numbers of a key. -/
structure UsageJson where
  promptTokens : UInt64
  completionTokens : UInt64
  totalTokens : UInt64
  requests : UInt64
  estimatedRequests : UInt64
  lastUsedAt : UInt64
  deriving DecidableEq

def usageNumbers (u : KeyUsageInfo) : UsageJson :=
  ⟨u.promptTokens, u.completionTokens, u.totalTokens, u.requests, u.estimatedRequests, u.lastUsedAt⟩

/-- A key in `keys_json`. -/
structure KeyRow where
  id : String
  tenantId : String
  tenantName : Option String
  ownerUserId : Option String
  ownerUsername : Option String
  name : String
  createdAt : ℕ
  enabled : Bool
  mask : String
  usage : UsageJson
  deriving DecidableEq

/-- The name of the owner. -/
def World.ownerUsername (w : World V) (r : KeyRecord) : Option String :=
  (r.ownerUserId.bind fun id => w.admin.user id).map (·.username)

def keyRow (w : World V) (r : KeyRecord) : KeyRow where
  id := r.id
  tenantId := r.tenantId
  tenantName := (w.admin.tenant r.tenantId).map (·.name)
  ownerUserId := r.ownerUserId
  ownerUsername := w.ownerUsername r
  name := r.name
  createdAt := r.createdAt
  enabled := r.enabled
  mask := "sk-••••"
  usage := ((usageOf w.usage r.id).map usageNumbers).getD ⟨0, 0, 0, 0, 0, 0⟩

/-- `tenant_json`. -/
structure TenantRow where
  id : String
  name : String
  createdAt : ℕ
  enabled : Bool
  maxConcurrentRequests : UInt32
  requestsPerMinute : UInt32
  keyCount : ℕ
  userCount : ℕ
  agentCount : ℕ
  usage : Totals
  deriving DecidableEq

def tenantRow (w : World V) (r : TenantRecord) : TenantRow where
  id := r.id
  name := r.name
  createdAt := r.createdAt
  enabled := r.enabled
  maxConcurrentRequests := r.maxConcurrentRequests
  requestsPerMinute := r.requestsPerMinute
  keyCount := keyCountForTenant w.runtime r.id
  userCount := userCountForTenant w.users r.id
  agentCount := countForTenant w.agents r.id
  usage := tenantTotals w.usage r.id

/-- `pair_json`: a record and its `download_url`. -/
structure PairRow where
  record : PkiRecord
  downloadUrl : Option String
  deriving DecidableEq

def pairRow (r : PkiRecord) : PairRow :=
  ⟨r, if r.downloadedAt = none ∧ r.status ≠ .revoked then some ("/admin/pki/pairs/" ++ r.id ++ "/download")
    else none⟩

inductive Row where
  | key (row : KeyRow)
  | usage (row : KeyUsageInfo)
  | user (row : UserJson)
  | tenant (row : TenantRow)
  | agent (row : AgentInfo)
  | pair (row : PairRow)
  | audit (row : AuditRecord)

/-- What the rows are sorted by: the time of creation, or names. -/
def Row.rank : Row → ℤ × List String
  | .key row => (row.createdAt, [])
  | .usage row => (0, [row.keyId])
  | .user row => (row.createdAt, [])
  | .tenant row => (row.createdAt, [])
  | .agent row => (0, [row.tenantId, row.agentId, row.ip])
  | .pair row => (row.record.createdAt, [])
  | .audit row => (row.createdAt.toNat, [])

/-- `PkiStatus`. -/
structure PkiStatus where
  enabled : Bool
  credentials : ℕ
  tunnelReady : Bool
  waitingForCredentials : Bool
  deriving DecidableEq

/-- The response of `me`. -/
structure MeJson where
  id : Option String
  username : String
  role : UserRole
  tenantId : Option String
  tenantName : Option String
  enabled : Bool
  createdAt : ℕ
  updatedAt : ℕ
  lastLoginAt : ℕ
  csrfToken : Option String
  source : AuthSource
  deriving DecidableEq

/-- A response with status 200. -/
inductive Listing where
  | rows (l : List Row)
  | one (row : Row)
  | status (s : PkiStatus)
  | me (user : MeJson)

/-! ### Handlers -/

/-- `authorize`, then `effective_tenant`. -/
def scope (p : Principal) (action : Action) (requested : Option String) : Except Response (Option String) :=
  match authorize p action requested with
  | .error e => .error (rbacResponse e)
  | .ok () => (effectiveTenant p requested).mapError rbacResponse

/-- The three cases of `keys_json` and `usage_json`: a user gets what is his own. -/
def byRole {α : Type} (p : Principal) (tenant : Option String) (forOwner : String → String → List α)
    (forTenant : String → List α) (all : List α) : Except Response (List α) :=
  match p.role with
  | .user =>
    match tenant, p.userId with
    | some tenant, some owner => .ok (forOwner tenant owner)
    | _, _ => .error (errorResponse 403 "permission denied")
  | _ => .ok (tenant.elim all forTenant)

/-- `keys_json`. -/
def keysJson (w : World V) (p : Principal) (requested : Option String) : Except Response Listing := do
  let tenant ← scope p .keyRead requested
  let records ← byRole p tenant (listForOwner w.runtime) (listForTenant w.runtime) (list w.runtime)
  return .rows (records.map fun r => .key (keyRow w r))

/-- `usage_json`. -/
def usageJson (w : World V) (p : Principal) (requested : Option String) : Except Response Listing := do
  let tenant ← scope p .usageRead requested
  let rows ← byRole p tenant (usageForOwner w.runtime w.usage) (usageForTenant w.usage) (usageSnapshot w.usage)
  return .rows (rows.map .usage)

def listUsers (w : World V) (p : Principal) (requested : Option String) : Except Response Listing := do
  let tenant ← scope p .userRead requested
  let users := tenant.elim (allUsers w.users) (usersForTenant w.users)
  return .rows (users.map fun u => .user (userJson w.admin u))

def listTenants (w : World V) (p : Principal) : Except Response Listing := do
  let tenant ← scope p .tenantRead none
  let tenants := tenant.elim (allTenants w.tenants.tenants) fun id => (w.admin.tenant id).toList
  return .rows (tenants.map fun t => .tenant (tenantRow w t))

def tenantById (w : World V) (p : Principal) (id : String) : Except Response Listing :=
  match authorize p .tenantRead (some id) with
  | .error e => .error (rbacResponse e)
  | .ok () =>
    match w.admin.tenant id with
    | none => .error (errorResponse 404 "tenant not found")
    | some tenant => .ok (.one (.tenant (tenantRow w tenant)))

def listAgents (env : Env) (w : World V) (p : Principal) (requested : Option String) :
    Except Response Listing := do
  let tenant ← scope p .agentRead requested
  let agents := snapshot w.agents w.mem env.nowMillis env.agentStaleAfter
  let agents := tenant.elim agents fun tenantId => agents.filter (·.tenantId = tenantId)
  return .rows (agents.map .agent)

/-- A request for the credentials; the table may not be readable. -/
def withPki {α : Type} (env : Env) (w : World V) (f : PkiService V → α) : Except Response α :=
  match w.pki, env.listFault with
  | none, _ => .error (errorResponse 404 "PKI is not enabled")
  | some _, some e => .error (pkiErrorResponse e)
  | some pki, none => .ok (f pki)

/-- `status`. -/
def pkiStatus (env : Env) (w : World V) (p : Principal) : Except Response Listing :=
  match authorize p .pkiRead none with
  | .error e => .error (rbacResponse e)
  | .ok () => withPki env w fun pki =>
    let active := activeRecords pki.rows env.nowSecs
    .status ⟨env.pkiEnabled, active.length, !pki.runtime.resolver.entries.isEmpty, active.isEmpty⟩

/-- `list`. -/
def listPairs (env : Env) (w : World V) (p : Principal) (requested : Option String) :
    Except Response Listing := do
  let tenant ← scope p .pkiRead requested
  withPki env w fun pki => .rows ((Pki.Service.list pki.rows env.nowSecs tenant).map fun r => .pair (pairRow r))

def listAudit (w : World V) (p : Principal) (requested : Option String) : Except Response Listing := do
  let tenant ← scope p .auditRead requested
  return .rows ((auditRecords w.audit tenant 100).map .audit)

/-- `me`; the token is that of the cookie. -/
def me (w : World V) (p : Principal) (csrf : Option String) : Except Response Listing :=
  if p.isBreakGlass then .ok (.me ⟨none, p.username, p.role, none, none, true, 0, 0, 0, none, .breakGlass⟩)
  else
    match p.userId.bind fun id => w.admin.user id with
    | none => .error (errorResponse 401 "invalid or expired session")
    | some user =>
      let u := userJson w.admin user
      .ok (.me ⟨some u.id, u.username, u.role, u.tenantId, u.tenantName, u.enabled, u.createdAt, u.updatedAt,
        u.lastLoginAt, csrf, .session⟩)

/-- The listings that take a `tenant_id`. -/
inductive Kind where
  | keys
  | usage
  | users
  | agents
  | pairs
  | audit
  deriving DecidableEq

inductive Query where
  | list (kind : Kind) (tenantId : Option String)
  | tenants
  | tenant (id : String)
  | pkiStatus
  | me (csrf : Option String)
  deriving DecidableEq

def respond (env : Env) (w : World V) (p : Principal) : Query → Except Response Listing
  | .list .keys tenantId => keysJson w p tenantId
  | .list .usage tenantId => usageJson w p tenantId
  | .list .users tenantId => listUsers w p tenantId
  | .list .agents tenantId => listAgents env w p tenantId
  | .list .pairs tenantId => listPairs env w p tenantId
  | .list .audit tenantId => listAudit w p tenantId
  | .tenants => listTenants w p
  | .tenant id => tenantById w p id
  | .pkiStatus => pkiStatus env w p
  | .me csrf => me w p csrf

/-! ### The part of one tenant -/

/-- The agents of one tenant in the snapshot. -/
theorem filter_snapshot (env : Env) (w : World V) (t : String) :
    ((snapshot w.agents w.mem env.nowMillis env.agentStaleAfter).filter (·.tenantId = t)).Perm
      ((w.agents.entries.filter fun e => decide (e.1.tenantId = t)).map fun e =>
        agentInfo w.mem env.nowMillis env.agentStaleAfter e.1 e.2) := by
  refine ((sortOn_perm _ _).filter _).trans ?_
  rw [List.filter_map]
  exact List.Perm.refl _

theorem length_listForTenant (runtime : HashMap String KeyRecord) (t : String) :
    (listForTenant runtime t).length = keyCountForTenant runtime t := by
  rw [keyCountForTenant, countVal, List.countP_eq_length_filter]
  exact (sortOn_perm _ _).length_eq

theorem length_usersForTenant (users : HashMap String UserRecord) (t : String) :
    (usersForTenant users t).length = userCountForTenant users t := by
  rw [userCountForTenant, countVal, List.countP_eq_length_filter]
  exact (sortOn_perm _ _).length_eq

theorem length_filter_snapshot (env : Env) (w : World V) (t : String) :
    ((snapshot w.agents w.mem env.nowMillis env.agentStaleAfter).filter (·.tenantId = t)).length =
      countForTenant w.agents t := by
  rw [(filter_snapshot env w t).length_eq, List.length_map, countForTenant, AList.keys, List.keys,
    List.countP_map, List.countP_eq_length_filter]
  rfl

theorem sum_map_filter {α β : Type*} [AddCommMonoid β] (q : α → Prop) [DecidablePred q] (f : α → β) :
    ∀ l : List α, (l.map fun a => if q a then f a else 0).sum = ((l.filter q).map f).sum
  | [] => rfl
  | a :: l => by
    rw [List.map_cons, List.sum_cons, sum_map_filter q f l, List.filter_cons]
    by_cases h : q a
    · simp [h]
    · simp [h]

theorem tenantTotals_eq_sum (usage : HashMap String UsageRecord) (t : String) : tenantTotals usage t =
    ((usage.entries.filter fun e => decide (e.2.current.tenantId = t)).map
      fun e => snapTotals e.2.current).sum := by
  rw [tenantTotals_eq, sumVal, values, List.map_map]
  exact sum_map_filter (fun e : (_ : String) × UsageRecord => e.2.current.tenantId = t)
    (fun e => snapTotals e.2.current) usage.entries

theorem shown_tenantId (now : ℤ) (r : PkiRecord) : (r.shown now).tenantId = r.tenantId := by
  unfold PkiRecord.shown
  split_ifs <;> rfl

theorem shown_createdAt (now : ℤ) (r : PkiRecord) : (r.shown now).createdAt = r.createdAt := by
  unfold PkiRecord.shown
  split_ifs <;> rfl

theorem newer_trans (a b c : PkiRecord) (hab : decide (b.createdAt ≤ a.createdAt) = true)
    (hbc : decide (c.createdAt ≤ b.createdAt) = true) : decide (c.createdAt ≤ a.createdAt) = true :=
  decide_eq_true (le_trans (of_decide_eq_true hbc) (of_decide_eq_true hab))

theorem newer_total (a b : PkiRecord) :
    (decide (b.createdAt ≤ a.createdAt) || decide (a.createdAt ≤ b.createdAt)) = true := by
  simpa using le_total b.createdAt a.createdAt

/-- The records of one tenant among all. -/
theorem filter_list (rows : HashMap String PkiRecord) (now : ℤ) (t : String) :
    Pki.Service.list rows now (some t) =
      (Pki.Service.list rows now none).filter fun r => decide (r.tenantId = t) := by
  have hall : (values rows).filter (fun r => (none : Option String).all (· = r.tenantId)) = values rows := by
    simp
  have hone : ∀ r ∈ values rows, (some t).all (· = r.tenantId) = decide ((r.shown now).tenantId = t) := by
    intro r _
    simp [shown_tenantId, eq_comm]
  unfold Pki.Service.list
  rw [hall, List.filter_map, List.filter_congr hone]
  exact congrArg _ (filter_mergeSort newer_trans newer_total _ _).symm

theorem list_of_sorted {rows : HashMap String PkiRecord}
    (h : (values rows).Pairwise fun a b => b.createdAt ≤ a.createdAt) (now : ℤ) (tenantId : Option String) :
    Pki.Service.list rows now tenantId =
      ((values rows).filter fun r => tenantId.all (· = r.tenantId)).map (PkiRecord.shown now) := by
  unfold Pki.Service.list
  rw [List.mergeSort_of_pairwise]
  exact (h.imp fun hab => by simpa using hab).filter _

/-! ### Examples -/

/-- A gateway with these tables in memory, and the default tenant. -/
def exampleWorld (V : Type) (runtime : HashMap String KeyRecord) (users : HashMap String UserRecord)
    (usage : HashMap String UsageRecord) (agents : Agents) (pairs : HashMap String PkiRecord) : World V where
  accounts :=
    let s := Accounts.init
    { s with store := { s.store with keys := { s.store.keys with runtime := runtime }, users := users } }
  tenants := .load ∅
  usage := usage
  agents := agents
  mem := ⟨fun _ => 0, fun _ => Health.new 0⟩
  pki := some ⟨∅, pairs, PkiRuntime.empty⟩
  audit := []
  ids := fun id r h => by
    have he : (⟨id, r⟩ : (_ : String) × TenantRecord) = ⟨defaultTenantId, Tenants.defaultTenant⟩ :=
      List.mem_singleton.mp ((mem_entries_iff _ _ _).mpr h)
    cases he
    rfl

def exampleKey (id tenantId : String) (owner : Option String) (createdAt : ℕ) : KeyRecord :=
  ⟨id, "hash", id, "key", createdAt, true, 1, tenantId, owner⟩

def exampleUser (id username tenantId : String) (createdAt : ℕ) : UserRecord :=
  ⟨id, some tenantId, username, "hash", .user, true, createdAt, createdAt, 0, none⟩

def examplePair (id tenantId : String) (createdAt : ℤ) : PkiRecord :=
  ⟨id, "home", tenantId, "home.example", "", "", "", "", .waiting, createdAt, "admin", none, none, none,
    createdAt + 100⟩

def exampleUsage (tenantId : String) (tokens requests : UInt64) : UsageRecord :=
  ⟨⟨tenantId, "key", tokens, tokens, requests, 0, 5⟩, .default, false⟩

def exampleAgent (tenantId agentId : String) (conn : ℕ) : AgentKey × Entry :=
  (.newInTenant tenantId agentId (.v4 0), ⟨conn, conn, agentId, tenantId, [], 1, conn⟩)

def examplePairs : HashMap String PkiRecord :=
  insertAll ∅ [("p1", examplePair "p1" "default" 1), ("p2", examplePair "p2" "beta" 2),
    ("p3", examplePair "p3" "default" 3)]

/-- Keys, users, agents, usage and credentials of the default tenant, and of another one. -/
def twoTenants : World Unit :=
  exampleWorld Unit
    (insertAll ∅ [("k1", exampleKey "k1" "default" (some "u1") 5), ("k2", exampleKey "k2" "beta" none 3),
      ("k3", exampleKey "k3" "default" none 5)])
    (insertAll ∅ [("u1", exampleUser "u1" "ann" "default" 4), ("u2", exampleUser "u2" "bob" "beta" 2),
      ("a1", { exampleUser "a1" "root" "default" 1 with role := .tenantAdmin })])
    (insertAll ∅ [("k1", exampleUsage "default" 10 2), ("k2", exampleUsage "beta" 7 1),
      ("k3", exampleUsage "default" 20 3)])
    (insertAll ∅ [exampleAgent "default" "b" 2, exampleAgent "beta" "c" 3, exampleAgent "default" "a" 1])
    examplePairs

/-- The admin of the default tenant. -/
def defaultAdmin : Principal := ⟨some "a1", "root", .tenantAdmin, some "default", .session⟩

def exampleEnv : Env := ⟨1000, 500, 9, true, none⟩

/-! ### Main results -/

/-- The tenant that a row is of. -/
def Row.tenantId : Row → Option String
  | .key row => some row.tenantId
  | .usage row => some row.tenantId
  | .user row => row.tenantId
  | .tenant row => some row.id
  | .agent row => some row.tenantId
  | .pair row => some row.record.tenantId
  | .audit row => row.tenantId

/-- Who may read all of the tenant `t`. -/
def Covers (p : Principal) (t : String) : Prop :=
  p.role = .superAdmin ∨ p.role = .tenantAdmin ∧ p.tenantId = some t

section parts

variable {p root : Principal} {t : String}

theorem scope_covers (h : Covers p t) {action : Action} (hall : allowed .tenantAdmin action = true) :
    scope p action (some t) = .ok (some t) := by
  rcases h with hrole | ⟨hrole, ht⟩
  · simp [scope, authorize, effectiveTenant, Principal.isSuper, hrole, Except.mapError]
  · simp [scope, authorize, effectiveTenant, Principal.isSuper, hrole, ht, hall, Except.mapError]

theorem scope_root (h : root.role = .superAdmin) (action : Action) : scope root action none = .ok none := by
  simp [scope, authorize, effectiveTenant, Principal.isSuper, h, Except.mapError]

theorem Covers.not_user (h : Covers p t) : p.role ≠ .user := by
  rcases h with hrole | ⟨hrole, -⟩
  · simp [hrole]
  · simp [hrole]

theorem byRole_of_not_user {α : Type} (hp : p.role ≠ .user) (tenant : Option String)
    (own : String → String → List α) (ten : String → List α) (all : List α) :
    byRole p tenant own ten all = .ok (tenant.elim all ten) := by
  cases hrole : p.role with
  | user => exact absurd hrole hp
  | tenantAdmin => simp [byRole, hrole]
  | superAdmin => simp [byRole, hrole]

section answers

variable (env : Env) (w : World V) {requested tenant : Option String}

theorem keysJson_of_scope (hp : p.role ≠ .user) (h : scope p .keyRead requested = .ok tenant) :
    keysJson w p requested =
    .ok (.rows ((tenant.elim (list w.runtime) (listForTenant w.runtime)).map fun r => .key (keyRow w r))) := by
  unfold keysJson
  rw [h]
  show byRole p tenant _ _ _ >>= _ = _
  rw [byRole_of_not_user hp]
  rfl

theorem usageJson_of_scope (hp : p.role ≠ .user) (h : scope p .usageRead requested = .ok tenant) :
    usageJson w p requested =
    .ok (.rows ((tenant.elim (usageSnapshot w.usage) (usageForTenant w.usage)).map .usage)) := by
  unfold usageJson
  rw [h]
  show byRole p tenant _ _ _ >>= _ = _
  rw [byRole_of_not_user hp]
  rfl

theorem listUsers_of_scope (h : scope p .userRead requested = .ok tenant) : listUsers w p requested =
    .ok (.rows ((tenant.elim (allUsers w.users) (usersForTenant w.users)).map
      fun u => .user (userJson w.admin u))) := by
  unfold listUsers
  rw [h]
  rfl

theorem listAgents_of_scope (h : scope p .agentRead requested = .ok tenant) : listAgents env w p requested =
    .ok (.rows ((tenant.elim (snapshot w.agents w.mem env.nowMillis env.agentStaleAfter) fun t =>
      (snapshot w.agents w.mem env.nowMillis env.agentStaleAfter).filter (·.tenantId = t)).map .agent)) := by
  unfold listAgents
  rw [h]
  rfl

theorem listPairs_of_scope (h : scope p .pkiRead requested = .ok tenant) : listPairs env w p requested =
    withPki env w fun pki =>
      .rows ((Pki.Service.list pki.rows env.nowSecs tenant).map fun r => .pair (pairRow r)) := by
  unfold listPairs
  rw [h]
  rfl

end answers

theorem map_filter {α : Type} (f : α → Row) {q : α → Bool} (hq : ∀ a, q a = decide ((f a).tenantId = some t))
    (l : List α) : (l.filter q).map f = (l.map f).filter fun row => row.tenantId = some t := by
  rw [List.filter_map, List.filter_congr fun a _ => hq a]
  rfl

/-- **A listing for one tenant is its part of the listing for all**: who may read all of the tenant `t`, its
admin or a super admin, gets exactly the rows of `t` among those that a super admin gets without a filter, in the
same order. For the audit, of which only the newest rows are shown, there is no such rule. -/
theorem listing_is_part (env : Env) (w : World V) (hroot : root.role = .superAdmin) (h : Covers p t)
    {kind : Kind} (hkind : kind ≠ .audit) :
    (∃ r, respond env w root (.list kind none) = .error r ∧ respond env w p (.list kind (some t)) = .error r) ∨
      ∃ all part, respond env w root (.list kind none) = .ok (.rows all) ∧
        respond env w p (.list kind (some t)) = .ok (.rows part) ∧
        part = all.filter fun row => row.tenantId = some t := by
  have hp := h.not_user
  have hr : root.role ≠ .user := by simp [hroot]
  cases kind with
  | keys =>
    refine Or.inr ⟨_, _, keysJson_of_scope w hr (scope_root hroot .keyRead),
      keysJson_of_scope w hp (scope_covers h rfl), ?_⟩
    show (listForTenant w.runtime t).map _ = ((list w.runtime).map _).filter _
    rw [listForTenant, ← filter_sortOn]
    exact map_filter _ (fun r => by simp [Row.tenantId, keyRow]) _
  | usage =>
    refine Or.inr ⟨_, _, usageJson_of_scope w hr (scope_root hroot .usageRead),
      usageJson_of_scope w hp (scope_covers h rfl), ?_⟩
    have hpart : usageForTenant w.usage t = (usageSnapshot w.usage).filter fun u => decide (u.tenantId = t) := by
      rw [usageForTenant, usageSnapshot, filter_sortOn, List.filter_map]
      rfl
    show (usageForTenant w.usage t).map _ = ((usageSnapshot w.usage).map _).filter _
    rw [hpart]
    exact map_filter _ (fun u => by simp [Row.tenantId]) _
  | users =>
    refine Or.inr ⟨_, _, listUsers_of_scope w (scope_root hroot .userRead),
      listUsers_of_scope w (scope_covers h rfl), ?_⟩
    show (usersForTenant w.users t).map _ = ((allUsers w.users).map _).filter _
    rw [usersForTenant, ← filter_sortOn]
    exact map_filter _ (fun u => rfl) _
  | agents =>
    refine Or.inr ⟨_, _, listAgents_of_scope env w (scope_root hroot .agentRead),
      listAgents_of_scope env w (scope_covers h rfl), ?_⟩
    exact map_filter _ (fun a => by simp [Row.tenantId]) _
  | pairs =>
    show (∃ r, listPairs env w root none = .error r ∧ listPairs env w p (some t) = .error r) ∨
      ∃ all part, listPairs env w root none = .ok (.rows all) ∧ listPairs env w p (some t) = .ok (.rows part) ∧ _
    rw [listPairs_of_scope env w (scope_root hroot .pkiRead), listPairs_of_scope env w (scope_covers h rfl)]
    unfold withPki
    cases w.pki with
    | none => exact Or.inl ⟨_, rfl, rfl⟩
    | some s =>
      cases env.listFault with
      | some e => exact Or.inl ⟨_, rfl, rfl⟩
      | none =>
        refine Or.inr ⟨_, _, rfl, rfl, ?_⟩
        rw [filter_list]
        exact map_filter _ (fun r => by simp [Row.tenantId, pairRow]) _
  | audit => exact absurd rfl hkind

/-- What tells the rows of a listing apart. -/
def Row.id : Row → String
  | .key row => row.id
  | .usage row => row.keyId
  | .user row => row.id
  | .tenant row => row.id
  | .agent row => row.agentId
  | .pair row => row.record.id
  | .audit row => row.id

def rowIds : Except Response Listing → List String
  | .ok (.rows l) => l.map Row.id
  | _ => []

/-- The rows of both tenants, and those of the default tenant. -/
def Parted (kind : Kind) (ids ids' : List String) : Prop :=
  ∃ all part, respond exampleEnv twoTenants .breakGlass (.list kind none) = .ok (.rows all) ∧
    respond exampleEnv twoTenants defaultAdmin (.list kind (some "default")) = .ok (.rows part) ∧
    part = (all.filter fun row => row.tenantId = some "default") ∧
    all.map Row.id = ids ∧ part.map Row.id = ids'

theorem listing_is_part_two :
    Parted .keys ["k2", "k3", "k1"] ["k3", "k1"] ∧ Parted .usage ["k1", "k2", "k3"] ["k1", "k3"] ∧
    Parted .users ["a1", "u2", "u1"] ["a1", "u1"] ∧ Parted .agents ["c", "a", "b"] ["a", "b"] ∧
    Parted .pairs ["p3", "p2", "p1"] ["p3", "p1"] := by
  have hroot : Principal.breakGlass.role = .superAdmin := rfl
  have hcovers : Covers defaultAdmin "default" := Or.inr ⟨rfl, rfl⟩
  have hparted : ∀ kind ids ids', kind ≠ Kind.audit →
      rowIds (respond exampleEnv twoTenants .breakGlass (.list kind none)) = ids →
      rowIds (respond exampleEnv twoTenants defaultAdmin (.list kind (some "default"))) = ids' →
      ids ≠ [] → Parted kind ids ids' := by
    intro kind ids ids' hkind hids hids' hne
    rcases listing_is_part exampleEnv twoTenants hroot hcovers hkind with
      ⟨r, hr, -⟩ | ⟨all, part, hall, hpart, heq⟩
    · rw [hr] at hids
      exact absurd hids.symm hne
    · rw [hall] at hids
      rw [hpart] at hids'
      exact ⟨all, part, hall, hpart, heq, hids, hids'⟩
  -- the table of the credentials is in order already
  have hlist : ∀ tenantId, Pki.Service.list examplePairs exampleEnv.nowSecs tenantId =
      ((values examplePairs).filter fun r => tenantId.all (· = r.tenantId)).map (PkiRecord.shown 9) :=
    list_of_sorted (by decide +kernel) _
  have hall : rowIds (respond exampleEnv twoTenants .breakGlass (.list .pairs none)) = ["p3", "p2", "p1"] := by
    show ((Pki.Service.list examplePairs exampleEnv.nowSecs none).map _).map Row.id = _
    rw [hlist]
    decide +kernel
  have hpart : rowIds (respond exampleEnv twoTenants defaultAdmin (.list .pairs (some "default"))) =
      ["p3", "p1"] := by
    show ((Pki.Service.list examplePairs exampleEnv.nowSecs (some "default")).map _).map Row.id = _
    rw [hlist]
    decide +kernel
  refine ⟨hparted _ _ _ ?_ ?_ ?_ ?_, hparted _ _ _ ?_ ?_ ?_ ?_, hparted _ _ _ ?_ ?_ ?_ ?_,
    hparted _ _ _ ?_ ?_ ?_ ?_, hparted _ _ _ (by decide) hall hpart (by decide)⟩ <;> decide +kernel

/-- **The page of a tenant agrees with its listings**: the numbers of keys, users and agents are the lengths of
the listings, and the usage is the sum over the rows of the usage listing. -/
theorem page_agrees_with_listings (env : Env) (w : World V) (h : Covers p t) {r : TenantRecord}
    (hr : w.admin.tenant t = some r) : ∃ page keys users agents, ∃ infos : List KeyUsageInfo,
      respond env w p (.tenant t) = .ok (.one (.tenant page)) ∧
      respond env w p (.list .keys (some t)) = .ok (.rows keys) ∧ page.keyCount = keys.length ∧
      respond env w p (.list .users (some t)) = .ok (.rows users) ∧ page.userCount = users.length ∧
      respond env w p (.list .agents (some t)) = .ok (.rows agents) ∧ page.agentCount = agents.length ∧
      respond env w p (.list .usage (some t)) = .ok (.rows (infos.map .usage)) ∧
      page.usage = (infos.map fun i => (i.promptTokens, i.completionTokens, i.totalTokens, i.requests)).sum := by
  obtain rfl : r.id = t := w.ids t r hr
  have hauth : authorize p .tenantRead (some r.id) = .ok () := by
    rcases h with hrole | ⟨hrole, ht⟩
    · simp [authorize, Principal.isSuper, hrole]
    · simp [authorize, Principal.isSuper, hrole, ht, allowed]
  have hpage : tenantById w p r.id = .ok (.one (.tenant (tenantRow w r))) := by
    simp only [tenantById, hauth, hr]
  have hsum : tenantTotals w.usage r.id = ((usageForTenant w.usage r.id).map
      fun i => (i.promptTokens, i.completionTokens, i.totalTokens, i.requests)).sum := by
    rw [tenantTotals_eq_sum]
    refine (((sortOn_perm _ _).map _).trans ?_).sum_eq.symm
    rw [List.map_map]
    exact List.Perm.refl _
  refine ⟨_, _, _, _, _, hpage, keysJson_of_scope w h.not_user (scope_covers h rfl), ?_,
    listUsers_of_scope w (scope_covers h rfl), ?_, listAgents_of_scope env w (scope_covers h rfl), ?_,
    usageJson_of_scope w h.not_user (scope_covers h rfl), hsum⟩
  · rw [List.length_map]
    exact (length_listForTenant w.runtime r.id).symm
  · rw [List.length_map]
    exact (length_usersForTenant w.users r.id).symm
  · rw [List.length_map]
    exact (length_filter_snapshot env w r.id).symm

theorem page_agrees_with_listings_two : ∃ page keys users agents, ∃ infos : List KeyUsageInfo,
    respond exampleEnv twoTenants defaultAdmin (.tenant "default") = .ok (.one (.tenant page)) ∧
    respond exampleEnv twoTenants defaultAdmin (.list .keys (some "default")) = .ok (.rows keys) ∧
    page.keyCount = 2 ∧ keys.length = 2 ∧
    respond exampleEnv twoTenants defaultAdmin (.list .users (some "default")) = .ok (.rows users) ∧
    page.userCount = 2 ∧ users.length = 2 ∧
    respond exampleEnv twoTenants defaultAdmin (.list .agents (some "default")) = .ok (.rows agents) ∧
    page.agentCount = 2 ∧ agents.length = 2 ∧
    respond exampleEnv twoTenants defaultAdmin (.list .usage (some "default")) = .ok (.rows (infos.map .usage)) ∧
    page.usage = (30, 30, 60, 5) ∧
    (infos.map fun i => (i.promptTokens, i.completionTokens, i.totalTokens, i.requests)).sum = (30, 30, 60, 5) := by
  obtain ⟨page, keys, users, agents, infos, hpage, hkeys, hkeyCount, husers, huserCount, hagents, hagentCount,
    husage, hsum⟩ := page_agrees_with_listings exampleEnv twoTenants (p := defaultAdmin) (Or.inr ⟨rfl, rfl⟩)
      (r := Tenants.defaultTenant) rfl
  have hshown : (respond exampleEnv twoTenants defaultAdmin (.tenant "default")) =
      .ok (.one (.tenant (tenantRow twoTenants Tenants.defaultTenant))) := rfl
  obtain rfl : tenantRow twoTenants Tenants.defaultTenant = page :=
    Row.tenant.inj (Listing.one.inj (Except.ok.inj (hshown.symm.trans hpage)))
  have hfigures : (tenantRow twoTenants Tenants.defaultTenant).keyCount = 2 ∧
      (tenantRow twoTenants Tenants.defaultTenant).userCount = 2 ∧
      (tenantRow twoTenants Tenants.defaultTenant).agentCount = 2 ∧
      (tenantRow twoTenants Tenants.defaultTenant).usage = (30, 30, 60, 5) := by decide +kernel
  obtain ⟨hk, hu, ha, hs⟩ := hfigures
  exact ⟨_, keys, users, agents, infos, hpage, hkeys, hk, hkeyCount.symm.trans hk, husers, hu,
    huserCount.symm.trans hu, hagents, ha, hagentCount.symm.trans ha, husage, hs, hsum.symm.trans hs⟩

end parts

end HomeLlmGateway.Admin.Listings
