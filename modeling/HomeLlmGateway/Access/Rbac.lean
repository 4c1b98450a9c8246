import HomeLlmGateway.Storage.Users

/-! # Who may do what

The rules of `gateway/src/access/rbac.rs`: a principal, the actions of its role, and the tenant that it is
confined to. What the handlers make of them is in `Admin.Handlers`. -/

namespace HomeLlmGateway.Access.Rbac

open HomeLlmGateway.Storage.Users

/-! ### Principals -/

inductive AuthSource where
  | session
  | breakGlass
  deriving DecidableEq

structure Principal where
  userId : Option String
  username : String
  role : UserRole
  tenantId : Option String
  source : AuthSource
  deriving DecidableEq

namespace Principal

/-- `break_glass`. -/
def breakGlass : Principal := ⟨none, "admin", .superAdmin, none, .breakGlass⟩

/-- `for_user`. -/
def forUser (user : UserRecord) : Principal := ⟨some user.id, user.username, user.role, user.tenantId, .session⟩

def isSuper (p : Principal) : Bool := p.role = .superAdmin

def isBreakGlass (p : Principal) : Bool := p.source = .breakGlass

end Principal

inductive Action where
  | tenantRead
  | tenantWrite
  | agentTokenRotate
  | agentRead
  | keyRead
  | keyWrite
  | userRead
  | userWrite
  | usageRead
  | pkiRead
  | pkiWrite
  | metricsGlobal
  | auditRead
  deriving DecidableEq

inductive RbacError where
  | forbidden
  | notFound
  deriving DecidableEq

def RbacError.status : RbacError → ℕ
  | .forbidden => 403
  | .notFound => 404

def RbacError.message : RbacError → String
  | .forbidden => "permission denied"
  | .notFound => "resource not found"

/-! ### Rules -/

/-- `effective_tenant`. -/
def effectiveTenant (p : Principal) (requested : Option String) : Except RbacError (Option String) :=
  if p.isSuper then .ok requested
  else
    match p.tenantId with
    | none => .error .forbidden
    | some own => if requested.any (· ≠ own) then .error .notFound else .ok (some own)

/-- What a role may do in its own tenant. -/
def allowed : UserRole → Action → Bool
  | .superAdmin, _ => true
  | .tenantAdmin, .tenantWrite | .tenantAdmin, .metricsGlobal | .tenantAdmin, .auditRead => false
  | .tenantAdmin, _ => true
  | .user, .tenantRead | .user, .keyRead | .user, .keyWrite | .user, .usageRead => true
  | .user, _ => false

def authorize (p : Principal) (action : Action) (requestedTenant : Option String) : Except RbacError Unit :=
  if p.isSuper then .ok ()
  else
    match p.tenantId with
    | none => .error .forbidden
    | some own =>
      if requestedTenant.any (· ≠ own) then .error .notFound
      else if allowed p.role action then .ok () else .error .forbidden

/-- `can_create_user`. -/
def canCreateUser (p : Principal) (role : UserRole) (requestedTenant : Option String) :
    Except RbacError (Option String) :=
  if p.isSuper then .ok requestedTenant
  else if p.role ≠ .tenantAdmin ∨ role ≠ .user then .error .forbidden
  else if requestedTenant.any (fun t => some t ≠ p.tenantId) then .error .notFound
  else .ok p.tenantId

/-- `can_change_user_scope`. -/
def canChangeUserScope (p : Principal) : Bool := p.isSuper

/-- `can_manage_user`. -/
def canManageUser (p : Principal) (target : UserRecord) (write : Bool) : Except RbacError Unit :=
  if p.isSuper then .ok ()
  else if p.role ≠ .tenantAdmin ∨ !write then .error .forbidden
  else if target.role ≠ .user then .error .forbidden
  else if p.tenantId ≠ target.tenantId then .error .notFound
  else .ok ()

/-! ### What follows for principals that are not super admins -/

section rules

variable {p : Principal} {action : Action} {role : UserRole}

theorem authorize_ok {requested : Option String} (hp : p.isSuper = false)
    (h : authorize p action requested = .ok ()) :
    (∀ t, requested = some t → p.tenantId = some t) ∧ allowed p.role action = true := by
  simp only [authorize, hp, Bool.false_eq_true, if_false] at h
  split at h
  · cases h
  · next own hown =>
    split_ifs at h with hne hall
    refine ⟨fun t ht => ?_, hall⟩
    rw [ht] at hne
    have : t = own := by simpa using hne
    rw [hown, this]

theorem not_tenantWrite {requested : Option String} (hp : p.isSuper = false) :
    authorize p .tenantWrite requested ≠ .ok () := by
  intro h
  have hall := (authorize_ok hp h).2
  cases hrole : p.role with
  | superAdmin => simp [Principal.isSuper, hrole] at hp
  | tenantAdmin => simp [allowed, hrole] at hall
  | user => simp [allowed, hrole] at hall

/-- Another tenant is not there, for whoever has one. -/
theorem authorize_other {own t : String} (hp : p.isSuper = false) (hown : p.tenantId = some own)
    (ht : t ≠ own) : authorize p action (some t) = .error .notFound := by
  simp [authorize, hp, hown, ht]

theorem canCreateUser_ok {requested t : Option String} (hp : p.isSuper = false)
    (h : canCreateUser p role requested = .ok t) :
    p.role = .tenantAdmin ∧ role = .user ∧ t = p.tenantId := by
  simp only [canCreateUser, hp, Bool.false_eq_true, if_false] at h
  split_ifs at h with hrole htenant
  cases h
  push Not at hrole
  exact ⟨hrole.1, hrole.2, rfl⟩

theorem canManageUser_ok {target : UserRecord} {write : Bool} (hp : p.isSuper = false)
    (h : canManageUser p target write = .ok ()) :
    p.role = .tenantAdmin ∧ target.role = .user ∧ target.tenantId = p.tenantId := by
  simp only [canManageUser, hp, Bool.false_eq_true, if_false] at h
  split_ifs at h with h1 h2 h3
  push Not at h1 h2 h3
  exact ⟨h1.1, h2, h3.symm⟩

theorem canManageUser_other {target : UserRecord} (write : Bool) (hp : p.isSuper = false)
    (ht : target.tenantId ≠ p.tenantId) : ∃ e, canManageUser p target write = .error e := by
  simp only [canManageUser, hp, Bool.false_eq_true, if_false]
  split_ifs with h1 h2 h3
  · exact ⟨.forbidden, rfl⟩
  · exact ⟨.forbidden, rfl⟩
  · exact ⟨.notFound, rfl⟩
  · exact absurd (not_not.mp h3).symm ht

end rules

end HomeLlmGateway.Access.Rbac
