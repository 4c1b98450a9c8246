import HomeLlmGateway.Lib.Assoc
import HomeLlmGateway.Proto.Http

/-! # Dashboard users

The records of `gateway/src/storage/user.rs`, and the checks that the calls of
`gateway/src/storage/users.rs` make on them. The calls themselves are in `Storage.Accounts`. -/

namespace HomeLlmGateway.Storage.Users

open HomeLlmGateway.Lib.Assoc
open HomeLlmGateway.Proto.Http (trim toAsciiLowercase eqIgnoreAsciiCase)

/-! ### Records -/

/-- `UserRole`. -/
inductive UserRole where
  | superAdmin
  | tenantAdmin
  | user
  deriving DecidableEq

/-- `UserRecord`. -/
structure UserRecord where
  id : String
  tenantId : Option String
  username : String
  passwordHash : String
  role : UserRole
  enabled : Bool
  createdAt : ℕ
  updatedAt : ℕ
  lastLoginAt : ℕ
  createdBy : Option String
  deriving DecidableEq

/-- `UserPatch`: `none` keeps the value, `some none` clears the tenant. -/
structure UserPatch where
  username : Option String
  role : Option UserRole
  tenantId : Option (Option String)
  enabled : Option Bool
  password : Option String
  deriving DecidableEq

/-- `UserError`, as far as the calls return it. -/
inductive UserError where
  | notFound
  | invalidUsername
  | invalidPassword
  | usernameTaken
  | tenantRequired
  | tenantMismatch
  | lastSuperAdmin
  | database (message : String)
  deriving DecidableEq

/-! ### Checks -/

/-- `char::is_ascii_alphanumeric`. -/
def isAsciiAlphanumeric (c : Char) : Bool := c.isUpper || c.isLower || c.isDigit

/-- `validate_username`. -/
def validateUsername (username : String) : Except UserError String :=
  let normalized := toAsciiLowercase (String.ofList (trim username.toList))
  let count := normalized.toList.length
  if ¬ (3 ≤ count ∧ count ≤ 32) then .error .invalidUsername
  else
    match normalized.toList with
    | [] => .error .invalidUsername
    | first :: rest =>
      if !isAsciiAlphanumeric first then .error .invalidUsername
      else if !rest.all fun c => isAsciiAlphanumeric c || c == '.' || c == '_' || c == '-' then
        .error .invalidUsername
      else .ok normalized

/-- `validate_password`. -/
def validatePassword (password : String) : Except UserError Unit :=
  if 12 ≤ password.toList.length ∧ password.toList.length ≤ 128 then .ok () else .error .invalidPassword

/-- `ensure_role_tenant`; `found` says whether the tenant, if one is given, is there. -/
def ensureRoleTenant (role : UserRole) (tenantId : Option String) (found : Bool) : Except UserError Unit :=
  match role, tenantId with
  | .superAdmin, none => .ok ()
  | .superAdmin, some _ => .error .tenantMismatch
  | _, none => .error .tenantRequired
  | _, some _ => if found then .ok () else .error .tenantRequired

/-- An enabled super admin. -/
def UserRecord.isEnabledSuper (u : UserRecord) : Bool := u.role = .superAdmin && u.enabled

/-- `ensure_not_last_super`. -/
def ensureNotLastSuper (users : HashMap String UserRecord) (targetId : String) : Except UserError Unit :=
  if (users.lookup targetId).any UserRecord.isEnabledSuper ∧ countVal UserRecord.isEnabledSuper users ≤ 1 then
    .error .lastSuperAdmin
  else .ok ()

/-- The unique index on usernames, `COLLATE NOCASE`, refuses the name for the user `id`. -/
def taken (rows : HashMap String UserRecord) (id username : String) : Bool :=
  rows.entries.any fun e => e.1 ≠ id && eqIgnoreAsciiCase e.2.username username

theorem ne_of_not_taken {rows : HashMap String UserRecord} {id username v : String} {r : UserRecord}
    (h : taken rows id username = false) (hv : v ≠ id) (hr : rows.lookup v = some r) :
    r.username ≠ username := by
  rintro rfl
  have := List.any_eq_false.mp h ⟨v, r⟩ ((mem_entries_iff rows v r).mpr hr)
  simp [hv, eqIgnoreAsciiCase] at this

/-! ### Records up to time stamps -/

/-- The record without `updated_at` and `last_login_at`. -/
def UserRecord.core (u : UserRecord) : UserRecord := { u with updatedAt := 0, lastLoginAt := 0 }

theorem UserRecord.eq_of_core {u v : UserRecord} (h : u.core = v.core) :
    u.id = v.id ∧ u.tenantId = v.tenantId ∧ u.username = v.username ∧ u.enabled = v.enabled := by
  simp only [UserRecord.core, UserRecord.mk.injEq] at h
  exact ⟨h.1, h.2.1, h.2.2.1, h.2.2.2.2.2.1⟩

end HomeLlmGateway.Storage.Users
