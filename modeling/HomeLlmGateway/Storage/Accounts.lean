import HomeLlmGateway.Lib.Runs
import HomeLlmGateway.Lib.Holding
import HomeLlmGateway.Storage.Users
import HomeLlmGateway.Storage.Versions

/-! # Users and their keys

The calls on dashboard users (`gateway/src/storage/users.rs`) and on API keys
(`gateway/src/storage/keys.rs`), any number of them at once. The users are in memory, by id and by name, and
in the `users` table; the keys are in memory and in the `api_keys` table. A step is one section under a lock
or one statement of the database, so a call may stand between any two of its writes while others go on, and
a restart may come between them; what a call read before it may be out of date when it writes.

Sessions are left out: no call reads them. -/

namespace HomeLlmGateway.Storage.Accounts

open HomeLlmGateway.Lib.Assoc
open HomeLlmGateway.Proto.Http (toAsciiLowercase)
open HomeLlmGateway.Storage.Cache (KeyRecord)
open HomeLlmGateway.Storage.Keys (Config DisablePc rowsAfter loadKeys)
open HomeLlmGateway.Storage.Users

/-! ### The store -/

/-- What the calls share. -/
structure Store where
  keys : Keys.Store
  /-- the `api_keys` table, by lookup -/
  keyRows : HashMap String KeyRecord
  users : HashMap String UserRecord
  usernames : HashMap String String
  /-- the `users` table, by id -/
  userRows : HashMap String UserRecord

/-- A write to the users, in memory or in the table. -/
inductive Write where
  | insertRow (record : UserRecord)
  /-- `UPDATE .. WHERE id = ..` -/
  | changeRow (id : String) (f : UserRecord → UserRecord)
  | deleteRow (id : String)
  /-- `usernames.insert` -/
  | index (username id : String)
  /-- `usernames.retain`, then `usernames.insert` -/
  | reindex (username id : String)
  | unindex (id : String)
  | publish (id : String) (record : UserRecord)
  /-- `users.get_mut` -/
  | changeUser (id : String) (f : UserRecord → UserRecord)
  | remove (id : String)

def Store.write (st : Store) : Write → Store
  | .insertRow record => { st with userRows := st.userRows.insert record.id record }
  | .changeRow id f => { st with userRows := modify id f st.userRows }
  | .deleteRow id => { st with userRows := st.userRows.erase id }
  | .index username id => { st with usernames := st.usernames.insert username id }
  | .reindex username id =>
    { st with usernames := (retain (fun _ v => v ≠ id) st.usernames).insert username id }
  | .unindex id => { st with usernames := retain (fun _ v => v ≠ id) st.usernames }
  | .publish id record => { st with users := st.users.insert id record }
  | .changeUser id f => { st with users := modify id f st.users }
  | .remove id => { st with users := st.users.erase id }

section write

variable (st : Store) (id v : String) (r : UserRecord) (f : UserRecord → UserRecord)

theorem lookup_insertRow : (st.write (.insertRow r)).userRows.lookup v =
    if v = r.id then some r else st.userRows.lookup v := lookup_insert _ _ _ _

theorem lookup_changeRow : (st.write (.changeRow id f)).userRows.lookup v =
    if v = id then (st.userRows.lookup v).map f else st.userRows.lookup v := lookup_modify _ _ _ _

theorem lookup_deleteRow : (st.write (.deleteRow id)).userRows.lookup v =
    if v = id then none else st.userRows.lookup v := lookup_erase _ _ _

theorem lookup_publish : (st.write (.publish id r)).users.lookup v =
    if v = id then some r else st.users.lookup v := lookup_insert _ _ _ _

theorem lookup_changeUser : (st.write (.changeUser id f)).users.lookup v =
    if v = id then (st.users.lookup v).map f else st.users.lookup v := lookup_modify _ _ _ _

theorem lookup_remove : (st.write (.remove id)).users.lookup v =
    if v = id then none else st.users.lookup v := lookup_erase _ _ _

theorem lookup_index (name : String) : (st.write (.index name id)).usernames.lookup v =
    if v = name then some id else st.usernames.lookup v := lookup_insert _ _ _ _

theorem lookup_unindex : (st.write (.unindex id)).usernames.lookup v =
    (st.usernames.lookup v).filter fun u => decide (u ≠ id) := lookup_retain _ _ _

theorem lookup_reindex (name : String) : (st.write (.reindex name id)).usernames.lookup v =
    if v = name then some id else (st.usernames.lookup v).filter fun u => decide (u ≠ id) := by
  rw [← lookup_unindex]
  exact lookup_insert _ _ _ _

end write

/-! ### The calls -/

/-- Where a call of `create_user` stands. -/
inductive CreateUserPc where
  | start
  | checking (username : String)
  | inserting (username : String)
  | indexing (record : UserRecord)
  | publishing (record : UserRecord)
  | done (result : Except UserError UserRecord)
  deriving DecidableEq

/-- The checks of `update_user` that read something. -/
inductive Check where
  | usernameFree
  | roleTenant
  | notLastSuper
  | password
  deriving DecidableEq

/-- Where a call of `update_user` stands, with the record it has read and the one it writes. -/
inductive UpdateUserPc where
  | start
  | checking (current : UserRecord) (username : String) (checks : List Check)
  | updatingRow (current : UserRecord) (username : String)
  | reindexing (current updated : UserRecord)
  | publishing (current updated : UserRecord)
  /-- in `disable_keys_for_owner` -/
  | sweeping (updated : UserRecord) (pc : DisablePc)
  | done (result : Except UserError UserRecord)
  deriving DecidableEq

/-- Where a call of `delete_user` stands. -/
inductive DeleteUserPc where
  | start
  | checking
  /-- in `disable_keys_for_owner` -/
  | sweeping (pc : DisablePc)
  | deletingRow
  | unindexing
  | removing
  | done (result : Except UserError Unit)
  deriving DecidableEq

/-- Where a call of `set_user_password` stands. -/
inductive SetPasswordPc where
  | start
  | updatingRow (current : UserRecord)
  | writing (current : UserRecord) (hash : String)
  | done (result : Except UserError Unit)
  deriving DecidableEq

/-- Where a call of `record_login` stands. -/
inductive RecordLoginPc where
  | start
  | updatingRow (now : ℕ)
  | touching (now : ℕ)
  | done
  deriving DecidableEq

inductive Call where
  | createUser (username password : String) (role : UserRole) (tenantId createdBy : Option String)
      (pc : CreateUserPc)
  | updateUser (id : String) (patch : UserPatch) (pc : UpdateUserPc)
  | deleteUser (id : String) (pc : DeleteUserPc)
  | setUserPassword (id password : String) (pc : SetPasswordPc)
  | recordLogin (id : String) (pc : RecordLoginPc)
  /-- a call on the key store -/
  | key (c : Keys.Call)
  deriving DecidableEq

/-- What the environment answers: the table of tenants, the random source and argon2, the clock, the
database. -/
inductive Answer where
  | silent
  | tenant (enabled : Option Bool)
  | clock (now : ℕ)
  /-- the statement is executed; `id` and `hash` were made for it -/
  | written (id hash : String) (now : ℕ)
  | failed (error : String)
  /-- what the key store asks for -/
  | key (a : Keys.Answer)
  deriving DecidableEq

/-! ### `create_user` -/

/-- What `create_user` checks first; the name it goes on with. -/
def createUserCheck (username password : String) (role : UserRole) (tenantId : Option String)
    (found : Bool) : Except UserError String := do
  let name ← validateUsername username
  validatePassword password
  ensureRoleTenant role tenantId found
  pure name

/-- Where `create_user` goes on after its first checks. -/
def CreateUserPc.after : Except UserError String → CreateUserPc
  | .ok name => .checking name
  | .error e => .done (.error e)

def createUserStep (st : Store) (a : Answer) (username password : String) (role : UserRole)
    (tenantId createdBy : Option String) : CreateUserPc → Option (Store × CreateUserPc)
  | .start =>
    match a with
    | .tenant t => some (st, .after (createUserCheck username password role tenantId t.isSome))
    | _ => none
  | .checking name =>
    if (st.usernames.lookup name).isSome then some (st, .done (.error .usernameTaken))
    else some (st, .inserting name)
  | .inserting name =>
    match a with
    | .written id hash now =>
      if taken st.userRows id name then some (st, .done (.error .usernameTaken))
      else
        let record := ⟨id, tenantId, name, hash, role, true, now, now, 0, createdBy⟩
        some (st.write (.insertRow record), .indexing record)
    | .failed e => some (st, .done (.error (.database e)))
    | _ => none
  | .indexing record => some (st.write (.index record.username record.id), .publishing record)
  | .publishing record => some (st.write (.publish record.id record), .done (.ok record))
  | .done _ => none

/-! ### `update_user` -/

/-- The role that a patch leads to, and so on. -/
def UserPatch.newRole (p : UserPatch) (current : UserRecord) : UserRole := p.role.getD current.role

@[inherit_doc UserPatch.newRole]
def UserPatch.newTenant (p : UserPatch) (current : UserRecord) : Option String :=
  p.tenantId.getD current.tenantId

@[inherit_doc UserPatch.newRole]
def UserPatch.newEnabled (p : UserPatch) (current : UserRecord) : Bool := p.enabled.getD current.enabled

/-- The checks that `update_user` makes, in order. -/
def checksOf (current : UserRecord) (patch : UserPatch) (username : String) : List Check :=
  (if username ≠ current.username then [.usernameFree] else []) ++ [.roleTenant] ++
    (if !UserPatch.newEnabled patch current && current.isEnabledSuper then [.notLastSuper] else []) ++
    (if UserPatch.newRole patch current ≠ .superAdmin ∧ current.role = .superAdmin then [.notLastSuper]
      else []) ++
    if patch.password.isSome then [.password] else []

/-- One check; `none` if the environment owes an answer. -/
def runCheck (st : Store) (a : Answer) (id : String) (current : UserRecord) (patch : UserPatch)
    (username : String) : Check → Option (Except UserError Unit)
  | .usernameFree =>
    some (if (st.usernames.lookup username).any (· ≠ id) then .error .usernameTaken else .ok ())
  | .roleTenant =>
    match a with
    | .tenant t => some (ensureRoleTenant (UserPatch.newRole patch current)
        (UserPatch.newTenant patch current) t.isSome)
    | _ => none
  | .notLastSuper => some (ensureNotLastSuper st.users id)
  | .password => some (validatePassword (patch.password.getD ""))

/-- The record that `update_user` writes. -/
def updatedRecord (current : UserRecord) (patch : UserPatch) (username hash : String) (now : ℕ) : UserRecord where
  id := current.id
  tenantId := UserPatch.newTenant patch current
  username := username
  passwordHash := if patch.password.isSome then hash else current.passwordHash
  role := UserPatch.newRole patch current
  enabled := UserPatch.newEnabled patch current
  createdAt := current.createdAt
  updatedAt := now
  lastLoginAt := current.lastLoginAt
  createdBy := current.createdBy

/-- The columns that `update_user` sets. -/
def updateColumns (updated row : UserRecord) : UserRecord :=
  { row with
    tenantId := updated.tenantId
    username := updated.username
    passwordHash := updated.passwordHash
    role := updated.role
    enabled := updated.enabled
    updatedAt := updated.updatedAt }

/-- A call of `disable_keys_for_owner` made by another call. -/
def sweepStep (cfg : Config) (st : Store) (owner : String) (a : Keys.Answer) (pc : DisablePc) :
    Option (Store × DisablePc) :=
  (Keys.disableStep st.keys owner a pc).map fun p =>
    ({ st with keys := p.1, keyRows := rowsAfter cfg st.keyRows a (.disableKeysForOwner owner pc) }, p.2)

theorem users_of_sweepStep {cfg : Config} {st st' : Store} {owner : String} {a : Keys.Answer}
    {pc pc' : DisablePc} (h : sweepStep cfg st owner a pc = some (st', pc')) :
    st'.users = st.users ∧ st'.userRows = st.userRows ∧ st'.usernames = st.usernames := by
  obtain ⟨p, -, he⟩ := Option.map_eq_some_iff.mp h
  cases he
  exact ⟨rfl, rfl, rfl⟩

/-- The call has returned; its result is not looked at. -/
def isOver : DisablePc → Bool
  | .failed _ => true
  | .done _ => true
  | _ => false

def updateUserStep (cfg : Config) (st : Store) (a : Answer) (id : String) (patch : UserPatch) :
    UpdateUserPc → Option (Store × UpdateUserPc)
  | .start =>
    match st.users.lookup id with
    | none => some (st, .done (.error .notFound))
    | some current =>
      match patch.username.elim (.ok current.username) validateUsername with
      | .error e => some (st, .done (.error e))
      | .ok name => some (st, .checking current name (checksOf current patch name))
  | .checking current name (check :: checks) =>
    (runCheck st a id current patch name check).map fun r =>
      match r with
      | .error e => (st, .done (.error e))
      | .ok () => (st, .checking current name checks)
  | .checking current name [] => some (st, .updatingRow current name)
  | .updatingRow current name =>
    match a with
    | .written _ hash now =>
      -- a statement that changes no row breaks no index
      if (st.userRows.lookup id).isSome && taken st.userRows id name then
        some (st, .done (.error .usernameTaken))
      else
        let updated := updatedRecord current patch name hash now
        some (st.write (.changeRow id (updateColumns updated)), .reindexing current updated)
    | .failed e => some (st, .done (.error (.database e)))
    | _ => none
  | .reindexing current updated =>
    some (st.write (.reindex updated.username id), .publishing current updated)
  | .publishing _ updated =>
    some (st.write (.publish id updated),
      if updated.enabled then .done (.ok updated) else .sweeping updated .start)
  | .sweeping updated pc =>
    match a with
    | .key a => (sweepStep cfg st id a pc).map fun p =>
        (p.1, if isOver p.2 then .done (.ok updated) else .sweeping updated p.2)
    | _ => none
  | .done _ => none

/-! ### `delete_user`, `set_user_password`, `record_login` -/

def deleteUserStep (cfg : Config) (st : Store) (a : Answer) (id : String) :
    DeleteUserPc → Option (Store × DeleteUserPc)
  | .start =>
    match st.users.lookup id with
    | none => some (st, .done (.error .notFound))
    | some current => some (st, if current.role = .superAdmin then .checking else .sweeping .start)
  | .checking =>
    match ensureNotLastSuper st.users id with
    | .error e => some (st, .done (.error e))
    | .ok () => some (st, .sweeping .start)
  | .sweeping pc =>
    match a with
    | .key a => (sweepStep cfg st id a pc).map fun p =>
        (p.1, if isOver p.2 then .deletingRow else .sweeping p.2)
    | _ => none
  | .deletingRow =>
    match a with
    | .written _ _ _ => some (st.write (.deleteRow id), .unindexing)
    | .failed e => some (st, .done (.error (.database e)))
    | _ => none
  | .unindexing => some (st.write (.unindex id), .removing)
  | .removing => some (st.write (.remove id), .done (.ok ()))
  | .done _ => none

def setPasswordStep (st : Store) (a : Answer) (id password : String) :
    SetPasswordPc → Option (Store × SetPasswordPc)
  | .start =>
    match validatePassword password, st.users.lookup id with
    | .error e, _ => some (st, .done (.error e))
    | .ok (), none => some (st, .done (.error .notFound))
    | .ok (), some current => some (st, .updatingRow current)
  | .updatingRow current =>
    match a with
    | .written _ hash now =>
      some (st.write (.changeRow id fun row => { row with passwordHash := hash, updatedAt := now }),
        .writing current hash)
    | .failed e => some (st, .done (.error (.database e)))
    | _ => none
  | .writing current hash =>
    match a with
    | .clock now =>
      some (st.write (.changeUser id fun _ => { current with passwordHash := hash, updatedAt := now }),
        .done (.ok ()))
    | _ => none
  | .done _ => none

def recordLoginStep (st : Store) (a : Answer) (id : String) : RecordLoginPc → Option (Store × RecordLoginPc)
  | .start =>
    match a with
    | .clock now => some (st, .updatingRow now)
    | _ => none
  | .updatingRow now =>
    match a with
    | .written _ _ _ =>
      some (st.write (.changeRow id fun row => { row with lastLoginAt := now, updatedAt := now }), .touching now)
    | .failed _ => some (st, .touching now)
    | _ => none
  | .touching now =>
    some (st.write (.changeUser id fun u => { u with updatedAt := now, lastLoginAt := now }), .done)
  | .done => none

/-! ### What has been changed -/

/-- A field of a user, with a value. -/
inductive Field where
  | username (v : String)
  | role (v : UserRole)
  | tenantId (v : Option String)
  | enabled (v : Bool)
  | passwordHash (v : String)
  deriving DecidableEq

/-- The two are about the same field. -/
def Field.same : Field → Field → Bool
  | .username _, .username _ => true
  | .role _, .role _ => true
  | .tenantId _, .tenantId _ => true
  | .enabled _, .enabled _ => true
  | .passwordHash _, .passwordHash _ => true
  | _, _ => false

/-- The user has this value in this field. -/
def Has (u : UserRecord) : Field → Prop
  | .username v => u.username = v
  | .role v => u.role = v
  | .tenantId v => u.tenantId = v
  | .enabled v => u.enabled = v
  | .passwordHash v => u.passwordHash = v

/-- A change that a completed call has made. -/
inductive What where
  | created (record : UserRecord)
  | set (fields : List Field)
  | deleted
  deriving DecidableEq

structure Change where
  user : String
  what : What
  deriving DecidableEq

/-- The fields that a patch changes. -/
def fieldsOf (patch : UserPatch) (updated : UserRecord) : List Field :=
  (if patch.username.isSome then [.username updated.username] else []) ++
    (if patch.role.isSome then [.role updated.role] else []) ++
    (if patch.tenantId.isSome then [.tenantId updated.tenantId] else []) ++
    (if patch.enabled.isSome then [.enabled updated.enabled] else []) ++
    if patch.password.isSome then [.passwordHash updated.passwordHash] else []

/-- The change of a call that has begun to write. -/
def pendingChange : Call → Option Change
  | .createUser _ _ _ _ _ (.indexing r) | .createUser _ _ _ _ _ (.publishing r) => some ⟨r.id, .created r⟩
  | .updateUser id patch (.reindexing _ r) | .updateUser id patch (.publishing _ r)
  | .updateUser id patch (.sweeping r _) => some ⟨id, .set (fieldsOf patch r)⟩
  | .deleteUser id .unindexing | .deleteUser id .removing => some ⟨id, .deleted⟩
  | .setUserPassword id _ (.writing _ hash) => some ⟨id, .set [.passwordHash hash]⟩
  | _ => none

/-! ### The system -/

/-- The user that a call under way is about. A login is about its time stamps only. -/
def held : Call → Option String
  | .createUser _ _ _ _ _ (.indexing r) | .createUser _ _ _ _ _ (.publishing r) => some r.id
  | .createUser _ _ _ _ _ _ => none
  | .updateUser _ _ (.done _) => none
  | .updateUser id _ _ => some id
  | .deleteUser _ (.done _) => none
  | .deleteUser id _ => some id
  | .setUserPassword _ _ (.done _) => none
  | .setUserPassword id _ _ => some id
  | .recordLogin _ _ => none
  | .key (.createIn _ _ _ (.failed _)) | .key (.createIn _ _ _ (.done _ _)) => none
  | .key (.createIn _ owner _ _) => owner
  | .key (.disableKeysForOwner owner pc) => if isOver pc then none else some owner
  | .key _ => none

/-- The user that a call names, whether it is under way or not. -/
def names : Call → Option String
  | .createUser _ _ _ _ _ pc =>
    match pc with
    | .indexing r | .publishing r | .done (.ok r) => some r.id
    | _ => none
  | .updateUser id _ _ | .deleteUser id _ | .setUserPassword id _ _ | .recordLogin id _ => some id
  | .key (.createIn _ owner _ _) => owner
  | .key (.disableKeysForOwner owner _) => some owner
  | .key _ => none

/-- The key that a call has put into the table and not yet into memory. -/
def creating : Call → Option KeyRecord
  | .key (.createIn _ _ _ (.bumping r _)) | .key (.createIn _ _ _ (.publishing r _)) => some r
  | _ => none

/-- The key that a call deletes. -/
def deleting : Call → Option String
  | .key (.delete id _) => some id
  | _ => none

structure State where
  store : Store
  calls : HashMap ℕ Call
  /-- the changes of completed calls -/
  log : List Change

/-- The first start, with empty tables. -/
def init : State := ⟨⟨(Keys.init (loadKeys ∅)).store, ∅, ∅, ∅, ∅⟩, ∅, []⟩

/-- A user id of 16 random bytes is new: nothing has it, and nobody has named it. -/
def freshUser (s : State) (id : String) : Bool :=
  (s.store.users.lookup id).isNone && (s.store.userRows.lookup id).isNone &&
    (values s.store.keys.runtime).all (fun r => r.ownerUserId ≠ some id) &&
    (values s.store.keyRows).all (fun r => r.ownerUserId ≠ some id) &&
    (values s.calls).all (fun c => names c ≠ some id) && s.log.all fun ch => ch.user ≠ id

/-- A key id of 16 and a key of 24 random bytes are new. -/
def freshKey (s : State) (id lookup : String) : Bool :=
  (s.store.keys.runtime.lookup lookup).isNone && (s.store.keyRows.lookup lookup).isNone &&
    (values s.store.keys.runtime).all (fun r => r.id ≠ id) && (values s.store.keyRows).all (fun r => r.id ≠ id) &&
    (values s.calls).all fun c => (creating c).all (fun r => r.lookup ≠ lookup) && deleting c ≠ some id

/-- The answers that can be: random values are new, and what `create_in` reads of the owner is so. -/
def possible (cfg : Config) (s : State) : Call → Answer → Bool
  | .createUser _ _ _ _ _ (.inserting _), .written id _ _ => freshUser s id
  | .key (.createIn _ _ _ (.inserting _)), .key (.inserted id plaintext _ _) =>
    freshKey s id (cfg.lookupOf plaintext)
  | .key (.createIn _ (some owner) _ .start), .key (.tables _ userTenant) =>
    userTenant = (s.store.users.lookup owner).map UserRecord.tenantId
  | _, _ => true

/-- A new call, at its start. -/
inductive Request where
  | createUser (username password : String) (role : UserRole) (tenantId createdBy : Option String)
  | updateUser (id : String) (patch : UserPatch)
  | deleteUser (id : String)
  | setUserPassword (id password : String)
  | recordLogin (id : String)
  | key (r : Keys.Request)
  deriving DecidableEq

def Request.call : Request → Call
  | .createUser username password role tenantId createdBy =>
    .createUser username password role tenantId createdBy .start
  | .updateUser id patch => .updateUser id patch .start
  | .deleteUser id => .deleteUser id .start
  | .setUserPassword id password => .setUserPassword id password .start
  | .recordLogin id => .recordLogin id .start
  | .key r => .key r.call

inductive Label where
  /-- the call `i` begins -/
  | start (i : ℕ) (request : Request)
  /-- it goes on -/
  | step (i : ℕ) (a : Answer)
  /-- the process ends and starts again on its tables -/
  | restart
  deriving DecidableEq

def callStep (cfg : Config) (st : Store) (a : Answer) : Call → Option (Store × Call)
  | .createUser username password role tenantId createdBy pc =>
    (createUserStep st a username password role tenantId createdBy pc).map fun p =>
      (p.1, .createUser username password role tenantId createdBy p.2)
  | .updateUser id patch pc => (updateUserStep cfg st a id patch pc).map fun p => (p.1, .updateUser id patch p.2)
  | .deleteUser id pc => (deleteUserStep cfg st a id pc).map fun p => (p.1, .deleteUser id p.2)
  | .setUserPassword id password pc =>
    (setPasswordStep st a id password pc).map fun p => (p.1, .setUserPassword id password p.2)
  | .recordLogin id pc => (recordLoginStep st a id pc).map fun p => (p.1, .recordLogin id p.2)
  | .key c =>
    match a with
    | .key a => (Keys.callStep cfg st.keys a c).map fun p =>
        ({ st with keys := p.1, keyRows := rowsAfter cfg st.keyRows a c }, .key p.2)
    | _ => none

/-- The change that the call has made, when it returns. -/
def completed (c c' : Call) : List Change :=
  if (held c').isNone then (pendingChange c).toList else []

/-- `Storage::new` on the tables that the process leaves. -/
def Store.reload (st : Store) : Store where
  keys := (Keys.init (loadKeys st.keyRows)).store
  keyRows := st.keyRows
  users := st.userRows
  usernames := insertAll ∅ (st.userRows.entries.map fun e => (toAsciiLowercase e.2.username, e.2.id))
  userRows := st.userRows

def step (cfg : Config) (s : State) : Label → Option State
  | .start i request =>
    match s.calls.lookup i with
    | none => some { s with calls := s.calls.insert i request.call }
    | some _ => none
  | .step i a =>
    (s.calls.lookup i).bind fun c =>
      if possible cfg s c a then
        (callStep cfg s.store a c).map fun p => ⟨p.1, s.calls.insert i p.2, s.log ++ completed c p.2⟩
      else none
  | .restart => some ⟨s.store.reload, ∅, s.log⟩

/-! ### An example -/

/-- The user `u1` of the tenant `alpha` is created. -/
def createsUser : List Label :=
  [.start 0 (.createUser "alice" "correct horse" .user (some "alpha") none), .step 0 (.tenant (some true)),
    .step 0 .silent, .step 0 (.written "u1" "h1" 1), .step 0 .silent, .step 0 .silent]

end HomeLlmGateway.Storage.Accounts
