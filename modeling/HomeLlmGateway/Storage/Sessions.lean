import HomeLlmGateway.Storage.Accounts

/-! # Sessions

The dashboard sessions of `gateway/src/storage/sessions.rs`, with `login` of
`gateway/src/access/session.rs`, over the users and keys of `Storage.Accounts`: sessions are opened by
logins and revoked by the calls that change a user. They are in memory and in the `sessions` table, both by
the hash of the token. As there, a step is one section under a lock or one statement of the database.

`login` goes on with `prune_expired_sessions` and `record_login`; they are calls of their own here. Its rate
limiter is left out. -/

namespace HomeLlmGateway.Storage.Sessions

open HomeLlmGateway.Lib.Assoc
open HomeLlmGateway.Proto.Http (trim toAsciiLowercase eqIgnoreAsciiCase)
open HomeLlmGateway.Storage.Keys (Config)
open HomeLlmGateway.Storage.Users

/-! ### The store -/

/-- `SessionRecord`. -/
structure SessionRecord where
  id : String
  userId : String
  tokenHash : String
  createdAt : ℕ
  expiresAt : ℕ
  deriving DecidableEq

/-- The sessions in memory and the `sessions` table. -/
structure Store where
  sessions : HashMap String SessionRecord
  rows : HashMap String SessionRecord

/-- One `DELETE` for each hash; those in `failed` fail, which nobody looks at. -/
def Store.deleteRows (st : Store) (hashes failed : List String) : Store :=
  { st with rows := retain (fun h _ => h ∉ hashes ∨ h ∈ failed) st.rows }

def Store.removeAll (st : Store) (hashes : List String) : Store :=
  { st with sessions := retain (fun h _ => h ∉ hashes) st.sessions }

/-- `user_by_username`. -/
def userByUsername (st : Accounts.Store) (username : String) : Option UserRecord :=
  let name := toAsciiLowercase (String.ofList (trim username.toList))
  ((st.usernames.lookup name).bind fun id => st.users.lookup id).or
    ((values st.users).find? fun u => eqIgnoreAsciiCase u.username name)

/-- `authorize_session`. The session is read first, then the user, then the tenant; `tenantEnabled` is what
the last read gives. -/
def authorizeSession (cfg : Config) (sessions : HashMap String SessionRecord)
    (users : HashMap String UserRecord)
    (tenantEnabled : String → Option Bool) (now : ℕ) (token : String) : Option UserRecord :=
  (sessions.lookup (cfg.lookupOf token)).bind fun session =>
    if session.expiresAt ≤ now then none
    else
      (users.lookup session.userId).bind fun user =>
        if !user.enabled then none
        else
          match user.tenantId with
          | none => some user
          | some t => if tenantEnabled t = some true then some user else none

/-! ### The calls -/

/-- What `login` answers if it opens no session. -/
inductive LoginError where
  /-- 401, "invalid username or password" -/
  | unauthorized
  /-- 403, "tenant disabled" -/
  | tenantDisabled
  | notFound
  | disabled
  | database (message : String)
  deriving DecidableEq

/-- Where a call of `login` stands. `seen` is how many changes of users were made before it read its user. -/
inductive LoginPc where
  | start
  | verifying (user : Option UserRecord) (seen : ℕ)
  | checkingTenant (user : UserRecord) (seen : ℕ)
  /-- in `create_session` -/
  | creating (userId : String) (seen : ℕ)
  | inserting (userId : String) (seen : ℕ)
  | publishing (record : SessionRecord) (seen : ℕ)
  | done (result : Except LoginError SessionRecord)
  deriving DecidableEq

/-- Where a call of `revoke_session` stands. -/
inductive RevokePc where
  | deletingRow
  | removing
  | done (found : Bool)
  deriving DecidableEq

/-- Where a call of `revoke_user_sessions` or `prune_expired_sessions` stands. -/
inductive RemovePc where
  | start
  | deletingRows (hashes : List String)
  | removing (hashes : List String)
  | done (count : ℕ)
  deriving DecidableEq

inductive Call where
  | login (username password : String) (ttlSecs : ℕ) (pc : LoginPc)
  | revokeSession (token : String) (pc : RevokePc)
  | revokeUserSessions (userId : String) (keepHash : Option String) (pc : RemovePc)
  | pruneExpiredSessions (pc : RemovePc)
  deriving DecidableEq

/-- What the environment answers: the table of tenants, the random source, the database. -/
inductive Answer where
  | silent
  | tenant (enabled : Option Bool)
  | inserted (id token : String)
  | failed (error : String)
  /-- the statements on these hashes fail -/
  | deleted (failed : List String)
  deriving DecidableEq

/-- `now.saturating_add(ttl_secs.max(1))`. -/
def expiry (now ttlSecs : ℕ) : ℕ := min (now + max ttlSecs 1) (2 ^ 64 - 1)

/-- Where `login` goes on when the password is right and the user is enabled. -/
def afterPassword (user : UserRecord) (seen : ℕ) : LoginPc :=
  if user.tenantId.isSome then .checkingTenant user seen else .creating user.id seen

def loginStep (cfg : Config) (accounts : Accounts.Store) (st : Store) (now changes : ℕ) (a : Answer)
    (username password : String) (ttlSecs : ℕ) : LoginPc → Option (Store × LoginPc)
  | .start => some (st, .verifying (userByUsername accounts username) changes)
  | .verifying none _ => some (st, .done (.error .unauthorized))
  | .verifying (some user) seen =>
    if !cfg.verifyArgon2 password user.passwordHash || !user.enabled then
      some (st, .done (.error .unauthorized))
    else some (st, afterPassword user seen)
  | .checkingTenant user seen =>
    match a with
    | .tenant none => some (st, .done (.error .unauthorized))
    | .tenant (some false) => some (st, .done (.error .tenantDisabled))
    | .tenant (some true) => some (st, .creating user.id seen)
    | _ => none
  | .creating userId seen =>
    match accounts.users.lookup userId with
    | none => some (st, .done (.error .notFound))
    | some user =>
      if !user.enabled then some (st, .done (.error .disabled)) else some (st, .inserting userId seen)
  | .inserting userId seen =>
    match a with
    | .inserted id token =>
      let record := ⟨id, userId, cfg.lookupOf token, now, expiry now ttlSecs⟩
      some ({ st with rows := st.rows.insert record.tokenHash record }, .publishing record seen)
    | .failed e => some (st, .done (.error (.database e)))
    | _ => none
  | .publishing record _ =>
    some ({ st with sessions := st.sessions.insert record.tokenHash record }, .done (.ok record))
  | .done _ => none

def revokeStep (st : Store) (hash : String) (a : Answer) : RevokePc → Option (Store × RevokePc)
  | .deletingRow =>
    match a with
    | .deleted failed => some (st.deleteRows [hash] failed, .removing)
    | _ => none
  | .removing => some (st.removeAll [hash], .done (st.sessions.lookup hash).isSome)
  | .done _ => none

/-- The steps that `revoke_user_sessions` and `prune_expired_sessions` share, for the hashes they collect. -/
def removeStep (st : Store) (hashes : List String) (a : Answer) : RemovePc → Option (Store × RemovePc)
  | .start => some (st, if hashes.isEmpty then .done 0 else .deletingRows hashes)
  | .deletingRows hashes =>
    match a with
    | .deleted failed => some (st.deleteRows hashes failed, .removing hashes)
    | _ => none
  | .removing hashes => some (st.removeAll hashes, .done hashes.length)
  | .done _ => none

/-- The hashes of the sessions of which `p` holds. -/
def hashesWhere (p : String → SessionRecord → Bool) (sessions : HashMap String SessionRecord) : List String :=
  (sessions.entries.filter fun e => p e.1 e.2).map Sigma.fst

def revokeUserSessionsStep (st : Store) (userId : String) (keepHash : Option String) (a : Answer)
    (pc : RemovePc) : Option (Store × RemovePc) :=
  removeStep st (hashesWhere (fun h r => r.userId = userId && some h ≠ keepHash) st.sessions) a pc

/-- Its callers pass the time. -/
def pruneExpiredSessionsStep (st : Store) (now : ℕ) (a : Answer) (pc : RemovePc) :
    Option (Store × RemovePc) :=
  removeStep st (hashesWhere (fun _ r => r.expiresAt ≤ now) st.sessions) a pc

def callStep (cfg : Config) (accounts : Accounts.Store) (st : Store) (now changes : ℕ) (a : Answer) :
    Call → Option (Store × Call)
  | .login username password ttlSecs pc =>
    (loginStep cfg accounts st now changes a username password ttlSecs pc).map fun p =>
      (p.1, .login username password ttlSecs p.2)
  | .revokeSession token pc =>
    (revokeStep st (cfg.lookupOf token) a pc).map fun p => (p.1, .revokeSession token p.2)
  | .revokeUserSessions userId keepHash pc =>
    (revokeUserSessionsStep st userId keepHash a pc).map fun p => (p.1, .revokeUserSessions userId keepHash p.2)
  | .pruneExpiredSessions pc =>
    (pruneExpiredSessionsStep st now a pc).map fun p => (p.1, .pruneExpiredSessions p.2)

/-! ### Revocations by other calls -/

/-- `update_user` revokes the sessions of the user. -/
def revokes (current : UserRecord) (patch : UserPatch) (updated : UserRecord) : Bool :=
  !updated.enabled || updated.role ≠ current.role || updated.tenantId ≠ current.tenantId ||
    patch.password.isSome

/-- The user whose sessions a call revokes next, when its step from `c` has led to `c'`, and the session
that it keeps; `keepHash` is the one that `set_user_password` was given. -/
def due (keepHash : Option String) (c c' : Accounts.Call) : Option (String × Option String) :=
  match c, c' with
  | .updateUser id patch (.publishing current updated), _ =>
    if revokes current patch updated then some (id, none) else none
  | .deleteUser id .start, .deleteUser _ (.sweeping _) => some (id, none)
  | .deleteUser id .checking, .deleteUser _ (.sweeping _) => some (id, none)
  | .setUserPassword id _ (.writing _ _), _ => some (id, keepHash)
  | _, _ => none

/-- The call has returned `Ok`. -/
def returnedOk : Accounts.Call → Bool
  | .updateUser _ _ (.done (.ok _)) | .deleteUser _ (.done (.ok _))
  | .setUserPassword _ _ (.done (.ok _)) => true
  | _ => false

/-! ### What has happened -/

/-- A user has been disabled, deleted, or given another role, tenant or password. -/
structure Change where
  user : String
  /-- the session that it keeps -/
  keepHash : Option String
  deriving DecidableEq

/-- A login has opened a session. -/
structure Opening where
  hash : String
  user : String
  /-- how many changes were made before the login read the user -/
  seen : ℕ
  deriving DecidableEq

structure History where
  /-- in the order in which they get into memory -/
  changes : List Change
  /-- which change a call has made -/
  tickets : HashMap ℕ ℕ
  /-- the changes whose calls have returned `Ok` -/
  returned : List ℕ
  opened : List Opening

/-- The record differs from the one in memory in what a session is opened under. -/
def alters (old : UserRecord) (patch : UserPatch) (updated : UserRecord) : Bool :=
  !updated.enabled || updated.role ≠ old.role || updated.tenantId ≠ old.tenantId ||
    updated.passwordHash ≠ old.passwordHash || patch.password.isSome

/-- The change that the next step of a call makes in memory. -/
def changeOf (users : HashMap String UserRecord) (keepHash : Option String) : Accounts.Call → Option Change
  | .updateUser id patch (.publishing _ updated) =>
    if (users.lookup id).all fun old => alters old patch updated then some ⟨id, none⟩ else none
  | .deleteUser id .removing => some ⟨id, none⟩
  | .setUserPassword id _ (.writing _ _) => some ⟨id, keepHash⟩
  | _ => none

def History.note (hist : History) (i : ℕ) : Option Change → History
  | none => hist
  | some ch =>
    { hist with changes := hist.changes ++ [ch], tickets := hist.tickets.insert i hist.changes.length }

/-! ### The system -/

structure State where
  accounts : Accounts.State
  store : Store
  clock : ℕ
  /-- the session that a call of `set_user_password` is to keep -/
  keeps : HashMap ℕ (Option String)
  /-- the call `i` of `accounts` revokes sessions at `inl i` -/
  calls : HashMap (ℕ ⊕ ℕ) Call
  history : History

/-- The first start, with empty tables. -/
def init : State := ⟨Accounts.init, ⟨∅, ∅⟩, 0, ∅, ∅, ⟨[], ∅, [], []⟩⟩

/-- What the call has still to revoke is not done. -/
def underWay : Call → Bool
  | .revokeUserSessions _ _ (.done _) => false
  | _ => true

/-- The hashes that a call deals with. -/
def named (cfg : Config) : Call → List String
  | .login _ _ _ (.publishing record _) => [record.tokenHash]
  | .revokeSession token _ => [cfg.lookupOf token]
  | .revokeUserSessions _ _ (.deletingRows hashes) | .revokeUserSessions _ _ (.removing hashes)
  | .pruneExpiredSessions (.deletingRows hashes) | .pruneExpiredSessions (.removing hashes) => hashes
  | _ => []

/-- A token of 32 random bytes is new: nothing has it, and nobody has named it. -/
def freshHash (cfg : Config) (s : State) (hash : String) : Bool :=
  (s.store.sessions.lookup hash).isNone && (s.store.rows.lookup hash).isNone &&
    (values s.calls).all (fun c => hash ∉ named cfg c) && s.history.opened.all fun o => o.hash ≠ hash

/-- The answers that can be. -/
def possible (cfg : Config) (s : State) : Call → Answer → Bool
  | .login _ _ _ (.inserting _ _), .inserted _ token => freshHash cfg s (cfg.lookupOf token)
  | _, _ => true

/-- The session whose row a login has inserted. -/
def openingOf : Call → Option Opening
  | .login _ _ _ (.publishing record seen) => some ⟨record.tokenHash, record.userId, seen⟩
  | _ => none

/-- The call is about to insert a row. -/
def insertsRow : Call → Bool
  | .login _ _ _ (.inserting _ _) => true
  | _ => false

/-- The sessions that a step from `c` to `c'` opens. -/
def opens (c c' : Call) : List Opening := if insertsRow c then (openingOf c').toList else []

/-- A new call, at its start. -/
inductive Request where
  | login (username password : String) (ttlSecs : ℕ)
  | revokeSession (token : String)
  | pruneExpiredSessions
  deriving DecidableEq

def Request.call : Request → Call
  | .login username password ttlSecs => .login username password ttlSecs .start
  | .revokeSession token => .revokeSession token .deletingRow
  | .pruneExpiredSessions => .pruneExpiredSessions .start

inductive Label where
  /-- the call `i` on users or keys begins -/
  | begin (i : ℕ) (request : Accounts.Request) (keepHash : Option String)
  /-- it goes on -/
  | go (i : ℕ) (a : Accounts.Answer)
  /-- the call `j` on sessions begins -/
  | start (j : ℕ) (request : Request)
  /-- it goes on, or a call on users does in `revoke_user_sessions` -/
  | step (slot : ℕ ⊕ ℕ) (a : Answer)
  | clock (now : ℕ)
  /-- the process ends and starts again on its tables -/
  | restart
  deriving DecidableEq

/-- The call `i` has returned `Ok`, if it is so. -/
def State.settle (s : State) (i : ℕ) : State :=
  if (s.calls.lookup (.inl i)).any underWay then s
  else if (s.accounts.calls.lookup i).any returnedOk then
    { s with history := { s.history with
      returned := s.history.returned ++ (s.history.tickets.lookup i).toList } }
  else s

/-- The call `i` begins to revoke the sessions of a user, if that is due. -/
def State.revoking (s : State) (i : ℕ) : Option (String × Option String) → HashMap (ℕ ⊕ ℕ) Call
  | none => s.calls
  | some (user, keepHash) => s.calls.insert (.inl i) (.revokeUserSessions user keepHash .start)

/-- A step of the call `i` on users or keys, which stands at `c`. -/
def State.go (s : State) (i : ℕ) (c : Accounts.Call) (accounts : Accounts.State) : State :=
  let keepHash := (s.keeps.lookup i).join
  State.settle
    { s with
      accounts := accounts
      calls := s.revoking i ((accounts.calls.lookup i).bind (due keepHash c))
      history := s.history.note i (changeOf s.accounts.store.users keepHash c) } i

def step (cfg : Config) (s : State) : Label → Option State
  | .begin i request keepHash =>
    (Accounts.step cfg s.accounts (.start i request)).map fun accounts =>
      { s with accounts := accounts, keeps := s.keeps.insert i keepHash }
  | .go i a =>
    if (s.calls.lookup (.inl i)).any underWay then none
    else
      (s.accounts.calls.lookup i).bind fun c =>
        (Accounts.step cfg s.accounts (.step i a)).map fun accounts => s.go i c accounts
  | .start j request =>
    match s.calls.lookup (.inr j) with
    | none => some { s with calls := s.calls.insert (.inr j) request.call }
    | some _ => none
  | .step slot a =>
    (s.calls.lookup slot).bind fun c =>
      if possible cfg s c a then
        (callStep cfg s.accounts.store s.store s.clock s.history.changes.length a c).map fun p =>
          let s' := { s with
            store := p.1
            calls := s.calls.insert slot p.2
            history := { s.history with opened := s.history.opened ++ opens c p.2 } }
          match slot with
          | .inl i => s'.settle i
          | .inr _ => s'
      else none
  | .clock now => some { s with clock := now }
  | .restart =>
    (Accounts.step cfg s.accounts .restart).map fun accounts =>
      -- only sessions that have not expired are loaded
      { s with
        accounts := accounts
        store := { s.store with sessions := retain (fun _ r => s.clock < r.expiresAt) s.store.rows }
        keeps := ∅
        calls := ∅
        history := { s.history with tickets := ∅ } }

end HomeLlmGateway.Storage.Sessions
