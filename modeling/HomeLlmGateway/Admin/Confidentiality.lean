import HomeLlmGateway.Admin.Handlers

/-! # What a refused request tells

The same request on an id `x` in two states, made by a principal of the tenant `t` that is not a super
admin: in one state there is no `x`, in the other `x` is in another tenant (`Elsewhere`). The handlers read
the object first and judge then, and each has a text of its own for an object that is not there. So the two
responses differ, unless the record of a credential pair is not read at all (`responses_agree_iff`). -/

namespace HomeLlmGateway.Admin.Confidentiality

open HomeLlmGateway.Lib.Assoc
open HomeLlmGateway.Access.Rbac
open HomeLlmGateway.Storage HomeLlmGateway.Storage.Users
open HomeLlmGateway.Storage.Cache (KeyRecord)
open HomeLlmGateway.Pki.Verifier (Cert)
open HomeLlmGateway.Pki.Service (PkiService PkiRecord PkiRuntime Faults noFaults)
open HomeLlmGateway.Admin.Handlers

/-! ### Requests on one object -/

/-- What the handlers read. -/
structure World (V : Type) where
  admin : State
  pki : Option (PkiService V)

/-- What else a response depends on: configuration, clock, and what the environment answers. -/
structure Env (V : Type) where
  keys : Keys.Config
  pki : Pki.Service.Config V
  requireHttps : Bool
  now : ℤ
  recordFaults : Faults
  faults : Faults
  answers : List Accounts.Answer

/-- A request on an id. -/
inductive Query where
  | deleteKey
  | updateUser (body : UpdateUserBody)
  | deleteUser
  | download (forwardedProto : Option String)
  | revoke

def Query.isPki : Query → Bool
  | .download _ | .revoke => true
  | _ => false

variable {V : Type}

/-- The response to the request on `x`, if the environment answers to its call as it can. -/
def respond (e : Env V) (w : World V) (p : Principal) (x : String) : Query → Option Response
  | .deleteKey => (serve e.keys w.admin ⟨p, .deleteKey x, e.answers, []⟩).map Prod.snd
  | .updateUser body => (serve e.keys w.admin ⟨p, .updateUser x body, e.answers, []⟩).map Prod.snd
  | .deleteUser => (serve e.keys w.admin ⟨p, .deleteUser x, e.answers, []⟩).map Prod.snd
  | .download proto => some (download e.pki e.requireHttps w.pki e.now e.recordFaults e.faults p x proto).2
  | .revoke => some (revoke e.pki w.pki e.now e.recordFaults e.faults p x).2

/-! ### The two states -/

/-- The state with one key more, in memory and in the table. -/
def withKey (s : State) (r : KeyRecord) : State :=
  { s with accounts := { s.accounts with store := { s.accounts.store with
    keys := { s.accounts.store.keys with runtime := s.accounts.store.keys.runtime.insert r.lookup r }
    keyRows := s.accounts.store.keyRows.insert r.lookup r } } }

/-- The state with one user more. -/
def withUser (s : State) (r : UserRecord) : State :=
  { s with accounts := { s.accounts with store := { s.accounts.store with
    users := s.accounts.store.users.insert r.id r
    usernames := s.accounts.store.usernames.insert r.username r.id
    userRows := s.accounts.store.userRows.insert r.id r } } }

/-- The second state is the first one with the object `x` of the request, in another tenant than `t`; in the
first one there is no such object. The pair of a record may have files and be loaded, or not; a gateway
without PKI does not read the table of pairs, so nothing that it reads differs. -/
inductive Elsewhere (t x : String) (w : World V) : Query → World V → Prop
  | key (r : KeyRecord) (hid : r.id = x) (ht : r.tenantId ≠ t) (hx : w.admin.key x = none)
      (hlookup : w.admin.accounts.store.keys.runtime.lookup r.lookup = none) :
      Elsewhere t x w .deleteKey { w with admin := withKey w.admin r }
  | updated (body : UpdateUserBody) (r : UserRecord) (hid : r.id = x) (ht : r.tenantId ≠ some t)
      (hx : w.admin.user x = none) :
      Elsewhere t x w (.updateUser body) { w with admin := withUser w.admin r }
  | deleted (r : UserRecord) (hid : r.id = x) (ht : r.tenantId ≠ some t) (hx : w.admin.user x = none) :
      Elsewhere t x w .deleteUser { w with admin := withUser w.admin r }
  | pair (q : Query) (hq : q.isPki = true) (service service' : PkiService V) (r : PkiRecord)
      (ht : r.tenantId ≠ t) (hw : w.pki = some service) (hx : service.rows.lookup x = none)
      (hrows : service'.rows = service.rows.insert x r) :
      Elsewhere t x w q { w with pki := some service' }
  | off (q : Query) (hq : q.isPki = true) (hw : w.pki = none) : Elsewhere t x w q w

/-! ### What the handlers answer -/

section answers

variable {e : Env V} {s : State} {p : Principal} {t x : String}

theorem respond_error {e : Env V} {s : State} {l : Label} {r : Response}
    (h : handle s l.principal l.request = .error r) : (serve e.keys s l).map Prod.snd = some r := by
  simp [serve, h]

theorem deleteKey_absent (p : Principal) (h : s.key x = none) :
    deleteKey s p x = .error (errorResponse 404 "key not found") := by
  simp only [deleteKey, h]
  rfl

theorem deleteKey_other {r : KeyRecord} (hp : p.isSuper = false) (ht : p.tenantId = some t)
    (h : s.key x = some r) (hr : r.tenantId ≠ t) : deleteKey s p x = .error (rbacResponse .notFound) := by
  simp only [deleteKey, h, authorize_other hp ht hr]
  rfl

theorem updateUser_absent (p : Principal) (body : UpdateUserBody) (h : s.user x = none) :
    updateUser s p x body = .error (errorResponse 404 "user not found") := by
  simp only [updateUser, h]
  rfl

theorem updateUser_other {r : UserRecord} (body : UpdateUserBody) (hp : p.isSuper = false)
    (h : s.user x = some r) (hr : r.tenantId ≠ p.tenantId) : ∃ e, updateUser s p x body = .error (rbacResponse e) := by
  obtain ⟨e, he⟩ := canManageUser_other true hp hr
  refine ⟨e, ?_⟩
  simp only [updateUser, h, he]
  rfl

theorem deleteUser_absent (p : Principal) (h : s.user x = none) :
    deleteUser s p x = .error (errorResponse 404 "user not found") := by
  simp only [deleteUser, h]
  rfl

theorem deleteUser_other {r : UserRecord} (hp : p.isSuper = false) (h : s.user x = some r)
    (hr : r.tenantId ≠ p.tenantId) : deleteUser s p x = .error (errorResponse 400 "cannot delete yourself") ∨
      ∃ e, deleteUser s p x = .error (rbacResponse e) := by
  obtain ⟨e, he⟩ := canManageUser_other true hp hr
  by_cases hself : p.userId = some x
  · left
    simp only [deleteUser, h, hself]
    rfl
  · right
    refine ⟨e, ?_⟩
    simp only [deleteUser, h, hself, he]
    rfl

theorem scopedRecord_absent {service : PkiService V} {faults : Faults} {action : Action} (p : Principal)
    (hx : service.rows.lookup x = none) :
    scopedRecord (some service) faults p action x =
      .error (pkiErrorResponse ((faults .get).getD .notFound)) := by
  cases hf : faults .get with
  | none =>
    simp only [scopedRecord, Pki.Service.record, hf, hx]
    rfl
  | some e =>
    simp only [scopedRecord, Pki.Service.record, hf]
    rfl

theorem scopedRecord_other {service : PkiService V} {r : PkiRecord} {faults : Faults} {action : Action}
    (hp : p.isSuper = false) (ht : p.tenantId = some t) (hx : service.rows.lookup x = some r)
    (hr : r.tenantId ≠ t) : scopedRecord (some service) faults p action x =
      .error ((faults .get).elim (rbacResponse .notFound) pkiErrorResponse) := by
  cases hf : faults .get with
  | none =>
    simp only [scopedRecord, Pki.Service.record, hf, hx]
    show ((authorize p action (some r.tenantId)).mapError rbacResponse >>= _) = _
    rw [authorize_other hp ht hr]
    rfl
  | some e =>
    simp only [scopedRecord, Pki.Service.record, hf]
    rfl

/-- A refused request is refused alike for both handlers of pairs. -/
theorem respond_pair {w : World V} {q : Query} {r : Response} (hq : q.isPki = true)
    (h : ∀ action, scopedRecord w.pki e.recordFaults p action x = .error r) : respond e w p x q = some r := by
  cases q with
  | download proto => simp [respond, download, h]
  | revoke => simp [respond, revoke, h]
  | deleteKey | updateUser | deleteUser => cases hq

end answers

theorem key_withKey {s : State} {r : KeyRecord} {x : String} (h : r.id = x) :
    (withKey s r).key x = some r := by
  simp [State.key, withKey, values, AList.entries_insert, h]

theorem user_withUser (s : State) (r : UserRecord) : (withUser s r).user r.id = some r := by
  simp [State.user, withUser]

theorem rbacResponse_ne (e : RbacError) : rbacResponse e ≠ errorResponse 404 "user not found" := by
  cases e <;> decide

theorem tells {q : Query} {P : Prop} {r r' : Response} (hq : q.isPki = false) (h : r' ≠ r) :
    some r' = some r ↔ q.isPki = true ∧ P := by
  simp [hq, h]

/-- **When the response does not tell** whether `x` is in another tenant: exactly when the request is about a
credential pair and its record is not read, without PKI or because the database fails. -/
theorem responses_agree_iff (e : Env V) (w w' : World V) (p : Principal) (t x : String) (q : Query)
    (hp : p.isSuper = false) (ht : p.tenantId = some t) (h : Elsewhere t x w q w') :
    respond e w' p x q = respond e w p x q ↔
      q.isPki = true ∧ (w.pki = none ∨ (e.recordFaults .get).isSome) := by
  cases h with
  | key r hid hr hx hlookup =>
    have hw : respond e w p x .deleteKey = some (errorResponse 404 "key not found") :=
      respond_error (deleteKey_absent p hx)
    have hw' : respond e { w with admin := withKey w.admin r } p x .deleteKey = some (rbacResponse .notFound) :=
      respond_error (deleteKey_other hp ht (key_withKey hid) hr)
    rw [hw, hw']
    exact tells rfl (by decide)
  | updated body r hid hr hx =>
    subst hid
    obtain ⟨err, herr⟩ := updateUser_other body hp (user_withUser w.admin r) (ht ▸ hr)
    have hw : respond e w p r.id (.updateUser body) = some (errorResponse 404 "user not found") :=
      respond_error (updateUser_absent p body hx)
    have hw' : respond e { w with admin := withUser w.admin r } p r.id (.updateUser body) =
        some (rbacResponse err) := respond_error herr
    rw [hw, hw']
    exact tells rfl (rbacResponse_ne err)
  | deleted r hid hr hx =>
    subst hid
    have hw : respond e w p r.id .deleteUser = some (errorResponse 404 "user not found") :=
      respond_error (deleteUser_absent p hx)
    rw [hw]
    rcases deleteUser_other hp (user_withUser w.admin r) (ht ▸ hr) with herr | ⟨err, herr⟩
    · have hw' : respond e { w with admin := withUser w.admin r } p r.id .deleteUser =
          some (errorResponse 400 "cannot delete yourself") := respond_error herr
      rw [hw']
      exact tells rfl (by decide)
    · have hw' : respond e { w with admin := withUser w.admin r } p r.id .deleteUser =
          some (rbacResponse err) := respond_error herr
      rw [hw']
      exact tells rfl (rbacResponse_ne err)
  | pair q hq service service' r hr hw hx hrows =>
    have hx' : service'.rows.lookup x = some r := by
      rw [hrows, lookup_insert, if_pos rfl]
    have hone := respond_pair (e := e) (w := w) (p := p) hq fun action => by
      rw [hw]
      exact scopedRecord_absent p hx
    have htwo := respond_pair (e := e) (w := { w with pki := some service' }) hq fun action =>
      scopedRecord_other hp ht hx' hr
    rw [hone, htwo, and_iff_right hq]
    cases hf : e.recordFaults .get with
    | none =>
      rw [hw]
      simp only [reduceCtorEq, Option.isSome_none, Bool.false_eq_true, or_self, iff_false]
      decide
    | some err => simp
  | off q hq hw => simp [hq, hw]

/-! ### Two states -/

/-- No keys, no users, and no pairs. -/
def emptyWorld : World (List Cert) :=
  ⟨⟨Accounts.init, Tenants.init.store, fun _ => 0⟩, some ⟨∅, ∅, PkiRuntime.empty⟩⟩

/-- An environment in which reading the record of a pair fails as given. -/
def exampleEnv (recordFaults : Faults) : Env (List Cert) :=
  ⟨Revocation.exampleConfig, Pki.Service.lenient, false, 20, recordFaults, noFaults, []⟩

/-- A tenant admin of the tenant `alpha`. -/
def alphaAdmin : Principal := ⟨some "a1", "root", .tenantAdmin, some "alpha", .session⟩

/-- A pair of the tenant `beta`. -/
def betaPair : PkiRecord :=
  ⟨"p1", "home", "beta", "home.example", "1", "2", "3", "5e", .waiting, 10, "admin", none, none, none, 1000⟩

/-- The database does not answer: the responses agree. -/
theorem responses_agree_unread :
    respond (exampleEnv fun _ => some (.storage "database is locked"))
      { emptyWorld with pki := some ⟨∅, (∅ : HashMap String PkiRecord).insert "p1" betaPair, PkiRuntime.empty⟩ }
      alphaAdmin "p1" .revoke =
    respond (exampleEnv fun _ => some (.storage "database is locked")) emptyWorld alphaAdmin "p1" .revoke :=
  (responses_agree_iff _ _ _ alphaAdmin "alpha" "p1" .revoke rfl rfl
    (.pair .revoke rfl ⟨∅, ∅, PkiRuntime.empty⟩ _ betaPair (by decide) rfl rfl rfl)).mpr ⟨rfl, Or.inr rfl⟩

/-- A key of the tenant `beta`. -/
def betaKey : KeyRecord :=
  ⟨"id1", Revocation.abcHash, Revocation.exampleConfig.lookupOf "sk-abc", "k", 5, true, 1, "beta", none⟩

/-- The admin of `alpha` deletes the key: the text of the response tells that there is one. -/
theorem response_tells_key :
    alphaAdmin.isSuper = false ∧ alphaAdmin.tenantId = some "alpha" ∧
    Elsewhere "alpha" "id1" emptyWorld .deleteKey { emptyWorld with admin := withKey emptyWorld.admin betaKey } ∧
    respond (exampleEnv noFaults) emptyWorld alphaAdmin "id1" .deleteKey =
      some (errorResponse 404 "key not found") ∧
    respond (exampleEnv noFaults) { emptyWorld with admin := withKey emptyWorld.admin betaKey } alphaAdmin "id1"
      .deleteKey = some (errorResponse 404 "resource not found") ∧
    respond (exampleEnv noFaults) { emptyWorld with admin := withKey emptyWorld.admin betaKey } alphaAdmin "id1"
      .deleteKey ≠ respond (exampleEnv noFaults) emptyWorld alphaAdmin "id1" .deleteKey :=
  ⟨rfl, rfl, .key betaKey rfl (by decide) rfl rfl, by decide, by decide, by decide⟩

end HomeLlmGateway.Admin.Confidentiality
