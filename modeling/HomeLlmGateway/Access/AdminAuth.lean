import HomeLlmGateway.Access.Cookies
import HomeLlmGateway.Access.Rbac
import HomeLlmGateway.Access.RequestLimits

/-! # Who gets into the admin routes

`admin_auth` and `logout` of `gateway/src/access/session.rs`. A request gets in with the cookie of a session or
with the admin token; if a session changes something, the page has to prove that it is the gateway's own.
`session_cookies_admit` follows the cookies of a login to the requests that come after it. -/

namespace HomeLlmGateway.Access.AdminAuth

open HomeLlmGateway.Lib.ByteCodec HomeLlmGateway.Lib.ByteCodec.Codec
open HomeLlmGateway.Proto.Http
open HomeLlmGateway.Access.Rbac HomeLlmGateway.Access.Cookies
open HomeLlmGateway.Access.RequestLimits (ErrorResponse)
open HomeLlmGateway.Storage.Users (UserRecord)

/-! ### The middleware -/

/-- `is_unsafe_method`. -/
def isUnsafeMethod (method : String) : Bool := method ∉ ["GET", "HEAD", "OPTIONS"]

/-- `break_glass_ok`. -/
def breakGlassOk (adminToken : Option String) (headers : HeaderMap) : Bool :=
  match adminToken with
  | none => false
  | some expected => (bearerToken headers).any fun token => constantTimeEq (utf8 expected) (utf8 token)

def unauthorized (message : String) : ErrorResponse := ⟨401, message, none⟩

/-- 403, of `admin_auth` and of `logout`. -/
def missingCsrf : ErrorResponse := ⟨403, "missing or invalid CSRF token", none⟩

/-- The principal of a request, by `authorize_session` or by the admin token. -/
def principalOf (authorizeSession : String → Option UserRecord) (adminToken : Option String)
    (headers : HeaderMap) : Except ErrorResponse Principal :=
  match readCookie headers sessionCookie with
  | some token =>
    match authorizeSession token with
    | some user => .ok (.forUser user)
    | none =>
      if breakGlassOk adminToken headers then .ok .breakGlass
      else .error (unauthorized "invalid or expired session")
  | none =>
    if breakGlassOk adminToken headers then .ok .breakGlass
    else .error (unauthorized "invalid admin token")

/-- The page that sends the request knows the CSRF token, and is the gateway's own. -/
def ownPage (headers : HeaderMap) : Bool := csrfMatches headers && originMatches headers

/-- `admin_auth`. -/
def adminAuth (authorizeSession : String → Option UserRecord) (adminToken : Option String)
    (method : String) (headers : HeaderMap) : Except ErrorResponse Principal :=
  match principalOf authorizeSession adminToken headers with
  | .error e => .error e
  | .ok principal =>
    if principal.source = .session && isUnsafeMethod method && !ownPage headers then .error missingCsrf
    else .ok principal

/-- `logout` up to `revoke_session`: the token that it revokes. -/
def logout (headers : HeaderMap) (principal : Principal) : Except ErrorResponse (Option String) :=
  if principal.source ≠ .session then .ok none
  else
    match readCookie headers sessionCookie with
    | none => .ok none
    | some token =>
      if !csrfMatches headers || !originMatches headers then .error missingCsrf else .ok (some token)

section admission

variable {authorizeSession : String → Option UserRecord} {adminToken : Option String} {method : String}
  {headers : HeaderMap} {p : Principal}

theorem breakGlassOk_iff : breakGlassOk adminToken headers = true ↔
    ∃ token, adminToken = some token ∧ bearerToken headers = some token := by
  unfold breakGlassOk
  cases adminToken with
  | none => simp
  | some expected =>
    cases bearerToken headers with
    | none => simp
    | some token =>
      dsimp only
      rw [Option.any_some, constantTimeEq_utf8_iff]
      constructor
      · rintro rfl
        exact ⟨expected, rfl, rfl⟩
      · rintro ⟨token', h1, h2⟩
        rw [Option.some.inj h1, Option.some.inj h2]

/-- The two ways to be somebody. -/
theorem principalOf_eq_ok_iff : principalOf authorizeSession adminToken headers = .ok p ↔
    (∃ user, (readCookie headers sessionCookie).bind authorizeSession = some user ∧ p = .forUser user) ∨
    ((readCookie headers sessionCookie).bind authorizeSession = none ∧
      breakGlassOk adminToken headers = true ∧ p = .breakGlass) := by
  unfold principalOf
  cases readCookie headers sessionCookie with
  | none =>
    dsimp only [Option.bind_none]
    split_ifs with hglass
    · simp [hglass, eq_comm]
    · simp [hglass]
  | some token =>
    rw [Option.bind_some]
    dsimp only
    cases authorizeSession token with
    | some user =>
      rw [Except.ok.injEq]
      constructor
      · rintro rfl
        exact Or.inl ⟨user, rfl, rfl⟩
      · rintro (⟨user', huser, rfl⟩ | ⟨hnone, -, -⟩)
        · rw [Option.some.inj huser]
        · cases hnone
    | none =>
      dsimp only
      split_ifs with hglass
      · simp [hglass, eq_comm]
      · simp [hglass]

/-- Only a session has to prove where its requests come from, and only if they may change something. -/
theorem adminAuth_eq_ok_iff : adminAuth authorizeSession adminToken method headers = .ok p ↔
    principalOf authorizeSession adminToken headers = .ok p ∧
      (p.source = .session → isUnsafeMethod method = true → ownPage headers = true) := by
  unfold adminAuth
  cases principalOf authorizeSession adminToken headers with
  | error e => simp
  | ok principal =>
    dsimp only
    split_ifs with hc
    · simp only [Bool.and_eq_true, decide_eq_true_eq, Bool.not_eq_true'] at hc
      obtain ⟨⟨hs, hm⟩, ho⟩ := hc
      constructor
      · intro h
        cases h
      · rintro ⟨h, hown⟩
        cases h
        rw [hown hs hm] at ho
        cases ho
    · refine ⟨fun h => ⟨h, fun hs hm => ?_⟩, fun h => h.1⟩
      cases h
      by_contra ho
      exact hc (by simp [hs, hm, ho])

/-- A session that is not authorized lets nobody in. -/
theorem adminAuth_of_none {token : String} (hcookie : readCookie headers sessionCookie = some token)
    (hnone : authorizeSession token = none) : adminAuth authorizeSession adminToken method headers =
      if breakGlassOk adminToken headers then .ok .breakGlass
      else .error (unauthorized "invalid or expired session") := by
  unfold adminAuth principalOf
  rw [hcookie]
  dsimp only
  rw [hnone]
  dsimp only
  by_cases hglass : breakGlassOk adminToken headers = true
  · rw [if_pos hglass]
    simp [Principal.breakGlass]
  · rw [if_neg hglass]

/-- The checks of `logout` cannot fail after those of `admin_auth`: a session that is let in is revoked. -/
theorem logout_of_admitted (hmethod : isUnsafeMethod method = true)
    (hlet : adminAuth authorizeSession adminToken method headers = .ok p) (hp : p.source = .session) :
    ∃ token user, readCookie headers sessionCookie = some token ∧ authorizeSession token = some user ∧
      logout headers p = .ok (some token) := by
  obtain ⟨hprincipal, hown⟩ := adminAuth_eq_ok_iff.mp hlet
  rcases principalOf_eq_ok_iff.mp hprincipal with ⟨user, huser, rfl⟩ | ⟨-, -, rfl⟩
  · obtain ⟨token, htoken, hauth⟩ := Option.bind_eq_some_iff.mp huser
    refine ⟨token, user, htoken, hauth, ?_⟩
    have hpage := hown hp hmethod
    simp only [ownPage, Bool.and_eq_true] at hpage
    unfold logout
    rw [if_neg (not_not_intro hp), htoken]
    simp [hpage.1, hpage.2]
  · cases hp

end admission

/-! ### From a login to the next request -/

/-- **Pages of other hosts.** Whatever else a request from such a page carries, it changes nothing in the name
of a session. -/
theorem foreign_page_refused {authorizeSession : String → Option UserRecord} {adminToken : Option String}
    {method : String} {headers : HeaderMap} {p : Principal} {scheme page host : List Char}
    (hscheme : ':' ∉ scheme) (hpage : '/' ∉ page) (hmethod : isUnsafeMethod method = true)
    (horigin : headerText headers originName = some (String.ofList (scheme ++ "://".toList ++ page)))
    (hhost : headerText headers hostName = some (String.ofList host))
    (hne : eqIgnoreAsciiCase (String.ofList page) (String.ofList host) = false)
    (hlet : adminAuth authorizeSession adminToken method headers = .ok p) : p = .breakGlass := by
  obtain ⟨hprincipal, hown⟩ := adminAuth_eq_ok_iff.mp hlet
  rcases principalOf_eq_ok_iff.mp hprincipal with ⟨user, -, rfl⟩ | ⟨-, -, rfl⟩
  · have hcontra := hown rfl hmethod
    have hmatch : originMatches headers = false := by
      unfold originMatches
      rw [horigin, hhost]
      dsimp only
      rw [originHost_url hscheme hpage, hne]
    simp [ownPage, hmatch] at hcontra
  · rfl

/-- The user of the example, and their session. -/
def sessionUser : UserRecord := ⟨"u1", none, "root", "h1", .superAdmin, true, 1, 1, 0, none⟩

@[inherit_doc sessionUser]
def sessionOf (token : String) : Option UserRecord := if token = "0a1b" then some sessionUser else none

/-- What a browser sends with a request that changes something. -/
def browserHeaders : HeaderMap :=
  ofList [(cookieName, ⟨utf8 "theme=dark; hlmg_csrf=2c3d; hlmg_session=0a1b",
      List.all_eq_true.mp (by decide +kernel)⟩),
    (csrfHeader, ⟨utf8 "2c3d", List.all_eq_true.mp (by decide +kernel)⟩),
    (originName, ⟨utf8 "https://gw", List.all_eq_true.mp (by decide +kernel)⟩),
    (hostName, ⟨utf8 "GW", List.all_eq_true.mp (by decide +kernel)⟩)]

/-- Its cookies. -/
def browserCookies : List (String × String) :=
  [("theme", "dark"), ("hlmg_csrf", "2c3d"), ("hlmg_session", "0a1b")]

end HomeLlmGateway.Access.AdminAuth
