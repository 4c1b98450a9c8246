import HomeLlmGateway.Pki.Verifier
import HomeLlmGateway.Proto.Http

/-! # Credential pairs

`PkiService` (`gateway/src/pki/service.rs`) with what it stands on: the pair directories
(`pki/files.rs`), the table `pki_credentials` (`storage/pki.rs`), and the live TLS state (`PkiRuntime`,
`pki/tls.rs`). Each operation is one function here, of the state, of the clock and of the failures it meets:
`Faults` says which file operations and statements fail, and how. Deletions that undo earlier steps do not
fail. What `rcgen` generates and the random id are arguments. -/

namespace HomeLlmGateway.Pki.Service

open HomeLlmGateway.Lib.Assoc
open HomeLlmGateway.Lib.ByteCodec (Bytes)
open HomeLlmGateway.Lib.ByteCodec.Codec (utf8)
open HomeLlmGateway.Proto.Http (toAsciiLowercase)
open HomeLlmGateway.Pki.Verifier

/-! ### Records and names -/

/-- The values of the column `status`, and `expired`, which only `list` computes. -/
inductive Status where
  | waiting
  | connected
  | revoked
  | expired
  deriving DecidableEq

structure PkiRecord where
  id : String
  name : String
  tenantId : String
  serverName : String
  caFingerprintSha256 : String
  serverFingerprintSha256 : String
  clientFingerprintSha256 : String
  serial : String
  status : Status
  createdAt : ℤ
  createdBy : String
  downloadedAt : Option ℤ
  lastConnectedAt : Option ℤ
  revokedAt : Option ℤ
  clientNotAfter : ℤ
  deriving DecidableEq

/-- The characters of a name: lower-case letters, digits and dashes. -/
def labelChar (c : Char) : Bool := c.isLower || c.isDigit || c == '-'

def validName (name : String) : Bool :=
  !name.isEmpty && decide (name.utf8ByteSize ≤ 64) && name.toList.all labelChar

/-- A decimal part of an address: one to three digits, no leading zero, below 256. -/
def isOctet (part : List Char) : Bool :=
  !part.isEmpty && decide (part.length ≤ 3) && part.all Char.isDigit &&
    (decide (part.length = 1) || part.head? ≠ some '0') &&
    decide (part.foldl (fun n c => 10 * n + (c.toNat - '0'.toNat)) 0 < 256)

/-- `server_name.parse::<IpAddr>().is_ok()` on what the labels allow: an address of the other kind has
colons, which no label has. -/
def isIpv4 (parts : List (List Char)) : Bool := decide (parts.length = 4) && parts.all isOctet

/-- A label of a server name. -/
def validLabel (label : List Char) : Bool :=
  !label.isEmpty && decide (label.length ≤ 63) && label.head? ≠ some '-' && label.getLast? ≠ some '-' &&
    label.all labelChar

def validServerName (serverName : String) : Bool :=
  let labels := serverName.toList.splitOn '.'
  !serverName.isEmpty && decide (serverName.utf8ByteSize ≤ 253) && !isIpv4 labels && labels.all validLabel

/-! ### Files -/

inductive FileName where
  | caCrt
  | caKey
  | serverCrt
  | serverKey
  | clientCrt
  | clientKey
  deriving DecidableEq

def FileName.text : FileName → String
  | .caCrt => "ca.crt"
  | .caKey => "ca.key"
  | .serverCrt => "server.crt"
  | .serverKey => "server.key"
  | .clientCrt => "client.crt"
  | .clientKey => "client.key"

/-- `PrivateKeyDer`. -/
abbrev PrivateKey := Bytes

/-- `GeneratedPair`, as far as `create_pair` uses it. -/
structure GeneratedPair where
  serial : String
  caCertPem : Bytes
  caKeyPem : Bytes
  serverCertPem : Bytes
  serverKeyPem : Bytes
  clientCertPem : Bytes
  clientKeyPem : Bytes
  caFingerprintSha256 : String
  serverFingerprintSha256 : String
  clientFingerprintSha256 : String
  clientNotAfter : ℤ
  deriving DecidableEq

/-- What a step that can fail is. -/
inductive Point where
  | list
  | get
  | insert
  | markDownloaded
  | markConnected
  | revokeRow
  | createDir
  | write (f : FileName)
  | read (f : FileName)
  | removeClientKey
  deriving DecidableEq

/-- The steps that fail, with their errors. -/
abbrev Faults := Point → Option PkiError

/-- None does. -/
def noFaults : Faults := fun _ => none

/-- The directories of the pairs, by id. -/
abbrev Files := HashMap String (HashMap FileName Bytes)

/-- The files of a pair, in the order they are written. -/
def GeneratedPair.contents (g : GeneratedPair) : List (FileName × Bytes) :=
  [(.caCrt, g.caCertPem), (.caKey, g.caKeyPem), (.serverCrt, g.serverCertPem), (.serverKey, g.serverKeyPem),
    (.clientCrt, g.clientCertPem), (.clientKey, g.clientKeyPem)]

/-- `write_pair`; when a file cannot be written the directory is removed. -/
def writePair (files : Files) (faults : Faults) (id : String) (g : GeneratedPair) :
    Files × Except PkiError Unit :=
  match faults .createDir, g.contents.findSome? fun p => faults (.write p.1) with
  | some e, _ => (files, .error e)
  | none, some e => (files.erase id, .error e)
  | none, none => (files.insert id (insertAll ∅ g.contents), .ok ())

/-- The directory of the service, and what it uses of `rustls` and `rustls_pemfile` besides. -/
structure Config (V : Type) extends Crypto V where
  dir : String
  /-- `rustls_pemfile::certs` -/
  certs : Bytes → Except String (List Cert)
  /-- `rustls_pemfile::private_key` -/
  privateKey : Bytes → Except String (Option PrivateKey)
  /-- the error of `any_supported_type`, if any -/
  unsupportedKey : PrivateKey → Option String

structure LoadedPair where
  id : String
  caCert : Cert
  serverChain : List Cert
  serverKey : PrivateKey
  caCertPem : Bytes
  clientCertPem : Bytes
  deriving DecidableEq

/-- `CertifiedKey`: the chain that is served, and the key that signs. -/
structure CertifiedKey where
  chain : List Cert
  key : PrivateKey
  deriving DecidableEq

section

variable {V : Type} (cfg : Config V)

/-- `read_secure` on a file of the pair. -/
def readSecure (files : Files) (faults : Faults) (id : String) (f : FileName) : Except PkiError Bytes :=
  match faults (.read f), (files.lookup id).bind (·.lookup f) with
  | some e, _ => .error e
  | none, none => .error (.storage ("missing PKI file " ++ cfg.dir ++ "/pairs/" ++ id ++ "/" ++ f.text))
  | none, some contents => .ok contents

def parseCerts (pem : Bytes) : Except PkiError (List Cert) :=
  match cfg.certs pem with
  | .ok certs => .ok certs
  | .error e => .error (.invalid ("certificate PEM: " ++ e))

def parseKey (pem : Bytes) : Except PkiError PrivateKey :=
  match cfg.privateKey pem with
  | .ok (some key) => .ok key
  | .ok none => .error (.invalid "private key PEM is empty")
  | .error e => .error (.invalid ("private key PEM: " ++ e))

def loadPair (files : Files) (faults : Faults) (id : String) : Except PkiError LoadedPair := do
  let caCertPem ← readSecure cfg files faults id .caCrt
  let serverCertPem ← readSecure cfg files faults id .serverCrt
  let serverKeyPem ← readSecure cfg files faults id .serverKey
  let clientCertPem ← readSecure cfg files faults id .clientCrt
  let caCerts ← parseCerts cfg caCertPem
  let serverChain ← parseCerts cfg serverCertPem
  match caCerts with
  | [] => throw (.invalid ("pair " ++ id ++ ": empty ca.crt"))
  | caCert :: _ =>
    let serverKey ← parseKey cfg serverKeyPem
    pure ⟨id, caCert, serverChain, serverKey, caCertPem, clientCertPem⟩

/-- `certified_key`: the CA of the pair is in the chain. -/
def LoadedPair.certifiedKey (l : LoadedPair) : Except PkiError CertifiedKey :=
  match cfg.unsupportedKey l.serverKey with
  | some e => .error (.invalid ("pair " ++ l.id ++ ": server key: " ++ e))
  | none =>
    .ok ⟨if l.serverChain.contains l.caCert then l.serverChain else l.serverChain ++ [l.caCert], l.serverKey⟩

def LoadedPair.clientCert (l : LoadedPair) : Except PkiError Cert := do
  match ← parseCerts cfg l.clientCertPem with
  | [] => throw (.invalid "client.crt is empty")
  | cert :: _ => pure cert

/-! ### Live TLS state -/

structure PkiRuntime (V : Type) where
  resolver : HashMap String CertifiedKey
  verifier : PkiClientVerifier V
  pairsByServer : HashMap String String

/-- `PkiRuntime::default()`. -/
def PkiRuntime.empty : PkiRuntime V := ⟨∅, ⟨none, [], ∅⟩, ∅⟩

def addPair (rt : PkiRuntime V) (serverName pairId : String) (key : CertifiedKey) (ca : Cert) :
    PkiRuntime V × Except PkiError Unit :=
  match addCa cfg.toCrypto rt.verifier ca with
  | (v, .error e) => ({ rt with verifier := v }, .error e)
  | (v, .ok ()) =>
    (⟨rt.resolver.insert (toAsciiLowercase serverName) key, v,
      rt.pairsByServer.insert (toAsciiLowercase serverName) pairId⟩, .ok ())

def removePair (rt : PkiRuntime V) (serverName : String) (ca clientCert : Cert) :
    PkiRuntime V × Except PkiError Unit :=
  match removeCa cfg.toCrypto rt.verifier ca with
  | (v, .error e) => (⟨rt.resolver.erase (toAsciiLowercase serverName), v, rt.pairsByServer⟩, .error e)
  | (v, .ok ()) =>
    (⟨rt.resolver.erase (toAsciiLowercase serverName),
      { v with revoked := insert (cfg.fingerprintHex clientCert) v.revoked },
      rt.pairsByServer.erase (toAsciiLowercase serverName)⟩, .ok ())

def PkiRuntime.hasServer (rt : PkiRuntime V) (serverName : String) : Bool :=
  (rt.resolver.lookup (toAsciiLowercase serverName)).isSome

def PkiRuntime.pairIdForServer (rt : PkiRuntime V) (serverName : String) : Option String :=
  rt.pairsByServer.lookup (toAsciiLowercase serverName)

/-! ### The service -/

structure PkiService (V : Type) where
  files : Files
  /-- the table `pki_credentials`, by id -/
  rows : HashMap String PkiRecord
  runtime : PkiRuntime V

/-- How `list` shows a record. -/
def PkiRecord.shown (now : ℤ) (r : PkiRecord) : PkiRecord :=
  if r.status ≠ .revoked ∧ r.clientNotAfter ≤ now then { r with status := .expired }
  else if r.status = .waiting ∧ r.lastConnectedAt.isSome then { r with status := .connected }
  else r

/-- `list`, newest first. -/
def list (rows : HashMap String PkiRecord) (now : ℤ) (tenantId : Option String) : List PkiRecord :=
  (((values rows).filter fun r => tenantId.all (· = r.tenantId)).mergeSort
    fun a b => b.createdAt ≤ a.createdAt).map (PkiRecord.shown now)

/-- A status of an active record. -/
def Status.active (s : Status) : Bool := s = .waiting || s = .connected

def activeRecords (rows : HashMap String PkiRecord) (now : ℤ) : List PkiRecord :=
  (list rows now none).filter fun r => r.status.active

/-- One record of `load_active_pairs`. -/
def loadRecord (files : Files) (faults : Faults) (rt : PkiRuntime V) (r : PkiRecord) :
    Except PkiError (PkiRuntime V) := do
  let loaded ← match loadPair cfg files faults r.id with
    | .error (.io e) => throw (.storage ("active pair " ++ r.id ++ " cannot be loaded: " ++ e))
    | .error e => throw e
    | .ok loaded => pure loaded
  let key ← loaded.certifiedKey cfg
  match addPair cfg rt r.serverName r.id key loaded.caCert with
  | (_, .error e) => throw e
  | (rt, .ok ()) => pure rt

/-- `load_active_pairs`, on the empty live state of a process that starts. -/
def loadActivePairs (files : Files) (rows : HashMap String PkiRecord) (faults : Faults) (now : ℤ) :
    Except PkiError (PkiRuntime V) :=
  (activeRecords rows now).foldlM (loadRecord cfg files faults) PkiRuntime.empty

/-- The arguments of `create_pair`, without what only the certificates show. -/
structure CreateRequest where
  name : String
  tenantId : String
  serverName : String
  serverSans : List String
  createdBy : String
  deriving DecidableEq

/-- The checks of the arguments. -/
def checkRequest (req : CreateRequest) : Except PkiError Unit :=
  if !validName req.name then .error (.invalid "name must be 1..=64 chars of [a-z0-9-]")
  else if !validServerName req.serverName then
    .error (.invalid "server_name must be a lowercase DNS name (not an IP)")
  else if !req.serverSans.contains req.serverName then
    .error (.invalid "server_sans must contain server_name")
  else .ok ()

/-- An active record has the server name, or the name within the tenant. -/
def conflicts (existing : List PkiRecord) (req : CreateRequest) : Bool :=
  existing.any fun r => r.status.active &&
    (r.serverName = req.serverName || r.tenantId = req.tenantId && r.name = req.name)

def newRecord (now : ℤ) (req : CreateRequest) (id : String) (g : GeneratedPair) : PkiRecord where
  id := id
  name := req.name
  tenantId := req.tenantId
  serverName := req.serverName
  caFingerprintSha256 := g.caFingerprintSha256
  serverFingerprintSha256 := g.serverFingerprintSha256
  clientFingerprintSha256 := g.clientFingerprintSha256
  serial := g.serial
  status := .waiting
  createdAt := now
  createdBy := req.createdBy
  downloadedAt := none
  lastConnectedAt := none
  revokedAt := none
  clientNotAfter := g.clientNotAfter

/-- `INSERT INTO pki_credentials`. -/
def insertRow (rows : HashMap String PkiRecord) (faults : Faults) (r : PkiRecord) :
    Except PkiError (HashMap String PkiRecord) :=
  match faults .insert with
  | some e => .error e
  | none =>
    if (rows.lookup r.id).isSome then
      .error (.storage "UNIQUE constraint failed: pki_credentials.id")
    else .ok (rows.insert r.id r)

/-- `create_pair` up to the generation of the certificates: what can be refused without a trace. -/
def admitPair (s : PkiService V) (now : ℤ) (faults : Faults) (req : CreateRequest)
    (generated : Except String GeneratedPair) : Except PkiError GeneratedPair := do
  checkRequest req
  match faults .list with
  | some e => throw e
  | none => pure ()
  if conflicts (list s.rows now none) req then
    throw (.conflict "an active pair already uses this name or server_name")
  match generated with
  | .error e => throw (.generate e)
  | .ok g => pure g

/-- The files of the new pair, read back. -/
def loadNew (files : Files) (faults : Faults) (id : String) :
    Except PkiError (LoadedPair × CertifiedKey) := do
  let loaded ← loadPair cfg files faults id
  let key ← loaded.certifiedKey cfg
  pure (loaded, key)

/-- `create_pair`. The id is random, the certificates are `generated`. -/
def createPair (s : PkiService V) (now : ℤ) (faults : Faults) (req : CreateRequest) (id : String)
    (generated : Except String GeneratedPair) : PkiService V × Except PkiError PkiRecord :=
  match admitPair s now faults req generated with
  | .error e => (s, .error e)
  | .ok g =>
    match writePair s.files faults id g with
    | (files, .error e) => ({ s with files := files }, .error e)
    | (files, .ok ()) =>
      match loadNew cfg files faults id with
      | .error e => ({ s with files := files.erase id }, .error e)
      | .ok (loaded, key) =>
        let record := newRecord now req id g
        match insertRow s.rows faults record with
        | .error e => ({ s with files := files.erase id }, .error e)
        | .ok rows =>
          match addPair cfg s.runtime req.serverName id key loaded.caCert with
          | (rt, .error e) => (⟨files.erase id, rows.erase id, rt⟩, .error e)
          | (rt, .ok ()) =>
            if rt.hasServer req.serverName then (⟨files, rows, rt⟩, .ok record)
            else
              (⟨files.erase id, rows.erase id, rt⟩,
                .error (.storage "server certificate did not become resolvable"))

/-- `record`. -/
def record (rows : HashMap String PkiRecord) (faults : Faults) (id : String) : Except PkiError PkiRecord :=
  match faults .get, rows.lookup id with
  | some e, _ => .error e
  | none, none => .error .notFound
  | none, some r => .ok r

/-- `UPDATE .. SET last_connected_at = .., status = 'connected'` of an active record. -/
def PkiRecord.connected (now : ℤ) (r : PkiRecord) : PkiRecord :=
  if r.status.active then { r with lastConnectedAt := some now, status := .connected } else r

def markConnected (s : PkiService V) (now : ℤ) (faults : Faults) (serverName : String) :
    PkiService V × Except PkiError Unit :=
  match s.runtime.pairIdForServer serverName, faults .markConnected with
  | none, _ => (s, .ok ())
  | some _, some e => (s, .error e)
  | some id, none => ({ s with rows := modify id (PkiRecord.connected now) s.rows }, .ok ())

/-- `DownloadBundle`: the members of the archive, in order. -/
structure DownloadBundle where
  filename : String
  members : List (String × Bytes)
  deriving DecidableEq

def buildDownloadBundle (name serverName : String) (caCertPem clientCertPem clientKey : Bytes) :
    DownloadBundle where
  filename := "hlmg-client-" ++ name ++ ".tar"
  members :=
    [("ca.crt", caCertPem), ("client.crt", clientCertPem), ("client.key", clientKey),
      ("client-config.example.yml", utf8 ("# Generated by edge-llm-gateway for pair " ++ name ++
        "\n# Put these files beside this config.\ncloud_addr: \"<gateway-host>:4433\"\nca: ca.crt\n" ++
        "cert: client.crt\nkey: client.key\nserver_name: " ++ serverName ++ "\n"))]

/-- The checks of `download` on the record. -/
def checkDownload (now : ℤ) (r : PkiRecord) : Except PkiError Unit :=
  if r.status = .revoked ∨ r.revokedAt.isSome then .error .notFound
  else if r.clientNotAfter ≤ now then .error .expired
  else if r.downloadedAt.isSome then .error .downloadConsumed
  else .ok ()

def hasClientKey (files : Files) (id : String) : Bool :=
  ((files.lookup id).bind (·.lookup .clientKey)).isSome

def loadClientKey (files : Files) (faults : Faults) (id : String) : Except PkiError Bytes :=
  if hasClientKey files id then readSecure cfg files faults id .clientKey else .error .downloadConsumed

/-- The bundle of a pair. -/
def bundleOf (files : Files) (faults : Faults) (id : String) (r : PkiRecord) :
    Except PkiError DownloadBundle := do
  let key ← loadClientKey cfg files faults id
  let ca ← loadPair cfg files faults r.id
  pure (buildDownloadBundle r.name r.serverName ca.caCertPem ca.clientCertPem key)

/-- `UPDATE .. SET downloaded_at = ..`. -/
def markDownloaded (rows : HashMap String PkiRecord) (now : ℤ) (id : String) : HashMap String PkiRecord :=
  modify id (fun r => { r with downloadedAt := some now }) rows

/-- `remove_file` on the client key. -/
def removeClientKey (files : Files) (id : String) : Files := modify id (·.erase .clientKey) files

def download (s : PkiService V) (now : ℤ) (faults : Faults) (id : String) :
    PkiService V × Except PkiError DownloadBundle :=
  match (do
    let r ← record s.rows faults id
    checkDownload now r
    bundleOf cfg s.files faults id r : Except PkiError DownloadBundle) with
  | .error e => (s, .error e)
  | .ok bundle =>
    match faults .markDownloaded, faults .removeClientKey with
    | some e, _ => (s, .error e)
    | none, some e => ({ s with rows := markDownloaded s.rows now id }, .error e)
    | none, none =>
      ({ s with rows := markDownloaded s.rows now id, files := removeClientKey s.files id }, .ok bundle)

/-- `UPDATE .. SET status = 'revoked', revoked_at = ..` of a record that is not revoked. -/
def PkiRecord.revoke (now : ℤ) (r : PkiRecord) : PkiRecord :=
  if r.status = .revoked then r else { r with status := .revoked, revokedAt := some now }

/-- `revoke` before it changes anything: the record, its CA and its client certificate. -/
def findPair (s : PkiService V) (faults : Faults) (id : String) :
    Except PkiError (PkiRecord × Cert × Cert) := do
  let r ← record s.rows faults id
  if r.status = .revoked then throw (.conflict "pair is already revoked")
  let loaded ← match loadPair cfg s.files faults r.id with
    | .error e => throw (.storage ("cannot revoke pair " ++ id ++ ": " ++ e.display))
    | .ok loaded => pure loaded
  let clientCert ← loaded.clientCert cfg
  pure (r, loaded.caCert, clientCert)

def revoke (s : PkiService V) (now : ℤ) (faults : Faults) (id : String) :
    PkiService V × Except PkiError Unit :=
  match findPair cfg s faults id with
  | .error e => (s, .error e)
  | .ok (r, ca, clientCert) =>
    match removePair cfg s.runtime r.serverName ca clientCert with
    | (rt, .error e) => ({ s with runtime := rt }, .error e)
    | (rt, .ok ()) =>
      match faults .revokeRow with
      | some e => ({ s with runtime := rt }, .error e)
      | none => ({ s with runtime := rt, rows := modify id (PkiRecord.revoke now) s.rows }, .ok ())

end

/-! ### What becomes of the live state -/

section

variable {V : Type} {cfg : Config V} {rt : PkiRuntime V} {serverName : String} {ca clientCert : Cert}

/-- The rebuild with the new CA succeeds, or is not made because the CA is there already. -/
def TakesCa (cfg : Config V) (roots : List Cert) (ca : Cert) : Prop :=
  trusts cfg.toCrypto roots (cfg.fingerprintHex ca) ∨ (rebuild cfg.toCrypto (roots ++ [ca])).isOk

/-- The roots with a CA. -/
def rootsWith (cfg : Config V) (roots : List Cert) (ca : Cert) : List Cert :=
  if trusts cfg.toCrypto roots (cfg.fingerprintHex ca) then roots else roots ++ [ca]

/-- The roots without those of this fingerprint. -/
def rootsWithout (cfg : Config V) (roots : List Cert) (ca : Cert) : List Cert :=
  roots.filter fun r => cfg.fingerprintHex r ≠ cfg.fingerprintHex ca

theorem addPair_ok (serverName pairId : String) (key : CertifiedKey) (h : TakesCa cfg rt.verifier.roots ca) :
    ∃ v, addPair cfg rt serverName pairId key ca =
      (⟨rt.resolver.insert (toAsciiLowercase serverName) key, v,
        rt.pairsByServer.insert (toAsciiLowercase serverName) pairId⟩, .ok ()) ∧
      v.roots = rootsWith cfg rt.verifier.roots ca := by
  unfold addPair addCa apply changeRoots rootsWith
  by_cases ht : trusts cfg.toCrypto rt.verifier.roots (cfg.fingerprintHex ca) = true
  · refine ⟨rt.verifier, ?_, ?_⟩
    · simp only [ht, if_true]
    · rw [if_pos ht]
  · have hb := h.resolve_left ht
    rcases hr : rebuild cfg.toCrypto (rt.verifier.roots ++ [ca]) with e | v
    · rw [hr] at hb
      cases hb
    · refine ⟨{ rt.verifier with roots := rt.verifier.roots ++ [ca], inner := v }, ?_, ?_⟩
      · simp only [ht, Bool.false_eq_true, if_false, hr]
      · rw [if_neg ht]

/-- A failed rebuild leaves the new root behind. -/
theorem addPair_error (serverName pairId : String) (key : CertifiedKey)
    (h : ¬ TakesCa cfg rt.verifier.roots ca) : ∃ e, addPair cfg rt serverName pairId key ca =
      ({ rt with verifier := { rt.verifier with roots := rt.verifier.roots ++ [ca] } }, .error e) := by
  unfold TakesCa at h
  rw [not_or] at h
  obtain ⟨ht, hb⟩ := h
  unfold addPair addCa apply changeRoots
  rcases hr : rebuild cfg.toCrypto (rt.verifier.roots ++ [ca]) with e | v
  · exact ⟨e, by simp only [ht, Bool.false_eq_true, if_false, hr]⟩
  · rw [hr] at hb
    exact absurd rfl hb

theorem removePair_ok {v : Option V}
    (h : rebuild cfg.toCrypto (rootsWithout cfg rt.verifier.roots ca) = .ok v) :
    removePair cfg rt serverName ca clientCert =
      (⟨rt.resolver.erase (toAsciiLowercase serverName),
        ⟨v, rootsWithout cfg rt.verifier.roots ca,
          insert (cfg.fingerprintHex clientCert) rt.verifier.revoked⟩,
        rt.pairsByServer.erase (toAsciiLowercase serverName)⟩, .ok ()) := by
  unfold rootsWithout at h ⊢
  simp only [removePair, removeCa, apply, changeRoots, h]

/-- A failed rebuild leaves the certificate and the root removed. -/
theorem removePair_error {e : PkiError}
    (h : rebuild cfg.toCrypto (rootsWithout cfg rt.verifier.roots ca) = .error e) :
    removePair cfg rt serverName ca clientCert =
      (⟨rt.resolver.erase (toAsciiLowercase serverName),
        { rt.verifier with roots := rootsWithout cfg rt.verifier.roots ca }, rt.pairsByServer⟩,
        .error e) := by
  unfold rootsWithout at h ⊢
  simp only [removePair, removeCa, apply, changeRoots, h]

end

/-! ### A sample -/

/-- A `rustls` whose certificates and keys are their own encoding; a certificate of two bytes is no root. -/
def lenient : Config (List Cert) where
  fingerprintHex cert := String.ofList (cert.map fun b => Char.ofNat (48 + b.toNat))
  addRoot cert := if cert.length = 2 then some "BadDer" else none
  build roots := .ok roots
  verify _ _ _ _ := .ok ()
  dir := "/var/lib/hlmg/pki"
  certs pem := .ok [pem]
  privateKey pem := .ok (some pem)
  unsupportedKey _ := none

def pairOf (ca server client : Cert) (clientNotAfter : ℤ) : GeneratedPair :=
  ⟨"5e", ca, [9], server, [9], client, [9], lenient.fingerprintHex ca, lenient.fingerprintHex server,
    lenient.fingerprintHex client, clientNotAfter⟩

def homeRequest : CreateRequest := ⟨"home", "t1", "home.example", ["home.example"], "admin"⟩

end HomeLlmGateway.Pki.Service
