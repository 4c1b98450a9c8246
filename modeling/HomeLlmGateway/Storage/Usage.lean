import HomeLlmGateway.Lib.Runs
import HomeLlmGateway.Lib.Assoc

/-! # The usage store

`UsageStore` (`gateway/src/storage/usage.rs`): the usage of each key, counted in memory and written to
the `key_usage` table in batches. What is written is the absolute total, never a difference, and each
record remembers in `flushed` what the table holds.

`flush_once` is not atomic. It takes its batch under the lock of `usage`, writes it in a transaction
under the lock of `db`, and updates the markers under the lock of `usage` again; `accumulate` may come
between any two of these, and any database statement may fail. Two calls of `flush_once` never overlap
(`flush_gate`), so one `Flush` describes how far the current one is. `restart` ends the process at any
point and starts it again on the same table. -/

namespace HomeLlmGateway.Storage.Usage

open HomeLlmGateway.Lib.Assoc

/-! ### Records and rows -/

/-- `UsageDelta`: what one request adds. -/
structure UsageDelta where
  promptTokens : UInt64
  completionTokens : UInt64
  estimated : Bool
  deriving DecidableEq

/-- `UsageSnapshot`: the totals of a key. -/
structure UsageSnapshot where
  tenantId : String
  name : String
  promptTokens : UInt64
  completionTokens : UInt64
  requests : UInt64
  estimatedRequests : UInt64
  lastUsedAt : UInt64
  deriving DecidableEq

/-- `UsageRecord`: the totals in memory and those known to be in the table. -/
structure UsageRecord where
  current : UsageSnapshot
  flushed : UsageSnapshot
  everFlushed : Bool
  deriving DecidableEq

/-- `UsageSnapshot::default`. -/
def UsageSnapshot.default : UsageSnapshot := ⟨"", "", 0, 0, 0, 0, 0⟩

/-- `UsageRecord::default`. -/
def UsageRecord.default : UsageRecord := ⟨.default, .default, false⟩

/-- A row of `key_usage`, without its key. -/
structure Row where
  tenantId : String
  name : String
  promptTokens : Int64
  completionTokens : Int64
  requests : Int64
  estimatedRequests : Int64
  lastUsedAt : Int64
  deriving DecidableEq

/-- The `key_usage` table. -/
abbrev Db := HashMap String Row

/-- The row that `flush_once` writes (`as i64`). -/
def toRow (s : UsageSnapshot) : Row where
  tenantId := s.tenantId
  name := s.name
  promptTokens := s.promptTokens.toInt64
  completionTokens := s.completionTokens.toInt64
  requests := s.requests.toInt64
  estimatedRequests := s.estimatedRequests.toInt64
  lastUsedAt := s.lastUsedAt.toInt64

/-- A column as `load_usage` reads it: `.max(0) as u64`. -/
def loadCol (x : Int64) : UInt64 := (max x 0).toUInt64

/-- The totals that `load_usage` reads from a row. -/
def loadRow (r : Row) : UsageSnapshot where
  tenantId := r.tenantId
  name := r.name
  promptTokens := loadCol r.promptTokens
  completionTokens := loadCol r.completionTokens
  requests := loadCol r.requests
  estimatedRequests := loadCol r.estimatedRequests
  lastUsedAt := loadCol r.lastUsedAt

/-- `load_usage`. What the table holds is both the totals to go on from and the flushed marker. -/
def loadUsage (db : Db) : HashMap String UsageRecord where
  entries := db.entries.map fun e => ⟨e.1, ⟨loadRow e.2, loadRow e.2, true⟩⟩
  nodupKeys := by
    have hk : (db.entries.map fun e =>
        (⟨e.1, ⟨loadRow e.2, loadRow e.2, true⟩⟩ : (_ : String) × UsageRecord)).map Sigma.fst =
        db.entries.map Sigma.fst := by
      rw [List.map_map]; rfl
    show List.Nodup _
    rw [List.keys, hk]
    exact db.nodupKeys

/-! ### The store -/

/-- How far the call of `flush_once` that holds the gate is. -/
inductive Flush where
  /-- no call under way -/
  | idle
  /-- the batch is taken -/
  | batched (batch : List (String × UsageSnapshot))
  /-- in the transaction: the rows to come and the table as the transaction sees it -/
  | writing (batch todo : List (String × UsageSnapshot)) (tx : Db) (written : ℕ)
  /-- committed, markers not yet updated -/
  | committed (batch : List (String × UsageSnapshot)) (written : ℕ)
  deriving DecidableEq

/-- The process and its database. -/
structure State where
  usage : HashMap String UsageRecord
  hasDb : Bool
  db : Db
  flush : Flush
  /-- the result of the last call of `flush_once` -/
  returned : Option ℕ

/-- `UsageStore::new` on a table that can be read. -/
def init (db : Db) : State := ⟨loadUsage db, true, db, .idle, none⟩

/-- The totals after one more request. -/
def UsageSnapshot.add (s : UsageSnapshot) (tenantId name : String) (delta : UsageDelta)
    (now : UInt64) : UsageSnapshot where
  tenantId := if s.tenantId.isEmpty then tenantId else s.tenantId
  name := if s.name.isEmpty then name else s.name
  promptTokens := s.promptTokens + delta.promptTokens
  completionTokens := s.completionTokens + delta.completionTokens
  requests := s.requests + 1
  estimatedRequests := if delta.estimated then s.estimatedRequests + 1 else s.estimatedRequests
  lastUsedAt := now

/-- The record under `keyId`, the default one if there is none (`entry(..).or_default()`). -/
def recordOf (usage : HashMap String UsageRecord) (keyId : String) : UsageRecord :=
  (usage.lookup keyId).getD .default

/-- `accumulate`. -/
def accumulate (usage : HashMap String UsageRecord) (keyId tenantId name : String)
    (delta : UsageDelta) (now : UInt64) : HashMap String UsageRecord :=
  usage.insert keyId { recordOf usage keyId with
    current := (recordOf usage keyId).current.add tenantId name delta now }

/-- Whether `flush_once` has to write the record. -/
def UsageRecord.pending (r : UsageRecord) : Bool := !r.everFlushed || r.current != r.flushed

/-- `has_pending`. -/
def hasPending (s : State) : Bool := s.hasDb && (values s.usage).any UsageRecord.pending

/-- The batch of `flush_once`. -/
def takeBatch (usage : HashMap String UsageRecord) (force : Bool) : List (String × UsageSnapshot) :=
  (usage.entries.filter fun e => force || e.2.pending).map fun e => (e.1, e.2.current)

/-- The marker update of one record. -/
def UsageRecord.mark (snap : UsageSnapshot) (r : UsageRecord) : UsageRecord :=
  { r with flushed := snap, everFlushed := true }

/-- What happens next. The `Bool` of a database operation says whether it succeeds. -/
inductive Label where
  | accumulate (keyId tenantId name : String) (delta : UsageDelta) (now : UInt64)
  /-- `flush_once` passes the gate and takes its batch -/
  | flushOnce (force : Bool)
  | transaction (ok : Bool)
  /-- the upsert of the next row -/
  | execute (ok : Bool)
  | commit (ok : Bool)
  /-- the markers of the batch -/
  | mark
  /-- the process ends and starts again; `load_usage` may fail -/
  | restart (loadOk : Bool)
  deriving DecidableEq

/-- One step. -/
def step (s : State) : Label → Option State
  | .accumulate keyId tenantId name delta now =>
    some { s with usage := accumulate s.usage keyId tenantId name delta now }
  | .flushOnce force =>
    match s.flush with
    | .idle =>
      if !s.hasDb || (takeBatch s.usage force).isEmpty then some { s with returned := some 0 }
      else some { s with flush := .batched (takeBatch s.usage force) }
    | _ => none
  | .transaction ok =>
    match s.flush with
    | .batched batch =>
      if ok then some { s with flush := .writing batch batch s.db 0 }
      else some { s with flush := .idle, returned := some 0 }
    | _ => none
  | .execute ok =>
    match s.flush with
    | .writing batch (p :: todo) tx written =>
      if ok then
        some { s with flush := .writing batch todo (tx.insert p.1 (toRow p.2)) (written + 1) }
      else some { s with flush := .idle, returned := some 0 }
    | _ => none
  | .commit ok =>
    match s.flush with
    | .writing batch [] tx written =>
      if ok then some { s with db := tx, flush := .committed batch written }
      else some { s with flush := .idle, returned := some 0 }
    | _ => none
  | .mark =>
    match s.flush with
    | .committed batch written =>
      some { s with
        usage := updateAll UsageRecord.mark s.usage batch
        flush := .idle
        returned := some written }
    | _ => none
  | .restart loadOk =>
    -- an open transaction is rolled back: the table keeps what was committed
    if loadOk then some (init s.db)
    else some ⟨∅, false, s.db, .idle, none⟩

end HomeLlmGateway.Storage.Usage
