import StellarAgent.Indexer.Ledger
import StellarAgent.Lib.Tables

set_option autoImplicit false

/-! # The event store

`EventStore` of `packages/indexer/src/store.ts`: its SQLite tables, the two transactions that change
them, and its queries. A table is the list of its rows in the order of their insertion, a
transaction that throws leaves the store as it was, and `TEXT` is compared bytewise. `ORDER BY`
keeps rows with equal keys in the order of their insertion.

The statement and the reconciliation are computed from the ledger entries only, by `buildStatement`
and `reconcileLedger`; these are parameters here. The times of the checkpoints, which no query
reads, are left out.
-/

namespace StellarAgent.Indexer

open Lib

/-! ## What both stores do alike -/

/-- Filters applied by the normalized ledger query. Without kinds, all of them are meant. -/
structure LedgerQuery where
  fromLedger : Option ℤ := none
  throughLedger : Option ℤ := none
  agent : Option String := none
  owner : Option String := none
  account : Option String := none
  asset : Option String := none
  kinds : List LedgerEntryKind := []
  limit : Option ℤ := none
  offset : Option ℤ := none

/-- `number` is an integer that JavaScript represents exactly. -/
def isSafeInteger (n : ℤ) : Prop := n.natAbs ≤ 2 ^ 53 - 1

instance (n : ℤ) : Decidable (isSafeInteger n) := inferInstanceAs (Decidable (_ ≤ _))

namespace LedgerQuery

variable (query : LedgerQuery)

/-- The conditions of the query on an entry -/
def admits (entry : LedgerEntry) : Bool :=
  query.fromLedger.all (fun n => decide (n ≤ entry.ledger)) &&
  query.throughLedger.all (fun n => decide (entry.ledger ≤ n)) &&
  query.agent.all (fun agent => decide (entry.agent = some agent)) &&
  query.owner.all (fun owner => decide (entry.owner = some owner)) &&
  query.account.all (fun account => entry.postings.any fun p => decide (p.account = account)) &&
  query.asset.all (fun asset => entry.postings.any fun p => decide (p.asset = asset)) &&
  (query.kinds.isEmpty || decide (entry.kind ∈ query.kinds))

/-- The limit and the offset of a page -/
def page : Except String (ℕ × ℕ) :=
  let limit := query.limit.getD 10000
  let offset := query.offset.getD 0
  if ¬ isSafeInteger limit ∨ limit < 0 ∨ 100000 < limit then
    .error "ledger query limit must be between 0 and 100000"
  else if ¬ isSafeInteger offset ∨ offset < 0 then
    .error "ledger query offset must be a non-negative integer"
  else .ok (limit.toNat, offset.toNat)

end LedgerQuery

/-- The batches from `offset` on, until one is not full. With as much fuel as there are entries,
it never runs out. -/
def batches (ledgerEntries : LedgerQuery → Except String (List LedgerEntry)) (query : LedgerQuery)
    (batchSize : ℕ) : ℕ → ℕ → Except String (List LedgerEntry)
  | 0, _ => .ok []
  | fuel + 1, offset => do
      let batch ← ledgerEntries { query with limit := some batchSize, offset := some offset }
      if batch.length < batchSize then return batch
      else return batch ++ (← batches ledgerEntries query batchSize fuel (offset + batch.length))

/-- All that `iterateLedgerEntries` yields from a store with `count` entries -/
def iterateEntries (ledgerEntries : LedgerQuery → Except String (List LedgerEntry)) (count : ℕ)
    (query : LedgerQuery) (batchSize : ℤ) : Except String (List LedgerEntry) :=
  if ¬ isSafeInteger batchSize ∨ batchSize < 1 ∨ 100000 < batchSize then
    .error "ledger iteration batchSize must be between 1 and 100000"
  else batches ledgerEntries query batchSize.toNat (count + 1) 0

structure ChannelSpend where
  channelId : String
  totalSpent : ℤ
  payments : List StoredEvent

inductive JobStatus where
  | Open
  | InProgress
  | PendingRelease
  | Completed
  | Refunded
  | Disputed
  | Unknown
  deriving DecidableEq

structure JobLifecycle where
  jobId : String
  status : JobStatus
  events : List StoredEvent

/-- `BigInt(value)` as it throws -/
def toBigInt (value : String) : Except String ℤ :=
  match bigInt value with
  | some n => .ok n
  | none => .error ("Cannot convert " ++ value ++ " to a BigInt")

/-- The payments of a channel, in the order they are given in, and what they add up to -/
def channelSpend (channelId : String) (payments : List StoredEvent) :
    Except String ChannelSpend := do
  let total ← payments.foldlM (fun sum event => do
    return sum + (← toBigInt ((field event.payload.body.fields "amount").getD "undefined"))) 0
  return ⟨channelId, total, payments⟩

def statusAfter (status : JobStatus) (event : StoredEvent) : JobStatus :=
  match event.action with
  | "created" => .Open
  | "accepted" => .InProgress
  | "result" => .PendingRelease
  | "released" => .Completed
  | "refunded" => .Refunded
  | "disputed" => .Disputed
  | _ => status

def isPayment (channelId : String) (event : StoredEvent) : Bool :=
  event.entityType = some .channel ∧ event.entityId = some channelId ∧
    (event.action = "paid" ∨ event.action = "convpaid")

def isJobEvent (jobId : String) (event : StoredEvent) : Bool :=
  event.entityType = some .job ∧ event.entityId = some jobId ∧ event.namespace = .escrow

def isSnapshot (action : String) (entityType : EntityType) (entityId : String)
    (event : StoredEvent) : Bool :=
  event.namespace = .state ∧ event.action = action ∧ event.entityType = some entityType ∧
    event.entityId = some entityId

/-- Where an event stands in the canonical order -/
def position (event : StoredEvent) : ℤ × String := (event.ledger, event.pagingToken)

def inRange (fromLedger throughLedger ledger : ℤ) : Bool :=
  fromLedger ≤ ledger ∧ ledger ≤ throughLedger

/-- The check of `recordTransactionFees` on one fee -/
def checkFee (fee : TransactionFee) : Except String Unit := do
  let charged ← toBigInt fee.charged
  if charged < 0 then throw ("fee " ++ fee.txHash ++ " must not be negative")
  if ¬ isSafeInteger fee.ledger ∨ fee.ledger < 0 then
    throw ("fee " ++ fee.txHash ++ " has an invalid ledger")

/-! ## Tables -/

/-- A row of `event_participants`, of which all columns are the key -/
structure Participant where
  eventId : String
  address : String
  role : String
  deriving DecidableEq

/-- The participants of an event, as rows -/
def participantRows (event : DecodedEvent) : List Participant :=
  (participants event).map fun (address, role) => ⟨event.eventId, address, role⟩

/-- The ids of the entries, the postings and the issues are primary keys. -/
def NormalizedLedger.KeysDistinct (ledger : NormalizedLedger) : Prop :=
  (ledger.entries.map LedgerEntry.entryId).Nodup ∧
  (ledger.entries.flatMap fun entry => entry.postings.map LedgerPosting.postingId).Nodup ∧
  (ledger.issues.map LedgerIssue.issueId).Nodup

instance (ledger : NormalizedLedger) : Decidable ledger.KeysDistinct :=
  inferInstanceAs (Decidable (_ ∧ _))

structure EventStore where
  events : List StoredEvent
  participants : List Participant
  checkpoints : String → Option ℤ
  fees : List TransactionFee
  entries : List LedgerEntry
  issues : List LedgerIssue

namespace EventStore

def empty : EventStore := ⟨[], [], fun _ => none, [], [], []⟩

section

variable (localeCompare : String → String → Ordering) (store : EventStore)

/-! ## Transactions -/

/-- The ledger of all events and fees -/
def normalized : NormalizedLedger :=
  normalizeLedger localeCompare (sortBy compare position store.events)
    (sortBy compare (fun fee => (fee.ledger, fee.txHash)) store.fees)

/-- Puts the normalized ledger in place of what was there. -/
def rebuildLedger : Except String EventStore :=
  if (store.normalized localeCompare).KeysDistinct then
    .ok { store with
      entries := (store.normalized localeCompare).entries
      issues := (store.normalized localeCompare).issues }
  else .error "UNIQUE constraint failed"

/-- The tables after a range is replaced, before the ledger is rebuilt. An event that is deleted
takes its participants with it. -/
def replaced (fromLedger throughLedger : ℤ) (events : List DecodedEvent) (stream : String) :
    EventStore :=
  let range := inRange fromLedger throughLedger
  let deleted := (store.events.filter fun event => range event.ledger).map StoredEvent.eventId
  let new := events.filter fun event => range event.ledger
  { store with
    events := upsertAll StoredEvent.eventId
      (store.events.filter fun event => !range event.ledger) (new.map stored)
    participants := upsertAll id
      (store.participants.filter fun row => decide (row.eventId ∉ deleted))
      (new.flatMap participantRows)
    fees := store.fees.filter fun fee => !range fee.ledger
    checkpoints := Function.update store.checkpoints stream (some (throughLedger + 1)) }

def replaceRange (fromLedger throughLedger : ℤ) (events : List DecodedEvent) (stream : String) :
    Except String EventStore :=
  if throughLedger < fromLedger then .ok store
  else rebuildLedger localeCompare (store.replaced fromLedger throughLedger events stream)

def recordTransactionFees (fees : List TransactionFee) : Except String EventStore := do
  fees.forM checkFee
  rebuildLedger localeCompare
    { store with fees := upsertAll TransactionFee.txHash store.fees fees }

end

/-! ## Queries -/

section

variable (store : EventStore)

def checkpoint (stream : String) : Option ℤ := store.checkpoints stream

def ledgerEntries (query : LedgerQuery) : Except String (List LedgerEntry) := do
  let (limit, offset) ← query.page
  return ((sortBy compare (fun entry => (entry.ledger, entry.entryId))
    (store.entries.filter query.admits)).drop offset).take limit

def iterateLedgerEntries (query : LedgerQuery) (batchSize : ℤ) :
    Except String (List LedgerEntry) :=
  iterateEntries store.ledgerEntries store.entries.length query batchSize

def ledgerIssues : List LedgerIssue :=
  sortBy compare (fun issue => (issue.ledger, issue.issueId)) store.issues

/-- The rows that meet a condition, `ORDER BY ledger, paging_token` -/
def rows (which : StoredEvent → Bool) : List StoredEvent :=
  sortBy compare position (store.events.filter which)

/-- The agents that an agent with this address has created -/
def createdBy (address : String) : List (Option String) :=
  (store.events.filter fun event => event.namespace = .factory ∧ event.action = "created" ∧
    (⟨event.eventId, address, "agent"⟩ : Participant) ∈ store.participants).map
      StoredEvent.entityId

def eventsForAgent (address : String) : List StoredEvent :=
  store.rows fun event =>
    store.participants.any (fun row => row.eventId = event.eventId ∧ row.address = address) ||
    decide (event.entityType = some .agent ∧ event.entityId ≠ none ∧
      event.entityId ∈ store.createdBy address)

def spendHistory (channelId : String) : Except String ChannelSpend :=
  channelSpend channelId (store.rows (isPayment channelId))

def jobLifecycle (jobId : String) : JobLifecycle :=
  let events := store.rows (isJobEvent jobId)
  ⟨jobId, events.foldl statusAfter .Unknown, events⟩

/-- A negative limit is none, a negative offset is zero. -/
def allEvents (limit offset : ℤ) : List StoredEvent :=
  let rows := (store.rows fun _ => true).drop offset.toNat
  if limit < 0 then rows else rows.take limit.toNat

def eventCount : ℕ := store.events.length

/-- The state of the last snapshot, `ORDER BY ledger DESC, paging_token DESC LIMIT 1` -/
def latestSnapshot (action : String) (entityType : EntityType) (entityId : String) :
    Option JsonValue :=
  let latest := (store.events.filter (isSnapshot action entityType entityId)).insertionSort
    fun a b => precedes compare (position b) (position a)
  latest.head?.bind fun event => event.payload.body.state

def channelState (channelId : String) : Option JsonValue :=
  store.latestSnapshot "channel" .channel channelId

def jobState (jobId : String) : Option JsonValue := store.latestSnapshot "job" .job jobId

def rateLimitState (agent : String) : Option JsonValue :=
  store.latestSnapshot "limit" .agent agent

def agentInfoState (agentId : String) : Option JsonValue :=
  store.latestSnapshot "agent" .agent agentId

end

end EventStore

end StellarAgent.Indexer
