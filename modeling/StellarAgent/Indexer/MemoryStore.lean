import StellarAgent.Indexer.Store

set_option autoImplicit false

/-! # The in-memory event store

`InMemoryEventStore` of `packages/indexer/src/store.ts`. Its maps keep the order of insertion, as the
tables of the SQLite store do. It sorts texts by `localeCompare` where SQLite compares bytes, and
nothing is rolled back when it throws.

The statement and the reconciliation are left out as in the SQLite store.
-/

namespace StellarAgent.Indexer

open Lib

structure InMemoryEventStore where
  events : List StoredEvent
  /-- The addresses and roles of an event, under its id -/
  participants : List (String × List (String × String))
  checkpoints : String → Option ℤ
  fees : List TransactionFee
  cachedEntries : List LedgerEntry
  cachedIssues : List LedgerIssue

/-- `items.slice(start, end)`: what is negative counts from the end. -/
def slice {A : Type} (items : List A) (start stop : ℤ) : List A :=
  let index (n : ℤ) : ℕ := (if n < 0 then items.length + n else n).toNat
  (items.take (index stop)).drop (index start)

namespace InMemoryEventStore

def empty : InMemoryEventStore := ⟨[], [], fun _ => none, [], [], []⟩

section

variable (localeCompare : String → String → Ordering) (store : InMemoryEventStore)

/-! ## Queries -/

def checkpoint (stream : String) : Option ℤ := store.checkpoints stream

def ledgerEntries (query : LedgerQuery) : Except String (List LedgerEntry) := do
  let (limit, offset) ← query.page
  return ((store.cachedEntries.filter query.admits).drop offset).take limit

def iterateLedgerEntries (query : LedgerQuery) (batchSize : ℤ) :
    Except String (List LedgerEntry) :=
  iterateEntries store.ledgerEntries store.cachedEntries.length query batchSize

def ledgerIssues : List LedgerIssue := store.cachedIssues

/-- The events that meet a condition, in the order of `localeCompare` -/
def sorted (which : StoredEvent → Bool) : List StoredEvent :=
  sortBy localeCompare position (store.events.filter which)

def participantsOf (eventId : String) : List (String × String) :=
  ((lookup Prod.fst store.participants eventId).map Prod.snd).getD []

/-- The ids in use of the agents that an agent with this address has created -/
def creatorAgentIds (address : String) : List String :=
  store.events.filterMap fun event =>
    if event.namespace = .factory ∧ event.action = "created" ∧ event.entityType = some .agent ∧
        (address, "agent") ∈ store.participantsOf event.eventId then
      event.entityId.filter (· ≠ "")
    else none

def eventsForAgent (address : String) : List StoredEvent :=
  store.sorted localeCompare fun event =>
    (store.participantsOf event.eventId).any (fun participant => participant.1 = address) ||
    decide (event.entityType = some .agent ∧
      event.entityId.any (fun id => decide (id ∈ store.creatorAgentIds address)) = true)

def spendHistory (channelId : String) : Except String ChannelSpend :=
  channelSpend channelId (store.sorted localeCompare (isPayment channelId))

def jobLifecycle (jobId : String) : JobLifecycle :=
  let events := store.sorted localeCompare (isJobEvent jobId)
  ⟨jobId, events.foldl statusAfter .Unknown, events⟩

def allEvents (limit offset : ℤ) : List StoredEvent :=
  slice (store.sorted localeCompare fun _ => true) offset (offset + limit)

def eventCount : ℕ := store.events.length

def latestSnapshot (action : String) (entityType : EntityType) (entityId : String) :
    Option JsonValue :=
  let matching := (store.events.filter (isSnapshot action entityType entityId)).insertionSort
    fun a b => precedes localeCompare (position b) (position a)
  matching.head?.bind fun event => event.payload.body.state

def channelState (channelId : String) : Option JsonValue :=
  store.latestSnapshot localeCompare "channel" .channel channelId

def jobState (jobId : String) : Option JsonValue :=
  store.latestSnapshot localeCompare "job" .job jobId

def rateLimitState (agent : String) : Option JsonValue :=
  store.latestSnapshot localeCompare "limit" .agent agent

def agentInfoState (agentId : String) : Option JsonValue :=
  store.latestSnapshot localeCompare "agent" .agent agentId

/-! ## Updates -/

/-- The ledger of the first million of events, and of all fees -/
def rebuildLedger : InMemoryEventStore :=
  let feeList := sortBy localeCompare (fun fee => (fee.ledger, fee.txHash)) store.fees
  let normalized := normalizeLedger localeCompare (store.allEvents localeCompare 1000000 0) feeList
  { store with cachedEntries := normalized.entries, cachedIssues := normalized.issues }

/-- The maps after a range is replaced, before the ledger is rebuilt -/
def replaced (fromLedger throughLedger : ℤ) (events : List DecodedEvent) (stream : String) :
    InMemoryEventStore :=
  let range := inRange fromLedger throughLedger
  let deleted := (store.events.filter fun event => range event.ledger).map StoredEvent.eventId
  let new := events.filter fun event => range event.ledger
  { store with
    events := upsertAll StoredEvent.eventId
      (store.events.filter fun event => !range event.ledger) (new.map stored)
    participants := upsertAll Prod.fst
      (store.participants.filter fun row => decide (row.1 ∉ deleted))
      (new.map fun event => (event.eventId, Indexer.participants event))
    fees := store.fees.filter fun fee => !range fee.ledger
    checkpoints := Function.update store.checkpoints stream (some (throughLedger + 1)) }

def replaceRange (fromLedger throughLedger : ℤ) (events : List DecodedEvent) (stream : String) :
    InMemoryEventStore :=
  if throughLedger < fromLedger then store
  else rebuildLedger localeCompare (store.replaced fromLedger throughLedger events stream)

/-- The loop over the fees: those before one that fails its check have been stored. -/
def setFees (store : InMemoryEventStore) : List TransactionFee →
    InMemoryEventStore × Except String Unit
  | [] => (store, .ok ())
  | fee :: fees =>
      match checkFee fee with
      | .ok () => setFees { store with fees := upsert TransactionFee.txHash fee store.fees } fees
      | .error message => (store, .error message)

def recordTransactionFees (fees : List TransactionFee) :
    InMemoryEventStore × Except String Unit :=
  match store.setFees fees with
  | (store, .ok ()) => (store.rebuildLedger localeCompare, .ok ())
  | (store, .error message) => (store, .error message)

end

end InMemoryEventStore

end StellarAgent.Indexer
