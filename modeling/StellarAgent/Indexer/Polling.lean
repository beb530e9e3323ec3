import Mathlib.Data.String.Basic
import StellarAgent.Indexer.Decoder
import StellarAgent.Indexer.Store
import StellarAgent.Lib.Runs

set_option autoImplicit false

/-! # Polling the events

`SorobanEventIndexer` of `packages/indexer/src/indexer.ts`. A call of `runOnce` or `catchUp` reads
the checkpoint, fetches one page after the other and commits what it has; the RPC may move between
any two pages, calls may overlap, and a restart ends those in flight. A call that is over after its
last page commits at once or not at all.

The checkpoint is one after the last ledger of the range that was committed last, wherever that
range began. What lies behind it is complete as long as no range begins beyond an event that is not
stored yet, and no last page comes from a source that is behind the range (`no_gap`).
-/

namespace StellarAgent.Indexer

open Lib
open Prediction (Native)

/-! ## The source -/

/-- What an RPC holds for the filters of the indexer. The id of an event is its paging token and
determines its ledger, `place`; events are held in the order of their ids. -/
structure Source (place : String →o ℤ) where
  latestLedger : ℤ
  events : List RawContractEvent
  sorted : events.Pairwise fun a b => a.id < b.id
  token : ∀ event ∈ events, event.pagingToken = event.id
  placed : ∀ event ∈ events, place event.id = event.ledger
  known : ∀ event ∈ events, event.ledger ≤ latestLedger

inductive GetEventsRequest where
  | startLedger (ledger : ℤ)
  | cursor (token : String)

/-- The events that a request asks for -/
def GetEventsRequest.wants : GetEventsRequest → RawContractEvent → Bool
  | startLedger ledger, event => ledger ≤ event.ledger
  | cursor token, event => token < event.pagingToken

/-- The page that answers a request: it is short only if there are no further events. -/
def Source.getEvents {place : String →o ℤ} (source : Source place) (request : GetEventsRequest)
    (limit : ℕ) : List RawContractEvent :=
  (source.events.filter request.wants).take limit

/-! ## The indexer -/

structure IndexerOptions where
  contracts : List (ContractKind × String)
  startLedger : ℤ
  rollbackWindow : ℤ
  finalityLag : ℤ
  pageSize : ℕ

/-- The variables of one `fetchAndCommit`; `next` is the request of the loop, or none after it. -/
structure Fetch where
  fromLedger : ℤ
  latestLedger : ℤ
  rawEvents : List RawContractEvent
  next : Option GetEventsRequest

/-- The indexer with its store and its source; `head` is the highest ledger the source has shown. -/
structure SorobanEventIndexer (place : String →o ℤ) where
  source : Source place
  head : ℤ
  store : EventStore
  fetches : ℕ → Option Fetch

inductive PollAction (place : String →o ℤ) where
  | moved (source : Source place)
  | run (call : ℕ) (fromLedgerOverride : Option ℤ)
  | page (call : ℕ)
  | rejected (call : ℕ)
  | commit (call : ℕ)
  | restart

section

variable (asString : Native → String) (localeCompare : String → String → Ordering)
  (options : IndexerOptions) {place : String →o ℤ}

def decode (raw : RawContractEvent) : Except String DecodedEvent :=
  match raw.contractId, options.contracts.find? fun entry => some entry.2 = raw.contractId with
  | some address, some entry => decodeEvent asString raw entry.1 address
  | _, _ => .error ("event " ++ raw.id ++ " came from an unconfigured contract")

/-- The first ledger of a call -/
def fromLedgerOf (checkpoint fromLedgerOverride : Option ℤ) : ℤ :=
  match fromLedgerOverride with
  | none => max options.startLedger
      (checkpoint.getD options.startLedger - options.rollbackWindow)
  | some ledger => max options.startLedger ledger

/-- A call before its first page -/
def Fetch.start (fromLedger : ℤ) : Fetch where
  fromLedger := fromLedger
  latestLedger := fromLedger - 1
  rawEvents := []
  next := some (.startLedger fromLedger)

/-- The body of the loop, after the response to its request -/
def Fetch.received (fetch : Fetch) (latestLedger : ℤ) (page : List RawContractEvent) : Fetch where
  fromLedger := fetch.fromLedger
  latestLedger :=
    if fetch.latestLedger < fetch.fromLedger then latestLedger else fetch.latestLedger
  rawEvents := fetch.rawEvents ++ page
  next :=
    if page.length = options.pageSize then
      page.getLast?.map fun event => .cursor event.pagingToken
    else none

/-- What a fetch is after the response of a source to a request -/
def Fetch.answered (fetch : Fetch) (source : Source place) (request : GetEventsRequest) : Fetch :=
  fetch.received options source.latestLedger (source.getEvents request options.pageSize)

def Fetch.throughLedger (fetch : Fetch) : ℤ :=
  max (fetch.fromLedger - 1) (fetch.latestLedger - options.finalityLag)

/-- The events to commit; those that cannot be decoded are skipped. -/
def Fetch.decoded (fetch : Fetch) : List DecodedEvent :=
  (fetch.rawEvents.filter fun event => event.ledger ≤ fetch.throughLedger options).filterMap
    fun event => (decode asString options event).toOption

def Fetch.replaceRange (fetch : Fetch) (store : EventStore) : Except String EventStore :=
  store.replaceRange localeCompare fetch.fromLedger (fetch.throughLedger options)
    (fetch.decoded asString options) "stellaragent"

namespace SorobanEventIndexer

/-- The call `call` is over. -/
def ended (s : SorobanEventIndexer place) (call : ℕ) : SorobanEventIndexer place :=
  { s with fetches := Function.update s.fetches call none }

/-- One step, `none` where it is not possible: a call that is not there does not go on, and an
override that is not positive throws. -/
def after (s : SorobanEventIndexer place) : PollAction place → Option (SorobanEventIndexer place)
  | .moved source => some { s with
      source := source
      head := max s.head source.latestLedger }
  | .run call fromLedgerOverride =>
      if s.fetches call ≠ none ∨ fromLedgerOverride.any (fun ledger => decide (ledger < 1)) then
        none
      else
        let fromLedger := fromLedgerOf options (s.store.checkpoint "stellaragent")
          fromLedgerOverride
        some { s with fetches := Function.update s.fetches call (some (Fetch.start fromLedger)) }
  | .page call =>
      match s.fetches call with
      | some fetch =>
          fetch.next.map fun request =>
            let fetch := fetch.answered options s.source request
            { s with fetches := Function.update s.fetches call (some fetch) }
      | none => none
  | .rejected call => if s.fetches call = none then none else some (s.ended call)
  | .commit call =>
      match s.fetches call with
      | some ⟨fromLedger, latestLedger, rawEvents, none⟩ =>
          let fetch : Fetch := ⟨fromLedger, latestLedger, rawEvents, none⟩
          match fetch.replaceRange asString localeCompare options s.store with
          | .ok store => some { s.ended call with store := store }
          | .error _ => some (s.ended call)
      | _ => none
  | .restart => some { s with fetches := fun _ => none }

end SorobanEventIndexer

end

end StellarAgent.Indexer
