import Mathlib.Tactic

set_option autoImplicit false

/-! # Decoded events

`packages/indexer/src/types.ts`: what the decoder makes of a contract event, and the row that the
event stores keep of it, with the entity it is filed under and the addresses that take part in it
(`entity`, `participants` of `store.ts`). Ledger numbers are integers.
-/

namespace StellarAgent.Indexer

/-! ## Values -/

/-- `JsonValue`; its numbers come from `u32` and `i32`, so they are integers. -/
inductive JsonValue where
  | null
  | bool (value : Bool)
  | number (value : ℤ)
  | string (value : String)
  | array (items : List JsonValue)
  | object (fields : List (String × JsonValue))

/-- The first value that a list of fields has under a name -/
def field {A : Type} (fields : List (String × A)) (name : String) : Option A :=
  (fields.find? fun entry => entry.1 = name).map Prod.snd

/-- The fields of an object that is no array -/
def JsonValue.asObject : JsonValue → Option (List (String × JsonValue))
  | .object fields => some fields
  | _ => none

def JsonValue.asString : JsonValue → Option String
  | .string value => some value
  | _ => none

/-! ## Events -/

inductive ContractKind where
  | paymentChannel
  | escrow
  | rateLimiter
  | agentWalletFactory
  deriving DecidableEq

inductive Namespace where
  | channel
  | escrow
  | rl
  | factory
  | state
  deriving DecidableEq

/-- What a decoded event says beside its metadata: one constructor for each `namespace/action`. -/
inductive EventBody where
  | opened (channelId agent owner deposit : String)
  | paid (channelId agent recipient amount memo : String)
  | convpaid (channelId agent recipient amount destinationToken received memo : String)
  | topup (channelId owner amount : String)
  | closed (channelId owner refund : String)
  | jobCreated (jobId requester amount : String)
  | accepted (jobId worker : String)
  | result (jobId worker : String)
  | released (jobId worker amount : String)
  | refunded (jobId requester amount : String)
  | disputed (jobId requester : String)
  | resolved (jobId arbiter : String) (favorWorker : Bool)
  | recorded (agent amount : String)
  | killed (agent : String)
  | agentCreated (agentId agent owner : String)
  | deactiv (agentId owner : String)
  | reactiv (agentId owner : String)
  | channelState (channelId : String) (state : JsonValue)
  | jobState (jobId : String) (state : JsonValue)
  | limitState (agent : String) (state : JsonValue)
  | agentState (agentId : String) (state : JsonValue)

namespace EventBody

def «namespace» : EventBody → Namespace
  | opened .. | paid .. | convpaid .. | topup .. | closed .. => .channel
  | jobCreated .. | accepted .. | result .. | released .. | refunded .. | disputed ..
  | resolved .. => .escrow
  | recorded .. | killed .. => .rl
  | agentCreated .. | deactiv .. | reactiv .. => .factory
  | channelState .. | jobState .. | limitState .. | agentState .. => .state

def action : EventBody → String
  | opened .. => "opened"
  | paid .. => "paid"
  | convpaid .. => "convpaid"
  | topup .. => "topup"
  | closed .. => "closed"
  | jobCreated .. | agentCreated .. => "created"
  | accepted .. => "accepted"
  | result .. => "result"
  | released .. => "released"
  | refunded .. => "refunded"
  | disputed .. => "disputed"
  | resolved .. => "resolved"
  | recorded .. => "recorded"
  | killed .. => "killed"
  | deactiv .. => "deactiv"
  | reactiv .. => "reactiv"
  | channelState .. => "channel"
  | jobState .. => "job"
  | limitState .. => "limit"
  | agentState .. => "agent"

/-- The fields that hold a text -/
def fields : EventBody → List (String × String)
  | opened channelId agent owner deposit =>
      [("channelId", channelId), ("agent", agent), ("owner", owner), ("deposit", deposit)]
  | paid channelId agent recipient amount memo =>
      [("channelId", channelId), ("agent", agent), ("recipient", recipient), ("amount", amount),
        ("memo", memo)]
  | convpaid channelId agent recipient amount destinationToken received memo =>
      [("channelId", channelId), ("agent", agent), ("recipient", recipient), ("amount", amount),
        ("destinationToken", destinationToken), ("received", received), ("memo", memo)]
  | topup channelId owner amount =>
      [("channelId", channelId), ("owner", owner), ("amount", amount)]
  | closed channelId owner refund =>
      [("channelId", channelId), ("owner", owner), ("refund", refund)]
  | jobCreated jobId requester amount =>
      [("jobId", jobId), ("requester", requester), ("amount", amount)]
  | accepted jobId worker | result jobId worker => [("jobId", jobId), ("worker", worker)]
  | released jobId worker amount => [("jobId", jobId), ("worker", worker), ("amount", amount)]
  | refunded jobId requester amount =>
      [("jobId", jobId), ("requester", requester), ("amount", amount)]
  | disputed jobId requester => [("jobId", jobId), ("requester", requester)]
  | resolved jobId arbiter _ => [("jobId", jobId), ("arbiter", arbiter)]
  | recorded agent amount => [("agent", agent), ("amount", amount)]
  | killed agent => [("agent", agent)]
  | agentCreated agentId agent owner =>
      [("agentId", agentId), ("agent", agent), ("owner", owner)]
  | deactiv agentId owner | reactiv agentId owner => [("agentId", agentId), ("owner", owner)]
  | channelState channelId _ => [("channelId", channelId)]
  | jobState jobId _ => [("jobId", jobId)]
  | limitState agent _ => [("agent", agent)]
  | agentState agentId _ => [("agentId", agentId)]

/-- The field `state` of a snapshot -/
def state : EventBody → Option JsonValue
  | channelState _ state | jobState _ state | limitState _ state | agentState _ state => some state
  | _ => none

end EventBody

structure EventMetadata where
  eventId : String
  contractKind : ContractKind
  contractAddress : String
  ledger : ℤ
  ledgerClosedAt : String
  txHash : String
  pagingToken : String
  rawTopicXdr : List String
  rawValueXdr : String
  deriving DecidableEq

structure DecodedEvent extends EventMetadata where
  body : EventBody

/-! ## Rows -/

inductive EntityType where
  | channel
  | job
  | agent
  deriving DecidableEq

/-- The channel, job or agent that an event is filed under -/
def entity (event : DecodedEvent) : Option (EntityType × String) :=
  let text := field event.body.fields
  match text "channelId", text "jobId", text "agentId", text "agent" with
  | some channelId, _, _, _ => some (.channel, channelId)
  | none, some jobId, _, _ => some (.job, jobId)
  | none, none, some agentId, _ => some (.agent, agentId)
  | none, none, none, some agent => some (.agent, agent)
  | none, none, none, none => none

/-- The addresses an event names, each with its role: those of its own fields, then those of the
record it is a snapshot of. -/
def participants (event : DecodedEvent) : List (String × String) :=
  let own := ["agent", "owner", "recipient", "requester", "worker"].filterMap fun role =>
    (field event.body.fields role).map fun address => (address, role)
  let recorded := match event.body.state.bind JsonValue.asObject with
    | some state =>
        ["agent", "address", "owner", "recipient", "requester", "worker", "arbiter"].filterMap
          fun role => ((field state role).bind JsonValue.asString).map fun address =>
            (address, role)
    | none => []
  own ++ recorded

/-- A row of the table `events` -/
structure StoredEvent where
  eventId : String
  contractKind : ContractKind
  contractAddress : String
  ledger : ℤ
  ledgerClosedAt : String
  txHash : String
  pagingToken : String
  «namespace» : Namespace
  action : String
  entityType : Option EntityType
  entityId : Option String
  payload : DecodedEvent

/-- The row that both stores keep of an event -/
def stored (event : DecodedEvent) : StoredEvent where
  eventId := event.eventId
  contractKind := event.contractKind
  contractAddress := event.contractAddress
  ledger := event.ledger
  ledgerClosedAt := event.ledgerClosedAt
  txHash := event.txHash
  pagingToken := event.pagingToken
  «namespace» := event.body.namespace
  action := event.body.action
  entityType := (entity event).map Prod.fst
  entityId := (entity event).map Prod.snd
  payload := event

section

variable (event : DecodedEvent)

@[simp] theorem stored_eventId : (stored event).eventId = event.eventId := rfl
@[simp] theorem stored_ledger : (stored event).ledger = event.ledger := rfl
@[simp] theorem stored_txHash : (stored event).txHash = event.txHash := rfl
@[simp] theorem stored_pagingToken : (stored event).pagingToken = event.pagingToken := rfl
@[simp] theorem stored_payload : (stored event).payload = event := rfl

end

end StellarAgent.Indexer
