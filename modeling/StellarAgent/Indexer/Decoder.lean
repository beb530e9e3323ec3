import StellarAgent.Indexer.Events
import StellarAgent.Lib.Results
import StellarAgent.Prediction.Decoding

set_option autoImplicit false

/-! # Decoding contract events

`packages/indexer/src/decoder.ts`. A raw event carries its topics and its value as `xdr.ScVal`,
which the decoder turns into JavaScript values and into texts. What is thrown is a text.
-/

namespace StellarAgent.Indexer

open Lib
open Prediction (Native)

/-! ## Raw events -/

/-- An `xdr.ScVal` as the decoder sees it: what `scValToNative` makes of it, and its XDR in
base64. -/
structure ScVal where
  native : Native
  xdr : String

/-- `RawContractEvent`, with the address its `contractId` shows as -/
structure RawContractEvent where
  id : String
  ledger : ℤ
  ledgerClosedAt : String
  contractId : Option String
  txHash : String
  pagingToken : String
  topic : List ScVal
  value : ScVal

/-! ## Values -/

def base64Digit (n : ℕ) : Char :=
  if n < 26 then Char.ofNat (n + 65)
  else if n < 52 then Char.ofNat (n + 71)
  else if n < 62 then Char.ofNat (n - 4)
  else if n = 62 then '+'
  else '/'

/-- `Buffer.from(bytes).toString("base64")` -/
def base64 : List UInt8 → List Char
  | a :: b :: c :: rest =>
      let n := a.toNat * 65536 + b.toNat * 256 + c.toNat
      [base64Digit (n / 262144), base64Digit (n / 4096 % 64), base64Digit (n / 64 % 64),
        base64Digit (n % 64)] ++ base64 rest
  | [a, b] =>
      let n := a.toNat * 1024 + b.toNat * 4
      [base64Digit (n / 4096), base64Digit (n / 64 % 64), base64Digit (n % 64), '=']
  | [a] =>
      let n := a.toNat * 16
      [base64Digit (n / 64), base64Digit (n % 64), '=', '=']
  | [] => []

section

/- What `String(value)` gives for a value that is not a string -/
variable (asString : Native → String)

def scalar : Native → Except String String
  | .bigint n => .ok (toString n)
  | .string s => .ok s
  | .bytes b => .ok (String.ofList (base64 b))
  | value => .error ("unsupported event scalar: " ++ asString value)

def tuple (value : Native) (length : ℕ) (key : String) : Except String (List Native) :=
  let values := match value with
    | .array items => items
    | value => [value]
  if values.length = length then .ok values
  else .error (key ++ " expected " ++ toString length ++ " values, received " ++
    toString values.length)

mutual

def jsonValue : Native → Except String JsonValue
  | .null => .ok .null
  | .bool b => .ok (.bool b)
  | .string s => .ok (.string s)
  | .number n => .ok (.number n)
  | .bigint n => .ok (.string (toString n))
  | .bytes b => .ok (.string (String.ofList (base64 b)))
  | .array items => do return .array (← jsonValues items)
  | .object fields => do return .object (← jsonFields fields)
  | .undefined => .error ("unsupported event value: " ++ asString .undefined)

def jsonValues : List Native → Except String (List JsonValue)
  | [] => .ok []
  | item :: items => do
      let item ← jsonValue item
      return item :: (← jsonValues items)

def jsonFields : List (String × Native) → Except String (List (String × JsonValue))
  | [] => .ok []
  | (key, nested) :: fields => do
      let nested ← jsonValue nested
      return (key, nested) :: (← jsonFields fields)

end

/-! ## Events -/

/-- How many values the event of each `namespace/action` has -/
def expectedLengths : List (String × ℕ) :=
  [("channel/opened", 4), ("channel/paid", 5), ("channel/convpaid", 7), ("channel/topup", 3),
    ("channel/closed", 3), ("escrow/created", 3), ("escrow/accepted", 2), ("escrow/result", 2),
    ("escrow/released", 3), ("escrow/refunded", 3), ("escrow/disputed", 2),
    ("escrow/resolved", 3), ("rl/recorded", 2), ("rl/killed", 1), ("factory/created", 3),
    ("factory/deactiv", 2), ("factory/reactiv", 2), ("state/channel", 2), ("state/job", 2),
    ("state/limit", 2), ("state/agent", 2)]

/-- The texts of the values; the record of a snapshot and the outcome of a resolution have none. -/
def scalars (names key : String) (nativeValues : List Native) : Except String (List String) :=
  nativeValues.zipIdx.mapM fun (value, index) =>
    if (names = "state" ∧ index = 1) ∨ (key = "escrow/resolved" ∧ index = 2) then .ok ""
    else scalar asString value

/-- The `switch` over the `namespace/action` of an event -/
def decodeBody (key : String) (values : List String) (nativeValues : List Native) :
    Except String EventBody :=
  match key, values, nativeValues with
  | "channel/opened", [channelId, agent, owner, deposit], _ =>
      .ok (.opened channelId agent owner deposit)
  | "channel/paid", [channelId, agent, recipient, amount, memo], _ =>
      .ok (.paid channelId agent recipient amount memo)
  | "channel/convpaid",
      [channelId, agent, recipient, amount, destinationToken, received, memo], _ =>
      .ok (.convpaid channelId agent recipient amount destinationToken received memo)
  | "channel/topup", [channelId, owner, amount], _ => .ok (.topup channelId owner amount)
  | "channel/closed", [channelId, owner, refund], _ => .ok (.closed channelId owner refund)
  | "escrow/created", [jobId, requester, amount], _ => .ok (.jobCreated jobId requester amount)
  | "escrow/accepted", [jobId, worker], _ => .ok (.accepted jobId worker)
  | "escrow/result", [jobId, worker], _ => .ok (.result jobId worker)
  | "escrow/released", [jobId, worker, amount], _ => .ok (.released jobId worker amount)
  | "escrow/refunded", [jobId, requester, amount], _ => .ok (.refunded jobId requester amount)
  | "escrow/disputed", [jobId, requester], _ => .ok (.disputed jobId requester)
  | "escrow/resolved", [jobId, arbiter, _], [_, _, favorWorker] =>
      match favorWorker with
      | .bool favorWorker => .ok (.resolved jobId arbiter favorWorker)
      | _ => .error "escrow/resolved expected a boolean favor_worker value"
  | "rl/recorded", [agent, amount], _ => .ok (.recorded agent amount)
  | "rl/killed", [agent], _ => .ok (.killed agent)
  | "factory/created", [agentId, agent, owner], _ => .ok (.agentCreated agentId agent owner)
  | "factory/deactiv", [agentId, owner], _ => .ok (.deactiv agentId owner)
  | "factory/reactiv", [agentId, owner], _ => .ok (.reactiv agentId owner)
  | "state/channel", [channelId, _], [_, state] => do
      return .channelState channelId (← jsonValue asString state)
  | "state/job", [jobId, _], [_, state] => do return .jobState jobId (← jsonValue asString state)
  | "state/limit", [agent, _], [_, state] => do
      return .limitState agent (← jsonValue asString state)
  | "state/agent", [agentId, _], [_, state] => do
      return .agentState agentId (← jsonValue asString state)
  | key, _, _ => .error ("unreachable event " ++ key)

/-- The topic at an index; there has to be one. -/
def topicText (raw : RawContractEvent) (index : ℕ) : Except String String :=
  match raw.topic[index]? with
  | some topic => scalar asString topic.native
  | none => .error "Cannot read properties of undefined (reading 'switch')"

def decodeEvent (raw : RawContractEvent) (contractKind : ContractKind) (contractAddress : String) :
    Except String DecodedEvent := do
  let names ← topicText asString raw 0
  let action ← topicText asString raw 1
  let key := names ++ "/" ++ action
  match field expectedLengths key with
  | none => .error ("unknown StellarAgent event " ++ key)
  | some length => do
      let nativeValues ← tuple raw.value.native length key
      let values ← scalars asString names key nativeValues
      let body ← decodeBody asString key values nativeValues
      return {
        eventId := raw.id
        contractKind := contractKind
        contractAddress := contractAddress
        ledger := raw.ledger
        ledgerClosedAt := raw.ledgerClosedAt
        txHash := raw.txHash
        pagingToken := raw.pagingToken
        rawTopicXdr := raw.topic.map ScVal.xdr
        rawValueXdr := raw.value.xdr
        body := body }

/-- The metadata of a decoded event is that of the raw one. -/
theorem decodeEvent_metadata {raw : RawContractEvent} {contractKind : ContractKind}
    {contractAddress : String} {event : DecodedEvent}
    (h : decodeEvent asString raw contractKind contractAddress = .ok event) :
    event.eventId = raw.id ∧ event.ledger = raw.ledger ∧ event.pagingToken = raw.pagingToken ∧
      event.txHash = raw.txHash ∧ event.contractAddress = contractAddress := by
  unfold decodeEvent at h
  obtain ⟨names, -, h⟩ := bind_eq_ok.mp h
  obtain ⟨action, -, h⟩ := bind_eq_ok.mp h
  cases hlength : field expectedLengths (names ++ "/" ++ action) with
  | none =>
      simp only [hlength] at h
      cases h
  | some length =>
      simp only [hlength] at h
      obtain ⟨nativeValues, -, h⟩ := bind_eq_ok.mp h
      obtain ⟨values, -, h⟩ := bind_eq_ok.mp h
      obtain ⟨body, -, h⟩ := bind_eq_ok.mp h
      rw [← pure_eq_ok.mp h]
      exact ⟨rfl, rfl, rfl, rfl, rfl⟩

end

end StellarAgent.Indexer
