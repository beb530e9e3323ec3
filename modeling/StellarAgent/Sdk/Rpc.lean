import StellarAgent.Lib.Programs
import StellarAgent.Math.FixedPoint
import StellarAgent.Sdk.Error
import StellarAgent.Signer.Xdr

set_option autoImplicit false

/-! # The Soroban RPC client

`sdk/rust/src/rpc.rs`. A client program asks the outside: the RPC server over HTTP, the clock, a
pause, or the signer. What it sends is kept as the values that are encoded; what it receives is
text, and a `Codec` has what other packages read of such a text.
-/

namespace StellarAgent.Sdk

open Lib Soroban
open Lib.Fallible (perform)
open Signer (ScAddress MuxedAccount ScVal SorobanAuthorizationEntry TransactionV1Envelope
  DecoratedSignature)

/-! ## JSON -/

/-- `serde_json::Value`. No number but a 64-bit integer is read anywhere. -/
inductive Value where
  | null
  | bool (value : Bool)
  | number (value : ℤ)
  | string (text : String)
  | array (items : List Value)
  | object (fields : List (String × Value))

namespace Value

def get (name : String) : Value → Option Value
  | object fields => fields.lookup name
  | _ => none

def asStr : Value → Option String
  | string text => some text
  | _ => none

def asU64 : Value → Option ℕ
  | number value => if 0 ≤ value ∧ value < 2 ^ 64 then some value.toNat else none
  | _ => none

def asI64 : Value → Option ℤ
  | number value => if -2 ^ 63 ≤ value ∧ value < 2 ^ 63 then some value else none
  | _ => none

def asArray : Value → Option (List Value)
  | array items => some items
  | _ => none

def isNull : Value → Bool
  | null => true
  | _ => false

def getStr (name : String) (value : Value) : Option String := value.get name >>= asStr

end Value

/-- `str::parse::<i64>` -/
def parseI64 (text : String) : Option ℤ :=
  let (negative, digits) := Math.stripSign text.toList
  if digits = [] ∨ ¬ digits.all Char.isDigit then none
  else
    let magnitude : ℤ := Nat.ofDigitChars 10 digits 0
    let value := if negative then -magnitude else magnitude
    if -2 ^ 63 ≤ value ∧ value < 2 ^ 63 then some value else none

/-! ## What is asked -/

/-- An account's ed25519 key -/
abbrev AccountId := BytesN 32

inductive RpcCall where
  | getLedgerEntries (account : AccountId)
  | simulateTransaction (envelope : TransactionV1Envelope)
  | sendTransaction (envelope : TransactionV1Envelope)
  | getTransaction (hash : String)

def RpcCall.method : RpcCall → String
  | .getLedgerEntries _ => "getLedgerEntries"
  | .simulateTransaction _ => "simulateTransaction"
  | .sendTransaction _ => "sendTransaction"
  | .getTransaction _ => "getTransaction"

/-- What becomes of an HTTP request -/
inductive Reply where
  | unreachable
  | unreadable
  | response (status : ℕ) (text : String)

/-- What a client asks the outside. -/
inductive Op where
  | post (call : RpcCall)
  | sleep
  | now
  | signTransaction (envelope : TransactionV1Envelope) (network_passphrase : String)
  | signAuthEntry (entry : SorobanAuthorizationEntry) (network_passphrase : String)
      (valid_until_ledger_seq : ℕ)

/-- The answers. The clock gives the seconds since the epoch; a signer returns the signatures it
adds, an authorization entry as text, or how it failed. -/
@[reducible] def Answer : Op → Type
  | .post _ => Reply
  | .sleep => Unit
  | .now => Option ℕ
  | .signTransaction _ _ => Except String (List DecoratedSignature)
  | .signAuthEntry _ _ _ => Except String String

abbrev Client := Fallible Op Answer StellarAgentError

/-! ## Other packages -/

/-- An account's ledger entry, or the name of another entry -/
inductive LedgerEntryData where
  | Account (seq_num balance : ℤ)
  | Other (name : String)

/-- The result meta of a transaction; the return value where the version has one -/
inductive TransactionMeta where
  | V3 (return_value : Option ScVal)
  | V4 (return_value : Option ScVal)
  | Classic

structure Codec where
  json : String → Option Value
  /-- `StatusCode`, as it is displayed -/
  statusText : ℕ → String
  scVal : String → Option ScVal
  authEntry : String → Option SorobanAuthorizationEntry
  /-- `SorobanTransactionData`, kept as its XDR -/
  transactionData : String → Option Bytes
  ledgerEntry : String → Option LedgerEntryData
  transactionMeta : String → Option TransactionMeta
  /-- `AccountId`, `MuxedAccount` and `ScAddress` of an address -/
  accountId : String → Option AccountId
  muxedAccount : String → Option MuxedAccount
  scAddress : String → Option ScAddress
  /-- `stellar_strkey::Contract::from_string` and `to_string` -/
  contractId : String → Option (BytesN 32)
  contractText : BytesN 32 → String
  sha256 : Bytes → BytesN 32
  /-- The XDR of the preimage of the native asset's contract ID on a network -/
  nativeAssetPreimage : BytesN 32 → Bytes

structure Rpc where
  codec : Codec
  url : String

/-! ## Requests -/

def networkError (message : String) : StellarAgentError := .new .NetworkError message

/-- The `result` of what came back -/
def readReply (rpc : Rpc) (method : String) : Reply → Except StellarAgentError Value
  | .unreachable =>
      .error (networkError s!"{method} failed while communicating with Soroban RPC at {rpc.url}")
  | .unreadable => .error (networkError s!"{method}: could not read the response body")
  | .response status text =>
      if ¬ (200 ≤ status ∧ status < 300) then
        let shown := rpc.codec.statusText status
        .error (networkError s!"{method}: Soroban RPC responded {shown}: {text}")
      else
        match rpc.codec.json text with
        | none =>
            .error (networkError s!"{method}: Soroban RPC returned a body that is not JSON: {text}")
        | some envelope =>
            match envelope.get "error" with
            | some error =>
                let message := (error.getStr "message").getD "unknown error"
                let code := (error.get "code" >>= Value.asI64).getD 0
                .error (networkError s!"{method}: Soroban RPC error {code}: {message}")
            | none =>
                match envelope.get "result" with
                | some result => .ok result
                | none => .error (networkError
                    s!"{method}: Soroban RPC response had neither a result nor an error")

/-- Issue one JSON-RPC call and return its `result`. -/
def request (rpc : Rpc) (call : RpcCall) : Client Value := do
  let reply ← perform (.post call)
  Fallible.ofExcept (readReply rpc call.method reply)

/-- What is wrong with an answer that does not decode -/
def orNetworkError {A : Type} (decoded : Option A) (message : String) :
    Except StellarAgentError A :=
  match decoded with
  | some a => .ok a
  | none => .error (networkError message)

def decodeScVal (rpc : Rpc) (encoded : String) : Except StellarAgentError ScVal :=
  orNetworkError (rpc.codec.scVal encoded)
    "Soroban RPC returned a value that is not valid ScVal XDR"

def decodeAuthEntry (rpc : Rpc) (encoded : String) :
    Except StellarAgentError SorobanAuthorizationEntry :=
  orNetworkError (rpc.codec.authEntry encoded)
    "Soroban RPC returned an authorization entry that is not valid XDR"

/-! ## Accounts -/

structure AccountState where
  address : String
  sequence : ℤ
  balance : ℤ

/-- What `account` reads of a result -/
def readAccount (rpc : Rpc) (address : String) (value : Value) :
    Except StellarAgentError AccountState :=
  match ((value.get "entries" >>= Value.asArray).getD []).head? with
  | none => .error (.new .InvalidArgument
      (s!"Account {address} does not exist on this network. A newly generated " ++
        "account must be funded before it can submit transactions."))
  | some entry => do
      -- the field has had two names
      let encoded ← orNetworkError ((entry.get "xdr").or (entry.get "dataXdr") >>= Value.asStr)
        "getLedgerEntries returned an entry with no xdr field"
      match ← orNetworkError (rpc.codec.ledgerEntry encoded)
          "could not decode the account entry" with
      | .Account sequence balance => .ok { address, sequence, balance }
      | .Other name => .error (networkError s!"expected an account ledger entry, got {name}")

def account (rpc : Rpc) (address : String) : Client AccountState := do
  match rpc.codec.accountId address with
  | none => throw (.new .InvalidArgument s!"Not a valid Stellar account address: {address}")
  | some account_id =>
      let value ← request rpc (.getLedgerEntries account_id)
      Fallible.ofExcept (readAccount rpc address value)

/-! ## Simulation -/

structure SimulationResult where
  return_value : ScVal
  auth : List SorobanAuthorizationEntry

structure Simulation where
  latest_ledger : ℕ
  min_resource_fee : ℤ
  transaction_data : Bytes
  result : Option SimulationResult

/-- The result of a simulated invocation -/
def readSimulationResult (rpc : Rpc) (first : Value) :
    Except StellarAgentError SimulationResult := do
  let return_value ← match first.getStr "xdr" with
    | some encoded => decodeScVal rpc encoded
    | none => pure .Void
  let auth ← match first.get "auth" >>= Value.asArray with
    | some entries => (entries.filterMap Value.asStr).mapM (decodeAuthEntry rpc)
    | none => pure []
  return { return_value, auth }

def readTransactionData (rpc : Rpc) (value : Value) : Except StellarAgentError Bytes :=
  match value.getStr "transactionData" with
  | none => .error (.new .SimulationFailed
      ("simulation returned no transactionData, so the transaction has no footprint " ++
        "to submit with"))
  | some encoded => orNetworkError (rpc.codec.transactionData encoded)
      "could not decode the simulation's transactionData"

/-- What `simulate_transaction` reads of a result -/
def readSimulation (rpc : Rpc) (value : Value) : Except StellarAgentError Simulation :=
  match value.getStr "error" with
  | some error => .error (.fromContractMessage .SimulationFailed s!"simulation failed: {error}")
  | none =>
      if (value.get "restorePreamble").any fun preamble => !preamble.isNull then
        .error (.new .SimulationFailed
          ("this invocation reads ledger entries that have been archived; they must be " ++
            "restored before it can run"))
      else do
        let latest_ledger := ((value.get "latestLedger" >>= Value.asU64).getD 0) % 2 ^ 32
        let min_resource_fee := (value.getStr "minResourceFee" >>= parseI64).getD 0
        let transaction_data ← readTransactionData rpc value
        let result ← match value.get "results" >>= Value.asArray with
          | some (first :: _) => some <$> readSimulationResult rpc first
          | _ => pure none
        return { latest_ledger, min_resource_fee, transaction_data, result }

def simulateTransaction (rpc : Rpc) (envelope : TransactionV1Envelope) : Client Simulation := do
  let value ← request rpc (.simulateTransaction envelope)
  Fallible.ofExcept (readSimulation rpc value)

/-! ## Submission -/

inductive SendStatus where
  | Pending
  | Duplicate
  | TryAgainLater
  | Error
  deriving DecidableEq

def SendStatus.parse (value : String) : SendStatus :=
  if value = "PENDING" then .Pending
  else if value = "DUPLICATE" then .Duplicate
  else if value = "TRY_AGAIN_LATER" then .TryAgainLater
  else .Error

/-- Whether the transaction reached the queue -/
def SendStatus.isAccepted (status : SendStatus) : Bool :=
  status == .Pending || status == .Duplicate

/-- `{:?}` -/
def SendStatus.debug : SendStatus → String
  | .Pending => "Pending"
  | .Duplicate => "Duplicate"
  | .TryAgainLater => "TryAgainLater"
  | .Error => "Error"

structure SendResponse where
  status : SendStatus
  hash : String
  error_result_xdr : Option String

def sendTransaction (rpc : Rpc) (envelope : TransactionV1Envelope) : Client SendResponse := do
  let value ← request rpc (.sendTransaction envelope)
  return {
    status := SendStatus.parse ((value.getStr "status").getD "")
    hash := (value.getStr "hash").getD ""
    error_result_xdr := value.getStr "errorResultXdr" }

/-! ## Polling -/

inductive TransactionStatus where
  | NotFound
  | Success
  | Failed
  deriving DecidableEq

def TransactionStatus.parse (value : String) : TransactionStatus :=
  if value = "SUCCESS" then .Success
  else if value = "FAILED" then .Failed
  else .NotFound

structure TransactionResponse where
  status : TransactionStatus
  ledger : Option ℕ
  return_value : Option ScVal
  result_xdr : Option String

def returnValueFromMeta (rpc : Rpc) (encoded : String) :
    Except StellarAgentError (Option ScVal) := do
  match ← orNetworkError (rpc.codec.transactionMeta encoded)
      "could not decode the transaction's result meta" with
  | .V3 return_value | .V4 return_value => return return_value
  | .Classic => return none

/-- What `get_transaction` reads of a result -/
def readTransaction (rpc : Rpc) (value : Value) :
    Except StellarAgentError TransactionResponse := do
  let status := TransactionStatus.parse ((value.getStr "status").getD "")
  let return_value ← match value.getStr "returnValue" with
    | some encoded => some <$> decodeScVal rpc encoded
    | none =>
        match value.getStr "resultMetaXdr" with
        | some encoded => returnValueFromMeta rpc encoded
        | none => pure none
  return {
    status
    ledger := (value.get "ledger" >>= Value.asU64).map (· % 2 ^ 32)
    return_value
    result_xdr := value.getStr "resultXdr" }

def getTransaction (rpc : Rpc) (hash : String) : Client TransactionResponse := do
  let value ← request rpc (.getTransaction hash)
  Fallible.ofExcept (readTransaction rpc value)

/-- The remaining polls, with a pause after each but the last -/
def pollRemaining (rpc : Rpc) (hash : String) (attempts : ℕ) : ℕ → Client TransactionResponse
  | 0 => throw ((StellarAgentError.new .TransactionTimeout
      (s!"transaction did not reach a terminal status within {attempts} polls; it may " ++
        "still be included")).withTransactionHash hash)
  | remaining + 1 => do
      let response ← getTransaction rpc hash
      if response.status ≠ .NotFound then return response
      else
        if 0 < remaining then perform Op.sleep
        pollRemaining rpc hash attempts remaining

/-- Poll `getTransaction` until it reaches a terminal status. -/
def pollTransaction (rpc : Rpc) (hash : String) (attempts : ℕ) : Client TransactionResponse :=
  pollRemaining rpc hash attempts attempts

end StellarAgent.Sdk
