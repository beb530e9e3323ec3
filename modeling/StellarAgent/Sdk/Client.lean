import StellarAgent.Sdk.Rpc

set_option autoImplicit false

/-! # The agent's client

Paying for an API call in `sdk/rust/src/client.rs`: the arguments, and the one pipeline that every
contract call goes through (build, simulate, sign, submit, poll).
-/

namespace StellarAgent.Sdk

open Lib Soroban
open Lib.Fallible (perform attempt)
open Signer (ScAddress ScVal SorobanAuthorizationEntry TransactionV1Envelope Transaction
  TxOperation InvokeHostFunctionOp InvokeContractArgs OperationBody HostFunction)

/-! ## Values -/

def invalid {A : Type} (message : String) : Except StellarAgentError A :=
  .error (.new .InvalidArgument message)

def utf8 (text : String) : Bytes := text.toList.flatMap String.utf8EncodeChar

/-- `scval::address` -/
def addressValue (codec : Codec) (value : String) : Except StellarAgentError ScVal :=
  match codec.scAddress value with
  | some address => .ok (.Address address)
  | none => invalid s!"Invalid Stellar address: {value}"

/-- `scval::i128_value`: the two halves of an `i128` -/
def i128Value (value : ℤ) : ScVal :=
  .I128 (Int64.ofInt (value / 2 ^ 64)) (UInt64.ofNat (value % 2 ^ 64).toNat)

/-- `scval::amount` -/
def amountValue (value : String) : Except StellarAgentError ScVal :=
  match Math.Rust.toStroops value with
  | .error error => invalid error.text
  | .ok stroops =>
      if -2 ^ 127 ≤ stroops ∧ stroops < 2 ^ 127 then .ok (i128Value stroops)
      else invalid
        (s!"Amount {value} is {stroops} stroops, which is outside the i128 range the contracts " ++
          "use")

/-- `scval::bytes_from_str` -/
def bytesFromStr (value : String) : ScVal := .Bytes (utf8 value)

/-! ## The agent -/

def BASE_FEE : ℕ := 100
def TRANSACTION_TIMEOUT_SECONDS : ℕ := 30
def AUTH_VALIDITY_LEDGERS : ℕ := 100
def POLL_ATTEMPTS : ℕ := 30

structure StellarAgent where
  public_key : String
  network_passphrase : String
  /-- `contracts.get(ContractKey::PaymentChannel)` -/
  payment_channel : String
  asset_contracts : String → Option String
  rpc : Rpc
  active_channel_id : Option UInt64

structure PayForApiParams where
  endpoint : String
  amount : String
  channel_id : Option UInt64
  recipient : Option String
  dest_asset : Option String
  min_received : Option String

structure TxResult where
  hash : String
  success : Bool
  ledger : Option ℕ
  deriving DecidableEq

def requireChannel (agent : StellarAgent) (channel_id : Option UInt64) :
    Except StellarAgentError UInt64 :=
  match channel_id.or agent.active_channel_id with
  | some id => .ok id
  | none => .error (.new .NoActiveChannel "No active payment channel. Call open_channel() first.")

def nativeAssetContractId (agent : StellarAgent) : String :=
  let codec := agent.rpc.codec
  let network_id := codec.sha256 (utf8 agent.network_passphrase)
  codec.contractText (codec.sha256 (codec.nativeAssetPreimage network_id))

/-- Map an asset code to a token contract ID. -/
def resolveAssetContract (agent : StellarAgent) (asset : String) :
    Except StellarAgentError String :=
  if asset = "XLM" then .ok (nativeAssetContractId agent)
  else
    let resolved := (agent.asset_contracts asset).getD asset
    if (agent.rpc.codec.contractId resolved).isSome then .ok resolved
    else invalid
      (s!"Unknown asset \"{asset}\". Pass its C… token contract ID, or register it with " ++
        s!"StellarAgent::builder().asset_contract(\"{asset}\", \"C…\").")

/-! ## Building transactions -/

def invokeOperation (agent : StellarAgent) (contract_id method : String) (args : List ScVal)
    (auth : List SorobanAuthorizationEntry) : Except StellarAgentError TxOperation :=
  match agent.rpc.codec.scAddress contract_id with
  | none => invalid s!"Contract address is not a valid contract ID: {contract_id}"
  | some contract_address =>
      if 32 < (utf8 method).length then
        invalid s!"Contract method name \"{method}\" is longer than 32 characters"
      else .ok {
        source_account := none
        body := .InvokeHostFunction {
          host_function := .InvokeContract { contract_address, function_name := utf8 method, args }
          auth } }

/-- The arguments of the operation that was simulated -/
def extractArgs (operation : TxOperation) : Except StellarAgentError (List ScVal) :=
  match operation.body with
  | .InvokeHostFunction { host_function := .InvokeContract args, .. } => .ok args.args
  | _ => invalid "expected a contract invocation operation"

/-- A transaction consumes the account's next sequence number, and stays valid for a while. -/
def buildTransaction (agent : StellarAgent) (account : AccountState) (operation : TxOperation)
    (fee : ℕ) (soroban_data : Option Bytes) : Client Transaction := do
  let elapsed ← perform Op.now
  match agent.rpc.codec.muxedAccount agent.public_key with
  | none => throw (.new .InvalidArgument
      s!"Agent address is not a valid Stellar account: {agent.public_key}")
  | some source_account =>
      return {
        source_account
        fee
        seq_num := min (account.sequence + 1) (2 ^ 63 - 1)
        cond := .Time { min_time := 0, max_time := elapsed.elim 0 (· + TRANSACTION_TIMEOUT_SECONDS) }
        memo := [0, 0, 0, 0]
        operations := [operation]
        ext := match soroban_data with
          | some data => [0, 0, 0, 1] ++ data
          | none => [0, 0, 0, 0] }

def envelopeOf (transaction : Transaction) : TransactionV1Envelope where
  tx := transaction
  signatures := []

/-! ## Signing -/

/-- A refused signature is no network failure. -/
def signingError (message : String) : StellarAgentError := .new .NotAuthorized message

def signAuthEntry (agent : StellarAgent) (entry : SorobanAuthorizationEntry)
    (valid_until_ledger_seq : ℕ) : Client SorobanAuthorizationEntry :=
  match entry.credentials with
  | .SourceAccount => return entry
  | .Address _ => do
      match ← perform (Op.signAuthEntry entry agent.network_passphrase valid_until_ledger_seq) with
      | .error message => throw (signingError message)
      | .ok signed =>
          match agent.rpc.codec.authEntry signed with
          | some entry => return entry
          | none => throw (.new .NotAuthorized
              "the signer returned an authorization entry that is not valid XDR")

def signTransaction (agent : StellarAgent) (envelope : TransactionV1Envelope) :
    Client TransactionV1Envelope := do
  match ← perform (Op.signTransaction envelope agent.network_passphrase) with
  | .error message => throw (signingError message)
  | .ok signatures => return { envelope with signatures := envelope.signatures ++ signatures }

/-! ## The invocation pipeline -/

/-- The error with the method in front, its code and its hash -/
def prefixMethod (error : StellarAgentError) (method : String) : StellarAgentError :=
  { error with message := s!"{method}: {error.message}" }

/-- `map_err` with `prefix_method` -/
def prefixing {A : Type} (method : String) (x : Client A) : Client A := do
  let result ← attempt x
  Fallible.ofExcept (result.mapError fun error => prefixMethod error method)

/-- The base fee with the resource fee on top -/
def totalFee (min_resource_fee : ℤ) : ℕ :=
  let fee := BASE_FEE + min_resource_fee
  if 0 ≤ fee ∧ fee < 2 ^ 32 then fee.toNat else 2 ^ 32 - 1

/-- What a submission comes to once it has a terminal status -/
def confirmedResult (method hash : String) (return_value : ScVal)
    (confirmed : TransactionResponse) : Except StellarAgentError (ScVal × TxResult) :=
  match confirmed.status with
  | .Success => .ok (confirmed.return_value.getD return_value,
      { hash, success := true, ledger := confirmed.ledger })
  | _ =>
      let detail := (confirmed.result_xdr.map fun xdr => s!": {xdr}").getD ""
      .error ((StellarAgentError.fromContractMessage .TransactionFailed
        s!"{method} transaction failed{detail}").withTransactionHash hash)

/-- Submit a signed envelope and wait for its terminal status. -/
def submit (agent : StellarAgent) (method : String) (return_value : ScVal)
    (signed : TransactionV1Envelope) : Client (ScVal × TxResult) := do
  let submitted ← sendTransaction agent.rpc signed
  if submitted.status.isAccepted = false then
    let detail := submitted.error_result_xdr.getD "unknown error"
    throw ((StellarAgentError.fromContractMessage .SubmissionFailed
      s!"{method} submission failed ({submitted.status.debug}): {detail}").withTransactionHash
        submitted.hash)
  else
    let confirmed ← prefixing method (pollTransaction agent.rpc submitted.hash POLL_ATTEMPTS)
    Fallible.ofExcept (confirmedResult method submitted.hash return_value confirmed)

/-- Build, simulate, and, for a mutation, sign, submit and poll one contract call. -/
def invoke (agent : StellarAgent) (contract_id method : String) (args : List ScVal)
    (read_only : Bool) : Client (ScVal × TxResult) := do
  let operation ← Fallible.ofExcept (invokeOperation agent contract_id method args [])
  let account ← account agent.rpc agent.public_key
  let transaction ← buildTransaction agent account operation BASE_FEE none
  let simulation ← prefixing method (simulateTransaction agent.rpc (envelopeOf transaction))
  let return_value := (simulation.result.map SimulationResult.return_value).getD .Void
  if read_only then
    return (return_value, { hash := "", success := true, ledger := none })
  else
    let valid_until := min (simulation.latest_ledger + AUTH_VALIDITY_LEDGERS) (2 ^ 32 - 1)
    let signed_auth ← ((simulation.result.map SimulationResult.auth).getD []).mapM
      fun entry => signAuthEntry agent entry valid_until
    let args ← Fallible.ofExcept (extractArgs operation)
    let authorized ← Fallible.ofExcept (invokeOperation agent contract_id method args signed_auth)
    let assembled ← buildTransaction agent account authorized (totalFee simulation.min_resource_fee)
      (some simulation.transaction_data)
    let signed ← signTransaction agent (envelopeOf assembled)
    submit agent method return_value signed

/-! ## Paying -/

/-- The method and the arguments of a payment -/
def payArguments (agent : StellarAgent) (params : PayForApiParams) :
    Except StellarAgentError (String × List ScVal) := do
  let channel_id ← requireChannel agent params.channel_id
  if params.dest_asset.isSome ≠ params.min_received.isSome then
    invalid "dest_asset and min_received must be set together"
  else
    let codec := agent.rpc.codec
    let payer ← addressValue codec agent.public_key
    let recipient ← addressValue codec (params.recipient.getD agent.public_key)
    let amount ← amountValue params.amount
    let args := [payer, .U64 channel_id, recipient, amount]
    let endpoint := bytesFromStr params.endpoint
    match params.dest_asset, params.min_received with
    | some dest_asset, some min_received =>
        let asset ← addressValue codec (← resolveAssetContract agent dest_asset)
        let floor ← amountValue min_received
        return ("pay_with_conversion", args ++ [asset, floor, endpoint])
    | _, _ => return ("pay", args ++ [endpoint])

/-- Pay for an API call, deducting from a payment channel. -/
def payForApi (agent : StellarAgent) (params : PayForApiParams) : Client TxResult := do
  let (method, args) ← Fallible.ofExcept (payArguments agent params)
  let (_, tx) ← invoke agent agent.payment_channel method args false
  return tx

end StellarAgent.Sdk
