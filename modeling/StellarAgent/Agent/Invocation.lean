import StellarAgent.Agent.Errors
import StellarAgent.Fleet.FeeStrategy
import StellarAgent.Lib.Programs
import StellarAgent.Signer.Xdr

set_option autoImplicit false

/-! # The invocation pipeline

`runInvocation` in `packages/core/src/agent/invocation.ts`: every contract call of the TypeScript
SDK is built, simulated, signed, submitted and polled by this one program. It asks the RPC server,
the signers, the fee strategies, the channel pool and the clock.

Code outside throws no `StellarAgentError`. Fees are strings of integers, and kept as the integers.
Values that a contract returns are kept as they are, and the text of diagnostic events is what the
server answers. Left out is the telemetry. The authorization entries are signed one after another.
-/

namespace StellarAgent.Agent

open Lib Soroban
open Lib.Fallible (perform attempt)
open Fleet.Fees (FeeContext BASE_FEE)
open Signer (ScVal SorobanAuthorizationEntry TransactionV1Envelope Transaction TxOperation
  InvokeHostFunctionOp HostFunction TimeBounds Preconditions DecoratedSignature MuxedAccount)

/-! ## Envelopes -/

structure FeeBumpTransaction where
  fee_source : String
  fee : ℤ
  inner_tx : TransactionV1Envelope
  signatures : List DecoratedSignature

/-- `Transaction | FeeBumpTransaction` -/
inductive Envelope where
  | Tx (inner : TransactionV1Envelope)
  | TxFeeBump (bump : FeeBumpTransaction)

/-- The transaction that is carried, alone or in a fee bump -/
def Envelope.transaction : Envelope → Transaction
  | .Tx inner => inner.tx
  | .TxFeeBump bump => bump.inner_tx.tx

/-- What an envelope is without its own signatures: what its hash is taken of -/
def Envelope.unsigned : Envelope → Envelope
  | .Tx inner => .Tx { inner with signatures := [] }
  | .TxFeeBump bump => .TxFeeBump { bump with signatures := [] }

/-- `envelope.fee` -/
def Envelope.fee : Envelope → ℤ
  | .Tx inner => inner.tx.fee
  | .TxFeeBump bump => bump.fee

/-! ## What is asked -/

/-- The signers at hand -/
inductive SignerRole where
  /-- `ctx.signer` -/
  | agent
  /-- The signer of the leased channel account -/
  | channel
  /-- `ctx.feeBump.signer` -/
  | feePayer
  deriving DecidableEq

inductive ChannelLeaseOutcome where
  | committed
  | rolled_back
  deriving DecidableEq

structure Account where
  id : MuxedAccount
  sequence : ℤ

structure SimulationSuccess where
  /-- `result.retval` -/
  retval : Option ScVal
  /-- `result.auth` -/
  auth : List SorobanAuthorizationEntry
  minResourceFee : ℕ
  transactionData : Bytes
  latestLedger : ℕ

inductive Simulation where
  | error (error : String)
  | restore
  | success (simulation : SimulationSuccess)

inductive SendStatus where
  | PENDING
  | DUPLICATE
  | TRY_AGAIN_LATER
  | ERROR
  deriving DecidableEq

/-- The `diagnostics` are empty if there are none. -/
structure SendResult where
  status : SendStatus
  hash : String
  diagnostics : String
  errorResult : Option String

inductive Confirmation where
  | SUCCESS (ledger : ℕ) (returnValue : Option ScVal) (feeCharged : Option ℤ)
  | FAILED (diagnostics : String)
  | NOT_FOUND

inductive Op where
  | lease
  | release (outcome : ChannelLeaseOutcome)
  | getAccount (address : String)
  | getFee (context : FeeContext)
  | now
  | sleep (ms : ℕ)
  | simulateTransaction (tx : Transaction)
  | getPublicKey (signer : SignerRole)
  | signAuthEntry (entry : SorobanAuthorizationEntry) (validUntilLedgerSeq : ℕ)
  | signTransaction (signer : SignerRole) (envelope : Envelope)
  | sendTransaction (envelope : Envelope)
  | getTransaction (hash : String)

/-- What is thrown: an error of this SDK, of a signer, or any other -/
inductive Thrown where
  | agent (error : StellarAgentError)
  | signing (message : String)
  | other (message : String)

/-- What a signer throws -/
inductive SignerError where
  | signing (message : String)
  | other (message : String)

def SignerError.thrown : SignerError → Thrown
  | .signing message => .signing message
  | .other message => .other message

/-- The answers. The clock gives the seconds since the epoch, a lease the address of the account,
and the others may throw. -/
@[reducible] def Answer : Op → Type
  | .lease => Except String String
  | .release _ => Except String Unit
  | .getAccount _ => Except String Account
  | .getFee _ => Except String ℤ
  | .now => ℕ
  | .sleep _ => Unit
  | .simulateTransaction _ => Except String Simulation
  | .getPublicKey _ => Except SignerError String
  | .signAuthEntry _ _ => Except SignerError SorobanAuthorizationEntry
  | .signTransaction _ _ => Except SignerError Envelope
  | .sendTransaction _ => Except String SendResult
  | .getTransaction _ => Except String Confirmation

abbrev Task := Fallible Op Answer Thrown

/-- An answer, or what was thrown instead of it -/
def orThrow {A : Type} (answer : Except String A) : Task A :=
  Fallible.ofExcept (answer.mapError .other)

def orThrowSigning {A : Type} (answer : Except SignerError A) : Task A :=
  Fallible.ofExcept (answer.mapError SignerError.thrown)

def throwAgent {A : Type} (error : StellarAgentError) : Task A := throw (.agent error)

/-! ## The context -/

inductive FeeBumpMode where
  | on_expiry
  | always
  deriving DecidableEq

structure InvocationFeeBumpConfig where
  enabled : Bool
  mode : FeeBumpMode
  /-- Whether a `signer` is configured -/
  hasSigner : Bool
  triggerAfterAttempts : ℕ
  expiryThresholdSeconds : ℤ
  maxBumps : ℕ

/-- What the Stellar SDK does with the values: the operation of a call, the assembled transaction,
the fee of a fee bump, and the hash of an envelope. -/
structure StellarSdk where
  call : (contractId method : String) → List ScVal → TxOperation
  /-- `assembleTransaction` -/
  assemble : Transaction → SimulationSuccess → Transaction
  /-- `buildFeeBumpTransaction`, for a fee source, a base fee and the inner transaction -/
  feeBumpFee : String → ℤ → TransactionV1Envelope → Except String ℤ
  hash : Envelope → String

structure InvocationContext where
  sdk : StellarSdk
  address : String
  hasPool : Bool
  /-- Whether the RPC server has a `getFeeStats` -/
  hasFeeStats : Bool
  feeBump : InvocationFeeBumpConfig

structure TxResult where
  hash : String
  success : Bool
  ledger : Option ℕ
  feePaid : Option ℤ
  feeBumped : Option Bool
  sourceAccount : Option String
  feeSource : Option String
  submissionAttempts : Option ℕ

structure Outcome where
  value : Option ScVal
  tx : TxResult

variable (ctx : InvocationContext)

/-! ## Submitting -/

def failedWith (method message : String) : String :=
  s!"{method} failed while communicating with Soroban RPC: {message}"

/-- `sendEnvelope`, with the attempts that are left of three -/
def sendAttempts (envelope : Envelope) (method : String) : ℕ → Task String
  | 0 => throwAgent (.new .SUBMISSION_FAILED s!"{method} submission exhausted retries" none)
  | left + 1 => do
      let retry : Task String :=
        if left = 0 then sendAttempts envelope method left
        else do
          perform (Op.sleep (100 * 2 ^ (2 - left)))
          sendAttempts envelope method left
      match ← perform (Op.sendTransaction envelope) with
      | .ok result =>
          match result.status with
          | .PENDING | .DUPLICATE => return result.hash
          | .TRY_AGAIN_LATER => retry
          | .ERROR =>
              let detail := if result.diagnostics ≠ "" then result.diagnostics
                else result.errorResult.getD "unknown error"
              throwAgent (contractError .SUBMISSION_FAILED
                s!"{method} submission failed (ERROR): {detail}" none)
      | .error error =>
          -- the transport may have failed after the bytes were accepted
          let localHash := ctx.sdk.hash envelope
          match ← perform (Op.getTransaction localHash) with
          | .ok (.SUCCESS ..) | .ok (.FAILED _) => return localHash
          | _ => if left = 0 then throw (.other error) else retry

def sendEnvelope (envelope : Envelope) (method : String) : Task String :=
  sendAttempts ctx envelope method 3

/-- The least base fee whose total is the fee, rounded up -/
def innerRate (inner : TransactionV1Envelope) : ℤ :=
  let operationCount : ℤ := max 1 inner.tx.operations.length
  (inner.tx.fee + operationCount - 1) / operationCount

structure Bumped where
  envelope : Envelope
  feeSource : String
  feeRate : ℤ

def buildAndSignFeeBump (inner : TransactionV1Envelope) (fallbackSigner : SignerRole)
    (replacement : Bool) (previousBumpRate : Option ℤ) : Task Bumped := do
  let signer := if ctx.feeBump.hasSigner then .feePayer else fallbackSigner
  let feeSource ← orThrowSigning (← perform (Op.getPublicKey signer))
  let operationCount := max 1 inner.tx.operations.length
  let replacementBase := previousBumpRate.getD (innerRate inner)
  let minimum := if replacement then replacementBase * 10 else innerRate inner
  let fee ← orThrow (← perform (Op.getFee {
    phase := .fee_bump
    operationCount := operationCount + 1
    minimumFee := some (some minimum)
    previousFee := some (some (innerRate inner))
    soroban := some true
    hasFeeStats := ctx.hasFeeStats }))
  let total ← orThrow (ctx.sdk.feeBumpFee feeSource fee inner)
  let bump : FeeBumpTransaction := {
    fee_source := feeSource, fee := total, inner_tx := inner, signatures := [] }
  match ← orThrowSigning (← perform (Op.signTransaction signer (.TxFeeBump bump))) with
  | .Tx _ =>
      throwAgent (.new .SUBMISSION_FAILED "Fee payer returned a non-fee-bump envelope" none)
  | .TxFeeBump signed => return { envelope := .TxFeeBump signed, feeSource, feeRate := fee }

/-! ## Polling -/

/-- `timeBounds.maxTime` of a transaction; none if it is missing or 0 -/
def maxTime (tx : Transaction) : Option ℕ :=
  match tx.cond with
  | .None => none
  | .Time bounds => if bounds.max_time = 0 then none else some bounds.max_time
  | .V2 bounds _ => bounds.bind fun bounds =>
      if bounds.max_time = 0 then none else some bounds.max_time

/-- Whether `secondsUntilExpiry` is at most the threshold -/
def expiresSoon (tx : Transaction) (threshold : ℤ) : Task Bool :=
  match maxTime tx with
  | none => return false
  | some maxTime => do
      let now ← perform Op.now
      return decide ((maxTime : ℤ) - now ≤ threshold)

/-- What the polling loop carries along -/
structure Submitted where
  envelope : Envelope
  hash : String
  feeSource : Option String
  feeBumped : Bool
  bumps : ℕ
  previousBumpRate : Option ℤ
  submissionAttempts : ℕ

/-- The result once a submission is confirmed -/
def confirmedOutcome (sourceAddress : String) (state : Submitted) (ledger : ℕ)
    (returnValue : Option ScVal) (feeCharged : Option ℤ) : Outcome where
  value := returnValue
  tx := {
    hash := state.hash
    success := true
    ledger := some ledger
    feePaid := some (feeCharged.getD state.envelope.fee)
    feeBumped := some state.feeBumped
    sourceAccount := some sourceAddress
    feeSource := state.feeSource
    submissionAttempts := some state.submissionAttempts }

/-- Whether an attempt replaces the envelope by a fee bump -/
def shouldBump (signed : TransactionV1Envelope) (state : Submitted) (attempt : ℕ) : Task Bool :=
  if ctx.feeBump.enabled = true ∧ ctx.feeBump.mode = .on_expiry ∧
      state.bumps < ctx.feeBump.maxBumps then
    if ctx.feeBump.triggerAfterAttempts ≤ attempt + 1 then return true
    else expiresSoon signed.tx ctx.feeBump.expiryThresholdSeconds
  else return false

/-- A replacement is sent, with a higher fee. -/
def replaceEnvelope (signed : TransactionV1Envelope) (sourceSigner : SignerRole) (method : String)
    (state : Submitted) : Task Submitted := do
  let bumped ← buildAndSignFeeBump ctx signed sourceSigner true state.previousBumpRate
  let hash ← sendEnvelope ctx bumped.envelope method
  return {
    envelope := bumped.envelope
    hash
    feeSource := some bumped.feeSource
    feeBumped := true
    bumps := state.bumps + 1
    previousBumpRate := some bumped.feeRate
    submissionAttempts := state.submissionAttempts + 1 }

def POLL_ATTEMPTS : ℕ := 30

/-- The polling loop, with the attempts that are left -/
def poll (signed : TransactionV1Envelope) (sourceSigner : SignerRole)
    (sourceAddress method : String) (state : Submitted) : ℕ → Task Outcome
  | 0 => throwAgent (.new .TRANSACTION_TIMEOUT
      s!"{method} transaction did not complete in time" (some state.hash))
  | left + 1 => do
      match ← orThrow (← perform (Op.getTransaction state.hash)) with
      | .SUCCESS ledger returnValue feeCharged =>
          return confirmedOutcome sourceAddress state ledger returnValue feeCharged
      | .FAILED diagnostics =>
          let detail := if diagnostics = "" then "" else s!": {diagnostics}"
          throwAgent (contractError .TRANSACTION_FAILED
            s!"{method} transaction failed{detail}" (some state.hash))
      | .NOT_FOUND =>
          if ← shouldBump ctx signed state (POLL_ATTEMPTS - (left + 1)) then
            let state ← replaceEnvelope ctx signed sourceSigner method state
            poll signed sourceSigner sourceAddress method state left
          else
            perform (Op.sleep 1000)
            poll signed sourceSigner sourceAddress method state left

/-! ## Preparing -/

/-- What is submitted first -/
structure Prepared where
  signed : TransactionV1Envelope
  envelope : Envelope
  feeSource : Option String
  feeBumped : Bool
  bumps : ℕ
  previousBumpRate : Option ℤ

def simulate (tx : Transaction) (method : String) : Task SimulationSuccess := do
  match ← orThrow (← perform (Op.simulateTransaction tx)) with
  | .error error =>
      throwAgent (contractError .SIMULATION_FAILED s!"{method} simulation failed: {error}" none)
  | .restore => throwAgent (.new .SIMULATION_FAILED
      s!"{method} requires restoring expired ledger entries before invocation" none)
  | .success simulation => return simulation

def signEntry (validUntilLedgerSeq : ℕ) (entry : SorobanAuthorizationEntry) :
    Task SorobanAuthorizationEntry :=
  match entry.credentials with
  | .SourceAccount => return entry
  | .Address _ => do orThrowSigning (← perform (Op.signAuthEntry entry validUntilLedgerSeq))

/-- The operation with signed authorization entries -/
def authorized (operation : TxOperation) (auth : List SorobanAuthorizationEntry) : TxOperation :=
  match operation.body with
  | .InvokeHostFunction op => { operation with body := .InvokeHostFunction { op with auth } }
  | .Other .. => operation

/-- The transaction of the call, which is valid for 30 seconds -/
def buildTransaction (account : Account) (operation : TxOperation) (fee : ℤ) (now : ℕ) :
    Transaction where
  source_account := account.id
  fee := fee.toNat
  seq_num := account.sequence + 1
  cond := .Time { min_time := 0, max_time := now + 30 }
  memo := [0, 0, 0, 0]
  operations := [operation]
  ext := [0, 0, 0, 0]

/-- From the simulation on: sign, assemble and, if fees are always bumped, wrap -/
def prepare (sourceSigner : SignerRole) (operation : TxOperation) (tx : Transaction)
    (simulation : SimulationSuccess) : Task Prepared := do
  let auth ← simulation.auth.mapM (signEntry (simulation.latestLedger + 100))
  let assembled := ctx.sdk.assemble { tx with operations := [authorized operation auth] } simulation
  let envelope : Envelope := .Tx { tx := assembled, signatures := [] }
  match ← orThrowSigning (← perform (Op.signTransaction sourceSigner envelope)) with
  | .TxFeeBump _ =>
      throwAgent (.new .SUBMISSION_FAILED "Signer returned an unexpected fee-bump envelope" none)
  | .Tx signed =>
      if ctx.feeBump.enabled = true ∧ ctx.feeBump.mode = .always then
        let bumped ← buildAndSignFeeBump ctx signed sourceSigner false none
        return {
          signed
          envelope := bumped.envelope
          feeSource := some bumped.feeSource
          feeBumped := true
          bumps := 1
          previousBumpRate := some bumped.feeRate }
      else return {
        signed
        envelope := .Tx signed
        feeSource := none
        feeBumped := false
        bumps := 0
        previousBumpRate := none }

/-! ## The pipeline -/

/-- A simulated call: the result of a query, or what a mutation submits -/
inductive Simulated where
  | query (outcome : Outcome)
  | mutation (prepared : Prepared)

/-- Up to the submission -/
def beforeSubmission (sourceAddress : String) (sourceSigner : SignerRole)
    (contractId method : String) (args : List ScVal) (readOnly : Bool) : Task Simulated := do
  let account ← orThrow (← perform (Op.getAccount sourceAddress))
  let operation := ctx.sdk.call contractId method args
  let initialFee ← orThrow (← perform (Op.getFee {
    phase := .initial, operationCount := 1, minimumFee := some (some BASE_FEE), previousFee := none
    soroban := some true, hasFeeStats := ctx.hasFeeStats }))
  let now ← perform Op.now
  let tx := buildTransaction account operation initialFee now
  let simulation ← simulate tx method
  if readOnly then
    return .query {
      value := simulation.retval
      tx := {
        hash := "", success := true, ledger := none, feePaid := none, feeBumped := none
        sourceAccount := none, feeSource := none, submissionAttempts := none } }
  else return .mutation (← prepare ctx sourceSigner operation tx simulation)

/-- The `try` block within a lease, with whether a submission was accepted by then -/
def insideLease (sourceAddress : String) (sourceSigner : SignerRole)
    (contractId method : String) (args : List ScVal) (readOnly : Bool) :
    Program Op Answer (Except Thrown Outcome × Bool) := do
  match ← (beforeSubmission ctx sourceAddress sourceSigner contractId method args readOnly).run with
  | .error thrown => return (.error thrown, false)
  | .ok (.query outcome) => return (.ok outcome, false)
  | .ok (.mutation prepared) =>
      match ← (sendEnvelope ctx prepared.envelope method).run with
      | .error thrown => return (.error thrown, false)
      | .ok hash =>
          let outcome ← (poll ctx prepared.signed sourceSigner sourceAddress method {
            envelope := prepared.envelope
            hash
            feeSource := prepared.feeSource
            feeBumped := prepared.feeBumped
            bumps := prepared.bumps
            previousBumpRate := prepared.previousBumpRate
            submissionAttempts := 1 } POLL_ATTEMPTS).run
          return (outcome, true)

/-- The `catch` block -/
def caught (method : String) : Thrown → Thrown
  | .agent error => .agent error
  | .signing message => .signing message
  | .other message => .agent (.new .NETWORK_ERROR (failedWith method message) none)

/-- Build, simulate, and, for a mutation, sign, submit and poll one contract call. A lease is given
back in the end, and what that throws is thrown instead. -/
def runInvocation (contractId method : String) (args : List ScVal) (readOnly : Bool) :
    Program Op Answer (Except Thrown Outcome) := do
  if readOnly = false ∧ ctx.hasPool = true then
    match ← Program.ask Op.lease .ret with
    | .error message => return .error (caught method (.other message))
    | .ok address =>
        let (outcome, acceptedSequence) ←
          insideLease ctx address .channel contractId method args readOnly
        let release := Op.release (if acceptedSequence then .committed else .rolled_back)
        match ← Program.ask release .ret with
        | .error message => return .error (.other message)
        | .ok () => return outcome.mapError (caught method)
  else
    let (outcome, _) ← insideLease ctx ctx.address .agent contractId method args readOnly
    return outcome.mapError (caught method)

end StellarAgent.Agent
