import StellarAgent.Lib.FinMap
import StellarAgent.Prediction.Predict

set_option autoImplicit false

/-! # The tools of a language model and their policy

`integrations/shared/src`: the payment policy of a session (`policy.ts`), the errors (`errors.ts`)
and the tool handlers (`handlers.ts`). A handler runs without interruption up to the one method of
the agent it awaits and, when that has settled, from there to its end, so it is two functions here:
`dispatchToolHandler` and `resume`.

The amounts of payments and the budget are strings that `Number` reads; they are integers here, of
which `Number` adds and compares the safe ones exactly.
-/

namespace StellarAgent.Integrations

open Lib Prediction

/-! ## The policy -/

structure PolicyConfig where
  sessionBudget : ℤ
  perRecipientCap : Option ℤ
  recipientAllowlist : Option (List String)
  dryRun : Option Bool

structure PaymentRequest where
  amount : ℤ
  recipient : String
  endpoint : Option String
  channelState : Option ChannelSpendState
  rateLimitState : Option RateLimitSpendState
  currentLedger : ℕ

inductive PolicyBlockReason where
  | blocked (reason : BlockReason)
  | recipient_not_allowed
  deriving DecidableEq

def PolicyBlockReason.text : PolicyBlockReason → String
  | .blocked .invalid_amount => "invalid_amount"
  | .blocked .channel_inactive => "channel_inactive"
  | .blocked .channel_spend_limit => "channel_spend_limit"
  | .blocked .rate_limit_per_tx => "rate_limit_per_tx"
  | .blocked .rate_limit_hourly => "rate_limit_hourly"
  | .blocked .rate_limit_daily => "rate_limit_daily"
  | .blocked .rate_limit_tx_count => "rate_limit_tx_count"
  | .recipient_not_allowed => "recipient_not_allowed"

structure PolicyDecision where
  allowed : Bool
  reasons : List PolicyBlockReason
  dryRun : Bool

inductive AuditAction where
  | quote
  | pay
  | refused
  deriving DecidableEq

structure AuditEntry where
  timestamp : ℕ
  action : AuditAction
  amount : ℤ
  recipient : String
  endpoint : Option String
  reasons : Option (List PolicyBlockReason)
  transactionHash : Option String
  sessionSpent : ℤ

structure PaymentPolicy where
  config : PolicyConfig
  sessionSpent : ℤ := 0
  auditLog : List AuditEntry := []

namespace PaymentPolicy

def remainingSessionBudget (policy : PaymentPolicy) : ℤ :=
  max 0 (policy.config.sessionBudget - policy.sessionSpent)

/-- The budget is compared with what has been charged; payments under way have not been. -/
def evaluate (policy : PaymentPolicy) (request : PaymentRequest) : PolicyDecision :=
  let prediction := predictPaymentOutcome request.channelState request.rateLimitState
    request.amount request.currentLedger
  let predicted := prediction.reasons.map PolicyBlockReason.blocked
  let invalid := if request.amount ≤ 0 ∧ .blocked .invalid_amount ∉ predicted
    then [.blocked .invalid_amount] else []
  let projected := policy.sessionSpent + request.amount
  let overBudget := if projected > policy.config.sessionBudget
    then [.blocked .rate_limit_hourly] else []
  let overCap := match policy.config.perRecipientCap with
    | some cap => if request.amount > cap then [.blocked .rate_limit_per_tx] else []
    | none => []
  let stranger := match policy.config.recipientAllowlist with
    -- an empty list allows everybody
    | some allowed => if allowed ≠ [] ∧ request.recipient ∉ allowed
        then [.recipient_not_allowed] else []
    | none => []
  let reasons := predicted ++ invalid ++ overBudget ++ overCap ++ stranger
  { allowed := reasons.isEmpty, reasons, dryRun := policy.config.dryRun.getD false }

def recordAttempt (policy : PaymentPolicy) (action : AuditAction) (request : PaymentRequest)
    (reasons : Option (List PolicyBlockReason)) (transactionHash : Option String) (now : ℕ) :
    PaymentPolicy :=
  let sessionSpent :=
    if action = .pay ∧ policy.config.dryRun.getD false = false
      then policy.sessionSpent + request.amount
    else policy.sessionSpent
  let entry : AuditEntry := {
    timestamp := now
    action
    amount := request.amount
    recipient := request.recipient
    endpoint := request.endpoint
    reasons
    transactionHash
    sessionSpent }
  { policy with sessionSpent, auditLog := policy.auditLog ++ [entry] }

end PaymentPolicy

/-! ## Errors -/

inductive ToolErrorCode where
  | PAYMENT_REFUSED
  | POLICY_VIOLATION
  | DRY_RUN
  | SDK_ERROR
  | INVALID_ARGUMENT
  | UNKNOWN_TOOL
  | KEY_MATERIAL_BLOCKED
  deriving DecidableEq

structure ToolError where
  code : ToolErrorCode
  message : String
  reasons : Option (List PolicyBlockReason) := none
  retryable : Bool := false

def toolErrorFromRefusal (reasons : List PolicyBlockReason) : ToolError where
  code := .PAYMENT_REFUSED
  message := "Payment refused: " ++ ", ".intercalate (reasons.map PolicyBlockReason.text)
  reasons := some reasons

/-! ## Payment traces

`telemetry/context.ts` of the core package: which payment a transaction belongs to.
-/

structure PaymentTraceRecord where
  paymentId : String
  agentAddress : String
  method : String
  amount : ℤ
  endpoint : String
  submittedAt : ℕ
  transactionHash : Option String := none

structure TraceRegistry where
  byPaymentId : Map String PaymentTraceRecord
  byTxHash : Map String String

/-- `registerPaymentTrace`, of a record that has no transaction yet -/
def TraceRegistry.registerPaymentTrace (traces : TraceRegistry) (trace : PaymentTraceRecord) :
    TraceRegistry :=
  { traces with byPaymentId := traces.byPaymentId.insert trace.paymentId trace }

def TraceRegistry.attachTransactionHash (traces : TraceRegistry)
    (paymentId transactionHash : String) : TraceRegistry :=
  match traces.byPaymentId.lookup paymentId with
  | none => traces
  | some existing =>
      { byPaymentId := traces.byPaymentId.insert paymentId
          { existing with transactionHash := some transactionHash }
        byTxHash := traces.byTxHash.insert transactionHash paymentId }

/-! ## Results -/

/-- A field of the data of a result -/
inductive Datum where
  | text (value : String)
  | number (value : ℤ)
  | flag (value : Bool)
  | texts (values : List String)

abbrev Data := List (String × Datum)

inductive ToolResponse where
  | success (data : Data)
  | failure (error : ToolError)

/-- What a handler throws: an error of its own, or the one of the agent as it is -/
inductive Thrown where
  | tool (error : ToolError)
  | agent (message : String)

/-- The letters of a secret key -/
def isKeyLetter (c : Char) : Bool := ('A' ≤ c ∧ c ≤ 'Z') ∨ ('2' ≤ c ∧ c ≤ '7')

/-- `/S[A-Z2-7]{55}/` at the start of a text -/
def startsWithKey : List Char → Bool
  | [] => false
  | c :: rest => c = 'S' ∧ (rest.take 55).length = 55 ∧ (rest.take 55).all isKeyLetter

def exposesKey (text : String) : Bool := text.toList.tails.any startsWithKey

/-- A key cannot go over the quotes and separators of the serialised data, so it lies in one of
its texts. -/
def Datum.exposesKey : Datum → Bool
  | .text value => Integrations.exposesKey value
  | .texts values => values.any Integrations.exposesKey
  | .number _ | .flag _ => false

/-- `safeData` and `success` -/
def success (data : Data) : Except ToolError ToolResponse :=
  if data.any fun field => exposesKey field.1 || field.2.exposesKey then
    .error { code := .KEY_MATERIAL_BLOCKED, message := "Tool result would expose key material" }
  else .ok (.success data)

def refuse (reasons : List PolicyBlockReason) : ToolResponse :=
  .failure (toolErrorFromRefusal reasons)

/-! ## The handlers -/

/-- `ToolContext`, of whose agent the handlers only read the address, with the traces of its
process -/
structure ToolContext where
  agentAddress : String
  policy : PaymentPolicy
  currentLedger : ℕ
  traces : TraceRegistry

def createToolContext (agentAddress : String) (policyConfig : PolicyConfig) (currentLedger : ℕ)
    (traces : TraceRegistry) : ToolContext :=
  { agentAddress, policy := { config := policyConfig }, currentLedger, traces }

/-- The methods of the agent that the other handlers await -/
inductive AgentMethod where
  | getSpendReport
  | getRateLimitStatus
  | openChannel (deposit limitPerPeriod period : String) (token : Option String)
  | requestWork (workerAgent task escrowAmount : String) (asset : Option String)
  | acceptJob (jobId : String)
  | submitResult (jobId result : String)
  | releasePayment (jobId : String)
  | getJob (jobId : String)

inductive ToolCall where
  | stellaragent_quote (amount : ℤ) (recipient : String)
  | stellaragent_pay (amount : ℤ) (recipient endpoint : String)
  /-- The eight tools that hand their arguments to one method of the agent -/
  | forwarded (method : AgentMethod)
  | unknown (name : String)

/-- What a handler awaits -/
inductive Awaited where
  | payForAPI (request : PaymentRequest) (paymentId : String)
  | method (method : AgentMethod)

/-- How far a handler has come -/
inductive Progress where
  | done (result : Except Thrown ToolResponse)
  | awaits (what : Awaited)

def quotePayment (ctx : ToolContext) (amount : ℤ) (recipient : String) (now : ℕ) :
    ToolContext × Progress :=
  let request : PaymentRequest := {
    amount
    recipient
    endpoint := none
    channelState := none
    rateLimitState := none
    currentLedger := ctx.currentLedger }
  let decision := ctx.policy.evaluate request
  let policy := ctx.policy.recordAttempt (if decision.allowed then .quote else .refused) request
    (some decision.reasons) none now
  ({ ctx with policy },
    .done ((success [("wouldBlock", .flag !decision.allowed),
      ("reasons", .texts (decision.reasons.map PolicyBlockReason.text)),
      ("remainingSessionBudget", .text (toString policy.remainingSessionBudget))]).mapError .tool))

/-- `payForApi` up to its `await` -/
def payForApi (ctx : ToolContext) (amount : ℤ) (recipient endpoint paymentId : String) (now : ℕ) :
    ToolContext × Progress :=
  let request : PaymentRequest := {
    amount
    recipient
    endpoint := some endpoint
    channelState := none
    rateLimitState := none
    currentLedger := ctx.currentLedger }
  let decision := ctx.policy.evaluate request
  if decision.allowed = false then
    let policy := ctx.policy.recordAttempt .refused request (some decision.reasons) none now
    ({ ctx with policy }, .done (.ok (refuse decision.reasons)))
  else
    let traces := ctx.traces.registerPaymentTrace {
      paymentId
      agentAddress := ctx.agentAddress
      method := "pay_for_api"
      amount
      endpoint
      submittedAt := now }
    if decision.dryRun then
      let policy := ctx.policy.recordAttempt .pay request none none now
      ({ ctx with policy, traces },
        .done ((success [("dryRun", .flag true), ("paymentId", .text paymentId),
          ("amount", .text (toString amount)), ("recipient", .text recipient)]).mapError .tool))
    else ({ ctx with traces }, .awaits (.payForAPI request paymentId))

/-- `dispatchToolHandler` up to the first `await`; `paymentId` is a fresh one. -/
def dispatchToolHandler (ctx : ToolContext) (call : ToolCall) (paymentId : String) (now : ℕ) :
    ToolContext × Progress :=
  match call with
  | .stellaragent_quote amount recipient => quotePayment ctx amount recipient now
  | .stellaragent_pay amount recipient endpoint =>
      payForApi ctx amount recipient endpoint paymentId now
  | .forwarded method => (ctx, .awaits (.method method))
  | .unknown name =>
      (ctx, .done (.ok (.failure { code := .UNKNOWN_TOOL, message := "Unknown tool: " ++ name })))

structure TxResult where
  hash : String
  success : Bool
  ledger : ℕ

/-- What the promise of the agent settles with: `fields` is what a handler takes out of the answer
of a method. -/
inductive Reply where
  | rejected (message : String)
  | tx (tx : TxResult)
  | fields (data : Data)

/-- `payForApi` from its `await` on: a payment is charged where the promise has been resolved. -/
def payForApiSettled (ctx : ToolContext) (request : PaymentRequest) (paymentId : String)
    (reply : Except String TxResult) (now : ℕ) : ToolContext × Except Thrown ToolResponse :=
  match reply with
  | .error message => (ctx, .error (.tool { code := .SDK_ERROR, message, retryable := true }))
  | .ok tx =>
      let linkedId := (ctx.traces.byTxHash.lookup tx.hash).getD paymentId
      let traces := ctx.traces.attachTransactionHash linkedId tx.hash
      let policy := ctx.policy.recordAttempt .pay request none (some tx.hash) now
      ({ ctx with policy, traces },
        match success [("paymentId", .text linkedId), ("hash", .text tx.hash),
          ("success", .flag tx.success), ("ledger", .number tx.ledger)] with
        | .ok response => .ok response
        -- what `success` throws is caught with the errors of the agent
        | .error error =>
            .error (.tool { code := .SDK_ERROR, message := error.message, retryable := true }))

/-- A handler from its `await` on, if the reply is one to what it awaits -/
def resume (ctx : ToolContext) (what : Awaited) (reply : Reply) (now : ℕ) :
    Option (ToolContext × Except Thrown ToolResponse) :=
  match what, reply with
  | .payForAPI request paymentId, .rejected message =>
      some (payForApiSettled ctx request paymentId (.error message) now)
  | .payForAPI request paymentId, .tx tx =>
      some (payForApiSettled ctx request paymentId (.ok tx) now)
  | .method _, .rejected message => some (ctx, .error (.agent message))
  | .method _, .fields data => some (ctx, (success data).mapError .tool)
  | _, _ => none

end StellarAgent.Integrations
