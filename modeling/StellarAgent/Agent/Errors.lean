import StellarAgent.Fleet.SubmissionQueue

set_option autoImplicit false

/-! # Errors of the TypeScript SDK

`packages/core/src/errors.ts`, and `contractError` of `agent/invocation.ts`, which reads the code of
an error off the message of a contract. The patterns are matched without regard to case.
-/

namespace StellarAgent.Agent

open Fleet.Submission (pattern matchesHere matchesIn isLineTerminator)

/-! ## Errors -/

inductive StellarAgentErrorCode where
  | INVALID_ARGUMENT
  | NO_ACTIVE_CHANNEL
  | NO_ROUTE
  | QUOTE_EXPIRED
  | INVALID_ROUTE_OVERRIDE
  | INSUFFICIENT_LIQUIDITY
  | VENUE_UNAVAILABLE
  | SPEND_LIMIT_EXCEEDED
  | CHANNEL_NOT_FOUND
  | CHANNEL_CLOSED
  | JOB_NOT_FOUND
  | JOB_NOT_OPEN
  | JOB_EXPIRED
  | NOT_AUTHORIZED
  | RATE_LIMIT_NOT_FOUND
  | CONTRACT_ERROR
  | SIMULATION_FAILED
  | SUBMISSION_FAILED
  | TRANSACTION_FAILED
  | TRANSACTION_TIMEOUT
  | NETWORK_ERROR
  deriving DecidableEq

def DOCS_BASE : String :=
  "https://github.com/StellarAgent-AI-Agent-Payment-Rails/Stellar-agentic/blob/main/"

/-- What a caller should do next about a code: a hint and a document -/
structure Remedy where
  hint : String
  doc : String

def REMEDIES : StellarAgentErrorCode → Option Remedy
  | .NO_ACTIVE_CHANNEL => some {
      hint := "Open one with openChannel(), or pass an explicit channelId to this call."
      doc := "docs/api/core/classes/StellarAgent.md#openchannel" }
  | .SPEND_LIMIT_EXCEEDED => some {
      hint := "Check the remaining budget with getSpendReport(), then either wait for the " ++
        "window to reset or raise the ceiling with setRateLimits()."
      doc := "docs/api/core/classes/StellarAgent.md#getspendreport" }
  | .RATE_LIMIT_NOT_FOUND => some {
      hint := "No limits are configured for this agent yet — call setRateLimits() once first."
      doc := "docs/api/core/classes/StellarAgent.md#setratelimits" }
  | .NOT_AUTHORIZED => some {
      hint := "The signer did not match the address the contract expects. Confirm which " ++
        "signer backend is in use and which key it holds."
      doc := "docs/signing.md#choosing-a-backend" }
  | .TRANSACTION_TIMEOUT => some {
      hint := "The transaction expired before inclusion — usually the fee under congestion. " ++
        "Review the fee strategy and queue sizing."
      doc := "docs/fleet-tuning.md#fee-selection-and-congestion" }
  | .NETWORK_ERROR => some {
      hint := "Soroban RPC was unreachable or returned an error. Confirm config.network names " ++
        "the network the contracts are deployed on, and that its rpcUrl is reachable."
      doc := "docs/deployment.md#wiring-the-sdk-to-a-deployment" }
  | _ => none

/-- The message with the remedy for the code, if there is one -/
def withRemedy (code : StellarAgentErrorCode) (message : String) : String :=
  match REMEDIES code with
  | none => message
  | some remedy => s!"{message}\n\n{remedy.hint}\nSee {DOCS_BASE}{remedy.doc}"

structure StellarAgentError where
  code : StellarAgentErrorCode
  message : String
  transactionHash : Option String
  deriving DecidableEq

def StellarAgentError.new (code : StellarAgentErrorCode) (message : String)
    (transactionHash : Option String) : StellarAgentError where
  code
  message := withRemedy code message
  transactionHash

/-! ## Contract messages -/

/-- One of the names occurs in the text. -/
def mentions (names : List String) (text : List Char) : Bool :=
  names.any fun name => matchesIn (pattern name) text

/-- One of the first names occurs, and one of the second ones behind it on the same line (`.*`). -/
def mentionsAfter (names others : List String) (text : List Char) : Bool :=
  text.tails.any fun tail => names.any fun name =>
    matchesHere (pattern name) tail &&
      mentions others ((tail.drop name.length).takeWhile fun c => !isLineTerminator c)

/-- The `mappings` of `contractError` -/
def contractCode (message : String) : Option StellarAgentErrorCode :=
  let text := message.toList
  if mentions ["spend limit exceeded"] text then some .SPEND_LIMIT_EXCEEDED
  else if mentions ["channel not found"] text then some .CHANNEL_NOT_FOUND
  else if mentions ["channel is closed"] text then some .CHANNEL_CLOSED
  else if mentions ["job not found"] text then some .JOB_NOT_FOUND
  else if mentions ["job is not open"] text then some .JOB_NOT_OPEN
  else if mentions ["job has expired"] text then some .JOB_EXPIRED
  else if mentions ["not authorized", "not assigned", "not the authorized", "not the assigned"]
      text then some .NOT_AUTHORIZED
  else if mentions ["no rate limit", "limit not found"] text then some .RATE_LIMIT_NOT_FOUND
  else if mentionsAfter ["amount", "deposit", "limit"] ["positive", "invalid"] text ||
      mentions ["deadline must"] text then some .INVALID_ARGUMENT
  else none

def contractError (fallback : StellarAgentErrorCode) (message : String)
    (transactionHash : Option String) : StellarAgentError :=
  .new ((contractCode message).getD fallback) message transactionHash

theorem contractCode_ne_timeout (message : String) :
    contractCode message ≠ some .TRANSACTION_TIMEOUT := by
  unfold contractCode
  dsimp only
  split_ifs <;> simp

/-- What a contract says is never taken for a timeout. -/
theorem contractError_code {fallback : StellarAgentErrorCode} (message : String)
    (transactionHash : Option String) (h : fallback ≠ .TRANSACTION_TIMEOUT) :
    (contractError fallback message transactionHash).code ≠ .TRANSACTION_TIMEOUT := by
  show (contractCode message).getD fallback ≠ _
  cases hcode : contractCode message with
  | none => exact h
  | some code =>
      intro heq
      exact contractCode_ne_timeout message (hcode.trans (congrArg some heq))

end StellarAgent.Agent
