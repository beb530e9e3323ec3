import Mathlib.Tactic

set_option autoImplicit false

/-! # Errors of the Rust SDK

`sdk/rust/src/error.rs`. The cause that an error may carry is left out.
-/

namespace StellarAgent.Sdk

inductive ErrorCode where
  | InvalidArgument
  | NoActiveChannel
  | SpendLimitExceeded
  | ChannelNotFound
  | ChannelClosed
  | JobNotFound
  | JobNotOpen
  | JobExpired
  | NotAuthorized
  | RateLimitNotFound
  | ContractError
  | SimulationFailed
  | SubmissionFailed
  | TransactionFailed
  | TransactionTimeout
  | NetworkError
  deriving DecidableEq

/-- Whether retrying the same call unchanged could plausibly succeed -/
def ErrorCode.isRetryable : ErrorCode → Bool
  | .NetworkError | .TransactionTimeout => true
  | _ => false

structure StellarAgentError where
  code : ErrorCode
  message : String
  transaction_hash : Option String
  deriving DecidableEq

namespace StellarAgentError

def new (code : ErrorCode) (message : String) : StellarAgentError where
  code
  message
  transaction_hash := none

def withTransactionHash (error : StellarAgentError) (hash : String) : StellarAgentError :=
  { error with transaction_hash := some hash }

def isRetryable (error : StellarAgentError) : Bool := error.code.isRetryable

/-! ## Contract messages -/

/-- One of the needles occurs in the text. -/
def containsAny (haystack : List Char) (needles : List String) : Bool :=
  needles.any fun needle => decide (needle.toList <:+: haystack)

/-- `classify_contract_message` -/
def classifyContractMessage (message : String) : Option ErrorCode :=
  let haystack := message.toList.map Char.toLower
  if containsAny haystack ["spend limit exceeded"] then some .SpendLimitExceeded
  else if containsAny haystack ["channel not found"] then some .ChannelNotFound
  else if containsAny haystack ["channel is closed"] then some .ChannelClosed
  else if containsAny haystack ["job not found"] then some .JobNotFound
  else if containsAny haystack ["job is not open"] then some .JobNotOpen
  else if containsAny haystack ["job has expired"] then some .JobExpired
  else if containsAny haystack
      ["not authorized", "not the authorized", "not assigned", "not the assigned"] then
    some .NotAuthorized
  else if containsAny haystack ["no rate limit", "limit not found"] then some .RateLimitNotFound
  else if containsAny haystack ["deadline must"] ||
      (containsAny haystack ["amount", "deposit", "limit"] &&
        containsAny haystack ["positive", "invalid"]) then
    some .InvalidArgument
  else none

def fromContractMessage (fallback : ErrorCode) (message : String) : StellarAgentError :=
  new ((classifyContractMessage message).getD fallback) message

end StellarAgentError

end StellarAgent.Sdk
