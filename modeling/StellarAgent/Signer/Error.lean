import Mathlib.Tactic

set_option autoImplicit false

/-! # Refusals

`services/signer/src/error.rs`: why the signing service refuses a request, and the policy rules
that objected. The HTTP rendering of a refusal is left out.
-/

namespace StellarAgent.Signer

inductive RefusalReason where
  | Unauthenticated
  | CredentialRejected
  | NoKeyForSubject
  | MalformedRequest
  | MalformedEnvelope
  | Uninspectable
  | PolicyViolation
  | BackendUnavailable
  | AuditUnavailable
  | Internal
  deriving DecidableEq

/-- `RefusalReason::as_str` -/
def RefusalReason.asStr : RefusalReason → String
  | .Unauthenticated => "unauthenticated"
  | .CredentialRejected => "credential_rejected"
  | .NoKeyForSubject => "no_key_for_subject"
  | .MalformedRequest => "malformed_request"
  | .MalformedEnvelope => "malformed_envelope"
  | .Uninspectable => "uninspectable"
  | .PolicyViolation => "policy_violation"
  | .BackendUnavailable => "backend_unavailable"
  | .AuditUnavailable => "audit_unavailable"
  | .Internal => "internal"

/-- One rule's objection. -/
structure Violation where
  rule : String
  detail : String
  deriving DecidableEq

structure ServiceError where
  reason : RefusalReason
  message : String
  violations : List Violation
  internal_detail : Option String
  deriving DecidableEq

/-- `ServiceError::new` -/
def ServiceError.new (reason : RefusalReason) (message : String) : ServiceError where
  reason
  message
  violations := []
  internal_detail := none

/-- `ServiceError::with_internal` -/
def ServiceError.withInternal (error : ServiceError) (detail : String) : ServiceError :=
  { error with internal_detail := some detail }

/-- `ServiceError::policy` -/
def ServiceError.policy (violations : List Violation) : ServiceError :=
  let summary := "; ".intercalate (violations.map fun v => v.rule ++ ": " ++ v.detail)
  { reason := .PolicyViolation
    message := if summary.isEmpty then "refused by policy" else summary
    violations
    internal_detail := none }

@[simp] theorem ServiceError.new_reason (reason : RefusalReason) (message : String) :
    (ServiceError.new reason message).reason = reason := rfl

@[simp] theorem ServiceError.withInternal_reason (error : ServiceError) (detail : String) :
    (error.withInternal detail).reason = error.reason := rfl

@[simp] theorem ServiceError.policy_reason (violations : List Violation) :
    (ServiceError.policy violations).reason = .PolicyViolation := rfl

end StellarAgent.Signer
