import StellarAgent.Lib.Programs
import StellarAgent.Signer.AuditChain
import StellarAgent.Signer.State

set_option autoImplicit false

/-! # The signing service

`services/signer/src/sign.rs`: what the service does for an authenticated request, as a program
over the operations that other requests can come between: the two calls of a key backend, a record
for the audit log, the check and the commit of the rate limits, and the ledger clock. Everything
else is computed from what the service was configured with, which never changes.

A response is its one field. Metrics and tracing are left out.
-/

namespace StellarAgent.Signer

open Lib Soroban

/-! ## Keys and identities -/

structure KeyRef where
  backend : String
  key_id : String
  deriving DecidableEq

/-- `KeyRef::to_string` -/
def KeyRef.text (key : KeyRef) : String := key.backend ++ ":" ++ key.key_id

inductive BackendError where
  | UnknownKey (key : KeyRef)
  | WrongKeyType (key : KeyRef) (detail : String)
  | Unavailable (detail : String)
  | Backend (detail : String)
  deriving DecidableEq

/-- `BackendError::to_string` -/
def BackendError.text : BackendError → String
  | .UnknownKey key => "no key " ++ key.text ++ " in this backend"
  | .WrongKeyType key detail => "key " ++ key.text ++ " is not an Ed25519 signing key: " ++ detail
  | .Unavailable detail => "backend unavailable: " ++ detail
  | .Backend detail => "backend returned an unusable response: " ++ detail

/-- `ServiceError::from` -/
def BackendError.toServiceError (error : BackendError) : ServiceError :=
  let reason : RefusalReason :=
    match error with
    | .UnknownKey _ => .Internal
    | .WrongKeyType _ _ => .Internal
    | .Unavailable _ => .BackendUnavailable
    | .Backend _ => .BackendUnavailable
  (ServiceError.new reason "the signing backend is unavailable").withInternal error.text

structure Registration where
  key : KeyRef
  policy : String
  deriving DecidableEq

structure Caller where
  subject : String
  token_id : String
  deriving DecidableEq

/-- What the service is configured with; of the backends, their ids. -/
structure Service where
  codec : Codec
  backends : List String
  registry : Map String Registration
  policies : PolicySet

namespace Service

variable (service : Service)

/-- `KeyRegistry::resolve` -/
def resolve (subject : String) : Except ServiceError Registration :=
  match service.registry.lookup subject with
  | some registration => .ok registration
  | none => .error ((ServiceError.new .NoKeyForSubject
      "no signing key is registered for this identity").withInternal
      ("subject " ++ subject ++ " authenticated but has no registry entry"))

/-- `policy_for` -/
def policyFor (registration : Registration) : Except ServiceError Policy :=
  match service.policies.policies.lookup registration.policy with
  | some policy => .ok policy
  | none => .error ((ServiceError.new .Internal
      "this identity's policy is not configured").withInternal
      ("policy `" ++ registration.policy ++ "` is not defined"))

theorem policyFor_valid {registration : Registration} {policy : Policy}
    (h : service.policyFor registration = .ok policy) :
    policy.validate registration.policy = .ok () := by
  unfold policyFor at h
  split at h
  · rename_i found hfound
    obtain rfl := Except.ok.inj h
    exact service.policies.valid _ _ hfound
  · cases h

/-- `BackendRegistry::get` -/
def backend (key : KeyRef) : Except BackendError Unit :=
  if key.backend ∈ service.backends then .ok () else .error (.UnknownKey key)

/-- `audit::digest` -/
def digest (text : String) : String :=
  hexEncode (service.codec.sha256 (utf8 text.toList)).bytes

/-- `network_id` -/
def networkId (passphrase : String) : BytesN 32 := service.codec.sha256 (utf8 passphrase.toList)

end Service

/-! ## What is signed -/

/-- `transaction_signing_payload` -/
def Service.transactionSigningPayload (service : Service) (transaction : Transaction)
    (passphrase : String) : Except ServiceError (BytesN 32) :=
  match service.codec.encodePayload ⟨service.networkId passphrase, transaction⟩ with
  | .error error => .error ((ServiceError.new .MalformedEnvelope
      "could not re-encode the transaction for signing").withInternal error)
  | .ok encoded => .ok (service.codec.sha256 encoded)

/-- `auth_entry_signing_payload` -/
def Service.authEntrySigningPayload (service : Service) (entry : SorobanAuthorizationEntry)
    (passphrase : String) (expiration_ledger : Nat) : Except ServiceError (BytesN 32) :=
  match entry.credentials with
  | .SourceAccount => .error (.new .MalformedEnvelope
      ("authorization entry uses source-account credentials, which are covered by the " ++
        "transaction signature and need no separate signature"))
  | .Address credentials =>
      match service.codec.encodePreimage ⟨service.networkId passphrase, credentials.nonce,
        expiration_ledger, entry.root_invocation⟩ with
      | .error error => .error ((ServiceError.new .MalformedEnvelope
          "could not encode the authorization preimage").withInternal error)
      | .ok encoded => .ok (service.codec.sha256 encoded)

/-- `account_signature_scval` -/
def accountSignatureScval (public_key : BytesN 32) (signature : BytesN 64) : ScVal :=
  .Vec (some [.Map (some [
    (.Symbol (utf8 "public_key".toList), .Bytes public_key.bytes),
    (.Symbol (utf8 "signature".toList), .Bytes signature.bytes)])])

/-- `signature_hint`: the last four bytes. -/
def signatureHint (public_key : BytesN 32) : BytesN 4 where
  bytes := public_key.bytes.drop 28
  length_eq := by rw [List.length_drop, public_key.length_eq]

/-- The most signatures that an envelope carries. -/
def MAX_SIGNATURES : Nat := 20

/-- `attach_signature` -/
def attachSignature (codec : Codec) (envelope_xdr : String) (public_key : BytesN 32)
    (signature : BytesN 64) : Except ServiceError String :=
  match codec.decodeEnvelope envelope_xdr with
  | .error error => .error ((ServiceError.new .Internal
      "the envelope stopped decoding between inspection and signing").withInternal error)
  | .ok (.Tx inner) =>
      let signatures := inner.signatures ++ [⟨signatureHint public_key, signature.bytes⟩]
      if signatures.length > MAX_SIGNATURES then
        .error (.new .MalformedEnvelope "the envelope cannot carry another signature")
      else
        match codec.encodeEnvelope (.Tx { inner with signatures }) with
        | .error error => .error ((ServiceError.new .Internal
            "could not re-encode the signed envelope").withInternal error)
        | .ok text => .ok text
  | .ok _ => .error (.new .Internal "only v1 envelopes reach the signing step")

/-- The end of `sign_auth_entry`: the signature is put into the entry. -/
def attachToEntry (codec : Codec) (entry : SorobanAuthorizationEntry) (requested : Nat)
    (public_key : BytesN 32) (signature : BytesN 64) : Except ServiceError String :=
  match entry.credentials with
  | .SourceAccount => .error (.new .Internal
      "the entry lost its address credentials between decode and signing")
  | .Address credentials =>
      let signed := { entry with credentials := .Address { credentials with
        signature_expiration_ledger := requested
        signature := accountSignatureScval public_key signature } }
      match codec.encodeAuthEntry signed with
      | .error error => .error ((ServiceError.new .Internal
          "could not re-encode the signed authorization entry").withInternal error)
      | .ok text => .ok text

/-! ## Operations -/

inductive ServiceOp where
  /-- `SigningBackend::public_key` -/
  | public_key (key : KeyRef)
  /-- `SigningBackend::sign` -/
  | sign (key : KeyRef) (payload : BytesN 32)
  /-- `AuditLog::record` -/
  | record (pending : PendingRecord)
  /-- `RateLimitState::check` -/
  | check (policy : Policy) (subject : String) (amount : Int) (now : Nat)
  /-- `RateLimitState::commit` -/
  | commit (policy : Policy) (subject : String) (amount : Int) (now : Nat)
  /-- `LedgerClock::observe` -/
  | observe (claimed : Nat)
  /-- `LedgerClock::current_ledger` -/
  | current_ledger

def Answer : ServiceOp → Type
  | .public_key _ => Except BackendError (BytesN 32)
  | .sign _ _ => Except BackendError (BytesN 64)
  | .record _ => Except String Unit
  | .check _ _ _ _ => Option Violation
  | .commit _ _ _ _ => Unit
  | .observe _ => Except Nat Unit
  | .current_ledger => Nat

instance : ∀ op, Nonempty (Answer op)
  | .public_key _ => ⟨.error (.Unavailable "")⟩
  | .sign _ _ => ⟨.error (.Unavailable "")⟩
  | .record _ => ⟨.ok ()⟩
  | .check _ _ _ _ => ⟨none⟩
  | .commit _ _ _ _ => ⟨()⟩
  | .observe _ => ⟨.ok ()⟩
  | .current_ledger => ⟨(0 : Nat)⟩

abbrev Call := Fallible ServiceOp Answer ServiceError

abbrev ServiceEvent := Event ServiceOp Answer

/-! Each operation as a question, as an event, and what a program does that starts with it. -/

/-- `SigningBackend::public_key` of the key's backend. -/
def askPublicKey (key : KeyRef) : Call (Except BackendError (BytesN 32)) :=
  Fallible.perform (ServiceOp.public_key key)

/-- `SigningBackend::sign` of the key's backend. -/
def askSign (key : KeyRef) (payload : BytesN 32) : Call (Except BackendError (BytesN 64)) :=
  Fallible.perform (ServiceOp.sign key payload)

def askRecord (pending : PendingRecord) : Call (Except String Unit) :=
  Fallible.perform (ServiceOp.record pending)

def askCheck (policy : Policy) (subject : String) (amount : Int) (now : Nat) :
    Call (Option Violation) :=
  Fallible.perform (ServiceOp.check policy subject amount now)

def askCommit (policy : Policy) (subject : String) (amount : Int) (now : Nat) : Call Unit :=
  Fallible.perform (ServiceOp.commit policy subject amount now)

def askObserve (claimed : Nat) : Call (Except Nat Unit) :=
  Fallible.perform (ServiceOp.observe claimed)

def askCurrentLedger : Call Nat := Fallible.perform ServiceOp.current_ledger

/-! ### Events -/

def publicKeyEvent (key : KeyRef) (answer : Except BackendError (BytesN 32)) : ServiceEvent :=
  ⟨.public_key key, answer⟩

def signEvent (key : KeyRef) (payload : BytesN 32) (answer : Except BackendError (BytesN 64)) :
    ServiceEvent :=
  ⟨.sign key payload, answer⟩

def recordEvent (pending : PendingRecord) (written : Except String Unit) : ServiceEvent :=
  ⟨.record pending, written⟩

def checkEvent (policy : Policy) (subject : String) (amount : Int) (now : Nat)
    (limited : Option Violation) : ServiceEvent :=
  ⟨.check policy subject amount now, limited⟩

def commitEvent (policy : Policy) (subject : String) (amount : Int) (now : Nat) : ServiceEvent :=
  ⟨.commit policy subject amount now, ()⟩

def observeEvent (claimed : Nat) (answer : Except Nat Unit) : ServiceEvent :=
  ⟨.observe claimed, answer⟩

def ledgerEvent (current_ledger : Nat) : ServiceEvent := ⟨.current_ledger, current_ledger⟩

theorem publicKeyEvent_inj {key key' : KeyRef} {answer answer' : Except BackendError (BytesN 32)} :
    publicKeyEvent key answer = publicKeyEvent key' answer' ↔ key = key' ∧ answer = answer' := by
  constructor
  · intro h
    cases h
    exact ⟨rfl, rfl⟩
  · rintro ⟨rfl, rfl⟩
    rfl

theorem signEvent_inj {key key' : KeyRef} {payload payload' : BytesN 32}
    {answer answer' : Except BackendError (BytesN 64)} :
    signEvent key payload answer = signEvent key' payload' answer' ↔
      key = key' ∧ payload = payload' ∧ answer = answer' := by
  constructor
  · intro h
    cases h
    exact ⟨rfl, rfl, rfl⟩
  · rintro ⟨rfl, rfl, rfl⟩
    rfl

theorem commitEvent_inj {policy policy' : Policy} {subject subject' : String}
    {amount amount' : Int} {now now' : Nat} :
    commitEvent policy subject amount now = commitEvent policy' subject' amount' now' ↔
      policy = policy' ∧ subject = subject' ∧ amount = amount' ∧ now = now' := by
  constructor
  · intro h
    cases h
    exact ⟨rfl, rfl, rfl, rfl⟩
  · rintro ⟨rfl, rfl, rfl, rfl⟩
    rfl

theorem checkEvent_inj {policy : Policy} {subject : String} {amount : Int} {now : Nat}
    {limited limited' : Option Violation} :
    checkEvent policy subject amount now limited = checkEvent policy subject amount now limited' ↔
      limited = limited' := by
  constructor
  · intro h
    cases h
    rfl
  · rintro rfl
    rfl

section

variable {β : Type} {es : List ServiceEvent} {result : Except ServiceError β}

theorem askPublicKey_trace {key : KeyRef} {f : Except BackendError (BytesN 32) → Call β} :
    Fallible.Trace (askPublicKey key >>= f) es result ↔ ∃ answer rest,
      es = publicKeyEvent key answer :: rest ∧ Fallible.Trace (f answer) rest result :=
  Fallible.trace_perform_bind

theorem askSign_trace {key : KeyRef} {payload : BytesN 32}
    {f : Except BackendError (BytesN 64) → Call β} :
    Fallible.Trace (askSign key payload >>= f) es result ↔ ∃ answer rest,
      es = signEvent key payload answer :: rest ∧ Fallible.Trace (f answer) rest result :=
  Fallible.trace_perform_bind

theorem askRecord_trace {pending : PendingRecord} {f : Except String Unit → Call β} :
    Fallible.Trace (askRecord pending >>= f) es result ↔ ∃ written rest,
      es = recordEvent pending written :: rest ∧ Fallible.Trace (f written) rest result :=
  Fallible.trace_perform_bind

theorem askCheck_trace {policy : Policy} {subject : String} {amount : Int} {now : Nat}
    {f : Option Violation → Call β} :
    Fallible.Trace (askCheck policy subject amount now >>= f) es result ↔ ∃ limited rest,
      es = checkEvent policy subject amount now limited :: rest ∧
        Fallible.Trace (f limited) rest result :=
  Fallible.trace_perform_bind

theorem askCommit_trace {policy : Policy} {subject : String} {amount : Int} {now : Nat}
    {f : Unit → Call β} :
    Fallible.Trace (askCommit policy subject amount now >>= f) es result ↔ ∃ rest,
      es = commitEvent policy subject amount now :: rest ∧ Fallible.Trace (f ()) rest result := by
  refine Fallible.trace_perform_bind.trans ?_
  constructor
  · rintro ⟨_, rest, hes, h⟩
    exact ⟨rest, hes, h⟩
  · rintro ⟨rest, hes, h⟩
    exact ⟨(), rest, hes, h⟩

end

/-! ## Requests -/

structure SignTransactionRequest where
  xdr : String
  network_passphrase : String
  deriving DecidableEq

structure SignAuthEntryRequest where
  auth_entry_xdr : String
  network_passphrase : String
  valid_until_ledger_seq : Nat
  deriving DecidableEq

/-- `refusal_outcome` -/
def refusalOutcome (error : ServiceError) : Outcome :=
  .Refused error.reason.asStr error.violations

/-- `merge` -/
def Decision.merge (decision : Decision) (violation : Violation) : Decision :=
  .Deny (decision.violations ++ [violation])

/-- `ArgValue::fmt` -/
def ArgValue.text (codec : Codec) : ArgValue → String
  | .Address text => text
  | .Int value => toString value
  | .Text text => codec.debug text
  | .Other text => text

/-- `render_call` -/
def renderCall (codec : Codec) (call : InspectedCall) : String :=
  call.contract ++ "." ++ call.function ++ "(" ++
    ", ".intercalate (call.args.map fun arg => arg.value.text codec) ++ ")" ++
    if call.conservative then " [unspecced]" else ""

/-- What `write_audit` answers when the log does not take the record. -/
def auditUnavailable (error : String) : ServiceError :=
  (ServiceError.new .AuditUnavailable
    "the request could not be recorded, so it was not served").withInternal error

/-- `write_audit` -/
def writeAudit (pending : PendingRecord) : Call Unit := do
  let written ← askRecord pending
  match written with
  | .ok () => pure ()
  | .error error => throw (auditUnavailable error)

/-- The record of a request whose key and policy are known. -/
def pendingRecord (caller : Caller) (registration : Registration) (operation : Operation)
    (request : RequestSummary) (request_id : String) (now : Nat) (outcome : Outcome) :
    PendingRecord where
  at_time := now
  request_id
  subject := some caller.subject
  token_id := some caller.token_id
  key := some registration.key.text
  policy := some registration.policy
  operation
  request
  outcome

/-- `refuse`, and the `return Err` that its callers make of it. -/
def refuse {α : Type} (caller : Caller) (registration : Registration) (operation : Operation)
    (summary : RequestSummary) (error : ServiceError) (request_id : String) (now : Nat) :
    Call α := do
  writeAudit (pendingRecord caller registration operation summary request_id now
    (refusalOutcome error))
  throw error

namespace Service

variable (service : Service)

/-- `resolve_public_key` -/
def resolvePublicKey (caller : Caller) : Call String := do
  let registration ← Fallible.ofExcept (service.resolve caller.subject)
  Fallible.ofExcept ((service.backend registration.key).mapError BackendError.toServiceError)
  let answer ← askPublicKey registration.key
  let raw ← Fallible.ofExcept (answer.mapError BackendError.toServiceError)
  return service.codec.publicKeyText raw

/-- `public_key` -/
def publicKey (caller : Caller) (request_id : String) (now : Nat) : Call String := do
  let outcome ← Fallible.attempt (service.resolvePublicKey caller)
  let record_outcome : Outcome :=
    match outcome with
    | .ok address => .Signed (service.digest address) ""
    | .error error => refusalOutcome error
  let registration := service.registry.lookup caller.subject
  writeAudit {
    at_time := now, request_id, subject := some caller.subject, token_id := some caller.token_id
    key := registration.map fun r => r.key.text
    policy := registration.map Registration.policy
    operation := .PublicKey, request := RequestSummary.default, outcome := record_outcome }
  Fallible.ofExcept outcome

/-- `sign_transaction` -/
def signTransaction (caller : Caller) (request : SignTransactionRequest) (request_id : String)
    (now : Nat) : Call String := do
  let registration ← Fallible.ofExcept (service.resolve caller.subject)
  let policy ← Fallible.ofExcept (service.policyFor registration)
  let summary := { RequestSummary.default with
    network := some request.network_passphrase
    envelope_sha256 := some (service.digest request.xdr) }
  match inspectTransaction service.codec request.xdr policy.unknown_calls with
  | .error error =>
      refuse caller registration .SignTransaction summary error request_id now
  | .ok (transaction, inspected) =>
      let total := saturatingSum (inspected.calls.flatMap InspectedCall.amounts)
      let summary := { summary with
        source_account := some inspected.source_account
        calls := inspected.calls.map (renderCall service.codec)
        total_amount_stroops := some (toString total) }
      let signing_address ← service.resolvePublicKey caller
      let decision := evaluateTransaction service.codec policy {
        transaction := inspected, network_passphrase := request.network_passphrase
        signing_address, now }
      let limited ← askCheck policy caller.subject total now
      let decision : Decision :=
        match limited with
        | some violation => decision.merge violation
        | none => decision
      match decision with
      | .Deny violations =>
          refuse caller registration .SignTransaction summary (.policy violations) request_id now
      | .Allow =>
          let payload ← Fallible.ofExcept
            (service.transactionSigningPayload transaction request.network_passphrase)
          Fallible.ofExcept
            ((service.backend registration.key).mapError BackendError.toServiceError)
          let answer ← askSign registration.key payload
          let signature ← Fallible.ofExcept (answer.mapError BackendError.toServiceError)
          let public_key ← Fallible.ofExcept
            (match service.codec.publicKeyOfText signing_address with
            | some public_key => .ok public_key
            | none => .error (.new .Internal "the signing address is unusable"))
          let signed_xdr ← Fallible.ofExcept
            (attachSignature service.codec request.xdr public_key signature)
          writeAudit (pendingRecord caller registration .SignTransaction summary request_id now
            (.Signed (hexEncode payload.bytes) (hexEncode signature.bytes)))
          askCommit policy caller.subject total now
          return signed_xdr

/-- `sign_auth_entry` -/
def signAuthEntry (caller : Caller) (request : SignAuthEntryRequest) (request_id : String)
    (now : Nat) : Call String := do
  let registration ← Fallible.ofExcept (service.resolve caller.subject)
  let policy ← Fallible.ofExcept (service.policyFor registration)
  let summary := { RequestSummary.default with
    network := some request.network_passphrase
    envelope_sha256 := some (service.digest request.auth_entry_xdr) }
  match inspectAuthEntry service.codec request.auth_entry_xdr policy.unknown_calls with
  | .error error =>
      refuse caller registration .SignAuthEntry summary error request_id now
  | .ok (entry, inspected) =>
      let total := saturatingSum (inspected.call.toList.flatMap InspectedCall.amounts)
      let summary := { summary with
        source_account := some inspected.address
        calls := inspected.call.toList.map (renderCall service.codec)
        total_amount_stroops := some (toString total) }
      -- The caller's claimed ledger goes into the estimate.
      let requested := request.valid_until_ledger_seq
      let claimed_now := requested - policy.max_auth_validity_ledgers
      let observed ← askObserve claimed_now
      let decision : Decision :=
        match observed with
        | .ok () => .Allow
        | .error ceiling => .Deny [⟨"auth_validity", "validUntilLedgerSeq " ++
            toString requested ++ " implies a current ledger beyond the permitted " ++
            toString ceiling ++ "; this service advances its ledger estimate in bounded steps"⟩]
      let signing_address ← service.resolvePublicKey caller
      let current_ledger ← askCurrentLedger
      let policy_decision := evaluateAuthEntry service.codec policy {
        entry := inspected, network_passphrase := request.network_passphrase
        signing_address, requested_valid_until := requested, current_ledger, now }
      let decision := policy_decision.violations.foldl Decision.merge decision
      let limited ← askCheck policy caller.subject total now
      let decision : Decision :=
        match limited with
        | some violation => decision.merge violation
        | none => decision
      match decision with
      | .Deny violations =>
          refuse caller registration .SignAuthEntry summary (.policy violations) request_id now
      | .Allow =>
          let payload ← Fallible.ofExcept
            (service.authEntrySigningPayload entry request.network_passphrase requested)
          Fallible.ofExcept
            ((service.backend registration.key).mapError BackendError.toServiceError)
          let answer ← askSign registration.key payload
          let signature ← Fallible.ofExcept (answer.mapError BackendError.toServiceError)
          let public_key ← Fallible.ofExcept
            (match service.codec.publicKeyOfText signing_address with
            | some public_key => .ok public_key
            | none => .error (.new .Internal "the signing address is unusable"))
          let signed_auth_entry_xdr ← Fallible.ofExcept
            (attachToEntry service.codec entry requested public_key signature)
          writeAudit (pendingRecord caller registration .SignAuthEntry summary request_id now
            (.Signed (hexEncode payload.bytes) (hexEncode signature.bytes)))
          askCommit policy caller.subject total now
          return signed_auth_entry_xdr

end Service

/-! ## The state that requests share -/

structure ServiceState where
  audit : AuditLog
  rate_limits : RateLimitState
  clock : RatchetingClock

/-- What the backends and the sink of the audit log answer to one operation. -/
structure Outside where
  public_key : Except BackendError (BytesN 32)
  signature : Except BackendError (BytesN 64)
  written : Except String Unit

/-- One operation, done at once. -/
def Service.execute (service : Service) (state : ServiceState) :
    (op : ServiceOp) → Outside → Answer op × ServiceState
  | .public_key _, outside => (outside.public_key, state)
  | .sign _ _, outside => (outside.signature, state)
  | .record pending, outside =>
      (outside.written,
        let audit := state.audit.after service.codec.sha256 (.record pending outside.written)
        { state with audit })
  | .check policy subject amount now, _ =>
      (state.rate_limits.check policy subject amount now, state)
  | .commit policy subject amount now, _ =>
      ((), { state with rate_limits := state.rate_limits.commit policy subject amount now })
  | .observe claimed, _ =>
      let (answer, clock) := state.clock.observe claimed
      (answer, { state with clock })
  | .current_ledger, _ => (state.clock.state, state)

end StellarAgent.Signer
