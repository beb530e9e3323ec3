import StellarAgent.Lib.Monitors
import StellarAgent.Signer.Auth
import StellarAgent.Signer.Concurrency

set_option autoImplicit false

/-! # The front door of the signing service

`services/signer/src/http.rs`: a request names no key and no identity. It presents a token, and all
that is done for it is done for the identity which that token authenticates (`requests_attributed`);
without one it gets the same answer from every service, and leaves one record behind that names
nobody (`unknown_caller_refused`).

Of the headers a request has, the handlers read two. Their request ids, where a caller sends none,
are random tokens, which come with the request here. A body is parsed by `serde_json`.
-/

namespace StellarAgent.Signer

open Lib Soroban

/-! ## Requests and responses -/

/-- The first value of each header that is read. -/
structure Headers where
  authorization : Option Bytes
  x_request_id : Option Bytes

structure HttpRequest where
  operation : Operation
  headers : Headers
  body : Bytes
  /-- `now()` -/
  now : Nat
  /-- `generate_token()` -/
  generated : String

/-- The service behind the router, with its credentials. -/
structure FrontDoor where
  service : Service
  tokens : TokenStore
  parseTransaction : Bytes → Except String SignTransactionRequest
  parseAuthEntry : Bytes → Except String SignAuthEntryRequest

/-- `HeaderValue::to_str` -/
def headerText (value : Bytes) : Option (List Char) :=
  if value.all fun b => (32 ≤ b && b < 127) || b = 9 then
    some (value.map fun b => Char.ofNat b.toNat)
  else none

/-- The characters that a request id keeps. -/
def isIdChar (c : Char) : Bool := c.isAlphanum || c = '-' || c = '_' || c = '.'

/-- `request_id` -/
def requestId (headers : Headers) (generated : String) : String :=
  match headers.x_request_id.bind headerText with
  | none => generated
  | some text =>
      let value := (text.filter isIdChar).take 64
      if value.isEmpty then generated else String.ofList value

/-- `RefusalReason::status` -/
def RefusalReason.status : RefusalReason → Nat
  | .Unauthenticated => 401
  | .CredentialRejected => 401
  | .NoKeyForSubject => 403
  | .PolicyViolation => 403
  | .MalformedRequest => 400
  | .MalformedEnvelope => 400
  | .Uninspectable => 422
  | .BackendUnavailable => 503
  | .AuditUnavailable => 503
  | .Internal => 500

/-- `ErrorBody`, with its status -/
structure ErrorResponse where
  status : Nat
  error : String
  reason : String
  violations : List Violation
  deriving DecidableEq

/-- `ServiceError::into_response` -/
def ServiceError.intoResponse (error : ServiceError) : ErrorResponse where
  status := error.reason.status
  error := if error.reason = .Internal then "internal error" else error.message
  reason := error.reason.asStr
  violations := error.violations

/-! ## The handlers -/

/-- What `record_unauthenticated` records. -/
def anonymousRecord (operation : Operation) (request_id : String) (error : ServiceError)
    (now : Nat) : PendingRecord where
  at_time := now
  request_id
  subject := none
  token_id := none
  key := none
  policy := none
  operation
  request := RequestSummary.default
  outcome := refusalOutcome error

/-- `record_unauthenticated`, and the refusal it goes with. A record that cannot be written does not
fail the request. -/
def recordUnauthenticated {α : Type} (operation : Operation) (request_id : String)
    (error : ServiceError) (now : Nat) : Call α := do
  let _ ← askRecord (anonymousRecord operation request_id error now)
  throw error

def bearerRequired : ServiceError := .new .Unauthenticated "a bearer token is required"

/-- The token that a request presents. -/
def presentedToken (headers : Headers) : Option String :=
  (headers.authorization.bind headerText).bind bearerToken

/-- `parse_body` -/
def parseBody {α : Type} (parse : Bytes → Except String α) (body : Bytes) :
    Except ServiceError α :=
  match parse body with
  | .ok request => .ok request
  | .error error => .error (.new .MalformedRequest
      ("the request body does not match the protocol: " ++ error))

namespace FrontDoor

variable (door : FrontDoor)

/-- Who presents these headers -/
def identify (headers : Headers) (now : Nat) : Except ServiceError Caller :=
  match presentedToken headers with
  | none => .error bearerRequired
  | some token =>
      match door.tokens.authenticate door.service.codec.sha256 token now with
      | .error error => .error error
      | .ok record => .ok ⟨record.subject, record.id⟩

/-- `authenticate` -/
def authenticate (headers : Headers) (operation : Operation) (request_id : String) (now : Nat) :
    Call Caller :=
  match door.identify headers now with
  | .ok caller => pure caller
  | .error error => recordUnauthenticated operation request_id error now

/-- The body of a request, parsed. -/
def parse (request : HttpRequest) : Except ServiceError SignerRequest :=
  match request.operation with
  | .PublicKey => .ok .public_key
  | .SignTransaction =>
      (parseBody door.parseTransaction request.body).map SignerRequest.sign_transaction
  | .SignAuthEntry => (parseBody door.parseAuthEntry request.body).map SignerRequest.sign_auth_entry

/-- `public_key`, `sign_transaction` and `sign_auth_entry`: the response, without its request id -/
def serve (request : HttpRequest) : Call String := do
  let id := requestId request.headers request.generated
  let caller ← door.authenticate request.headers request.operation id request.now
  match door.parse request with
  | .ok parsed => door.service.handle ⟨caller, id, request.now⟩ parsed
  | .error error => recordUnauthenticated request.operation id error request.now

/-- The threads of some requests, before any has started. -/
def start {ι : Type} (state : ServiceState) (requests : ι → HttpRequest) : ServiceThreads ι where
  shared := state
  thread := fun i => (door.serve (requests i)).run

end FrontDoor

/-! ## For whom a request acts -/

/-- What is done for a caller: it is about the key that is registered for them, and about their
budget, and recorded under their name. -/
def ForCaller (service : Service) (caller : Caller) (request_id : String) : ServiceOp → Prop
  | .public_key key => ∃ registration, service.resolve caller.subject = .ok registration ∧
      registration.key = key
  | .sign key _ => ∃ registration, service.resolve caller.subject = .ok registration ∧
      registration.key = key
  | .record pending => pending.subject = some caller.subject ∧
      pending.token_id = some caller.token_id ∧ pending.request_id = request_id
  | .check _ subject _ _ => subject = caller.subject
  | .commit _ subject _ _ => subject = caller.subject
  | .observe _ => True
  | .current_ledger => True

section

variable {service : Service} {caller : Caller} {request_id : String} {now : Nat}
  {registration : Registration}

/-- The program asks only for the caller. -/
abbrev Serves {α : Type} (service : Service) (caller : Caller) (request_id : String)
    (program : Call α) : Prop :=
  Fallible.Under (Monitor.only (ForCaller service caller request_id)) program (fun _ _ => True) ()

theorem serves_bind {α β : Type} {program : Call α} {next : α → Call β}
    (h : Serves service caller request_id program)
    (hnext : ∀ a, Serves service caller request_id (next a)) :
    Serves service caller request_id (program >>= next) :=
  Fallible.under_bind (h.imp fun a _ _ => hnext a)

theorem serves_ofExcept_bind {α β : Type} {value : Except ServiceError α} {next : α → Call β}
    (hnext : ∀ a, value = .ok a → Serves service caller request_id (next a)) :
    Serves service caller request_id (Fallible.ofExcept value >>= next) :=
  Fallible.under_bind (Fallible.under_ofExcept hnext)

theorem serves_ask {op : ServiceOp} (h : ForCaller service caller request_id op) :
    Serves service caller request_id (Fallible.perform op) :=
  Fallible.under_perform h fun _ _ _ => trivial

theorem serves_writeAudit {pending : PendingRecord}
    (h : ForCaller service caller request_id (.record pending)) :
    Serves service caller request_id (writeAudit pending) := by
  refine serves_bind (serves_ask h) fun written => ?_
  cases written with
  | ok _ => exact Fallible.under_pure trivial
  | error _ => exact Fallible.under_throw

theorem serves_refuse {α : Type} {operation : Operation} {summary : RequestSummary}
    {error : ServiceError} : Serves service caller request_id
      (refuse caller registration operation summary error request_id now : Call α) :=
  serves_bind (serves_writeAudit ⟨rfl, rfl, rfl⟩) fun _ => Fallible.under_throw

theorem serves_resolvePublicKey :
    Serves service caller request_id (service.resolvePublicKey caller) := by
  refine serves_ofExcept_bind fun registration hresolve => serves_ofExcept_bind fun _ _ => ?_
  refine serves_bind (serves_ask ⟨registration, hresolve, rfl⟩) fun answer => ?_
  exact serves_ofExcept_bind fun _ _ => Fallible.under_pure trivial

theorem serves_publicKey :
    Serves service caller request_id (service.publicKey caller request_id now) := by
  refine serves_bind (Fallible.under_attempt ?_) fun outcome => ?_
  · exact Program.Under.imp serves_resolvePublicKey fun _ _ _ => trivial
  · refine serves_bind (serves_writeAudit ⟨rfl, rfl, rfl⟩) fun _ => ?_
    exact Fallible.under_ofExcept fun _ _ => trivial

/-- The end of both signing paths: the key that is registered signs, it is recorded, and the
budget is taken. -/
theorem serves_sign {policy : Policy} {total : Int} {operation : Operation}
    {summary : RequestSummary} {address : String} {payload : Except ServiceError (BytesN 32)}
    {attach : BytesN 32 → BytesN 64 → Except ServiceError String}
    (hresolve : service.resolve caller.subject = .ok registration) :
    Serves service caller request_id (do
      let payload ← Fallible.ofExcept payload
      Fallible.ofExcept
        ((service.backend registration.key).mapError BackendError.toServiceError)
      let answer ← askSign registration.key payload
      let signature ← Fallible.ofExcept (answer.mapError BackendError.toServiceError)
      let public_key ← Fallible.ofExcept
        (match service.codec.publicKeyOfText address with
        | some public_key => .ok public_key
        | none => .error (.new .Internal "the signing address is unusable"))
      let signed ← Fallible.ofExcept (attach public_key signature)
      writeAudit (pendingRecord caller registration operation summary request_id now
        (.Signed (hexEncode payload.bytes) (hexEncode signature.bytes)))
      askCommit policy caller.subject total now
      return signed : Call String) := by
  refine serves_ofExcept_bind fun payload _ => serves_ofExcept_bind fun _ _ => ?_
  refine serves_bind (serves_ask ⟨registration, hresolve, rfl⟩) fun answer => ?_
  refine serves_ofExcept_bind fun signature _ => serves_ofExcept_bind fun public_key _ => ?_
  refine serves_ofExcept_bind fun signed _ => ?_
  refine serves_bind (serves_writeAudit ⟨rfl, rfl, rfl⟩) fun _ => ?_
  refine serves_bind (serves_ask rfl) fun _ => ?_
  exact Fallible.under_pure trivial

theorem serves_signTransaction {request : SignTransactionRequest} : Serves service caller request_id
    (service.signTransaction caller request request_id now) := by
  refine serves_ofExcept_bind fun registration hresolve => serves_ofExcept_bind fun policy _ => ?_
  cases inspectTransaction service.codec request.xdr policy.unknown_calls with
  | error error => exact serves_refuse
  | ok found =>
      refine serves_bind serves_resolvePublicKey fun address => ?_
      refine serves_bind (serves_ask rfl) fun limited => ?_
      dsimp only
      split
      · exact serves_refuse
      · exact serves_sign hresolve

theorem serves_signAuthEntry {request : SignAuthEntryRequest} : Serves service caller request_id
    (service.signAuthEntry caller request request_id now) := by
  refine serves_ofExcept_bind fun registration hresolve => serves_ofExcept_bind fun policy _ => ?_
  cases inspectAuthEntry service.codec request.auth_entry_xdr policy.unknown_calls with
  | error error => exact serves_refuse
  | ok found =>
      refine serves_bind (serves_ask trivial) fun observed => ?_
      refine serves_bind serves_resolvePublicKey fun address => ?_
      refine serves_bind (serves_ask trivial) fun current_ledger => ?_
      refine serves_bind (serves_ask rfl) fun limited => ?_
      dsimp only
      split
      · exact serves_refuse
      · exact serves_sign hresolve

/-- **A request acts for its caller only.** -/
theorem serves_handle (arrival : Arrival) (request : SignerRequest) :
    Serves service arrival.caller arrival.request_id (service.handle arrival request) := by
  cases request with
  | public_key => exact serves_publicKey
  | sign_transaction request => exact serves_signTransaction
  | sign_auth_entry request => exact serves_signAuthEntry

end

/-- What a request can make the service do: to act for the identity of a configured credential whose
token it presents, while this is valid; or to record, under nobody's name, that it was refused. -/
inductive Attributed (door : FrontDoor) (records : List TokenRecord) (request : HttpRequest) :
    ServiceOp → Prop
  | caller {token : String} {record : TokenRecord} {op : ServiceOp}
      (presented : presentedToken request.headers = some token) (configured : record ∈ records)
      (hashed : record.token_sha256 = tokenHash door.service.codec.sha256 token)
      (valid : record.isValidAt request.now = true)
      (acts : ForCaller door.service ⟨record.subject, record.id⟩
        (requestId request.headers request.generated) op) :
      Attributed door records request op
  | nobody (error : ServiceError) : Attributed door records request (.record (anonymousRecord
      request.operation (requestId request.headers request.generated) error request.now))

/-- A request id that can be written anywhere. -/
def SafeId (id : String) : Prop := id.toList.length ≤ 64 ∧ ∀ c ∈ id.toList, isIdChar c = true

/-- What a request without a valid credential is refused with, if its token is not known. -/
def strangerError (headers : Headers) : ServiceError :=
  if (presentedToken headers).isSome then unknownCredential else bearerRequired

section

variable {door : FrontDoor} {records : List TokenRecord} {request : HttpRequest}

/-- A caller's request id is cut down to what is safe. -/
theorem requestId_safe {headers : Headers} {generated : String} :
    requestId headers generated = generated ∨ SafeId (requestId headers generated) := by
  unfold requestId
  cases headers.x_request_id.bind headerText with
  | none => exact .inl rfl
  | some text =>
      dsimp only
      split_ifs with hempty
      · exact .inl rfl
      · refine .inr ⟨?_, fun c hc => ?_⟩
        · rw [String.toList_ofList]
          exact List.length_take_le 64 _
        · rw [String.toList_ofList] at hc
          exact (List.mem_filter.mp (List.mem_of_mem_take hc)).2

theorem recordUnauthenticated_under {α : Type} {error : ServiceError} {post : α → Unit → Prop} :
    Fallible.Under (Monitor.only (Attributed door records request))
      (recordUnauthenticated request.operation (requestId request.headers request.generated) error
        request.now) post () :=
  Fallible.under_bind (Fallible.under_perform (.nobody error) fun _ _ _ => Fallible.under_throw)

theorem recordUnauthenticated_trace {α β : Type} {operation : Operation} {id : String}
    {error : ServiceError} {now : Nat} {next : α → Call β} {es : List ServiceEvent}
    {response : Except ServiceError β} :
    Fallible.Trace (recordUnauthenticated operation id error now >>= next) es response ↔
      response = .error error ∧ ∃ written,
        es = [recordEvent (anonymousRecord operation id error now) written] := by
  unfold recordUnauthenticated
  rw [bind_assoc]
  refine askRecord_trace.trans ?_
  constructor
  · rintro ⟨written, rest, rfl, h⟩
    obtain ⟨rfl, rfl⟩ := Fallible.trace_throw.mp h
    exact ⟨rfl, written, rfl⟩
  · rintro ⟨rfl, written, rfl⟩
    exact ⟨written, [], rfl, Fallible.trace_throw.mpr ⟨rfl, rfl⟩⟩

/-- Who is identified presents the token of a configured credential that is valid. -/
theorem identify_ok (htokens : TokenStore.new records = .ok door.tokens) {caller : Caller}
    (h : door.identify request.headers request.now = .ok caller) :
    ∃ token record, presentedToken request.headers = some token ∧ record ∈ records ∧
      record.token_sha256 = tokenHash door.service.codec.sha256 token ∧
      record.isValidAt request.now = true ∧ caller = ⟨record.subject, record.id⟩ := by
  unfold FrontDoor.identify at h
  cases htoken : presentedToken request.headers with
  | none =>
      rw [htoken] at h
      cases h
  | some token =>
      rw [htoken] at h
      dsimp only at h
      cases hrecord : door.tokens.authenticate door.service.codec.sha256 token request.now with
      | error error =>
          rw [hrecord] at h
          cases h
      | ok record =>
          rw [hrecord] at h
          obtain ⟨hmem, hhash, hvalid⟩ := (authenticate_configured htokens).mp hrecord
          exact ⟨token, record, rfl, hmem, hhash, hvalid, (Except.ok.inj h).symm⟩

theorem serve_under (htokens : TokenStore.new records = .ok door.tokens) :
    Fallible.Under (Monitor.only (Attributed door records request)) (door.serve request)
      (fun _ _ => True) () := by
  unfold FrontDoor.serve FrontDoor.authenticate
  refine Fallible.under_bind ?_
  cases hidentify : door.identify request.headers request.now with
  | error error => exact recordUnauthenticated_under
  | ok caller =>
      obtain ⟨token, record, htoken, hmem, hhash, hvalid, rfl⟩ := identify_ok htokens hidentify
      refine Fallible.under_pure ?_
      cases door.parse request with
      | error error => exact recordUnauthenticated_under
      | ok parsed =>
          refine Program.Under.weaken (fun op hop => ?_) (serves_handle _ parsed)
          exact .caller htoken hmem hhash hvalid hop

theorem identify_unknown (htokens : TokenStore.new records = .ok door.tokens)
    (hunknown : ∀ token record, presentedToken request.headers = some token → record ∈ records →
      toAsciiLowercase record.token_sha256 ≠ tokenHash door.service.codec.sha256 token) :
    door.identify request.headers request.now = .error (strangerError request.headers) := by
  unfold FrontDoor.identify strangerError
  cases htoken : presentedToken request.headers with
  | none => rfl
  | some token =>
      have hnone : door.tokens.by_hash.lookup (tokenHash door.service.codec.sha256 token)
          = none := by
        refine Option.eq_none_iff_forall_ne_some.mpr fun record hrecord => ?_
        obtain ⟨hmem, hhash⟩ := (lookup_new htokens).mp hrecord
        exact hunknown token record htoken hmem hhash
      unfold TokenStore.authenticate
      dsimp only
      rw [hnone]
      rfl

end

/-! A service with one identity, whose credential is the hash of the token "secret". -/

section

def sampleToken : TokenRecord where
  id := "token-1"
  subject := "agent"
  token_sha256 := hexEncode (digestOf 1).bytes
  label := "test"
  expires_at := some 1800000000
  revoked_at := none

def sampleTokens : TokenStore := (TokenStore.new [sampleToken]).toOption.getD TokenStore.empty

theorem sampleTokens_eq : TokenStore.new [sampleToken] = .ok sampleTokens := by
  have hloads : ∃ store, TokenStore.new [sampleToken] = .ok store :=
    (foldlM_isOk [sampleToken]).mpr ⟨by decide +kernel, List.nodup_singleton _, by
      intro record _
      rfl⟩
  obtain ⟨store, hnew⟩ := hloads
  rw [sampleTokens, hnew]
  rfl

def sampleDoor : FrontDoor where
  service := { sampleService sampleEntry with
    codec := { (sampleService sampleEntry).codec with
      sha256 := hashKnowing (utf8 "secret".toList) } }
  tokens := sampleTokens
  parseTransaction := fun _ => .ok ⟨"AAAA", "Test SDF Network ; September 2015"⟩
  parseAuthEntry := fun _ => .error "not an entry"

/-- A request to sign a transaction, with this token. -/
def sampleRequest (token : String) : HttpRequest where
  operation := .SignTransaction
  headers := ⟨some (utf8 ("Bearer " ++ token).toList), some (utf8 "req 1".toList)⟩
  body := []
  now := 1700000000
  generated := "generated"

def signedRequest :=
  Interleaved.follow sampleDoor.service.execute
    (sampleDoor.start sampleState fun _ : Unit => sampleRequest "secret")
    (List.replicate 5 ((), sampleOutside))

end

section

variable {door : FrontDoor} {records : List TokenRecord} {request : HttpRequest}

/-- **Without a known token nothing is learnt.** A request with no bearer token, or with one that no
credential is for, is answered with 401 and the same words by every service, whatever it is configured
with. It asks nothing but one record, and that names nobody. -/
theorem unknown_caller_refused (htokens : TokenStore.new records = .ok door.tokens)
    (hunknown : ∀ token record, presentedToken request.headers = some token → record ∈ records →
      toAsciiLowercase record.token_sha256 ≠ tokenHash door.service.codec.sha256 token) :
    (strangerError request.headers).intoResponse.status = 401 ∧
    ∀ es response, Fallible.Trace (door.serve request) es response ↔
      response = .error (strangerError request.headers) ∧ ∃ written,
        es = [recordEvent (anonymousRecord request.operation
          (requestId request.headers request.generated) (strangerError request.headers)
          request.now) written] := by
  refine ⟨?_, fun es response => ?_⟩
  · unfold strangerError
    split_ifs
    · rfl
    · rfl
  have hrefused : door.authenticate request.headers request.operation
      (requestId request.headers request.generated) request.now =
        recordUnauthenticated request.operation (requestId request.headers request.generated)
          (strangerError request.headers) request.now := by
    unfold FrontDoor.authenticate
    rw [identify_unknown htokens hunknown]
  show Fallible.Trace (door.authenticate request.headers request.operation
    (requestId request.headers request.generated) request.now >>= _) es response ↔ _
  rw [hrefused]
  exact recordUnauthenticated_trace

theorem unknown_caller_refused_guess : (strangerError (sampleRequest "guess").headers
    ).intoResponse = ⟨401, "unknown or missing credential", "unauthenticated", []⟩ ∧
    ∀ es response, Fallible.Trace (sampleDoor.serve (sampleRequest "guess")) es response →
      response = .error (strangerError (sampleRequest "guess").headers) := by
  have htoken : presentedToken (sampleRequest "guess").headers = some "guess" := by decide +kernel
  have hunknown : ∀ token record, presentedToken (sampleRequest "guess").headers = some token →
      record ∈ [sampleToken] → toAsciiLowercase record.token_sha256
        ≠ tokenHash sampleDoor.service.codec.sha256 token := by
    intro token record hpresented hmem
    obtain rfl := Option.some.inj (htoken.symm.trans hpresented)
    obtain rfl := List.mem_singleton.mp hmem
    decide +kernel
  refine ⟨by decide +kernel, fun es response h => ?_⟩
  exact (((unknown_caller_refused sampleTokens_eq hunknown).2 es response).mp h).1

end

end StellarAgent.Signer
