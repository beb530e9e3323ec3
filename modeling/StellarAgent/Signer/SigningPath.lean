import StellarAgent.Signer.Service

set_option autoImplicit false

/-! # The one path of a signing request

`sign_transaction` and `sign_auth_entry` take the same path: resolve the key and the policy,
decode, decide, sign, record, commit. They differ in what they decode, and in that an
authorization entry asks the ledger clock before the decision. `SigningPlan` is what they differ
in, and `SigningPlan.run` is the path.

`PathTrace` lists the ends of the path with what has been asked by then (`path_trace`); every
result about the two functions is read off that list.
-/

namespace StellarAgent.Signer

open Lib Soroban

/-! ## The path -/

/-- A decoded request. -/
structure Decoded where
  /-- the account or the address that the request is for -/
  source_account : String
  calls : List InspectedCall
  /-- the decision before the key is known -/
  observe : Program ServiceOp Answer Decision
  /-- the decision of the policy, after the one before and given the signing address -/
  evaluate : Decision → String → Program ServiceOp Answer Decision
  payload : Except ServiceError (BytesN 32)
  attach : BytesN 32 → BytesN 64 → Except ServiceError String

/-- The amount that the rate limits count. -/
def Decoded.total (decoded : Decoded) : Int :=
  saturatingSum (decoded.calls.flatMap InspectedCall.amounts)

/-- What the two signing functions differ in. -/
structure SigningPlan where
  operation : Operation
  network_passphrase : String
  xdr : String
  decode : Policy → Except ServiceError Decoded

/-- The decision after the rate limits' answer. -/
def Decision.limit (decision : Decision) : Option Violation → Decision
  | some violation => decision.merge violation
  | none => decision

/-- An authenticated request. -/
structure Arrival where
  caller : Caller
  request_id : String
  now : Nat

section

variable (service : Service) (plan : SigningPlan) (arrival : Arrival)

/-- The summary before the request is decoded. -/
def SigningPlan.summary : RequestSummary :=
  { RequestSummary.default with
    network := some plan.network_passphrase
    envelope_sha256 := some (service.digest plan.xdr) }

def SigningPlan.summaryOf (decoded : Decoded) : RequestSummary :=
  { plan.summary service with
    source_account := some decoded.source_account
    calls := decoded.calls.map (renderCall service.codec)
    total_amount_stroops := some (toString decoded.total) }

/-- The public key of the signing address. -/
def Service.signingKey (address : String) : Except ServiceError (BytesN 32) :=
  match service.codec.publicKeyOfText address with
  | some public_key => .ok public_key
  | none => .error (.new .Internal "the signing address is unusable")

/-- The record of a signature. -/
def SigningPlan.signedRecord (registration : Registration) (decoded : Decoded)
    (payload : BytesN 32) (signature : BytesN 64) : PendingRecord :=
  pendingRecord arrival.caller registration plan.operation (plan.summaryOf service decoded)
    arrival.request_id arrival.now (.Signed (hexEncode payload.bytes) (hexEncode signature.bytes))

/-- The path from the decision on. -/
def SigningPlan.signAndRecord (registration : Registration) (policy : Policy) (decoded : Decoded)
    (signing_address : String) : Call String := do
  let payload ← Fallible.ofExcept decoded.payload
  Fallible.ofExcept ((service.backend registration.key).mapError BackendError.toServiceError)
  let answer ← askSign registration.key payload
  let signature ← Fallible.ofExcept (answer.mapError BackendError.toServiceError)
  let public_key ← Fallible.ofExcept (service.signingKey signing_address)
  let signed ← Fallible.ofExcept (decoded.attach public_key signature)
  writeAudit (plan.signedRecord service arrival registration decoded payload signature)
  askCommit policy arrival.caller.subject decoded.total arrival.now
  return signed

/-- **The path of a signing request.** -/
def SigningPlan.run : Call String := do
  let registration ← Fallible.ofExcept (service.resolve arrival.caller.subject)
  let policy ← Fallible.ofExcept (service.policyFor registration)
  match plan.decode policy with
  | .error error =>
      refuse arrival.caller registration plan.operation (plan.summary service) error
        arrival.request_id arrival.now
  | .ok decoded =>
      let observed ← ExceptT.lift decoded.observe
      let signing_address ← service.resolvePublicKey arrival.caller
      let decision ← ExceptT.lift (decoded.evaluate observed signing_address)
      let limited ← askCheck policy arrival.caller.subject decoded.total arrival.now
      match decision.limit limited with
      | .Deny violations =>
          refuse arrival.caller registration plan.operation (plan.summaryOf service decoded)
            (.policy violations) arrival.request_id arrival.now
      | .Allow => plan.signAndRecord service arrival registration policy decoded signing_address

end

/-! ## The two plans -/

section

variable (service : Service) (now : Nat)

/-- The decoded transaction of `sign_transaction`. -/
def decodedTransaction (request : SignTransactionRequest) (policy : Policy)
    (transaction : Transaction) (inspected : InspectedTransaction) : Decoded where
  source_account := inspected.source_account
  calls := inspected.calls
  observe := .ret .Allow
  evaluate := fun _ signing_address => .ret (evaluateTransaction service.codec policy {
    transaction := inspected, network_passphrase := request.network_passphrase
    signing_address, now })
  payload := service.transactionSigningPayload transaction request.network_passphrase
  attach := attachSignature service.codec request.xdr

def transactionPlan (request : SignTransactionRequest) : SigningPlan where
  operation := .SignTransaction
  network_passphrase := request.network_passphrase
  xdr := request.xdr
  decode := fun policy =>
    match inspectTransaction service.codec request.xdr policy.unknown_calls with
    | .error error => .error error
    | .ok (transaction, inspected) =>
        .ok (decodedTransaction service now request policy transaction inspected)

/-- The ledger that a request claims to be the current one. -/
def SignAuthEntryRequest.claimedNow (request : SignAuthEntryRequest) (policy : Policy) : Nat :=
  request.valid_until_ledger_seq - policy.max_auth_validity_ledgers

/-- The decision on the claimed ledger. -/
def SignAuthEntryRequest.observed (request : SignAuthEntryRequest) :
    Except Nat Unit → Decision
  | .ok () => .Allow
  | .error ceiling => .Deny [⟨"auth_validity", "validUntilLedgerSeq " ++
      toString request.valid_until_ledger_seq ++ " implies a current ledger beyond the permitted " ++
      toString ceiling ++ "; this service advances its ledger estimate in bounded steps"⟩]

/-- The decoded entry of `sign_auth_entry`. -/
def decodedAuthEntry (request : SignAuthEntryRequest) (policy : Policy)
    (entry : SorobanAuthorizationEntry) (inspected : InspectedAuthEntry) : Decoded where
  source_account := inspected.address
  calls := inspected.call.toList
  observe := .ask (.observe (request.claimedNow policy)) fun answer =>
    .ret (request.observed answer)
  evaluate := fun decision signing_address => .ask .current_ledger fun current_ledger =>
    let policy_decision := evaluateAuthEntry service.codec policy {
      entry := inspected, network_passphrase := request.network_passphrase
      signing_address, requested_valid_until := request.valid_until_ledger_seq
      current_ledger, now }
    .ret (policy_decision.violations.foldl Decision.merge decision)
  payload := service.authEntrySigningPayload entry request.network_passphrase
    request.valid_until_ledger_seq
  attach := attachToEntry service.codec entry request.valid_until_ledger_seq

def authEntryPlan (request : SignAuthEntryRequest) : SigningPlan where
  operation := .SignAuthEntry
  network_passphrase := request.network_passphrase
  xdr := request.auth_entry_xdr
  decode := fun policy =>
    match inspectAuthEntry service.codec request.auth_entry_xdr policy.unknown_calls with
    | .error error => .error error
    | .ok (entry, inspected) =>
        .ok (decodedAuthEntry service now request policy entry inspected)

end

section

variable {service : Service} {now : Nat} {policy : Policy} {es : List ServiceEvent}
  {observed decision : Decision} {address : String}

theorem decodedTransaction_observe {request : SignTransactionRequest} {transaction : Transaction}
    {inspected : InspectedTransaction} :
    (decodedTransaction service now request policy transaction inspected).observe.Trace es
      decision ↔ es = [] ∧ decision = .Allow :=
  Program.trace_ret

theorem decodedTransaction_evaluate {request : SignTransactionRequest} {transaction : Transaction}
    {inspected : InspectedTransaction} :
    ((decodedTransaction service now request policy transaction inspected).evaluate observed
      address).Trace es decision ↔ es = [] ∧ decision = evaluateTransaction service.codec policy {
        transaction := inspected, network_passphrase := request.network_passphrase
        signing_address := address, now } :=
  Program.trace_ret

theorem decodedAuthEntry_observe {request : SignAuthEntryRequest}
    {entry : SorobanAuthorizationEntry} {inspected : InspectedAuthEntry} :
    (decodedAuthEntry service now request policy entry inspected).observe.Trace es decision ↔
      ∃ answer, es = [observeEvent (request.claimedNow policy) answer] ∧
        decision = request.observed answer := by
  refine Program.trace_ask.trans ?_
  constructor
  · rintro ⟨answer, rest, rfl, hrest⟩
    obtain ⟨rfl, rfl⟩ := Program.trace_ret.mp hrest
    exact ⟨answer, rfl, rfl⟩
  · rintro ⟨answer, rfl, rfl⟩
    exact ⟨answer, [], rfl, Program.trace_ret.mpr ⟨rfl, rfl⟩⟩

theorem decodedAuthEntry_evaluate {request : SignAuthEntryRequest}
    {entry : SorobanAuthorizationEntry} {inspected : InspectedAuthEntry} :
    ((decodedAuthEntry service now request policy entry inspected).evaluate observed address).Trace
      es decision ↔ ∃ current_ledger, es = [ledgerEvent current_ledger] ∧
        decision = (evaluateAuthEntry service.codec policy {
          entry := inspected, network_passphrase := request.network_passphrase
          signing_address := address, requested_valid_until := request.valid_until_ledger_seq
          current_ledger, now }).violations.foldl Decision.merge observed := by
  refine Program.trace_ask.trans ?_
  constructor
  · rintro ⟨current_ledger, rest, rfl, hrest⟩
    obtain ⟨rfl, rfl⟩ := Program.trace_ret.mp hrest
    exact ⟨current_ledger, rfl, rfl⟩
  · rintro ⟨current_ledger, rfl, rfl⟩
    exact ⟨current_ledger, [], rfl, Program.trace_ret.mpr ⟨rfl, rfl⟩⟩

end

section

variable {service : Service} {now : Nat} {policy : Policy} {decoded : Decoded}

theorem transactionPlan_decode {request : SignTransactionRequest} :
    (transactionPlan service now request).decode policy = .ok decoded ↔ ∃ tx inspected,
      inspectTransaction service.codec request.xdr policy.unknown_calls = .ok (tx, inspected) ∧
      decoded = decodedTransaction service now request policy tx inspected := by
  unfold transactionPlan
  dsimp only
  cases inspectTransaction service.codec request.xdr policy.unknown_calls with
  | error error => simp
  | ok result =>
      obtain ⟨tx, inspected⟩ := result
      simp [eq_comm]

theorem authEntryPlan_decode {request : SignAuthEntryRequest} :
    (authEntryPlan service now request).decode policy = .ok decoded ↔ ∃ entry inspected,
      inspectAuthEntry service.codec request.auth_entry_xdr policy.unknown_calls =
        .ok (entry, inspected) ∧
      decoded = decodedAuthEntry service now request policy entry inspected := by
  unfold authEntryPlan
  dsimp only
  cases inspectAuthEntry service.codec request.auth_entry_xdr policy.unknown_calls with
  | error error => simp
  | ok result =>
      obtain ⟨entry, inspected⟩ := result
      simp [eq_comm]

end

section

variable (service : Service) (caller : Caller) (request_id : String) (now : Nat)

/-- `sign_transaction` takes the path. -/
theorem signTransaction_eq (request : SignTransactionRequest) :
    service.signTransaction caller request request_id now =
      (transactionPlan service now request).run service ⟨caller, request_id, now⟩ := by
  unfold Service.signTransaction SigningPlan.run
  congr 1
  funext registration
  congr 1
  funext policy
  unfold transactionPlan
  dsimp only
  cases inspectTransaction service.codec request.xdr policy.unknown_calls with
  | error error => rfl
  | ok decoded => rfl

/-- `sign_auth_entry` takes the path. -/
theorem signAuthEntry_eq (request : SignAuthEntryRequest) :
    service.signAuthEntry caller request request_id now =
      (authEntryPlan service now request).run service ⟨caller, request_id, now⟩ := by
  unfold Service.signAuthEntry SigningPlan.run
  congr 1
  funext registration
  congr 1
  funext policy
  unfold authEntryPlan
  dsimp only
  cases inspectAuthEntry service.codec request.auth_entry_xdr policy.unknown_calls with
  | error error => rfl
  | ok decoded => rfl

end

/-! ## Requests -/

/-- A request with its body. -/
inductive SignerRequest where
  | public_key
  | sign_transaction (request : SignTransactionRequest)
  | sign_auth_entry (request : SignAuthEntryRequest)
  deriving DecidableEq

/-- The program of a request. -/
def Service.handle (service : Service) (arrival : Arrival) : SignerRequest → Call String
  | .public_key => service.publicKey arrival.caller arrival.request_id arrival.now
  | .sign_transaction request =>
      service.signTransaction arrival.caller request arrival.request_id arrival.now
  | .sign_auth_entry request =>
      service.signAuthEntry arrival.caller request arrival.request_id arrival.now

/-- The plan of a signing request. -/
def Service.plan (service : Service) (now : Nat) : SignerRequest → Option SigningPlan
  | .public_key => none
  | .sign_transaction request => some (transactionPlan service now request)
  | .sign_auth_entry request => some (authEntryPlan service now request)

theorem handle_eq {service : Service} {arrival : Arrival} {request : SignerRequest}
    {plan : SigningPlan} (hplan : service.plan arrival.now request = some plan) :
    service.handle arrival request = plan.run service arrival := by
  cases request with
  | public_key => cases hplan
  | sign_transaction request =>
      obtain rfl := Option.some.inj hplan
      exact signTransaction_eq service arrival.caller arrival.request_id arrival.now request
  | sign_auth_entry request =>
      obtain rfl := Option.some.inj hplan
      exact signAuthEntry_eq service arrival.caller arrival.request_id arrival.now request

/-! ## What the questions of the path are -/

section

variable {service : Service} {plan : SigningPlan} {arrival : Arrival} {caller : Caller}
  {registration : Registration} {policy : Policy} {decoded : Decoded} {address : String}
  {es : List ServiceEvent} {result : Except ServiceError String}

/-- What is answered to a request whose record was sent to the log. -/
def afterRecord (written : Except String Unit) (result : Except ServiceError String) :
    Except ServiceError String :=
  match written with
  | .ok () => result
  | .error error => .error (auditUnavailable error)

theorem writeAudit_trace {pending : PendingRecord} {f : Unit → Call String} :
    Fallible.Trace (writeAudit pending >>= f) es result ↔
      ∃ written rest, es = recordEvent pending written :: rest ∧
        match written with
        | .ok () => Fallible.Trace (f ()) rest result
        | .error error => rest = [] ∧ result = .error (auditUnavailable error) := by
  have hassoc : writeAudit pending >>= f = askRecord pending >>= fun written =>
      (match written with
      | .ok () => pure ()
      | .error error => throw (auditUnavailable error) : Call Unit) >>= f := rfl
  rw [hassoc, askRecord_trace]
  refine exists_congr (fun written => exists_congr (fun rest => and_congr_right (fun _ => ?_)))
  cases written with
  | ok _ => exact Iff.rfl
  | error error => exact Fallible.trace_throw

theorem refuse_trace {operation : Operation} {summary : RequestSummary} {error : ServiceError}
    {request_id : String} {now : Nat} :
    Fallible.Trace (refuse caller registration operation summary error request_id now) es result ↔
      ∃ written, es = [recordEvent (pendingRecord caller registration operation summary request_id
        now (refusalOutcome error)) written] ∧ result = afterRecord written (.error error) := by
  unfold refuse
  rw [writeAudit_trace]
  constructor
  · rintro ⟨written, rest, rfl, h⟩
    cases written with
    | ok _ =>
        obtain ⟨rfl, rfl⟩ := Fallible.trace_throw.mp h
        exact ⟨.ok (), rfl, rfl⟩
    | error e =>
        obtain ⟨rfl, rfl⟩ := h
        exact ⟨.error e, rfl, rfl⟩
  · rintro ⟨written, rfl, rfl⟩
    cases written with
    | ok _ => exact ⟨.ok (), [], rfl, Fallible.trace_throw.mpr ⟨rfl, rfl⟩⟩
    | error e => exact ⟨.error e, [], rfl, rfl, rfl⟩

/-- Resolving the public key asks the backend at most once. -/
theorem resolvePublicKey_trace (hresolve : service.resolve caller.subject = .ok registration) :
    Fallible.Trace (service.resolvePublicKey caller) es result ↔
      (∃ error, service.backend registration.key = .error error ∧ es = [] ∧
        result = .error error.toServiceError) ∨
      (service.backend registration.key = .ok () ∧ ∃ answer,
        es = [publicKeyEvent registration.key answer] ∧
          result = (answer.mapError BackendError.toServiceError).map
            service.codec.publicKeyText) := by
  unfold Service.resolvePublicKey
  rw [hresolve, Fallible.trace_ofExcept_bind]
  simp only [reduceCtorEq, false_and, exists_false, false_or, Except.ok.injEq, exists_eq_left']
  rw [Fallible.trace_ofExcept_bind]
  cases hbackend : service.backend registration.key with
  | error error => simp [Except.mapError]
  | ok _ =>
      simp only [Except.mapError, reduceCtorEq, false_and, exists_false, false_or, true_and,
        exists_const]
      rw [askPublicKey_trace]
      constructor
      · rintro ⟨answer, rest, rfl, h⟩
        obtain ⟨rfl, rfl⟩ := Fallible.trace_ofExcept_map.mp h
        exact ⟨answer, rfl, rfl⟩
      · rintro ⟨answer, rfl, rfl⟩
        exact ⟨answer, [], rfl, Fallible.trace_ofExcept_map.mpr ⟨rfl, rfl⟩⟩

end

/-! ## The ends of the path -/

section

variable (service : Service) (plan : SigningPlan) (arrival : Arrival)

/-- The key and the policy are known, and the request is decoded. -/
structure Admitted (registration : Registration) (policy : Policy) (decoded : Decoded) : Prop where
  resolved : service.resolve arrival.caller.subject = .ok registration
  policy_found : service.policyFor registration = .ok policy
  decoded_eq : plan.decode policy = .ok decoded

/-- What is asked up to the decision. -/
inductive Decides (registration : Registration) (policy : Policy) (decoded : Decoded) :
    String → List ServiceEvent → Decision → Prop
  | mk {observes evaluates : List ServiceEvent} {observed evaluated : Decision} {raw : BytesN 32}
      {limited : Option Violation} :
      decoded.observe.Trace observes observed →
      service.backend registration.key = .ok () →
      (decoded.evaluate observed (service.codec.publicKeyText raw)).Trace evaluates evaluated →
      Decides registration policy decoded (service.codec.publicKeyText raw)
        (observes ++ publicKeyEvent registration.key (.ok raw) :: (evaluates ++
          [checkEvent policy arrival.caller.subject decoded.total arrival.now limited]))
        (evaluated.limit limited)

/-- Ways to end without a signature after the decision to sign. -/
inductive Unsigned (registration : Registration) (decoded : Decoded) (address : String) :
    List ServiceEvent → ServiceError → Prop
  | payload {error : ServiceError} :
      decoded.payload = .error error → Unsigned registration decoded address [] error
  | backend {payload : BytesN 32} {error : BackendError} :
      decoded.payload = .ok payload →
      Unsigned registration decoded address [signEvent registration.key payload (.error error)]
        error.toServiceError
  | address {payload : BytesN 32} {signature : BytesN 64} {error : ServiceError} :
      decoded.payload = .ok payload → service.signingKey address = .error error →
      Unsigned registration decoded address [signEvent registration.key payload (.ok signature)]
        error
  | attach {payload public_key : BytesN 32} {signature : BytesN 64} {error : ServiceError} :
      decoded.payload = .ok payload → service.signingKey address = .ok public_key →
      decoded.attach public_key signature = .error error →
      Unsigned registration decoded address [signEvent registration.key payload (.ok signature)]
        error

/-- What a signature is made of. -/
structure Signs (decoded : Decoded) (address : String) (payload : BytesN 32)
    (signature : BytesN 64) (signed : String) : Prop where
  payload_eq : decoded.payload = .ok payload
  attached : ∃ public_key, service.signingKey address = .ok public_key ∧
    decoded.attach public_key signature = .ok signed

/-- The ends of the path, each with what has been asked and the response. -/
inductive PathTrace : List ServiceEvent → Except ServiceError String → Prop
  | unresolved {error : ServiceError} :
      service.resolve arrival.caller.subject = .error error → PathTrace [] (.error error)
  | unconfigured {registration : Registration} {error : ServiceError} :
      service.resolve arrival.caller.subject = .ok registration →
      service.policyFor registration = .error error → PathTrace [] (.error error)
  | undecodable {registration : Registration} {policy : Policy} {error : ServiceError}
      {written : Except String Unit} :
      service.resolve arrival.caller.subject = .ok registration →
      service.policyFor registration = .ok policy → plan.decode policy = .error error →
      PathTrace [recordEvent (pendingRecord arrival.caller registration plan.operation
          (plan.summary service) arrival.request_id arrival.now (refusalOutcome error)) written]
        (afterRecord written (.error error))
  | keyless {registration : Registration} {policy : Policy} {decoded : Decoded}
      {observes keys : List ServiceEvent} {observed : Decision} {error : ServiceError} :
      Admitted service plan arrival registration policy decoded →
      decoded.observe.Trace observes observed →
      Fallible.Trace (service.resolvePublicKey arrival.caller) keys (.error error) →
      PathTrace (observes ++ keys) (.error error)
  | denied {registration : Registration} {policy : Policy} {decoded : Decoded} {address : String}
      {es : List ServiceEvent} {violations : List Violation} {written : Except String Unit} :
      Admitted service plan arrival registration policy decoded →
      Decides service arrival registration policy decoded address es (.Deny violations) →
      PathTrace (es ++ [recordEvent (pendingRecord arrival.caller registration plan.operation
          (plan.summaryOf service decoded) arrival.request_id arrival.now
          (refusalOutcome (.policy violations))) written])
        (afterRecord written (.error (.policy violations)))
  | unsigned {registration : Registration} {policy : Policy} {decoded : Decoded}
      {address : String} {es tail : List ServiceEvent} {error : ServiceError} :
      Admitted service plan arrival registration policy decoded →
      Decides service arrival registration policy decoded address es .Allow →
      Unsigned service registration decoded address tail error →
      PathTrace (es ++ tail) (.error error)
  | unrecorded {registration : Registration} {policy : Policy} {decoded : Decoded}
      {address signed error : String} {es : List ServiceEvent} {payload : BytesN 32}
      {signature : BytesN 64} :
      Admitted service plan arrival registration policy decoded →
      Decides service arrival registration policy decoded address es .Allow →
      Signs service decoded address payload signature signed →
      PathTrace (es ++ [signEvent registration.key payload (.ok signature),
          recordEvent (plan.signedRecord service arrival registration decoded payload signature)
            (.error error)])
        (.error (auditUnavailable error))
  | signed {registration : Registration} {policy : Policy} {decoded : Decoded}
      {address signed : String} {es : List ServiceEvent} {payload : BytesN 32}
      {signature : BytesN 64} :
      Admitted service plan arrival registration policy decoded →
      Decides service arrival registration policy decoded address es .Allow →
      Signs service decoded address payload signature signed →
      PathTrace (es ++ [signEvent registration.key payload (.ok signature),
          recordEvent (plan.signedRecord service arrival registration decoded payload signature)
            (.ok ()),
          commitEvent policy arrival.caller.subject decoded.total arrival.now])
        (.ok signed)

end

section

variable {service : Service} {plan : SigningPlan} {arrival : Arrival}
  {registration : Registration} {policy : Policy} {decoded : Decoded} {address : String}
  {es : List ServiceEvent} {result : Except ServiceError String}

/-- The path after the decision to sign. -/
theorem signAndRecord_trace (hbackend : service.backend registration.key = .ok ())
    (h : Fallible.Trace (plan.signAndRecord service arrival registration policy decoded address) es
      result) :
    (∃ error, result = .error error ∧ Unsigned service registration decoded address es error) ∨
      ∃ payload signature signed, Signs service decoded address payload signature signed ∧
        ∃ written rest, es = signEvent registration.key payload (.ok signature) ::
          recordEvent (plan.signedRecord service arrival registration decoded payload signature)
            written :: rest ∧
          match written with
          | .ok () => rest = [commitEvent policy arrival.caller.subject decoded.total arrival.now] ∧
              result = .ok signed
          | .error error => rest = [] ∧ result = .error (auditUnavailable error) := by
  unfold SigningPlan.signAndRecord at h
  replace h := Fallible.trace_ofExcept_bind.mp h
  rcases h with ⟨error, hpayload, rfl, rfl⟩ | ⟨payload, hpayload, h⟩
  · exact Or.inl ⟨error, rfl, .payload hpayload⟩
  rw [hbackend] at h
  replace h := Fallible.trace_ofExcept_bind.mp h
  rcases h with ⟨_, hfalse, _, _⟩ | ⟨_, _, h⟩
  · cases hfalse
  replace h := askSign_trace.mp h
  obtain ⟨answer, rest, rfl, h⟩ := h
  replace h := Fallible.trace_ofExcept_bind.mp h
  cases answer with
  | error error =>
      rcases h with ⟨_, herror, rfl, rfl⟩ | ⟨_, hfalse, _⟩
      · obtain rfl := Except.error.inj herror
        exact Or.inl ⟨_, rfl, .backend hpayload⟩
      · cases hfalse
  | ok signature =>
      rcases h with ⟨_, hfalse, _, _⟩ | ⟨_, hok, h⟩
      · cases hfalse
      obtain rfl := Except.ok.inj hok
      replace h := Fallible.trace_ofExcept_bind.mp h
      rcases h with ⟨error, hkey, rfl, rfl⟩ | ⟨public_key, hkey, h⟩
      · exact Or.inl ⟨error, rfl, .address hpayload hkey⟩
      replace h := Fallible.trace_ofExcept_bind.mp h
      rcases h with ⟨error, hattach, rfl, rfl⟩ | ⟨signed, hattach, h⟩
      · exact Or.inl ⟨error, rfl, .attach hpayload hkey hattach⟩
      replace h := writeAudit_trace.mp h
      obtain ⟨written, rest, rfl, h⟩ := h
      refine Or.inr ⟨payload, signature, signed, ⟨hpayload, public_key, hkey, hattach⟩, written,
        rest, rfl, ?_⟩
      cases written with
      | error error => exact h
      | ok _ =>
          obtain ⟨last, rfl, hlast⟩ := askCommit_trace.mp h
          obtain ⟨rfl, rfl⟩ := Fallible.trace_pure.mp hlast
          exact ⟨rfl, rfl⟩

/-- The questions up to the check, and the others. -/
theorem path_events (xs ys zs : List ServiceEvent) (x y : ServiceEvent) :
    xs ++ ([x] ++ (ys ++ y :: zs)) = xs ++ x :: (ys ++ [y]) ++ zs := by simp

/-- **The path ends in one of these ways.** -/
theorem path_trace (h : Fallible.Trace (plan.run service arrival) es result) :
    PathTrace service plan arrival es result := by
  unfold SigningPlan.run at h
  replace h := Fallible.trace_ofExcept_bind.mp h
  rcases h with ⟨error, hresolve, rfl, rfl⟩ | ⟨registration, hresolve, h⟩
  · exact .unresolved hresolve
  replace h := Fallible.trace_ofExcept_bind.mp h
  rcases h with ⟨error, hpolicy, rfl, rfl⟩ | ⟨policy, hpolicy, h⟩
  · exact .unconfigured hresolve hpolicy
  cases hdecode : plan.decode policy with
  | error error =>
      rw [hdecode] at h
      obtain ⟨written, rfl, rfl⟩ := refuse_trace.mp h
      exact .undecodable hresolve hpolicy hdecode
  | ok decoded =>
      rw [hdecode] at h
      have hadmitted : Admitted service plan arrival registration policy decoded :=
        ⟨hresolve, hpolicy, hdecode⟩
      replace h := Fallible.trace_lift_bind.mp h
      obtain ⟨observed, observes, rest, rfl, hobserve, h⟩ := h
      replace h := Fallible.trace_bind.mp h
      rcases h with ⟨error, rfl, hkey⟩ | ⟨address, keys, rest, rfl, hkey, h⟩
      · exact .keyless hadmitted hobserve hkey
      replace hkey := (resolvePublicKey_trace hresolve).mp hkey
      rcases hkey with ⟨_, _, _, hfalse⟩ | ⟨hbackend, answer, rfl, hanswer⟩
      · cases hfalse
      cases answer with
      | error _ => cases hanswer
      | ok raw =>
          obtain rfl : address = service.codec.publicKeyText raw := Except.ok.inj hanswer
          replace h := Fallible.trace_lift_bind.mp h
          obtain ⟨evaluated, evaluates, rest, rfl, hevaluate, h⟩ := h
          replace h := askCheck_trace.mp h
          obtain ⟨limited, rest, rfl, h⟩ := h
          have hdecides : Decides service arrival registration policy decoded
              (service.codec.publicKeyText raw)
              (observes ++ publicKeyEvent registration.key (.ok raw) :: (evaluates ++
                [checkEvent policy arrival.caller.subject decoded.total arrival.now limited]))
              (evaluated.limit limited) := .mk hobserve hbackend hevaluate
          rw [path_events]
          cases hdecision : evaluated.limit limited with
          | Deny violations =>
              rw [hdecision] at h hdecides
              obtain ⟨written, rfl, rfl⟩ := refuse_trace.mp h
              exact .denied hadmitted hdecides
          | Allow =>
              rw [hdecision] at h hdecides
              rcases signAndRecord_trace hbackend h with ⟨error, rfl, hunsigned⟩ |
                ⟨payload, signature, signed, hsigns, written, rest, rfl, hwritten⟩
              · exact .unsigned hadmitted hdecides hunsigned
              · cases written with
                | error error =>
                    obtain ⟨rfl, rfl⟩ := hwritten
                    exact .unrecorded hadmitted hdecides hsigns
                | ok _ =>
                    obtain ⟨rfl, rfl⟩ := hwritten
                    exact .signed hadmitted hdecides hsigns

/-- The path to a signature. -/
theorem trace_of_signs {text : String} {payload : BytesN 32} {signature : BytesN 64}
    (hadmitted : Admitted service plan arrival registration policy decoded)
    (hdecides : Decides service arrival registration policy decoded address es .Allow)
    (hsigns : Signs service decoded address payload signature text) :
    Fallible.Trace (plan.run service arrival)
      (es ++ [signEvent registration.key payload (.ok signature),
        recordEvent (plan.signedRecord service arrival registration decoded payload signature)
          (.ok ()),
        commitEvent policy arrival.caller.subject decoded.total arrival.now]) (.ok text) := by
  generalize hdecision : Decision.Allow = decision at hdecides
  obtain ⟨hobserve, hbackend, hevaluate⟩ := hdecides
  obtain ⟨hresolve, hpolicy, hdecode⟩ := hadmitted
  obtain ⟨hpayload, public_key, hkey, hattach⟩ := hsigns
  unfold SigningPlan.run
  refine Fallible.trace_ofExcept_bind.mpr (Or.inr ⟨registration, hresolve, ?_⟩)
  refine Fallible.trace_ofExcept_bind.mpr (Or.inr ⟨policy, hpolicy, ?_⟩)
  rw [hdecode]
  rw [List.append_assoc, List.cons_append, List.append_assoc, List.singleton_append]
  refine Fallible.trace_lift_bind.mpr ⟨_, _, _, rfl, hobserve, ?_⟩
  refine Fallible.trace_bind.mpr (Or.inr ⟨_, [_], _, rfl,
    (resolvePublicKey_trace hresolve).mpr (Or.inr ⟨hbackend, _, rfl, rfl⟩), ?_⟩)
  refine Fallible.trace_lift_bind.mpr ⟨_, _, _, rfl, hevaluate, ?_⟩
  refine askCheck_trace.mpr ⟨_, _, rfl, ?_⟩
  rw [← hdecision]
  unfold SigningPlan.signAndRecord
  refine Fallible.trace_ofExcept_bind.mpr (Or.inr ⟨payload, hpayload, ?_⟩)
  rw [hbackend]
  refine Fallible.trace_ofExcept_bind.mpr (Or.inr ⟨(), rfl, ?_⟩)
  refine askSign_trace.mpr ⟨.ok signature, _, rfl, ?_⟩
  refine Fallible.trace_ofExcept_bind.mpr (Or.inr ⟨signature, rfl, ?_⟩)
  refine Fallible.trace_ofExcept_bind.mpr (Or.inr ⟨public_key, hkey, ?_⟩)
  refine Fallible.trace_ofExcept_bind.mpr (Or.inr ⟨text, hattach, ?_⟩)
  refine writeAudit_trace.mpr ⟨.ok (), _, rfl, ?_⟩
  refine askCommit_trace.mpr ⟨[], rfl, ?_⟩
  exact Fallible.trace_pure.mpr ⟨rfl, rfl⟩

/-- A signature is the end of the path after the decision to sign. -/
theorem PathTrace.of_signed {text : String} (h : PathTrace service plan arrival es (.ok text)) :
    ∃ registration policy decoded address asked payload signature,
      Admitted service plan arrival registration policy decoded ∧
      Decides service arrival registration policy decoded address asked .Allow ∧
      Signs service decoded address payload signature text ∧
      es = asked ++ [signEvent registration.key payload (.ok signature),
        recordEvent (plan.signedRecord service arrival registration decoded payload signature)
          (.ok ()),
        commitEvent policy arrival.caller.subject decoded.total arrival.now] := by
  generalize hresponse : Except.ok text = response at h
  have hrefused : ∀ (written : Except String Unit) (error : ServiceError),
      Except.ok text ≠ afterRecord written (.error error) := by
    intro written error
    cases written with
    | ok _ => simp [afterRecord]
    | error e => simp [afterRecord]
  cases h with
  | unresolved _ => cases hresponse
  | unconfigured _ _ => cases hresponse
  | undecodable _ _ _ => exact absurd hresponse (hrefused _ _)
  | keyless _ _ _ => cases hresponse
  | denied _ _ => exact absurd hresponse (hrefused _ _)
  | unsigned _ _ _ => cases hresponse
  | unrecorded _ _ _ => cases hresponse
  | signed hadmitted hdecides hsigns =>
      obtain rfl := Except.ok.inj hresponse
      exact ⟨_, _, _, _, _, _, _, hadmitted, hdecides, hsigns, rfl⟩

theorem Decides.backend_ok {decision : Decision}
    (h : Decides service arrival registration policy decoded address es decision) :
    service.backend registration.key = .ok () := by
  obtain ⟨_, hbackend, _⟩ := h
  exact hbackend

/-- What is asked up to the decision decides it. -/
theorem Decides.unique {es' rest rest' : List ServiceEvent} {address' : String}
    {decision decision' : Decision}
    (h : Decides service arrival registration policy decoded address es decision)
    (h' : Decides service arrival registration policy decoded address' es' decision')
    (heq : es ++ rest = es' ++ rest') :
    address = address' ∧ decision = decision' ∧ es = es' ∧ rest = rest' := by
  obtain ⟨hobserve, _, hevaluate⟩ := h
  obtain ⟨hobserve', _, hevaluate'⟩ := h'
  simp only [List.cons_append, List.append_assoc] at heq
  obtain ⟨rfl, rfl, hfromkey⟩ := hobserve.unique hobserve' heq
  obtain ⟨hkey, hfromeval⟩ := List.cons.inj hfromkey
  obtain rfl := Except.ok.inj (publicKeyEvent_inj.mp hkey).2
  obtain ⟨rfl, rfl, hfromcheck⟩ := hevaluate.unique hevaluate' hfromeval
  obtain ⟨hcheck, hrest⟩ := List.cons.inj hfromcheck
  obtain rfl := checkEvent_inj.mp hcheck
  exact ⟨rfl, rfl, rfl, hrest⟩

end

/-! ## Decisions to sign -/

section

variable {service : Service} {arrival : Arrival} {registration : Registration} {policy : Policy}
  {decoded : Decoded} {address : String} {es : List ServiceEvent} {decision : Decision}

@[simp] theorem Decision.merge_ne_allow {violation : Violation} :
    decision.merge violation ≠ .Allow := Decision.noConfusion

theorem Decision.limit_allow {limited : Option Violation} :
    decision.limit limited = .Allow ↔ decision = .Allow ∧ limited = none := by
  cases limited with
  | none => simp [Decision.limit]
  | some violation => simp [Decision.limit]

theorem Decision.mergeAll_allow {violations : List Violation} :
    violations.foldl Decision.merge decision = .Allow ↔ decision = .Allow ∧ violations = [] := by
  induction violations generalizing decision with
  | nil => simp
  | cons violation violations ih => simp [ih]

theorem Decision.violations_eq_nil {codec : Codec} {ctx : AuthEntryContext} :
    (evaluateAuthEntry codec policy ctx).violations = [] ↔
      evaluateAuthEntry codec policy ctx = .Allow := by
  unfold evaluateAuthEntry
  dsimp only
  rw [Decision.violations_ofViolations, Decision.ofViolations_allow]

theorem SignAuthEntryRequest.observed_allow {request : SignAuthEntryRequest}
    {answer : Except Nat Unit} : request.observed answer = .Allow ↔ answer = .ok () := by
  cases answer with
  | ok _ => simp [SignAuthEntryRequest.observed]
  | error ceiling => simp [SignAuthEntryRequest.observed]

/-- A transaction that is signed was allowed. -/
theorem decidesTransaction_allow {request : SignTransactionRequest} {transaction : Transaction}
    {inspected : InspectedTransaction}
    (h : Decides service arrival registration policy
      (decodedTransaction service arrival.now request policy transaction inspected) address es
      .Allow) :
    TransactionAllowed policy {
      transaction := inspected, network_passphrase := request.network_passphrase
      signing_address := address, now := arrival.now } := by
  generalize hdecision : Decision.Allow = decision at h
  obtain ⟨_, _, hevaluate⟩ := h
  obtain ⟨_, rfl⟩ := decodedTransaction_evaluate.mp hevaluate
  exact evaluateTransaction_allow.mp (Decision.limit_allow.mp hdecision.symm).1

/-- An entry that is signed was allowed, at the ledger that the clock answered after it had taken
the claimed one in. -/
theorem decidesAuthEntry_allow {request : SignAuthEntryRequest}
    {entry : SorobanAuthorizationEntry} {inspected : InspectedAuthEntry}
    (h : Decides service arrival registration policy
      (decodedAuthEntry service arrival.now request policy entry inspected) address es .Allow) :
    ∃ current_ledger raw, es = [observeEvent (request.claimedNow policy) (.ok ()),
        publicKeyEvent registration.key (.ok raw), ledgerEvent current_ledger,
        checkEvent policy arrival.caller.subject
          (saturatingSum (inspected.call.toList.flatMap InspectedCall.amounts)) arrival.now none] ∧
      AuthEntryAllowed policy {
        entry := inspected, network_passphrase := request.network_passphrase
        signing_address := address, requested_valid_until := request.valid_until_ledger_seq
        current_ledger, now := arrival.now } := by
  generalize hdecision : Decision.Allow = decision at h
  obtain ⟨hobserve, _, hevaluate⟩ := h
  obtain ⟨answer, rfl, rfl⟩ := decodedAuthEntry_observe.mp hobserve
  obtain ⟨current_ledger, rfl, rfl⟩ := decodedAuthEntry_evaluate.mp hevaluate
  obtain ⟨hmerged, rfl⟩ := Decision.limit_allow.mp hdecision.symm
  obtain ⟨hobserved, hnone⟩ := Decision.mergeAll_allow.mp hmerged
  obtain rfl := SignAuthEntryRequest.observed_allow.mp hobserved
  exact ⟨current_ledger, _, rfl, evaluateAuthEntry_allow.mp (Decision.violations_eq_nil.mp hnone)⟩

/-- The calls of a request that is signed pass the rules. -/
theorem plan_calls_pass {request : SignerRequest} {plan : SigningPlan}
    (hplan : service.plan arrival.now request = some plan)
    (hdecode : plan.decode policy = .ok decoded)
    (h : Decides service arrival registration policy decoded address es .Allow) :
    ∀ call ∈ decoded.calls, CallPasses policy call := by
  cases request with
  | public_key => cases hplan
  | sign_transaction request =>
      obtain rfl := Option.some.inj hplan
      obtain ⟨tx, inspected, _, rfl⟩ := transactionPlan_decode.mp hdecode
      exact (decidesTransaction_allow h).calls
  | sign_auth_entry request =>
      obtain rfl := Option.some.inj hplan
      obtain ⟨entry, inspected, _, rfl⟩ := authEntryPlan_decode.mp hdecode
      obtain ⟨_, _, _, hallowed⟩ := decidesAuthEntry_allow h
      intro call hcall
      exact hallowed.call call (Option.mem_toList.mp hcall)

end

end StellarAgent.Signer
