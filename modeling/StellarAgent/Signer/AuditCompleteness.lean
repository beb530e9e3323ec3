import StellarAgent.Signer.SigningPath

set_option autoImplicit false

/-! # Which requests are recorded

A request is answered only after its record is in the audit log, and counts against the budget
only if it is signed: that is what the module promises, "audit before responding, on both
branches". A signing request can also end between the two: without a key or a policy, without an
answer of the key backend, or with a signature that cannot be put back. Then it is answered and
nothing is recorded (`audit_complete_iff`). A request for the public key is always recorded.
-/

namespace StellarAgent.Signer

open Lib Soroban

/-! ## Records and budget in a trace -/

/-- The record that the event appended to the log. -/
def appended : ServiceEvent → Option PendingRecord
  | ⟨.record pending, written⟩ =>
      match (written : Except String Unit) with
      | .ok () => some pending
      | .error _ => none
  | _ => none

/-- The event took a request's amount from the budget. -/
def Consumes : ServiceEvent → Prop
  | ⟨.commit _ _ _ _, _⟩ => True
  | _ => False

def SignerRequest.operation : SignerRequest → Operation
  | .public_key => .PublicKey
  | .sign_transaction _ => .SignTransaction
  | .sign_auth_entry _ => .SignAuthEntry

def Outcome.IsSigned : Outcome → Prop
  | .Signed _ _ => True
  | .Refused _ _ => False

/-- **What the module promises of an answered request.** Unless the response is that the audit log
is unavailable, one record was appended, of this request, and it says signed if the response is a
signature or a key, and else refused. Budget was consumed if the response is a signature, and else
not. -/
structure AuditComplete (arrival : Arrival) (request : SignerRequest) (es : List ServiceEvent)
    (response : Except ServiceError String) : Prop where
  recorded : (∀ error, response = .error error → error.reason ≠ .AuditUnavailable) →
    ∃ pending, es.filterMap appended = [pending] ∧
      pending.request_id = arrival.request_id ∧
      pending.subject = some arrival.caller.subject ∧
      pending.token_id = some arrival.caller.token_id ∧
      pending.operation = request.operation ∧
      (pending.outcome.IsSigned ↔ ∃ text, response = .ok text)
  consumed : (∃ e ∈ es, Consumes e) ↔ request ≠ .public_key ∧ ∃ text, response = .ok text

/-- **The condition.** The key and the policy of the request are configured, and either it does not
decode; or the backend answers with the public key, and the rules or the rate limits object; or
they do not, the backend signs and the signature can be put back. -/
inductive PathRecorded (service : Service) (plan : SigningPlan) (arrival : Arrival)
    (es : List ServiceEvent) : Prop
  | undecodable {registration : Registration} {policy : Policy} {error : ServiceError} :
      service.resolve arrival.caller.subject = .ok registration →
      service.policyFor registration = .ok policy → plan.decode policy = .error error →
      PathRecorded service plan arrival es
  | denied {registration : Registration} {policy : Policy} {decoded : Decoded} {address : String}
      {asked rest : List ServiceEvent} {violations : List Violation} :
      Admitted service plan arrival registration policy decoded →
      Decides service arrival registration policy decoded address asked (.Deny violations) →
      es = asked ++ rest → PathRecorded service plan arrival es
  | signable {registration : Registration} {policy : Policy} {decoded : Decoded}
      {address signed : String} {asked rest : List ServiceEvent} {payload : BytesN 32}
      {signature : BytesN 64} :
      Admitted service plan arrival registration policy decoded →
      Decides service arrival registration policy decoded address asked .Allow →
      Signs service decoded address payload signature signed →
      es = asked ++ signEvent registration.key payload (.ok signature) :: rest →
      PathRecorded service plan arrival es

/-- The condition, of any request. -/
def Recordable (service : Service) (arrival : Arrival) (request : SignerRequest)
    (es : List ServiceEvent) : Prop :=
  ∀ plan ∈ service.plan arrival.now request, PathRecorded service plan arrival es

/-! ## What the two plans ask and answer -/

/-- The ledger clock is all that is asked besides the questions of the path, and no error of the
plan's own says that the audit log is unavailable. -/
structure Decoded.Regular (decoded : Decoded) : Prop where
  observe_quiet : ∀ es decision, decoded.observe.Trace es decision →
    es.filterMap appended = [] ∧ ∀ e ∈ es, ¬ Consumes e
  evaluate_quiet : ∀ observed address es decision,
    (decoded.evaluate observed address).Trace es decision →
    es.filterMap appended = [] ∧ ∀ e ∈ es, ¬ Consumes e
  payload_plain : ∀ error, decoded.payload = .error error → error.reason ≠ .AuditUnavailable
  attach_plain : ∀ public_key signature error,
    decoded.attach public_key signature = .error error → error.reason ≠ .AuditUnavailable

section

variable {service : Service} {now : Nat}

theorem resolve_plain {subject : String} {error : ServiceError}
    (h : service.resolve subject = .error error) : error.reason ≠ .AuditUnavailable := by
  unfold Service.resolve at h
  split at h
  · cases h
  · cases h
    simp

theorem policyFor_plain {registration : Registration} {error : ServiceError}
    (h : service.policyFor registration = .error error) : error.reason ≠ .AuditUnavailable := by
  unfold Service.policyFor at h
  split at h
  · cases h
  · cases h
    simp

theorem signingKey_plain {address : String} {error : ServiceError}
    (h : service.signingKey address = .error error) : error.reason ≠ .AuditUnavailable := by
  unfold Service.signingKey at h
  split at h
  · cases h
  · cases h
    simp

theorem transactionSigningPayload_plain {transaction : Transaction} {passphrase : String}
    {error : ServiceError}
    (h : service.transactionSigningPayload transaction passphrase = .error error) :
    error.reason ≠ .AuditUnavailable := by
  unfold Service.transactionSigningPayload at h
  split at h
  · cases h
    simp
  · cases h

theorem authEntrySigningPayload_plain {entry : SorobanAuthorizationEntry} {passphrase : String}
    {expiration_ledger : Nat} {error : ServiceError}
    (h : service.authEntrySigningPayload entry passphrase expiration_ledger = .error error) :
    error.reason ≠ .AuditUnavailable := by
  unfold Service.authEntrySigningPayload at h
  split at h
  · cases h
    simp
  · split at h
    · cases h
      simp
    · cases h

theorem attachSignature_plain {codec : Codec} {xdr : String} {public_key : BytesN 32}
    {signature : BytesN 64} {error : ServiceError}
    (h : attachSignature codec xdr public_key signature = .error error) :
    error.reason ≠ .AuditUnavailable := by
  unfold attachSignature at h
  split at h
  · cases h
    simp
  · dsimp only at h
    split at h
    · cases h
      simp
    · split at h
      · cases h
        simp
      · cases h
  · cases h
    simp

theorem attachToEntry_plain {codec : Codec} {entry : SorobanAuthorizationEntry} {requested : Nat}
    {public_key : BytesN 32} {signature : BytesN 64} {error : ServiceError}
    (h : attachToEntry codec entry requested public_key signature = .error error) :
    error.reason ≠ .AuditUnavailable := by
  unfold attachToEntry at h
  split at h
  · cases h
    simp
  · dsimp only at h
    split at h
    · cases h
      simp
    · cases h

theorem decodedTransaction_regular {request : SignTransactionRequest} {policy : Policy}
    {transaction : Transaction} {inspected : InspectedTransaction} :
    (decodedTransaction service now request policy transaction inspected).Regular := by
  refine ⟨?_, ?_, fun error h => transactionSigningPayload_plain h,
    fun public_key signature error h => attachSignature_plain h⟩
  · intro es decision h
    obtain ⟨rfl, -⟩ := decodedTransaction_observe.mp h
    exact ⟨rfl, by simp⟩
  · intro observed address es decision h
    obtain ⟨rfl, -⟩ := decodedTransaction_evaluate.mp h
    exact ⟨rfl, by simp⟩

theorem decodedAuthEntry_regular {request : SignAuthEntryRequest} {policy : Policy}
    {entry : SorobanAuthorizationEntry} {inspected : InspectedAuthEntry} :
    (decodedAuthEntry service now request policy entry inspected).Regular := by
  refine ⟨?_, ?_, fun error h => authEntrySigningPayload_plain h,
    fun public_key signature error h => attachToEntry_plain h⟩
  · intro es decision h
    obtain ⟨answer, rfl, -⟩ := decodedAuthEntry_observe.mp h
    exact ⟨rfl, List.forall_mem_singleton.mpr fun h => h⟩
  · intro observed address es decision h
    obtain ⟨current_ledger, rfl, -⟩ := decodedAuthEntry_evaluate.mp h
    exact ⟨rfl, List.forall_mem_singleton.mpr fun h => h⟩

theorem plan_regular {request : SignerRequest} {plan : SigningPlan} {policy : Policy}
    {decoded : Decoded} (hplan : service.plan now request = some plan)
    (hdecode : plan.decode policy = .ok decoded) : decoded.Regular := by
  cases request with
  | public_key => cases hplan
  | sign_transaction request =>
      obtain rfl := Option.some.inj hplan
      unfold transactionPlan at hdecode
      dsimp only at hdecode
      split at hdecode
      · cases hdecode
      · obtain rfl := Except.ok.inj hdecode
        exact decodedTransaction_regular
  | sign_auth_entry request =>
      obtain rfl := Option.some.inj hplan
      unfold authEntryPlan at hdecode
      dsimp only at hdecode
      split at hdecode
      · cases hdecode
      · obtain rfl := Except.ok.inj hdecode
        exact decodedAuthEntry_regular

end

/-! ## The ends of the path -/

section

variable {service : Service} {plan : SigningPlan} {arrival : Arrival} {request : SignerRequest}
  {registration : Registration} {policy : Policy} {decoded : Decoded} {address : String}
  {es asked : List ServiceEvent} {decision : Decision} {error : ServiceError}

/-- Nothing is recorded or consumed before the decision. -/
theorem Decides.quiet (hregular : decoded.Regular)
    (h : Decides service arrival registration policy decoded address es decision) :
    es.filterMap appended = [] ∧ ∀ e ∈ es, ¬ Consumes e := by
  obtain ⟨hobserve, _, hevaluate⟩ := h
  obtain ⟨hobserve, hobserve'⟩ := hregular.observe_quiet _ _ hobserve
  obtain ⟨hevaluate, hevaluate'⟩ := hregular.evaluate_quiet _ _ _ _ hevaluate
  constructor
  · rw [List.filterMap_append, List.filterMap_cons, List.filterMap_append, hobserve, hevaluate]
    rfl
  · rw [List.forall_mem_append, List.forall_mem_cons, List.forall_mem_append,
      List.forall_mem_singleton]
    exact ⟨hobserve', fun h => h, hevaluate', fun h => h⟩

/-- An answer without a record breaks the promise. -/
theorem AuditComplete.not_of_unrecorded (hnone : es.filterMap appended = [])
    (hreason : error.reason ≠ .AuditUnavailable) :
    ¬ AuditComplete arrival request es (.error error) := by
  intro h
  obtain ⟨pending, hone, -⟩ := h.recorded (fun e he => by
    obtain rfl := Except.error.inj he
    exact hreason)
  rw [hnone] at hone
  cases hone

theorem toServiceError_plain (error : BackendError) :
    error.toServiceError.reason ≠ .AuditUnavailable := by
  cases error with
  | UnknownKey _ => simp [BackendError.toServiceError]
  | WrongKeyType _ _ => simp [BackendError.toServiceError]
  | Unavailable _ => simp [BackendError.toServiceError]
  | Backend _ => simp [BackendError.toServiceError]

/-- Quiet questions and a record consume nothing. -/
theorem not_consumes {pending : PendingRecord} {written : Except String Unit}
    (hquiet : ∀ e ∈ asked, ¬ Consumes e) :
    ∀ e ∈ asked ++ [recordEvent pending written], ¬ Consumes e := by
  rw [List.forall_mem_append, List.forall_mem_singleton]
  exact ⟨hquiet, fun h => h⟩

theorem AuditComplete.of_unavailable {e : String} (hquiet : ∀ e ∈ es, ¬ Consumes e) :
    AuditComplete arrival request es (.error (auditUnavailable e)) := by
  refine ⟨fun h => absurd rfl (h _ rfl), ?_⟩
  constructor
  · rintro ⟨e, hmem, hconsumes⟩
    exact absurd hconsumes (hquiet e hmem)
  · rintro ⟨_, text, htext⟩
    cases htext

/-- A refused request is recorded as refused. -/
theorem AuditComplete.refused {summary : RequestSummary} {written : Except String Unit}
    (hoperation : plan.operation = request.operation) (hnone : asked.filterMap appended = [])
    (hquiet : ∀ e ∈ asked, ¬ Consumes e) :
    AuditComplete arrival request
      (asked ++ [recordEvent (pendingRecord arrival.caller registration plan.operation summary
        arrival.request_id arrival.now (refusalOutcome error)) written])
      (afterRecord written (.error error)) := by
  cases written with
  | error e => exact AuditComplete.of_unavailable (not_consumes hquiet)
  | ok _ =>
      let pending := pendingRecord arrival.caller registration plan.operation summary
        arrival.request_id arrival.now (refusalOutcome error)
      constructor
      · intro _
        refine ⟨pending, ?_, rfl, rfl, rfl, hoperation, ?_⟩
        · rw [List.filterMap_append, hnone]
          rfl
        · constructor
          · exact fun h => h.elim
          · rintro ⟨text, htext⟩
            cases htext
      · constructor
        · rintro ⟨e, hmem, hconsumes⟩
          exact absurd hconsumes (not_consumes hquiet e hmem)
        · rintro ⟨_, text, htext⟩
          cases htext

/-- A signed request is recorded as signed, and then counted. -/
theorem AuditComplete.signed {payload : BytesN 32} {signature : BytesN 64} {key : KeyRef}
    {signed : String} (hplan : request ≠ .public_key)
    (hoperation : plan.operation = request.operation) (hnone : asked.filterMap appended = []) :
    AuditComplete arrival request
      (asked ++ [signEvent key payload (.ok signature),
        recordEvent (plan.signedRecord service arrival registration decoded payload signature)
          (.ok ()),
        commitEvent policy arrival.caller.subject decoded.total arrival.now])
      (.ok signed) := by
  constructor
  · intro _
    refine ⟨plan.signedRecord service arrival registration decoded payload signature, ?_, rfl, rfl,
      rfl, hoperation, ?_⟩
    · rw [List.filterMap_append, hnone]
      rfl
    · exact ⟨fun _ => ⟨signed, rfl⟩, fun _ => trivial⟩
  · constructor
    · exact fun _ => ⟨hplan, signed, rfl⟩
    · intro _
      exact ⟨commitEvent policy arrival.caller.subject decoded.total arrival.now, by simp, trivial⟩

/-- The key and the policy of a request, and what it decodes to, are its own. -/
theorem Admitted.unique {registration' : Registration} {policy' : Policy} {decoded' : Decoded}
    (h : Admitted service plan arrival registration policy decoded)
    (h' : Admitted service plan arrival registration' policy' decoded') :
    registration = registration' ∧ policy = policy' ∧ decoded = decoded' := by
  obtain rfl := Except.ok.inj (h.resolved.symm.trans h'.resolved)
  obtain rfl := Except.ok.inj (h.policy_found.symm.trans h'.policy_found)
  exact ⟨rfl, rfl, Except.ok.inj (h.decoded_eq.symm.trans h'.decoded_eq)⟩

theorem PathRecorded.configured (h : PathRecorded service plan arrival es) :
    ∃ registration policy, service.resolve arrival.caller.subject = .ok registration ∧
      service.policyFor registration = .ok policy := by
  cases h with
  | undecodable hresolve hpolicy _ => exact ⟨_, _, hresolve, hpolicy⟩
  | denied hadmitted _ _ => exact ⟨_, _, hadmitted.resolved, hadmitted.policy_found⟩
  | signable hadmitted _ _ _ => exact ⟨_, _, hadmitted.resolved, hadmitted.policy_found⟩

/-- The condition, of a request that decodes. -/
theorem PathRecorded.of_admitted (h : Admitted service plan arrival registration policy decoded)
    (hrecorded : PathRecorded service plan arrival es) :
    ∃ address asked decision rest, es = asked ++ rest ∧
      Decides service arrival registration policy decoded address asked decision ∧
      (decision = .Allow → ∃ payload signature signed after,
        Signs service decoded address payload signature signed ∧
          rest = signEvent registration.key payload (.ok signature) :: after) := by
  cases hrecorded with
  | undecodable hresolve hpolicy hdecode =>
      obtain rfl := Except.ok.inj (h.resolved.symm.trans hresolve)
      obtain rfl := Except.ok.inj (h.policy_found.symm.trans hpolicy)
      rw [h.decoded_eq] at hdecode
      cases hdecode
  | denied hadmitted hdecides hes =>
      obtain ⟨rfl, rfl, rfl⟩ := hadmitted.unique h
      exact ⟨_, _, _, _, hes, hdecides, fun hallow => by cases hallow⟩
  | signable hadmitted hdecides hsigns hes =>
      obtain ⟨rfl, rfl, rfl⟩ := hadmitted.unique h
      exact ⟨_, _, _, _, hes, hdecides, fun _ => ⟨_, _, _, _, hsigns, rfl⟩⟩

/-- Without a public key there is no decision. -/
theorem keyless_not_recorded {observes keys : List ServiceEvent} {observed : Decision}
    (h : Admitted service plan arrival registration policy decoded)
    (hobserve : decoded.observe.Trace observes observed)
    (hkey : Fallible.Trace (service.resolvePublicKey arrival.caller) keys (.error error)) :
    ¬ PathRecorded service plan arrival (observes ++ keys) := by
  intro hrecorded
  obtain ⟨address, asked, decision, rest, hes, hdecides, -⟩ := hrecorded.of_admitted h
  obtain ⟨hobserve', hbackend, hevaluate⟩ := hdecides
  rw [List.append_assoc] at hes
  obtain ⟨-, -, hkeys⟩ := hobserve.unique hobserve' hes
  rcases (resolvePublicKey_trace h.resolved).mp hkey with ⟨_, hnone, _, _⟩ |
    ⟨_, answer, hanswer, hresult⟩
  · rw [hnone] at hbackend
    cases hbackend
  · rw [hanswer] at hkeys
    obtain rfl := (publicKeyEvent_inj.mp (List.cons.inj hkeys).1).2
    cases hresult

/-- Without a signature there is no record. -/
theorem unsigned_not_recorded {tail : List ServiceEvent}
    (h : Admitted service plan arrival registration policy decoded)
    (hdecides : Decides service arrival registration policy decoded address asked .Allow)
    (hunsigned : Unsigned service registration decoded address tail error) :
    ¬ PathRecorded service plan arrival (asked ++ tail) := by
  intro hrecorded
  obtain ⟨address', asked', decision, rest, hes, hdecides', hsigns⟩ := hrecorded.of_admitted h
  obtain ⟨rfl, rfl, rfl, rfl⟩ := hdecides.unique hdecides' hes
  obtain ⟨payload, signature, signed, after, hsigns, htail⟩ := hsigns rfl
  obtain ⟨public_key, hkey, hattach⟩ := hsigns.attached
  cases hunsigned with
  | payload herror => cases htail
  | backend hpayload =>
      obtain ⟨-, -, hanswer⟩ := signEvent_inj.mp (List.cons.inj htail).1
      cases hanswer
  | address hpayload herror =>
      rw [hkey] at herror
      cases herror
  | attach hpayload hkey' herror =>
      obtain ⟨-, -, hanswer⟩ := signEvent_inj.mp (List.cons.inj htail).1
      obtain rfl := Except.ok.inj hanswer
      obtain rfl := Except.ok.inj (hkey.symm.trans hkey')
      rw [hattach] at herror
      cases herror

end

/-! ## Every request -/

section

variable {service : Service} {arrival : Arrival} {request : SignerRequest}
  {es : List ServiceEvent} {response : Except ServiceError String}

/-- Resolving the public key records and consumes nothing. -/
theorem resolvePublicKey_quiet {caller : Caller}
    (h : Fallible.Trace (service.resolvePublicKey caller) es response) :
    es.filterMap appended = [] ∧ ∀ e ∈ es, ¬ Consumes e := by
  cases hresolve : service.resolve caller.subject with
  | error error =>
      unfold Service.resolvePublicKey at h
      rw [hresolve] at h
      rcases Fallible.trace_ofExcept_bind.mp h with ⟨_, _, rfl, _⟩ | ⟨_, hfalse, _⟩
      · exact ⟨rfl, by simp⟩
      · cases hfalse
  | ok registration =>
      rcases (resolvePublicKey_trace hresolve).mp h with ⟨_, _, rfl, _⟩ | ⟨_, answer, rfl, _⟩
      · exact ⟨rfl, by simp⟩
      · exact ⟨rfl, List.forall_mem_singleton.mpr fun h => h⟩

/-- A request for the public key is recorded on both branches. -/
theorem publicKey_complete
    (h : Fallible.Trace (service.publicKey arrival.caller arrival.request_id arrival.now) es
      response) : AuditComplete arrival .public_key es response := by
  unfold Service.publicKey at h
  obtain ⟨outcome, keys, rest, rfl, hkey, hrest⟩ := Fallible.trace_attempt_bind.mp h
  obtain ⟨hnone, hquiet⟩ := resolvePublicKey_quiet hkey
  obtain ⟨written, after, rfl, hafter⟩ := writeAudit_trace.mp hrest
  cases written with
  | error error =>
      obtain ⟨rfl, rfl⟩ := hafter
      exact AuditComplete.of_unavailable (not_consumes hquiet)
  | ok _ =>
      obtain ⟨rfl, rfl⟩ := Fallible.trace_ofExcept.mp hafter
      constructor
      · intro _
        refine ⟨_, by rw [List.filterMap_append, hnone]; rfl, rfl, rfl, rfl, rfl, ?_⟩
        cases response with
        | error error =>
            constructor
            · exact fun h => h.elim
            · rintro ⟨text, htext⟩
              cases htext
        | ok address => exact ⟨fun _ => ⟨address, rfl⟩, fun _ => trivial⟩
      · constructor
        · rintro ⟨e, hmem, hconsumes⟩
          exact absurd hconsumes (not_consumes hquiet e hmem)
        · exact fun h => absurd rfl h.1

theorem plan_operation {now : Nat} {plan : SigningPlan}
    (hplan : service.plan now request = some plan) :
    request ≠ .public_key ∧ plan.operation = request.operation := by
  cases request with
  | public_key => cases hplan
  | sign_transaction request =>
      obtain rfl := Option.some.inj hplan
      exact ⟨SignerRequest.noConfusion, rfl⟩
  | sign_auth_entry request =>
      obtain rfl := Option.some.inj hplan
      exact ⟨SignerRequest.noConfusion, rfl⟩

theorem keyless_plain {caller : Caller} {registration : Registration} {error : ServiceError}
    (hresolve : service.resolve caller.subject = .ok registration)
    (hkey : Fallible.Trace (service.resolvePublicKey caller) es (.error error)) :
    error.reason ≠ .AuditUnavailable := by
  rcases (resolvePublicKey_trace hresolve).mp hkey with ⟨cause, _, _, herror⟩ |
    ⟨_, answer, _, herror⟩
  · obtain rfl := Except.error.inj herror
    exact toServiceError_plain cause
  · cases answer with
    | error cause =>
        obtain rfl := Except.error.inj herror
        exact toServiceError_plain cause
    | ok raw => cases herror

theorem Unsigned.plain_quiet {registration : Registration} {decoded : Decoded} {address : String}
    {error : ServiceError} (hregular : decoded.Regular)
    (h : Unsigned service registration decoded address es error) :
    error.reason ≠ .AuditUnavailable ∧ es.filterMap appended = [] := by
  cases h with
  | payload herror => exact ⟨hregular.payload_plain _ herror, rfl⟩
  | backend _ => exact ⟨toServiceError_plain _, rfl⟩
  | address _ herror => exact ⟨signingKey_plain herror, rfl⟩
  | attach _ _ herror => exact ⟨hregular.attach_plain _ _ _ herror, rfl⟩

/-- The promise is kept exactly where the path reaches its record. -/
theorem path_complete_iff {plan : SigningPlan}
    (hplan : service.plan arrival.now request = some plan)
    (h : PathTrace service plan arrival es response) :
    AuditComplete arrival request es response ↔ PathRecorded service plan arrival es := by
  obtain ⟨hsigning, hoperation⟩ := plan_operation hplan
  cases h with
  | unresolved hresolve =>
      refine iff_of_false (AuditComplete.not_of_unrecorded rfl (resolve_plain hresolve)) ?_
      intro hrecorded
      obtain ⟨registration, policy, hresolve', -⟩ := hrecorded.configured
      rw [hresolve] at hresolve'
      cases hresolve'
  | unconfigured hresolve hpolicy =>
      refine iff_of_false (AuditComplete.not_of_unrecorded rfl (policyFor_plain hpolicy)) ?_
      intro hrecorded
      obtain ⟨registration', policy, hresolve', hpolicy'⟩ := hrecorded.configured
      obtain rfl := Except.ok.inj (hresolve.symm.trans hresolve')
      rw [hpolicy] at hpolicy'
      cases hpolicy'
  | undecodable hresolve hpolicy hdecode =>
      refine iff_of_true ?_ (.undecodable hresolve hpolicy hdecode)
      rw [← List.nil_append [recordEvent _ _]]
      exact AuditComplete.refused hoperation rfl (by simp)
  | keyless hadmitted hobserve hkey =>
      have hregular := plan_regular hplan hadmitted.decoded_eq
      refine iff_of_false (AuditComplete.not_of_unrecorded ?_ ?_)
        (keyless_not_recorded hadmitted hobserve hkey)
      · rw [List.filterMap_append, (hregular.observe_quiet _ _ hobserve).1,
          (resolvePublicKey_quiet hkey).1]
        rfl
      · exact keyless_plain hadmitted.resolved hkey
  | denied hadmitted hdecides =>
      have hquiet := hdecides.quiet (plan_regular hplan hadmitted.decoded_eq)
      refine iff_of_true ?_ (.denied hadmitted hdecides rfl)
      exact AuditComplete.refused hoperation hquiet.1 hquiet.2
  | unsigned hadmitted hdecides hunsigned =>
      have hregular := plan_regular hplan hadmitted.decoded_eq
      have hplain := hunsigned.plain_quiet hregular
      refine iff_of_false (AuditComplete.not_of_unrecorded ?_ hplain.1)
        (unsigned_not_recorded hadmitted hdecides hunsigned)
      rw [List.filterMap_append, (hdecides.quiet hregular).1, hplain.2]
      rfl
  | unrecorded hadmitted hdecides hsigns =>
      have hquiet := hdecides.quiet (plan_regular hplan hadmitted.decoded_eq)
      refine iff_of_true (AuditComplete.of_unavailable ?_) (.signable hadmitted hdecides hsigns rfl)
      rw [List.forall_mem_append, List.forall_mem_cons, List.forall_mem_singleton]
      exact ⟨hquiet.2, fun h => h, fun h => h⟩
  | signed hadmitted hdecides hsigns =>
      have hquiet := hdecides.quiet (plan_regular hplan hadmitted.decoded_eq)
      refine iff_of_true ?_ (.signable hadmitted hdecides hsigns rfl)
      exact AuditComplete.signed hsigning hoperation hquiet.1

/-- **Audit completeness.** Whatever the components answer, a request is answered as promised if
and only if its path reaches a record. -/
theorem audit_complete_iff (h : Fallible.Trace (service.handle arrival request) es response) :
    AuditComplete arrival request es response ↔ Recordable service arrival request es := by
  cases hplan : service.plan arrival.now request with
  | none =>
      cases request with
      | public_key =>
          refine iff_of_true (publicKey_complete h) ?_
          intro plan hmem
          cases hmem
      | sign_transaction request => cases hplan
      | sign_auth_entry request => cases hplan
  | some plan =>
      rw [handle_eq hplan] at h
      rw [path_complete_iff hplan (path_trace h), Recordable, hplan]
      simp

end

/-! ## A caller without a key -/

/-- A codec that decodes nothing. -/
def bareCodec : Codec where
  decodeEnvelope := fun _ => .error "not a transaction"
  encodeEnvelope := fun _ => .ok "signed"
  decodeAuthEntry := fun _ => .error "not an entry"
  encodeAuthEntry := fun _ => .ok "signed"
  encodePayload := fun _ => .ok []
  encodePreimage := fun _ => .ok []
  sha256 := fun _ => digestOf 0
  scAddressText := fun address =>
    match address with
    | .Contract _ => "CABC"
    | _ => "GABC"
  muxedAccountText := fun _ => "GABC"
  publicKeyText := fun _ => "GABC"
  publicKeyOfText := fun _ => some (digestOf 0)
  debug := fun text => text

/-- A service with no identities. -/
def bareService : Service where
  codec := bareCodec
  backends := []
  registry := ∅
  policies := ⟨∅, fun name policy h => by simp at h⟩

def sampleArrival : Arrival where
  caller := ⟨"agent", "token-1"⟩
  request_id := "r-1"
  now := 7

/-- What the caller is told. -/
def noKeyError : ServiceError :=
  (ServiceError.new .NoKeyForSubject "no signing key is registered for this identity").withInternal
    ("subject agent authenticated but has no registry entry")

theorem bareService_resolve : bareService.resolve sampleArrival.caller.subject = .error noKeyError :=
  rfl

/-- The record of the caller's request for its public key. -/
def noKeyRecord : PendingRecord where
  at_time := 7
  request_id := "r-1"
  subject := some "agent"
  token_id := some "token-1"
  key := none
  policy := none
  operation := .PublicKey
  request := RequestSummary.default
  outcome := .Refused "no_key_for_subject" []

theorem bareService_publicKey :
    Fallible.Trace (bareService.handle sampleArrival .public_key) [recordEvent noKeyRecord (.ok ())]
      (.error noKeyError) := by
  have hkey : Fallible.Trace (bareService.resolvePublicKey sampleArrival.caller) []
      (.error noKeyError) :=
    Fallible.trace_ofExcept_bind.mpr (Or.inl ⟨noKeyError, bareService_resolve, rfl, rfl⟩)
  refine Fallible.trace_attempt_bind.mpr ⟨_, [], _, rfl, hkey, ?_⟩
  exact writeAudit_trace.mpr ⟨.ok (), [], rfl, Fallible.trace_ofExcept.mpr ⟨rfl, rfl⟩⟩

/-- A caller without a key asks for its public key: the refusal is recorded. -/
theorem audit_complete_iff_public_key :
    AuditComplete sampleArrival .public_key [recordEvent noKeyRecord (.ok ())]
      (.error noKeyError) := by
  refine (audit_complete_iff bareService_publicKey).mpr ?_
  intro plan hplan
  cases hplan

/-- The same caller asks for a signature: it is refused, and nothing is recorded. -/
theorem signing_refused_unrecorded :
    ¬ ∀ (service : Service) (arrival : Arrival) (request : SignerRequest) (es : List ServiceEvent)
      (response : Except ServiceError String),
      Fallible.Trace (service.handle arrival request) es response →
        AuditComplete arrival request es response := by
  intro h
  have htrace : Fallible.Trace (bareService.handle sampleArrival
      (.sign_transaction ⟨"AAAA", "Test SDF Network ; September 2015"⟩)) [] (.error noKeyError) :=
    Fallible.trace_ofExcept_bind.mpr (Or.inl ⟨noKeyError, bareService_resolve, rfl, rfl⟩)
  have hreason : noKeyError.reason ≠ .AuditUnavailable := by decide
  exact AuditComplete.not_of_unrecorded rfl hreason (h _ _ _ _ _ htrace)

end StellarAgent.Signer
