import StellarAgent.Lib.Results
import StellarAgent.Signer.Coverage

set_option autoImplicit false

/-! # The caps of a policy

A policy has a ceiling on each amount, which both signing functions check, and one on the total of
a transaction. The total is a saturating sum, and only `evaluate_transaction` compares it.

So every amount that is signed is between zero and its ceiling. The total is below the other
ceiling, and charged to the rate limit as it is, for a transaction unless that ceiling is the
greatest number there is; for an authorization entry only if its own amounts are so few
(`caps_bound_iff`).
-/

namespace StellarAgent.Signer

open Lib Soroban

/-! ## What is inspected and charged -/

/-- The calls that are inspected of a request. -/
def SignerRequest.calls (codec : Codec) (unknown : UnknownCallPolicy) :
    SignerRequest → Option (List InspectedCall)
  | .public_key => none
  | .sign_transaction request =>
      (inspectTransaction codec request.xdr unknown).toOption.map fun result => result.2.calls
  | .sign_auth_entry request =>
      (inspectAuthEntry codec request.auth_entry_xdr unknown).toOption.map fun result =>
        result.2.call.toList

/-- What an operation charges to the window of the rate limit. -/
def charged : ServiceEvent → Option Int
  | ⟨.commit _ _ amount _, _⟩ => some amount
  | _ => none

/-- **The caps bound a signed request.** Each amount that was inspected is between zero and the
ceiling of one amount, their sum is at most the ceiling of all, and it is what has been charged. -/
structure CapsBound (amount_cap transaction_cap : Int) (amounts : List Int)
    (es : List ServiceEvent) : Prop where
  each : ∀ amount ∈ amounts, 0 ≤ amount ∧ amount ≤ amount_cap
  total : amounts.sum ≤ transaction_cap
  charged : es.filterMap charged = [amounts.sum]

/-- **The condition.** If the ceiling of a transaction is the greatest number of 128 bits, its
amounts add up to one. The amounts of an authorization entry are within a ceiling that nothing
compares them with. -/
def SignerRequest.WithinCaps (transaction_cap : Int) (amounts : List Int) : SignerRequest → Prop
  | .sign_transaction _ => transaction_cap = I128_MAX → amounts.sum ≤ I128_MAX
  | _ => amounts.sum ≤ transaction_cap

section

variable {service : Service} {request : SignerRequest} {plan : SigningPlan} {arrival : Arrival}
  {registration : Registration} {policy : Policy} {decoded : Decoded} {address text : String}
  {es : List ServiceEvent} {calls : List InspectedCall} {amount_cap transaction_cap : Int}

theorem SignerRequest.calls_eq {now : Nat} (hplan : service.plan now request = some plan)
    (hdecode : plan.decode policy = .ok decoded) :
    request.calls service.codec policy.unknown_calls = some decoded.calls := by
  cases request with
  | public_key => cases hplan
  | sign_transaction request =>
      obtain rfl := Option.some.inj hplan
      obtain ⟨tx, inspected, hinspect, rfl⟩ := transactionPlan_decode.mp hdecode
      rw [SignerRequest.calls, toOption_eq_some.mpr hinspect]
      rfl
  | sign_auth_entry request =>
      obtain rfl := Option.some.inj hplan
      obtain ⟨entry, inspected, hinspect, rfl⟩ := authEntryPlan_decode.mp hdecode
      rw [SignerRequest.calls, toOption_eq_some.mpr hinspect]
      rfl

theorem parseI128_le {raw : Option String} {cap : Int} (h : raw.bind parseI128 = some cap) :
    cap ≤ I128_MAX := by
  obtain ⟨text, -, hparse⟩ := Option.bind_eq_some_iff.mp h
  exact (parseI128_isI128 hparse).2

theorem charged_of_not_consumes {e : ServiceEvent} (h : ¬ Consumes e) : charged e = none := by
  obtain ⟨op, answer⟩ := e
  cases op with
  | commit policy subject amount now => exact absurd trivial h
  | _ => rfl

/-- A signed request charges its total, and nothing else. -/
theorem charged_signed {payload : BytesN 32} {signature : BytesN 64} {record : PendingRecord}
    {asked : List ServiceEvent} (hquiet : ∀ e ∈ asked, ¬ Consumes e) (total : Int) :
    (asked ++ [signEvent registration.key payload (.ok signature), recordEvent record (.ok ()),
      commitEvent policy arrival.caller.subject total arrival.now]).filterMap charged =
        [total] := by
  have hasked : asked.filterMap charged = [] :=
    List.filterMap_eq_nil_iff.mpr fun e he => charged_of_not_consumes (hquiet e he)
  rw [List.filterMap_append, hasked]
  rfl

/-- What is known of the amounts of a signed request. -/
structure AmountsChecked (policy : Policy) (request : SignerRequest) (amounts : List Int)
    (es : List ServiceEvent) : Prop where
  each : ∀ amount ∈ amounts, 0 ≤ amount ∧ ∀ cap ∈ policy.amountCap, amount ≤ cap
  compared : ∀ asked, request = .sign_transaction asked →
    ∀ cap ∈ policy.transactionCap, saturatingSum amounts ≤ cap
  charged : es.filterMap charged = [saturatingSum amounts]

theorem signed_checked (hresolve : service.resolve arrival.caller.subject = .ok registration)
    (hpolicy : service.policyFor registration = .ok policy)
    (hcalls : request.calls service.codec policy.unknown_calls = some calls)
    (hsigned : Fallible.Trace (service.handle arrival request) es (.ok text)) :
    AmountsChecked policy request (calls.flatMap InspectedCall.amounts) es := by
  cases hplan : service.plan arrival.now request with
  | none =>
      cases request with
      | public_key => cases hcalls
      | sign_transaction request => cases hplan
      | sign_auth_entry request => cases hplan
  | some plan =>
      rw [handle_eq hplan] at hsigned
      obtain ⟨registration', policy', decoded, address, asked, payload, signature, hadmitted,
        hdecides, -, rfl⟩ := (path_trace hsigned).of_signed
      obtain rfl := Except.ok.inj (hresolve.symm.trans hadmitted.resolved)
      obtain rfl := Except.ok.inj (hpolicy.symm.trans hadmitted.policy_found)
      rw [SignerRequest.calls_eq hplan hadmitted.decoded_eq] at hcalls
      obtain rfl := Option.some.inj hcalls
      constructor
      · intro amount hamount
        obtain ⟨call, hcall, hamount⟩ := List.mem_flatMap.mp hamount
        exact (plan_calls_pass hplan hadmitted.decoded_eq hdecides call hcall).amounts amount
          hamount
      · rintro tx_request rfl cap hcap
        obtain rfl := Option.some.inj hplan
        obtain ⟨tx, inspected, -, rfl⟩ := transactionPlan_decode.mp hadmitted.decoded_eq
        exact (decidesTransaction_allow hdecides).transaction_cap cap hcap
      · exact charged_signed (hdecides.quiet (plan_regular hplan hadmitted.decoded_eq)).2 _

/-- **The caps bound every signature.** What is signed under a policy with both caps is bound by
them, if and only if it meets the condition. -/
theorem caps_bound_iff (hresolve : service.resolve arrival.caller.subject = .ok registration)
    (hpolicy : service.policyFor registration = .ok policy)
    (hamount_cap : policy.amountCap = some amount_cap)
    (htransaction_cap : policy.transactionCap = some transaction_cap)
    (hcalls : request.calls service.codec policy.unknown_calls = some calls)
    (hsigned : Fallible.Trace (service.handle arrival request) es (.ok text)) :
    CapsBound amount_cap transaction_cap (calls.flatMap InspectedCall.amounts) es ↔
      request.WithinCaps transaction_cap (calls.flatMap InspectedCall.amounts) := by
  have hchecked := signed_checked hresolve hpolicy hcalls hsigned
  generalize calls.flatMap InspectedCall.amounts = amounts at hchecked
  have htotal : saturatingSum amounts = min I128_MAX amounts.sum :=
    saturatingSum_of_nonneg fun amount hamount => (hchecked.each amount hamount).1
  have hfits : transaction_cap ≤ I128_MAX := parseI128_le htransaction_cap
  constructor
  · intro h
    have hle : amounts.sum ≤ transaction_cap := h.total
    cases request with
    | public_key => cases hcalls
    | sign_transaction request =>
        intro _
        omega
    | sign_auth_entry request => exact hle
  · intro h
    have hsum : amounts.sum ≤ transaction_cap := by
      cases request with
      | public_key => cases hcalls
      | sign_transaction request =>
          have hcompared := hchecked.compared request rfl transaction_cap htransaction_cap
          -- a total that is compared below the greatest number has not been saturated
          by_cases hmax : transaction_cap = I128_MAX
          · have hsmall := h hmax
            omega
          · omega
      | sign_auth_entry request => exact h
    refine ⟨?_, hsum, ?_⟩
    · intro amount hamount
      obtain ⟨hnonneg, hcap⟩ := hchecked.each amount hamount
      exact ⟨hnonneg, hcap amount_cap hamount_cap⟩
    · rw [hchecked.charged, htotal, min_eq_right (hsum.trans hfits)]

end

/-! ## A payment over the cap -/

/-- The sample policy, with a ceiling on the total. -/
def cappedPolicy (cap : String) : Policy :=
  { samplePolicy with max_transaction_stroops := some cap }

theorem cappedPolicy_valid {cap : String} (hcap : (parseI128 cap).isSome) (name : String) :
    (cappedPolicy cap).validate name = .ok () := by
  have hamount : (parseI128 "100").isSome := by
    decide +kernel
  unfold Policy.validate RateLimit.validate validateAmount cappedPolicy samplePolicy
  simp only [hcap, hamount, if_true]
  rfl

/-- The sample service under it. -/
def cappedService (cap : String) (hcap : (parseI128 cap).isSome) : Service :=
  (sampleService sampleEntry).withPolicy "payments" (cappedPolicy cap) (cappedPolicy_valid hcap)

def cappedArrival : Arrival := { sampleArrival with now := 1700000000 }

def cappedThread (cap : String) (hcap : (parseI128 cap).isSome) :
    List (ServiceTransition Unit) × ServiceThreads Unit :=
  ((cappedService cap hcap).start sampleState
    fun _ => ⟨cappedArrival, .sign_auth_entry entryRequest⟩).follow
    (cappedService cap hcap).execute (List.replicate 7 ((), sampleOutside))

theorem cappedThread_signed {cap : String} {hcap : (parseI128 cap).isSome}
    (h : ((cappedThread cap hcap).2.signedText ()).isSome) :
    ∃ es text, Fallible.Trace ((cappedService cap hcap).handle cappedArrival
      (.sign_auth_entry entryRequest)) es (.ok text) := by
  obtain ⟨text, htext⟩ := Option.isSome_iff_exists.mp h
  have hrun : Run (ServiceStep (cappedService cap hcap)) _ (cappedThread cap hcap).1
      (cappedThread cap hcap).2 := Interleaved.follow_run _ _
  exact ⟨_, text, trace_answered hrun (ServiceThreads.signedText_eq htext)⟩

theorem cappedPolicy_amountCap (cap : String) : (cappedPolicy cap).amountCap = some 100 := by
  show parseI128 "100" = some 100
  decide +kernel

theorem cappedService_calls (cap : String) (hcap : (parseI128 cap).isSome) :
    SignerRequest.calls (cappedService cap hcap).codec (cappedPolicy cap).unknown_calls
      (.sign_auth_entry entryRequest) = some [samplePaymentCall] := by
  show SignerRequest.calls (sampleService sampleEntry).codec .Refuse
    (.sign_auth_entry entryRequest) = some [samplePaymentCall]
  decide +kernel

theorem cappedService_resolve (cap : String) (hcap : (parseI128 cap).isSome) :
    (cappedService cap hcap).resolve cappedArrival.caller.subject = .ok sampleRegistration := rfl

theorem cappedService_policyFor (cap : String) (hcap : (parseI128 cap).isSome) :
    (cappedService cap hcap).policyFor sampleRegistration = .ok (cappedPolicy cap) := by
  show ((sampleService sampleEntry).withPolicy sampleRegistration.policy (cappedPolicy cap)
    (cappedPolicy_valid hcap)).policyFor sampleRegistration = .ok (cappedPolicy cap)
  exact withPolicy_policyFor _

theorem fifty_parses : (parseI128 "50").isSome := by
  decide +kernel

theorem ten_parses : (parseI128 "10").isSome := by
  decide +kernel

/-- The payment of 40 is within a ceiling of 50. -/
theorem caps_bound_payment : ∃ es text,
    Fallible.Trace ((cappedService "50" fifty_parses).handle cappedArrival
      (.sign_auth_entry entryRequest)) es (.ok text) ∧ CapsBound 100 50 [40] es := by
  have hsigned : ((cappedThread "50" fifty_parses).2.signedText ()).isSome := by
    decide +kernel
  have hcap : (cappedPolicy "50").transactionCap = some 50 := by
    decide +kernel
  obtain ⟨es, text, htrace⟩ := cappedThread_signed hsigned
  refine ⟨es, text, htrace, (caps_bound_iff (cappedService_resolve _ _)
    (cappedService_policyFor _ _) (cappedPolicy_amountCap _) hcap (cappedService_calls _ _)
    htrace).mpr ?_⟩
  show ([40] : List Int).sum ≤ 50
  decide

/-- And it is signed over one of 10. -/
theorem payment_over_cap_signed :
    ¬ ∀ (service : Service) (arrival : Arrival) (request : SignerRequest)
      (registration : Registration) (policy : Policy) (amount_cap transaction_cap : Int)
      (calls : List InspectedCall) (es : List ServiceEvent) (text : String),
      service.resolve arrival.caller.subject = .ok registration →
      service.policyFor registration = .ok policy → policy.amountCap = some amount_cap →
      policy.transactionCap = some transaction_cap →
      request.calls service.codec policy.unknown_calls = some calls →
      Fallible.Trace (service.handle arrival request) es (.ok text) →
        CapsBound amount_cap transaction_cap (calls.flatMap InspectedCall.amounts) es := by
  intro h
  have hsigned : ((cappedThread "10" ten_parses).2.signedText ()).isSome := by
    decide +kernel
  have hcap : (cappedPolicy "10").transactionCap = some 10 := by
    decide +kernel
  obtain ⟨es, text, htrace⟩ := cappedThread_signed hsigned
  have hbound := h _ _ _ _ _ _ _ _ _ _ (cappedService_resolve _ _) (cappedService_policyFor _ _)
    (cappedPolicy_amountCap _) hcap (cappedService_calls _ _) htrace
  have htotal : ([40] : List Int).sum ≤ 10 := hbound.total
  revert htotal
  decide

end StellarAgent.Signer
