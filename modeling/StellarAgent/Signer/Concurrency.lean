import StellarAgent.Signer.AuditCompleteness

set_option autoImplicit false

/-! # Concurrent requests

Any number of requests, each under way in its own thread, share the audit log, the rate limits and
the ledger clock. Between two operations of one request any others can come.

What a request has asked so far is the beginning of one of the ends of its path. So a commit is the
commit of a request that was allowed, and a signature has been committed.
-/

namespace StellarAgent.Signer

open Lib Soroban

structure Incoming where
  arrival : Arrival
  request : SignerRequest

/-- The threads of some requests, before any has started. -/
def Service.start {ι : Type} (service : Service) (state : ServiceState) (incoming : ι → Incoming) :
    Interleaved ι ServiceState ServiceOp Answer (Except ServiceError String) where
  shared := state
  thread := fun i => (service.handle (incoming i).arrival (incoming i).request).run

abbrev ServiceThreads (ι : Type) :=
  Interleaved ι ServiceState ServiceOp Answer (Except ServiceError String)

abbrev ServiceTransition (ι : Type) := Transition (ServiceThreads ι) (ι × ServiceEvent)

/-- One operation of one request. -/
abbrev ServiceStep {ι : Type} [DecidableEq ι] (service : Service) :
    ServiceThreads ι → ι × ServiceEvent → ServiceThreads ι → Prop :=
  InterleavedStep service.execute

section

variable {ι : Type} [DecidableEq ι] {service : Service} {state : ServiceState}
  {incoming : ι → Incoming} {tr : List (ServiceTransition ι)} {m : ServiceThreads ι} {i : ι}

/-- What a request has asked begins one of its traces. -/
theorem trace_under_way (h : Run (ServiceStep service) (service.start state incoming) tr m) (i : ι) :
    ∃ rest response, Fallible.Trace (service.handle (incoming i).arrival (incoming i).request)
      (eventsOf i tr ++ rest) response :=
  (Interleaved.steps_of_run h i).extend

/-- What an answered request has asked is one of its traces. -/
theorem trace_answered (h : Run (ServiceStep service) (service.start state incoming) tr m)
    {response : Except ServiceError String} (hended : m.thread i = .ret response) :
    Fallible.Trace (service.handle (incoming i).arrival (incoming i).request) (eventsOf i tr)
      response :=
  Interleaved.trace_of_run h hended

end

/-! ## Commits -/

section

variable {service : Service} {arrival : Arrival} {request : SignerRequest}
  {es : List ServiceEvent} {response : Except ServiceError String} {e : ServiceEvent}

/-- The request is decoded and allowed, and this is what it commits. -/
structure CommitOf (service : Service) (arrival : Arrival) (request : SignerRequest)
    (policy : Policy) (decoded : Decoded) (e : ServiceEvent) : Prop where
  admitted : ∃ plan registration, service.plan arrival.now request = some plan ∧
    Admitted service plan arrival registration policy decoded
  passes : ∀ call ∈ decoded.calls, CallPasses policy call
  event : e = commitEvent policy arrival.caller.subject decoded.total arrival.now

/-- A request consumes budget only by the commit of its signature. -/
theorem commit_origin (h : Fallible.Trace (service.handle arrival request) es response)
    (he : e ∈ es) (hconsumes : Consumes e) :
    ∃ policy decoded, CommitOf service arrival request policy decoded e := by
  cases hplan : service.plan arrival.now request with
  | none =>
      cases request with
      | public_key =>
          have hconsumed := (publicKey_complete h).consumed.mp ⟨e, he, hconsumes⟩
          exact absurd rfl hconsumed.1
      | sign_transaction request => cases hplan
      | sign_auth_entry request => cases hplan
  | some plan =>
      rw [handle_eq hplan] at h
      have hquiet : ∀ {registration policy decoded address asked decision},
          Admitted service plan arrival registration policy decoded →
          Decides service arrival registration policy decoded address asked decision →
          ∀ e ∈ asked, ¬ Consumes e :=
        fun hadmitted hdecides => (hdecides.quiet (plan_regular hplan hadmitted.decoded_eq)).2
      cases path_trace h with
      | unresolved _ => cases he
      | unconfigured _ _ => cases he
      | undecodable _ _ _ =>
          obtain rfl := List.mem_singleton.mp he
          exact hconsumes.elim
      | keyless hadmitted hobserve hkey =>
          have hregular := plan_regular hplan hadmitted.decoded_eq
          rcases List.mem_append.mp he with he | he
          · exact absurd hconsumes ((hregular.observe_quiet _ _ hobserve).2 e he)
          · exact absurd hconsumes ((resolvePublicKey_quiet hkey).2 e he)
      | denied hadmitted hdecides =>
          exact absurd hconsumes (not_consumes (hquiet hadmitted hdecides) e he)
      | unsigned hadmitted hdecides hunsigned =>
          rcases List.mem_append.mp he with he | he
          · exact absurd hconsumes (hquiet hadmitted hdecides e he)
          · cases hunsigned with
            | payload _ => cases he
            | backend _ =>
                obtain rfl := List.mem_singleton.mp he
                exact hconsumes.elim
            | address _ _ =>
                obtain rfl := List.mem_singleton.mp he
                exact hconsumes.elim
            | attach _ _ _ =>
                obtain rfl := List.mem_singleton.mp he
                exact hconsumes.elim
      | unrecorded hadmitted hdecides _ =>
          rcases List.mem_append.mp he with he | he
          · exact absurd hconsumes (hquiet hadmitted hdecides e he)
          · simp only [List.mem_cons, List.not_mem_nil, or_false] at he
            rcases he with rfl | rfl
            · exact hconsumes.elim
            · exact hconsumes.elim
      | signed hadmitted hdecides _ =>
          rcases List.mem_append.mp he with he | he
          · exact absurd hconsumes (hquiet hadmitted hdecides e he)
          · simp only [List.mem_cons, List.not_mem_nil, or_false] at he
            rcases he with rfl | rfl | rfl
            · exact hconsumes.elim
            · exact hconsumes.elim
            · exact ⟨_, _, ⟨_, _, hplan, hadmitted⟩,
                plan_calls_pass hplan hadmitted.decoded_eq hdecides, rfl⟩

/-- A signature has been committed. -/
theorem signed_commits {text : String}
    (h : Fallible.Trace (service.handle arrival request) es (.ok text))
    (hsigning : request ≠ .public_key) :
    ∃ policy decoded e, CommitOf service arrival request policy decoded e ∧ e ∈ es := by
  cases hplan : service.plan arrival.now request with
  | none =>
      cases request with
      | public_key => exact absurd rfl hsigning
      | sign_transaction request => cases hplan
      | sign_auth_entry request => cases hplan
  | some plan =>
      rw [handle_eq hplan] at h
      obtain ⟨registration, policy, decoded, address, asked, payload, signature, hadmitted,
        hdecides, _, rfl⟩ := (path_trace h).of_signed
      refine ⟨policy, decoded, commitEvent policy arrival.caller.subject decoded.total arrival.now,
        ⟨⟨plan, registration, hplan, hadmitted⟩, ?_, rfl⟩, by simp⟩
      exact plan_calls_pass hplan hadmitted.decoded_eq hdecides

end

/-! ## A service with one identity -/

/-- A payment of 40. -/
def samplePayment : InvokeContractArgs where
  contract_address := .Contract (digestOf 0)
  function_name := utf8 "pay".toList
  args := [.Address (.Account (digestOf 0)), .U64 1, .Address (.Contract (digestOf 1)), .I128 0 40,
    .String []]

/-- What is inspected of it. -/
def samplePaymentCall : InspectedCall where
  contract := "CABC"
  function := "pay"
  args := [⟨.Signer, .Address "GABC"⟩, ⟨.Id, .Int 1⟩, ⟨.Recipient, .Address "CABC"⟩,
    ⟨.Amount, .Int 40⟩, ⟨.Text, .Text ""⟩]
  conservative := false

def sampleTransaction : Transaction where
  source_account := .Ed25519 (digestOf 0)
  fee := 100
  seq_num := 1
  cond := .Time ⟨0, 1800000000⟩
  memo := []
  operations := [⟨none, .InvokeHostFunction ⟨.InvokeContract samplePayment, []⟩⟩]
  ext := []

def sampleEntry : SorobanAuthorizationEntry where
  credentials := .Address ⟨.Account (digestOf 0), 1, 0, .Void⟩
  root_invocation := .mk (.ContractFn samplePayment) []

/-- One payment an hour, of up to 100. -/
def samplePolicy : Policy :=
  { Policy.default with
    networks := ["Test SDF Network ; September 2015"]
    max_amount_stroops := some "100"
    recipients := ["CABC"]
    contracts := ["CABC"]
    functions := ["pay"]
    rate_limit := some ⟨3600, 1, some "100"⟩ }

def sampleRegistration : Registration := ⟨⟨"memory", "agent"⟩, "payments"⟩

/-- Every envelope decodes to the sample transaction, and every entry to the given one. -/
def sampleService (entry : SorobanAuthorizationEntry) : Service where
  codec := { bareCodec with
    decodeEnvelope := fun _ => .ok (.Tx ⟨sampleTransaction, []⟩)
    decodeAuthEntry := fun _ => .ok entry }
  backends := ["memory"]
  registry := Finmap.singleton "agent" sampleRegistration
  policies := ⟨Finmap.singleton "payments" samplePolicy, fun name policy h => by
    by_cases hname : name = "payments"
    · rw [hname, Finmap.lookup_singleton_eq] at h
      obtain rfl := Option.some.inj h
      rw [hname]
      decide +kernel
    · rw [Finmap.lookup_eq_none.mpr (by simpa using hname)] at h
      cases h⟩

/-- The backends and the sink of the audit log answer. -/
def sampleOutside : Outside where
  public_key := .ok (digestOf 0)
  signature := .ok ⟨List.replicate 64 0, rfl⟩
  written := .ok ()

def sampleState : ServiceState where
  audit := AuditLog.new
  rate_limits := RateLimitState.new
  clock := ⟨100, 10⟩

/-- The text that a request has been answered with, if it was signed. -/
def ServiceThreads.signedText {ι : Type} (m : ServiceThreads ι) (i : ι) : Option String :=
  match m.thread i with
  | .ret (.ok text) => some text
  | _ => none

theorem ServiceThreads.signedText_eq {ι : Type} {m : ServiceThreads ι} {i : ι} {text : String}
    (h : m.signedText i = some text) : m.thread i = .ret (.ok text) := by
  unfold ServiceThreads.signedText at h
  split at h
  · rename_i signed hthread
    rw [hthread, Option.some.inj h]
  · cases h

end StellarAgent.Signer
