import StellarAgent.Signer.Concurrency

set_option autoImplicit false

/-! # The ledger ratchet

Every `sign_auth_entry` request that decodes moves the ledger clock by the ledger it claims, before
it is known whether the request is allowed, within its rate limit, or can be signed. So the estimate
also advances by requests that are refused.

Where the requests that advance it are allowed and answered, and are answered before others that
have read the advanced estimate, the estimate advances by grants only (`ratchet_advances_by_grants`).
-/

namespace StellarAgent.Signer

open Lib Soroban

/-- A request for a signature of an authorization entry. -/
structure AuthIncoming where
  arrival : Arrival
  request : SignAuthEntryRequest

def AuthIncoming.incoming (asked : AuthIncoming) : Incoming :=
  ⟨asked.arrival, .sign_auth_entry asked.request⟩

/-! ## What a run does to the estimate -/

section

variable {ι : Type}

/-- The step advances the estimate. -/
def Raises (x : ServiceTransition ι) : Prop :=
  x.pre.shared.clock.state < x.post.shared.clock.state

instance : DecidablePred (Raises (ι := ι)) := fun _ => Nat.decLt _ _

/-- The step answers its request with a signature. -/
def Grants (x : ServiceTransition ι) : Prop := (x.post.signedText x.act.1).isSome

instance : DecidablePred (Grants (ι := ι)) := fun _ => instDecidableEqBool _ _

def RaisedBy (tr : List (ServiceTransition ι)) (i : ι) : Prop := ∃ x ∈ tr, x.act.1 = i ∧ Raises x

def GrantedBy (tr : List (ServiceTransition ι)) (i : ι) : Prop := ∃ x ∈ tr, x.act.1 = i ∧ Grants x

/-- How many requests have been granted. -/
def grants (tr : List (ServiceTransition ι)) : ℕ := (tr.filter fun x => Grants x).length

/-- **The estimate advances only through signatures.** It never decreases, a refused request leaves
it unchanged, and once all are answered it has advanced by at most `max_advance` for each grant. A
signature is valid for at most `max_auth_validity_ledgers` beyond what the grants so far allow. -/
structure RatchetSound (service : Service) (asked : ι → AuthIncoming) (clock : RatchetingClock)
    (tr : List (ServiceTransition ι)) (m : ServiceThreads ι) : Prop where
  monotone : ∀ x ∈ tr, x.pre.shared.clock.state ≤ x.post.shared.clock.state
  refused : ∀ i error, m.thread i = .ret (.error error) →
    ∀ x ∈ tr, x.act.1 = i → x.post.shared.clock.state = x.pre.shared.clock.state
  increase : (∀ x ∈ tr, ∃ response, m.thread x.act.1 = .ret response) →
    m.shared.clock.state ≤ clock.state + clock.max_advance * grants tr
  valid_until : ∀ before x after, tr = before ++ x :: after → Grants x →
    ∀ registration policy,
      service.resolve (asked x.act.1).arrival.caller.subject = .ok registration →
      service.policyFor registration = .ok policy →
      (asked x.act.1).request.valid_until_ledger_seq ≤
        clock.state + clock.max_advance * grants (before ++ [x]) + policy.max_auth_validity_ledgers

/-! ## The condition -/

/-- Nothing that a decoded request meets keeps it from being signed: the key is available, the rules
and the rate limits do not object, the backend signs, the signature can be put into the entry, and
the log takes the record. -/
structure GoesWell (service : Service) (asked : AuthIncoming) (registration : Registration)
    (policy : Policy) (entry : SorobanAuthorizationEntry) (inspected : InspectedAuthEntry)
    (es : List ServiceEvent) : Prop where
  backend : service.backend registration.key = .ok ()
  key : ∀ answer, publicKeyEvent registration.key answer ∈ es → ∃ raw, answer = .ok raw
  allowed : ∀ raw current_ledger, publicKeyEvent registration.key (.ok raw) ∈ es →
    ledgerEvent current_ledger ∈ es → AuthEntryAllowed policy {
      entry := inspected, network_passphrase := asked.request.network_passphrase
      signing_address := service.codec.publicKeyText raw
      requested_valid_until := asked.request.valid_until_ledger_seq
      current_ledger, now := asked.arrival.now }
  room : ∀ amount limited,
    checkEvent policy asked.arrival.caller.subject amount asked.arrival.now limited ∈ es →
      limited = none
  payload : ∃ payload, service.authEntrySigningPayload entry asked.request.network_passphrase
    asked.request.valid_until_ledger_seq = .ok payload
  signature : ∀ payload answer, signEvent registration.key payload answer ∈ es →
    ∃ signature, answer = .ok signature
  attached : ∀ raw payload signature, publicKeyEvent registration.key (.ok raw) ∈ es →
    signEvent registration.key payload (.ok signature) ∈ es → ∃ public_key signed, service.signingKey (service.codec.publicKeyText raw) = .ok public_key ∧
      attachToEntry service.codec entry asked.request.valid_until_ledger_seq public_key signature =
        .ok signed
  recorded : ∀ pending written, recordEvent pending written ∈ es → written = .ok ()

/-- **The condition.** All goes well with the requests that advance the estimate, and a request is
granted only when each other one that had advanced the estimate it read has been answered. -/
structure RaisersAnswered [DecidableEq ι] (service : Service) (asked : ι → AuthIncoming)
    (tr : List (ServiceTransition ι)) : Prop where
  well : ∀ i, RaisedBy tr i → ∀ registration policy entry inspected,
    service.resolve (asked i).arrival.caller.subject = .ok registration →
    service.policyFor registration = .ok policy →
    inspectAuthEntry service.codec (asked i).request.auth_entry_xdr policy.unknown_calls =
      .ok (entry, inspected) →
    GoesWell service (asked i) registration policy entry inspected (eventsOf i tr)
  order : ∀ earlier y later x after current_ledger,
    tr = earlier ++ y :: later ++ x :: after → Grants x →
    y.act = (x.act.1, ledgerEvent current_ledger) →
    ∀ j, j ≠ x.act.1 → RaisedBy earlier j → ∃ response, x.pre.thread j = .ret response

end

/-! ## One step -/

section

variable {ι : Type} [DecidableEq ι] {service : Service} {m m' : ServiceThreads ι} {i : ι}
  {e : ServiceEvent}

/-- Only a claimed ledger moves the clock, and by at most `max_advance`. -/
theorem clock_step (h : ServiceStep service m (i, e) m') (hset : m.shared.clock.state ≠ 0) :
    m'.shared.clock.max_advance = m.shared.clock.max_advance ∧
    (m'.shared.clock.state = m.shared.clock.state ∨
      (∃ claimed, e = observeEvent claimed (.ok ())) ∧
        m.shared.clock.state < m'.shared.clock.state ∧
        m'.shared.clock.state ≤ m.shared.clock.state + m.shared.clock.max_advance) := by
  obtain ⟨next, choice, _, hexec, _⟩ := h
  obtain ⟨op, answer⟩ := e
  have hshared : m'.shared = (service.execute m.shared op choice).2 := by rw [hexec]
  have hanswer : answer = (service.execute m.shared op choice).1 := by rw [hexec]
  cases op with
  | observe claimed =>
      have hclock : m'.shared.clock = (m.shared.clock.observe claimed).2 := by rw [hshared]; rfl
      replace hanswer : answer = (m.shared.clock.observe claimed).1 := hanswer
      rw [hclock, hanswer]
      unfold RatchetingClock.observe saturatingAddU32
      rw [if_neg hset]
      by_cases hlow : claimed ≤ m.shared.clock.state
      · rw [if_pos hlow]
        exact ⟨rfl, Or.inl rfl⟩
      · rw [if_neg hlow]
        dsimp only
        by_cases hceiling : claimed > min U32_MAX (m.shared.clock.state + m.shared.clock.max_advance)
        · rw [if_pos hceiling]
          exact ⟨rfl, Or.inl rfl⟩
        · rw [if_neg hceiling]
          have hraised : m.shared.clock.state < claimed := by omega
          have hbound : claimed ≤ m.shared.clock.state + m.shared.clock.max_advance := by omega
          exact ⟨rfl, Or.inr ⟨⟨claimed, rfl⟩, hraised, hbound⟩⟩
  | commit _ _ _ _ => rw [hshared]; exact ⟨rfl, Or.inl rfl⟩
  | public_key _ => rw [hshared]; exact ⟨rfl, Or.inl rfl⟩
  | sign _ _ => rw [hshared]; exact ⟨rfl, Or.inl rfl⟩
  | record _ => rw [hshared]; exact ⟨rfl, Or.inl rfl⟩
  | check _ _ _ _ => rw [hshared]; exact ⟨rfl, Or.inl rfl⟩
  | current_ledger => rw [hshared]; exact ⟨rfl, Or.inl rfl⟩

theorem ledger_step {current_ledger : Nat}
    (h : ServiceStep service m (i, ledgerEvent current_ledger) m') :
    current_ledger = m.shared.clock.state := by
  obtain ⟨next, choice, _, hexec, _⟩ := h
  exact (congrArg Prod.fst hexec).symm

end

/-! ## One request -/

section

variable {service : Service} {arrival : Arrival} {request : SignAuthEntryRequest}
  {es : List ServiceEvent} {response : Except ServiceError String}

/-- The clock is asked. -/
def IsObserve : ServiceEvent → Prop
  | ⟨.observe _, _⟩ => True
  | _ => False

/-- What is asked up to the decision, and the decision. -/
theorem decidesAuthEntry_events {registration : Registration} {policy : Policy}
    {entry : SorobanAuthorizationEntry} {inspected : InspectedAuthEntry} {address : String}
    {decision : Decision}
    (h : Decides service arrival registration policy
      (decodedAuthEntry service arrival.now request policy entry inspected) address es decision) :
    ∃ answer raw current_ledger limited,
      address = service.codec.publicKeyText raw ∧
      es = [observeEvent (request.claimedNow policy) answer,
        publicKeyEvent registration.key (.ok raw), ledgerEvent current_ledger,
        checkEvent policy arrival.caller.subject
          (saturatingSum (inspected.call.toList.flatMap InspectedCall.amounts)) arrival.now
          limited] ∧
      decision = ((evaluateAuthEntry service.codec policy {
          entry := inspected, network_passphrase := request.network_passphrase
          signing_address := address, requested_valid_until := request.valid_until_ledger_seq
          current_ledger, now := arrival.now }).violations.foldl Decision.merge
        (request.observed answer)).limit limited := by
  obtain ⟨hobserve, _, hevaluate⟩ := h
  obtain ⟨answer, rfl, rfl⟩ := decodedAuthEntry_observe.mp hobserve
  obtain ⟨current_ledger, rfl, rfl⟩ := decodedAuthEntry_evaluate.mp hevaluate
  exact ⟨answer, _, current_ledger, _, rfl, rfl, rfl⟩

/-- A request that has asked the clock asked it first, and once. -/
structure Observed (service : Service) (asked : AuthIncoming) (es : List ServiceEvent)
    (response : Except ServiceError String) (registration : Registration) (policy : Policy)
    (entry : SorobanAuthorizationEntry) (inspected : InspectedAuthEntry)
    (answer : Except Nat Unit) : Prop where
  resolved : service.resolve asked.arrival.caller.subject = .ok registration
  policy_found : service.policyFor registration = .ok policy
  inspected_eq : inspectAuthEntry service.codec asked.request.auth_entry_xdr policy.unknown_calls =
    .ok (entry, inspected)
  first : ∃ rest, es = observeEvent (asked.request.claimedNow policy) answer :: rest ∧
    ∀ e ∈ rest, ¬ IsObserve e
  /-- it is signed if the clock took its claim and all goes well -/
  signed : answer = .ok () → GoesWell service asked registration policy entry inspected es →
    ∃ text, response = .ok text

theorem GoesWell.decision {asked : AuthIncoming} {registration : Registration} {policy : Policy}
    {entry : SorobanAuthorizationEntry} {inspected : InspectedAuthEntry} {raw : BytesN 32}
    {current_ledger : Nat} {limited : Option Violation} {amount : Int}
    (h : GoesWell service asked registration policy entry inspected es)
    (hkey : publicKeyEvent registration.key (.ok raw) ∈ es)
    (hledger : ledgerEvent current_ledger ∈ es)
    (hcheck : checkEvent policy asked.arrival.caller.subject amount asked.arrival.now limited ∈ es) :
    ((evaluateAuthEntry service.codec policy {
          entry := inspected, network_passphrase := asked.request.network_passphrase
          signing_address := service.codec.publicKeyText raw
          requested_valid_until := asked.request.valid_until_ledger_seq
          current_ledger, now := asked.arrival.now }).violations.foldl Decision.merge
        (asked.request.observed (.ok ()))).limit limited = .Allow := by
  rw [Decision.limit_allow, Decision.mergeAll_allow, Decision.violations_eq_nil,
    evaluateAuthEntry_allow]
  exact ⟨⟨rfl, h.allowed raw current_ledger hkey hledger⟩, h.room amount limited hcheck⟩

/-- A request that reaches its decision. -/
theorem observed_of_decides {asked : AuthIncoming} {registration : Registration} {policy : Policy}
    {decoded : Decoded} {address : String} {decision : Decision} {tail : List ServiceEvent}
    (hadmitted : Admitted service (authEntryPlan service asked.arrival.now asked.request)
      asked.arrival registration policy decoded)
    (hdecides : Decides service asked.arrival registration policy decoded address es decision)
    (htail : ∀ e ∈ tail, ¬ IsObserve e)
    (hsigned : decision = .Allow → ∀ entry inspected raw,
      decoded = decodedAuthEntry service asked.arrival.now asked.request policy entry inspected →
      address = service.codec.publicKeyText raw →
      publicKeyEvent registration.key (.ok raw) ∈ es ++ tail →
      GoesWell service asked registration policy entry inspected (es ++ tail) →
      ∃ text, response = .ok text) :
    ∃ registration policy entry inspected answer,
      Observed service asked (es ++ tail) response registration policy entry inspected answer := by
  obtain ⟨entry, inspected, hinspect, rfl⟩ := authEntryPlan_decode.mp hadmitted.decoded_eq
  obtain ⟨answer, raw, current_ledger, limited, rfl, rfl, hdecision⟩ :=
    decidesAuthEntry_events hdecides
  refine ⟨registration, policy, entry, inspected, answer, hadmitted.resolved,
    hadmitted.policy_found, hinspect, ⟨_, rfl, ?_⟩, ?_⟩
  · exact List.forall_mem_cons.mpr ⟨id, List.forall_mem_cons.mpr ⟨id,
      List.forall_mem_cons.mpr ⟨id, htail⟩⟩⟩
  · rintro rfl hwell
    have hkey : publicKeyEvent registration.key (.ok raw) ∈
        [observeEvent (asked.request.claimedNow policy) (.ok ()),
          publicKeyEvent registration.key (.ok raw), ledgerEvent current_ledger,
          checkEvent policy asked.arrival.caller.subject
            (saturatingSum (inspected.call.toList.flatMap InspectedCall.amounts)) asked.arrival.now
            limited] ++ tail := by simp
    refine hsigned ?_ entry inspected raw rfl rfl hkey hwell
    rw [hdecision]
    refine hwell.decision hkey ?_ (List.mem_append_left tail (List.mem_cons_of_mem _
      (List.mem_cons_of_mem _ (List.mem_cons_of_mem _ List.mem_cons_self))))
    simp

theorem signAuthEntry_observed {asked : AuthIncoming}
    (h : Fallible.Trace (service.handle asked.arrival (.sign_auth_entry asked.request)) es response)
    (hasked : ∃ e ∈ es, IsObserve e) :
    ∃ registration policy entry inspected answer,
      Observed service asked es response registration policy entry inspected answer := by
  have hplan : service.plan asked.arrival.now (.sign_auth_entry asked.request) =
      some (authEntryPlan service asked.arrival.now asked.request) := rfl
  rw [handle_eq hplan] at h
  cases path_trace h with
  | unresolved _ =>
      obtain ⟨e, he, _⟩ := hasked
      cases he
  | unconfigured _ _ =>
      obtain ⟨e, he, _⟩ := hasked
      cases he
  | undecodable _ _ _ =>
      obtain ⟨e, he, hobserve⟩ := hasked
      obtain rfl := List.mem_singleton.mp he
      exact hobserve.elim
  | @keyless registration policy decoded observes keys observed error hadmitted hobserve hkey =>
      obtain ⟨entry, inspected, hinspect, rfl⟩ := authEntryPlan_decode.mp hadmitted.decoded_eq
      obtain ⟨answer, rfl, rfl⟩ := decodedAuthEntry_observe.mp hobserve
      refine ⟨registration, policy, entry, inspected, answer, hadmitted.resolved,
        hadmitted.policy_found, hinspect, ⟨keys, rfl, ?_⟩, ?_⟩
      · rcases (resolvePublicKey_trace hadmitted.resolved).mp hkey with ⟨_, _, rfl, _⟩ |
          ⟨_, key, rfl, _⟩
        · simp
        · rw [List.forall_mem_singleton]
          exact id
      · intro _ hwell
        rcases (resolvePublicKey_trace hadmitted.resolved).mp hkey with ⟨_, hbackend, _, _⟩ |
          ⟨_, key, rfl, hresult⟩
        · rw [hwell.backend] at hbackend
          cases hbackend
        · obtain ⟨raw, rfl⟩ := hwell.key key (by simp)
          cases hresult
  | denied hadmitted hdecides =>
      refine observed_of_decides hadmitted hdecides ?_ ?_
      · rw [List.forall_mem_singleton]
        exact id
      · intro hallow
        cases hallow
  | unsigned hadmitted hdecides hunsigned =>
      refine observed_of_decides hadmitted hdecides ?_ ?_
      · cases hunsigned with
        | payload _ => simp
        | backend _ => rw [List.forall_mem_singleton]; exact id
        | address _ _ => rw [List.forall_mem_singleton]; exact id
        | attach _ _ _ => rw [List.forall_mem_singleton]; exact id
      · rintro - entry inspected raw rfl rfl hkey hwell
        cases hunsigned with
        | payload herror =>
            obtain ⟨payload, hpayload⟩ := hwell.payload
            cases hpayload.symm.trans herror
        | backend _ =>
            obtain ⟨signature, hanswer⟩ := hwell.signature _ _
              (List.mem_append_right _ List.mem_cons_self)
            cases hanswer
        | address _ herror =>
            obtain ⟨public_key, signed, haddress, _⟩ := hwell.attached raw _ _ hkey
              (List.mem_append_right _ List.mem_cons_self)
            cases haddress.symm.trans herror
        | attach _ haddress' herror =>
            obtain ⟨public_key, signed, haddress, hattach⟩ := hwell.attached raw _ _ hkey
              (List.mem_append_right _ List.mem_cons_self)
            obtain rfl := Except.ok.inj (haddress.symm.trans haddress')
            cases hattach.symm.trans herror
  | unrecorded hadmitted hdecides _ =>
      refine observed_of_decides hadmitted hdecides ?_ ?_
      · rw [List.forall_mem_cons, List.forall_mem_singleton]
        exact ⟨id, id⟩
      · rintro - entry inspected raw rfl rfl - hwell
        have hwritten := hwell.recorded _ _ (List.mem_append_right _
          (List.mem_cons_of_mem _ List.mem_cons_self))
        cases hwritten
  | signed hadmitted hdecides _ =>
      refine observed_of_decides hadmitted hdecides ?_ (fun _ _ _ _ _ _ _ _ => ⟨_, rfl⟩)
      rw [List.forall_mem_cons, List.forall_mem_cons, List.forall_mem_singleton]
      exact ⟨id, id, id⟩

/-- All has gone well with a request that is signed. -/
theorem signAuthEntry_goesWell {asked : AuthIncoming} {text : String}
    (h : Fallible.Trace (service.handle asked.arrival (.sign_auth_entry asked.request)) es
      (.ok text)) {registration : Registration} {policy : Policy}
    {entry : SorobanAuthorizationEntry} {inspected : InspectedAuthEntry}
    (hresolve : service.resolve asked.arrival.caller.subject = .ok registration)
    (hpolicy : service.policyFor registration = .ok policy)
    (hinspect : inspectAuthEntry service.codec asked.request.auth_entry_xdr policy.unknown_calls =
      .ok (entry, inspected)) :
    GoesWell service asked registration policy entry inspected es := by
  have hplan : service.plan asked.arrival.now (.sign_auth_entry asked.request) =
      some (authEntryPlan service asked.arrival.now asked.request) := rfl
  rw [handle_eq hplan] at h
  obtain ⟨registration', policy', decoded, address, questions, payload, signature, hadmitted,
    hdecides, ⟨hpayload, public_key, hkey, hattach⟩, rfl⟩ := (path_trace h).of_signed
  obtain rfl := Except.ok.inj (hresolve.symm.trans hadmitted.resolved)
  obtain rfl := Except.ok.inj (hpolicy.symm.trans hadmitted.policy_found)
  obtain ⟨entry', inspected', hinspect', rfl⟩ := authEntryPlan_decode.mp hadmitted.decoded_eq
  obtain ⟨rfl, rfl⟩ := Prod.mk.inj (Except.ok.inj (hinspect.symm.trans hinspect'))
  have hbackend := hdecides.backend_ok
  obtain ⟨answer, raw, current_ledger, limited, rfl, rfl, hdecision⟩ :=
    decidesAuthEntry_events hdecides
  obtain ⟨hmerged, rfl⟩ := Decision.limit_allow.mp hdecision.symm
  have hallowed := evaluateAuthEntry_allow.mp
    (Decision.violations_eq_nil.mp (Decision.mergeAll_allow.mp hmerged).2)
  constructor
  case backend => exact hbackend
  case payload => exact ⟨payload, hpayload⟩
  -- each event of the clause is one of the seven that were asked
  all_goals simp only [List.cons_append, List.nil_append, List.mem_cons, List.not_mem_nil, or_false]
  case key =>
    rintro key' (h | h | h | h | h | h | h) <;> cases h
    exact ⟨raw, rfl⟩
  case allowed =>
    rintro raw' ledger' (h | h | h | h | h | h | h) (h' | h' | h' | h' | h' | h' | h') <;> cases h
      <;> cases h'
    exact hallowed
  case room =>
    rintro amount' limited' (h | h | h | h | h | h | h) <;> cases h
    rfl
  case signature =>
    rintro payload' answer' (h | h | h | h | h | h | h) <;> cases h
    exact ⟨signature, rfl⟩
  case attached =>
    rintro raw' payload' signature' (h | h | h | h | h | h | h)
      (h' | h' | h' | h' | h' | h' | h') <;> cases h <;> cases h'
    exact ⟨public_key, text, hkey, hattach⟩
  case recorded =>
    rintro pending' written' (h | h | h | h | h | h | h) <;> cases h
    rfl

end

/-! ## A request in a run -/

section

variable {ι : Type} [DecidableEq ι] {service : Service} {state : ServiceState}
  {asked : ι → AuthIncoming} {tr : List (ServiceTransition ι)} {m : ServiceThreads ι} {i : ι}

/-- The runs of `sign_auth_entry` requests. -/
abbrev AuthRun (service : Service) (state : ServiceState) (asked : ι → AuthIncoming)
    (tr : List (ServiceTransition ι)) (m : ServiceThreads ι) : Prop :=
  Run (ServiceStep service) (service.start state fun i => (asked i).incoming) tr m

/-- A request asks the clock first. -/
theorem observe_starts (h : AuthRun service state asked tr m) {m' : ServiceThreads ι}
    {claimed : Nat} {answer : Except Nat Unit}
    (hstep : ServiceStep service m (i, observeEvent claimed answer) m') : eventsOf i tr = [] := by
  obtain ⟨rest, response, htrace⟩ := trace_under_way (Run.snoc h hstep) i
  rw [eventsOf_snoc_self] at htrace
  obtain ⟨_, _, _, _, _, hobserved⟩ := signAuthEntry_observed htrace
    ⟨observeEvent claimed answer, by simp, trivial⟩
  obtain ⟨others, hfirst, hquiet⟩ := hobserved.first
  cases hevents : eventsOf i tr with
  | nil => rfl
  | cons first events =>
      rw [hevents] at hfirst
      obtain ⟨_, hrest⟩ := List.cons.inj hfirst
      exact absurd trivial (hquiet (observeEvent claimed answer) (by rw [← hrest]; simp))

theorem GoesWell.mono {asked : AuthIncoming} {registration : Registration} {policy : Policy}
    {entry : SorobanAuthorizationEntry} {inspected : InspectedAuthEntry}
    {es es' : List ServiceEvent} (h : GoesWell service asked registration policy entry inspected es)
    (hsub : ∀ e ∈ es', e ∈ es) :
    GoesWell service asked registration policy entry inspected es' where
  backend := h.backend
  key := fun answer hkey => h.key answer (hsub _ hkey)
  allowed := fun raw current_ledger hkey hledger =>
    h.allowed raw current_ledger (hsub _ hkey) (hsub _ hledger)
  room := fun amount limited hcheck => h.room amount limited (hsub _ hcheck)
  payload := h.payload
  signature := fun payload answer hsign => h.signature payload answer (hsub _ hsign)
  attached := fun raw payload signature hkey hsign =>
    h.attached raw payload signature (hsub _ hkey) (hsub _ hsign)
  recorded := fun pending written hrecord => h.recorded pending written (hsub _ hrecord)

/-- The clock is set throughout a run, and its `max_advance` stays. -/
theorem clock_run (h : AuthRun service state asked tr m) (hset : state.clock.state ≠ 0) :
    m.shared.clock.state ≠ 0 ∧ m.shared.clock.max_advance = state.clock.max_advance := by
  refine h.invariant (I := fun m => m.shared.clock.state ≠ 0 ∧
    m.shared.clock.max_advance = state.clock.max_advance) ⟨hset, rfl⟩ ?_
  rintro k ⟨i, e⟩ k' ⟨hset', hmax⟩ hstep
  obtain ⟨hmax', hsame | ⟨_, hraised, _⟩⟩ := clock_step hstep hset'
  · exact ⟨by rwa [hsame], hmax'.trans hmax⟩
  · exact ⟨by omega, hmax'.trans hmax⟩

/-- A raise is the request's first question, which the clock accepts. -/
theorem Raises.observe {x : ServiceTransition ι} (h : Raises x) (hset : x.pre.shared.clock.state ≠ 0)
    (hstep : ServiceStep service x.pre x.act x.post) :
    ∃ claimed, x.act = (x.act.1, observeEvent claimed (.ok ())) := by
  obtain ⟨-, hsame | ⟨⟨claimed, he⟩, -, -⟩⟩ := clock_step (i := x.act.1) (e := x.act.2) hstep hset
  · exact absurd h (by rw [Raises, hsame]; exact lt_irrefl _)
  · exact ⟨claimed, Prod.ext rfl he⟩

theorem RaisedBy.observed (h : RaisedBy tr i) (hrun : AuthRun service state asked tr m)
    (hset : state.clock.state ≠ 0) : ∃ claimed, observeEvent claimed (.ok ()) ∈ eventsOf i tr := by
  obtain ⟨x, hx, rfl, hraises⟩ := h
  obtain ⟨before, after, rfl, hbefore, hstep, -⟩ := hrun.of_mem hx
  obtain ⟨claimed, hact⟩ := hraises.observe (clock_run hbefore hset).1 hstep
  exact ⟨claimed, mem_eventsOf.mpr ⟨x, hx, hact⟩⟩

/-! ## What raises the estimate -/

def raisers (tr : List (ServiceTransition ι)) : Finset ι :=
  ((tr.filter fun x => Raises x).map fun x => x.act.1).toFinset

theorem mem_raisers : i ∈ raisers tr ↔ RaisedBy tr i := by
  unfold raisers RaisedBy
  simp only [List.mem_toFinset, List.mem_map, List.mem_filter, decide_eq_true_eq]
  constructor
  · rintro ⟨x, ⟨hx, hraises⟩, hact⟩
    exact ⟨x, hx, hact, hraises⟩
  · rintro ⟨x, hx, hact, hraises⟩
    exact ⟨x, ⟨hx, hraises⟩, hact⟩

theorem raisers_snoc (x : ServiceTransition ι) :
    raisers (tr ++ [x]) = if Raises x then insert x.act.1 (raisers tr) else raisers tr := by
  ext j
  rw [mem_raisers]
  by_cases hraises : Raises x
  · rw [if_pos hraises, Finset.mem_insert, mem_raisers]
    constructor
    · rintro ⟨y, hy, hact, hy'⟩
      rcases List.mem_append.mp hy with hy | hy
      · exact Or.inr ⟨y, hy, hact, hy'⟩
      · obtain rfl := List.mem_singleton.mp hy
        exact Or.inl hact.symm
    · rintro (rfl | ⟨y, hy, hact, hy'⟩)
      · exact ⟨x, by simp, rfl, hraises⟩
      · exact ⟨y, List.mem_append_left _ hy, hact, hy'⟩
  · rw [if_neg hraises, mem_raisers]
    constructor
    · rintro ⟨y, hy, hact, hy'⟩
      rcases List.mem_append.mp hy with hy | hy
      · exact ⟨y, hy, hact, hy'⟩
      · obtain rfl := List.mem_singleton.mp hy
        exact absurd hy' hraises
    · rintro ⟨y, hy, hact, hy'⟩
      exact ⟨y, List.mem_append_left _ hy, hact, hy'⟩

/-- **The estimate.** It has advanced by at most `max_advance` for each request that raised it. -/
theorem estimate_le (h : AuthRun service state asked tr m) (hset : state.clock.state ≠ 0) :
    m.shared.clock.state ≤
      state.clock.state + state.clock.max_advance * (raisers tr).card := by
  refine h.history (P := fun tr m => m.shared.clock.state ≤
    state.clock.state + state.clock.max_advance * (raisers tr).card) (Nat.le_add_right _ _) ?_
  rintro tr k ⟨i, e⟩ k' hrun ih hstep
  obtain ⟨hset', hmax⟩ := clock_run hrun hset
  obtain ⟨-, hsame | ⟨⟨claimed, rfl⟩, hraised, hbound⟩⟩ := clock_step hstep hset'
  · have hnot : ¬ Raises (⟨k, (i, e), k'⟩ : ServiceTransition ι) := by
      rw [Raises, hsame]
      exact lt_irrefl _
    rw [raisers_snoc, if_neg hnot, hsame]
    exact ih
  · have hraises : Raises (⟨k, (i, observeEvent claimed (.ok ())), k'⟩ : ServiceTransition ι) :=
      hraised
    have hnew : i ∉ raisers tr := by
      intro hmem
      obtain ⟨_, hevent⟩ := (mem_raisers.mp hmem).observed hrun hset
      rw [observe_starts hrun hstep] at hevent
      cases hevent
    rw [raisers_snoc, if_pos hraises, Finset.card_insert_of_notMem hnew, Nat.mul_add, mul_one]
    rw [hmax] at hbound
    omega

/-! ## What is granted -/

theorem card_le_grants {s : Finset ι} (h : ∀ i ∈ s, GrantedBy tr i) : s.card ≤ grants tr := by
  have hsub : s ⊆ ((tr.filter fun x => Grants x).map fun x => x.act.1).toFinset := by
    intro i hi
    obtain ⟨x, hx, hact, hgrants⟩ := h i hi
    rw [List.mem_toFinset, List.mem_map]
    exact ⟨x, List.mem_filter.mpr ⟨hx, decide_eq_true hgrants⟩, hact⟩
  calc s.card ≤ _ := Finset.card_le_card hsub
    _ ≤ ((tr.filter fun x => Grants x).map fun x => x.act.1).length := List.toFinset_card_le _
    _ = grants tr := List.length_map _

/-- A request that raised the estimate and with which all goes well is signed once answered. -/
theorem RaisedBy.signed (h : RaisedBy tr i) (hrun : AuthRun service state asked tr m)
    (hset : state.clock.state ≠ 0)
    (hwell : ∀ registration policy entry inspected,
      service.resolve (asked i).arrival.caller.subject = .ok registration →
      service.policyFor registration = .ok policy →
      inspectAuthEntry service.codec (asked i).request.auth_entry_xdr policy.unknown_calls =
        .ok (entry, inspected) →
      GoesWell service (asked i) registration policy entry inspected (eventsOf i tr))
    {response : Except ServiceError String} (hended : m.thread i = .ret response) :
    ∃ text, response = .ok text := by
  obtain ⟨claimed, hevent⟩ := h.observed hrun hset
  obtain ⟨registration, policy, entry, inspected, answer, hobserved⟩ :=
    signAuthEntry_observed (trace_answered hrun hended) ⟨_, hevent, trivial⟩
  obtain ⟨rest, hfirst, hquiet⟩ := hobserved.first
  refine hobserved.signed ?_ (hwell _ _ _ _ hobserved.resolved hobserved.policy_found
    hobserved.inspected_eq)
  rw [hfirst] at hevent
  rcases List.mem_cons.mp hevent with hsame | hlater
  · cases hsame
    rfl
  · exact absurd trivial (hquiet _ hlater)

theorem RaisedBy.granted (h : RaisedBy tr i) (hrun : AuthRun service state asked tr m)
    (hset : state.clock.state ≠ 0) {text : String} (hended : m.thread i = .ret (.ok text)) :
    GrantedBy tr i := by
  obtain ⟨claimed, hevent⟩ := h.observed hrun hset
  obtain ⟨x, hx, hact, hpost⟩ := Interleaved.exists_last hrun (List.ne_nil_of_mem hevent)
  refine ⟨x, hx, hact, ?_⟩
  rw [Grants, ServiceThreads.signedText, hact, hpost, hended]
  rfl

/-! ## The estimate advances through grants -/

/-- A signature's ledger is bounded by the estimate that its request has read. -/
theorem grant_valid_until {before : List (ServiceTransition ι)} {x : ServiceTransition ι}
    (hrun : AuthRun service state asked before x.pre)
    (hstep : ServiceStep service x.pre x.act x.post) (hgrants : Grants x)
    {registration : Registration} {policy : Policy}
    (hresolve : service.resolve (asked x.act.1).arrival.caller.subject = .ok registration)
    (hpolicy : service.policyFor registration = .ok policy) :
    ∃ y ∈ before, y.act = (x.act.1, ledgerEvent y.pre.shared.clock.state) ∧
      (asked x.act.1).request.valid_until_ledger_seq ≤
        y.pre.shared.clock.state + policy.max_auth_validity_ledgers := by
  obtain ⟨text, htext⟩ := Option.isSome_iff_exists.mp hgrants
  have hrun' : AuthRun service state asked (before ++ [x]) x.post := Run.snoc hrun hstep
  have htrace := trace_answered hrun' (ServiceThreads.signedText_eq htext)
  have hplan : service.plan (asked x.act.1).arrival.now
      (.sign_auth_entry (asked x.act.1).request) =
    some (authEntryPlan service (asked x.act.1).arrival.now (asked x.act.1).request) := rfl
  replace htrace : Fallible.Trace (service.handle (asked x.act.1).arrival
    (.sign_auth_entry (asked x.act.1).request)) (eventsOf x.act.1 (before ++ [x])) (.ok text) :=
    htrace
  rw [handle_eq hplan] at htrace
  obtain ⟨registration', policy', decoded, address, questions, payload, signature, hadmitted,
    hdecides, -, hevents⟩ := (path_trace htrace).of_signed
  obtain rfl := Except.ok.inj (hresolve.symm.trans hadmitted.resolved)
  obtain rfl := Except.ok.inj (hpolicy.symm.trans hadmitted.policy_found)
  obtain ⟨entry, inspected, -, rfl⟩ := authEntryPlan_decode.mp hadmitted.decoded_eq
  obtain ⟨current_ledger, raw, rfl, hallowed⟩ := decidesAuthEntry_allow hdecides
  -- the last question is the commit, so the clock was read before
  have hlast : eventsOf x.act.1 before ++ [x.act.2] = eventsOf x.act.1 (before ++ [x]) :=
    eventsOf_snoc_self.symm
  rw [hevents, ← List.dropLast_append_getLast (l := [signEvent _ _ _, _, _]) (by simp),
    ← List.append_assoc] at hlast
  obtain ⟨hbefore, -⟩ := List.append_inj' hlast rfl
  have hread : ledgerEvent current_ledger ∈ eventsOf x.act.1 before := by
    rw [hbefore]
    simp
  obtain ⟨y, hy, hact⟩ := mem_eventsOf.mp hread
  obtain ⟨_, _, _, _, hystep, _⟩ := hrun.of_mem hy
  rw [hact] at hystep
  obtain rfl := ledger_step hystep
  exact ⟨y, hy, hact, hallowed.auth_validity.trans (min_le_right _ _)⟩

/-- **The ledger ratchet.** In a run in which all goes well with the requests that raise the
estimate, and they are answered before others that have read it, it advances by grants only. -/
theorem ratchet_advances_by_grants (hset : state.clock.state ≠ 0)
    (hrun : AuthRun service state asked tr m) (hcondition : RaisersAnswered service asked tr) :
    RatchetSound service asked state.clock tr m := by
  constructor
  · intro x hx
    obtain ⟨before, after, -, hbefore, hstep, -⟩ := hrun.of_mem hx
    obtain ⟨-, hsame | ⟨-, hraised, -⟩⟩ :=
      clock_step (i := x.act.1) (e := x.act.2) hstep (clock_run hbefore hset).1
    · exact hsame.ge
    · exact hraised.le
  · rintro i error hended x hx rfl
    obtain ⟨before, after, -, hbefore, hstep, -⟩ := hrun.of_mem hx
    obtain ⟨-, hsame | ⟨-, hraised, -⟩⟩ :=
      clock_step (i := x.act.1) (e := x.act.2) hstep (clock_run hbefore hset).1
    · exact hsame
    · have hraisedBy : RaisedBy tr x.act.1 := ⟨x, hx, rfl, hraised⟩
      obtain ⟨text, hsigned⟩ := hraisedBy.signed hrun hset (hcondition.well _ hraisedBy) hended
      cases hsigned
  · intro hanswered
    have hgranted : ∀ i ∈ raisers tr, GrantedBy tr i := by
      intro i hi
      have hraisedBy := mem_raisers.mp hi
      obtain ⟨x, hx, rfl, -⟩ := mem_raisers.mp hi
      obtain ⟨response, hended⟩ := hanswered x hx
      obtain ⟨text, rfl⟩ := hraisedBy.signed hrun hset (hcondition.well _ hraisedBy) hended
      exact hraisedBy.granted hrun hset hended
    calc m.shared.clock.state
        ≤ state.clock.state + state.clock.max_advance * (raisers tr).card := estimate_le hrun hset
      _ ≤ state.clock.state + state.clock.max_advance * grants tr := by
          gcongr
          exact card_le_grants hgranted
  · rintro before x after rfl hgrants registration policy hresolve hpolicy
    obtain ⟨hbefore, hstep, -⟩ := hrun.around
    obtain ⟨y, hy, hact, hvalid⟩ := grant_valid_until hbefore hstep hgrants hresolve hpolicy
    obtain ⟨earlier, later, rfl, hearlier, -, -⟩ := hbefore.of_mem hy
    have hgranted : ∀ i ∈ raisers earlier, GrantedBy (earlier ++ y :: later ++ [x]) i := by
      intro i hi
      by_cases hself : i = x.act.1
      · exact ⟨x, by simp, hself.symm, hgrants⟩
      · have hraisedBy := mem_raisers.mp hi
        have hraisedBy' : RaisedBy (earlier ++ y :: later) i := by
          obtain ⟨z, hz, hzact⟩ := hraisedBy
          exact ⟨z, List.mem_append_left _ hz, hzact⟩
        obtain ⟨response, hended⟩ := hcondition.order earlier y later x after _ rfl hgrants hact i
          hself hraisedBy
        have hwell : RaisedBy (earlier ++ y :: later ++ x :: after) i := by
          obtain ⟨z, hz, hzact⟩ := hraisedBy'
          exact ⟨z, List.mem_append_left _ hz, hzact⟩
        obtain ⟨text, rfl⟩ := hraisedBy'.signed hbefore hset (fun _ _ _ _ h h' h'' =>
          (hcondition.well i hwell _ _ _ _ h h' h'').mono (fun e he => by
            rw [eventsOf_append]
            exact List.mem_append_left _ he)) hended
        obtain ⟨z, hz, hzact⟩ := hraisedBy'.granted hbefore hset hended
        exact ⟨z, List.mem_append_left _ hz, hzact⟩
    calc (asked x.act.1).request.valid_until_ledger_seq
        ≤ y.pre.shared.clock.state + policy.max_auth_validity_ledgers := hvalid
      _ ≤ state.clock.state + state.clock.max_advance * (raisers earlier).card +
            policy.max_auth_validity_ledgers := by
          gcongr
          exact estimate_le hearlier hset
      _ ≤ _ := by
          gcongr
          exact card_le_grants hgranted

end

/-! ## A refused request -/

/-- A request valid until ledger 205, which claims that the current ledger is 105. -/
def sampleAsked (passphrase : String) (_ : Unit) : AuthIncoming where
  arrival := { sampleArrival with now := 1700000000 }
  request := ⟨"AAAA", passphrase, 205⟩

/-- All operations of the request, from an estimate of 100 that may advance by 10 at once. -/
def sampleAuthRun (passphrase : String) (questions : ℕ) :
    List (ServiceTransition Unit) × ServiceThreads Unit :=
  ((sampleService sampleEntry).start sampleState
    fun i => (sampleAsked passphrase i).incoming).follow
    (sampleService sampleEntry).execute (List.replicate questions ((), sampleOutside))

theorem sampleAuthRun_run (passphrase : String) (questions : ℕ) :
    AuthRun (sampleService sampleEntry) sampleState (sampleAsked passphrase)
      (sampleAuthRun passphrase questions).1 (sampleAuthRun passphrase questions).2 :=
  Interleaved.follow_run _ _

theorem sampleAuthRun_signed :
    ((sampleAuthRun "Test SDF Network ; September 2015" 7).2.signedText ()).isSome := by
  decide +kernel

/-- A request that advances the estimate and is granted. -/
theorem ratchet_advances_by_grant :
    RatchetSound (sampleService sampleEntry) (sampleAsked "Test SDF Network ; September 2015")
      ⟨100, 10⟩ (sampleAuthRun "Test SDF Network ; September 2015" 7).1
      (sampleAuthRun "Test SDF Network ; September 2015" 7).2 := by
  have hrun := sampleAuthRun_run "Test SDF Network ; September 2015" 7
  obtain ⟨text, htext⟩ := Option.isSome_iff_exists.mp sampleAuthRun_signed
  have htrace := trace_answered hrun (ServiceThreads.signedText_eq htext)
  refine ratchet_advances_by_grants (by decide) hrun ⟨?_, ?_⟩
  · intro _ _ registration policy entry inspected hresolve hpolicy hinspect
    exact signAuthEntry_goesWell htrace hresolve hpolicy hinspect
  · intro _ _ _ _ _ _ _ _ _ _ hne _
    exact absurd rfl hne

theorem refusedAuthRun_raises :
    ((match (sampleAuthRun "Public Global Stellar Network ; September 2015" 5).2.thread () with
      | .ret (.error _) => true
      | _ => false) &&
      (sampleAuthRun "Public Global Stellar Network ; September 2015" 5).1.any (Raises ·)) = true := by
  decide +kernel

/-- A request for a network that the key does not sign for is refused, and the estimate has
advanced. -/
theorem refused_request_raises :
    ¬ ∀ (ι : Type) [DecidableEq ι] (service : Service) (state : ServiceState)
      (asked : ι → AuthIncoming) (tr : List (ServiceTransition ι)) (m : ServiceThreads ι),
      state.clock.state ≠ 0 → AuthRun service state asked tr m →
        RatchetSound service asked state.clock tr m := by
  intro h
  obtain ⟨hrefused, hraised⟩ := Bool.and_eq_true_iff.mp refusedAuthRun_raises
  obtain ⟨x, hx, hraises⟩ := List.any_eq_true.mp hraised
  have hsound := h Unit _ _ _ _ _ (by decide)
    (sampleAuthRun_run "Public Global Stellar Network ; September 2015" 5)
  split at hrefused
  · rename_i error hended
    have hsame := hsound.refused () error hended x hx rfl
    exact absurd (of_decide_eq_true hraises) (by rw [Raises, hsame]; exact lt_irrefl _)
  · cases hrefused

end StellarAgent.Signer
