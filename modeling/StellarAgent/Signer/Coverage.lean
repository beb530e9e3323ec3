import StellarAgent.Signer.Concurrency

set_option autoImplicit false

/-! # What a signature authorises

The signature of a transaction covers its operations with their authorisation entries, and that of
an authorisation entry its whole tree of invocations. What is inspected of them is the call of each
operation, and the root of the tree. The other invocations are authorised without being inspected.

So a signature authorises only what passed the policy if, and for a request that can be signed at
all only if, the inspected calls cover the others (`signed_calls_pass_iff`).
-/

namespace StellarAgent.Signer

open Lib Soroban

/-! ## Authorised invocations -/

mutual

/-- The functions of a tree, the root's first. -/
def AuthorizedInvocation.functions : AuthorizedInvocation → List SorobanAuthorizedFunction
  | .mk function sub_invocations => function :: functionsOf sub_invocations

def functionsOf : List AuthorizedInvocation → List SorobanAuthorizedFunction
  | [] => []
  | invocation :: rest => invocation.functions ++ functionsOf rest

end

/-- An element of the tree. -/
inductive AuthorizedInvocation.Reaches : AuthorizedInvocation → SorobanAuthorizedFunction → Prop
  | root {function : SorobanAuthorizedFunction} {sub_invocations : List AuthorizedInvocation} :
      Reaches (.mk function sub_invocations) function
  | sub {function element : SorobanAuthorizedFunction}
      {sub_invocations : List AuthorizedInvocation} {invocation : AuthorizedInvocation} :
      invocation ∈ sub_invocations → Reaches invocation element →
      Reaches (.mk function sub_invocations) element

mutual

theorem AuthorizedInvocation.mem_functions (element : SorobanAuthorizedFunction) :
    ∀ invocation : AuthorizedInvocation,
      element ∈ invocation.functions ↔ invocation.Reaches element
  | .mk function sub_invocations => by
      rw [AuthorizedInvocation.functions, List.mem_cons, mem_functionsOf element sub_invocations]
      constructor
      · rintro (rfl | ⟨invocation, hmem, hreaches⟩)
        · exact .root
        · exact .sub hmem hreaches
      · intro h
        cases h with
        | root => exact Or.inl rfl
        | sub hmem hreaches => exact Or.inr ⟨_, hmem, hreaches⟩

theorem mem_functionsOf (element : SorobanAuthorizedFunction) :
    ∀ invocations : List AuthorizedInvocation,
      element ∈ functionsOf invocations ↔ ∃ i ∈ invocations, i.Reaches element
  | [] => by simp [functionsOf]
  | invocation :: rest => by
      rw [functionsOf, List.mem_append, AuthorizedInvocation.mem_functions element invocation,
        mem_functionsOf element rest]
      simp

end

def AuthorizedInvocation.sub_invocations :
    AuthorizedInvocation → List AuthorizedInvocation
  | .mk _ sub_invocations => sub_invocations

theorem AuthorizedInvocation.functions_eq (invocation : AuthorizedInvocation) :
    invocation.functions = invocation.function :: functionsOf invocation.sub_invocations := by
  obtain ⟨function, sub_invocations⟩ := invocation
  rw [AuthorizedInvocation.functions]
  rfl

/-- What the signature of the source account authorises of an entry. -/
def SorobanAuthorizationEntry.underSource (entry : SorobanAuthorizationEntry) :
    List SorobanAuthorizedFunction :=
  match entry.credentials with
  | .SourceAccount => entry.root_invocation.functions
  | .Address _ => []

/-- The call of an operation. -/
def TxOperation.call (operation : TxOperation) : Option SorobanAuthorizedFunction :=
  match operation.body with
  | .InvokeHostFunction ⟨.InvokeContract args, _⟩ => some (.ContractFn args)
  | _ => none

/-- The trees in the operation's `auth` list that its source account authorises. -/
def TxOperation.authorised (operation : TxOperation) : List SorobanAuthorizedFunction :=
  match operation.body with
  | .InvokeHostFunction op => op.auth.flatMap SorobanAuthorizationEntry.underSource
  | .Other _ _ => []

/-- What is decoded of a request, whatever the policy. -/
inductive SignedObject where
  | transaction (tx : Transaction)
  | authEntry (entry : SorobanAuthorizationEntry)

def SignerRequest.object (codec : Codec) : SignerRequest → Option SignedObject
  | .public_key => none
  | .sign_transaction request =>
      match codec.decodeEnvelope request.xdr with
      | .ok (.Tx inner) => some (.transaction inner.tx)
      | _ => none
  | .sign_auth_entry request =>
      match codec.decodeAuthEntry request.auth_entry_xdr with
      | .ok entry => some (.authEntry entry)
      | .error _ => none

/-- The functions that are inspected. -/
def SignedObject.inspected : SignedObject → List SorobanAuthorizedFunction
  | .transaction tx => tx.operations.filterMap TxOperation.call
  | .authEntry entry => [entry.root_invocation.function]

/-- The functions that are authorised and not inspected. -/
def SignedObject.hidden : SignedObject → List SorobanAuthorizedFunction
  | .transaction tx => tx.operations.flatMap TxOperation.authorised
  | .authEntry entry => functionsOf entry.root_invocation.sub_invocations

/-- **Everything that the signature authorises.** The calls of the operations with the trees of
their entries, or the whole tree of an entry. -/
def SignedObject.authorised : SignedObject → List SorobanAuthorizedFunction
  | .transaction tx => tx.operations.flatMap fun operation =>
      operation.call.toList ++ operation.authorised
  | .authEntry entry => entry.root_invocation.functions

theorem SignedObject.mem_authorised {object : SignedObject} {element : SorobanAuthorizedFunction} :
    element ∈ object.authorised ↔ element ∈ object.inspected ∨ element ∈ object.hidden := by
  cases object with
  | transaction tx =>
      simp only [SignedObject.authorised, SignedObject.inspected, SignedObject.hidden,
        List.mem_flatMap, List.mem_append, Option.mem_toList, List.mem_filterMap]
      constructor
      · rintro ⟨operation, hmem, h | h⟩
        · exact Or.inl ⟨operation, hmem, h⟩
        · exact Or.inr ⟨operation, hmem, h⟩
      · rintro (⟨operation, hmem, h⟩ | ⟨operation, hmem, h⟩)
        · exact ⟨operation, hmem, Or.inl h⟩
        · exact ⟨operation, hmem, Or.inr h⟩
  | authEntry entry =>
      rw [SignedObject.authorised, SignedObject.inspected, SignedObject.hidden,
        AuthorizedInvocation.functions_eq, List.mem_cons, List.mem_singleton]

/-- A function passes the rules of the policy. -/
def FunctionPasses (codec : Codec) (policy : Policy) : SorobanAuthorizedFunction → Prop
  | .ContractFn args => ∃ call,
      inspectInvocation codec args policy.unknown_calls = .ok call ∧ CallPasses policy call
  | _ => False

/-! ## The condition -/

/-- The calls that are inspected. -/
def SignedObject.calls (codec : Codec) (unknown : UnknownCallPolicy) (object : SignedObject) :
    List InspectedCall :=
  object.inspected.filterMap fun function =>
    match function with
    | .ContractFn args => (inspectInvocation codec args unknown).toOption
    | _ => none

/-- What a call that is not inspected may do: call a contract and a function that an inspected one
calls, pay to their recipients, and no more than the most that they pay. -/
structure Covered (calls : List InspectedCall) (call : InspectedCall) : Prop where
  contract : ∃ other ∈ calls, other.contract = call.contract
  function : ∃ other ∈ calls, other.function = call.function
  recipients : ∀ recipient ∈ call.recipients, ∃ other ∈ calls, recipient ∈ other.recipients
  amounts : ∀ amount ∈ call.amounts, 0 ≤ amount ∧
    ∃ other ∈ calls, ∃ greater ∈ other.amounts, amount ≤ greater

/-- **The condition.** What is authorised and not inspected are calls that can be decoded, and the
inspected calls cover them. -/
def SignedObject.HiddenCovered (codec : Codec) (unknown : UnknownCallPolicy)
    (object : SignedObject) : Prop :=
  ∀ element ∈ object.hidden, ∃ args call, element = .ContractFn args ∧
    inspectInvocation codec args unknown = .ok call ∧ Covered (object.calls codec unknown) call

/-! ## What is inspected -/

section

variable {codec : Codec} {unknown : UnknownCallPolicy} {service : Service} {policy : Policy}
  {request : SignerRequest} {object : SignedObject} {call : InspectedCall}

theorem SignedObject.mem_calls :
    call ∈ object.calls codec unknown ↔ ∃ args, .ContractFn args ∈ object.inspected ∧
      inspectInvocation codec args unknown = .ok call := by
  unfold SignedObject.calls
  rw [List.mem_filterMap]
  constructor
  · rintro ⟨function, hmem, hcall⟩
    split at hcall
    · rename_i args
      refine ⟨args, hmem, ?_⟩
      cases hinspect : inspectInvocation codec args unknown with
      | error error =>
          rw [hinspect] at hcall
          cases hcall
      | ok call' =>
          rw [hinspect] at hcall
          rw [Option.some.inj hcall]
    · cases hcall
  · rintro ⟨args, hmem, hinspect⟩
    exact ⟨_, hmem, by dsimp only; rw [hinspect]; rfl⟩

/-- Each function that is inspected is a call of those that are decided on, and the other way. -/
structure Inspects (codec : Codec) (unknown : UnknownCallPolicy) (object : SignedObject)
    (calls : List InspectedCall) : Prop where
  functions : ∀ function ∈ object.inspected, ∃ args call, function = .ContractFn args ∧
    inspectInvocation codec args unknown = .ok call ∧ call ∈ calls
  calls : ∀ call ∈ calls, call ∈ object.calls codec unknown

theorem exists_of_forall₂ {α β : Type} {R : α → β → Prop} {xs : List α} {ys : List β}
    (h : List.Forall₂ R xs ys) {x : α} (hx : x ∈ xs) : ∃ y ∈ ys, R x y := by
  induction h with
  | nil => cases hx
  | cons hxy _ ih =>
      rcases List.mem_cons.mp hx with rfl | hx
      · exact ⟨_, List.mem_cons_self, hxy⟩
      · obtain ⟨y, hy, hR⟩ := ih hx
        exact ⟨y, List.mem_cons_of_mem _ hy, hR⟩

theorem inspects_transaction {tx : Transaction} {calls : List InspectedCall}
    (h : inspectOperations codec unknown tx.operations = .ok calls) :
    Inspects codec unknown (.transaction tx) calls := by
  have hpairs := inspectOperations_ok h
  have hcall : ∀ operation call, inspectOperation codec operation unknown = .ok call →
      ∃ args, operation.call = some (.ContractFn args) ∧
        inspectInvocation codec args unknown = .ok call := by
    intro operation call hinspect
    obtain ⟨_, args, auth, hbody, hcall⟩ := inspectOperation_ok hinspect
    refine ⟨args, ?_, hcall⟩
    rw [TxOperation.call, hbody]
  constructor
  · intro function hfunction
    obtain ⟨operation, hmem, hoperation⟩ := List.mem_filterMap.mp hfunction
    obtain ⟨call, hcalls, hinspect⟩ := exists_of_forall₂ hpairs hmem
    obtain ⟨args, hargs, hinvocation⟩ := hcall operation call hinspect
    obtain rfl := Option.some.inj (hargs.symm.trans hoperation)
    exact ⟨args, call, rfl, hinvocation, hcalls⟩
  · intro call hcalls
    obtain ⟨operation, hmem, hinspect⟩ := exists_of_forall₂ hpairs.flip hcalls
    obtain ⟨args, hargs, hinvocation⟩ := hcall operation call hinspect
    exact SignedObject.mem_calls.mpr ⟨args, List.mem_filterMap.mpr ⟨operation, hmem, hargs⟩,
      hinvocation⟩

theorem inspects_authEntry {entry : SorobanAuthorizationEntry} {args : InvokeContractArgs}
    (hroot : entry.root_invocation.function = .ContractFn args)
    (hcall : inspectInvocation codec args unknown = .ok call) :
    Inspects codec unknown (.authEntry entry) [call] := by
  constructor
  · intro function hfunction
    obtain rfl := List.mem_singleton.mp hfunction
    exact ⟨args, call, hroot, hcall, List.mem_singleton.mpr rfl⟩
  · intro call' hcall'
    obtain rfl := List.mem_singleton.mp hcall'
    exact SignedObject.mem_calls.mpr ⟨args, by rw [SignedObject.inspected, hroot]; simp, hcall⟩

/-- What is decoded of a request is inspected. -/
theorem inspects_decoded {now : Nat} {plan : SigningPlan} {decoded : Decoded}
    (hplan : service.plan now request = some plan) (hdecode : plan.decode policy = .ok decoded)
    (hobject : request.object service.codec = some object) :
    Inspects service.codec policy.unknown_calls object decoded.calls := by
  cases request with
  | public_key => cases hplan
  | sign_transaction request =>
      obtain rfl := Option.some.inj hplan
      obtain ⟨tx, inspected, hinspect, rfl⟩ := transactionPlan_decode.mp hdecode
      obtain ⟨henvelope, -, -, hcalls⟩ := inspectTransaction_ok hinspect
      rw [SignerRequest.object, henvelope] at hobject
      obtain rfl := Option.some.inj hobject
      exact inspects_transaction hcalls
  | sign_auth_entry request =>
      obtain rfl := Option.some.inj hplan
      obtain ⟨entry, inspected, hinspect, rfl⟩ := authEntryPlan_decode.mp hdecode
      obtain ⟨hentry, _, args, call, -, hroot, hcall, -, hsome⟩ := inspectAuthEntry_ok hinspect
      rw [SignerRequest.object, hentry] at hobject
      obtain rfl := Option.some.inj hobject
      have hcalls : inspected.call.toList = [call] := by rw [hsome]; rfl
      show Inspects _ _ _ inspected.call.toList
      rw [hcalls]
      exact inspects_authEntry hroot hcall

/-! ## Signed requests -/

/-- Some request is signed under the policy. -/
def SignedUnder (service : Service) (request : SignerRequest) (policy : Policy) : Prop :=
  ∃ arrival registration es text,
    service.resolve arrival.caller.subject = .ok registration ∧
    service.policyFor registration = .ok policy ∧
    Fallible.Trace (service.handle arrival request) es (.ok text)

/-- What is known of a signed request. -/
theorem signed_path (h : SignedUnder service request policy)
    (hobject : request.object service.codec = some object) :
    ∃ plan arrival registration decoded address asked payload signature text,
      service.plan arrival.now request = some plan ∧
      Admitted service plan arrival registration policy decoded ∧
      Decides service arrival registration policy decoded address asked .Allow ∧
      Signs service decoded address payload signature text := by
  obtain ⟨arrival, registration, es, text, hresolve, hpolicy, htrace⟩ := h
  obtain ⟨plan, hplan⟩ : ∃ plan, service.plan arrival.now request = some plan := by
    cases request with
    | public_key => cases hobject
    | sign_transaction request => exact ⟨_, rfl⟩
    | sign_auth_entry request => exact ⟨_, rfl⟩
  rw [handle_eq hplan] at htrace
  obtain ⟨registration', policy', decoded, address, asked, payload, signature, hadmitted, hdecides,
    hsigns, -⟩ := (path_trace htrace).of_signed
  obtain rfl := Except.ok.inj (hresolve.symm.trans hadmitted.resolved)
  obtain rfl := Except.ok.inj (hpolicy.symm.trans hadmitted.policy_found)
  exact ⟨plan, arrival, registration, decoded, address, asked, payload, signature, text, hplan,
    hadmitted, hdecides, hsigns⟩

/-- The bytes that are hashed for the signature. -/
def SignedObject.encoded (service : Service) (passphrase : String) (expiration_ledger : Nat) :
    SignedObject → Option Bytes
  | .transaction tx => (service.codec.encodePayload ⟨service.networkId passphrase, tx⟩).toOption
  | .authEntry entry =>
      match entry.credentials with
      | .SourceAccount => none
      | .Address credentials => (service.codec.encodePreimage ⟨service.networkId passphrase,
          credentials.nonce, expiration_ledger, entry.root_invocation⟩).toOption

/-- What is signed is the hash of the whole object, with every operation and every invocation. -/
theorem signed_payload {now : Nat} {plan : SigningPlan} {decoded : Decoded} {address text : String}
    {payload : BytesN 32} {signature : BytesN 64}
    (hplan : service.plan now request = some plan) (hdecode : plan.decode policy = .ok decoded)
    (hobject : request.object service.codec = some object)
    (hsigns : Signs service decoded address payload signature text) :
    ∃ passphrase expiration_ledger bytes,
      object.encoded service passphrase expiration_ledger = some bytes ∧
      payload = service.codec.sha256 bytes := by
  have hpayload := hsigns.payload_eq
  cases request with
  | public_key => cases hplan
  | sign_transaction request =>
      obtain rfl := Option.some.inj hplan
      obtain ⟨tx, inspected, hinspect, rfl⟩ := transactionPlan_decode.mp hdecode
      rw [SignerRequest.object, (inspectTransaction_ok hinspect).1] at hobject
      obtain rfl := Option.some.inj hobject
      replace hpayload : service.transactionSigningPayload tx request.network_passphrase =
        .ok payload := hpayload
      rw [Service.transactionSigningPayload] at hpayload
      split at hpayload
      · cases hpayload
      · rename_i bytes hbytes
        refine ⟨request.network_passphrase, 0, bytes, ?_, (Except.ok.inj hpayload).symm⟩
        rw [SignedObject.encoded, hbytes]
        rfl
  | sign_auth_entry request =>
      obtain rfl := Option.some.inj hplan
      obtain ⟨entry, inspected, hinspect, rfl⟩ := authEntryPlan_decode.mp hdecode
      rw [SignerRequest.object, (inspectAuthEntry_ok hinspect).1] at hobject
      obtain rfl := Option.some.inj hobject
      replace hpayload : service.authEntrySigningPayload entry request.network_passphrase
        request.valid_until_ledger_seq = .ok payload := hpayload
      rw [Service.authEntrySigningPayload] at hpayload
      split at hpayload
      · cases hpayload
      · rename_i credentials hcredentials
        split at hpayload
        · cases hpayload
        · rename_i bytes hbytes
          refine ⟨request.network_passphrase, request.valid_until_ledger_seq, bytes, ?_,
            (Except.ok.inj hpayload).symm⟩
          rw [SignedObject.encoded, hcredentials]
          dsimp only
          rw [hbytes]
          rfl

/-- The inspected calls of a signed request pass the rules. -/
theorem signed_calls (h : SignedUnder service request policy)
    (hobject : request.object service.codec = some object) :
    ∃ calls, Inspects service.codec policy.unknown_calls object calls ∧
      ∀ call ∈ calls, CallPasses policy call := by
  obtain ⟨plan, arrival, registration, decoded, address, asked, payload, signature, text, hplan,
    hadmitted, hdecides, -⟩ := signed_path h hobject
  exact ⟨decoded.calls, inspects_decoded hplan hadmitted.decoded_eq hobject,
    plan_calls_pass hplan hadmitted.decoded_eq hdecides⟩

/-- A covered call passes the rules that the inspected calls pass. -/
theorem Covered.passes {calls : List InspectedCall} (h : Covered calls call)
    (hcalls : ∀ other ∈ calls, CallPasses policy other) : CallPasses policy call := by
  constructor
  · obtain ⟨other, hother, hcontract⟩ := h.contract
    rw [← hcontract]
    exact (hcalls other hother).contract
  · obtain ⟨other, hother, hfunction⟩ := h.function
    rw [← hfunction]
    exact (hcalls other hother).function
  · intro recipient hrecipient
    obtain ⟨other, hother, hmem⟩ := h.recipients recipient hrecipient
    exact (hcalls other hother).recipients recipient hmem
  · intro amount hamount
    obtain ⟨hnonneg, other, hother, greater, hgreater, hle⟩ := h.amounts amount hamount
    refine ⟨hnonneg, fun cap hcap => hle.trans ?_⟩
    exact ((hcalls other hother).amounts greater hgreater).2 cap hcap

/-- Where the inspected calls cover the others, all that is authorised passes. -/
theorem signed_authorised_pass (h : SignedUnder service request policy)
    (hobject : request.object service.codec = some object)
    (hcovered : object.HiddenCovered service.codec policy.unknown_calls)
    (element : SorobanAuthorizedFunction) (helement : element ∈ object.authorised) :
    FunctionPasses service.codec policy element := by
  obtain ⟨calls, hinspects, hpass⟩ := signed_calls h hobject
  rcases SignedObject.mem_authorised.mp helement with hinspected | hhidden
  · obtain ⟨args, call, rfl, hcall, hmem⟩ := hinspects.functions element hinspected
    exact ⟨call, hcall, hpass call hmem⟩
  · obtain ⟨args, call, rfl, hcall, hcover⟩ := hcovered element hhidden
    refine ⟨call, hcall, hcover.passes (fun other hother => ?_)⟩
    obtain ⟨args', hargs', hother'⟩ := SignedObject.mem_calls.mp hother
    obtain ⟨_, call', heq, hcall', hmem⟩ := hinspects.functions _ hargs'
    obtain rfl := SorobanAuthorizedFunction.ContractFn.inj heq
    obtain rfl := Except.ok.inj (hother'.symm.trans hcall')
    exact hpass other hmem

end

/-! ## The tightest policy -/

section

/-- Each natural number is written in digits. -/
theorem exists_digits (n : Nat) : ∃ digits : List Char, digits ≠ [] ∧ digits.all Char.isDigit ∧
    digits.foldl (fun n c => n * 10 + (c.toNat - 48)) 0 = n := by
  have hdigit : ∀ d < 10, (Char.ofNat (48 + d)).isDigit = true ∧
      (Char.ofNat (48 + d)).toNat - 48 = d := by decide
  induction n using Nat.strongRecOn with
  | ind n ih =>
      by_cases hsmall : n < 10
      · obtain ⟨hchar, hvalue⟩ := hdigit n hsmall
        refine ⟨[Char.ofNat (48 + n)], by simp, by simpa using hchar, ?_⟩
        simpa using hvalue
      · obtain ⟨digits, -, hall, hvalue⟩ := ih (n / 10) (by omega)
        obtain ⟨hchar, hlast⟩ := hdigit (n % 10) (by omega)
        refine ⟨digits ++ [Char.ofNat (48 + n % 10)], by simp, ?_, ?_⟩
        · rw [List.all_append, hall, List.all_cons, hchar]
          rfl
        · rw [List.foldl_append, hvalue, List.foldl_cons, List.foldl_nil, hlast]
          omega

/-- Each `i128` can be written. -/
theorem exists_parseI128 {n : Int} (h : IsI128 n) : ∃ raw, parseI128 raw = some n := by
  obtain ⟨digits, hne, hall, hvalue⟩ := exists_digits n.natAbs
  have hparse : parseDigits digits = some n.natAbs := by
    rw [parseDigits, if_pos ⟨hne, hall⟩, hvalue]
  by_cases hn : 0 ≤ n
  · refine ⟨String.ofList ('+' :: digits), ?_⟩
    have habs : (n.natAbs : Int) = n := Int.natAbs_of_nonneg hn
    simp [parseI128, hparse, habs, Option.filter_some, h]
  · refine ⟨String.ofList ('-' :: digits), ?_⟩
    have habs : |n| = -n := abs_of_neg (not_le.mp hn)
    simp [parseI128, hparse, habs, Option.filter_some, h]

/-- A number that is decoded is an `i128`. -/
theorem decodeValue_isI128 {codec : Codec} {value : ScVal} {n : Int}
    (h : decodeValue codec value = .ok (.Int n)) : IsI128 n := by
  unfold IsI128 I128_MIN I128_MAX
  cases value with
  | I128 hi lo =>
      have hvalue : hi.toInt * 2 ^ 64 + lo.toNat = n := ArgValue.Int.inj (Except.ok.inj h)
      have hlow := hi.le_toInt
      have hhigh := hi.toInt_lt
      have hlo := lo.toNat_lt
      omega
  | U128 hi lo =>
      unfold decodeValue at h
      dsimp only at h
      split at h
      · rename_i hle
        have hvalue : (hi.toNat * 2 ^ 64 + lo.toNat : Int) = n := ArgValue.Int.inj (Except.ok.inj h)
        unfold I128_MAX at hle
        omega
      · cases h
  | U64 value =>
      have hvalue : (value.toNat : Int) = n := ArgValue.Int.inj (Except.ok.inj h)
      have hhigh := value.toNat_lt
      omega
  | I64 value =>
      have hvalue : value.toInt = n := ArgValue.Int.inj (Except.ok.inj h)
      have hlow := value.le_toInt
      have hhigh := value.toInt_lt
      omega
  | U32 value =>
      have hvalue : (value.toNat : Int) = n := ArgValue.Int.inj (Except.ok.inj h)
      have hhigh := value.toNat_lt
      omega
  | I32 value =>
      have hvalue : value.toInt = n := ArgValue.Int.inj (Except.ok.inj h)
      have hlow := value.le_toInt
      have hhigh := value.toInt_lt
      omega
  | _ => cases h

theorem decodeArgs_isI128 {codec : Codec} {roles : List (ScVal × ArgRole)}
    {args : List InspectedArg} (h : decodeArgs codec roles = .ok args) {role : ArgRole} {n : Int}
    (hmem : ⟨role, .Int n⟩ ∈ args) : IsI128 n := by
  induction roles generalizing args with
  | nil =>
      obtain rfl := Except.ok.inj h
      cases hmem
  | cons first roles ih =>
      obtain ⟨value, role'⟩ := first
      rw [decodeArgs] at h
      split at h
      · cases h
      · rename_i decoded hdecoded
        split at h
        · cases h
        · rename_i rest hrest
          obtain rfl := Except.ok.inj h
          rcases List.mem_cons.mp hmem with heq | hmem
          · obtain ⟨-, rfl⟩ := InspectedArg.mk.inj heq
            exact decodeValue_isI128 hdecoded
          · exact ih hrest hmem

/-- The amounts of an inspected call are `i128`s. -/
theorem inspectInvocation_amounts {codec : Codec} {unknown : UnknownCallPolicy}
    {args : InvokeContractArgs} {call : InspectedCall}
    (h : inspectInvocation codec args unknown = .ok call) {amount : Int}
    (hamount : amount ∈ call.amounts) : IsI128 amount := by
  rw [inspectInvocation] at h
  split at h
  · cases h
  · split at h
    · cases h
    · split at h
      · cases h
      · rename_i decoded hdecoded
        obtain rfl := Except.ok.inj h
        obtain ⟨⟨role, value⟩, hmem, hvalue⟩ := List.mem_filterMap.mp hamount
        obtain ⟨hmem, -⟩ := List.mem_filter.mp hmem
        cases value with
        | Int n =>
            obtain rfl := Option.some.inj hvalue
            exact decodeArgs_isI128 hdecoded hmem
        | Address text => cases hvalue
        | Text text => cases hvalue
        | Other text => cases hvalue

/-- The greatest of some amounts, and -1 of none. -/
def greatest (amounts : List Int) : Int := amounts.foldr max (-1)

theorem le_greatest {amounts : List Int} {amount : Int} (h : amount ∈ amounts) :
    amount ≤ greatest amounts := by
  induction amounts with
  | nil => cases h
  | cons first amounts ih =>
      rcases List.mem_cons.mp h with rfl | h
      · exact le_max_left _ _
      · exact (ih h).trans (le_max_right _ _)

theorem greatest_mem (amounts : List Int) : greatest amounts = -1 ∨ greatest amounts ∈ amounts := by
  induction amounts with
  | nil => exact Or.inl rfl
  | cons first amounts ih =>
      show max first (greatest amounts) = -1 ∨ max first (greatest amounts) ∈ first :: amounts
      rcases max_choice first (greatest amounts) with hmax | hmax
      · rw [hmax]
        exact Or.inr List.mem_cons_self
      · rw [hmax]
        exact ih.imp_right (List.mem_cons_of_mem _)

/-- A policy that allows no more than the calls need. -/
def tightPolicy (policy : Policy) (passphrase cap : String) (calls : List InspectedCall) : Policy :=
  { policy with
    networks := [passphrase]
    max_amount_stroops := some cap
    max_transaction_stroops := none
    recipients := calls.flatMap InspectedCall.recipients
    contracts := calls.map InspectedCall.contract
    functions := calls.map InspectedCall.function
    require_bounded_expiry := false
    rate_limit := none
    time_window := none }

variable {policy : Policy} {passphrase cap : String} {calls : List InspectedCall}
  {call : InspectedCall}

/-- The cap is the greatest amount of the calls. -/
def CapsAt (cap : String) (calls : List InspectedCall) : Prop :=
  parseI128 cap = some (greatest (calls.flatMap InspectedCall.amounts))

theorem tightPolicy_valid (hcap : CapsAt cap calls) (name : String) :
    (tightPolicy policy passphrase cap calls).validate name = .ok () := by
  have hparse : (parseI128 cap).isSome := by rw [hcap]; rfl
  unfold Policy.validate tightPolicy validateAmount
  simp only [hparse, if_true]
  rfl

theorem tightPolicy_amountCap (hcap : CapsAt cap calls) :
    (tightPolicy policy passphrase cap calls).amountCap =
      some (greatest (calls.flatMap InspectedCall.amounts)) := hcap

/-- The calls pass. -/
theorem tightPolicy_passes (hcap : CapsAt cap calls) (hmem : call ∈ calls)
    (hpasses : CallPasses policy call) :
    CallPasses (tightPolicy policy passphrase cap calls) call := by
  constructor
  · exact List.mem_map_of_mem hmem
  · exact List.mem_map_of_mem hmem
  · intro recipient hrecipient
    exact List.mem_flatMap.mpr ⟨call, hmem, hrecipient⟩
  · intro amount hamount
    refine ⟨(hpasses.amounts amount hamount).1, fun limit hlimit => ?_⟩
    rw [tightPolicy_amountCap hcap] at hlimit
    rw [← Option.some.inj hlimit]
    exact le_greatest (List.mem_flatMap.mpr ⟨call, hmem, hamount⟩)

/-- Only covered calls pass. -/
theorem covered_of_tightPolicy (hcap : CapsAt cap calls)
    (h : CallPasses (tightPolicy policy passphrase cap calls) call) : Covered calls call := by
  constructor
  · exact List.mem_map.mp h.contract
  · exact List.mem_map.mp h.function
  · intro recipient hrecipient
    exact List.mem_flatMap.mp (h.recipients recipient hrecipient)
  · intro amount hamount
    obtain ⟨hnonneg, hbound⟩ := h.amounts amount hamount
    have hle := hbound _ (tightPolicy_amountCap hcap)
    refine ⟨hnonneg, ?_⟩
    rcases greatest_mem (calls.flatMap InspectedCall.amounts) with hnone | hsome
    · rw [hnone] at hle
      omega
    · obtain ⟨other, hother, hgreater⟩ := List.mem_flatMap.mp hsome
      exact ⟨other, hother, _, hgreater, hle⟩

/-- The service with one policy. -/
def Service.withPolicy (service : Service) (name : String) (policy : Policy)
    (hvalid : ∀ name, policy.validate name = .ok ()) : Service :=
  { service with policies := ⟨Finmap.singleton name policy, fun other found h => by
      by_cases hname : other = name
      · rw [hname, Finmap.lookup_singleton_eq] at h
        obtain rfl := Option.some.inj h
        exact hvalid other
      · rw [Finmap.lookup_eq_none.mpr (by simpa using hname)] at h
        cases h⟩ }

theorem withPolicy_policyFor {service : Service} {registration : Registration}
    (hvalid : ∀ name, policy.validate name = .ok ()) :
    (service.withPolicy registration.policy policy hvalid).policyFor registration = .ok policy := by
  unfold Service.policyFor Service.withPolicy
  rw [Finmap.lookup_singleton_eq]

end

section

variable {service : Service} {policy : Policy} {cap : String} {calls : List InspectedCall}
  {arrival : Arrival} {registration : Registration} {address : String} {asked : List ServiceEvent}
  {payload : BytesN 32} {signature : BytesN 64} {text : String}

/-- What is decided to be signed is signed. -/
theorem signedUnder_of_signs {request : SignerRequest} {plan : SigningPlan} {decoded : Decoded}
    (hplan : service.plan arrival.now request = some plan)
    (hadmitted : Admitted service plan arrival registration policy decoded)
    (hdecides : Decides service arrival registration policy decoded address asked .Allow)
    (hsigns : Signs service decoded address payload signature text) :
    SignedUnder service request policy := by
  have htrace := trace_of_signs hadmitted hdecides hsigns
  rw [← handle_eq hplan] at htrace
  exact ⟨arrival, registration, _, text, hadmitted.resolved, hadmitted.policy_found, htrace⟩

theorem Decides.address_eq {decoded : Decoded} {decision : Decision}
    (h : Decides service arrival registration policy decoded address asked decision) :
    ∃ raw, address = service.codec.publicKeyText raw := by
  obtain ⟨_, _, _⟩ := h
  exact ⟨_, rfl⟩

/-- A transaction that is signed is signed under the tightest policy. -/
theorem tight_transaction {request : SignTransactionRequest} {tx : Transaction}
    {inspected : InspectedTransaction} (hcap : CapsAt cap calls)
    (hcalls : ∀ call ∈ inspected.calls, call ∈ calls)
    (hadmitted : Admitted service (transactionPlan service arrival.now request) arrival registration
      policy (decodedTransaction service arrival.now request policy tx inspected))
    (hinspect : inspectTransaction service.codec request.xdr policy.unknown_calls =
      .ok (tx, inspected))
    (hdecides : Decides service arrival registration policy
      (decodedTransaction service arrival.now request policy tx inspected) address asked .Allow)
    (hsigns : Signs service (decodedTransaction service arrival.now request policy tx inspected)
      address payload signature text) :
    SignedUnder (service.withPolicy registration.policy
        (tightPolicy policy request.network_passphrase cap calls) (tightPolicy_valid hcap))
      (.sign_transaction request) (tightPolicy policy request.network_passphrase cap calls) := by
  obtain ⟨raw, rfl⟩ := hdecides.address_eq
  have hallowed := decidesTransaction_allow hdecides
  have hdecision : evaluateTransaction service.codec
      (tightPolicy policy request.network_passphrase cap calls) {
        transaction := inspected, network_passphrase := request.network_passphrase
        signing_address := service.codec.publicKeyText raw, now := arrival.now } = .Allow := by
    rw [evaluateTransaction_allow]
    refine ⟨List.mem_singleton.mpr rfl, rfl, hallowed.source_account, Bool.noConfusion, ?_, ?_⟩
    · exact fun call hcall => tightPolicy_passes hcap (hcalls call hcall) (hallowed.calls call hcall)
    · intro limit hlimit
      cases hlimit
  -- the same answers, with the tight policy
  have hvalid : ∀ name, (tightPolicy policy request.network_passphrase cap calls).validate name =
      .ok () := tightPolicy_valid hcap
  let tight := service.withPolicy registration.policy _ hvalid
  have hdecides' : Decides tight arrival registration
      (tightPolicy policy request.network_passphrase cap calls)
      (decodedTransaction tight arrival.now request
        (tightPolicy policy request.network_passphrase cap calls) tx inspected)
      (service.codec.publicKeyText raw) _ (Decision.limit (evaluateTransaction service.codec
        (tightPolicy policy request.network_passphrase cap calls) {
          transaction := inspected, network_passphrase := request.network_passphrase
          signing_address := service.codec.publicKeyText raw, now := arrival.now }) none) :=
    .mk (decodedTransaction_observe.mpr ⟨rfl, rfl⟩) hdecides.backend_ok
      (decodedTransaction_evaluate.mpr ⟨rfl, rfl⟩)
  rw [hdecision] at hdecides'
  have hdecode : (transactionPlan tight arrival.now request).decode
      (tightPolicy policy request.network_passphrase cap calls) =
        .ok (decodedTransaction tight arrival.now request
          (tightPolicy policy request.network_passphrase cap calls) tx inspected) :=
    transactionPlan_decode.mpr ⟨tx, inspected, hinspect, rfl⟩
  obtain ⟨hpayload, public_key, hkey, hattach⟩ := hsigns
  exact signedUnder_of_signs rfl ⟨hadmitted.resolved, withPolicy_policyFor _, hdecode⟩ hdecides'
    ⟨hpayload, public_key, hkey, hattach⟩

/-- An entry that is signed is signed under the tightest policy. -/
theorem tight_authEntry {request : SignAuthEntryRequest} {entry : SorobanAuthorizationEntry}
    {inspected : InspectedAuthEntry} (hcap : CapsAt cap calls)
    (hcalls : ∀ call ∈ inspected.call, call ∈ calls)
    (hadmitted : Admitted service (authEntryPlan service arrival.now request) arrival registration
      policy (decodedAuthEntry service arrival.now request policy entry inspected))
    (hinspect : inspectAuthEntry service.codec request.auth_entry_xdr policy.unknown_calls =
      .ok (entry, inspected))
    (hdecides : Decides service arrival registration policy
      (decodedAuthEntry service arrival.now request policy entry inspected) address asked .Allow)
    (hsigns : Signs service (decodedAuthEntry service arrival.now request policy entry inspected)
      address payload signature text) :
    SignedUnder (service.withPolicy registration.policy
        (tightPolicy policy request.network_passphrase cap calls) (tightPolicy_valid hcap))
      (.sign_auth_entry request) (tightPolicy policy request.network_passphrase cap calls) := by
  obtain ⟨raw, rfl⟩ := hdecides.address_eq
  obtain ⟨current_ledger, -, -, hallowed⟩ := decidesAuthEntry_allow hdecides
  have hvalid : ∀ name, (tightPolicy policy request.network_passphrase cap calls).validate name =
      .ok () := tightPolicy_valid hcap
  have hdecision : evaluateAuthEntry service.codec
      (tightPolicy policy request.network_passphrase cap calls) {
        entry := inspected, network_passphrase := request.network_passphrase
        signing_address := service.codec.publicKeyText raw
        requested_valid_until := request.valid_until_ledger_seq
        current_ledger, now := arrival.now } = .Allow := by
    rw [evaluateAuthEntry_allow]
    refine ⟨List.mem_singleton.mpr rfl, rfl, hallowed.auth_address, hallowed.auth_validity, ?_⟩
    exact fun call hcall => tightPolicy_passes hcap (hcalls call hcall) (hallowed.call call hcall)
  -- the same answers, with the tight policy
  let tight := service.withPolicy registration.policy _ hvalid
  have hdecides' : Decides tight arrival registration
      (tightPolicy policy request.network_passphrase cap calls)
      (decodedAuthEntry tight arrival.now request
        (tightPolicy policy request.network_passphrase cap calls) entry inspected)
      (service.codec.publicKeyText raw) _ (Decision.limit ((evaluateAuthEntry service.codec
        (tightPolicy policy request.network_passphrase cap calls) {
          entry := inspected, network_passphrase := request.network_passphrase
          signing_address := service.codec.publicKeyText raw
          requested_valid_until := request.valid_until_ledger_seq
          current_ledger, now := arrival.now }).violations.foldl Decision.merge
          (request.observed (.ok ()))) none) :=
    .mk (decodedAuthEntry_observe.mpr ⟨.ok (), rfl, rfl⟩) hdecides.backend_ok
      (decodedAuthEntry_evaluate.mpr ⟨current_ledger, rfl, rfl⟩)
  rw [hdecision] at hdecides'
  have hdecode : (authEntryPlan tight arrival.now request).decode
      (tightPolicy policy request.network_passphrase cap calls) =
        .ok (decodedAuthEntry tight arrival.now request
          (tightPolicy policy request.network_passphrase cap calls) entry inspected) :=
    authEntryPlan_decode.mpr ⟨entry, inspected, hinspect, rfl⟩
  obtain ⟨hpayload, public_key, hkey, hattach⟩ := hsigns
  exact signedUnder_of_signs rfl ⟨hadmitted.resolved, withPolicy_policyFor _, hdecode⟩ hdecides'
    ⟨hpayload, public_key, hkey, hattach⟩

end

/-! ## Everything signed was inspected -/

section

variable {codec : Codec} {unknown : UnknownCallPolicy} {request : SignerRequest}
  {object : SignedObject}

/-- The calls of an object have a greatest amount that can be written. -/
theorem exists_cap (object : SignedObject) :
    ∃ cap, CapsAt cap (object.calls codec unknown) := by
  refine exists_parseI128 ?_
  rcases greatest_mem ((object.calls codec unknown).flatMap InspectedCall.amounts) with h | h
  · rw [h]
    decide
  · obtain ⟨call, hcall, hamount⟩ := List.mem_flatMap.mp h
    obtain ⟨args, _, hinspect⟩ := SignedObject.mem_calls.mp hcall
    exact inspectInvocation_amounts hinspect hamount

/-- A signed request is signed under a policy that lets only covered calls pass. -/
theorem signed_under_tight {service : Service} {policy : Policy}
    (h : SignedUnder service request policy)
    (hobject : request.object service.codec = some object) :
    ∃ service' policy', service'.codec = service.codec ∧
      policy'.unknown_calls = policy.unknown_calls ∧ SignedUnder service' request policy' ∧
      ∀ call, CallPasses policy' call →
        Covered (object.calls service.codec policy.unknown_calls) call := by
  obtain ⟨plan, arrival, registration, decoded, address, asked, payload, signature, text, hplan,
    hadmitted, hdecides, hsigns⟩ := signed_path h hobject
  have hinspects := inspects_decoded hplan hadmitted.decoded_eq hobject
  obtain ⟨cap, hcap⟩ : ∃ cap, CapsAt cap (object.calls service.codec policy.unknown_calls) :=
    exists_cap object
  cases request with
  | public_key => cases hplan
  | sign_transaction request =>
      obtain rfl := Option.some.inj hplan
      obtain ⟨tx, inspected, hinspect, rfl⟩ := transactionPlan_decode.mp hadmitted.decoded_eq
      refine ⟨_, _, ?_, ?_,
        tight_transaction hcap hinspects.calls hadmitted hinspect hdecides hsigns,
        fun call hpasses => covered_of_tightPolicy hcap hpasses⟩
      · rfl
      · rfl
  | sign_auth_entry request =>
      obtain rfl := Option.some.inj hplan
      obtain ⟨entry, inspected, hinspect, rfl⟩ := authEntryPlan_decode.mp hadmitted.decoded_eq
      have hcalls : ∀ call ∈ inspected.call,
          call ∈ object.calls service.codec policy.unknown_calls :=
        fun call hcall => hinspects.calls call (Option.mem_toList.mpr hcall)
      refine ⟨_, _, ?_, ?_, tight_authEntry hcap hcalls hadmitted hinspect hdecides hsigns,
        fun call hpasses => covered_of_tightPolicy hcap hpasses⟩
      · rfl
      · rfl

/-- **Everything signed was inspected.** For a request that is signed by some service, all that it
authorises passes the policy of each service that signs it, if and only if the inspected calls cover
the others. -/
theorem signed_calls_pass_iff (hobject : request.object codec = some object)
    (hsigned : ∃ (service : Service) (policy : Policy), service.codec = codec ∧
      policy.unknown_calls = unknown ∧ SignedUnder service request policy) :
    (∀ (service : Service) (policy : Policy), service.codec = codec →
      policy.unknown_calls = unknown → SignedUnder service request policy →
        ∀ element ∈ object.authorised, FunctionPasses codec policy element) ↔
      object.HiddenCovered codec unknown := by
  constructor
  · intro h element helement
    obtain ⟨service, policy, rfl, rfl, hsigned⟩ := hsigned
    obtain ⟨service', policy', hcodec, hunknown, hsigned', hcover⟩ :=
      signed_under_tight hsigned hobject
    have hpasses := h service' policy' hcodec hunknown hsigned' element
      (SignedObject.mem_authorised.mpr (Or.inr helement))
    cases element with
    | ContractFn args =>
        obtain ⟨call, hcall, hpass⟩ := hpasses
        rw [hunknown] at hcall
        exact ⟨args, call, rfl, hcall, hcover call hpass⟩
    | CreateContractHostFn body => exact hpasses.elim
    | CreateContractV2HostFn body => exact hpasses.elim
  · rintro hcovered service policy rfl rfl hsigned element helement
    exact signed_authorised_pass hsigned hobject hcovered element helement

end

/-! ## A payment that calls something else -/

/-- The sample payment, with a transfer of another contract below it. -/
def nestedEntry : SorobanAuthorizationEntry :=
  { sampleEntry with
    root_invocation := .mk (.ContractFn samplePayment) [.mk (.ContractFn {
      contract_address := .Contract (digestOf 2)
      function_name := utf8 "transfer".toList
      args := [.Address (.Account (digestOf 0)), .Address (.Contract (digestOf 2)),
        .I128 0 1000000] }) []] }

def entryRequest : SignAuthEntryRequest := ⟨"AAAA", "Test SDF Network ; September 2015", 150⟩

def entryThread (entry : SorobanAuthorizationEntry) :
    List (ServiceTransition Unit) × ServiceThreads Unit :=
  ((sampleService entry).start sampleState
    fun _ => ⟨{ sampleArrival with now := 1700000000 }, .sign_auth_entry entryRequest⟩).follow
    (sampleService entry).execute (List.replicate 7 ((), sampleOutside))

theorem entryThread_signed :
    ((entryThread sampleEntry).2.signedText ()).isSome ∧
      ((entryThread nestedEntry).2.signedText ()).isSome := by
  decide +kernel

theorem signedUnder_entry {entry : SorobanAuthorizationEntry}
    (h : ((entryThread entry).2.signedText ()).isSome) :
    SignedUnder (sampleService entry) (.sign_auth_entry entryRequest) samplePolicy := by
  obtain ⟨text, htext⟩ := Option.isSome_iff_exists.mp h
  have hrun : Run (ServiceStep (sampleService entry)) _ (entryThread entry).1
      (entryThread entry).2 := Interleaved.follow_run _ _
  exact ⟨_, sampleRegistration, _, text, rfl, rfl,
    trace_answered hrun (ServiceThreads.signedText_eq htext)⟩

/-- The payment is signed, and it is all that its signature authorises. -/
theorem signed_calls_pass_payment :
    SignedUnder (sampleService sampleEntry) (.sign_auth_entry entryRequest) samplePolicy ∧
      ∀ (service : Service) (policy : Policy), service.codec = (sampleService sampleEntry).codec →
        policy.unknown_calls = .Refuse →
        SignedUnder service (.sign_auth_entry entryRequest) policy →
          ∀ element ∈ (SignedObject.authEntry sampleEntry).authorised,
            FunctionPasses (sampleService sampleEntry).codec policy element := by
  have hsigned := signedUnder_entry entryThread_signed.1
  refine ⟨hsigned, (signed_calls_pass_iff rfl
    ⟨sampleService sampleEntry, samplePolicy, rfl, rfl, hsigned⟩).mpr ?_⟩
  intro element helement
  cases helement

/-- With the transfer below it, the payment is signed, and the transfer is authorised. -/
theorem nested_transfer_signed :
    ¬ ∀ (service : Service) (policy : Policy) (request : SignerRequest) (object : SignedObject),
      request.object service.codec = some object → SignedUnder service request policy →
        ∀ element ∈ object.authorised, FunctionPasses service.codec policy element := by
  intro h
  have hpasses := h (sampleService nestedEntry) samplePolicy (.sign_auth_entry entryRequest)
    (.authEntry nestedEntry) rfl (signedUnder_entry entryThread_signed.2) (.ContractFn {
      contract_address := .Contract (digestOf 2)
      function_name := utf8 "transfer".toList
      args := [.Address (.Account (digestOf 0)), .Address (.Contract (digestOf 2)),
        .I128 0 1000000] }) (List.mem_cons_of_mem _ List.mem_cons_self)
  obtain ⟨call, hcall, -⟩ := hpasses
  have hrefused : (inspectInvocation (sampleService nestedEntry).codec {
      contract_address := .Contract (digestOf 2)
      function_name := utf8 "transfer".toList
      args := [.Address (.Account (digestOf 0)), .Address (.Contract (digestOf 2)),
        .I128 0 1000000] } samplePolicy.unknown_calls).isOk = false := by
    decide +kernel
  rw [hcall] at hrefused
  cases hrefused

end StellarAgent.Signer
