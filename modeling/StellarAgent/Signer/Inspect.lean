import StellarAgent.Signer.Xdr

set_option autoImplicit false

/-! # Understanding what is signed

`services/signer/src/inspect.rs`: an envelope or an authorization entry is decoded into the
contract calls that the policy is evaluated on. A known function gives each of its arguments a
role; an unknown one is refused, or read conservatively.

What is inspected of an operation is its host function, and of an entry the function of its root
invocation.
-/

namespace StellarAgent.Signer

open Soroban

/-! ## Text -/

/-- A continuation byte. -/
def isContinuation (b : UInt8) : Bool := 0x80 ≤ b && b ≤ 0xBF

/-- The bytes that may follow the first byte of a character of three bytes. -/
def secondOfThree (first second : UInt8) : Bool :=
  if first = 0xE0 then 0xA0 ≤ second && second ≤ 0xBF
  else if first = 0xED then 0x80 ≤ second && second ≤ 0x9F
  else isContinuation second

/-- The bytes that may follow the first byte of a character of four bytes. -/
def secondOfFour (first second : UInt8) : Bool :=
  if first = 0xF0 then 0x90 ≤ second && second ≤ 0xBF
  else if first = 0xF4 then 0x80 ≤ second && second ≤ 0x8F
  else isContinuation second

/-- The six bits of a continuation byte. -/
def tailBits (b : UInt8) : Nat := b.toNat % 64

/-- The characters of UTF-8, with `none` for each invalid part, which is as long as the beginning
of a character that it is. -/
def utf8Chars : Bytes → List (Option Char)
  | [] => []
  | a :: rest =>
      if a < 0x80 then some (Char.ofNat a.toNat) :: utf8Chars rest
      else if 0xC2 ≤ a && a ≤ 0xDF then
        match rest with
        | b :: rest =>
            if isContinuation b then
              some (Char.ofNat (a.toNat % 32 * 64 + tailBits b)) :: utf8Chars rest
            else none :: utf8Chars (b :: rest)
        | [] => [none]
      else if 0xE0 ≤ a && a ≤ 0xEF then
        match rest with
        | b :: c :: rest =>
            if secondOfThree a b then
              if isContinuation c then
                some (Char.ofNat (a.toNat % 16 * 4096 + tailBits b * 64 + tailBits c)) ::
                  utf8Chars rest
              else none :: utf8Chars (c :: rest)
            else none :: utf8Chars (b :: c :: rest)
        | [b] => if secondOfThree a b then [none] else none :: utf8Chars [b]
        | [] => [none]
      else if 0xF0 ≤ a && a ≤ 0xF4 then
        match rest with
        | b :: c :: d :: rest =>
            if secondOfFour a b then
              if isContinuation c then
                if isContinuation d then
                  some (Char.ofNat (a.toNat % 8 * 262144 + tailBits b * 4096 + tailBits c * 64 +
                    tailBits d)) :: utf8Chars rest
                else none :: utf8Chars (d :: rest)
              else none :: utf8Chars (c :: d :: rest)
            else none :: utf8Chars (b :: c :: d :: rest)
        | [b, c] =>
            if secondOfFour a b then
              if isContinuation c then [none] else none :: utf8Chars [c]
            else none :: utf8Chars [b, c]
        | [b] => if secondOfFour a b then [none] else none :: utf8Chars [b]
        | [] => [none]
      else none :: utf8Chars rest

/-- `String::from_utf8` -/
def fromUtf8 (bytes : Bytes) : Option String :=
  let chars := utf8Chars bytes
  if chars.all Option.isSome then some (String.ofList (chars.filterMap id)) else none

/-- `String::from_utf8_lossy`, as characters. -/
def fromUtf8Lossy (bytes : Bytes) : List Char :=
  (utf8Chars bytes).map fun c => c.getD (Char.ofNat 0xFFFD)

/-- `char::is_control` -/
def isControl (c : Char) : Bool := c.toNat < 0x20 || (0x7F ≤ c.toNat && c.toNat ≤ 0x9F)

/-- `lossy_text` -/
def lossyText (bytes : Bytes) : String :=
  let text := (fromUtf8Lossy (bytes.take 256)).map fun c =>
    if isControl c then Char.ofNat 0xFFFD else c
  String.ofList (if bytes.length > 256 then text ++ ['…'] else text)

/-! ## Roles -/

inductive ArgRole where
  | Signer
  | Recipient
  | Amount
  | Limit
  | Asset
  | Id
  | Text
  | Scalar
  deriving DecidableEq

structure FunctionSpec where
  function : String
  roles : List ArgRole

def KNOWN_FUNCTIONS : List FunctionSpec := [
  ⟨"pay", [.Signer, .Id, .Recipient, .Amount, .Text]⟩,
  ⟨"pay_with_conversion", [.Signer, .Id, .Recipient, .Amount, .Asset, .Limit, .Text]⟩,
  ⟨"open_channel", [.Signer, .Signer, .Asset, .Amount, .Limit, .Scalar]⟩,
  ⟨"close_channel", [.Signer, .Id]⟩,
  ⟨"remaining_this_period", [.Id]⟩,
  ⟨"get_channel", [.Id]⟩,
  ⟨"create_job", [.Signer, .Asset, .Amount, .Text, .Scalar, .Recipient]⟩,
  ⟨"accept_job", [.Signer, .Id]⟩,
  ⟨"submit_result", [.Signer, .Id, .Text]⟩,
  ⟨"release", [.Signer, .Id]⟩,
  ⟨"get_job", [.Id]⟩,
  ⟨"set_limits", [.Signer, .Signer, .Limit, .Limit, .Limit, .Scalar]⟩,
  ⟨"check", [.Signer, .Amount]⟩,
  ⟨"get_limits", [.Signer]⟩,
  ⟨"create_agent", [.Signer, .Signer, .Text]⟩,
  ⟨"get_agent", [.Id]⟩]

inductive UnknownCallPolicy where
  | Refuse
  | Conservative
  deriving DecidableEq

/-! ## Decoded calls -/

inductive ArgValue where
  | Address (text : String)
  | Int (value : Int)
  | Text (text : String)
  | Other (text : String)
  deriving DecidableEq

structure InspectedArg where
  role : ArgRole
  value : ArgValue
  deriving DecidableEq

structure InspectedCall where
  contract : String
  function : String
  args : List InspectedArg
  conservative : Bool
  deriving DecidableEq

/-- `InspectedCall::amounts` -/
def InspectedCall.amounts (call : InspectedCall) : List Int :=
  (call.args.filter fun arg => arg.role = .Amount).filterMap fun arg =>
    match arg.value with
    | .Int value => some value
    | _ => none

/-- `InspectedCall::recipients` -/
def InspectedCall.recipients (call : InspectedCall) : List String :=
  (call.args.filter fun arg => arg.role = .Recipient).filterMap fun arg =>
    match arg.value with
    | .Address text => some text
    | _ => none

structure InspectedTransaction where
  source_account : String
  sequence : Int
  fee : Nat
  max_time : Option Nat
  calls : List InspectedCall
  deriving DecidableEq

structure InspectedAuthEntry where
  address : String
  nonce : Int64
  call : Option InspectedCall
  deriving DecidableEq

/-! ## Decoding -/

/-- `decode_value`. The two halves of a 128-bit number are joined. -/
def decodeValue (codec : Codec) : ScVal → Except ServiceError ArgValue
  | .Address address => .ok (.Address (codec.scAddressText address))
  | .I128 hi lo => .ok (.Int (hi.toInt * 2 ^ 64 + lo.toNat))
  | .U128 hi lo =>
      let value : Int := hi.toNat * 2 ^ 64 + lo.toNat
      if value ≤ I128_MAX then .ok (.Int value)
      else .error (.new .Uninspectable "a u128 argument is too large to reason about as an amount")
  | .U64 value => .ok (.Int value.toNat)
  | .I64 value => .ok (.Int value.toInt)
  | .U32 value => .ok (.Int value.toNat)
  | .I32 value => .ok (.Int value.toInt)
  | .Bool value => .ok (.Other (if value then "true" else "false"))
  | .Void => .ok (.Other "void")
  | .String text => .ok (.Text (lossyText text))
  | .Symbol text => .ok (.Text (lossyText text))
  | .Bytes bytes => .ok (.Text (lossyText bytes))
  | .Vec _ => .ok (.Other "vec")
  | .Map _ => .ok (.Other "map")
  | other => .ok (.Other (scValName other))

/-- `conservative_role` -/
def conservativeRole : ScVal → ArgRole
  | .I128 _ _ => .Amount
  | .U128 _ _ => .Amount
  | .I64 _ => .Amount
  | .U64 _ => .Amount
  | .Address _ => .Recipient
  | _ => .Scalar

/-- The loop of `inspect_invocation`. -/
def decodeArgs (codec : Codec) : List (ScVal × ArgRole) → Except ServiceError (List InspectedArg)
  | [] => .ok []
  | (value, role) :: rest =>
      match decodeValue codec value with
      | .error error => .error error
      | .ok decoded =>
          match decodeArgs codec rest with
          | .error error => .error error
          | .ok args => .ok ({ role, value := decoded } :: args)

/-- What the arguments of a call mean, and whether they are read conservatively. -/
def argRoles (function_name : String) (args : List ScVal) (unknown : UnknownCallPolicy) :
    Except ServiceError (List ArgRole × Bool) :=
  match KNOWN_FUNCTIONS.find? fun spec => spec.function = function_name with
  | some spec =>
      if spec.roles.length = args.length then .ok (spec.roles, false)
      else .error (.new .Uninspectable
        ("`" ++ function_name ++ "` was called with " ++ toString args.length ++
          " arguments but this service's spec has " ++ toString spec.roles.length ++
          "; the contract and the signer disagree about its signature"))
  | none =>
      match unknown with
      | .Refuse => .error (.new .Uninspectable
          ("`" ++ function_name ++ "` is not a contract function this service knows how to " ++
            "inspect, so it will not be signed"))
      | .Conservative => .ok (args.map conservativeRole, true)

/-- `inspect_invocation` -/
def inspectInvocation (codec : Codec) (invocation : InvokeContractArgs)
    (unknown : UnknownCallPolicy) : Except ServiceError InspectedCall :=
  match fromUtf8 invocation.function_name with
  | none => .error (.new .MalformedEnvelope "the contract function name is not valid UTF-8")
  | some function_name =>
      match argRoles function_name invocation.args unknown with
      | .error error => .error error
      | .ok (roles, conservative) =>
          match decodeArgs codec (invocation.args.zip roles) with
          | .error error => .error error
          | .ok args => .ok {
              contract := codec.scAddressText invocation.contract_address
              function := function_name, args, conservative }

/-! ## Transactions -/

/-- `host_function_name` -/
def hostFunctionName : HostFunction → String
  | .InvokeContract _ => "InvokeContract"
  | .CreateContract _ => "CreateContract"
  | .UploadContractWasm _ => "UploadContractWasm"
  | .CreateContractV2 _ => "CreateContractV2"

/-- `operation_name`, of the operations that are not modelled. -/
def operationName : OperationKind → String
  | .CreateAccount => "CreateAccount"
  | .Payment => "Payment"
  | .PathPaymentStrictReceive => "PathPaymentStrictReceive"
  | .ManageSellOffer => "ManageSellOffer"
  | .CreatePassiveSellOffer => "CreatePassiveSellOffer"
  | .SetOptions => "SetOptions"
  | .ChangeTrust => "ChangeTrust"
  | .AllowTrust => "AllowTrust"
  | .AccountMerge => "AccountMerge"
  | .Inflation => "Inflation"
  | .ManageData => "ManageData"
  | .BumpSequence => "BumpSequence"
  | .ManageBuyOffer => "ManageBuyOffer"
  | .PathPaymentStrictSend => "PathPaymentStrictSend"
  | .CreateClaimableBalance => "CreateClaimableBalance"
  | .ClaimClaimableBalance => "ClaimClaimableBalance"
  | .BeginSponsoringFutureReserves => "BeginSponsoringFutureReserves"
  | .EndSponsoringFutureReserves => "EndSponsoringFutureReserves"
  | .RevokeSponsorship => "RevokeSponsorship"
  | .Clawback => "Clawback"
  | .ClawbackClaimableBalance => "ClawbackClaimableBalance"
  | .SetTrustLineFlags => "SetTrustLineFlags"
  | .LiquidityPoolDeposit => "LiquidityPoolDeposit"
  | .LiquidityPoolWithdraw => "LiquidityPoolWithdraw"
  | .ExtendFootprintTtl => "ExtendFootprintTtl"
  | .RestoreFootprint => "RestoreFootprint"

/-- `inspect_operation` -/
def inspectOperation (codec : Codec) (operation : TxOperation) (unknown : UnknownCallPolicy) :
    Except ServiceError InspectedCall :=
  if operation.source_account.isSome then
    .error (.new .Uninspectable
      ("an operation overrides the transaction's source account, which this service will " ++
        "not sign"))
  else
    match operation.body with
    | .InvokeHostFunction op =>
        match op.host_function with
        | .InvokeContract args => inspectInvocation codec args unknown
        | other => .error (.new .Uninspectable
            ("host function " ++ hostFunctionName other ++
              " is not something this service signs; only contract invocations are supported"))
    | .Other kind _ => .error (.new .Uninspectable
        ("operation type " ++ operationName kind ++
          " is not modelled by this service, so it will not be signed"))

/-- The loop of `inspect_transaction`. -/
def inspectOperations (codec : Codec) (unknown : UnknownCallPolicy) :
    List TxOperation → Except ServiceError (List InspectedCall)
  | [] => .ok []
  | operation :: rest =>
      match inspectOperation codec operation unknown with
      | .error error => .error error
      | .ok call =>
          match inspectOperations codec unknown rest with
          | .error error => .error error
          | .ok calls => .ok (call :: calls)

/-- A time bound of zero is none. -/
def boundOf (bounds : TimeBounds) : Option Nat :=
  if bounds.max_time = 0 then none else some bounds.max_time

/-- The upper time bound of a transaction. -/
def maxTime : Preconditions → Option Nat
  | .Time bounds => boundOf bounds
  | .V2 time_bounds _ => time_bounds.bind boundOf
  | .None => none

/-- `inspect_transaction` -/
def inspectTransaction (codec : Codec) (envelope_xdr : String) (unknown : UnknownCallPolicy) :
    Except ServiceError (Transaction × InspectedTransaction) :=
  match codec.decodeEnvelope envelope_xdr with
  | .error error => .error ((ServiceError.new .MalformedEnvelope
      "the transaction is not valid TransactionEnvelope XDR").withInternal error)
  | .ok (.TxV0 _) => .error (.new .MalformedEnvelope
      "v0 transaction envelopes are not supported; send a v1 envelope")
  | .ok (.TxFeeBump _) => .error (.new .MalformedEnvelope
      ("fee-bump transactions are not supported: signing one would pay for an inner " ++
        "transaction this service has not inspected"))
  | .ok (.Tx inner) =>
      if inner.signatures ≠ [] then
        .error (.new .MalformedEnvelope
          ("the envelope already carries " ++ toString inner.signatures.length ++
            " signature(s); this service does not co-sign"))
      else
        match inspectOperations codec unknown inner.tx.operations with
        | .error error => .error error
        | .ok calls => .ok (inner.tx, {
            source_account := codec.muxedAccountText inner.tx.source_account
            sequence := inner.tx.seq_num
            fee := inner.tx.fee
            max_time := maxTime inner.tx.cond
            calls })

/-! ## Authorization entries -/

/-- `inspect_auth_entry` -/
def inspectAuthEntry (codec : Codec) (entry_xdr : String) (unknown : UnknownCallPolicy) :
    Except ServiceError (SorobanAuthorizationEntry × InspectedAuthEntry) :=
  match codec.decodeAuthEntry entry_xdr with
  | .error error => .error ((ServiceError.new .MalformedEnvelope
      "the authorization entry is not valid SorobanAuthorizationEntry XDR").withInternal error)
  | .ok entry =>
      match entry.credentials with
      | .SourceAccount => .error (.new .MalformedEnvelope
          ("this authorization entry uses source-account credentials and needs no separate " ++
            "signature; it is covered by the transaction signature"))
      | .Address credentials =>
          match entry.root_invocation.function with
          | .ContractFn args =>
              match inspectInvocation codec args unknown with
              | .error error => .error error
              | .ok call => .ok (entry, {
                  address := codec.scAddressText credentials.address
                  nonce := credentials.nonce
                  call := some call })
          | _ => .error (.new .Uninspectable
              ("this authorization entry authorises contract creation, which this service does " ++
                "not sign"))

/-! ## What was inspected -/

variable {codec : Codec} {unknown : UnknownCallPolicy}

/-- The calls of a transaction are those of its operations, which run under its own account. -/
theorem inspectOperations_ok {operations : List TxOperation} {calls : List InspectedCall}
    (h : inspectOperations codec unknown operations = .ok calls) :
    List.Forall₂ (fun operation call => inspectOperation codec operation unknown = .ok call)
      operations calls := by
  induction operations generalizing calls with
  | nil =>
      obtain rfl := Except.ok.inj h
      exact List.Forall₂.nil
  | cons operation rest ih =>
      rw [inspectOperations] at h
      split at h
      · cases h
      · rename_i call hcall
        split at h
        · cases h
        · rename_i calls' hcalls
          obtain rfl := Except.ok.inj h
          exact List.Forall₂.cons hcall (ih hcalls)

theorem inspectOperation_ok {operation : TxOperation} {call : InspectedCall}
    (h : inspectOperation codec operation unknown = .ok call) :
    operation.source_account = none ∧ ∃ args auth,
      operation.body = .InvokeHostFunction ⟨.InvokeContract args, auth⟩ ∧
      inspectInvocation codec args unknown = .ok call := by
  rw [inspectOperation] at h
  split at h
  · cases h
  · rename_i hsource
    refine ⟨by simpa using hsource, ?_⟩
    split at h
    · rename_i op hbody
      obtain ⟨host_function, auth⟩ := op
      split at h
      · rename_i args hhost
        obtain rfl : host_function = .InvokeContract args := hhost
        exact ⟨args, auth, hbody, h⟩
      · cases h
    · cases h

/-- A transaction that is inspected carries no signature, and its calls are its operations'. -/
theorem inspectTransaction_ok {xdr : String} {tx : Transaction} {inspected : InspectedTransaction}
    (h : inspectTransaction codec xdr unknown = .ok (tx, inspected)) :
    codec.decodeEnvelope xdr = .ok (.Tx ⟨tx, []⟩) ∧
      inspected.source_account = codec.muxedAccountText tx.source_account ∧
      inspected.max_time = maxTime tx.cond ∧
      inspectOperations codec unknown tx.operations = .ok inspected.calls := by
  rw [inspectTransaction] at h
  split at h
  · cases h
  · cases h
  · cases h
  · rename_i inner hdecode
    obtain ⟨tx', signatures⟩ := inner
    split at h
    · cases h
    · rename_i hunsigned
      split at h
      · cases h
      · rename_i calls hcalls
        have hunsigned' : signatures = [] := not_not.mp hunsigned
        cases h
        rw [hunsigned'] at hdecode
        exact ⟨hdecode, rfl, rfl, hcalls⟩

/-- An entry that is inspected has the credentials of an address, and its root calls a contract. -/
theorem inspectAuthEntry_ok {xdr : String} {entry : SorobanAuthorizationEntry}
    {inspected : InspectedAuthEntry}
    (h : inspectAuthEntry codec xdr unknown = .ok (entry, inspected)) :
    codec.decodeAuthEntry xdr = .ok entry ∧ ∃ credentials args call,
      entry.credentials = .Address credentials ∧
      entry.root_invocation.function = .ContractFn args ∧
      inspectInvocation codec args unknown = .ok call ∧
      inspected.address = codec.scAddressText credentials.address ∧
      inspected.call = some call := by
  rw [inspectAuthEntry] at h
  split at h
  · cases h
  · rename_i entry' hdecode
    split at h
    · cases h
    · rename_i credentials hcredentials
      split at h
      · rename_i args hroot
        split at h
        · cases h
        · rename_i call hcall
          cases h
          exact ⟨hdecode, credentials, args, call, hcredentials, hroot, hcall, rfl, rfl⟩
      · cases h

end StellarAgent.Signer
