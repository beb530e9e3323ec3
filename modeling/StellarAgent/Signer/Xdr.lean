import StellarAgent.Signer.Error
import StellarAgent.Soroban.Host

set_option autoImplicit false

/-! # What a signing request carries

The XDR values that a signing request decodes to, as far as `services/signer` reads them. A part
that the service only hands on is kept as its XDR bytes.

Everything the service takes from other packages is in a `Codec`: XDR in base64, strkey
addresses, SHA-256, and Rust's `Debug` rendering of a text. Decoding and encoding may fail, and
then answer with the text of their error.
-/

namespace StellarAgent.Signer

open Soroban

/-! ## Values -/

inductive ScAddress where
  | Account (id : BytesN 32)
  | Contract (id : BytesN 32)
  | MuxedAccount (id : UInt64) (ed25519 : BytesN 32)
  | ClaimableBalance (id : Bytes)
  | LiquidityPool (id : BytesN 32)

inductive MuxedAccount where
  | Ed25519 (key : BytesN 32)
  | MuxedEd25519 (id : UInt64) (ed25519 : BytesN 32)

inductive ScVal where
  | Bool (value : Bool)
  | Void
  | Error (body : Bytes)
  | U32 (value : UInt32)
  | I32 (value : Int32)
  | U64 (value : UInt64)
  | I64 (value : Int64)
  | Timepoint (value : UInt64)
  | Duration (value : UInt64)
  | U128 (hi lo : UInt64)
  | I128 (hi : Int64) (lo : UInt64)
  | U256 (body : Bytes)
  | I256 (body : Bytes)
  | Bytes (bytes : Bytes)
  | String (text : Bytes)
  | Symbol (text : Bytes)
  | Vec (items : Option (List ScVal))
  | Map (entries : Option (List (ScVal × ScVal)))
  | Address (address : ScAddress)
  | ContractInstance (body : Bytes)
  | LedgerKeyContractInstance
  | LedgerKeyNonce (nonce : Int64)

/-- `ScVal::name` -/
def scValName : ScVal → String
  | .Bool _ => "Bool"
  | .Void => "Void"
  | .Error _ => "Error"
  | .U32 _ => "U32"
  | .I32 _ => "I32"
  | .U64 _ => "U64"
  | .I64 _ => "I64"
  | .Timepoint _ => "Timepoint"
  | .Duration _ => "Duration"
  | .U128 _ _ => "U128"
  | .I128 _ _ => "I128"
  | .U256 _ => "U256"
  | .I256 _ => "I256"
  | .Bytes _ => "Bytes"
  | .String _ => "String"
  | .Symbol _ => "Symbol"
  | .Vec _ => "Vec"
  | .Map _ => "Map"
  | .Address _ => "Address"
  | .ContractInstance _ => "ContractInstance"
  | .LedgerKeyContractInstance => "LedgerKeyContractInstance"
  | .LedgerKeyNonce _ => "LedgerKeyNonce"

/-! ## Invocations and their authorisation -/

structure InvokeContractArgs where
  contract_address : ScAddress
  function_name : Bytes
  args : List ScVal

inductive HostFunction where
  | InvokeContract (args : InvokeContractArgs)
  | CreateContract (body : Bytes)
  | UploadContractWasm (wasm : Bytes)
  | CreateContractV2 (body : Bytes)

inductive SorobanAuthorizedFunction where
  | ContractFn (args : InvokeContractArgs)
  | CreateContractHostFn (body : Bytes)
  | CreateContractV2HostFn (body : Bytes)

/-- `SorobanAuthorizedInvocation`: a function and the invocations it makes in turn. -/
inductive AuthorizedInvocation where
  | mk (function : SorobanAuthorizedFunction) (sub_invocations : List AuthorizedInvocation)

def AuthorizedInvocation.function : AuthorizedInvocation → SorobanAuthorizedFunction
  | .mk function _ => function

structure SorobanAddressCredentials where
  address : ScAddress
  nonce : Int64
  signature_expiration_ledger : Nat
  signature : ScVal

inductive SorobanCredentials where
  | SourceAccount
  | Address (credentials : SorobanAddressCredentials)

structure SorobanAuthorizationEntry where
  credentials : SorobanCredentials
  root_invocation : AuthorizedInvocation

/-! ## Transactions -/

structure InvokeHostFunctionOp where
  host_function : HostFunction
  auth : List SorobanAuthorizationEntry

/-- The operations that the service does not model. -/
inductive OperationKind where
  | CreateAccount | Payment | PathPaymentStrictReceive | ManageSellOffer | CreatePassiveSellOffer
  | SetOptions | ChangeTrust | AllowTrust | AccountMerge | Inflation | ManageData | BumpSequence
  | ManageBuyOffer | PathPaymentStrictSend | CreateClaimableBalance | ClaimClaimableBalance
  | BeginSponsoringFutureReserves | EndSponsoringFutureReserves | RevokeSponsorship | Clawback
  | ClawbackClaimableBalance | SetTrustLineFlags | LiquidityPoolDeposit | LiquidityPoolWithdraw
  | ExtendFootprintTtl | RestoreFootprint

inductive OperationBody where
  | InvokeHostFunction (op : InvokeHostFunctionOp)
  | Other (kind : OperationKind) (body : Bytes)

/-- `Operation` of the XDR. -/
structure TxOperation where
  source_account : Option MuxedAccount
  body : OperationBody

structure TimeBounds where
  min_time : Nat
  max_time : Nat

inductive Preconditions where
  | None
  | Time (bounds : TimeBounds)
  | V2 (time_bounds : Option TimeBounds) (rest : Bytes)

structure Transaction where
  source_account : MuxedAccount
  fee : Nat
  seq_num : Int
  cond : Preconditions
  memo : Bytes
  operations : List TxOperation
  ext : Bytes

structure DecoratedSignature where
  hint : BytesN 4
  signature : Bytes

structure TransactionV1Envelope where
  tx : Transaction
  signatures : List DecoratedSignature

inductive TransactionEnvelope where
  | TxV0 (body : Bytes)
  | Tx (inner : TransactionV1Envelope)
  | TxFeeBump (body : Bytes)

/-! ## What is hashed -/

structure TransactionSignaturePayload where
  network_id : BytesN 32
  tagged_transaction : Transaction

/-- `HashIdPreimage::SorobanAuthorization` -/
structure SorobanAuthorizationPreimage where
  network_id : BytesN 32
  nonce : Int64
  signature_expiration_ledger : Nat
  invocation : AuthorizedInvocation

/-! ## Other packages -/

structure Codec where
  /-- `TransactionEnvelope::from_xdr_base64` -/
  decodeEnvelope : String → Except String TransactionEnvelope
  /-- `TransactionEnvelope::to_xdr_base64` -/
  encodeEnvelope : TransactionEnvelope → Except String String
  /-- `SorobanAuthorizationEntry::from_xdr_base64` -/
  decodeAuthEntry : String → Except String SorobanAuthorizationEntry
  /-- `SorobanAuthorizationEntry::to_xdr_base64` -/
  encodeAuthEntry : SorobanAuthorizationEntry → Except String String
  /-- `TransactionSignaturePayload::to_xdr` -/
  encodePayload : TransactionSignaturePayload → Except String Bytes
  /-- `HashIdPreimage::to_xdr` -/
  encodePreimage : SorobanAuthorizationPreimage → Except String Bytes
  sha256 : Bytes → BytesN 32
  /-- `ScAddress::to_string` -/
  scAddressText : ScAddress → String
  /-- `MuxedAccount::to_string` -/
  muxedAccountText : MuxedAccount → String
  /-- `stellar_strkey::ed25519::PublicKey::to_string` -/
  publicKeyText : BytesN 32 → String
  /-- `stellar_strkey::ed25519::PublicKey::from_string` -/
  publicKeyOfText : String → Option (BytesN 32)
  /-- `{:?}` of a text -/
  debug : String → String

end StellarAgent.Signer
