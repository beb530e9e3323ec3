import StellarAgent.Lib.Results
import StellarAgent.Signer.Concurrency

set_option autoImplicit false

/-! # The arguments that the rules see

The rules of a policy are about the amounts and the recipients of a call. What a call moves is in
its arguments: at the places that the table names, if its function is known, and anywhere in them,
in vectors and maps too, if it is not.

The conservative reading looks at the outermost value of each argument, and at four of the eight
types of integers there; the table does not look at the type of a value at all. So the rules see
all that they should if and only if the arguments are plain (`arguments_covered_iff`).
-/

namespace StellarAgent.Signer

open Lib Soroban

/-! ## What an argument holds -/

/-- The number that some bytes write, most significant first. -/
def ofBytes (bytes : Bytes) : Nat := bytes.foldl (fun n b => n * 256 + b.toNat) 0

/-- The same in two's complement. -/
def ofSignedBytes (bytes : Bytes) : Int :=
  (ofBytes bytes : Int).bmod (256 ^ bytes.length)

/-- The value of an integer of any width. -/
def ScVal.integer : ScVal → Option Int
  | .U32 value => some value.toNat
  | .I32 value => some value.toInt
  | .U64 value => some value.toNat
  | .I64 value => some value.toInt
  | .U128 hi lo => some (hi.toNat * 2 ^ 64 + lo.toNat)
  | .I128 hi lo => some (hi.toInt * 2 ^ 64 + lo.toNat)
  | .U256 body => some (ofBytes body)
  | .I256 body => some (ofSignedBytes body)
  | _ => none

/-- The text of an address. -/
def addressOf (codec : Codec) : ScVal → Option String
  | .Address address => some (codec.scAddressText address)
  | _ => none

mutual

/-- What is left of a value when its vectors and maps are taken apart. -/
def ScVal.leaves : ScVal → List ScVal
  | .Vec (some items) => itemLeaves items
  | .Map (some entries) => entryLeaves entries
  | value => [value]

def itemLeaves : List ScVal → List ScVal
  | [] => []
  | item :: rest => item.leaves ++ itemLeaves rest

/-- Of the keys and of the values of a map. -/
def entryLeaves : List (ScVal × ScVal) → List ScVal
  | [] => []
  | (key, value) :: rest => key.leaves ++ value.leaves ++ entryLeaves rest

end

/-- Every integer in the arguments, at any depth. -/
def integersIn (args : List ScVal) : List Int := (args.flatMap ScVal.leaves).filterMap ScVal.integer

/-- Every address in the arguments, at any depth. -/
def addressesIn (codec : Codec) (args : List ScVal) : List String :=
  (args.flatMap ScVal.leaves).filterMap (addressOf codec)

/-- The row of the table for a function. -/
def specOf (function : String) : Option FunctionSpec :=
  KNOWN_FUNCTIONS.find? fun spec => spec.function = function

/-- The arguments that have a role. -/
def argsAt (role : ArgRole) (pairs : List (ScVal × ArgRole)) : List ScVal :=
  (pairs.filter fun pair => pair.2 = role).map Prod.fst

/-- **The rules see what they should.** Of a function of the table, the value of each argument at an
amount and the address of each at a recipient. Of another, each integer and each address that
occurs anywhere. -/
def InspectedCall.CoversArguments (codec : Codec) (args : List ScVal) (call : InspectedCall) :
    Prop :=
  match specOf call.function with
  | some spec =>
      (argsAt .Amount (args.zip spec.roles)).map ScVal.integer = call.amounts.map some ∧
        (argsAt .Recipient (args.zip spec.roles)).map (addressOf codec) = call.recipients.map some
  | none =>
      (integersIn args).Subperm call.amounts ∧ (addressesIn codec args).Subperm call.recipients

/-! ## The condition -/

/-- An integer of at most 128 bits. -/
def ScVal.narrow : ScVal → Option Int
  | .U256 _ => none
  | .I256 _ => none
  | value => value.integer

/-- Nothing that the rules should see is in it. -/
def ScVal.Inert (value : ScVal) : Prop :=
  ∀ leaf ∈ value.leaves, leaf.integer = none ∧ ∀ address, leaf ≠ .Address address

/-- **The condition.** The amounts of a function of the table are integers of at most 128 bits, and
its recipients addresses. An argument of another function is an integer of 64 or 128 bits or an
address itself, or there is neither an integer nor an address in it. -/
def PlainArguments (function : String) (args : List ScVal) : Prop :=
  match specOf function with
  | some spec =>
      (∀ value ∈ argsAt .Amount (args.zip spec.roles), value.narrow.isSome) ∧
        ∀ value ∈ argsAt .Recipient (args.zip spec.roles), ∃ address, value = .Address address
  | none => ∀ value ∈ args, conservativeRole value = .Scalar → value.Inert

/-! ## Lists of which some elements are taken -/

section

variable {α β : Type} {xs : List α}

/-- All elements are taken if each is. -/
theorem map_eq_taken_iff {f g : α → Option β} (h : ∀ x y, g x = some y → f x = some y) :
    xs.map f = (xs.filterMap g).map some ↔ ∀ x ∈ xs, (g x).isSome := by
  constructor
  · intro heq
    have hlength : xs.length = (xs.filterMap g).length := by
      simpa using congrArg List.length heq
    exact List.filterMap_length_eq_length.mp hlength.symm
  · intro hall
    induction xs with
    | nil => rfl
    | cons x xs ih =>
        obtain ⟨y, hy⟩ := Option.isSome_iff_exists.mp (hall x List.mem_cons_self)
        rw [List.map_cons, List.filterMap_cons_some hy, List.map_cons, h x y hy,
          ih fun x hx => hall x (List.mem_cons_of_mem _ hx)]

/-- Where each element gives at most what it holds, all that they hold is given only if each gives
all of it. -/
theorem flatMap_subperm_iff {held given : α → List β} (h : ∀ x, (given x).Sublist (held x)) :
    (xs.flatMap held).Subperm (xs.flatMap given) ↔ ∀ x ∈ xs, held x = given x := by
  constructor
  · intro hsub
    have hlength := hsub.length_le
    clear hsub
    induction xs with
    | nil =>
        intro x hx
        cases hx
    | cons x xs ih =>
        rw [List.flatMap_cons, List.flatMap_cons, List.length_append, List.length_append] at hlength
        have hfirst : (given x).length ≤ (held x).length := (h x).length_le
        have hrest : (xs.flatMap given).length ≤ (xs.flatMap held).length :=
          (List.Sublist.flatMap_right xs fun x _ => h x).length_le
        intro y hy
        rcases List.mem_cons.mp hy with rfl | hy
        · exact ((h y).eq_of_length (by omega)).symm
        · exact ih (by omega) y hy
  · intro hall
    rw [List.flatMap_congr hall]

end

/-! ## What the rules see -/

section

variable {codec : Codec} {value : ScVal} {decoded : ArgValue}

def decodedInt : ArgValue → Option Int
  | .Int value => some value
  | _ => none

def decodedAddress : ArgValue → Option String
  | .Address text => some text
  | _ => none

theorem decodeValue_int (h : decodeValue codec value = .ok decoded) :
    decodedInt decoded = value.narrow := by
  cases value with
  | U128 hi lo =>
      unfold decodeValue at h
      dsimp only at h
      split at h
      · obtain rfl := Except.ok.inj h
        rfl
      · cases h
  | _ =>
      obtain rfl := Except.ok.inj h
      rfl

theorem decodeValue_address (h : decodeValue codec value = .ok decoded) :
    decodedAddress decoded = addressOf codec value := by
  cases value with
  | U128 hi lo =>
      unfold decodeValue at h
      dsimp only at h
      split at h
      · obtain rfl := Except.ok.inj h
        rfl
      · cases h
  | _ =>
      obtain rfl := Except.ok.inj h
      rfl

theorem decodeArgs_taken {β : Type} {role : ArgRole} {pick : ArgValue → Option β}
    {read : ScVal → Option β}
    (hread : ∀ value decoded, decodeValue codec value = .ok decoded → pick decoded = read value)
    {pairs : List (ScVal × ArgRole)} {args : List InspectedArg}
    (h : decodeArgs codec pairs = .ok args) :
    ((args.filter fun arg => arg.role = role).filterMap fun arg => pick arg.value) =
      (argsAt role pairs).filterMap read := by
  induction pairs generalizing args with
  | nil =>
      obtain rfl := Except.ok.inj h
      rfl
  | cons pair pairs ih =>
      obtain ⟨value, role'⟩ := pair
      rw [decodeArgs] at h
      split at h
      · cases h
      · rename_i decoded hdecoded
        split at h
        · cases h
        · rename_i rest hrest
          obtain rfl := Except.ok.inj h
          by_cases hrole : role' = role
          · simp [argsAt, hrole, List.filterMap_cons, hread value decoded hdecoded, ih hrest]
          · simpa [argsAt, hrole] using ih hrest

/-- The roles of a function of the table are the table's, and those of another the conservative
ones. -/
theorem argRoles_ok {function : String} {args : List ScVal} {unknown : UnknownCallPolicy}
    {roles : List ArgRole} {conservative : Bool}
    (h : argRoles function args unknown = .ok (roles, conservative)) :
    roles = match specOf function with
      | some spec => spec.roles
      | none => args.map conservativeRole := by
  unfold argRoles at h
  unfold specOf
  cases hspec : KNOWN_FUNCTIONS.find? fun spec => spec.function = function with
  | some spec =>
      rw [hspec] at h
      dsimp only at h ⊢
      split at h
      · exact (Prod.mk.inj (Except.ok.inj h)).1.symm
      · cases h
  | none =>
      rw [hspec] at h
      cases unknown with
      | Refuse => cases h
      | Conservative => exact (Prod.mk.inj (Except.ok.inj h)).1.symm

/-- The rules see the narrow integers at the amounts, and the addresses at the recipients. -/
theorem inspectInvocation_seen {invocation : InvokeContractArgs} {unknown : UnknownCallPolicy}
    {call : InspectedCall} (h : inspectInvocation codec invocation unknown = .ok call) :
    ∃ roles, (roles = match specOf call.function with
        | some spec => spec.roles
        | none => invocation.args.map conservativeRole) ∧
      call.amounts = (argsAt .Amount (invocation.args.zip roles)).filterMap ScVal.narrow ∧
      call.recipients = (argsAt .Recipient (invocation.args.zip roles)).filterMap
        (addressOf codec) := by
  rw [inspectInvocation] at h
  split at h
  · cases h
  · rename_i function_name hname
    split at h
    · cases h
    · rename_i roles conservative hroles
      split at h
      · cases h
      · rename_i args hargs
        obtain rfl := Except.ok.inj h
        refine ⟨roles, argRoles_ok hroles, ?_, ?_⟩
        · exact decodeArgs_taken (fun _ _ => decodeValue_int) hargs
        · exact decodeArgs_taken (fun _ _ => decodeValue_address) hargs

/-! ## The conservative reading -/

/-- The integer that the conservative reading takes of an argument. -/
def conservativeAmount (value : ScVal) : Option Int :=
  if conservativeRole value = .Amount then value.narrow else none

/-- The address that it takes. -/
def conservativeRecipient (codec : Codec) (value : ScVal) : Option String :=
  if conservativeRole value = .Recipient then addressOf codec value else none

theorem argsAt_conservative {β : Type} (role : ArgRole) (read : ScVal → Option β)
    (args : List ScVal) :
    (argsAt role (args.zip (args.map conservativeRole))).filterMap read =
      args.flatMap fun value => (if conservativeRole value = role then read value
        else none).toList := by
  induction args with
  | nil => rfl
  | cons value args ih =>
      rw [List.flatMap_cons, ← ih]
      by_cases hrole : conservativeRole value = role
      · cases hread : read value <;> simp [argsAt, hrole, hread]
      · simp [argsAt, hrole]

/-- What is not a vector or a map is its only leaf. -/
theorem leaves_of_role (h : conservativeRole value ≠ .Scalar) : value.leaves = [value] := by
  cases value with
  | Vec items => exact absurd rfl h
  | Map entries => exact absurd rfl h
  | _ => rfl

/-- What is taken of an argument is in it. -/
theorem conservativeAmount_sublist :
    (conservativeAmount value).toList.Sublist (value.leaves.filterMap ScVal.integer) := by
  by_cases hrole : conservativeRole value = .Amount
  · rw [leaves_of_role (by rw [hrole]; decide), conservativeAmount, if_pos hrole]
    cases value with
    | U64 _ | I64 _ | U128 _ _ | I128 _ _ => exact List.Sublist.refl _
    | _ => cases hrole
  · rw [conservativeAmount, if_neg hrole]
    exact List.nil_sublist _

theorem conservativeRecipient_sublist :
    (conservativeRecipient codec value).toList.Sublist
      (value.leaves.filterMap (addressOf codec)) := by
  by_cases hrole : conservativeRole value = .Recipient
  · rw [leaves_of_role (by rw [hrole]; decide), conservativeRecipient, if_pos hrole]
    cases value with
    | Address _ => exact List.Sublist.refl _
    | _ => cases hrole
  · rw [conservativeRecipient, if_neg hrole]
    exact List.nil_sublist _

theorem addressOf_eq_none : addressOf codec value = none ↔ ∀ address, value ≠ .Address address := by
  cases value with
  | Address address => simp [addressOf]
  | _ => simp [addressOf]

/-- All that is in an argument is taken of it if it is read itself, or inert. -/
theorem taken_iff_inert :
    (value.leaves.filterMap ScVal.integer = (conservativeAmount value).toList ∧
      value.leaves.filterMap (addressOf codec) = (conservativeRecipient codec value).toList) ↔
        (conservativeRole value = .Scalar → value.Inert) := by
  by_cases hrole : conservativeRole value = .Scalar
  · rw [conservativeAmount, conservativeRecipient, if_neg (by rw [hrole]; decide),
      if_neg (by rw [hrole]; decide)]
    simp only [Option.toList_none, List.filterMap_eq_nil_iff, addressOf_eq_none, hrole,
      forall_const, ScVal.Inert]
    exact ⟨fun h leaf hleaf => ⟨h.1 leaf hleaf, h.2 leaf hleaf⟩,
      fun h => ⟨fun leaf hleaf => (h leaf hleaf).1, fun leaf hleaf => (h leaf hleaf).2⟩⟩
  · refine ⟨fun _ h => absurd h hrole, fun _ => ?_⟩
    rw [leaves_of_role hrole]
    cases value with
    | U64 _ | I64 _ | U128 _ _ | I128 _ _ | Address _ => exact ⟨rfl, rfl⟩
    | _ => exact absurd rfl hrole

theorem narrow_integer {n : Int} (h : value.narrow = some n) : value.integer = some n := by
  cases value with
  | U256 _ | I256 _ => cases h
  | _ => exact h

theorem addressOf_isSome : (addressOf codec value).isSome ↔ ∃ address, value = .Address address := by
  cases value with
  | Address address => simp [addressOf]
  | _ => simp [addressOf]

/-- **The arguments that the rules see.** The rules see all that they should of a call that is
accepted, if and only if its arguments are plain. -/
theorem arguments_covered_iff {invocation : InvokeContractArgs} {unknown : UnknownCallPolicy}
    {call : InspectedCall} (h : inspectInvocation codec invocation unknown = .ok call) :
    call.CoversArguments codec invocation.args ↔
      PlainArguments call.function invocation.args := by
  obtain ⟨roles, hroles, hamounts, hrecipients⟩ := inspectInvocation_seen h
  unfold InspectedCall.CoversArguments PlainArguments
  cases hspec : specOf call.function with
  | some spec =>
      rw [hspec] at hroles
      obtain rfl : roles = spec.roles := hroles
      dsimp only
      rw [hamounts, hrecipients, map_eq_taken_iff fun _ _ => narrow_integer,
        map_eq_taken_iff fun _ _ => id]
      simp only [addressOf_isSome]
  | none =>
      rw [hspec] at hroles
      obtain rfl : roles = invocation.args.map conservativeRole := hroles
      dsimp only
      rw [hamounts, hrecipients, argsAt_conservative, argsAt_conservative, integersIn, addressesIn,
        List.filterMap_flatMap, List.filterMap_flatMap]
      have hints : _ ↔ ∀ value ∈ invocation.args,
          value.leaves.filterMap ScVal.integer = (conservativeAmount value).toList :=
        flatMap_subperm_iff fun _ => conservativeAmount_sublist
      have haddresses : _ ↔ ∀ value ∈ invocation.args,
          value.leaves.filterMap (addressOf codec) = (conservativeRecipient codec value).toList :=
        flatMap_subperm_iff fun _ => conservativeRecipient_sublist
      refine (and_congr hints haddresses).trans ?_
      rw [← forall₂_and]
      exact forall₂_congr fun _ _ => taken_iff_inert

end

/-! ## A call that hides its payments -/

/-- The sample payment is seen. -/
theorem arguments_covered_payment :
    inspectInvocation bareCodec samplePayment .Refuse = .ok samplePaymentCall ∧
      samplePaymentCall.CoversArguments bareCodec samplePayment.args := by
  have hinspect : inspectInvocation bareCodec samplePayment .Refuse = .ok samplePaymentCall := by
    rfl
  have hspec : specOf "pay" = some ⟨"pay", [.Signer, .Id, .Recipient, .Amount, .Text]⟩ := by
    rfl
  refine ⟨hinspect, (arguments_covered_iff hinspect).mpr ?_⟩
  show PlainArguments "pay" samplePayment.args
  rw [PlainArguments, hspec]
  simp [argsAt, samplePayment, ScVal.narrow, ScVal.integer]

/-- A call that pays what is in a vector. -/
def batchPayment : InvokeContractArgs where
  contract_address := .Contract (digestOf 0)
  function_name := utf8 "pay_all".toList
  args := [.Vec (some [.Address (.Contract (digestOf 1)), .I128 0 1000000])]

def batchPaymentCall : InspectedCall where
  contract := "CABC"
  function := "pay_all"
  args := [⟨.Scalar, .Other "vec"⟩]
  conservative := true

/-- Nothing of it is seen. -/
theorem batch_payment_unseen :
    ¬ ∀ (codec : Codec) (invocation : InvokeContractArgs) (unknown : UnknownCallPolicy)
      (call : InspectedCall), inspectInvocation codec invocation unknown = .ok call →
        call.CoversArguments codec invocation.args := by
  intro h
  have hinspect : inspectInvocation bareCodec batchPayment .Conservative =
      .ok batchPaymentCall :=
    toOption_eq_some.mp (by decide +kernel)
  have hcovers := h bareCodec batchPayment .Conservative batchPaymentCall hinspect
  have hspec : specOf batchPaymentCall.function = none := by
    rw [specOf, List.find?_eq_none]
    decide +kernel
  rw [InspectedCall.CoversArguments, hspec] at hcovers
  have hlength : (integersIn batchPayment.args).length ≤ batchPaymentCall.amounts.length :=
    hcovers.1.length_le
  have hints : (integersIn batchPayment.args).length = 1 := by
    rfl
  have hamounts : batchPaymentCall.amounts.length = 0 := by
    rfl
  omega

end StellarAgent.Signer
