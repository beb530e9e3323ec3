import StellarAgent.Indexer.Events

set_option autoImplicit false

/-! # The normalized ledger

`packages/indexer/src/ledger.ts`: the balanced entries that canonical events and confirmed fees
stand for, and the issues of the events that give none. Amounts that the source keeps as decimal
texts are integers here. The sorts of JavaScript are stable; how it collates two texts
(`localeCompare`) is a parameter.
-/

namespace StellarAgent.Indexer

/-! ## `BigInt` of a text -/

/-- White space of JavaScript, line ends included -/
def isWhiteSpace (c : Char) : Bool :=
  let n := c.toNat
  decide ((9 ≤ n ∧ n ≤ 13) ∨ (8192 ≤ n ∧ n ≤ 8202) ∨
    n ∈ [32, 160, 5760, 8232, 8233, 8239, 8287, 12288, 65279])

/-- The value of a digit, if it is one of the base -/
def digitOf (base : ℕ) (c : Char) : Option ℕ :=
  let n := c.toNat
  let value :=
    if 48 ≤ n ∧ n ≤ 57 then n - 48
    else if 65 ≤ n ∧ n ≤ 90 then n - 55
    else if 97 ≤ n ∧ n ≤ 122 then n - 87
    else base
  if value < base then some value else none

/-- The value of a text of digits, after the value of those before it -/
def digitsValue (base : ℕ) : ℕ → List Char → Option ℕ
  | value, [] => some value
  | value, c :: rest => (digitOf base c).bind fun digit => digitsValue base (base * value + digit) rest

/-- At least one digit -/
def digits (base : ℕ) (text : List Char) : Option ℕ :=
  if text = [] then none else digitsValue base 0 text

/-- `BigInt(value)`, `none` where it throws -/
def bigInt (value : String) : Option ℤ :=
  let text := ((value.toList.dropWhile isWhiteSpace).reverse.dropWhile isWhiteSpace).reverse
  match text with
  | [] => some 0
  | '0' :: 'x' :: rest | '0' :: 'X' :: rest => (digits 16 rest).map fun n : ℕ => (n : ℤ)
  | '0' :: 'o' :: rest | '0' :: 'O' :: rest => (digits 8 rest).map fun n : ℕ => (n : ℤ)
  | '0' :: 'b' :: rest | '0' :: 'B' :: rest => (digits 2 rest).map fun n : ℕ => (n : ℤ)
  | '-' :: rest => (digits 10 rest).map fun n : ℕ => -(n : ℤ)
  | '+' :: rest => (digits 10 rest).map fun n : ℕ => (n : ℤ)
  | rest => (digits 10 rest).map fun n : ℕ => (n : ℤ)

theorem digitOf_ten {c : Char} (h : c.isDigit = true) :
    digitOf 10 c = some (c.toNat - '0'.toNat) := by
  have hrange : 48 ≤ c.toNat ∧ c.toNat ≤ 57 := by
    simpa [Char.isDigit, UInt32.le_iff_toNat_le] using h
  have hzero : '0'.toNat = 48 := rfl
  simp only [digitOf, if_pos hrange, hzero]
  rw [if_pos (by omega)]

theorem digitsValue_ten {cs : List Char} (h : ∀ c ∈ cs, c.isDigit = true) (value : ℕ) :
    digitsValue 10 value cs = some (Nat.ofDigitChars 10 cs value) := by
  induction cs generalizing value with
  | nil => rfl
  | cons c cs ih =>
      rw [digitsValue, digitOf_ten (h c List.mem_cons_self), Option.bind_some,
        ih (fun d hd => h d (List.mem_cons_of_mem c hd)), Nat.ofDigitChars_cons]

theorem digits_toDigits (n : ℕ) : digits 10 (Nat.toDigits 10 n) = some n := by
  have hdigits : ∀ c ∈ Nat.toDigits 10 n, c.isDigit = true :=
    fun c hc => Nat.isDigit_of_mem_toDigits (by omega) (by omega) hc
  rw [digits, if_neg (Nat.toDigits_ne_nil), digitsValue_ten hdigits, Nat.ofDigitChars_ten_toDigits]

/-- Digits, and a minus before them, are no white space. -/
theorem not_isWhiteSpace {c : Char} (h : c.isDigit = true ∨ c = '-') : isWhiteSpace c = false := by
  rcases h with h | rfl
  · have hrange : 48 ≤ c.toNat ∧ c.toNat ≤ 57 := by
      simpa [Char.isDigit, UInt32.le_iff_toNat_le] using h
    simp only [isWhiteSpace, decide_eq_false_iff_not, List.mem_cons, List.not_mem_nil, or_false]
    omega
  · decide

theorem strip_eq_self {cs : List Char} (h : ∀ c ∈ cs, isWhiteSpace c = false) :
    ((cs.dropWhile isWhiteSpace).reverse.dropWhile isWhiteSpace).reverse = cs := by
  have hdrop : ∀ ds : List Char, (∀ c ∈ ds, isWhiteSpace c = false) →
      ds.dropWhile isWhiteSpace = ds := by
    intro ds hds
    cases ds with
    | nil => rfl
    | cons d ds => rw [List.dropWhile_cons_of_neg (by simp [hds d List.mem_cons_self])]
  rw [hdrop cs h, hdrop cs.reverse (fun c hc => h c (List.mem_reverse.mp hc)), List.reverse_reverse]

theorem bigInt_natCast (n : ℕ) : bigInt (toString n) = some (n : ℤ) := by
  have hchars : (toString n).toList = Nat.toDigits 10 n := by simp
  have hdigits : ∀ c ∈ Nat.toDigits 10 n, c.isDigit = true :=
    fun c hc => Nat.isDigit_of_mem_toDigits (by omega) (by omega) hc
  unfold bigInt
  rw [hchars, strip_eq_self fun c hc => not_isWhiteSpace (Or.inl (hdigits c hc))]
  dsimp only
  split
  case h_1 heq => exact absurd heq Nat.toDigits_ne_nil
  case h_10 => rw [digits_toDigits]; rfl
  -- no other form begins with two digits, or is a digit alone
  all_goals
    rename_i heq
    rw [heq] at hdigits
    simp at hdigits

/-- What `toString` writes is read back. -/
theorem bigInt_toString (n : ℤ) : bigInt (toString n) = some n := by
  cases n with
  | ofNat n => exact bigInt_natCast n
  | negSucc n =>
      have hchars : (toString (Int.negSucc n)).toList = '-' :: Nat.toDigits 10 (n + 1) := by
        show ("-" ++ toString (n + 1)).toList = _
        simp
      have hdigits : ∀ c ∈ Nat.toDigits 10 (n + 1), c.isDigit = true :=
        fun c hc => Nat.isDigit_of_mem_toDigits (by omega) (by omega) hc
      unfold bigInt
      rw [hchars, strip_eq_self fun c hc => not_isWhiteSpace ?_]
      · show (digits 10 (Nat.toDigits 10 (n + 1))).map (fun n : ℕ => -(n : ℤ)) = _
        rw [digits_toDigits]
        rfl
      · rcases List.mem_cons.mp hc with rfl | hc
        · exact Or.inr rfl
        · exact Or.inl (hdigits c hc)

/-! ## Records -/

/-- Asset used for Stellar network fees when no SAC address is required. -/
def NATIVE_ASSET : String := "native:XLM"

inductive LedgerEntryKind where
  | channel_funding
  | channel_top_up
  | channel_payment
  | channel_conversion
  | channel_refund
  | escrow_lock
  | escrow_release
  | escrow_refund
  | network_fee
  deriving DecidableEq

inductive LedgerAccountRole where
  | owner
  | agent
  | recipient
  | requester
  | worker
  | contract
  | conversion
  | fee_payer
  | network
  deriving DecidableEq

inductive ReferenceType where
  | channel
  | job
  | transaction
  deriving DecidableEq

/-- What an entry does to one account: a posting before it has an id -/
structure Posting where
  account : String
  role : LedgerAccountRole
  asset : String
  amount : ℤ
  deriving DecidableEq

structure LedgerPosting extends Posting where
  postingId : String
  deriving DecidableEq

structure LedgerEntry where
  entryId : String
  eventId : Option String
  txHash : String
  ledger : ℤ
  ledgerClosedAt : String
  kind : LedgerEntryKind
  referenceType : ReferenceType
  referenceId : String
  agent : Option String
  owner : Option String
  counterparty : Option String
  memo : Option String
  sourceAsset : String
  sourceAmount : ℤ
  destinationAsset : Option String
  destinationAmount : Option ℤ
  postings : List LedgerPosting
  metadata : JsonValue

structure TransactionFee where
  txHash : String
  ledger : ℤ
  ledgerClosedAt : String
  payer : String
  charged : String
  asset : Option String
  agent : Option String
  owner : Option String
  deriving DecidableEq

inductive IssueCode where
  | MISSING_CHANNEL_STATE
  | MISSING_JOB_STATE
  | INVALID_AMOUNT
  | UNBALANCED_ENTRY
  deriving DecidableEq

def IssueCode.text : IssueCode → String
  | MISSING_CHANNEL_STATE => "MISSING_CHANNEL_STATE"
  | MISSING_JOB_STATE => "MISSING_JOB_STATE"
  | INVALID_AMOUNT => "INVALID_AMOUNT"
  | UNBALANCED_ENTRY => "UNBALANCED_ENTRY"

structure LedgerIssue where
  issueId : String
  eventId : String
  txHash : String
  ledger : ℤ
  code : IssueCode
  message : String
  deriving DecidableEq

structure NormalizedLedger where
  entries : List LedgerEntry
  issues : List LedgerIssue

structure Snapshot where
  ledger : ℤ
  pagingToken : String
  txHash : String
  state : List (String × JsonValue)

structure EconomicContext where
  agent : Option String
  owner : Option String
  counterparty : Option String
  sourceAsset : String
  sourceAmount : ℤ
  destinationAsset : Option String := none
  destinationAmount : Option ℤ := none
  memo : Option String := none
  postings : List Posting
  metadata : JsonValue := .object []

/-! ## Reading a snapshot -/

def amount (value eventId : String) : Except String ℤ :=
  match bigInt value with
  | some n => .ok n
  | none => .error ("event " ++ eventId ++ " has invalid integer amount " ++ value)

/-- A text that is there and not empty -/
def truthy (value : Option String) : Option String := value.filter (· ≠ "")

def text (state : Option (List (String × JsonValue))) (key : String) : Option String :=
  ((state.bind fun fields => field fields key)).bind JsonValue.asString

def optionalText (state : Option (List (String × JsonValue))) (key : String) : Option String :=
  match state.bind fun fields => field fields key with
  | some (.string value) => some value
  | some (.object fields) =>
      match field fields "Some" with
      | some (.string value) => some value
      | some (.array (.string value :: _)) => some value
      | _ => none
  | _ => none

section

variable (localeCompare : String → String → Ordering)

/-- `a.ledger - b.ledger || a.text.localeCompare(b.text)` is not positive. -/
def precedes (a b : ℤ × String) : Prop :=
  a.1 < b.1 ∨ (a.1 = b.1 ∧ localeCompare a.2 b.2 ≠ .gt)

instance (a b : ℤ × String) : Decidable (precedes localeCompare a b) :=
  inferInstanceAs (Decidable (_ ∨ _))

/-- A stable sort by ledger, then by a text -/
def sortBy {A : Type} (key : A → ℤ × String) (items : List A) : List A :=
  items.insertionSort fun a b => precedes localeCompare (key a) (key b)

inductive SnapshotKind where
  | channel
  | job
  deriving DecidableEq

def SnapshotKind.action : SnapshotKind → String
  | channel => "channel"
  | job => "job"

def SnapshotKind.idField : SnapshotKind → String
  | channel => "channelId"
  | job => "jobId"

/-- The snapshot that an event is of the channel or job `id` -/
def snapshotOf (kind : SnapshotKind) (id : String) (event : StoredEvent) : Option Snapshot :=
  if event.namespace ≠ .state ∨ event.action ≠ kind.action then none
  else
    match event.payload.body.state.bind JsonValue.asObject with
    | some state =>
        if truthy (field event.payload.body.fields kind.idField) = some id then
          some ⟨event.ledger, event.pagingToken, event.txHash, state⟩
        else none
    | none => none

/-- The snapshots of the channel or job `id`, in canonical order -/
def snapshots (events : List StoredEvent) (kind : SnapshotKind) (id : String) : List Snapshot :=
  sortBy localeCompare (fun snapshot => (snapshot.ledger, snapshot.pagingToken))
    (events.filterMap (snapshotOf kind id))

/-- The event stands before the snapshot. -/
def before (event : StoredEvent) (snapshot : Snapshot) : Prop :=
  event.ledger < snapshot.ledger ∨ (event.ledger = snapshot.ledger ∧
    localeCompare event.pagingToken snapshot.pagingToken = .lt)

instance (event : StoredEvent) (snapshot : Snapshot) :
    Decidable (before localeCompare event snapshot) :=
  inferInstanceAs (Decidable (_ ∨ _))

/-- The first snapshot of the same transaction, otherwise the latest one before the event -/
def stateFor (event : StoredEvent) (values : List Snapshot) :
    Option (List (String × JsonValue)) :=
  match values.find? fun snapshot => snapshot.txHash = event.txHash with
  | some snapshot => some snapshot.state
  | none =>
      ((values.takeWhile fun snapshot => ¬ before localeCompare event snapshot).getLast?).map
        Snapshot.state

end

/-! ## Entries -/

def totalOf (asset : String) (postings : List LedgerPosting) : ℤ :=
  ((postings.filter fun posting => posting.asset = asset).map fun posting => posting.amount).sum

def validateEntry (entry : LedgerEntry) : Except String LedgerEntry :=
  match (entry.postings.map fun posting => posting.asset).find? fun asset =>
      totalOf asset entry.postings ≠ 0 with
  | some asset =>
      .error ("entry " ++ entry.entryId ++ " is unbalanced for " ++ asset ++ ": " ++
        toString (totalOf asset entry.postings))
  | none => .ok entry

def entry (event : StoredEvent) (kind : LedgerEntryKind) (referenceType : ReferenceType)
    (referenceId : String) (context : EconomicContext) : Except String LedgerEntry :=
  validateEntry {
    entryId := "event:" ++ event.eventId
    eventId := some event.eventId
    txHash := event.txHash
    ledger := event.ledger
    ledgerClosedAt := event.ledgerClosedAt
    kind := kind
    referenceType := referenceType
    referenceId := referenceId
    agent := context.agent
    owner := context.owner
    counterparty := context.counterparty
    memo := context.memo
    sourceAsset := context.sourceAsset
    sourceAmount := context.sourceAmount
    destinationAsset := context.destinationAsset
    destinationAmount := context.destinationAmount
    postings := context.postings.mapIdx fun index posting =>
      { posting with postingId := "event:" ++ event.eventId ++ ":" ++ toString index }
    metadata := context.metadata }

def issue (event : StoredEvent) (code : IssueCode) (message : String) : LedgerIssue where
  issueId := event.eventId ++ ":" ++ code.text
  eventId := event.eventId
  txHash := event.txHash
  ledger := event.ledger
  code := code
  message := message

/-- What an event gives: an entry, an issue, or nothing -/
inductive Outcome where
  | entered (entry : LedgerEntry)
  | raised (issue : LedgerIssue)
  | passed

/-- An event of the namespace `channel`, with the state that `stateFor` finds -/
def normalizeChannel (event : StoredEvent) (channelId : String)
    (state : Option (List (String × JsonValue))) : Except String Outcome :=
  let payload := event.payload.body
  let asset := truthy (text state "token")
  let owner := truthy ((field payload.fields "owner").or (text state "owner"))
  let agent := truthy ((field payload.fields "agent").or (text state "agent"))
  let contract := event.contractAddress
  let book := fun kind context => Outcome.entered <$> entry event kind .channel channelId context
  match asset, owner, agent with
  | some asset, some owner, some agent =>
      match payload with
      | .opened _ _ _ deposit => do
          let value ← amount deposit event.eventId
          book .channel_funding {
            agent := agent
            owner := owner
            counterparty := contract
            sourceAsset := asset
            sourceAmount := value
            postings := [⟨owner, .owner, asset, -value⟩, ⟨contract, .contract, asset, value⟩] }
      | .topup _ _ text => do
          let value ← amount text event.eventId
          book .channel_top_up {
            agent := agent
            owner := owner
            counterparty := contract
            sourceAsset := asset
            sourceAmount := value
            postings := [⟨owner, .owner, asset, -value⟩, ⟨contract, .contract, asset, value⟩] }
      | .paid _ _ recipient text memo => do
          let value ← amount text event.eventId
          book .channel_payment {
            agent := agent
            owner := owner
            counterparty := recipient
            memo := memo
            sourceAsset := asset
            sourceAmount := value
            postings :=
              [⟨contract, .contract, asset, -value⟩, ⟨recipient, .recipient, asset, value⟩] }
      | .convpaid _ _ recipient text destinationToken received memo => do
          let source ← amount text event.eventId
          let destination ← amount received event.eventId
          let clearing := "conversion:" ++ event.eventId
          book .channel_conversion {
            agent := agent
            owner := owner
            counterparty := recipient
            memo := memo
            sourceAsset := asset
            sourceAmount := source
            destinationAsset := destinationToken
            destinationAmount := destination
            postings :=
              [⟨contract, .contract, asset, -source⟩, ⟨clearing, .conversion, asset, source⟩,
                ⟨clearing, .conversion, destinationToken, -destination⟩,
                ⟨recipient, .recipient, destinationToken, destination⟩] }
      | .closed _ _ refund => do
          let value ← amount refund event.eventId
          book .channel_refund {
            agent := agent
            owner := owner
            counterparty := owner
            sourceAsset := asset
            sourceAmount := value
            postings := [⟨contract, .contract, asset, -value⟩, ⟨owner, .owner, asset, value⟩] }
      | _ => return .passed
  | _, _, _ =>
      if payload.action ∈ ["opened", "paid", "convpaid", "topup", "closed"] then
        return .raised (issue event .MISSING_CHANNEL_STATE
          ("channel " ++ channelId ++ " has no asset/owner/agent snapshot"))
      else return .passed

/-- An event of the namespace `escrow`, with the state that `stateFor` finds -/
def normalizeEscrow (event : StoredEvent) (jobId : String)
    (state : Option (List (String × JsonValue))) : Except String Outcome :=
  let payload := event.payload.body
  let asset := truthy (text state "token")
  let requester := truthy ((field payload.fields "requester").or (text state "requester"))
  let worker := truthy ((field payload.fields "worker").or (optionalText state "worker"))
  let stateAmount := truthy (text state "amount")
  let contract := event.contractAddress
  let book := fun kind context => Outcome.entered <$> entry event kind .job jobId context
  match asset, requester, stateAmount with
  | some asset, some requester, some stateAmount => do
      let value ← amount ((field payload.fields "amount").getD stateAmount) event.eventId
      match payload with
      | .jobCreated .. =>
          book .escrow_lock {
            agent := requester
            owner := requester
            counterparty := contract
            sourceAsset := asset
            sourceAmount := value
            postings :=
              [⟨requester, .requester, asset, -value⟩, ⟨contract, .contract, asset, value⟩] }
      | .released .. =>
          match worker with
          | some worker =>
              book .escrow_release {
                agent := requester
                owner := requester
                counterparty := worker
                sourceAsset := asset
                sourceAmount := value
                postings :=
                  [⟨contract, .contract, asset, -value⟩, ⟨worker, .worker, asset, value⟩] }
          | none => return .passed
      | .refunded .. =>
          book .escrow_refund {
            agent := requester
            owner := requester
            counterparty := requester
            sourceAsset := asset
            sourceAmount := value
            postings :=
              [⟨contract, .contract, asset, -value⟩, ⟨requester, .requester, asset, value⟩] }
      | .resolved _ arbiter favorWorker =>
          match if favorWorker then worker else some requester with
          | none =>
              return .raised (issue event .MISSING_JOB_STATE
                ("job " ++ jobId ++ " resolution has no worker"))
          | some recipient =>
              book (if favorWorker then .escrow_release else .escrow_refund) {
                agent := requester
                owner := requester
                counterparty := recipient
                sourceAsset := asset
                sourceAmount := value
                postings :=
                  [⟨contract, .contract, asset, -value⟩,
                    ⟨recipient, if favorWorker then .worker else .requester, asset, value⟩]
                metadata := .object
                  [("arbiter", .string arbiter), ("resolvedDispute", .bool true)] }
      | _ => return .passed
  | _, _, _ =>
      if payload.action ∈ ["created", "released", "refunded", "resolved"] then
        return .raised (issue event .MISSING_JOB_STATE
          ("job " ++ jobId ++ " has no asset/requester/amount snapshot"))
      else return .passed

section

variable (localeCompare : String → String → Ordering)

/-- The body of the loop over the events, its `try` included; `events` are all of them. -/
def normalizeEvent (events : List StoredEvent) (event : StoredEvent) : Outcome :=
  let payload := event.payload.body
  let outcome := match payload.namespace, field payload.fields "channelId",
      field payload.fields "jobId" with
    | .channel, some channelId, _ =>
        normalizeChannel event channelId
          (stateFor localeCompare event (snapshots localeCompare events .channel channelId))
    | .escrow, _, some jobId =>
        normalizeEscrow event jobId
          (stateFor localeCompare event (snapshots localeCompare events .job jobId))
    | _, _, _ => .ok .passed
  match outcome with
  | .ok outcome => outcome
  | .error message =>
      .raised (issue event
        (if "unbalanced".toList <:+: message.toList then .UNBALANCED_ENTRY else .INVALID_AMOUNT)
        message)

def Outcome.entryOption : Outcome → Option LedgerEntry
  | entered entry => some entry
  | _ => none

def Outcome.issue? : Outcome → Option LedgerIssue
  | raised issue => some issue
  | _ => none

/-- The entry of a fee; a fee that gives none is left out. -/
def feeEntry (fee : TransactionFee) : Option LedgerEntry :=
  match bigInt fee.charged with
  | none => none
  | some value =>
      let asset := fee.asset.getD NATIVE_ASSET
      let payer : Posting := ⟨fee.payer, .fee_payer, asset, -value⟩
      let network : Posting := ⟨"stellar:network-fees", .network, asset, value⟩
      (validateEntry {
        entryId := "fee:" ++ fee.txHash
        eventId := none
        txHash := fee.txHash
        ledger := fee.ledger
        ledgerClosedAt := fee.ledgerClosedAt
        kind := .network_fee
        referenceType := .transaction
        referenceId := fee.txHash
        agent := fee.agent
        owner := fee.owner
        counterparty := "stellar:network-fees"
        memo := none
        sourceAsset := asset
        sourceAmount := value
        destinationAsset := none
        destinationAmount := none
        postings := [{ payer with postingId := "fee:" ++ fee.txHash ++ ":0" },
          { network with postingId := "fee:" ++ fee.txHash ++ ":1" }]
        metadata := .object [] }).toOption

def normalizeLedger (events : List StoredEvent) (fees : List TransactionFee) : NormalizedLedger :=
  let ordered := sortBy localeCompare (fun event => (event.ledger, event.pagingToken)) events
  let outcomes := ordered.map (normalizeEvent localeCompare events)
  { entries := sortBy localeCompare (fun entry => (entry.ledger, entry.entryId))
      (outcomes.filterMap Outcome.entryOption ++ fees.filterMap feeEntry)
    issues := sortBy localeCompare (fun issue => (issue.ledger, issue.issueId))
      (outcomes.filterMap Outcome.issue?) }

end

end StellarAgent.Indexer
