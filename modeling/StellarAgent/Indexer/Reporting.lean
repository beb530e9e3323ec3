import StellarAgent.Indexer.Reconciliation

set_option autoImplicit false

/-! # Statements

`packages/indexer/src/reporting.ts`: the statement of an agent or an owner over a period, built from
normalized ledger entries. As in the ledger, amounts that the source keeps as decimal texts are
integers. How JavaScript collates two texts and what `Date.parse` makes of one are parameters.
-/

namespace StellarAgent.Indexer.Reporting

open Lib

/-! ## Records -/

inductive SubjectKind where
  | agent
  | owner
  deriving DecidableEq

def SubjectKind.text : SubjectKind → String
  | agent => "agent"
  | owner => "owner"

/-- The entity whose attributable economic activity appears on a statement. -/
structure StatementSubject where
  kind : SubjectKind
  id : String
  deriving DecidableEq

/-- Inclusive period boundaries; omitted boundaries are open-ended. -/
structure StatementPeriod where
  fromLedger : Option ℤ := none
  throughLedger : Option ℤ := none
  fromTimestamp : Option String := none
  throughTimestamp : Option String := none
  deriving DecidableEq

structure StatementOpeningPosition where
  asset : String
  amount : String
  deriving DecidableEq

structure StatementRequest where
  subject : StatementSubject
  period : StatementPeriod
  /-- The positions at the opening; otherwise they are derived from earlier rows. -/
  openingPositions : Option (List StatementOpeningPosition) := none
  reconciliation : Option ReconciliationResult := none

inductive StatementCategory where
  | funding
  | payment
  | conversion
  | refund
  | escrow
  | fee
  deriving DecidableEq

def StatementCategory.text : StatementCategory → String
  | funding => "funding"
  | payment => "payment"
  | conversion => "conversion"
  | refund => "refund"
  | escrow => "escrow"
  | fee => "fee"

inductive StatementDirection where
  | credit
  | debit
  | neutral
  deriving DecidableEq

def StatementDirection.text : StatementDirection → String
  | credit => "credit"
  | debit => "debit"
  | neutral => "neutral"

structure StatementLine where
  lineId : String
  entryId : String
  eventId : Option String
  txHash : String
  ledger : ℤ
  ledgerClosedAt : String
  kind : LedgerEntryKind
  category : StatementCategory
  direction : StatementDirection
  counterparty : Option String
  memo : Option String
  referenceType : ReferenceType
  referenceId : String
  asset : String
  amount : ℤ
  signedAmount : ℤ
  destinationAsset : Option String
  destinationAmount : Option ℤ
  runningBalance : ℤ
  deriving DecidableEq

structure StatementPosition where
  asset : String
  openingAmount : ℤ
  credits : ℤ
  debits : ℤ
  closingAmount : ℤ
  deriving DecidableEq

inductive StatementCategoryDimension where
  | counterparty
  | asset
  | payment_type
  deriving DecidableEq

def StatementCategoryDimension.text : StatementCategoryDimension → String
  | counterparty => "counterparty"
  | asset => "asset"
  | payment_type => "payment_type"

structure StatementCategoryTotal where
  dimension : StatementCategoryDimension
  key : String
  asset : String
  count : ℕ
  credits : ℤ
  debits : ℤ
  net : ℤ
  deriving DecidableEq

structure StatementEvidence where
  entryCount : ℕ
  transactionCount : ℕ
  transactionHashes : List String
  firstLedger : Option ℤ
  lastLedger : Option ℤ
  deriving DecidableEq

structure Statement where
  statementId : String
  subject : StatementSubject
  period : StatementPeriod
  lines : List StatementLine
  positions : List StatementPosition
  categories : List StatementCategoryTotal
  evidence : StatementEvidence
  reconciliation : Option ReconciliationResult

structure Totals where
  credits : ℤ
  debits : ℤ
  deriving DecidableEq

/-! ## Entries -/

def kindText : LedgerEntryKind → String
  | .channel_funding => "channel_funding"
  | .channel_top_up => "channel_top_up"
  | .channel_payment => "channel_payment"
  | .channel_conversion => "channel_conversion"
  | .channel_refund => "channel_refund"
  | .escrow_lock => "escrow_lock"
  | .escrow_release => "escrow_release"
  | .escrow_refund => "escrow_refund"
  | .network_fee => "network_fee"

def attributed (entry : LedgerEntry) (subject : StatementSubject) : Bool :=
  match subject.kind with
  | .agent => decide (entry.agent = some subject.id)
  | .owner => decide (entry.owner = some subject.id)

def impact (entry : LedgerEntry) : ℤ :=
  match entry.kind with
  | .channel_funding | .channel_top_up | .escrow_refund => entry.sourceAmount
  | .channel_payment | .channel_conversion | .channel_refund | .escrow_lock | .network_fee =>
      -entry.sourceAmount
  -- the cash left the requester's available position when the escrow locked
  | .escrow_release => 0

def category : LedgerEntryKind → StatementCategory
  | .channel_funding | .channel_top_up => .funding
  | .channel_payment => .payment
  | .channel_conversion => .conversion
  | .channel_refund | .escrow_refund => .refund
  | .escrow_lock | .escrow_release => .escrow
  | .network_fee => .fee

def direction (value : ℤ) : StatementDirection :=
  if value > 0 then .credit else if value < 0 then .debit else .neutral

/-! ## Totals -/

/-- `if (delta > 0n) credits += delta; if (delta < 0n) debits += -delta;` -/
def Totals.add (totals : Totals) (delta : ℤ) : Totals where
  credits := totals.credits + if delta > 0 then delta else 0
  debits := totals.debits + if delta < 0 then -delta else 0

def addPosition (map : List (String × ℤ)) (asset : String) (delta : ℤ) : List (String × ℤ) :=
  upsert Prod.fst (asset, held 0 map asset + delta) map

/-- One payment under one of its three headings -/
structure CategoryItem where
  dimension : StatementCategoryDimension
  key : String
  asset : String
  value : ℤ

/-- The heading of an item: dimension, key and asset, joined with NUL -/
def CategoryItem.id (item : CategoryItem) : String :=
  item.dimension.text ++ "\x00" ++ item.key ++ "\x00" ++ item.asset

/-- A group after an item: the one there is, or a new one under the item's heading. -/
def CategoryItem.addTo (item : CategoryItem) (group : Option StatementCategoryTotal) :
    StatementCategoryTotal :=
  let current := group.getD ⟨item.dimension, item.key, item.asset, 0, 0, 0, 0⟩
  let credits := current.credits + if item.value > 0 then item.value else 0
  let debits := current.debits + if item.value < 0 then -item.value else 0
  { current with
    count := current.count + 1
    credits := credits
    debits := debits
    net := credits - debits }

def addCategory (groups : List (String × StatementCategoryTotal)) (item : CategoryItem) :
    List (String × StatementCategoryTotal) :=
  gatherOne CategoryItem.id CategoryItem.addTo groups item

/-- The three items of an entry -/
def categoryItems (entry : LedgerEntry) : List CategoryItem :=
  [⟨.counterparty, entry.counterparty.getD "uncategorized", entry.sourceAsset, impact entry⟩,
    ⟨.asset, entry.sourceAsset, entry.sourceAsset, impact entry⟩,
    ⟨.payment_type, kindText entry.kind, entry.sourceAsset, impact entry⟩]

/-- `text.padStart(width, "0")` -/
def padStart (width : ℕ) (text : String) : String :=
  String.ofList (List.replicate (width - text.length) '0') ++ text

def statementId (request : StatementRequest) : String :=
  let period := request.period
  ":".intercalate [
    "statement",
    request.subject.kind.text,
    request.subject.id,
    (period.fromLedger.map toString).getD "start",
    (period.throughLedger.map toString).getD "end",
    period.fromTimestamp.getD "start-time",
    period.throughTimestamp.getD "end-time"]

/-! ## Periods -/

structure PeriodTimes where
  fromTime : Option ℤ
  throughTime : Option ℤ
  deriving DecidableEq

section

variable (dateParse : String → Option ℤ)

def timestamp (value : Option String) (label : String) : Except String (Option ℤ) :=
  match value with
  | none => .ok none
  | some text =>
      match dateParse text with
      | some parsed => .ok (some parsed)
      | none => .error (label ++ " must be an ISO-8601 timestamp")

/-- The first check of its ledger bounds that a period fails -/
def StatementPeriod.objection (period : StatementPeriod) : Option String :=
  if period.fromLedger.any fun value => decide (¬ isSafeInteger value ∨ value < 0) then
    some "fromLedger must be a non-negative safe integer"
  else if period.throughLedger.any fun value => decide (¬ isSafeInteger value ∨ value < 0) then
    some "throughLedger must be a non-negative safe integer"
  else if period.fromLedger.any fun first => period.throughLedger.any fun last =>
      decide (first > last) then
    some "fromLedger must not exceed throughLedger"
  else none

def validatePeriod (period : StatementPeriod) : Except String PeriodTimes :=
  match period.objection with
  | some message => .error message
  | none => do
      let fromTime ← timestamp dateParse period.fromTimestamp "fromTimestamp"
      let throughTime ← timestamp dateParse period.throughTimestamp "throughTimestamp"
      if fromTime.any fun first => throughTime.any fun last => decide (first > last) then
        .error "fromTimestamp must not exceed throughTimestamp"
      else .ok ⟨fromTime, throughTime⟩

/-- A time that is not known is neither before nor after another one (`NaN`). -/
def closedBefore (entry : LedgerEntry) (time : ℤ) : Bool :=
  (dateParse entry.ledgerClosedAt).any fun closedAt => decide (closedAt < time)

def closedAfter (entry : LedgerEntry) (time : ℤ) : Bool :=
  (dateParse entry.ledgerClosedAt).any fun closedAt => decide (closedAt > time)

def inPeriod (entry : LedgerEntry) (period : StatementPeriod) (times : PeriodTimes) : Bool :=
  !(period.fromLedger.any (fun first => decide (entry.ledger < first)) ||
    period.throughLedger.any (fun last => decide (entry.ledger > last)) ||
    times.fromTime.any (closedBefore dateParse entry) ||
    times.throughTime.any (closedAfter dateParse entry))

def beforePeriod (entry : LedgerEntry) (period : StatementPeriod) (times : PeriodTimes) : Bool :=
  period.fromLedger.any (fun first => decide (entry.ledger < first)) ||
    times.fromTime.any (closedBefore dateParse entry)

/-! ## Opening positions -/

/-- The body of the loop over supplied positions -/
def readOpening (result : List (String × ℤ)) (position : StatementOpeningPosition) :
    Except String (List (String × ℤ)) :=
  if (held? result position.asset).isSome then
    .error ("duplicate opening position for " ++ position.asset)
  else
    match bigInt position.amount with
    | some amount => .ok (upsert Prod.fst (position.asset, amount) result)
    | none => .error ("opening " ++ position.asset ++ " must be an integer string")

def openingPositions (entries : List LedgerEntry) (request : StatementRequest)
    (times : PeriodTimes) : Except String (List (String × ℤ)) :=
  match request.openingPositions with
  | some values => values.foldlM readOpening []
  | none => .ok ((entries.filter fun entry =>
      attributed entry request.subject && beforePeriod dateParse entry request.period times).foldl
        (fun result entry => addPosition result entry.sourceAsset (impact entry)) [])

/-! ## The statement -/

/-- What the loop over the selected entries has built -/
structure StatementProgress where
  running : List (String × ℤ)
  totals : List (String × Totals)
  categoryGroups : List (String × StatementCategoryTotal)
  lines : List StatementLine

/-- The body of the loop over the selected entries -/
def StatementProgress.take (request : StatementRequest) (progress : StatementProgress)
    (entry : LedgerEntry) : StatementProgress :=
  let delta := impact entry
  let running := addPosition progress.running entry.sourceAsset delta
  { running := running
    totals := upsert Prod.fst
      (entry.sourceAsset, (held ⟨0, 0⟩ progress.totals entry.sourceAsset).add delta) progress.totals
    categoryGroups := (categoryItems entry).foldl addCategory progress.categoryGroups
    lines := progress.lines ++ [{
      lineId := statementId request ++ ":" ++
        padStart 8 (toString (progress.lines.length + 1))
      entryId := entry.entryId
      eventId := entry.eventId
      txHash := entry.txHash
      ledger := entry.ledger
      ledgerClosedAt := entry.ledgerClosedAt
      kind := entry.kind
      category := category entry.kind
      direction := direction delta
      counterparty := entry.counterparty
      memo := entry.memo
      referenceType := entry.referenceType
      referenceId := entry.referenceId
      asset := entry.sourceAsset
      amount := entry.sourceAmount
      signedAmount := delta
      destinationAsset := entry.destinationAsset
      destinationAmount := entry.destinationAmount
      runningBalance := held 0 running entry.sourceAsset }] }

/-- The UTF-16 code units of a text, by which `sort()` compares -/
def utf16 (text : String) : List ℕ :=
  text.toList.flatMap fun c =>
    if c.toNat < 0x10000 then [c.toNat]
    else [0xD800 + (c.toNat - 0x10000) / 0x400, 0xDC00 + (c.toNat - 0x10000) % 0x400]

def sortTexts (texts : List String) : List String :=
  texts.insertionSort fun a b => utf16 a ≤ utf16 b

/-- The position of an asset -/
def statementPosition (opening : List (String × ℤ)) (progress : StatementProgress)
    (asset : String) : StatementPosition where
  asset := asset
  openingAmount := held 0 opening asset
  credits := (held ⟨0, 0⟩ progress.totals asset).credits
  debits := (held ⟨0, 0⟩ progress.totals asset).debits
  closingAmount := (held? progress.running asset).getD (held 0 opening asset)

variable (localeCompare : String → String → Ordering)

/-- The collation of dimension, key and asset, in this order, is not positive. -/
def categoryPrecedes (a b : StatementCategoryTotal) : Prop :=
  localeCompare a.dimension.text b.dimension.text = .lt ∨
    (localeCompare a.dimension.text b.dimension.text = .eq ∧
      (localeCompare a.key b.key = .lt ∨
        (localeCompare a.key b.key = .eq ∧ localeCompare a.asset b.asset ≠ .gt)))

instance : DecidableRel (categoryPrecedes localeCompare) :=
  fun _ _ => inferInstanceAs (Decidable (_ ∨ _))

/-- The statement of the selected entries, from the opening positions -/
def statementOf (request : StatementRequest) (opening : List (String × ℤ))
    (selected : List LedgerEntry) : Statement :=
  let progress := selected.foldl (StatementProgress.take request) ⟨opening, [], [], []⟩
  let assets := (opening.map Prod.fst ++ progress.running.map Prod.fst ++
    progress.totals.map Prod.fst).eraseDups
  let hashes := (selected.map fun entry => entry.txHash).eraseDups
  { statementId := statementId request
    subject := request.subject
    period := request.period
    lines := progress.lines
    positions := (sortTexts assets).map (statementPosition opening progress)
    categories := (progress.categoryGroups.map Prod.snd).insertionSort
      (categoryPrecedes localeCompare)
    evidence := {
      entryCount := selected.length
      transactionCount := hashes.length
      transactionHashes := hashes
      firstLedger := selected.head?.map fun entry => entry.ledger
      lastLedger := selected.getLast?.map fun entry => entry.ledger }
    reconciliation := request.reconciliation }

/-- The entries of the subject in the period, of entries in canonical order -/
def selected (request : StatementRequest) (times : PeriodTimes) (ordered : List LedgerEntry) :
    List LedgerEntry :=
  ordered.filter fun entry =>
    attributed entry request.subject && inPeriod dateParse entry request.period times

def buildStatement (entries : List LedgerEntry) (request : StatementRequest) :
    Except String Statement :=
  if request.subject.id = "" then .error "statement subject id is required"
  else do
    let times ← validatePeriod dateParse request.period
    let ordered := sortBy localeCompare (fun entry => (entry.ledger, entry.entryId)) entries
    let opening ← openingPositions dateParse ordered request times
    return statementOf localeCompare request opening (selected dateParse request times ordered)

end

end StellarAgent.Indexer.Reporting
