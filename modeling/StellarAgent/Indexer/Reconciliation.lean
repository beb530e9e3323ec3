import Mathlib.Data.List.TakeWhile
import StellarAgent.Indexer.Store
import StellarAgent.Lib.Accumulators
import StellarAgent.Lib.Results

set_option autoImplicit false

/-! # Reconciliation with the chain

`positions` and `reconcileLedger` of `packages/indexer/src/ledger.ts`: opening balances, the
postings of a range of ledgers and the balances observed on chain, merged under keys that join an
account and an asset with a NUL. Two runs over adjacent ranges compose to one run over both
(`reconcileLedger_composes`). What a run says about accounts is right as long as no account contains
the character that joins the keys (`reconciliation_iff`).
-/

namespace StellarAgent.Indexer

open Lib

/-! ## Records -/

/-- An absolute balance observed at a ledger boundary. -/
structure BalancePosition where
  account : String
  asset : String
  amount : String
  deriving DecidableEq

structure ReconciliationRequest where
  /-- Inclusive opening ledger. Opening positions are immediately before it. -/
  fromLedger : Option ℤ
  /-- Inclusive ledger boundary. -/
  asOfLedger : ℤ
  openingPositions : Option (List BalancePosition)
  onChainPositions : List BalancePosition
  /-- Restrict reconciliation to these accounts. -/
  accounts : Option (List String)

inductive ReconciliationStatus where
  | matched
  | discrepancy
  | missing_on_chain
  deriving DecidableEq

structure ReconciliationLine where
  account : String
  asset : String
  openingAmount : ℤ
  activityAmount : ℤ
  expectedAmount : ℤ
  onChainAmount : Option ℤ
  difference : Option ℤ
  status : ReconciliationStatus
  deriving DecidableEq

structure ReconciliationResult where
  fromLedger : ℤ
  asOfLedger : ℤ
  reconciled : Bool
  checkedEntries : ℕ
  lines : List ReconciliationLine

/-! ## Keys -/

/-- The account and the asset of a position, joined -/
def positionKey (account asset : String) : String := account ++ "\x00" ++ asset

/-- The parts of a key before and after its first NUL -/
def splitKey (key : String) : String × String :=
  (String.ofList (key.toList.takeWhile (· ≠ '\x00')),
    String.ofList ((key.toList.dropWhile (· ≠ '\x00')).drop 1))

/-- The body of the loop of `positions` -/
def readPosition (label : String) (result : List (String × ℤ)) (value : BalancePosition) :
    Except String (List (String × ℤ)) :=
  let key := positionKey value.account value.asset
  if (held? result key).isSome then
    .error ("duplicate " ++ label ++ " position for " ++ value.account ++ "/" ++ value.asset)
  else
    match bigInt value.amount with
    | some amount => .ok (upsert Prod.fst (key, amount) result)
    | none => .error ("Cannot convert " ++ value.amount ++ " to a BigInt")

def positions (values : List BalancePosition) (label : String) :
    Except String (List (String × ℤ)) :=
  values.foldlM (readPosition label) []

/-! ## Lines -/

/-- Postings that the filter of accounts lets pass -/
def admitted (accounts : Option (List String)) (account : String) : Bool :=
  accounts.all fun accounts => decide (account ∈ accounts)

/-- The entries of the ledgers `fromLedger` to `asOfLedger` -/
def relevant (entries : List LedgerEntry) (fromLedger asOfLedger : ℤ) : List LedgerEntry :=
  entries.filter fun item => decide (fromLedger ≤ item.ledger ∧ item.ledger ≤ asOfLedger)

/-- The postings of the entries that the filter of accounts lets pass -/
def admittedPostings (accounts : Option (List String)) (entries : List LedgerEntry) :
    List LedgerPosting :=
  (entries.flatMap fun item => item.postings).filter fun posting =>
    admitted accounts posting.account

/-- The map `activity` -/
def activity (postings : List LedgerPosting) : List (String × ℤ) :=
  accumulate 0 (fun posting : LedgerPosting => positionKey posting.account posting.asset)
    (fun posting total => total + posting.amount) [] postings

/-- The line of a key -/
def reconciliationLine (opening observed activity : List (String × ℤ)) (key : String) :
    ReconciliationLine :=
  let openingAmount := held 0 opening key
  let activityAmount := held 0 activity key
  let expectedAmount := openingAmount + activityAmount
  let onChainAmount := held? observed key
  let difference := onChainAmount.map fun amount => amount - expectedAmount
  { account := (splitKey key).1
    asset := (splitKey key).2
    openingAmount := openingAmount
    activityAmount := activityAmount
    expectedAmount := expectedAmount
    onChainAmount := onChainAmount
    difference := difference
    status := match difference with
      | none => .missing_on_chain
      | some difference => if difference = 0 then .matched else .discrepancy }

section

variable (localeCompare : String → String → Ordering)

/-- `a.account.localeCompare(b.account) || a.asset.localeCompare(b.asset)` is not positive. -/
def linePrecedes (a b : ReconciliationLine) : Prop :=
  localeCompare a.account b.account = .lt ∨
    (localeCompare a.account b.account = .eq ∧ localeCompare a.asset b.asset ≠ .gt)

instance : DecidableRel (linePrecedes localeCompare) :=
  fun _ _ => inferInstanceAs (Decidable (_ ∨ _))

/-- The map `activity` of a request -/
def ReconciliationRequest.activity (request : ReconciliationRequest)
    (entries : List LedgerEntry) : List (String × ℤ) :=
  Indexer.activity (admittedPostings request.accounts
    (relevant entries (request.fromLedger.getD 0) request.asOfLedger))

/-- The lines for three maps, before they are sorted -/
def linesOf (accounts : Option (List String)) (opening observed activity : List (String × ℤ)) :
    List ReconciliationLine :=
  ((opening.map Prod.fst ++ observed.map Prod.fst ++ activity.map Prod.fst).eraseDups.map
    (reconciliationLine opening observed activity)).filter fun line =>
      admitted accounts line.account

/-- The result for the two maps of positions -/
def reconciliationOf (entries : List LedgerEntry) (request : ReconciliationRequest)
    (opening observed : List (String × ℤ)) : ReconciliationResult :=
  let lines := linesOf request.accounts opening observed (request.activity entries)
  { fromLedger := request.fromLedger.getD 0
    asOfLedger := request.asOfLedger
    reconciled := lines.all fun line => decide (line.status = .matched)
    checkedEntries :=
      (relevant entries (request.fromLedger.getD 0) request.asOfLedger).length
    lines := lines.insertionSort (linePrecedes localeCompare) }

/-- The first check that a request fails -/
def ReconciliationRequest.objection (request : ReconciliationRequest) : Option String :=
  let fromLedger := request.fromLedger.getD 0
  if ¬ isSafeInteger request.asOfLedger ∨ request.asOfLedger < 0 then
    some "asOfLedger must be a non-negative safe integer"
  else if ¬ isSafeInteger fromLedger ∨ fromLedger < 0 then
    some "fromLedger must be a non-negative safe integer"
  else if fromLedger > request.asOfLedger then
    some "fromLedger must not exceed asOfLedger"
  else if request.onChainPositions = [] then
    some "onChainPositions must contain at least one observed balance"
  else if request.accounts = some [] then
    some "accounts must contain at least one account when supplied"
  else none

def reconcileLedger (entries : List LedgerEntry) (request : ReconciliationRequest) :
    Except String ReconciliationResult :=
  match request.objection with
  | some message => .error message
  | none => do
      let opening ← positions (request.openingPositions.getD []) "opening"
      let observed ← positions request.onChainPositions "on-chain"
      return reconciliationOf localeCompare entries request opening observed

end

/-! ## Joined keys -/

/-- An account without the character that joins is what stands before the first NUL. -/
theorem splitKey_positionKey {account : String} (h : '\x00' ∉ account.toList) (asset : String) :
    splitKey (positionKey account asset) = (account, asset) := by
  have hkey : (positionKey account asset).toList =
      account.toList ++ '\x00' :: asset.toList := by
    simp [positionKey]
  have hall : ∀ c ∈ account.toList, (decide (c ≠ '\x00')) = true :=
    fun c hc => decide_eq_true fun heq => h (heq ▸ hc)
  unfold splitKey
  rw [hkey, List.takeWhile_append_of_pos hall, List.dropWhile_append_of_pos hall,
    List.takeWhile_cons_of_neg (by simp), List.dropWhile_cons_of_neg (by simp), List.append_nil]
  simp

theorem notMem_splitKey (key : String) : '\x00' ∉ (splitKey key).1.toList := by
  intro h
  rw [splitKey, String.toList_ofList] at h
  simpa using List.mem_takeWhile_imp h

/-- A joined key is what its parts join to. -/
theorem positionKey_splitKey (account asset : String) :
    positionKey (splitKey (positionKey account asset)).1
      (splitKey (positionKey account asset)).2 = positionKey account asset := by
  have hmem : '\x00' ∈ (positionKey account asset).toList := by simp [positionKey]
  generalize positionKey account asset = key at hmem ⊢
  apply String.ext
  have hrest : key.toList.dropWhile (· ≠ '\x00') =
      '\x00' :: (key.toList.dropWhile (· ≠ '\x00')).drop 1 := by
    cases hdrop : key.toList.dropWhile (· ≠ '\x00') with
    | nil =>
        have hnone := List.dropWhile_eq_nil_iff.mp hdrop _ hmem
        simp at hnone
    | cons c rest =>
        have hc := List.head?_dropWhile_not (fun c : Char => decide (c ≠ '\x00')) key.toList
        rw [hdrop] at hc
        have hc : c = '\x00' := by simpa using hc
        rw [hc, List.drop_succ_cons, List.drop_zero]
  calc (positionKey (splitKey key).1 (splitKey key).2).toList
      = key.toList.takeWhile (· ≠ '\x00') ++ '\x00' ::
          (key.toList.dropWhile (· ≠ '\x00')).drop 1 := by
        simp [positionKey, splitKey]
    _ = key.toList := by rw [← hrest, List.takeWhile_append_dropWhile]

theorem positionKey_inj {account account' asset asset' : String} (h : '\x00' ∉ account.toList)
    (h' : '\x00' ∉ account'.toList)
    (heq : positionKey account asset = positionKey account' asset') :
    account = account' ∧ asset = asset' := by
  have hsplit := congrArg splitKey heq
  rw [splitKey_positionKey h, splitKey_positionKey h'] at hsplit
  exact Prod.mk.inj hsplit

/-! ## Positions -/

/-- What a table of positions holds of the values it was read from -/
def ReadAs (values : List BalancePosition) (table : List (String × ℤ)) : Prop :=
  List.Forall₂ (fun value row => row.1 = positionKey value.account value.asset ∧
    bigInt value.amount = some row.2) values table

theorem positions_from {values : List BalancePosition} {label : String}
    {table result : List (String × ℤ)} (hresult : (result.map Prod.fst).Nodup) :
    values.foldlM (readPosition label) result = .ok table ↔
      ∃ rest, table = result ++ rest ∧ ReadAs values rest ∧ (table.map Prod.fst).Nodup := by
  induction values generalizing result with
  | nil =>
      constructor
      · intro h
        obtain rfl : result = table := Except.ok.inj h
        exact ⟨[], (List.append_nil _).symm, List.Forall₂.nil, hresult⟩
      · rintro ⟨rest, rfl, hread, -⟩
        cases hread
        rw [List.append_nil]
        rfl
  | cons value values ih =>
      rw [List.foldlM_cons, readPosition]
      by_cases hseen : (held? result (positionKey value.account value.asset)).isSome
      · rw [if_pos hseen]
        constructor
        · intro h
          cases h
        · rintro ⟨rest, rfl, hread, hnodup⟩
          obtain ⟨row, rest', ⟨hkey, -⟩, -, rfl⟩ := List.forall₂_cons_left_iff.mp hread
          -- the key would stand twice in the table
          rw [List.map_append, List.map_cons, hkey] at hnodup
          exact absurd (List.mem_cons_self) (List.disjoint_of_nodup_append hnodup
            (held?_isSome.mp hseen))
      · have hnew : positionKey value.account value.asset ∉ result.map Prod.fst :=
          fun hmem => hseen (held?_isSome.mpr hmem)
        rw [if_neg hseen]
        cases hamount : bigInt value.amount with
        | none =>
            constructor
            · intro h
              cases h
            · rintro ⟨rest, rfl, hread, -⟩
              obtain ⟨row, rest', ⟨-, hrow⟩, -, rfl⟩ := List.forall₂_cons_left_iff.mp hread
              rw [hamount] at hrow
              cases hrow
        | some amount =>
            have hupsert : upsert Prod.fst (positionKey value.account value.asset, amount) result =
                result ++ [(positionKey value.account value.asset, amount)] :=
              upsert_of_new fun other hother heq => hnew (List.mem_map.mpr ⟨other, hother, heq⟩)
            have hnodup : ((upsert Prod.fst (positionKey value.account value.asset, amount)
                result).map Prod.fst).Nodup := nodup_upsert hresult
            dsimp only
            rw [ok_bind, ih hnodup, hupsert]
            constructor
            · rintro ⟨rest, rfl, hread, hkeys⟩
              exact ⟨_ :: rest, List.append_assoc _ [_] rest,
                List.Forall₂.cons ⟨rfl, hamount⟩ hread, hkeys⟩
            · rintro ⟨rest, rfl, hread, hkeys⟩
              obtain ⟨row, rest', ⟨hkey, hrow⟩, hrest, rfl⟩ := List.forall₂_cons_left_iff.mp hread
              have hval : row = (positionKey value.account value.asset, amount) :=
                Prod.ext hkey (Option.some.inj (hrow.symm.trans hamount))
              subst hval
              exact ⟨rest', (List.append_assoc _ [_] rest').symm, hrest, hkeys⟩

/-- Positions are accepted if their amounts are integers and their keys distinct. -/
theorem positions_eq_ok {values : List BalancePosition} {label : String}
    {table : List (String × ℤ)} :
    positions values label = .ok table ↔ ReadAs values table ∧ (table.map Prod.fst).Nodup := by
  have hnil : (([] : List (String × ℤ)).map Prod.fst).Nodup := List.nodup_nil
  rw [positions, positions_from hnil]
  simp

theorem ReadAs.keys {values : List BalancePosition} {table : List (String × ℤ)}
    (h : ReadAs values table) :
    table.map Prod.fst = values.map fun value => positionKey value.account value.asset := by
  induction h with
  | nil => rfl
  | cons hrow _ ih => rw [List.map_cons, List.map_cons, hrow.1, ih]


/-! ## Runs -/

/-- The request names a range of ledgers, an observation and no empty filter. -/
structure ReconciliationRequest.Valid (request : ReconciliationRequest) : Prop where
  safe : isSafeInteger request.asOfLedger ∧ isSafeInteger (request.fromLedger.getD 0)
  nonneg : 0 ≤ request.fromLedger.getD 0
  le : request.fromLedger.getD 0 ≤ request.asOfLedger
  observed : request.onChainPositions ≠ []
  accounts : request.accounts ≠ some []

theorem ReconciliationRequest.objection_eq_none {request : ReconciliationRequest} :
    request.objection = none ↔ request.Valid := by
  unfold objection
  dsimp only
  constructor
  · intro h
    split_ifs at h with has hfrom hle hobserved haccounts
    simp only [not_or, not_not, not_lt] at has hfrom hle
    exact ⟨⟨has.1, hfrom.1⟩, hfrom.2, hle, hobserved, haccounts⟩
  · intro h
    have hlast : 0 ≤ request.asOfLedger := h.nonneg.trans h.le
    simp [h.safe, not_lt.mpr h.nonneg, not_lt.mpr h.le, h.observed, h.accounts, not_lt.mpr hlast]

section

variable {localeCompare : String → String → Ordering} {entries : List LedgerEntry}
  {request : ReconciliationRequest} {result : ReconciliationResult}

theorem reconcileLedger_eq_ok :
    reconcileLedger localeCompare entries request = .ok result ↔
      request.Valid ∧ ∃ opening observed,
        positions (request.openingPositions.getD []) "opening" = .ok opening ∧
        positions request.onChainPositions "on-chain" = .ok observed ∧
        result = reconciliationOf localeCompare entries request opening observed := by
  rw [← ReconciliationRequest.objection_eq_none]
  unfold reconcileLedger
  cases hobjection : request.objection with
  | some message => simp
  | none =>
      dsimp only
      rw [bind_eq_ok]
      constructor
      · rintro ⟨opening, hopening, h⟩
        obtain ⟨observed, hobserved, h⟩ := bind_eq_ok.mp h
        exact ⟨rfl, opening, observed, hopening, hobserved, (pure_eq_ok.mp h).symm⟩
      · rintro ⟨-, opening, observed, hopening, hobserved, rfl⟩
        refine ⟨opening, hopening, bind_eq_ok.mpr ⟨observed, hobserved, rfl⟩⟩

end

/-! ## Amounts of a result -/

namespace ReconciliationResult

variable (result : ReconciliationResult)

/-- The line of an account and an asset -/
def lineAt (account asset : String) : Option ReconciliationLine :=
  result.lines.find? fun line => line.account = account ∧ line.asset = asset

/-- The amount expected of an account and an asset, zero where there is no line -/
def expectedAt (account asset : String) : ℤ :=
  ((result.lineAt account asset).map fun line => line.expectedAmount).getD 0

/-- What an account and an asset differ by on chain, if they were observed -/
def differenceAt (account asset : String) : Option ℤ :=
  (result.lineAt account asset).bind fun line => line.difference

/-- The expected amounts as the opening positions of another run -/
def expectedPositions : List BalancePosition :=
  result.lines.map fun line => ⟨line.account, line.asset, toString line.expectedAmount⟩

end ReconciliationResult

/-- The keys of three maps -/
def keysOf (opening observed activity : List (String × ℤ)) : List String :=
  (opening.map Prod.fst ++ observed.map Prod.fst ++ activity.map Prod.fst).eraseDups

/-- All keys of a map are joined from an account and an asset. -/
def Joined (keys : List String) : Prop :=
  ∀ key ∈ keys, ∃ account asset, key = positionKey account asset

theorem ReadAs.joined {values : List BalancePosition} {table : List (String × ℤ)}
    (h : ReadAs values table) : Joined (table.map Prod.fst) := by
  intro key hkey
  rw [h.keys] at hkey
  obtain ⟨value, -, rfl⟩ := List.mem_map.mp hkey
  exact ⟨value.account, value.asset, rfl⟩

theorem activity_joined (postings : List LedgerPosting) :
    Joined ((activity postings).map Prod.fst) := by
  intro key hkey
  rcases mem_keys_accumulate.mp hkey with hkey | hkey
  · cases hkey
  · obtain ⟨posting, -, rfl⟩ := List.mem_map.mp hkey
    exact ⟨posting.account, posting.asset, rfl⟩

theorem Joined.keysOf {opening observed activity : List (String × ℤ)}
    (hopening : Joined (opening.map Prod.fst)) (hobserved : Joined (observed.map Prod.fst))
    (hactivity : Joined (activity.map Prod.fst)) :
    Joined (Indexer.keysOf opening observed activity) := by
  intro key hkey
  rw [Indexer.keysOf, List.mem_eraseDups, List.mem_append, List.mem_append] at hkey
  rcases hkey with (hkey | hkey) | hkey
  · exact hopening key hkey
  · exact hobserved key hkey
  · exact hactivity key hkey

section

variable {accounts : Option (List String)} {opening observed activity : List (String × ℤ)}

theorem mem_linesOf {line : ReconciliationLine} :
    line ∈ linesOf accounts opening observed activity ↔
      ∃ key ∈ keysOf opening observed activity, admitted accounts (splitKey key).1 = true ∧
        reconciliationLine opening observed activity key = line := by
  unfold linesOf
  rw [List.mem_filter, List.mem_map]
  constructor
  · rintro ⟨⟨key, hkey, rfl⟩, hadmitted⟩
    exact ⟨key, hkey, hadmitted, rfl⟩
  · rintro ⟨key, hkey, hadmitted, rfl⟩
    exact ⟨⟨key, hkey, rfl⟩, hadmitted⟩

/-- The account is one that lines can be about: it is admitted, and joins to keys that are split
again as they were joined. -/
def Reported (accounts : Option (List String)) (account : String) : Prop :=
  '\x00' ∉ account.toList ∧ admitted accounts account = true

instance : DecidablePred (Reported accounts) := fun _ => inferInstanceAs (Decidable (_ ∧ _))

/-- The key that a line about an account and an asset comes from -/
theorem key_eq_of_line {account asset key : String} (hjoined : ∃ x y, key = positionKey x y)
    (haccount : (splitKey key).1 = account) (hasset : (splitKey key).2 = asset) :
    key = positionKey account asset := by
  obtain ⟨x, y, rfl⟩ := hjoined
  rw [← haccount, ← hasset, positionKey_splitKey]

theorem find_linesOf (hjoined : Joined (keysOf opening observed activity)) {account asset : String}
    {lines : List ReconciliationLine}
    (hlines : lines.Perm (linesOf accounts opening observed activity)) :
    (lines.find? fun line => line.account = account ∧ line.asset = asset) =
      if Reported accounts account ∧ positionKey account asset ∈ keysOf opening observed activity
      then some (reconciliationLine opening observed activity (positionKey account asset))
      else none := by
  split
  case isTrue h =>
    obtain ⟨⟨hnul, hadmitted⟩, hkey⟩ := h
    have hsplit := splitKey_positionKey hnul asset
    have hmem : reconciliationLine opening observed activity (positionKey account asset) ∈ lines :=
      hlines.mem_iff.mpr (mem_linesOf.mpr ⟨_, hkey, by rw [hsplit]; exact hadmitted, rfl⟩)
    cases hfind : lines.find? fun line => line.account = account ∧ line.asset = asset with
    | none =>
        have hnone := List.find?_eq_none.mp hfind _ hmem
        simp [reconciliationLine, hsplit] at hnone
    | some line =>
        have hline : line.account = account ∧ line.asset = asset := by
          simpa using List.find?_some hfind
        obtain ⟨key, hkey', -, rfl⟩ :=
          mem_linesOf.mp (hlines.mem_iff.mp (List.mem_of_find?_eq_some hfind))
        rw [key_eq_of_line (hjoined key hkey') hline.1 hline.2]
  case isFalse h =>
    refine List.find?_eq_none.mpr fun line hline heq => h ?_
    obtain ⟨key, hkey, hadmitted, rfl⟩ := mem_linesOf.mp (hlines.mem_iff.mp hline)
    obtain ⟨haccount, hasset⟩ : (splitKey key).1 = account ∧ (splitKey key).2 = asset :=
      of_decide_eq_true heq
    rw [← key_eq_of_line (hjoined key hkey) haccount hasset, ← haccount]
    exact ⟨⟨notMem_splitKey key, hadmitted⟩, hkey⟩

theorem held_of_notMem_keysOf {key : String} (h : key ∉ keysOf opening observed activity) :
    held 0 opening key = 0 ∧ held? observed key = none ∧ held 0 activity key = 0 := by
  rw [keysOf, List.mem_eraseDups, List.mem_append, List.mem_append, not_or, not_or] at h
  obtain ⟨⟨hopening, hobserved⟩, hactivity⟩ := h
  refine ⟨held_of_notMem hopening, ?_, held_of_notMem hactivity⟩
  rw [← Option.not_isSome_iff_eq_none, held?_isSome]
  exact hobserved

end

section

variable {localeCompare : String → String → Ordering} {entries : List LedgerEntry}
  {request : ReconciliationRequest} {opening observed : List (String × ℤ)}

theorem lineAt_reconciliationOf
    (hjoined : Joined (keysOf opening observed (request.activity entries)))
    (account asset : String) :
    (reconciliationOf localeCompare entries request opening observed).lineAt account asset =
      if Reported request.accounts account ∧
          positionKey account asset ∈ keysOf opening observed (request.activity entries)
      then some (reconciliationLine opening observed (request.activity entries)
        (positionKey account asset))
      else none :=
  find_linesOf hjoined (List.perm_insertionSort _ _)

/-- What is expected of an account that lines can be about: what the maps hold under its key. -/
theorem expectedAt_reconciliationOf
    (hjoined : Joined (keysOf opening observed (request.activity entries)))
    (account asset : String) :
    (reconciliationOf localeCompare entries request opening observed).expectedAt account asset =
      if Reported request.accounts account then
        held 0 opening (positionKey account asset) +
          held 0 (request.activity entries) (positionKey account asset)
      else 0 := by
  rw [ReconciliationResult.expectedAt, lineAt_reconciliationOf hjoined]
  by_cases hreported : Reported request.accounts account
  · rw [if_pos hreported]
    by_cases hkey : positionKey account asset ∈ keysOf opening observed (request.activity entries)
    · rw [if_pos ⟨hreported, hkey⟩]
      rfl
    · rw [if_neg fun h => hkey h.2, (held_of_notMem_keysOf hkey).1,
        (held_of_notMem_keysOf hkey).2.2]
      rfl
  · rw [if_neg hreported, if_neg fun h => hreported h.1]
    rfl

theorem differenceAt_reconciliationOf
    (hjoined : Joined (keysOf opening observed (request.activity entries)))
    (account asset : String) :
    (reconciliationOf localeCompare entries request opening observed).differenceAt account asset =
      if Reported request.accounts account then
        (held? observed (positionKey account asset)).map fun amount =>
          amount - (held 0 opening (positionKey account asset) +
            held 0 (request.activity entries) (positionKey account asset))
      else none := by
  rw [ReconciliationResult.differenceAt, lineAt_reconciliationOf hjoined]
  by_cases hreported : Reported request.accounts account
  · rw [if_pos hreported]
    by_cases hkey : positionKey account asset ∈ keysOf opening observed (request.activity entries)
    · rw [if_pos ⟨hreported, hkey⟩]
      rfl
    · rw [if_neg fun h => hkey h.2, (held_of_notMem_keysOf hkey).2.1]
      rfl
  · rw [if_neg hreported, if_neg fun h => hreported h.1]
    rfl

end

/-! ## Two runs, one after the other -/

section

variable {localeCompare : String → String → Ordering} {entries : List LedgerEntry}
  {request : ReconciliationRequest} {opening observed : List (String × ℤ)}

/-- The expected amounts of a result as a map -/
def ReconciliationResult.expectedTable (result : ReconciliationResult) : List (String × ℤ) :=
  result.lines.map fun line => (positionKey line.account line.asset, line.expectedAmount)

theorem readAs_expectedPositions (result : ReconciliationResult) :
    ReadAs result.expectedPositions result.expectedTable := by
  unfold ReadAs ReconciliationResult.expectedPositions ReconciliationResult.expectedTable
  rw [List.forall₂_map_left_iff, List.forall₂_map_right_iff, List.forall₂_same]
  exact fun line _ => ⟨rfl, bigInt_toString line.expectedAmount⟩

theorem keys_linesOf {accounts : Option (List String)} {activity : List (String × ℤ)}
    (hjoined : Joined (keysOf opening observed activity)) :
    ((linesOf accounts opening observed activity).map fun line =>
        positionKey line.account line.asset) =
      (keysOf opening observed activity).filter fun key => admitted accounts (splitKey key).1 := by
  unfold linesOf
  rw [List.filter_map, List.map_map]
  refine (List.map_congr_left fun key hkey => ?_).trans (List.map_id _)
  obtain ⟨account, asset, rfl⟩ := hjoined key (List.mem_of_mem_filter hkey)
  exact positionKey_splitKey account asset

theorem nodup_expectedTable
    (hjoined : Joined (keysOf opening observed (request.activity entries))) :
    ((reconciliationOf localeCompare entries request opening observed).expectedTable.map
      Prod.fst).Nodup := by
  have hkeys : ((reconciliationOf localeCompare entries request opening observed).expectedTable.map
      Prod.fst).Perm ((keysOf opening observed (request.activity entries)).filter fun key =>
        admitted request.accounts (splitKey key).1) := by
    rw [← keys_linesOf hjoined, ReconciliationResult.expectedTable, List.map_map]
    exact (List.perm_insertionSort _ _).map _
  exact hkeys.nodup_iff.mpr ((nodup_eraseDups _).filter _)

/-- The map of the expected amounts holds what is expected of each account and asset. -/
theorem held_expectedTable
    (hjoined : Joined (keysOf opening observed (request.activity entries)))
    {account asset : String}
    (hnul : '\x00' ∉ account.toList) :
    held 0 (reconciliationOf localeCompare entries request opening observed).expectedTable
        (positionKey account asset) =
      (reconciliationOf localeCompare entries request opening observed).expectedAt account
        asset := by
  generalize hresult : reconciliationOf localeCompare entries request opening observed = result
  have hnodup : (result.expectedTable.map Prod.fst).Nodup := hresult ▸ nodup_expectedTable hjoined
  rw [ReconciliationResult.expectedAt]
  cases hline : result.lineAt account asset with
  | some line =>
      have hmem := List.mem_of_find?_eq_some hline
      have hat : line.account = account ∧ line.asset = asset := by
        simpa using List.find?_some hline
      refine held_of_mem hnodup (List.mem_map.mpr ⟨line, hmem, ?_⟩)
      rw [hat.1, hat.2]
      rfl
  | none =>
      refine held_of_notMem fun hkey => ?_
      obtain ⟨row, hrow, hkey⟩ := List.mem_map.mp hkey
      obtain ⟨line, hmem, rfl⟩ := List.mem_map.mp hrow
      have hline' := List.find?_eq_none.mp hline line hmem
      have haccount : '\x00' ∉ line.account.toList := by
        rw [← hresult] at hmem
        obtain ⟨key, -, -, rfl⟩ :=
          mem_linesOf.mp ((List.perm_insertionSort _ _).mem_iff.mp hmem)
        exact notMem_splitKey key
      obtain ⟨haccount, hasset⟩ := positionKey_inj haccount hnul hkey
      simp [haccount, hasset] at hline'

/-- What the postings of the entries add up to under a key -/
theorem held_activity (accounts : Option (List String)) (entries : List LedgerEntry)
    (key : String) :
    held 0 (activity (admittedPostings accounts entries)) key =
      (entries.map fun item => sumAt
        (fun posting : LedgerPosting => positionKey posting.account posting.asset)
        (fun posting => posting.amount)
        (item.postings.filter fun posting => admitted accounts posting.account) key).sum := by
  rw [activity, held_accumulate_add, held_nil, zero_add, admittedPostings, List.filter_flatMap,
    sumAt_flatMap]

/-- The activity of two adjacent ranges is that of both together. -/
theorem held_activity_split {fromLedger m asOfLedger : ℤ} (hfrom : fromLedger ≤ m)
    (has : m < asOfLedger) (accounts : Option (List String)) (key : String) :
    held 0 (activity (admittedPostings accounts (relevant entries fromLedger m))) key +
        held 0 (activity (admittedPostings accounts (relevant entries (m + 1) asOfLedger))) key =
      held 0 (activity (admittedPostings accounts (relevant entries fromLedger asOfLedger)))
        key := by
  rw [held_activity, held_activity, held_activity]
  unfold relevant
  rw [sum_map_filter_add]
  · congr 2
    refine List.filter_congr fun item _ => ?_
    rw [← Bool.decide_or, decide_eq_decide]
    omega
  · rintro item - ⟨hfirst, hsecond⟩
    have hfirst := of_decide_eq_true hfirst
    have hsecond := of_decide_eq_true hsecond
    omega

/-- The request for the ledgers up to `m`, with what was observed there -/
def ReconciliationRequest.upTo (request : ReconciliationRequest) (m : ℤ)
    (observed : List BalancePosition) : ReconciliationRequest :=
  { request with asOfLedger := m, onChainPositions := observed }

/-- The request for the ledgers after `m`, opened by what a result expects -/
def ReconciliationRequest.after (request : ReconciliationRequest) (m : ℤ)
    (first : ReconciliationResult) : ReconciliationRequest :=
  { request with fromLedger := some (m + 1), openingPositions := some first.expectedPositions }

/-- Two runs compose: a run over the ledgers up to `m` and one over those after it, opened by what
the first expects, expect what one run over both expects, and find the same differences. -/
def Composes (localeCompare : String → String → Ordering) (entries : List LedgerEntry)
    (request : ReconciliationRequest) : Prop :=
  ∀ (m : ℤ) (earlier : List BalancePosition) (first whole : ReconciliationResult),
    request.fromLedger.getD 0 ≤ m → m < request.asOfLedger →
    reconcileLedger localeCompare entries (request.upTo m earlier) = .ok first →
    reconcileLedger localeCompare entries request = .ok whole →
    ∃ second, reconcileLedger localeCompare entries (request.after m first) = .ok second ∧
      ∀ account asset, second.expectedAt account asset = whole.expectedAt account asset ∧
        second.differenceAt account asset = whole.differenceAt account asset

theorem joined_of_readAs {opened seen : List BalancePosition} (hopening : ReadAs opened opening)
    (hobserved : ReadAs seen observed) :
    Joined (keysOf opening observed (request.activity entries)) :=
  hopening.joined.keysOf hobserved.joined (activity_joined _)

theorem ReconciliationRequest.Valid.after (h : request.Valid) {m : ℤ}
    (hfrom : request.fromLedger.getD 0 ≤ m) (has : m < request.asOfLedger)
    (first : ReconciliationResult) : (request.after m first).Valid := by
  have hsafe := h.safe.1
  have hnonneg := h.nonneg
  unfold isSafeInteger at hsafe
  have hnext : isSafeInteger (m + 1) := by
    unfold isSafeInteger
    omega
  refine ⟨⟨h.safe.1, hnext⟩, ?_, ?_, h.observed, h.accounts⟩
  · show 0 ≤ m + 1
    omega
  · show m + 1 ≤ request.asOfLedger
    omega

theorem reconcileLedger_composes (localeCompare : String → String → Ordering)
    (entries : List LedgerEntry) (request : ReconciliationRequest) :
    Composes localeCompare entries request := by
  intro m earlier first whole hfrom has hfirst hwhole
  obtain ⟨-, opening, seen, hopening, hseen, rfl⟩ := reconcileLedger_eq_ok.mp hfirst
  obtain ⟨hvalid, opening', observed, hopening', hobserved, rfl⟩ := reconcileLedger_eq_ok.mp hwhole
  obtain rfl : opening = opening' := Except.ok.inj (hopening.symm.trans hopening')
  have hreadOpening := (positions_eq_ok.mp hopening).1
  have hreadObserved := (positions_eq_ok.mp hobserved).1
  have hjoinedFirst : Joined (keysOf opening seen ((request.upTo m earlier).activity entries)) :=
    joined_of_readAs hreadOpening (positions_eq_ok.mp hseen).1
  have hjoinedWhole : Joined (keysOf opening observed (request.activity entries)) :=
    joined_of_readAs hreadOpening hreadObserved
  generalize hresult :
    reconciliationOf localeCompare entries (request.upTo m earlier) opening seen = first
  have hnodup : (first.expectedTable.map Prod.fst).Nodup :=
    hresult ▸ nodup_expectedTable hjoinedFirst
  have hheld : ∀ account asset, '\x00' ∉ account.toList →
      held 0 first.expectedTable (positionKey account asset) = first.expectedAt account asset :=
    fun account asset => hresult ▸ held_expectedTable hjoinedFirst
  have hexpected : ∀ account asset, first.expectedAt account asset =
      if Reported request.accounts account then
        held 0 opening (positionKey account asset) +
          held 0 ((request.upTo m earlier).activity entries) (positionKey account asset)
      else 0 :=
    hresult ▸ expectedAt_reconciliationOf hjoinedFirst
  have hreadFirst := readAs_expectedPositions first
  have hjoinedSecond : Joined (keysOf first.expectedTable observed
      ((request.after m first).activity entries)) := joined_of_readAs hreadFirst hreadObserved
  refine ⟨_, reconcileLedger_eq_ok.mpr ⟨hvalid.after hfrom has first, first.expectedTable, observed,
    positions_eq_ok.mpr ⟨hreadFirst, hnodup⟩, hobserved, rfl⟩, fun account asset => ?_⟩
  rw [expectedAt_reconciliationOf hjoinedSecond, expectedAt_reconciliationOf hjoinedWhole,
    differenceAt_reconciliationOf hjoinedSecond, differenceAt_reconciliationOf hjoinedWhole]
  have haccounts : (request.after m first).accounts = request.accounts := rfl
  rw [haccounts]
  by_cases hreported : Reported request.accounts account
  · have hsum : held 0 first.expectedTable (positionKey account asset) +
          held 0 ((request.after m first).activity entries) (positionKey account asset) =
        held 0 opening (positionKey account asset) +
          held 0 (request.activity entries) (positionKey account asset) := by
      rw [hheld account asset hreported.1, hexpected, if_pos hreported, add_assoc]
      exact congrArg _ (held_activity_split hfrom has request.accounts _)
    rw [if_pos hreported, if_pos hreported, if_pos hreported, if_pos hreported, hsum]
    exact ⟨rfl, rfl⟩
  · rw [if_neg hreported, if_neg hreported, if_neg hreported, if_neg hreported]
    exact ⟨rfl, rfl⟩

end

/-! ## What a result says about accounts -/

/-- The amount that a list of positions gives for an account and an asset -/
def amountAt (values : List BalancePosition) (account asset : String) : Option ℤ :=
  (values.find? fun value => value.account = account ∧ value.asset = asset).bind
    fun value => bigInt value.amount

/-- What the postings of the entries to an account add up to in an asset -/
def postedAt (entries : List LedgerEntry) (account asset : String) : ℤ :=
  sumAt (fun posting : LedgerPosting => (posting.account, posting.asset))
    (fun posting => posting.amount) (entries.flatMap fun item => item.postings) (account, asset)

namespace ReconciliationRequest

variable (request : ReconciliationRequest) (entries : List LedgerEntry)

/-- The entries of the range of the request -/
def range : List LedgerEntry :=
  relevant entries (request.fromLedger.getD 0) request.asOfLedger

/-- The account is one the request is about, and has an opening position, an observed one or
activity in the asset. -/
structure Has (account asset : String) : Prop where
  admitted : admitted request.accounts account = true
  present : (∃ value ∈ request.openingPositions.getD [],
      value.account = account ∧ value.asset = asset) ∨
    (∃ value ∈ request.onChainPositions, value.account = account ∧ value.asset = asset) ∨
    ∃ posting ∈ (request.range entries).flatMap fun item => item.postings,
      posting.account = account ∧ posting.asset = asset

/-- Every position was observed, at what it was opened with and the sum of its postings. -/
def Settled : Prop :=
  ∀ account asset, request.Has entries account asset →
    amountAt request.onChainPositions account asset =
      some ((amountAt (request.openingPositions.getD []) account asset).getD 0 +
        postedAt (request.range entries) account asset)

/-- All accounts that the request and the entries name are among `names`. -/
structure Within (names : Set String) : Prop where
  opening : ∀ value ∈ request.openingPositions.getD [], value.account ∈ names
  observed : ∀ value ∈ request.onChainPositions, value.account ∈ names
  posted : ∀ item ∈ entries, ∀ posting ∈ item.postings, posting.account ∈ names

/-- The request says that it is reconciled exactly if its positions are settled. -/
def ReconciledExactly (localeCompare : String → String → Ordering) : Prop :=
  ∀ result, reconcileLedger localeCompare entries request = .ok result →
    (result.reconciled = true ↔ request.Settled entries)

end ReconciliationRequest

section

variable {localeCompare : String → String → Ordering} {entries : List LedgerEntry}
  {request : ReconciliationRequest} {opening observed : List (String × ℤ)} {names : Set String}

theorem ReadAs.held? {values : List BalancePosition} {table : List (String × ℤ)}
    (h : ReadAs values table) {account : String} (hnul : '\x00' ∉ account.toList)
    (hvalues : ∀ value ∈ values, '\x00' ∉ value.account.toList) (asset : String) :
    Lib.held? table (positionKey account asset) = amountAt values account asset := by
  induction h with
  | nil => rfl
  | @cons value row values table hrow _ ih =>
      have htail := ih fun other hother => hvalues other (List.mem_cons_of_mem value hother)
      have hiff : row.1 = positionKey account asset ↔
          value.account = account ∧ value.asset = asset := by
        rw [hrow.1]
        constructor
        · exact fun heq => positionKey_inj (hvalues value List.mem_cons_self) hnul heq
        · rintro ⟨rfl, rfl⟩
          rfl
      unfold Lib.held? lookup amountAt at htail ⊢
      by_cases hkey : row.1 = positionKey account asset
      · rw [List.find?_cons_of_pos (by simpa using hkey),
          List.find?_cons_of_pos (by simpa using hiff.mp hkey)]
        exact hrow.2.symm
      · rw [List.find?_cons_of_neg (by simpa using hkey),
          List.find?_cons_of_neg (by simpa using fun hat => fun heq => hkey (hiff.mpr ⟨hat, heq⟩)),
          htail]

theorem held_activity_eq (hnames : ∀ name ∈ names, '\x00' ∉ name.toList)
    (hwithin : request.Within entries names) {account : String} (hnul : '\x00' ∉ account.toList)
    (hadmitted : admitted request.accounts account = true) (asset : String) :
    held 0 (request.activity entries) (positionKey account asset) =
      postedAt (request.range entries) account asset := by
  have hposted : ∀ posting ∈ (request.range entries).flatMap fun item => item.postings,
      '\x00' ∉ posting.account.toList := by
    intro posting hposting
    obtain ⟨item, hitem, hposting⟩ := List.mem_flatMap.mp hposting
    exact hnames _ (hwithin.posted item (List.mem_of_mem_filter hitem) posting hposting)
  rw [ReconciliationRequest.activity, activity, held_accumulate_add, held_nil, zero_add,
    admittedPostings]
  refine (sumAt_filter_of_ne ?_).trans ?_
  swap
  · refine sumAt_congr fun posting hposting => ?_
    rw [Prod.mk.injEq]
    constructor
    · exact fun heq => positionKey_inj (hposted posting hposting) hnul heq
    · rintro ⟨rfl, rfl⟩
      rfl
  · intro posting hposting hout heq
    obtain ⟨rfl, -⟩ := positionKey_inj (hposted posting hposting) hnul heq
    rw [hadmitted] at hout
    cases hout

/-- The keys of the lines are those of the positions that the request has. -/
theorem mem_keysOf_iff (hnames : ∀ name ∈ names, '\x00' ∉ name.toList)
    (hwithin : request.Within entries names)
    (hopening : ReadAs (request.openingPositions.getD []) opening)
    (hobserved : ReadAs request.onChainPositions observed) {key : String} :
    (key ∈ keysOf opening observed (request.activity entries) ∧
        admitted request.accounts (splitKey key).1 = true) ↔
      ∃ account asset, '\x00' ∉ account.toList ∧ key = positionKey account asset ∧
        request.Has entries account asset := by
  have hposted : ∀ posting ∈ (request.range entries).flatMap fun item => item.postings,
      '\x00' ∉ posting.account.toList := by
    intro posting hposting
    obtain ⟨item, hitem, hposting⟩ := List.mem_flatMap.mp hposting
    exact hnames _ (hwithin.posted item (List.mem_of_mem_filter hitem) posting hposting)
  rw [keysOf, List.mem_eraseDups, List.mem_append, List.mem_append, hopening.keys, hobserved.keys,
    List.mem_map, List.mem_map, ReconciliationRequest.activity, activity, mem_keys_accumulate]
  constructor
  · rintro ⟨((⟨value, hvalue, rfl⟩ | ⟨value, hvalue, rfl⟩) | (h | h)), hadmitted⟩
    · have hnul := hnames _ (hwithin.opening value hvalue)
      rw [splitKey_positionKey hnul] at hadmitted
      exact ⟨_, _, hnul, rfl, hadmitted, Or.inl ⟨value, hvalue, rfl, rfl⟩⟩
    · have hnul := hnames _ (hwithin.observed value hvalue)
      rw [splitKey_positionKey hnul] at hadmitted
      exact ⟨_, _, hnul, rfl, hadmitted, Or.inr (Or.inl ⟨value, hvalue, rfl, rfl⟩)⟩
    · cases h
    · obtain ⟨posting, hposting, rfl⟩ := List.mem_map.mp h
      have hposting := List.mem_of_mem_filter hposting
      have hnul := hposted posting hposting
      rw [splitKey_positionKey hnul] at hadmitted
      exact ⟨_, _, hnul, rfl, hadmitted, Or.inr (Or.inr ⟨posting, hposting, rfl, rfl⟩)⟩
  · rintro ⟨account, asset, hnul, rfl, hadmitted, hpresent⟩
    refine ⟨?_, by rw [splitKey_positionKey hnul]; exact hadmitted⟩
    rcases hpresent with ⟨value, hvalue, rfl, rfl⟩ | ⟨value, hvalue, rfl, rfl⟩ |
      ⟨posting, hposting, rfl, rfl⟩
    · exact Or.inl (Or.inl ⟨value, hvalue, rfl⟩)
    · exact Or.inl (Or.inr ⟨value, hvalue, rfl⟩)
    · exact Or.inr (Or.inr (List.mem_map.mpr
        ⟨posting, List.mem_filter.mpr ⟨hposting, hadmitted⟩, rfl⟩))

theorem status_matched_iff {activity : List (String × ℤ)} {key : String} :
    (reconciliationLine opening observed activity key).status = .matched ↔
      held? observed key = some (held 0 opening key + held 0 activity key) := by
  unfold reconciliationLine
  cases held? observed key with
  | none => simp
  | some amount =>
      simp only [Option.map_some, Option.some.injEq]
      split_ifs with h
      · simp only [true_iff]
        omega
      · simp only [false_iff]
        omega

/-- Among accounts without NUL a result is reconciled exactly if the positions are settled. -/
theorem reconciledExactly (hnames : ∀ name ∈ names, '\x00' ∉ name.toList)
    (hwithin : request.Within entries names) : request.ReconciledExactly entries localeCompare := by
  intro result hresult
  obtain ⟨-, opening, observed, hopening, hobserved, rfl⟩ := reconcileLedger_eq_ok.mp hresult
  have hopening := (positions_eq_ok.mp hopening).1
  have hobserved := (positions_eq_ok.mp hobserved).1
  -- the line of a position is matched exactly if the position is settled
  have hline : ∀ account asset, '\x00' ∉ account.toList → request.Has entries account asset →
      ((reconciliationLine opening observed (request.activity entries)
          (positionKey account asset)).status = .matched ↔
        amountAt request.onChainPositions account asset =
          some ((amountAt (request.openingPositions.getD []) account asset).getD 0 +
            postedAt (request.range entries) account asset)) := by
    intro account asset hnul hhas
    rw [status_matched_iff, hobserved.held? hnul
      (fun value hvalue => hnames _ (hwithin.observed value hvalue)),
      held_activity_eq hnames hwithin hnul hhas.admitted, held, hopening.held? hnul
      (fun value hvalue => hnames _ (hwithin.opening value hvalue))]
  have hall : (reconciliationOf localeCompare entries request opening observed).reconciled = true ↔
      ∀ key, key ∈ keysOf opening observed (request.activity entries) →
        admitted request.accounts (splitKey key).1 = true →
        (reconciliationLine opening observed (request.activity entries) key).status = .matched := by
    show List.all _ _ = true ↔ _
    rw [List.all_eq_true]
    constructor
    · exact fun h key hkey hadmitted =>
        of_decide_eq_true (h _ (mem_linesOf.mpr ⟨key, hkey, hadmitted, rfl⟩))
    · intro h line hline
      obtain ⟨key, hkey, hadmitted, rfl⟩ := mem_linesOf.mp hline
      exact decide_eq_true (h key hkey hadmitted)
  rw [hall]
  constructor
  · intro h account asset hhas
    have hnul : '\x00' ∉ account.toList := by
      rcases hhas.present with ⟨value, hvalue, rfl, -⟩ | ⟨value, hvalue, rfl, -⟩ |
        ⟨posting, hposting, rfl, -⟩
      · exact hnames _ (hwithin.opening value hvalue)
      · exact hnames _ (hwithin.observed value hvalue)
      · obtain ⟨item, hitem, hposting⟩ := List.mem_flatMap.mp hposting
        exact hnames _ (hwithin.posted item (List.mem_of_mem_filter hitem) posting hposting)
    obtain ⟨hkey, hadmitted⟩ := (mem_keysOf_iff hnames hwithin hopening hobserved).mpr
      ⟨account, asset, hnul, rfl, hhas⟩
    exact (hline account asset hnul hhas).mp (h _ hkey hadmitted)
  · intro h key hkey hadmitted
    obtain ⟨account, asset, hnul, rfl, hhas⟩ :=
      (mem_keysOf_iff hnames hwithin hopening hobserved).mp ⟨hkey, hadmitted⟩
    exact (hline account asset hnul hhas).mpr (h account asset hhas)

end

/-! ## Accounts with the character that joins -/

/-- A request for one account, observed with a balance that nothing accounts for -/
def unexplained (account : String) : ReconciliationRequest where
  fromLedger := none
  asOfLedger := 0
  openingPositions := none
  onChainPositions := [⟨account, "native:XLM", "1"⟩]
  accounts := some [account]

section

variable {localeCompare : String → String → Ordering} {account : String}

theorem unexplained_run : reconcileLedger localeCompare [] (unexplained account) =
    .ok (reconciliationOf localeCompare [] (unexplained account) []
      [(positionKey account "native:XLM", 1)]) := by
  have hread : ReadAs (unexplained account).onChainPositions
      [(positionKey account "native:XLM", 1)] :=
    List.Forall₂.cons ⟨rfl, show bigInt "1" = some 1 by decide⟩ List.Forall₂.nil
  have hvalid : (unexplained account).Valid :=
    ⟨⟨show isSafeInteger 0 by decide, show isSafeInteger 0 by decide⟩, le_refl (0 : ℤ),
      le_refl (0 : ℤ), List.cons_ne_nil _ _, by simp [unexplained]⟩
  refine reconcileLedger_eq_ok.mpr ⟨hvalid, [], _, ?_, ?_, rfl⟩
  · exact positions_eq_ok.mpr ⟨List.Forall₂.nil, List.nodup_nil⟩
  · exact positions_eq_ok.mpr ⟨hread, List.nodup_singleton _⟩

theorem unexplained_not_settled : ¬ (unexplained account).Settled [] := by
  intro hsettled
  have hat := hsettled account "native:XLM" ⟨by simp [admitted, unexplained],
    Or.inr (Or.inl ⟨_, List.mem_singleton_self _, rfl, rfl⟩)⟩
  have hseen : amountAt (unexplained account).onChainPositions account "native:XLM" = some 1 := by
    have hone : bigInt "1" = some 1 := by decide
    simp [amountAt, unexplained, hone]
  have hnothing : (amountAt ((unexplained account).openingPositions.getD []) account
      "native:XLM").getD 0 + postedAt ((unexplained account).range []) account "native:XLM" = 0 :=
    rfl
  rw [hseen, hnothing] at hat
  exact one_ne_zero (Option.some.inj hat)

/-- The line of an account with a NUL is about what stands before it: the filter drops it. -/
theorem not_reconciledExactly (h : '\x00' ∈ account.toList) :
    ¬ (unexplained account).ReconciledExactly [] localeCompare := by
  intro hexactly
  have hsplit : (splitKey (positionKey account "native:XLM")).1 ≠ account := by
    intro heq
    have hnul := notMem_splitKey (positionKey account "native:XLM")
    rw [heq] at hnul
    exact hnul h
  refine unexplained_not_settled ((hexactly _ unexplained_run).mp ?_)
  show List.all _ _ = true
  rw [List.all_eq_true]
  intro line hline
  obtain ⟨key, hkey, hadmitted, rfl⟩ := mem_linesOf.mp hline
  rw [keysOf, List.mem_eraseDups] at hkey
  have hkey : key = positionKey account "native:XLM" := by
    simpa [ReconciliationRequest.activity, activity, admittedPostings, relevant] using hkey
  rw [hkey] at hadmitted
  simp [admitted, unexplained, hsplit] at hadmitted

/-- **Reconciliation composes, and says exactly when positions are settled, among the accounts whose
names contain no NUL**, and among no others. -/
theorem reconciliation_iff (localeCompare : String → String → Ordering) (names : Set String) :
    (∀ entries (request : ReconciliationRequest), request.Within entries names →
      Composes localeCompare entries request ∧ request.ReconciledExactly entries localeCompare) ↔
    ∀ name ∈ names, '\x00' ∉ name.toList := by
  constructor
  · intro h name hname hnul
    have hwithin : (unexplained name).Within [] names := by
      refine ⟨?_, ?_, ?_⟩
      · intro value hvalue
        cases hvalue
      · intro value hvalue
        rw [List.mem_singleton.mp hvalue]
        exact hname
      · intro item hitem
        cases hitem
    exact not_reconciledExactly hnul (h [] _ hwithin).2
  · intro hnames entries request hwithin
    exact ⟨reconcileLedger_composes localeCompare entries request,
      reconciledExactly hnames hwithin⟩

/-- An observed balance that no opening and no posting explains passes as reconciled, where the
filter names an account with a NUL. -/
theorem unexplained_balance_reconciled :
    ¬ (unexplained "a\x00b").ReconciledExactly [] compare :=
  not_reconciledExactly (by decide)

end

end StellarAgent.Indexer
