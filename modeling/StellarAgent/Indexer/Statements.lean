import StellarAgent.Indexer.Reporting

set_option autoImplicit false

/-! # What statements add up to

A statement is the opening positions, and the sums of what the selected entries do to each asset.
From this, statements of adjacent ranges of ledgers chain (`statements_chain_iff`), and a closing
position counts each entry once whatever bounds the period mixes (`statement_counts_once`).
-/

namespace StellarAgent.Indexer.Reporting

open Lib

/-! ## Amounts of a statement -/

/-- The dimension and the asset of a total -/
def StatementCategoryTotal.label (total : StatementCategoryTotal) :
    StatementCategoryDimension × String :=
  (total.dimension, total.asset)

namespace Statement

variable (statement : Statement)

def positionAt (asset : String) : Option StatementPosition :=
  statement.positions.find? fun position => position.asset = asset

/-- The amounts of an asset; those of an asset that the statement does not list are zero. -/
def openingOf (asset : String) : ℤ :=
  ((statement.positionAt asset).map fun position => position.openingAmount).getD 0

def creditsOf (asset : String) : ℤ :=
  ((statement.positionAt asset).map fun position => position.credits).getD 0

def debitsOf (asset : String) : ℤ :=
  ((statement.positionAt asset).map fun position => position.debits).getD 0

def closingOf (asset : String) : ℤ :=
  ((statement.positionAt asset).map fun position => position.closingAmount).getD 0

/-- What the totals of one dimension add up to in an asset -/
def categoryCredits (dimension : StatementCategoryDimension) (asset : String) : ℤ :=
  sumAt StatementCategoryTotal.label StatementCategoryTotal.credits statement.categories
    (dimension, asset)

def categoryDebits (dimension : StatementCategoryDimension) (asset : String) : ℤ :=
  sumAt StatementCategoryTotal.label StatementCategoryTotal.debits statement.categories
    (dimension, asset)

end Statement

/-- What an entry adds to the credits of its asset -/
def credit (entry : LedgerEntry) : ℤ := if impact entry > 0 then impact entry else 0

def debit (entry : LedgerEntry) : ℤ := if impact entry < 0 then -impact entry else 0

theorem impact_eq (entry : LedgerEntry) : impact entry = credit entry - debit entry := by
  unfold credit debit
  split_ifs <;> omega

/-- What entries add up to in an asset -/
def impactAt (entries : List LedgerEntry) (asset : String) : ℤ :=
  sumAt (fun entry : LedgerEntry => entry.sourceAsset) impact entries asset

def creditAt (entries : List LedgerEntry) (asset : String) : ℤ :=
  sumAt (fun entry : LedgerEntry => entry.sourceAsset) credit entries asset

def debitAt (entries : List LedgerEntry) (asset : String) : ℤ :=
  sumAt (fun entry : LedgerEntry => entry.sourceAsset) debit entries asset

theorem impactAt_eq (entries : List LedgerEntry) (asset : String) :
    impactAt entries asset = creditAt entries asset - debitAt entries asset := by
  unfold impactAt creditAt debitAt
  induction entries with
  | nil => rfl
  | cons entry entries ih =>
      rw [sumAt_cons, sumAt_cons, sumAt_cons, ih, impact_eq]
      split_ifs <;> ring

/-! ## The loop over the selected entries -/

section

variable {request : StatementRequest} {progress : StatementProgress} {selected : List LedgerEntry}
  {opening : List (String × ℤ)} {asset : String}

theorem foldl_running :
    (selected.foldl (StatementProgress.take request) progress).running =
      accumulate 0 (fun entry : LedgerEntry => entry.sourceAsset)
        (fun entry total => total + impact entry) progress.running selected := by
  induction selected generalizing progress with
  | nil => rfl
  | cons entry selected ih => exact ih

theorem foldl_totals :
    (selected.foldl (StatementProgress.take request) progress).totals =
      accumulate ⟨0, 0⟩ (fun entry : LedgerEntry => entry.sourceAsset)
        (fun entry totals => Totals.add totals (impact entry)) progress.totals selected := by
  induction selected generalizing progress with
  | nil => rfl
  | cons entry selected ih => exact ih

theorem foldl_categoryGroups :
    (selected.foldl (StatementProgress.take request) progress).categoryGroups =
      gather CategoryItem.id CategoryItem.addTo progress.categoryGroups
        (selected.flatMap categoryItems) := by
  induction selected generalizing progress with
  | nil => rfl
  | cons entry selected ih =>
      rw [List.foldl_cons, ih, List.flatMap_cons, gather_append]
      rfl

theorem held_addPosition {map : List (String × ℤ)} {key : String} {delta : ℤ} :
    held 0 (addPosition map key delta) asset =
      if key = asset then held 0 map asset + delta else held 0 map asset := by
  unfold addPosition held held?
  rw [lookup_upsert]
  by_cases h : key = asset
  · rw [if_pos h, if_pos h, h]
    rfl
  · rw [if_neg h, if_neg h]

/-- The last line of an asset shows what the loop holds of it. -/
theorem foldl_lastLine {line : StatementLine} (hlines : progress.lines = [])
    (h : ((selected.foldl (StatementProgress.take request) progress).lines.filter
      fun line => line.asset = asset).getLast? = some line) :
    line.runningBalance =
      held 0 (selected.foldl (StatementProgress.take request) progress).running asset := by
  induction selected using List.reverseRecOn with
  | nil =>
      rw [List.foldl_nil, hlines] at h
      cases h
  | append_singleton selected entry ih =>
      rw [List.foldl_append, List.foldl_cons, List.foldl_nil] at h ⊢
      generalize selected.foldl (StatementProgress.take request) progress = earlier at h ih ⊢
      rw [StatementProgress.take] at h ⊢
      dsimp only at h ⊢
      rw [List.filter_append] at h
      by_cases hasset : entry.sourceAsset = asset
      · rw [List.filter_cons_of_pos (by simpa using hasset), List.filter_nil,
          List.getLast?_concat] at h
        rw [← Option.some.inj h, hasset]
      · rw [List.filter_cons_of_neg (by simpa using hasset), List.filter_nil,
          List.append_nil] at h
        rw [held_addPosition, if_neg hasset]
        exact ih h

end

/-! ## Positions -/

section

variable {localeCompare : String → String → Ordering} {request : StatementRequest}
  {opening : List (String × ℤ)} {selected : List LedgerEntry} {asset : String}

theorem find?_map_positions {f : String → StatementPosition} (hf : ∀ a, (f a).asset = a)
    (assets : List String) :
    ((assets.map f).find? fun position => position.asset = asset) =
      if asset ∈ assets then some (f asset) else none := by
  induction assets with
  | nil => simp
  | cons first assets ih =>
      rw [List.map_cons]
      by_cases h : first = asset
      · rw [List.find?_cons_of_pos (by simpa [hf] using h), if_pos (by simp [h]), h]
      · rw [List.find?_cons_of_neg (by simpa [hf] using h), ih]
        simp [Ne.symm h]

/-- The progress that a statement is made of -/
def progressOf (request : StatementRequest) (opening : List (String × ℤ))
    (selected : List LedgerEntry) : StatementProgress :=
  selected.foldl (StatementProgress.take request) ⟨opening, [], [], []⟩

theorem positionAt_statementOf :
    (statementOf localeCompare request opening selected).positionAt asset =
      if asset ∈ opening.map Prod.fst ∨ asset ∈ selected.map fun entry => entry.sourceAsset then
        some (statementPosition opening (progressOf request opening selected) asset)
      else none := by
  unfold Statement.positionAt statementOf
  dsimp only
  rw [find?_map_positions fun a => rfl]
  refine if_congr ?_ rfl rfl
  rw [sortTexts, List.mem_insertionSort, List.mem_eraseDups, List.mem_append, List.mem_append,
    foldl_running, foldl_totals, mem_keys_accumulate, mem_keys_accumulate]
  simp

/-- What the loop holds of an asset -/
theorem held_running :
    held 0 (progressOf request opening selected).running asset =
      held 0 opening asset + impactAt selected asset := by
  rw [progressOf, foldl_running, held_accumulate_add]
  rfl

theorem totals_credits :
    (held ⟨0, 0⟩ (progressOf request opening selected).totals asset).credits =
      creditAt selected asset := by
  rw [progressOf, foldl_totals]
  exact (held_accumulate_sum (φ := Totals.credits) fun entry totals => rfl).trans (zero_add _)

theorem totals_debits :
    (held ⟨0, 0⟩ (progressOf request opening selected).totals asset).debits =
      debitAt selected asset := by
  rw [progressOf, foldl_totals]
  exact (held_accumulate_sum (φ := Totals.debits) fun entry totals => rfl).trans (zero_add _)

/-- An asset that is not listed has no opening and no entries. -/
theorem amounts_of_unlisted (h : ¬ (asset ∈ opening.map Prod.fst ∨
    asset ∈ selected.map fun entry => entry.sourceAsset)) :
    held 0 opening asset = 0 ∧ impactAt selected asset = 0 ∧ creditAt selected asset = 0 ∧
      debitAt selected asset = 0 := by
  obtain ⟨hopening, hselected⟩ := not_or.mp h
  have hne : ∀ entry ∈ selected, entry.sourceAsset ≠ asset :=
    fun entry hentry heq => hselected (List.mem_map.mpr ⟨entry, hentry, heq⟩)
  exact ⟨held_of_notMem hopening, sumAt_eq_zero hne, sumAt_eq_zero hne, sumAt_eq_zero hne⟩

theorem openingOf_statementOf :
    (statementOf localeCompare request opening selected).openingOf asset =
      held 0 opening asset := by
  rw [Statement.openingOf, positionAt_statementOf]
  split
  · rfl
  case isFalse h => exact (amounts_of_unlisted h).1.symm

theorem creditsOf_statementOf :
    (statementOf localeCompare request opening selected).creditsOf asset =
      creditAt selected asset := by
  rw [Statement.creditsOf, positionAt_statementOf]
  split
  · exact totals_credits
  case isFalse h => exact (amounts_of_unlisted h).2.2.1.symm

theorem debitsOf_statementOf :
    (statementOf localeCompare request opening selected).debitsOf asset =
      debitAt selected asset := by
  rw [Statement.debitsOf, positionAt_statementOf]
  split
  · exact totals_debits
  case isFalse h => exact (amounts_of_unlisted h).2.2.2.symm

/-- **The closing amount** is the opening amount and what the selected entries add up to. -/
theorem closingOf_statementOf :
    (statementOf localeCompare request opening selected).closingOf asset =
      held 0 opening asset + impactAt selected asset := by
  rw [Statement.closingOf, positionAt_statementOf]
  split
  · have hrunning : held 0 (progressOf request opening selected).running asset =
        held 0 opening asset + impactAt selected asset := held_running
    show (held? (progressOf request opening selected).running asset).getD _ = _
    rw [← hrunning]
    cases hheld : held? (progressOf request opening selected).running asset with
    | some amount =>
        show amount = (held? (progressOf request opening selected).running asset).getD 0
        rw [hheld]
        rfl
    | none =>
        have hnone : asset ∉ (progressOf request opening selected).running.map Prod.fst := by
          rw [← held?_isSome, hheld]
          simp
        rw [held_of_notMem hnone]
        refine held_of_notMem fun hopening => hnone ?_
        rw [progressOf, foldl_running]
        exact mem_keys_accumulate.mpr (Or.inl hopening)
  case isFalse h =>
    rw [(amounts_of_unlisted h).1, (amounts_of_unlisted h).2.1]
    rfl

/-- The last line of an asset shows its closing amount. -/
theorem lastLine_statementOf {line : StatementLine}
    (h : ((statementOf localeCompare request opening selected).lines.filter
      fun line => line.asset = asset).getLast? = some line) :
    line.runningBalance =
      (statementOf localeCompare request opening selected).closingOf asset := by
  have hrunning : held 0 (progressOf request opening selected).running asset =
      held 0 opening asset + impactAt selected asset := held_running
  rw [closingOf_statementOf, ← hrunning]
  exact foldl_lastLine rfl h

end

/-! ## Headings -/

/-- The counterparty and the asset of an entry, joined as its heading joins them -/
def counterpartyKey (entry : LedgerEntry) : String :=
  positionKey (entry.counterparty.getD "uncategorized") entry.sourceAsset

/-- The asset that the first entry with the same counterparty heading has given the heading -/
def heading (entries : List LedgerEntry) (entry : LedgerEntry) : String :=
  (firstLike counterpartyKey entries entry).sourceAsset

theorem id_eq (item : CategoryItem) :
    item.id = positionKey item.dimension.text (positionKey item.key item.asset) := by
  simp [CategoryItem.id, positionKey, String.append_assoc]

theorem dimension_text_notMem (dimension : StatementCategoryDimension) :
    '\x00' ∉ dimension.text.toList := by
  cases dimension <;> decide

theorem kindText_notMem (kind : LedgerEntryKind) : '\x00' ∉ (kindText kind).toList := by
  cases kind <;> decide

theorem dimension_text_inj {d d' : StatementCategoryDimension} (h : d.text = d'.text) : d = d' := by
  cases d <;> cases d' <;> first | rfl | exact absurd h (by decide)

/-- Items share a heading if dimension, and key and asset joined, are the same. -/
theorem id_inj {item item' : CategoryItem} :
    item.id = item'.id ↔ item.dimension = item'.dimension ∧
      positionKey item.key item.asset = positionKey item'.key item'.asset := by
  rw [id_eq, id_eq]
  constructor
  · intro h
    obtain ⟨hdimension, hkey⟩ := positionKey_inj (dimension_text_notMem _)
      (dimension_text_notMem _) h
    exact ⟨dimension_text_inj hdimension, hkey⟩
  · rintro ⟨hdimension, hkey⟩
    rw [hdimension, hkey]

/-- An asset joined to itself is read back, whatever characters it has. -/
theorem positionKey_self_inj {a b : String} (h : positionKey a a = positionKey b b) : a = b := by
  have hlists : a.toList ++ '\x00' :: a.toList = b.toList ++ '\x00' :: b.toList := by
    have := congrArg String.toList h
    simpa [positionKey] using this
  have hlength : a.toList.length = b.toList.length := by
    have := congrArg List.length hlists
    simp only [List.length_append, List.length_cons] at this
    omega
  exact String.toList_inj.mp (List.append_inj hlists hlength).1

def CategoryItem.label (item : CategoryItem) : StatementCategoryDimension × String :=
  (item.dimension, item.asset)

/-- The three items of an entry, by dimension -/
def itemOf (dimension : StatementCategoryDimension) (entry : LedgerEntry) : CategoryItem :=
  match dimension with
  | .counterparty =>
      ⟨.counterparty, entry.counterparty.getD "uncategorized", entry.sourceAsset, impact entry⟩
  | .asset => ⟨.asset, entry.sourceAsset, entry.sourceAsset, impact entry⟩
  | .payment_type => ⟨.payment_type, kindText entry.kind, entry.sourceAsset, impact entry⟩

theorem itemOf_dimension (dimension : StatementCategoryDimension) (entry : LedgerEntry) :
    (itemOf dimension entry).dimension = dimension := by
  cases dimension <;> rfl

theorem mem_categoryItems {entry : LedgerEntry} {item : CategoryItem} :
    item ∈ categoryItems entry ↔ ∃ dimension, item = itemOf dimension entry := by
  unfold categoryItems
  constructor
  · intro h
    simp only [List.mem_cons, List.not_mem_nil, or_false] at h
    rcases h with rfl | rfl | rfl
    · exact ⟨.counterparty, rfl⟩
    · exact ⟨.asset, rfl⟩
    · exact ⟨.payment_type, rfl⟩
  · rintro ⟨dimension, rfl⟩
    cases dimension <;> simp [itemOf]

/-- The entries of a list whose item of a dimension an item shares its heading with -/
theorem find?_categoryItems (entries : List LedgerEntry) (dimension : StatementCategoryDimension)
    (entry : LedgerEntry) :
    ((entries.flatMap categoryItems).find? fun item => item.id = (itemOf dimension entry).id) =
      (entries.find? fun other => (itemOf dimension other).id = (itemOf dimension entry).id).map
        (itemOf dimension) := by
  induction entries with
  | nil => rfl
  | cons first entries ih =>
      rw [List.flatMap_cons, List.find?_append, ih]
      have hother : ∀ d, d ≠ dimension → (itemOf d first).id ≠ (itemOf dimension entry).id := by
        intro d hd hid
        have := (id_inj.mp hid).1
        rw [itemOf_dimension, itemOf_dimension] at this
        exact hd this
      have hitems : categoryItems first =
          [itemOf .counterparty first, itemOf .asset first, itemOf .payment_type first] := rfl
      by_cases hid : (itemOf dimension first).id = (itemOf dimension entry).id
      · rw [List.find?_cons_of_pos (by simpa using hid), hitems]
        cases dimension with
        | counterparty => simp [hid]
        | asset => simp [hid, hother .counterparty (by decide)]
        | payment_type =>
            simp [hid, hother .counterparty (by decide), hother .asset (by decide)]
      · rw [List.find?_cons_of_neg (by simpa using hid), hitems]
        have hall : ∀ d, (itemOf d first).id ≠ (itemOf dimension entry).id := by
          intro d
          by_cases hd : d = dimension
          · rw [hd]
            exact hid
          · exact hother d hd
        simp [hall]

/-- The asset that a heading bears: only counterparty headings are shared between assets. -/
def headingOf (dimension : StatementCategoryDimension) (entries : List LedgerEntry)
    (entry : LedgerEntry) : String :=
  match dimension with
  | .counterparty => heading entries entry
  | _ => entry.sourceAsset

theorem firstLike_categoryItems {entries : List LedgerEntry} {entry : LedgerEntry}
    (h : entry ∈ entries) (dimension : StatementCategoryDimension) :
    (firstLike CategoryItem.id (entries.flatMap categoryItems) (itemOf dimension entry)).label =
      (dimension, headingOf dimension entries entry) := by
  have hsome : (entries.find? fun other =>
      (itemOf dimension other).id = (itemOf dimension entry).id).isSome :=
    List.find?_isSome.mpr ⟨entry, h, by simp⟩
  obtain ⟨first, hfirst⟩ := Option.isSome_iff_exists.mp hsome
  have hid : (itemOf dimension first).id = (itemOf dimension entry).id := by
    simpa using List.find?_some hfirst
  rw [firstLike, find?_categoryItems, hfirst]
  refine Prod.ext (itemOf_dimension dimension first) ?_
  show (itemOf dimension first).asset = headingOf dimension entries entry
  have hkey := (id_inj.mp hid).2
  cases dimension with
  | counterparty =>
      have hlike : (entries.find? fun other => counterpartyKey other = counterpartyKey entry) =
          some first := by
        rw [← hfirst]
        congr 1
        funext other
        rw [decide_eq_decide, id_inj]
        exact ⟨fun heq => ⟨rfl, heq⟩, fun heq => heq.2⟩
      show first.sourceAsset = (firstLike counterpartyKey entries entry).sourceAsset
      rw [firstLike, hlike]
      rfl
  | asset => exact positionKey_self_inj hkey
  | payment_type => exact (positionKey_inj (kindText_notMem _) (kindText_notMem _) hkey).2

section

variable {localeCompare : String → String → Ordering} {request : StatementRequest}
  {opening : List (String × ℤ)} {selected : List LedgerEntry} {asset : String}

/-- The totals of a dimension hold what is filed under headings of each asset. -/
theorem categories_sum {measure : StatementCategoryTotal → ℤ} {delta : CategoryItem → ℤ}
    {part : LedgerEntry → ℤ}
    (hmeasure : ∀ item group, measure (CategoryItem.addTo item group) =
      (group.map measure).getD 0 + delta item)
    (hpart : ∀ dimension entry, delta (itemOf dimension entry) = part entry)
    (dimension : StatementCategoryDimension) (asset : String) :
    sumAt StatementCategoryTotal.label measure
        (statementOf localeCompare request opening selected).categories (dimension, asset) =
      sumAt (headingOf dimension selected) part selected asset := by
  have hgroups : (progressOf request opening selected).categoryGroups =
      gather CategoryItem.id CategoryItem.addTo [] (selected.flatMap categoryItems) :=
    foldl_categoryGroups
  have hperm : (statementOf localeCompare request opening selected).categories.Perm
      ((gather CategoryItem.id CategoryItem.addTo [] (selected.flatMap categoryItems)).map
        Prod.snd) := by
    rw [← hgroups]
    exact List.perm_insertionSort _ _
  have hgather : sumAt (fun row : String × StatementCategoryTotal => row.2.label)
      (fun row => measure row.2)
      (gather CategoryItem.id CategoryItem.addTo [] (selected.flatMap categoryItems))
      (dimension, asset) = _ :=
    sumAt_gather (fun item => (rfl : (item.addTo none).label = item.label))
      (fun item group => rfl) hmeasure (selected.flatMap categoryItems) (dimension, asset)
  rw [sumAt_perm hperm, sumAt_map, hgather, sumAt_flatMap, sumAt]
  refine congrArg List.sum (List.map_congr_left fun entry hentry => ?_)
  have hitems : categoryItems entry =
      [itemOf .counterparty entry, itemOf .asset entry, itemOf .payment_type entry] := rfl
  rw [hitems, sumAt_cons, sumAt_cons, sumAt_cons, sumAt_nil, firstLike_categoryItems hentry,
    firstLike_categoryItems hentry, firstLike_categoryItems hentry, hpart, hpart, hpart]
  cases dimension <;> simp

theorem addTo_credits (item : CategoryItem) (group : Option StatementCategoryTotal) :
    (item.addTo group).credits = (group.map StatementCategoryTotal.credits).getD 0 +
      if item.value > 0 then item.value else 0 := by
  cases group <;> rfl

theorem addTo_debits (item : CategoryItem) (group : Option StatementCategoryTotal) :
    (item.addTo group).debits = (group.map StatementCategoryTotal.debits).getD 0 +
      if item.value < 0 then -item.value else 0 := by
  cases group <;> rfl

theorem itemOf_value (dimension : StatementCategoryDimension) (entry : LedgerEntry) :
    (itemOf dimension entry).value = impact entry := by
  cases dimension <;> rfl

theorem categoryCredits_statementOf (dimension : StatementCategoryDimension) (asset : String) :
    (statementOf localeCompare request opening selected).categoryCredits dimension asset =
      sumAt (headingOf dimension selected) credit selected asset :=
  categories_sum addTo_credits (fun d entry => by rw [itemOf_value]; rfl) dimension asset

theorem categoryDebits_statementOf (dimension : StatementCategoryDimension) (asset : String) :
    (statementOf localeCompare request opening selected).categoryDebits dimension asset =
      sumAt (headingOf dimension selected) debit selected asset :=
  categories_sum addTo_debits (fun d entry => by rw [itemOf_value]; rfl) dimension asset

end

/-! ## Consistent statements -/

/-- What a statement says about an asset fits together: closing, running balance, and the totals of
each dimension. -/
structure Statement.Consistent (statement : Statement) : Prop where
  closing : ∀ asset, statement.closingOf asset =
    statement.openingOf asset + statement.creditsOf asset - statement.debitsOf asset
  running : ∀ asset line, (statement.lines.filter fun line => line.asset = asset).getLast? =
    some line → line.runningBalance = statement.closingOf asset
  credits : ∀ dimension asset,
    statement.categoryCredits dimension asset = statement.creditsOf asset
  debits : ∀ dimension asset, statement.categoryDebits dimension asset = statement.debitsOf asset

/-- The entries of other assets that are filed under an asset -/
def misfiledInto (entries : List LedgerEntry) (asset : String) : List LedgerEntry :=
  entries.filter fun entry => heading entries entry = asset ∧ entry.sourceAsset ≠ asset

/-- The entries of an asset that are filed under another one -/
def misfiledFrom (entries : List LedgerEntry) (asset : String) : List LedgerEntry :=
  entries.filter fun entry => entry.sourceAsset = asset ∧ heading entries entry ≠ asset

/-- What is filed under wrong assets balances out, asset by asset. -/
def FilesEvenly (entries : List LedgerEntry) : Prop :=
  ∀ asset, ((misfiledInto entries asset).map credit).sum =
      ((misfiledFrom entries asset).map credit).sum ∧
    ((misfiledInto entries asset).map debit).sum = ((misfiledFrom entries asset).map debit).sum

theorem filed_iff {delta : LedgerEntry → ℤ} {entries : List LedgerEntry} {asset : String} :
    sumAt (heading entries) delta entries asset =
        sumAt (fun entry : LedgerEntry => entry.sourceAsset) delta entries asset ↔
      ((misfiledInto entries asset).map delta).sum =
        ((misfiledFrom entries asset).map delta).sum := by
  have hexchange : sumAt (heading entries) delta entries asset +
        ((misfiledFrom entries asset).map delta).sum =
      sumAt (fun entry : LedgerEntry => entry.sourceAsset) delta entries asset +
        ((misfiledInto entries asset).map delta).sum := sumAt_exchange
  constructor
  · intro h
    omega
  · intro h
    omega

/-- Where no counterparty contains a NUL, nothing is misfiled. -/
theorem heading_eq {entries : List LedgerEntry}
    (h : ∀ entry ∈ entries, '\x00' ∉ (entry.counterparty.getD "uncategorized").toList)
    {entry : LedgerEntry} (hentry : entry ∈ entries) :
    heading entries entry = entry.sourceAsset := by
  have hsome : (entries.find? fun other =>
      counterpartyKey other = counterpartyKey entry).isSome :=
    List.find?_isSome.mpr ⟨entry, hentry, by simp⟩
  obtain ⟨first, hfirst⟩ := Option.isSome_iff_exists.mp hsome
  have hkey : counterpartyKey first = counterpartyKey entry := by
    simpa using List.find?_some hfirst
  rw [heading, firstLike, hfirst]
  exact (positionKey_inj (h first (List.mem_of_find?_eq_some hfirst)) (h entry hentry) hkey).2

theorem filesEvenly_of_notMem {entries : List LedgerEntry}
    (h : ∀ entry ∈ entries, '\x00' ∉ (entry.counterparty.getD "uncategorized").toList) :
    FilesEvenly entries := by
  intro asset
  have hinto : misfiledInto entries asset = [] := by
    refine List.filter_eq_nil_iff.mpr fun entry hentry hmisfiled => ?_
    obtain ⟨hheading, hasset⟩ := of_decide_eq_true hmisfiled
    rw [heading_eq h hentry] at hheading
    exact hasset hheading
  have hfrom : misfiledFrom entries asset = [] := by
    refine List.filter_eq_nil_iff.mpr fun entry hentry hmisfiled => ?_
    obtain ⟨hasset, hheading⟩ := of_decide_eq_true hmisfiled
    rw [heading_eq h hentry] at hheading
    exact hheading hasset
  rw [hinto, hfrom]
  exact ⟨rfl, rfl⟩

section

variable {localeCompare : String → String → Ordering} {request : StatementRequest}
  {opening : List (String × ℤ)} {selected : List LedgerEntry}

/-- A statement is consistent exactly if what its entries misfile balances out. -/
theorem consistent_iff :
    (statementOf localeCompare request opening selected).Consistent ↔ FilesEvenly selected := by
  constructor
  · intro h asset
    have hcredits := h.credits .counterparty asset
    have hdebits := h.debits .counterparty asset
    rw [categoryCredits_statementOf, creditsOf_statementOf] at hcredits
    rw [categoryDebits_statementOf, debitsOf_statementOf] at hdebits
    exact ⟨filed_iff.mp hcredits, filed_iff.mp hdebits⟩
  · intro h
    refine ⟨fun asset => ?_, fun asset line hline => lastLine_statementOf hline, ?_, ?_⟩
    · rw [closingOf_statementOf, openingOf_statementOf, creditsOf_statementOf,
        debitsOf_statementOf, impactAt_eq]
      ring
    · intro dimension asset
      rw [categoryCredits_statementOf, creditsOf_statementOf]
      cases dimension with
      | counterparty => exact filed_iff.mpr (h asset).1
      | asset => rfl
      | payment_type => rfl
    · intro dimension asset
      rw [categoryDebits_statementOf, debitsOf_statementOf]
      cases dimension with
      | counterparty => exact filed_iff.mpr (h asset).2
      | asset => rfl
      | payment_type => rfl

end

/-! ## Derived openings -/

section

variable {dateParse : String → Option ℤ} {localeCompare : String → String → Ordering}
  {entries : List LedgerEntry} {request : StatementRequest} {statement : Statement}

/-- The entries in canonical order -/
def canonical (localeCompare : String → String → Ordering) (entries : List LedgerEntry) :
    List LedgerEntry :=
  sortBy localeCompare (fun entry => (entry.ledger, entry.entryId)) entries

theorem canonical_perm : (canonical localeCompare entries).Perm entries :=
  List.perm_insertionSort _ _

/-- The entries of the subject before the period, that the opening positions are derived from -/
def earlier (dateParse : String → Option ℤ) (request : StatementRequest) (times : PeriodTimes)
    (entries : List LedgerEntry) : List LedgerEntry :=
  entries.filter fun entry =>
    attributed entry request.subject && beforePeriod dateParse entry request.period times

/-- The map of the opening positions that are derived -/
def derivedOpening (dateParse : String → Option ℤ) (request : StatementRequest)
    (times : PeriodTimes) (ordered : List LedgerEntry) : List (String × ℤ) :=
  (earlier dateParse request times ordered).foldl
    (fun result entry => addPosition result entry.sourceAsset (impact entry)) []

theorem held_derivedOpening {times : PeriodTimes} {ordered : List LedgerEntry} (asset : String) :
    held 0 (derivedOpening dateParse request times ordered) asset =
      impactAt (earlier dateParse request times ordered) asset := by
  have hsum : held 0 (accumulate 0 (fun entry : LedgerEntry => entry.sourceAsset)
      (fun entry total => total + impact entry) []
      (earlier dateParse request times ordered)) asset = _ := held_accumulate_add
  exact hsum.trans (zero_add _)

theorem buildStatement_derived (h : request.openingPositions = none) :
    buildStatement dateParse localeCompare entries request = .ok statement ↔
      request.subject.id ≠ "" ∧ ∃ times, validatePeriod dateParse request.period = .ok times ∧
        statement = statementOf localeCompare request
          (derivedOpening dateParse request times (canonical localeCompare entries))
          (selected dateParse request times (canonical localeCompare entries)) := by
  unfold buildStatement
  by_cases hid : request.subject.id = ""
  · rw [if_pos hid]
    simp [hid]
  · rw [if_neg hid, bind_eq_ok]
    constructor
    · rintro ⟨times, htimes, hrest⟩
      obtain ⟨opening, hopening, hstatement⟩ := bind_eq_ok.mp hrest
      rw [openingPositions, h] at hopening
      obtain rfl := Except.ok.inj hopening
      exact ⟨hid, times, htimes, (pure_eq_ok.mp hstatement).symm⟩
    · rintro ⟨-, times, htimes, rfl⟩
      refine ⟨times, htimes, bind_eq_ok.mpr
        ⟨derivedOpening dateParse request times (canonical localeCompare entries), ?_, rfl⟩⟩
      rw [openingPositions, h]
      rfl

/-! ## Adjacent ranges of ledgers -/

/-- The statement of a subject over the ledgers `first` to `last` -/
def ledgerRequest (subject : StatementSubject) (first last : ℤ) : StatementRequest where
  subject := subject
  period := { fromLedger := some first, throughLedger := some last }

/-- The entries of the subject in these ledgers, in canonical order -/
def entriesIn (localeCompare : String → String → Ordering) (entries : List LedgerEntry)
    (subject : StatementSubject) (first last : ℤ) : List LedgerEntry :=
  (canonical localeCompare entries).filter fun entry =>
    attributed entry subject && decide (first ≤ entry.ledger ∧ entry.ledger ≤ last)

/-- Two statements in a row and the one over both ranges: the first closes where the second opens,
and the whole has the opening of the first, the closing of the second and the sums of both. -/
structure Chained (first second whole : Statement) : Prop where
  joint : ∀ asset, first.closingOf asset = second.openingOf asset
  opening : ∀ asset, whole.openingOf asset = first.openingOf asset
  closing : ∀ asset, whole.closingOf asset = second.closingOf asset
  credits : ∀ asset, whole.creditsOf asset = first.creditsOf asset + second.creditsOf asset
  debits : ∀ asset, whole.debitsOf asset = first.debitsOf asset + second.debitsOf asset

variable {subject : StatementSubject} {first last : ℤ}

theorem validatePeriod_ledgers (hfirst : 0 ≤ first) (hle : first ≤ last)
    (hlast : isSafeInteger last) :
    validatePeriod dateParse (ledgerRequest subject first last).period = .ok ⟨none, none⟩ := by
  have hsafe : isSafeInteger first := by
    unfold isSafeInteger at *
    omega
  have hobjection : (ledgerRequest subject first last).period.objection = none := by
    simp only [StatementPeriod.objection, ledgerRequest, Option.any_some, hsafe, hlast]
    have h₁ : ¬ first < 0 := by omega
    have h₂ : ¬ last < 0 := by omega
    have h₃ : ¬ first > last := by omega
    simp [h₁, h₂, h₃]
  rw [validatePeriod, hobjection]
  rfl

variable (dateParse localeCompare entries) in
/-- The statement over a range of ledgers: the sums of the entries before it and in it -/
theorem ledgerStatement (hid : subject.id ≠ "") (hfirst : 0 ≤ first) (hle : first ≤ last)
    (hlast : isSafeInteger last) :
    ∃ opening, buildStatement dateParse localeCompare entries (ledgerRequest subject first last) =
        .ok (statementOf localeCompare (ledgerRequest subject first last) opening
          (entriesIn localeCompare entries subject first last)) ∧
      ∀ asset, held 0 opening asset = impactAt ((canonical localeCompare entries).filter
        fun entry => attributed entry subject && decide (entry.ledger < first)) asset := by
  refine ⟨derivedOpening dateParse (ledgerRequest subject first last) ⟨none, none⟩
    (canonical localeCompare entries), (buildStatement_derived rfl).mpr
      ⟨hid, _, validatePeriod_ledgers hfirst hle hlast, ?_⟩, fun asset => ?_⟩
  · congr 1
    refine List.filter_congr fun entry _ => ?_
    simp only [ledgerRequest, inPeriod, Option.any_some, Option.any_none, Bool.or_false,
      Bool.not_or, ← decide_not, ← Bool.decide_and, not_lt, gt_iff_lt]
  · rw [held_derivedOpening]
    congr 1
    refine List.filter_congr fun entry _ => ?_
    simp [ledgerRequest, beforePeriod]

/-- What adds up over two adjacent ranges of ledgers -/
theorem sumAt_ranges {K : Type} [DecidableEq K] {key : LedgerEntry → K} {delta : LedgerEntry → ℤ}
    {k : K} {p q : LedgerEntry → Prop} [DecidablePred p] [DecidablePred q]
    (hdisjoint : ∀ entry, ¬ (p entry ∧ q entry)) :
    sumAt key delta ((canonical localeCompare entries).filter
          fun entry => attributed entry subject && decide (p entry)) k +
        sumAt key delta ((canonical localeCompare entries).filter
          fun entry => attributed entry subject && decide (q entry)) k =
      sumAt key delta ((canonical localeCompare entries).filter
        fun entry => attributed entry subject && decide (p entry ∨ q entry)) k := by
  rw [sumAt_filter_add]
  · congr 1
    refine List.filter_congr fun entry _ => ?_
    rw [← Bool.and_or_distrib_left, ← Bool.decide_or]
  · rintro entry - ⟨hp, hq⟩
    rw [Bool.and_eq_true, decide_eq_true_eq] at hp hq
    exact hdisjoint entry ⟨hp.2, hq.2⟩

/-- Two adjacent ranges add up to the range over both. -/
theorem sumAt_entriesIn {K : Type} [DecidableEq K] {key : LedgerEntry → K}
    {delta : LedgerEntry → ℤ} {k : K} {a b c : ℤ} (hab : a ≤ b) (hbc : b < c) :
    sumAt key delta (entriesIn localeCompare entries subject a b) k +
        sumAt key delta (entriesIn localeCompare entries subject (b + 1) c) k =
      sumAt key delta (entriesIn localeCompare entries subject a c) k := by
  unfold entriesIn
  rw [sumAt_ranges]
  · congr 1
    refine List.filter_congr fun entry _ => ?_
    congr 1
    rw [decide_eq_decide]
    omega
  · intro entry hboth
    omega

theorem chained_of_openings {opening₁ opening₂ opening₃ : List (String × ℤ)} {a b c : ℤ}
    (hab : a ≤ b) (hbc : b < c)
    (h₁ : ∀ asset, held 0 opening₁ asset = impactAt ((canonical localeCompare entries).filter
      fun entry => attributed entry subject && decide (entry.ledger < a)) asset)
    (h₂ : ∀ asset, held 0 opening₂ asset = impactAt ((canonical localeCompare entries).filter
      fun entry => attributed entry subject && decide (entry.ledger < b + 1)) asset)
    (h₃ : ∀ asset, held 0 opening₃ asset = impactAt ((canonical localeCompare entries).filter
      fun entry => attributed entry subject && decide (entry.ledger < a)) asset) :
    Chained
      (statementOf localeCompare (ledgerRequest subject a b) opening₁
        (entriesIn localeCompare entries subject a b))
      (statementOf localeCompare (ledgerRequest subject (b + 1) c) opening₂
        (entriesIn localeCompare entries subject (b + 1) c))
      (statementOf localeCompare (ledgerRequest subject a c) opening₃
        (entriesIn localeCompare entries subject a c)) := by
  -- what is before the second range is before the first one, or in it
  have hbefore : ∀ asset, held 0 opening₁ asset +
      impactAt (entriesIn localeCompare entries subject a b) asset = held 0 opening₂ asset := by
    intro asset
    rw [h₁, h₂]
    unfold impactAt entriesIn
    rw [sumAt_ranges]
    · congr 1
      refine List.filter_congr fun entry _ => ?_
      congr 1
      rw [decide_eq_decide]
      omega
    · intro entry hboth
      omega
  refine ⟨fun asset => ?_, fun asset => ?_, fun asset => ?_, fun asset => ?_, fun asset => ?_⟩
  · rw [closingOf_statementOf, openingOf_statementOf, hbefore]
  · rw [openingOf_statementOf, openingOf_statementOf, h₁, h₃]
  · rw [closingOf_statementOf, closingOf_statementOf, ← hbefore, h₃, ← h₁, add_assoc]
    exact congrArg _ (sumAt_entriesIn hab hbc).symm
  · rw [creditsOf_statementOf, creditsOf_statementOf, creditsOf_statementOf]
    exact (sumAt_entriesIn hab hbc).symm
  · rw [debitsOf_statementOf, debitsOf_statementOf, debitsOf_statementOf]
    exact (sumAt_entriesIn hab hbc).symm

end

/-- The statements over the ledgers `a` to `b` and `b + 1` to `c` and the one over all of them
exist, chain, and are each consistent. -/
def StatementsChain (dateParse : String → Option ℤ) (localeCompare : String → String → Ordering)
    (entries : List LedgerEntry) (subject : StatementSubject) (a b c : ℤ) : Prop :=
  ∃ first second whole,
    buildStatement dateParse localeCompare entries (ledgerRequest subject a b) = .ok first ∧
    buildStatement dateParse localeCompare entries (ledgerRequest subject (b + 1) c) =
      .ok second ∧
    buildStatement dateParse localeCompare entries (ledgerRequest subject a c) = .ok whole ∧
    Chained first second whole ∧ first.Consistent ∧ second.Consistent ∧ whole.Consistent

/-- **Statements chain**: over adjacent ranges of ledgers the three statements exist and chain, and
each is consistent, exactly if what their entries misfile under counterparties balances out. -/
theorem statements_chain_iff (dateParse : String → Option ℤ)
    (localeCompare : String → String → Ordering) (entries : List LedgerEntry)
    (subject : StatementSubject) (a b c : ℤ) (hid : subject.id ≠ "") (ha : 0 ≤ a) (hab : a ≤ b)
    (hbc : b < c) (hc : isSafeInteger c) :
    StatementsChain dateParse localeCompare entries subject a b c ↔
    FilesEvenly (entriesIn localeCompare entries subject a b) ∧
      FilesEvenly (entriesIn localeCompare entries subject (b + 1) c) ∧
      FilesEvenly (entriesIn localeCompare entries subject a c) := by
  have hb : isSafeInteger b := by
    unfold isSafeInteger at *
    omega
  obtain ⟨opening₁, hfirst, h₁⟩ := ledgerStatement dateParse localeCompare entries hid ha hab hb
  obtain ⟨opening₂, hsecond, h₂⟩ := ledgerStatement dateParse localeCompare entries hid
    (show 0 ≤ b + 1 by omega) (show b + 1 ≤ c by omega) hc
  obtain ⟨opening₃, hwhole, h₃⟩ := ledgerStatement dateParse localeCompare entries hid ha
    (show a ≤ c by omega) hc
  constructor
  · rintro ⟨first, second, whole, hfirst', hsecond', hwhole', -, hconsistent⟩
    obtain rfl := Except.ok.inj (hfirst.symm.trans hfirst')
    obtain rfl := Except.ok.inj (hsecond.symm.trans hsecond')
    obtain rfl := Except.ok.inj (hwhole.symm.trans hwhole')
    exact ⟨consistent_iff.mp hconsistent.1, consistent_iff.mp hconsistent.2.1,
      consistent_iff.mp hconsistent.2.2⟩
  · rintro ⟨hevenly₁, hevenly₂, hevenly₃⟩
    exact ⟨_, _, _, hfirst, hsecond, hwhole, chained_of_openings hab hbc h₁ h₂ h₃,
      consistent_iff.mpr hevenly₁, consistent_iff.mpr hevenly₂, consistent_iff.mpr hevenly₃⟩

/-- A payment of the agent `GAGENT` -/
def samplePayment (entryId counterparty asset : String) (ledger amount : ℤ)
    (ledgerClosedAt : String) : LedgerEntry where
  entryId := entryId
  eventId := none
  txHash := entryId
  ledger := ledger
  ledgerClosedAt := ledgerClosedAt
  kind := .channel_payment
  referenceType := .channel
  referenceId := "1"
  agent := some "GAGENT"
  owner := none
  counterparty := some counterparty
  memo := none
  sourceAsset := asset
  sourceAmount := amount
  destinationAsset := none
  destinationAmount := none
  postings := []
  metadata := .object []

/-- Two payments of one asset to one counterparty -/
def twoPayments : List LedgerEntry :=
  [samplePayment "event:1" "GSHOP" "CUSDC" 1 5 "", samplePayment "event:2" "GSHOP" "CUSDC" 2 7 ""]

theorem statements_chain_two_payments :
    StatementsChain (fun _ => none) compare twoPayments ⟨.agent, "GAGENT"⟩ 1 1 2 := by
  have hevenly : ∀ first last : ℤ,
      FilesEvenly (entriesIn compare twoPayments ⟨.agent, "GAGENT"⟩ first last) := by
    intro first last
    refine filesEvenly_of_notMem fun entry hentry => ?_
    have hmem := canonical_perm.mem_iff.mp (List.mem_of_mem_filter hentry)
    simp only [twoPayments, List.mem_cons, List.not_mem_nil, or_false] at hmem
    rcases hmem with rfl | rfl <;> decide
  exact (statements_chain_iff (fun _ => none) compare twoPayments ⟨.agent, "GAGENT"⟩ 1 1 2
    (by decide) (by decide) (by decide) (by decide) (by decide)).mpr
      ⟨hevenly 1 1, hevenly (1 + 1) 2, hevenly 1 2⟩

/-- Two payments whose counterparty and asset read the same once joined -/
def collidingPayments : List LedgerEntry :=
  [samplePayment "event:1" "x\x00y" "z" 1 5 "", samplePayment "event:2" "x" "y\x00z" 1 7 ""]

/-- They share one heading: what is paid in the one asset is listed under the other. -/
theorem shared_heading :
    ¬ StatementsChain (fun _ => none) compare collidingPayments ⟨.agent, "GAGENT"⟩ 1 1 2 := by
  rintro ⟨first, second, whole, hfirst, -, -, -, hconsistent, -⟩
  have hid : (⟨.agent, "GAGENT"⟩ : StatementSubject).id ≠ "" := by decide
  obtain ⟨opening, hbuilt, -⟩ := ledgerStatement (fun _ => none) compare collidingPayments hid
    zero_le_one (le_refl (1 : ℤ)) (by decide)
  obtain rfl := Except.ok.inj (hbuilt.symm.trans hfirst)
  have hevenly := (consistent_iff.mp hconsistent "z").2
  revert hevenly
  decide +kernel

/-! ## Periods with any bounds -/

/-- An entry is not beyond an upper bound of the period. -/
def withinUpper (dateParse : String → Option ℤ) (entry : LedgerEntry) (period : StatementPeriod)
    (times : PeriodTimes) : Bool :=
  !(period.throughLedger.any (fun last => decide (entry.ledger > last)) ||
    times.throughTime.any (closedAfter dateParse entry))

theorem inPeriod_eq (dateParse : String → Option ℤ) (entry : LedgerEntry)
    (period : StatementPeriod) (times : PeriodTimes) :
    inPeriod dateParse entry period times =
      (!beforePeriod dateParse entry period times && withinUpper dateParse entry period times) := by
  unfold inPeriod beforePeriod withinUpper
  cases period.fromLedger.any fun first => decide (entry.ledger < first) <;>
    cases times.fromTime.any (closedBefore dateParse entry) <;> simp

/-- The entries of the subject that satisfy a condition -/
def attributedWhere (request : StatementRequest) (p : LedgerEntry → Bool)
    (entries : List LedgerEntry) : List LedgerEntry :=
  entries.filter fun entry => attributed entry request.subject && p entry

section

variable {dateParse : String → Option ℤ} {localeCompare : String → String → Ordering}
  {entries : List LedgerEntry} {request : StatementRequest} {times : PeriodTimes}

theorem impactAt_attributedWhere (p : LedgerEntry → Bool) (asset : String) :
    impactAt (attributedWhere request p (canonical localeCompare entries)) asset =
      impactAt (attributedWhere request p entries) asset :=
  sumAt_perm (canonical_perm.filter _)

/-- The closing amount counts the entries before the period and those in it. -/
theorem closingOf_derived (asset : String) :
    (statementOf localeCompare request
        (derivedOpening dateParse request times (canonical localeCompare entries))
        (selected dateParse request times (canonical localeCompare entries))).closingOf asset =
      impactAt (attributedWhere request (fun entry =>
        withinUpper dateParse entry request.period times ||
          beforePeriod dateParse entry request.period times) entries) asset := by
  rw [closingOf_statementOf, held_derivedOpening, ← impactAt_attributedWhere]
  unfold impactAt earlier selected
  rw [sumAt_filter_add]
  · refine congrArg (sumAt _ _ · asset) (List.filter_congr fun entry _ => ?_)
    rw [inPeriod_eq, ← Bool.and_or_distrib_left]
    congr 1
    cases hbefore : beforePeriod dateParse entry request.period times <;> simp [hbefore]
  · rintro entry - ⟨hbefore, hin⟩
    rw [inPeriod_eq] at hin
    simp_all

theorem lines_foldl {progress : StatementProgress} {selected : List LedgerEntry} :
    ((selected.foldl (StatementProgress.take request) progress).lines.map
        fun line => (line.entryId, line.asset, line.signedAmount)) =
      (progress.lines.map fun line => (line.entryId, line.asset, line.signedAmount)) ++
        selected.map fun entry => (entry.entryId, entry.sourceAsset, impact entry) := by
  induction selected generalizing progress with
  | nil => simp
  | cons entry selected ih =>
      rw [List.foldl_cons, ih, StatementProgress.take]
      simp

end

/-- **A statement counts each entry once**: the entries of the subject before the period make the
opening, those in the period are the lines, none is both, and each that no upper bound excludes is
one of them. The closing amount adds those up, and the entries below a lower bound that an upper one
would exclude. -/
theorem statement_counts_once (dateParse : String → Option ℤ)
    (localeCompare : String → String → Ordering) (entries : List LedgerEntry)
    (request : StatementRequest) (statement : Statement) (h : request.openingPositions = none)
    (hstatement : buildStatement dateParse localeCompare entries request = .ok statement) :
    ∃ times, validatePeriod dateParse request.period = .ok times ∧
      (∀ asset, statement.openingOf asset =
        impactAt (attributedWhere request
          (fun entry => beforePeriod dateParse entry request.period times) entries) asset) ∧
      (statement.lines.map fun line => (line.entryId, line.asset, line.signedAmount)).Perm
        ((attributedWhere request
          (fun entry => inPeriod dateParse entry request.period times) entries).map
            fun entry => (entry.entryId, entry.sourceAsset, impact entry)) ∧
      (∀ entry, ¬ (beforePeriod dateParse entry request.period times = true ∧
        inPeriod dateParse entry request.period times = true)) ∧
      (∀ entry, withinUpper dateParse entry request.period times = true →
        (beforePeriod dateParse entry request.period times = true ∨
          inPeriod dateParse entry request.period times = true)) ∧
      ∀ asset, statement.closingOf asset =
        impactAt (attributedWhere request (fun entry =>
          withinUpper dateParse entry request.period times ||
            beforePeriod dateParse entry request.period times) entries) asset := by
  obtain ⟨-, times, htimes, rfl⟩ := (buildStatement_derived h).mp hstatement
  refine ⟨times, htimes, fun asset => ?_, ?_, fun entry => ?_, fun entry hupper => ?_,
    closingOf_derived⟩
  · rw [openingOf_statementOf, held_derivedOpening]
    exact impactAt_attributedWhere _ asset
  · show ((progressOf request _ _).lines.map _).Perm _
    rw [progressOf, lines_foldl]
    exact (canonical_perm.filter _).map _
  · rw [inPeriod_eq]
    cases beforePeriod dateParse entry request.period times <;> simp
  · rw [inPeriod_eq, hupper]
    cases beforePeriod dateParse entry request.period times <;> simp

/-- `Date.parse` of two days -/
def sampleDates (text : String) : Option ℤ :=
  if text = "2026-01-12T00:00:00Z" then some 1768176000000
  else if text = "2026-01-13T00:00:00Z" then some 1768262400000
  else none

/-- A payment in ledger 5, which closes on January 13 -/
def latePayment : List LedgerEntry :=
  [samplePayment "event:1" "GSHOP" "CUSDC" 5 7 "2026-01-13T00:00:00Z"]

/-- From ledger 10 through January 12 -/
def mixedRequest : StatementRequest where
  subject := ⟨.agent, "GAGENT"⟩
  period := { fromLedger := some 10, throughTimestamp := some "2026-01-12T00:00:00Z" }

theorem mixedRequest_built :
    validatePeriod sampleDates mixedRequest.period = .ok ⟨none, some 1768176000000⟩ ∧
      buildStatement sampleDates compare latePayment mixedRequest =
        .ok (statementOf compare mixedRequest
          (derivedOpening sampleDates mixedRequest ⟨none, some 1768176000000⟩
            (canonical compare latePayment))
          (selected sampleDates mixedRequest ⟨none, some 1768176000000⟩
            (canonical compare latePayment))) := by
  have hperiod : validatePeriod sampleDates mixedRequest.period =
      .ok ⟨none, some 1768176000000⟩ := by decide +kernel
  exact ⟨hperiod, (buildStatement_derived rfl).mpr ⟨by decide, _, hperiod, rfl⟩⟩

theorem statement_counts_once_mixed :
    ∃ statement, buildStatement sampleDates compare latePayment mixedRequest = .ok statement ∧
      statement.closingOf "CUSDC" = -7 := by
  refine ⟨_, mixedRequest_built.2, ?_⟩
  obtain ⟨times, htimes, -, -, -, -, hclosing⟩ := statement_counts_once sampleDates compare
    latePayment mixedRequest _ rfl mixedRequest_built.2
  obtain rfl := Except.ok.inj (mixedRequest_built.1.symm.trans htimes)
  rw [hclosing]
  decide +kernel

/-- The payment closed after the upper bound, and still counts in the closing amount, through the
opening one. -/
theorem closing_beyond_upper_bound :
    ¬ ∀ statement times, validatePeriod sampleDates mixedRequest.period = .ok times →
      buildStatement sampleDates compare latePayment mixedRequest = .ok statement →
      ∀ asset, statement.closingOf asset = impactAt (attributedWhere mixedRequest
        (fun entry => withinUpper sampleDates entry mixedRequest.period times) latePayment)
          asset := by
  intro h
  have hclosing := h _ _ mixedRequest_built.1 mixedRequest_built.2 "CUSDC"
  rw [closingOf_derived] at hclosing
  revert hclosing
  decide +kernel

end StellarAgent.Indexer.Reporting
