import StellarAgent.Indexer.Schedules
import StellarAgent.Indexer.Statements
import StellarAgent.Lib.Csv
import StellarAgent.Lib.Lines

set_option autoImplicit false

/-! # Exports of statements

`packages/indexer/src/export.ts`: the CSV rows, in which every cell is quoted and a text that a
spreadsheet would evaluate gets an apostrophe, and the IIF rows, in which tabs and line breaks become
blanks. Both are read back row by row and field by field whatever the texts contain. But the guard
looks for `=`, `+`, `-` and `@` only, and a text that begins with a tab or a carriage return passes
(`statement_exports_iff`).
-/

namespace StellarAgent.Indexer.Reporting

open Lib

/-! ## CSV -/

inductive Newline where
  | lf
  | crlf
  deriving DecidableEq

def Newline.chars : Newline → List Char
  | lf => ['\n']
  | crlf => ['\r', '\n']

/-- What may stand in a cell -/
inductive CellValue where
  | text (value : String)
  | number (value : ℤ)
  | null
  deriving DecidableEq

/-- `value === null ? "" : String(value)` -/
def CellValue.raw : CellValue → String
  | text value => value
  | number value => toString value
  | null => ""

def referenceTypeText : ReferenceType → String
  | .channel => "channel"
  | .job => "job"
  | .transaction => "transaction"

structure VerifiableExportRow where
  schemaVersion : String
  statementId : String
  subjectType : String
  subjectId : String
  lineId : String
  entryId : String
  eventId : Option String
  transactionHash : String
  ledger : ℤ
  ledgerClosedAt : String
  paymentType : String
  category : String
  direction : String
  counterparty : Option String
  memo : Option String
  referenceType : String
  referenceId : String
  asset : String
  amount : ℤ
  signedAmount : ℤ
  destinationAsset : Option String
  destinationAmount : Option ℤ
  runningBalance : ℤ

def optionalText (value : Option String) : CellValue := (value.map CellValue.text).getD .null

def optionalNumber (value : Option ℤ) : CellValue := (value.map CellValue.number).getD .null

/-- A column: its name, and its cell in a row -/
structure CsvColumn where
  name : String
  cell : VerifiableExportRow → CellValue

def CSV_COLUMNS : List CsvColumn := [
  ⟨"schemaVersion", fun row => .text row.schemaVersion⟩,
  ⟨"statementId", fun row => .text row.statementId⟩,
  ⟨"subjectType", fun row => .text row.subjectType⟩,
  ⟨"subjectId", fun row => .text row.subjectId⟩,
  ⟨"lineId", fun row => .text row.lineId⟩,
  ⟨"entryId", fun row => .text row.entryId⟩,
  ⟨"eventId", fun row => optionalText row.eventId⟩,
  ⟨"transactionHash", fun row => .text row.transactionHash⟩,
  ⟨"ledger", fun row => .number row.ledger⟩,
  ⟨"ledgerClosedAt", fun row => .text row.ledgerClosedAt⟩,
  ⟨"paymentType", fun row => .text row.paymentType⟩,
  ⟨"category", fun row => .text row.category⟩,
  ⟨"direction", fun row => .text row.direction⟩,
  ⟨"counterparty", fun row => optionalText row.counterparty⟩,
  ⟨"memo", fun row => optionalText row.memo⟩,
  ⟨"referenceType", fun row => .text row.referenceType⟩,
  ⟨"referenceId", fun row => .text row.referenceId⟩,
  ⟨"asset", fun row => .text row.asset⟩,
  ⟨"amount", fun row => .number row.amount⟩,
  ⟨"signedAmount", fun row => .number row.signedAmount⟩,
  ⟨"destinationAsset", fun row => optionalText row.destinationAsset⟩,
  ⟨"destinationAmount", fun row => optionalNumber row.destinationAmount⟩,
  ⟨"runningBalance", fun row => .number row.runningBalance⟩]

/-- The columns that get the guard -/
def CsvColumn.textual (column : CsvColumn) : Bool :=
  decide (column.name ∉ ["ledger", "amount", "signedAmount", "destinationAmount", "runningBalance"])

/-- A text that starts a formula gets an apostrophe. -/
def textCell (value : String) : String :=
  match value.toList with
  | first :: _ => if first ∈ ['=', '+', '-', '@'] then "'" ++ value else value
  | [] => value

/-- The text of a cell before it is quoted -/
def safeCell (value : CellValue) (textual : Bool) : String :=
  if textual then textCell value.raw else value.raw

def csvCell (value : CellValue) (textual : Bool) : String :=
  String.ofList (quoteChars (safeCell value textual).toList)

def exportRow (statement : Statement) (line : StatementLine) : VerifiableExportRow where
  schemaVersion := "stellaragent.audit.v1"
  statementId := statement.statementId
  subjectType := statement.subject.kind.text
  subjectId := statement.subject.id
  lineId := line.lineId
  entryId := line.entryId
  eventId := line.eventId
  transactionHash := line.txHash
  ledger := line.ledger
  ledgerClosedAt := line.ledgerClosedAt
  paymentType := kindText line.kind
  category := line.category.text
  direction := line.direction.text
  counterparty := line.counterparty
  memo := line.memo
  referenceType := referenceTypeText line.referenceType
  referenceId := line.referenceId
  asset := line.asset
  amount := line.amount
  signedAmount := line.signedAmount
  destinationAsset := line.destinationAsset
  destinationAmount := line.destinationAmount
  runningBalance := line.runningBalance

def csvRow (row : VerifiableExportRow) : String :=
  ",".intercalate (CSV_COLUMNS.map fun column => csvCell (column.cell row) column.textual)

def csvHeader : String :=
  ",".intercalate (CSV_COLUMNS.map fun column => csvCell (.text column.name) true)

/-! ## IIF -/

/-- `/[\t\r\n]/` -/
def isBreak (c : Char) : Bool := c = '\t' || c = '\r' || c = '\n'

/-- `replace(/[\t\r\n]+/g, " ")`; `inRun` where the run has its blank already -/
def blankBreaks (inRun : Bool) : List Char → List Char
  | [] => []
  | c :: rest =>
      if isBreak c then
        if inRun then blankBreaks true rest else ' ' :: blankBreaks true rest
      else c :: blankBreaks false rest

def iifCell (value : String) : String := String.ofList (blankBreaks false value.toList)

def IIF_COLUMNS : List String :=
  ["ROWTYPE", "TRNSTYPE", "DATE", "ACCNT", "AMOUNT", "DOCNUM", "MEMO", "TXHASH", "LEDGER", "LINEID"]

inductive IifRow where
  | TRNS
  | SPL
  | ENDTRNS
  deriving DecidableEq

def IifRow.text : IifRow → String
  | TRNS => "TRNS"
  | SPL => "SPL"
  | ENDTRNS => "ENDTRNS"

section

variable (dateParse : String → Option ℤ)

def iifDate (value : String) : String :=
  match dateParse value with
  | none => "NaN/NaN/NaN"
  | some time =>
      toString (Schedules.getUTCMonth time + 1) ++ "/" ++ toString (Schedules.getUTCDate time) ++
        "/" ++ toString (Schedules.getUTCFullYear time)

def iifAccount (statement : Statement) (line : StatementLine) : String :=
  statement.subject.kind.text ++ ":" ++ statement.subject.id ++ ":" ++ line.asset

def iifOffset (line : StatementLine) : String :=
  "StellarAgent:" ++ line.category.text ++ ":" ++ line.counterparty.getD "uncategorized" ++ ":" ++
    line.asset

/-- The ten values of a data row -/
def iifValues (type : IifRow) (statement : Statement) (line : StatementLine) : List String :=
  match type with
  | .ENDTRNS =>
      [type.text, "GENERAL", iifDate dateParse line.ledgerClosedAt, "", "0", line.referenceId,
        "end transaction", line.txHash, toString line.ledger, line.lineId]
  | _ =>
      [type.text, "GENERAL", iifDate dateParse line.ledgerClosedAt,
        if type = .TRNS then iifAccount statement line else iifOffset line,
        toString (if type = .TRNS then line.signedAmount else -line.signedAmount),
        line.referenceId, line.memo.getD (kindText line.kind ++ " " ++ line.entryId), line.txHash,
        toString line.ledger, line.lineId]

def iifDataRow (type : IifRow) (statement : Statement) (line : StatementLine) : String :=
  "\t".intercalate ((iifValues dateParse type statement line).map iifCell)

def iifHeader : String := "\t".intercalate (IIF_COLUMNS.map ("!" ++ ·))

/-! ## The exports -/

/-- The CSV branch of `streamStatementExport`, collected -/
def csvExport (statement : Statement) (newline : Newline) (includeHeader includeBom : Bool) :
    List Char :=
  (if includeBom then [Char.ofNat 0xFEFF] else []) ++
    (if includeHeader then csvHeader.toList ++ newline.chars else []) ++
    statement.lines.flatMap fun line =>
      (csvRow (exportRow statement line)).toList ++ newline.chars

/-- The IIF branch of `streamStatementExport`, collected -/
def iifExport (statement : Statement) (newline : Newline) : List Char :=
  (iifHeader.toList ++ newline.chars) ++
    statement.lines.flatMap fun line =>
      ((iifDataRow dateParse .TRNS statement line).toList ++ newline.chars) ++
        ((iifDataRow dateParse .SPL statement line).toList ++ newline.chars) ++
        ((iifDataRow dateParse .ENDTRNS statement line).toList ++ newline.chars)

end

/-! ## Reading exports back -/

/-- The records of a CSV file, without the byte order mark -/
def readExport (text : List Char) : Option (List (List (List Char))) :=
  match text with
  | first :: rest => if first = Char.ofNat 0xFEFF then readCsv rest else readCsv text
  | [] => readCsv []

/-- The texts of a line's cells, and those of the header -/
def lineCells (statement : Statement) (line : StatementLine) : List String :=
  CSV_COLUMNS.map fun column => safeCell (column.cell (exportRow statement line)) column.textual

def headerCells : List String := CSV_COLUMNS.map fun column => safeCell (.text column.name) true

/-- No spreadsheet evaluates a text that begins otherwise. -/
def Inert (text : String) : Prop :=
  ∀ c ∈ text.toList.head?, c ∉ ['=', '+', '-', '@', '\t', '\r']

instance (text : String) : Decidable (Inert text) :=
  Option.decidableForallMem _

/-- What a CSV export is read back as -/
structure CsvFaithful (statement : Statement) (newline : Newline)
    (includeHeader includeBom : Bool) : Prop where
  records : readExport (csvExport statement newline includeHeader includeBom) =
    some (((if includeHeader then [headerCells] else []) ++
      statement.lines.map (lineCells statement)).map fun cells => cells.map String.toList)
  width : headerCells.length = 23 ∧
    ∀ line ∈ statement.lines, (lineCells statement line).length = 23
  inertHeader : ∀ cell ∈ headerCells, Inert cell
  inert : ∀ line ∈ statement.lines, ∀ column ∈ CSV_COLUMNS, column.textual = true →
    Inert (safeCell (column.cell (exportRow statement line)) column.textual)

/-- The fields of the lines of an IIF file; a line may end with `CR` and `LF`. -/
def readIif (text : List Char) : List (List (List Char)) :=
  (Lib.linesOf '\n' text).map fun line =>
    (if line.getLast? = some '\r' then line.dropLast else line).splitOn '\t'

/-- The amount of a row: its fifth field -/
def iifAmount (record : List (List Char)) : Option ℤ :=
  record[4]?.bind fun field => bigInt (String.ofList field)

section

variable (dateParse : String → Option ℤ)

/-- The texts of a data row's cells -/
def iifRecord (type : IifRow) (statement : Statement) (line : StatementLine) : List (List Char) :=
  (iifValues dateParse type statement line).map fun value => (iifCell value).toList

/-- A statement that the indexer has built -/
def Statement.Built (statement : Statement) : Prop :=
  ∃ localeCompare entries request,
    buildStatement dateParse localeCompare entries request = .ok statement

/-- What an IIF export is read back as -/
structure IifFaithful (statement : Statement) (newline : Newline) : Prop where
  records : readIif (iifExport dateParse statement newline) =
    (IIF_COLUMNS.map fun column => ("!" ++ column).toList) ::
      statement.lines.flatMap fun line =>
        [iifRecord dateParse .TRNS statement line, iifRecord dateParse .SPL statement line,
          iifRecord dateParse .ENDTRNS statement line]
  width : ∀ record ∈ readIif (iifExport dateParse statement newline), record.length = 10
  balanced : ∀ line ∈ statement.lines, ∃ amount,
    iifAmount (iifRecord dateParse .TRNS statement line) = some amount ∧
      iifAmount (iifRecord dateParse .SPL statement line) = some (-amount)
  totals : statement.Built dateParse → ∀ asset,
    sumAt (fun line : StatementLine => line.asset)
        (fun line => (iifAmount (iifRecord dateParse .TRNS statement line)).getD 0)
        statement.lines asset =
      statement.closingOf asset - statement.openingOf asset

end

/-! ## The guard -/

theorem textCell_cons (first : Char) (rest : List Char) :
    textCell (String.ofList (first :: rest)) =
      if first ∈ ['=', '+', '-', '@'] then "'" ++ String.ofList (first :: rest)
      else String.ofList (first :: rest) := by
  rw [textCell, String.toList_ofList]

/-- **The guard** makes a text inert unless it begins with a tab or a carriage return. -/
theorem inert_textCell (value : String) :
    Inert (textCell value) ↔ ∀ c ∈ value.toList.head?, c ≠ '\t' ∧ c ≠ '\r' := by
  obtain ⟨chars, rfl⟩ : ∃ chars, value = String.ofList chars :=
    ⟨value.toList, String.ofList_toList.symm⟩
  cases chars with
  | nil =>
      have hempty : Inert (textCell (String.ofList [])) := by decide
      exact iff_of_true hempty (by simp)
  | cons first rest =>
      rw [textCell_cons]
      by_cases hguarded : first ∈ ['=', '+', '-', '@']
      · have hinert : Inert ("'" ++ String.ofList (first :: rest)) := by
          simp [Inert]
        rw [if_pos hguarded]
        refine iff_of_true hinert ?_
        simp only [List.mem_cons, List.not_mem_nil, or_false] at hguarded
        rcases hguarded with rfl | rfl | rfl | rfl <;> simp
      · rw [if_neg hguarded]
        simp only [List.mem_cons, List.not_mem_nil, or_false, not_or] at hguarded
        simp [Inert, hguarded]

/-! ## The CSV export -/

theorem csvRow_toList (row : VerifiableExportRow) :
    (csvRow row).toList = recordText ((CSV_COLUMNS.map fun column =>
      safeCell (column.cell row) column.textual).map String.toList) := by
  rw [csvRow, String.toList_intercalate, recordText, List.map_map, List.map_map, List.map_map]
  simp [csvCell, Function.comp_def]

theorem csvHeader_toList : csvHeader.toList = recordText (headerCells.map String.toList) := by
  rw [csvHeader, String.toList_intercalate, recordText, headerCells, List.map_map, List.map_map,
    List.map_map]
  simp [csvCell, Function.comp_def]

theorem isNewline_chars (newline : Newline) : IsNewline newline.chars := by
  cases newline with
  | lf => exact Or.inl rfl
  | crlf => exact Or.inr rfl

theorem lineCells_length (statement : Statement) (line : StatementLine) :
    (lineCells statement line).length = 23 := by
  rw [lineCells, List.length_map]
  rfl

theorem headerCells_length : headerCells.length = 23 := by
  rw [headerCells, List.length_map]
  rfl

theorem csvExport_eq (statement : Statement) (newline : Newline) (includeHeader includeBom : Bool) :
    csvExport statement newline includeHeader includeBom =
      (if includeBom then [Char.ofNat 0xFEFF] else []) ++ fileText newline.chars
        (((if includeHeader then [headerCells] else []) ++
          statement.lines.map (lineCells statement)).map fun cells => cells.map String.toList) := by
  rw [csvExport, fileText, List.map_append, List.flatMap_append, List.append_assoc, List.map_map]
  congr 2
  · cases includeHeader with
    | true => simp [csvHeader_toList]
    | false => rfl
  · rw [List.flatMap_map]
    refine congrArg (List.flatMap · statement.lines) (funext fun line => ?_)
    rw [csvRow_toList]
    rfl

/-- A file of records does not begin with a byte order mark. -/
theorem fileText_head (newline : Newline) {records : List (List (List Char))}
    (h : ∀ record ∈ records, record ≠ []) :
    ∀ c ∈ (fileText newline.chars records).head?, c ≠ Char.ofNat 0xFEFF := by
  cases records with
  | nil => simp [fileText]
  | cons record records =>
      cases record with
      | nil => exact absurd rfl (h [] List.mem_cons_self)
      | cons field fields =>
          have hhead : (fileText newline.chars ((field :: fields) :: records)).head? =
              some '"' := by
            cases fields <;> simp [fileText, recordText, List.intercalate, quoteChars]
          rw [hhead]
          intro c hc
          obtain rfl := Option.some.inj hc
          decide

theorem readExport_csvExport (statement : Statement) (newline : Newline)
    (includeHeader includeBom : Bool) :
    readExport (csvExport statement newline includeHeader includeBom) =
      some (((if includeHeader then [headerCells] else []) ++
        statement.lines.map (lineCells statement)).map fun cells => cells.map String.toList) := by
  rw [csvExport_eq]
  generalize hrecords : (((if includeHeader then [headerCells] else []) ++
    statement.lines.map (lineCells statement)).map fun cells => cells.map String.toList) = records
  have hne : ∀ record ∈ records, record ≠ [] := by
    intro record hrecord hempty
    rw [← hrecords] at hrecord
    obtain ⟨cells, hcells, rfl⟩ := List.mem_map.mp hrecord
    have hlength : cells.length = 23 := by
      rcases List.mem_append.mp hcells with hheader | hline
      · cases includeHeader with
        | true => rw [List.mem_singleton.mp hheader, headerCells_length]
        | false => cases hheader
      · obtain ⟨line, -, rfl⟩ := List.mem_map.mp hline
        exact lineCells_length statement line
    rw [List.map_eq_nil_iff.mp hempty] at hlength
    cases hlength
  have hread := readCsv_fileText (isNewline_chars newline) hne
  cases includeBom with
  | true =>
      show readExport (Char.ofNat 0xFEFF :: fileText newline.chars records) = _
      rw [readExport, if_pos rfl, hread]
  | false =>
      show readExport (fileText newline.chars records) = _
      have hhead := fileText_head newline hne
      cases htext : fileText newline.chars records with
      | nil =>
          rw [htext] at hread
          exact hread
      | cons first rest =>
          rw [htext] at hhead hread
          rw [readExport, if_neg (hhead first rfl), hread]

/-- **The CSV export** is read back cell by cell, and inert up to leading tabs and carriage
returns. -/
theorem csvFaithful_iff (statement : Statement) (newline : Newline)
    (includeHeader includeBom : Bool) :
    CsvFaithful statement newline includeHeader includeBom ↔
      ∀ line ∈ statement.lines, ∀ column ∈ CSV_COLUMNS, column.textual = true →
        ∀ c ∈ (column.cell (exportRow statement line)).raw.toList.head?, c ≠ '\t' ∧ c ≠ '\r' := by
  have hguard : ∀ line : StatementLine, ∀ column : CsvColumn, column.textual = true →
      (Inert (safeCell (column.cell (exportRow statement line)) column.textual) ↔
        ∀ c ∈ (column.cell (exportRow statement line)).raw.toList.head?, c ≠ '\t' ∧ c ≠ '\r') := by
    intro line column htextual
    rw [safeCell, if_pos htextual, inert_textCell]
  constructor
  · intro h line hline column hcolumn htextual
    exact (hguard line column htextual).mp (h.inert line hline column hcolumn htextual)
  · intro h
    have hheader : ∀ cell ∈ headerCells, Inert cell := by decide
    exact ⟨readExport_csvExport statement newline includeHeader includeBom,
      ⟨headerCells_length, fun line _ => lineCells_length statement line⟩, hheader,
      fun line hline column hcolumn htextual =>
        (hguard line column htextual).mpr (h line hline column hcolumn htextual)⟩

/-! ## The IIF export -/

theorem blankBreaks_noBreak (text : List Char) :
    ∀ inRun, ∀ c ∈ blankBreaks inRun text, isBreak c = false := by
  induction text with
  | nil => simp [blankBreaks]
  | cons first rest ih =>
      intro inRun c hc
      rw [blankBreaks] at hc
      by_cases hfirst : isBreak first = true
      · rw [if_pos hfirst] at hc
        cases inRun with
        | true => exact ih true c hc
        | false =>
            rcases List.mem_cons.mp hc with rfl | hrest
            · decide
            · exact ih true c hrest
      · rw [if_neg hfirst] at hc
        rcases List.mem_cons.mp hc with rfl | hrest
        · exact Bool.eq_false_iff.mpr hfirst
        · exact ih false c hrest

/-- A text without tabs and line breaks stays as it is. -/
theorem blankBreaks_eq_self {text : List Char} (h : ∀ c ∈ text, isBreak c = false) :
    blankBreaks false text = text := by
  induction text with
  | nil => rfl
  | cons first rest ih =>
      rw [blankBreaks, if_neg (by rw [h first List.mem_cons_self]; decide),
        ih fun c hc => h c (List.mem_cons_of_mem first hc)]

theorem iifCell_noBreak (value : String) : ∀ c ∈ (iifCell value).toList, isBreak c = false := by
  rw [iifCell, String.toList_ofList]
  exact blankBreaks_noBreak value.toList false

theorem toString_noBreak (n : ℤ) : ∀ c ∈ (toString n).toList, isBreak c = false := by
  have hdigits : ∀ m : ℕ, ∀ c ∈ Nat.toDigits 10 m, isBreak c = false := by
    intro m c hc
    have hdigit : c.isDigit = true := Nat.isDigit_of_mem_toDigits (by omega) (by omega) hc
    by_contra hbreak
    simp only [isBreak, Bool.or_eq_false_iff, decide_eq_false_iff_not, not_and_or, not_not]
      at hbreak
    rcases hbreak with (rfl | rfl) | rfl <;> exact absurd hdigit (by decide)
  cases n with
  | ofNat m =>
      intro c hc
      have hchars : (toString (Int.ofNat m)).toList = Nat.toDigits 10 m := by
        show (toString m).toList = _
        simp
      exact hdigits m c (hchars ▸ hc)
  | negSucc m =>
      intro c hc
      have hchars : (toString (Int.negSucc m)).toList = '-' :: Nat.toDigits 10 (m + 1) := by
        show ("-" ++ toString (m + 1)).toList = _
        simp
      rw [hchars] at hc
      rcases List.mem_cons.mp hc with rfl | hc
      · decide
      · exact hdigits (m + 1) c hc

theorem iifCell_toString (n : ℤ) : iifCell (toString n) = toString n := by
  rw [iifCell, blankBreaks_eq_self (toString_noBreak n), String.ofList_toList]

/-- **Rows are read back**, if their fields contain no tabs and no line breaks. -/
theorem readIif_rows (newline : Newline) {records : List (List (List Char))}
    (h : ∀ record ∈ records, record ≠ [] ∧ ∀ field ∈ record, ∀ c ∈ field, isBreak c = false) :
    readIif (records.flatMap fun record => ['\t'].intercalate record ++ newline.chars) =
      records := by
  obtain ⟨cr, hchars, hcr⟩ : ∃ cr, newline.chars = cr ++ ['\n'] ∧ (cr = [] ∨ cr = ['\r']) := by
    cases newline with
    | lf => exact ⟨[], rfl, Or.inl rfl⟩
    | crlf => exact ⟨['\r'], rfl, Or.inr rfl⟩
  -- a row has tabs, and no other breaks
  have hrow : ∀ record ∈ records, ∀ c ∈ ['\t'].intercalate record, c ≠ '\n' ∧ c ≠ '\r' := by
    intro record hrecord c hc
    rcases mem_intercalate_sep hc with rfl | ⟨field, hfield, hc⟩
    · decide
    · have hbreak := (h record hrecord).2 field hfield c hc
      constructor <;> rintro rfl <;> exact absurd hbreak (by decide)
  have htext : (records.flatMap fun record => ['\t'].intercalate record ++ newline.chars) =
      textOf '\n' (records.map fun record => ['\t'].intercalate record ++ cr) := by
    simp [textOf, List.flatMap_map, hchars]
  have hlines : ∀ line ∈ records.map (fun record => ['\t'].intercalate record ++ cr),
      '\n' ∉ line := by
    intro line hline
    obtain ⟨record, hrecord, rfl⟩ := List.mem_map.mp hline
    intro hmem
    rcases List.mem_append.mp hmem with hmem | hmem
    · exact (hrow record hrecord '\n' hmem).1 rfl
    · rcases hcr with rfl | rfl <;> exact absurd hmem (by decide)
  rw [readIif, htext, linesOf_text hlines, List.map_map]
  refine (List.map_congr_left fun record hrecord => ?_).trans (List.map_id records)
  have hdrop : (if (['\t'].intercalate record ++ cr).getLast? = some '\r' then
      (['\t'].intercalate record ++ cr).dropLast else ['\t'].intercalate record ++ cr) =
      ['\t'].intercalate record := by
    rcases hcr with rfl | rfl
    · rw [List.append_nil, if_neg]
      intro hlast
      exact (hrow record hrecord '\r' (List.mem_of_getLast? hlast)).2 rfl
    · rw [if_pos List.getLast?_concat, List.dropLast_concat]
  show List.splitOn '\t' _ = record
  rw [hdrop]
  refine List.splitOn_intercalate '\t' (fun field hfield htab => ?_) (h record hrecord).1
  exact absurd ((h record hrecord).2 field hfield '\t' htab) (by decide)

section

variable (dateParse : String → Option ℤ)

theorem iifDataRow_toList (type : IifRow) (statement : Statement) (line : StatementLine) :
    (iifDataRow dateParse type statement line).toList =
      ['\t'].intercalate (iifRecord dateParse type statement line) := by
  rw [iifDataRow, String.toList_intercalate, List.map_map, iifRecord]
  simp [Function.comp_def]

theorem iifValues_length (type : IifRow) (statement : Statement) (line : StatementLine) :
    (iifValues dateParse type statement line).length = 10 := by
  cases type <;> rfl

theorem iifRecord_length (type : IifRow) (statement : Statement) (line : StatementLine) :
    (iifRecord dateParse type statement line).length = 10 := by
  rw [iifRecord, List.length_map, iifValues_length]

theorem iifRecord_noBreak (type : IifRow) (statement : Statement) (line : StatementLine) :
    ∀ field ∈ iifRecord dateParse type statement line, ∀ c ∈ field, isBreak c = false := by
  intro field hfield
  obtain ⟨value, -, rfl⟩ := List.mem_map.mp hfield
  exact iifCell_noBreak value

/-- The rows of an export: the header, and three for each line -/
def iifRecords (statement : Statement) : List (List (List Char)) :=
  (IIF_COLUMNS.map fun column => ("!" ++ column).toList) ::
    statement.lines.flatMap fun line =>
      [iifRecord dateParse .TRNS statement line, iifRecord dateParse .SPL statement line,
        iifRecord dateParse .ENDTRNS statement line]

theorem iifExport_eq (statement : Statement) (newline : Newline) :
    iifExport dateParse statement newline = (iifRecords dateParse statement).flatMap fun record =>
      ['\t'].intercalate record ++ newline.chars := by
  have hheader : iifHeader.toList =
      ['\t'].intercalate (IIF_COLUMNS.map fun column => ("!" ++ column).toList) := by
    rw [iifHeader, String.toList_intercalate, List.map_map]
    rfl
  unfold iifExport iifRecords
  rw [List.flatMap_cons, hheader, List.flatMap_assoc]
  refine congrArg (_ ++ List.flatMap · statement.lines) (funext fun line => ?_)
  rw [iifDataRow_toList, iifDataRow_toList, iifDataRow_toList]
  simp

theorem mem_iifRecords {statement : Statement} {record : List (List Char)}
    (h : record ∈ iifRecords dateParse statement) :
    record.length = 10 ∧ ∀ field ∈ record, ∀ c ∈ field, isBreak c = false := by
  rcases List.mem_cons.mp h with rfl | h
  · have hnames : (IIF_COLUMNS.map fun column => ("!" ++ column).toList).all
        (fun field => field.all fun c => !isBreak c) = true := by
      decide
    refine ⟨by rw [List.length_map]; rfl, fun field hfield c hc => ?_⟩
    exact Bool.not_eq_true' _ ▸ List.all_eq_true.mp (List.all_eq_true.mp hnames field hfield) c hc
  · obtain ⟨line, -, h⟩ := List.mem_flatMap.mp h
    simp only [List.mem_cons, List.not_mem_nil, or_false] at h
    rcases h with rfl | rfl | rfl <;>
      exact ⟨iifRecord_length dateParse _ statement line,
        iifRecord_noBreak dateParse _ statement line⟩

theorem readIif_iifExport (statement : Statement) (newline : Newline) :
    readIif (iifExport dateParse statement newline) = iifRecords dateParse statement := by
  rw [iifExport_eq]
  refine readIif_rows newline fun record hrecord => ⟨fun hempty => ?_,
    (mem_iifRecords dateParse hrecord).2⟩
  have hlength := (mem_iifRecords dateParse hrecord).1
  rw [hempty] at hlength
  cases hlength

theorem bigInt_iifCell (n : ℤ) : bigInt (iifCell (toString n)) = some n := by
  rw [iifCell_toString, bigInt_toString]

theorem iifAmount_TRNS (statement : Statement) (line : StatementLine) :
    iifAmount (iifRecord dateParse .TRNS statement line) = some line.signedAmount := by
  rw [← bigInt_iifCell line.signedAmount]
  simp [iifAmount, iifRecord, iifValues]

theorem iifAmount_SPL (statement : Statement) (line : StatementLine) :
    iifAmount (iifRecord dateParse .SPL statement line) = some (-line.signedAmount) := by
  rw [← bigInt_iifCell (-line.signedAmount)]
  simp [iifAmount, iifRecord, iifValues]

/-- The lines of a statement add up to what its positions have changed by. -/
theorem signedAmounts_of_built {statement : Statement} (h : statement.Built dateParse)
    (asset : String) :
    sumAt (fun line : StatementLine => line.asset) (fun line => line.signedAmount)
        statement.lines asset =
      statement.closingOf asset - statement.openingOf asset := by
  obtain ⟨localeCompare, entries, request, hbuilt⟩ := h
  unfold buildStatement at hbuilt
  split at hbuilt
  · cases hbuilt
  obtain ⟨times, -, hbuilt⟩ := bind_eq_ok.mp hbuilt
  obtain ⟨opening, -, hbuilt⟩ := bind_eq_ok.mp hbuilt
  obtain rfl := pure_eq_ok.mp hbuilt
  rw [closingOf_statementOf, openingOf_statementOf]
  generalize selected dateParse request times _ = taken
  have hlines := @lines_foldl request ⟨opening, [], [], []⟩ taken
  have hsum : sumAt (fun line : StatementLine => line.asset) (fun line => line.signedAmount)
      (statementOf localeCompare request opening taken).lines asset = impactAt taken asset := by
    have hmap := congrArg (fun rows => sumAt (fun row : String × String × ℤ => row.2.1)
      (fun row => row.2.2) rows asset) hlines
    simp only [List.map_nil, List.nil_append, sumAt_map] at hmap
    exact hmap
  rw [hsum]
  ring

/-- **The IIF export** is read back row by row, and its amounts balance. -/
theorem iifFaithful (statement : Statement) (newline : Newline) :
    IifFaithful dateParse statement newline where
  records := readIif_iifExport dateParse statement newline
  width := by
    intro record hrecord
    rw [readIif_iifExport] at hrecord
    exact (mem_iifRecords dateParse hrecord).1
  balanced := fun line _ => ⟨line.signedAmount, iifAmount_TRNS dateParse statement line,
    iifAmount_SPL dateParse statement line⟩
  totals := by
    intro hbuilt asset
    simp only [iifAmount_TRNS, Option.getD_some]
    exact signedAmounts_of_built dateParse hbuilt asset

/-- **Exports keep their shape**: for whatever texts a statement has, its exports are read back as
they were meant, with inert texts exactly if no text of a line begins with a tab or a carriage
return. -/
theorem statement_exports_iff (statement : Statement) (newline : Newline)
    (includeHeader includeBom : Bool) :
    (CsvFaithful statement newline includeHeader includeBom ∧
      IifFaithful dateParse statement newline) ↔
    ∀ line ∈ statement.lines, ∀ column ∈ CSV_COLUMNS, column.textual = true →
      ∀ c ∈ (column.cell (exportRow statement line)).raw.toList.head?, c ≠ '\t' ∧ c ≠ '\r' :=
  ⟨fun h => (csvFaithful_iff statement newline includeHeader includeBom).mp h.1,
    fun h => ⟨(csvFaithful_iff statement newline includeHeader includeBom).mpr h,
      iifFaithful dateParse statement newline⟩⟩

end

/-- A payment whose memo is a formula after a tab -/
def tabbedPayment : LedgerEntry :=
  { samplePayment "event:1" "GSHOP" "CUSDC" 1 5 "" with memo := some "\t=1+2" }

def tabbedStatement : Statement :=
  statementOf compare (ledgerRequest ⟨.agent, "GAGENT"⟩ 1 1) []
    [tabbedPayment]

/-- The statement is built, and the cell of the memo still begins with the tab. -/
theorem tabbed_memo_not_inert :
    buildStatement (fun _ => none) compare [tabbedPayment]
        (ledgerRequest ⟨.agent, "GAGENT"⟩ 1 1) = .ok tabbedStatement ∧
      ¬ CsvFaithful tabbedStatement .lf true false := by
  constructor
  · exact (buildStatement_derived rfl).mpr ⟨by decide, ⟨none, none⟩, by decide +kernel, rfl⟩
  · intro h
    have hinert := h.inert
    revert hinert
    decide +kernel

end StellarAgent.Indexer.Reporting
