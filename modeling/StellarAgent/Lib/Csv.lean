import Mathlib.Tactic

set_option autoImplicit false

/-! # Comma-separated values

A reader of records after RFC 4180, one character at a time: fields between commas, records that end
with a line break (`LF`, or `CR` and `LF`), and fields in double quotes, in which two quotes stand
for one and every other character for itself. Fields that are written in quotes are read back
whatever they contain (`readCsv_fileText`).
-/

namespace StellarAgent.Lib

/-! ## Reading -/

/-- Where in a record the reader is -/
inductive CsvMode where
  /-- before the first character of a field -/
  | start
  /-- in a field without quotes -/
  | plain
  | quoted
  /-- after a quote in a quoted field: its end, or the first of two -/
  | closed
  /-- after the `CR` of a line break -/
  | ending
  deriving DecidableEq

structure CsvState where
  mode : CsvMode
  field : List Char
  record : List (List Char)
  records : List (List (List Char))
  deriving DecidableEq

namespace CsvState

def initial : CsvState := ⟨.start, [], [], []⟩

def endField (s : CsvState) : CsvState :=
  { s with mode := .start, field := [], record := s.record ++ [s.field] }

def endRecord (s : CsvState) : CsvState :=
  ⟨.start, [], [], s.records ++ [s.record ++ [s.field]]⟩

def add (s : CsvState) (mode : CsvMode) (c : Char) : CsvState :=
  { s with mode, field := s.field ++ [c] }

/-- A comma or a line break after a field -/
def separate (s : CsvState) (c : Char) : Option CsvState :=
  if c = ',' then some s.endField
  else if c = '\n' then some s.endRecord
  else if c = '\r' then some { s with mode := .ending }
  else none

def step (s : CsvState) (c : Char) : Option CsvState :=
  match s.mode with
  | .start =>
      if c = '"' then some { s with mode := .quoted }
      else (s.separate c).orElse fun _ => some (s.add .plain c)
  | .plain =>
      if c = '"' then none else (s.separate c).orElse fun _ => some (s.add .plain c)
  | .quoted => if c = '"' then some { s with mode := .closed } else some (s.add .quoted c)
  | .closed => if c = '"' then some (s.add .quoted c) else s.separate c
  | .ending => if c = '\n' then some s.endRecord else none

/-- What has been read at the end of the text; the last record may lack a line break. -/
def finish (s : CsvState) : Option (List (List (List Char))) :=
  match s.mode with
  | .start => some (if s.record = [] then s.records else s.endRecord.records)
  | .plain | .closed => some s.endRecord.records
  | .quoted | .ending => none

end CsvState

def readCsv (text : List Char) : Option (List (List (List Char))) :=
  (text.foldlM CsvState.step CsvState.initial).bind CsvState.finish

/-! ## Writing -/

def quoteChars (field : List Char) : List Char :=
  '"' :: (field.flatMap fun c => if c = '"' then ['"', '"'] else [c]) ++ ['"']

def recordText (record : List (List Char)) : List Char := [','].intercalate (record.map quoteChars)

/-- Records with a line break after each -/
def fileText (newline : List Char) (records : List (List (List Char))) : List Char :=
  records.flatMap fun record => recordText record ++ newline

/-! ## Reading back -/

open CsvState

theorem read_quoted (field : List Char) (s : CsvState) (h : s.mode = .quoted) :
    (field.flatMap fun c => if c = '"' then ['"', '"'] else [c]).foldlM step s =
      some { s with field := s.field ++ field } := by
  induction field generalizing s with
  | nil => simp
  | cons c field ih =>
      rw [List.flatMap_cons, List.foldlM_append]
      have hread : (if c = '"' then ['"', '"'] else [c]).foldlM step s =
          some { s with field := s.field ++ [c] } := by
        obtain ⟨mode, current, record, records⟩ := s
        obtain rfl : mode = .quoted := h
        by_cases hquote : c = '"'
        · rw [if_pos hquote, hquote]
          simp [step, add]
        · rw [if_neg hquote]
          simp [step, add, hquote]
      have hrest := ih { s with field := s.field ++ [c] } h
      rw [hread, Option.bind_eq_bind, Option.bind_some, hrest]
      simp

theorem read_field (field : List Char) (record : List (List Char))
    (records : List (List (List Char))) :
    (quoteChars field).foldlM step ⟨.start, [], record, records⟩ =
      some ⟨.closed, field, record, records⟩ := by
  have hopen : step ⟨.start, [], record, records⟩ '"' = some ⟨.quoted, [], record, records⟩ := rfl
  rw [quoteChars, List.cons_append, List.foldlM_cons, hopen, Option.bind_eq_bind, Option.bind_some,
    List.foldlM_append, read_quoted field _ rfl]
  rfl

/-- The rest of a record after its first field -/
theorem read_fields (fields : List (List Char)) (first : List Char) (record : List (List Char))
    (records : List (List (List Char))) :
    (recordText (first :: fields)).foldlM step ⟨.start, [], record, records⟩ =
      some ⟨.closed, (first :: fields).getLast (by simp), record ++ (first :: fields).dropLast,
        records⟩ := by
  induction fields generalizing first record with
  | nil =>
      rw [recordText, List.map_cons, List.map_nil, List.intercalate_singleton, read_field]
      simp
  | cons next fields ih =>
      have htext : recordText (first :: next :: fields) =
          quoteChars first ++ ',' :: recordText (next :: fields) := by
        simp [recordText, List.intercalate]
      rw [htext, List.foldlM_append, read_field, Option.bind_eq_bind, Option.bind_some,
        List.foldlM_cons]
      have hcomma : step ⟨.closed, first, record, records⟩ ',' =
          some ⟨.start, [], record ++ [first], records⟩ := rfl
      rw [hcomma, Option.bind_eq_bind, Option.bind_some, ih]
      simp

/-- A line break of either kind -/
def IsNewline (newline : List Char) : Prop := newline = ['\n'] ∨ newline = ['\r', '\n']

theorem read_newline {newline : List Char} (h : IsNewline newline) (field : List Char)
    (record : List (List Char)) (records : List (List (List Char))) :
    newline.foldlM step ⟨.closed, field, record, records⟩ =
      some ⟨.start, [], [], records ++ [record ++ [field]]⟩ := by
  rcases h with rfl | rfl <;> rfl

/-- **Records of quoted fields are read back.** -/
theorem readCsv_fileText {newline : List Char} (h : IsNewline newline)
    {records : List (List (List Char))} (hrecords : ∀ record ∈ records, record ≠ []) :
    readCsv (fileText newline records) = some records := by
  have hread : ∀ before, (fileText newline records).foldlM step ⟨.start, [], [], before⟩ =
      some ⟨.start, [], [], before ++ records⟩ := by
    induction records with
    | nil => simp [fileText]
    | cons record records ih =>
        intro before
        have ih := ih fun other hother => hrecords other (List.mem_cons_of_mem record hother)
        cases record with
        | nil => exact absurd rfl (hrecords [] List.mem_cons_self)
        | cons first fields =>
            rw [fileText, List.flatMap_cons, List.append_assoc, List.foldlM_append, read_fields,
              Option.bind_eq_bind, Option.bind_some, List.foldlM_append, read_newline h,
              Option.bind_eq_bind, Option.bind_some, List.nil_append, List.dropLast_append_getLast]
            rw [fileText] at ih
            rw [ih]
            simp
  rw [readCsv, initial, hread, Option.bind_some]
  simp [finish]

end StellarAgent.Lib
