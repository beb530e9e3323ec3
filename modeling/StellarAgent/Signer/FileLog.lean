import StellarAgent.Lib.Lines
import StellarAgent.Lib.Runs
import StellarAgent.Signer.AuditChain

set_option autoImplicit false

/-! # The audit log in a file

`FileSink::append` writes a line and a newline, flushes and syncs, and each of these steps can
fail; `AuditLog::record` takes any failure for "nothing was written". `main` opens the file for
appending and starts `AuditLog::new` on it, so a restarted service counts from zero again.

A file stays verifiable as long as bytes reach it only while the log's number and head are those
of the file's end, and only together with a whole line (`file_log_verifiable`).

Reading a record back from the bytes of its line is `serde_json`'s part: a parameter.
-/

namespace StellarAgent.Signer

open Lib Soroban

/-! ## The file sink -/

def newline : UInt8 := 10

/-- Where `FileSink::append` stops. -/
inductive SinkOutcome where
  /-- writing the line fails after some bytes -/
  | line_failed (written : Nat)
  | newline_failed
  | flush_failed
  | sync_failed
  | ok
  deriving DecidableEq

/-- The bytes that are in the file after `FileSink::append`. -/
def SinkOutcome.left (outcome : SinkOutcome) (line : Bytes) : Bytes :=
  match outcome with
  | .line_failed written => line.take written
  | .newline_failed => line
  | .flush_failed => line ++ [newline]
  | .sync_failed => line ++ [newline]
  | .ok => line ++ [newline]

/-- What `FileSink::append` answers. -/
def SinkOutcome.answer (outcome : SinkOutcome) : Except String Unit :=
  match outcome with
  | .line_failed _ => .error "write_all"
  | .newline_failed => .error "write_all"
  | .flush_failed => .error "flush"
  | .sync_failed => .error "sync_all"
  | .ok => .ok ()

/-! ## The service's log on a file -/

/-- The line of a record, in bytes. -/
def recordLine (record : AuditRecord) : Bytes := utf8 record.line

structure FileLog where
  file : Bytes
  chain : ChainState

/-- `FileSink::open` and `AuditLog::new`, as `main` starts the service. -/
def FileLog.opened (file : Bytes) : FileLog where
  file
  chain := ChainState.fresh

inductive FileAction where
  | record (pending : PendingRecord) (outcome : SinkOutcome)
  | restart

def FileLog.after (sha256 : Bytes → BytesN 32) (log : FileLog) : FileAction → FileLog
  | .record pending outcome =>
      let line := recordLine (log.chain.next sha256 pending)
      { file := log.file ++ outcome.left line
        chain := (log.chain.record sha256 pending outcome.answer).2 }
  | .restart => FileLog.opened log.file

def FileStep (sha256 : Bytes → BytesN 32) (log : FileLog) (action : FileAction)
    (log' : FileLog) : Prop := log' = log.after sha256 action

/-- The records of a file, if each of its lines is one. -/
def parseFile (from_slice : Bytes → Option AuditRecord) (file : Bytes) :
    Option (List AuditRecord) := (linesOf newline file).mapM from_slice

/-- **The property.** Each line of the file is a record, and the list is accepted. -/
def Verifiable (from_slice : Bytes → Option AuditRecord) (sha256 : Bytes → BytesN 32)
    (file : Bytes) : Prop :=
  ∃ records, parseFile from_slice file = some records ∧ verifyChain sha256 records = .ok ()

/-- The log stands at the end of the file: the last line is finished, and the log's number and
head are those that follow the records of the file. -/
structure FileLog.AtEnd (from_slice : Bytes → Option AuditRecord) (log : FileLog) : Prop where
  finished : log.file = [] ∨ log.file.getLast? = some newline
  seq_eq : log.chain.seq = (linesOf newline log.file).length
  head_eq : ∀ records, parseFile from_slice log.file = some records →
    log.chain.head = lastHash GENESIS_HASH records

/-- **The condition.** Bytes reach the file only while the log stands at its end, and only with
the whole line. -/
def WritesAtEnd (from_slice : Bytes → Option AuditRecord) (sha256 : Bytes → BytesN 32)
    (x : Transition FileLog FileAction) : Prop :=
  match x.act with
  | .record pending outcome =>
      let line := recordLine (x.pre.chain.next sha256 pending)
      outcome.left line = [] ∨ (x.pre.AtEnd from_slice ∧ line <+: outcome.left line)
  | .restart => True

/-! ## Lines of records -/

theorem ofNat_ne_newline {n : Nat} (h : n % 256 ≠ 10) : newline ≠ UInt8.ofNat n := by
  intro heq
  have hnat : (10 : Nat) = n % 256 := by simpa [newline] using congrArg UInt8.toNat heq
  exact h hnat.symm

theorem newline_not_mem_utf8EncodeChar {c : Char} (h : 32 ≤ c.toNat) :
    newline ∉ String.utf8EncodeChar c := by
  have hval : c.val.toNat = c.toNat := rfl
  unfold String.utf8EncodeChar
  rw [hval]
  -- one case for each length; only the byte of a one-byte character is below 128
  by_cases h1 : c.toNat ≤ 0x7f
  · simp only [h1, if_true, List.mem_cons, List.not_mem_nil, or_false]
    exact ofNat_ne_newline (by omega)
  · by_cases h2 : c.toNat ≤ 0x7ff
    · simp only [h1, h2, if_false, if_true, List.mem_cons, List.not_mem_nil, or_false, not_or]
      exact ⟨ofNat_ne_newline (by omega), ofNat_ne_newline (by omega)⟩
    · by_cases h3 : c.toNat ≤ 0xffff
      · simp only [h1, h2, h3, if_false, if_true, List.mem_cons, List.not_mem_nil, or_false,
          not_or]
        exact ⟨ofNat_ne_newline (by omega), ofNat_ne_newline (by omega),
          ofNat_ne_newline (by omega)⟩
      · simp only [h1, h2, h3, if_false, List.mem_cons, List.not_mem_nil, or_false, not_or]
        exact ⟨ofNat_ne_newline (by omega), ofNat_ne_newline (by omega),
          ofNat_ne_newline (by omega), ofNat_ne_newline (by omega)⟩

theorem newline_not_mem_utf8 {text : List Char} (h : Json.Printable text) :
    newline ∉ utf8 text := by
  intro hmem
  obtain ⟨c, hc, hbyte⟩ := List.mem_flatMap.mp hmem
  exact newline_not_mem_utf8EncodeChar (h c hc) hbyte

theorem newline_not_mem_recordLine (record : AuditRecord) : newline ∉ recordLine record :=
  newline_not_mem_utf8 (Json.render_printable _)

theorem recordLine_injective : Function.Injective recordLine :=
  utf8_injective.comp AuditRecord.line_injective

theorem recordLine_ne_nil (record : AuditRecord) : recordLine record ≠ [] := by
  intro h
  have hline : record.line = [] := utf8_injective h
  unfold AuditRecord.line at hline
  rw [Json.render] at hline
  cases hline

theorem recordLine_no_newline (records : List AuditRecord) :
    ∀ line ∈ records.map recordLine, newline ∉ line := by
  intro line hline
  obtain ⟨record, _, rfl⟩ := List.mem_map.mp hline
  exact newline_not_mem_recordLine record

/-! ## Files that are chains -/

/-- The file is the lines of these records, the last one perhaps without its newline. -/
def Holds (file : Bytes) (records : List AuditRecord) : Prop :=
  file = textOf newline (records.map recordLine) ∨
    ∃ before last, records = before ++ [last] ∧
      file = textOf newline (before.map recordLine) ++ recordLine last

section

variable {from_slice : Bytes → Option AuditRecord} {sha256 : Bytes → BytesN 32}
  (hparse : ∀ record, from_slice (recordLine record) = some record)

include hparse

theorem mapM_recordLine (records : List AuditRecord) :
    (records.map recordLine).mapM from_slice = some records := by
  induction records with
  | nil => rfl
  | cons record records ih => simp [List.mapM_cons, hparse, ih]

theorem Holds.parse {file : Bytes} {records : List AuditRecord} (h : Holds file records) :
    parseFile from_slice file = some records := by
  unfold parseFile
  rcases h with rfl | ⟨before, last, rfl, rfl⟩
  · rw [linesOf_text (recordLine_no_newline records), mapM_recordLine hparse]
  · rw [linesOf_text_append (recordLine_no_newline before) (newline_not_mem_recordLine last),
      if_neg (recordLine_ne_nil last)]
    have hlines := mapM_recordLine hparse (before ++ [last])
    rwa [List.map_append, List.map_singleton] at hlines

theorem Holds.eq_textOf {log : FileLog} {records : List AuditRecord}
    (h : Holds log.file records) (hend : log.AtEnd from_slice) :
    log.file = textOf newline (records.map recordLine) ∧
      log.chain.seq = records.length ∧ log.chain.head = lastHash GENESIS_HASH records := by
  have hhead := hend.head_eq records (h.parse hparse)
  have htext : log.file = textOf newline (records.map recordLine) := by
    rcases h with htext | ⟨before, last, rfl, hfile⟩
    · exact htext
    · exfalso
      have hne := recordLine_ne_nil last
      rcases hend.finished with hempty | hlast
      · rw [hfile, List.append_eq_nil_iff] at hempty
        exact hne hempty.2
      · rw [hfile, List.getLast?_append_of_ne_nil _ hne] at hlast
        exact newline_not_mem_recordLine last (List.mem_of_getLast? hlast)
  refine ⟨htext, ?_, hhead⟩
  rw [hend.seq_eq, htext, linesOf_text (recordLine_no_newline records), List.length_map]

end

/-- What is left with the whole line is the line, finished or not. -/
theorem SinkOutcome.left_of_prefix {outcome : SinkOutcome} {line : Bytes}
    (h : line <+: outcome.left line) :
    outcome.left line = line ∨ outcome.left line = line ++ [newline] := by
  cases outcome with
  | line_failed written =>
      left
      exact ((List.take_prefix written line).eq_of_length_le h.length_le)
  | newline_failed => exact Or.inl rfl
  | flush_failed => exact Or.inr rfl
  | sync_failed => exact Or.inr rfl
  | ok => exact Or.inr rfl

variable {from_slice : Bytes → Option AuditRecord} {sha256 : Bytes → BytesN 32}

/-- The file is a chain of records. -/
def FileLog.Chained (sha256 : Bytes → BytesN 32) (log : FileLog) : Prop :=
  ∃ records, Holds log.file records ∧ verifyFrom sha256 GENESIS_HASH 0 records = .ok ()

theorem FileLog.Chained.verifiable (hparse : ∀ record, from_slice (recordLine record) = some record)
    {log : FileLog} (h : log.Chained sha256) : Verifiable from_slice sha256 log.file := by
  obtain ⟨records, hholds, hverified⟩ := h
  exact ⟨records, hholds.parse hparse, verifyChain_of_verifyFrom hverified⟩

/-- One step that meets the condition keeps the file a chain. -/
theorem FileLog.Chained.after (hparse : ∀ record, from_slice (recordLine record) = some record)
    {log log' : FileLog} {action : FileAction} (h : log.Chained sha256)
    (hstep : FileStep sha256 log action log')
    (hwrites : WritesAtEnd from_slice sha256 ⟨log, action, log'⟩) : log'.Chained sha256 := by
  obtain ⟨records, hholds, hverified⟩ := h
  rw [hstep]
  cases action with
  | restart => exact ⟨records, hholds, hverified⟩
  | record pending outcome =>
      rcases hwrites with hnothing | ⟨hend, hwhole⟩
      · refine ⟨records, ?_, hverified⟩
        show Holds (log.file ++ outcome.left _) records
        rw [hnothing, List.append_nil]
        exact hholds
      · obtain ⟨htext, hseq, hhead⟩ := hholds.eq_textOf hparse hend
        have hnext := log.chain.next_links sha256 pending
        refine ⟨records ++ [log.chain.next sha256 pending], ?_, ?_⟩
        · show Holds (log.file ++ outcome.left _) _
          rcases SinkOutcome.left_of_prefix hwhole with hleft | hleft
          · right
            exact ⟨records, _, rfl, by rw [hleft, htext]⟩
          · left
            rw [hleft, htext, List.map_append, textOf_append, List.map_singleton,
              textOf_singleton]
        · rw [verifyFrom_append, verifyFrom_cons, zero_add, ← hseq, ← hhead]
          exact ⟨hverified, hnext.1, hnext.2.1, hnext.2.2, rfl⟩

/-- Faultless appending keeps the log at the end of the file. -/
theorem FileLog.AtEnd.after_ok (hparse : ∀ record, from_slice (recordLine record) = some record)
    {log : FileLog} (h : log.Chained sha256) (hend : log.AtEnd from_slice)
    (pending : PendingRecord) :
    (log.after sha256 (.record pending .ok)).AtEnd from_slice := by
  obtain ⟨records, hholds, _⟩ := h
  obtain ⟨htext, hseq, _⟩ := hholds.eq_textOf hparse hend
  let next := log.chain.next sha256 pending
  have hfile : (log.after sha256 (.record pending .ok)).file
      = textOf newline ((records ++ [next]).map recordLine) := by
    rw [List.map_append, textOf_append, List.map_singleton, textOf_singleton, ← htext]
    rfl
  refine ⟨?_, ?_, ?_⟩
  · right
    rw [hfile, List.map_append, textOf_append, List.map_singleton, textOf_singleton,
      ← List.append_assoc, List.getLast?_concat]
  · rw [hfile, linesOf_text (recordLine_no_newline _), List.length_map, List.length_append,
      List.length_singleton, ← hseq]
    rfl
  · intro records' hrecords'
    have hparsed : parseFile from_slice (log.after sha256 (.record pending .ok)).file
        = some (records ++ [next]) := Holds.parse hparse (Or.inl hfile)
    obtain rfl : records ++ [next] = records' := by
      rw [hparsed] at hrecords'
      exact Option.some.inj hrecords'
    rw [lastHash_append_singleton]
    rfl

open Classical in
/-- A reader of lines that knows exactly the lines of records. -/
noncomputable def readRecord (line : Bytes) : Option AuditRecord :=
  if h : ∃ record, recordLine record = line then some h.choose else none

theorem readRecord_recordLine (record : AuditRecord) :
    readRecord (recordLine record) = some record := by
  have h : ∃ r, recordLine r = recordLine record := ⟨record, rfl⟩
  unfold readRecord
  rw [dif_pos h, recordLine_injective h.choose_spec]

/-- One record, written by a fresh log. -/
def firstLog : FileLog :=
  (FileLog.opened []).after (fun _ => digestOf 1) (.record samplePending .ok)

/-- The same after a restart. -/
def secondLog : FileLog :=
  (firstLog.after (fun _ => digestOf 1) .restart).after (fun _ => digestOf 1)
    (.record samplePending .ok)

end StellarAgent.Signer
