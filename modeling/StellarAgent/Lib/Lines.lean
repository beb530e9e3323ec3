import Mathlib.Tactic

set_option autoImplicit false

/-! # Text cut into lines

`linesOf sep` cuts a text at each `sep`; what follows the last one is a line only if there is
something. Lines without `sep` that are each written with a `sep` after them are read back
(`linesOf_text`), and so are such lines with an unfinished one after them
(`linesOf_text_append`).
-/

namespace StellarAgent.Lib

variable {α : Type*} {sep : α}

/-- The text of finished lines. -/
def textOf (sep : α) (lines : List (List α)) : List α := lines.flatMap fun line => line ++ [sep]

@[simp] theorem textOf_nil : textOf sep [] = ([] : List α) := rfl

theorem textOf_append (xs ys : List (List α)) :
    textOf sep (xs ++ ys) = textOf sep xs ++ textOf sep ys := List.flatMap_append

theorem textOf_singleton (line : List α) : textOf sep [line] = line ++ [sep] := by simp [textOf]

theorem textOf_cons (line : List α) (lines : List (List α)) :
    textOf sep (line :: lines) = line ++ sep :: textOf sep lines := by simp [textOf]

/-- Lines with separators between them become finished lines by one more separator. -/
theorem intercalate_append_sep {lines : List (List α)} (h : lines ≠ []) :
    [sep].intercalate lines ++ [sep] = textOf sep lines := by
  induction lines with
  | nil => exact absurd rfl h
  | cons line lines ih =>
      cases lines with
      | nil => rw [List.intercalate_singleton, textOf_singleton]
      | cons next lines =>
          rw [textOf_cons, ← ih (by simp)]
          simp [List.intercalate]

theorem mem_textOf {lines : List (List α)} {x : α} (h : x ∈ textOf sep lines) :
    x = sep ∨ ∃ line ∈ lines, x ∈ line := by
  obtain ⟨line, hline, hx⟩ := List.mem_flatMap.mp h
  rcases List.mem_append.mp hx with hx | hx
  · exact Or.inr ⟨line, hline, hx⟩
  · exact Or.inl (List.mem_singleton.mp hx)

theorem mem_intercalate_sep {lines : List (List α)} {x : α} (h : x ∈ [sep].intercalate lines) :
    x = sep ∨ ∃ line ∈ lines, x ∈ line := by
  cases lines with
  | nil => cases h
  | cons line lines =>
      refine mem_textOf ?_
      rw [← intercalate_append_sep (by simp)]
      exact List.mem_append_left _ h

variable [DecidableEq α]

/-- The lines of a text, when `current` is the beginning of the first one. -/
def linesFrom (sep : α) (current : List α) : List α → List (List α)
  | [] => if current = [] then [] else [current]
  | x :: xs => if x = sep then current :: linesFrom sep [] xs else linesFrom sep (current ++ [x]) xs

def linesOf (sep : α) (text : List α) : List (List α) := linesFrom sep [] text

/-- A line is collected up to the next separator. -/
theorem linesFrom_append_sep {line : List α} (h : sep ∉ line) (current rest : List α) :
    linesFrom sep current (line ++ sep :: rest) = (current ++ line) :: linesFrom sep [] rest := by
  induction line generalizing current with
  | nil => simp [linesFrom]
  | cons x xs ih =>
      have hx : x ≠ sep := fun hx => h (hx ▸ List.mem_cons_self)
      rw [List.cons_append, linesFrom, if_neg hx, ih (fun hmem => h (List.mem_cons_of_mem x hmem)),
        List.append_assoc, List.singleton_append]

theorem linesFrom_unfinished {line : List α} (h : sep ∉ line) (current : List α) :
    linesFrom sep current line = if current ++ line = [] then [] else [current ++ line] := by
  induction line generalizing current with
  | nil => simp [linesFrom]
  | cons x xs ih =>
      have hx : x ≠ sep := fun hx => h (hx ▸ List.mem_cons_self)
      rw [linesFrom, if_neg hx, ih (fun hmem => h (List.mem_cons_of_mem x hmem)),
        List.append_assoc, List.singleton_append]

/-- **Finished lines with an unfinished one after them are read back.** -/
theorem linesOf_text_append {lines : List (List α)} (h : ∀ line ∈ lines, sep ∉ line)
    {line : List α} (hline : sep ∉ line) :
    linesOf sep (textOf sep lines ++ line) = lines ++ if line = [] then [] else [line] := by
  unfold linesOf
  induction lines with
  | nil => rw [textOf_nil, List.nil_append, linesFrom_unfinished hline, List.nil_append,
      List.nil_append]
  | cons first lines ih =>
      rw [textOf_cons, List.append_assoc, List.cons_append,
        linesFrom_append_sep (h first List.mem_cons_self), List.nil_append,
        ih (fun l hl => h l (List.mem_cons_of_mem first hl)), List.cons_append]

theorem linesOf_text {lines : List (List α)} (h : ∀ line ∈ lines, sep ∉ line) :
    linesOf sep (textOf sep lines) = lines := by
  have hempty : sep ∉ ([] : List α) := List.not_mem_nil
  simpa using linesOf_text_append h hempty

/-- Finished lines are known from their text. -/
theorem textOf_inj {lines lines' : List (List α)} (h : ∀ line ∈ lines, sep ∉ line)
    (h' : ∀ line ∈ lines', sep ∉ line) (heq : textOf sep lines = textOf sep lines') :
    lines = lines' := by
  rw [← linesOf_text h, heq, linesOf_text h']

/-- Texts are equal up to their first separators and after them. -/
theorem append_sep_inj {line line' rest rest' : List α} (h : sep ∉ line) (h' : sep ∉ line')
    (heq : line ++ sep :: rest = line' ++ sep :: rest') : line = line' ∧ rest = rest' := by
  induction line generalizing line' with
  | nil =>
      cases line' with
      | nil => exact ⟨rfl, (List.cons.inj heq).2⟩
      | cons x line' => exact absurd ((List.cons.inj heq).1 ▸ List.mem_cons_self) h'
  | cons x line ih =>
      cases line' with
      | nil => exact absurd ((List.cons.inj heq).1 ▸ List.mem_cons_self) h
      | cons y line' =>
          obtain ⟨rfl, hrest⟩ := List.cons.inj heq
          obtain ⟨hline, htail⟩ := ih (fun hmem => h (List.mem_cons_of_mem x hmem))
            (fun hmem => h' (List.mem_cons_of_mem x hmem)) hrest
          exact ⟨by rw [hline], htail⟩

end StellarAgent.Lib
