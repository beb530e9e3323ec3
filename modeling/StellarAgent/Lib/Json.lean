import Mathlib.Tactic

set_option autoImplicit false

/-! # Compact JSON

`Json` are the values without floating-point numbers, `null` and booleans; an object keeps the
order of its fields. `render` writes a value without any white space, escaping what JSON wants
escaped. Every rendering ends by itself: what follows it cannot be confused with it
(`render_append_inj`), so two values with the same rendering are equal (`render_injective`), and a
rendering has no control character, in particular no line break (`render_printable`).
-/

namespace StellarAgent.Lib

inductive Json where
  | num (n : Nat)
  | str (s : String)
  | arr (items : List Json)
  | obj (fields : List (String × Json))

namespace Json

def quoteMark : Char := Char.ofNat 34
def backslash : Char := Char.ofNat 92

/-! ## Strings -/

/-- How a character is written in a string. -/
def escape (c : Char) : List Char :=
  if c = quoteMark then [backslash, quoteMark]
  else if c = backslash then [backslash, backslash]
  else if c = Char.ofNat 8 then [backslash, 'b']
  else if c = Char.ofNat 9 then [backslash, 't']
  else if c = Char.ofNat 10 then [backslash, 'n']
  else if c = Char.ofNat 12 then [backslash, 'f']
  else if c = Char.ofNat 13 then [backslash, 'r']
  else if c.toNat < 32 then
    [backslash, 'u', '0', '0', Nat.digitChar (c.toNat / 16), Nat.digitChar (c.toNat % 16)]
  else [c]

/-- The value of a lower-case hexadecimal digit. -/
def hexValue (c : Char) : Nat := if c.toNat < 58 then c.toNat - 48 else c.toNat - 87

/-- What stands for a character after a backslash, and the text after it. -/
def unescapeLetter : List Char → Option (Char × List Char)
  | 'b' :: rest => some (Char.ofNat 8, rest)
  | 't' :: rest => some (Char.ofNat 9, rest)
  | 'n' :: rest => some (Char.ofNat 10, rest)
  | 'f' :: rest => some (Char.ofNat 12, rest)
  | 'r' :: rest => some (Char.ofNat 13, rest)
  | 'u' :: _ :: _ :: a :: b :: rest => some (Char.ofNat (16 * hexValue a + hexValue b), rest)
  | c :: rest => some (c, rest)
  | [] => none

/-- The character that an escaped text starts with, and the text after it. -/
def unescape : List Char → Option (Char × List Char)
  | [] => none
  | c :: rest => if c = backslash then unescapeLetter rest else some (c, rest)

/-- `s` between quotation marks. -/
def renderString (s : List Char) : List Char := quoteMark :: (s.flatMap escape ++ [quoteMark])

theorem unescape_escape (c : Char) (rest : List Char) :
    unescape (escape c ++ rest) = some (c, rest) := by
  by_cases hcontrol : c.toNat < 32
  · -- each control character has its own escape
    obtain ⟨n, hn, rfl⟩ : ∃ n, n < 32 ∧ c = Char.ofNat n := ⟨c.toNat, hcontrol, by simp⟩
    interval_cases n <;> rfl
  · by_cases hquote : c = quoteMark
    · subst hquote
      rfl
    · by_cases hback : c = backslash
      · subst hback
        rfl
      · have hplain : ∀ n, n < 32 → c ≠ Char.ofNat n := by
          rintro n hn rfl
          apply hcontrol
          interval_cases n <;> decide
        have hescape : escape c = [c] := by
          unfold escape
          rw [if_neg hquote, if_neg hback, if_neg (hplain 8 (by omega)),
            if_neg (hplain 9 (by omega)), if_neg (hplain 10 (by omega)),
            if_neg (hplain 12 (by omega)), if_neg (hplain 13 (by omega)), if_neg hcontrol]
        rw [hescape]
        show unescape (c :: rest) = _
        rw [unescape, if_neg hback]

theorem escape_append_inj {c d : Char} {xs ys : List Char}
    (h : escape c ++ xs = escape d ++ ys) : c = d ∧ xs = ys := by
  have hread : some (c, xs) = some (d, ys) := by
    rw [← unescape_escape c xs, h, unescape_escape]
  simpa using hread

/-- An escaped character does not start with a quotation mark. -/
theorem escape_ne_quote (c : Char) (xs ys : List Char) : escape c ++ xs ≠ quoteMark :: ys := by
  intro h
  have hread : some (c, xs) = some (quoteMark, ys) := by
    rw [← unescape_escape c xs, h]
    rfl
  have hc : c = quoteMark := by simpa using congrArg (Option.map Prod.fst) hread
  rw [hc] at h
  have hfirst : backslash = quoteMark := (List.cons.inj h).1
  exact absurd hfirst (by decide)

theorem flatMap_escape_inj {s t xs ys : List Char}
    (h : s.flatMap escape ++ quoteMark :: xs = t.flatMap escape ++ quoteMark :: ys) :
    s = t ∧ xs = ys := by
  induction s generalizing t with
  | nil =>
      cases t with
      | nil => exact ⟨rfl, (List.cons.inj h).2⟩
      | cons d t =>
          rw [List.flatMap_cons, List.append_assoc] at h
          exact absurd h.symm (escape_ne_quote d _ _)
  | cons c s ih =>
      cases t with
      | nil =>
          rw [List.flatMap_cons, List.append_assoc] at h
          exact absurd h (escape_ne_quote c _ _)
      | cons d t =>
          rw [List.flatMap_cons, List.flatMap_cons, List.append_assoc, List.append_assoc] at h
          obtain ⟨rfl, hrest⟩ := escape_append_inj h
          obtain ⟨rfl, hxs⟩ := ih hrest
          exact ⟨rfl, hxs⟩

theorem renderString_append_inj {s t xs ys : List Char}
    (h : renderString s ++ xs = renderString t ++ ys) : s = t ∧ xs = ys := by
  have hbody : s.flatMap escape ++ quoteMark :: xs = t.flatMap escape ++ quoteMark :: ys := by
    have htail := (List.cons.inj h).2
    simpa using htail
  exact flatMap_escape_inj hbody

/-! ## Values -/

mutual

/-- The text of a value. -/
def render : Json → List Char
  | .num n => Nat.toDigits 10 n
  | .str s => renderString s.toList
  | .arr items => '[' :: ((renderItems items).tail ++ [']'])
  | .obj fields => '{' :: ((renderFields fields).tail ++ ['}'])

/-- The items, each after a comma. -/
def renderItems : List Json → List Char
  | [] => []
  | item :: items => ',' :: (render item ++ renderItems items)

/-- The fields, each after a comma. -/
def renderFields : List (String × Json) → List Char
  | [] => []
  | (key, value) :: fields =>
      ',' :: (renderString key.toList ++ ':' :: (render value ++ renderFields fields))

end

/-- What follows does not go on with a digit. -/
def Ends (xs : List Char) : Prop := ∀ c ∈ xs.head?, c.isDigit = false

theorem ends_nil : Ends [] := by
  intro c hc
  cases hc

theorem ends_cons {c : Char} {xs : List Char} (h : c.isDigit = false) : Ends (c :: xs) := by
  intro d hd
  obtain rfl := Option.some.inj hd
  exact h

/-- Digits are cut off where they end. -/
theorem digits_append_inj {s t xs ys : List Char} (hs : ∀ c ∈ s, c.isDigit = true)
    (ht : ∀ c ∈ t, c.isDigit = true) (hx : Ends xs) (hy : Ends ys)
    (h : s ++ xs = t ++ ys) : s = t ∧ xs = ys := by
  induction s generalizing t with
  | nil =>
      cases t with
      | nil => exact ⟨rfl, h⟩
      | cons d t =>
          have hd : d.isDigit = true := ht d List.mem_cons_self
          have hend := hx d (by rw [List.nil_append] at h; rw [h]; rfl)
          rw [hd] at hend
          cases hend
  | cons c s ih =>
      have hc : c.isDigit = true := hs c List.mem_cons_self
      cases t with
      | nil =>
          have hend := hy c (by rw [List.nil_append] at h; rw [← h]; rfl)
          rw [hc] at hend
          cases hend
      | cons d t =>
          obtain ⟨rfl, hrest⟩ := List.cons.inj h
          obtain ⟨rfl, hxs⟩ := ih (fun c hc => hs c (List.mem_cons_of_mem _ hc))
            (fun c hc => ht c (List.mem_cons_of_mem _ hc)) hrest
          exact ⟨rfl, hxs⟩

theorem toDigits_append_inj {m n : Nat} {xs ys : List Char} (hx : Ends xs) (hy : Ends ys)
    (h : Nat.toDigits 10 m ++ xs = Nat.toDigits 10 n ++ ys) : m = n ∧ xs = ys := by
  have hdigit : ∀ k : Nat, ∀ c ∈ Nat.toDigits 10 k, c.isDigit = true :=
    fun k c hc => Nat.isDigit_of_mem_toDigits (by omega) (by omega) hc
  obtain ⟨hdigits, hxs⟩ := digits_append_inj (hdigit m) (hdigit n) hx hy h
  refine ⟨?_, hxs⟩
  calc m = Nat.ofDigitChars 10 (Nat.toDigits 10 m) 0 := Nat.ofDigitChars_ten_toDigits.symm
    _ = Nat.ofDigitChars 10 (Nat.toDigits 10 n) 0 := by rw [hdigits]
    _ = n := Nat.ofDigitChars_ten_toDigits

/-! ## Renderings end by themselves -/

/-- Which kind of value a first character announces. -/
def kindOf (c : Char) : Nat :=
  if c.isDigit then 0 else if c = quoteMark then 1 else if c = '[' then 2
  else if c = '{' then 3 else 4

def kind : Json → Nat
  | .num _ => 0
  | .str _ => 1
  | .arr _ => 2
  | .obj _ => 3

theorem render_head (j : Json) (xs : List Char) :
    (render j ++ xs).head?.map kindOf = some j.kind := by
  cases j with
  | num n =>
      rw [render]
      cases hdigits : Nat.toDigits 10 n with
      | nil => exact absurd hdigits Nat.toDigits_ne_nil
      | cons c cs =>
          have hc : c.isDigit = true := by
            refine Nat.isDigit_of_mem_toDigits (n := n) (b := 10) (by omega) (by omega) ?_
            rw [hdigits]
            exact List.mem_cons_self
          show some (kindOf c) = some 0
          unfold kindOf
          rw [if_pos hc]
  | str s => rw [render]; rfl
  | arr items => rw [render]; rfl
  | obj fields => rw [render]; rfl

theorem kind_eq {a b : Json} {xs ys : List Char} (h : render a ++ xs = render b ++ ys) :
    a.kind = b.kind := by
  have hkind : some a.kind = some b.kind := by rw [← render_head a xs, h, render_head]
  exact Option.some.inj hkind

/-- No value starts with a character that announces none. -/
theorem render_ne_cons {a : Json} {c : Char} {xs ys : List Char} (hc : kindOf c = 4) :
    render a ++ xs ≠ c :: ys := by
  intro h
  have hkind : some a.kind = some 4 := by
    rw [← render_head a xs, h, ← hc]
    rfl
  cases a <;> simp [kind] at hkind

mutual

/-- **A rendering ends by itself.** -/
theorem render_append_inj {xs ys : List Char} (hx : Ends xs) (hy : Ends ys) :
    ∀ a b : Json, render a ++ xs = render b ++ ys → a = b ∧ xs = ys
  | .num m, .num n, h => by
      rw [render, render] at h
      obtain ⟨rfl, hxs⟩ := toDigits_append_inj hx hy h
      exact ⟨rfl, hxs⟩
  | .str s, .str t, h => by
      rw [render, render] at h
      obtain ⟨hst, hxs⟩ := renderString_append_inj h
      obtain rfl := String.toList_inj.mp hst
      exact ⟨rfl, hxs⟩
  | .arr as, .arr bs, h => by
      have hbody : (renderItems as).tail ++ ']' :: xs = (renderItems bs).tail ++ ']' :: ys := by
        rw [render, render] at h
        simpa using (List.cons.inj h).2
      cases as with
      | nil =>
          cases bs with
          | nil => exact ⟨rfl, (List.cons.inj hbody).2⟩
          | cons b bs =>
              have hstart : ']' :: xs = render b ++ (renderItems bs ++ ']' :: ys) := by
                simpa [renderItems] using hbody
              exact absurd hstart.symm (render_ne_cons (by decide))
      | cons a as =>
          cases bs with
          | nil =>
              have hstart : render a ++ (renderItems as ++ ']' :: xs) = ']' :: ys := by
                simpa [renderItems] using hbody
              exact absurd hstart (render_ne_cons (by decide))
          | cons b bs =>
              have hitems : renderItems (a :: as) ++ ']' :: xs
                  = renderItems (b :: bs) ++ ']' :: ys := by
                rw [renderItems, renderItems]
                exact congrArg (List.cons ',') hbody
              obtain ⟨hab, hxs⟩ := renderItems_append_inj (a :: as) (b :: bs) hitems
              exact ⟨congrArg Json.arr hab, hxs⟩
  | .obj as, .obj bs, h => by
      have hbody : (renderFields as).tail ++ '}' :: xs
          = (renderFields bs).tail ++ '}' :: ys := by
        rw [render, render] at h
        simpa using (List.cons.inj h).2
      have hquote : ∀ (k : List Char) (us vs : List Char), renderString k ++ us ≠ '}' :: vs := by
        intro k us vs heq
        exact absurd (List.cons.inj heq).1 (by decide)
      cases as with
      | nil =>
          cases bs with
          | nil => exact ⟨rfl, (List.cons.inj hbody).2⟩
          | cons b bs =>
              have hstart : '}' :: xs = renderString b.1.toList ++
                  (':' :: (render b.2 ++ (renderFields bs ++ '}' :: ys))) := by
                simpa [renderFields] using hbody
              exact absurd hstart.symm (hquote _ _ _)
      | cons a as =>
          cases bs with
          | nil =>
              have hstart : renderString a.1.toList ++
                  (':' :: (render a.2 ++ (renderFields as ++ '}' :: xs))) = '}' :: ys := by
                simpa [renderFields] using hbody
              exact absurd hstart (hquote _ _ _)
          | cons b bs =>
              have hfields : renderFields (a :: as) ++ '}' :: xs
                  = renderFields (b :: bs) ++ '}' :: ys := by
                rw [renderFields, renderFields]
                exact congrArg (List.cons ',') hbody
              obtain ⟨hab, hxs⟩ := renderFields_append_inj (a :: as) (b :: bs) hfields
              exact ⟨congrArg Json.obj hab, hxs⟩
  | .num _, .str _, h | .num _, .arr _, h | .num _, .obj _, h
  | .str _, .num _, h | .str _, .arr _, h | .str _, .obj _, h
  | .arr _, .num _, h | .arr _, .str _, h | .arr _, .obj _, h
  | .obj _, .num _, h | .obj _, .str _, h | .obj _, .arr _, h => by
      exact absurd (kind_eq h) (by simp [kind])

theorem renderItems_append_inj {xs ys : List Char} : ∀ as bs : List Json,
    renderItems as ++ ']' :: xs = renderItems bs ++ ']' :: ys → as = bs ∧ xs = ys
  | [], [], h => ⟨rfl, (List.cons.inj h).2⟩
  | [], b :: bs, h => by
      rw [renderItems, renderItems] at h
      exact absurd (List.cons.inj h).1 (by decide)
  | a :: as, [], h => by
      rw [renderItems, renderItems] at h
      exact absurd (List.cons.inj h).1 (by decide)
  | a :: as, b :: bs, h => by
      rw [renderItems, renderItems, List.cons_append, List.cons_append, List.append_assoc,
        List.append_assoc] at h
      have hends : ∀ (cs : List Json) (zs : List Char), Ends (renderItems cs ++ ']' :: zs) := by
        intro cs zs
        cases cs with
        | nil => exact ends_cons (by decide)
        | cons c cs =>
            rw [renderItems]
            exact ends_cons (by decide)
      obtain ⟨rfl, hrest⟩ := render_append_inj (hends as xs) (hends bs ys) a b (List.cons.inj h).2
      obtain ⟨rfl, hxs⟩ := renderItems_append_inj as bs hrest
      exact ⟨rfl, hxs⟩

theorem renderFields_append_inj {xs ys : List Char} : ∀ as bs : List (String × Json),
    renderFields as ++ '}' :: xs = renderFields bs ++ '}' :: ys → as = bs ∧ xs = ys
  | [], [], h => ⟨rfl, (List.cons.inj h).2⟩
  | [], (_, _) :: bs, h => by
      rw [renderFields, renderFields] at h
      exact absurd (List.cons.inj h).1 (by decide)
  | (_, _) :: as, [], h => by
      rw [renderFields, renderFields] at h
      exact absurd (List.cons.inj h).1 (by decide)
  | (k, a) :: as, (l, b) :: bs, h => by
      rw [renderFields, renderFields, List.cons_append, List.cons_append, List.append_assoc,
        List.append_assoc, List.cons_append, List.cons_append, List.append_assoc,
        List.append_assoc] at h
      have hends : ∀ (cs : List (String × Json)) (zs : List Char),
          Ends (renderFields cs ++ '}' :: zs) := by
        intro cs zs
        cases cs with
        | nil => exact ends_cons (by decide)
        | cons c cs =>
            rw [renderFields]
            exact ends_cons (by decide)
      obtain ⟨hkl, hvalue⟩ := renderString_append_inj (List.cons.inj h).2
      obtain rfl := String.toList_inj.mp hkl
      obtain ⟨rfl, hrest⟩ :=
        render_append_inj (hends as xs) (hends bs ys) a b (List.cons.inj hvalue).2
      obtain ⟨rfl, hxs⟩ := renderFields_append_inj as bs hrest
      exact ⟨rfl, hxs⟩

end

/-- Values with the same rendering are equal. -/
theorem render_injective : Function.Injective render := by
  intro a b h
  have happend : render a ++ [] = render b ++ [] := by rw [h]
  exact (render_append_inj ends_nil ends_nil a b happend).1

/-! ## Renderings have no control characters -/

def Printable (xs : List Char) : Prop := ∀ c ∈ xs, 32 ≤ c.toNat

instance (xs : List Char) : Decidable (Printable xs) := List.decidableBAll _ _

theorem printable_nil : Printable [] := by simp [Printable]

theorem printable_cons {c : Char} {xs : List Char} :
    Printable (c :: xs) ↔ 32 ≤ c.toNat ∧ Printable xs := by simp [Printable]

theorem printable_append {xs ys : List Char} :
    Printable (xs ++ ys) ↔ Printable xs ∧ Printable ys := List.forall_mem_append

theorem Printable.tail {xs : List Char} (h : Printable xs) : Printable xs.tail :=
  fun c hc => h c (List.mem_of_mem_tail hc)

theorem digitChar_printable {n : Nat} (h : n < 16) : 32 ≤ (Nat.digitChar n).toNat := by
  interval_cases n <;> decide

theorem escape_printable (c : Char) : Printable (escape c) := by
  have hhigh : c.toNat < 32 → 32 ≤ (Nat.digitChar (c.toNat / 16)).toNat :=
    fun hc => digitChar_printable (by omega)
  have hlow : 32 ≤ (Nat.digitChar (c.toNat % 16)).toNat := digitChar_printable (by omega)
  have hback : 32 ≤ backslash.toNat := by decide
  have hquote : 32 ≤ quoteMark.toNat := by decide
  unfold escape
  split_ifs with _ _ _ _ _ _ _ hcontrol
  · simp [printable_cons, printable_nil, hback, hquote]
  · simp [printable_cons, printable_nil, hback]
  · simp [printable_cons, printable_nil, hback]
  · simp [printable_cons, printable_nil, hback]
  · simp [printable_cons, printable_nil, hback]
  · simp [printable_cons, printable_nil, hback]
  · simp [printable_cons, printable_nil, hback]
  · simp [printable_cons, printable_nil, hback, hhigh hcontrol, hlow]
  · simpa [printable_cons, printable_nil] using hcontrol

theorem renderString_printable (s : List Char) : Printable (renderString s) := by
  have hquote : 32 ≤ quoteMark.toNat := by decide
  have hbody : Printable (s.flatMap escape) := by
    intro c hc
    obtain ⟨d, _, hd⟩ := List.mem_flatMap.mp hc
    exact escape_printable d c hd
  unfold renderString
  rw [printable_cons, printable_append, printable_cons]
  exact ⟨hquote, hbody, hquote, printable_nil⟩

mutual

theorem render_printable : ∀ j : Json, Printable (render j)
  | .num n => by
      rw [render]
      intro c hc
      have hdigit : c.isDigit = true := Nat.isDigit_of_mem_toDigits (by omega) (by omega) hc
      have hbound : 48 ≤ c.toNat := by
        rw [Char.isDigit, Bool.and_eq_true, decide_eq_true_eq] at hdigit
        exact hdigit.1
      omega
  | .str s => by
      rw [render]
      exact renderString_printable s.toList
  | .arr items => by
      rw [render, printable_cons, printable_append]
      exact ⟨by decide, (renderItems_printable items).tail,
        printable_cons.mpr ⟨by decide, printable_nil⟩⟩
  | .obj fields => by
      rw [render, printable_cons, printable_append]
      exact ⟨by decide, (renderFields_printable fields).tail,
        printable_cons.mpr ⟨by decide, printable_nil⟩⟩

theorem renderItems_printable : ∀ items : List Json, Printable (renderItems items)
  | [] => printable_nil
  | item :: items => by
      rw [renderItems, printable_cons, printable_append]
      exact ⟨by decide, render_printable item, renderItems_printable items⟩

theorem renderFields_printable : ∀ fields : List (String × Json), Printable (renderFields fields)
  | [] => printable_nil
  | (key, value) :: fields => by
      rw [renderFields, printable_cons, printable_append, printable_cons, printable_append]
      exact ⟨by decide, renderString_printable key.toList, by decide, render_printable value,
        renderFields_printable fields⟩

end

end Json

end StellarAgent.Lib
