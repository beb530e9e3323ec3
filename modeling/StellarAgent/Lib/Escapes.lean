import Mathlib.Tactic

set_option autoImplicit false

/-! # Escaping with a mark

A text is escaped symbol by symbol: symbols that are kept stand for themselves, another is written
as its bytes, each a mark and two digits. If the mark is itself kept, a text of kept symbols may
read like an escape. `escape_inj_iff` says over which alphabets escaping is still injective: those
that lack, for each symbol that is not kept, some symbol of its code.
-/

namespace StellarAgent.Lib

/-- Marked escapes: the bytes of a symbol start with a leading one, and no symbol's bytes begin
another's. -/
structure Escaping (A B : Type*) where
  mark : A
  keep : A → Bool
  high : B → A
  low : B → A
  bytes : A → List B
  isLead : B → Prop
  keep_mark : keep mark = true
  keep_high : ∀ b, keep (high b) = true
  keep_low : ∀ b, keep (low b) = true
  high_ne_mark : ∀ b, high b ≠ mark
  low_ne_mark : ∀ b, low b ≠ mark
  digits_inj : ∀ b b', high b = high b' → low b = low b' → b = b'
  lead : ∀ a, ∃ b rest, bytes a = b :: rest ∧ isLead b ∧ ∀ b' ∈ rest, ¬ isLead b'
  bytes_inj : ∀ a a', (bytes a).IsPrefix (bytes a') → a = a'

namespace Escaping

variable {A B : Type*} (E : Escaping A B)

/-- A byte as a mark and two digits -/
def marked (b : B) : List A := [E.mark, E.high b, E.low b]

def code (a : A) : List A := if E.keep a then [a] else (E.bytes a).flatMap E.marked

def escape (text : List A) : List A := text.flatMap E.code

variable {E} {a : A} {s t rest : List A}

/-! ## Codes -/

theorem code_of_keep (h : E.keep a = true) : E.code a = [a] := if_pos h

theorem code_of_not_keep (h : E.keep a = false) : E.code a = (E.bytes a).flatMap E.marked :=
  if_neg (by rw [h]; decide)

theorem escape_cons : E.escape (a :: s) = E.code a ++ E.escape s := List.flatMap_cons

/-- A code that is not the symbol itself starts with the mark. -/
theorem code_head (h : E.keep a = false) :
    ∃ b tail, E.bytes a = b :: tail ∧
      E.code a = E.mark :: E.high b :: E.low b :: tail.flatMap E.marked := by
  obtain ⟨b, tail, heq, -⟩ := E.lead a
  refine ⟨b, tail, heq, ?_⟩
  rw [code_of_not_keep h, heq]
  rfl

/-- Every symbol of a code is kept. -/
theorem keep_of_mem_code {x : A} (h : x ∈ E.code a) : E.keep x = true := by
  by_cases hkeep : E.keep a = true
  · rw [code_of_keep hkeep, List.mem_singleton] at h
    rw [h, hkeep]
  · rw [code_of_not_keep (Bool.not_eq_true _ ▸ hkeep), List.mem_flatMap] at h
    obtain ⟨b, -, hx⟩ := h
    simp only [marked, List.mem_cons, List.not_mem_nil, or_false] at hx
    rcases hx with rfl | rfl | rfl
    · exact E.keep_mark
    · exact E.keep_high b
    · exact E.keep_low b

theorem escape_of_keep (h : ∀ x ∈ s, E.keep x = true) : E.escape s = s := by
  induction s with
  | nil => rfl
  | cons x s ih =>
      rw [escape_cons, code_of_keep (h x List.mem_cons_self),
        ih fun y hy => h y (List.mem_cons_of_mem x hy)]
      rfl

/-! ## Reading an escaped text -/

/-- What is not a mark stands for itself. -/
theorem escape_literal {x : A} (hx : x ≠ E.mark) (h : E.escape s = x :: rest) :
    ∃ s', s = x :: s' ∧ E.escape s' = rest := by
  cases s with
  | nil => cases h
  | cons a s =>
      rw [escape_cons] at h
      by_cases hkeep : E.keep a = true
      · rw [code_of_keep hkeep, List.singleton_append] at h
        obtain ⟨rfl, hrest⟩ := List.cons.inj h
        exact ⟨s, rfl, hrest⟩
      · obtain ⟨b, tail, -, hcode⟩ := code_head (Bool.not_eq_true _ ▸ hkeep)
        rw [hcode] at h
        exact absurd (List.cons.inj h).1.symm hx

/-- Bytes that do not lead are read as literal symbols. -/
theorem escape_tail {tail : List B} (htail : ∀ b ∈ tail, ¬ E.isLead b)
    (h : E.escape s = tail.flatMap E.marked ++ rest) :
    ∀ x ∈ tail.flatMap E.marked, x ∈ s := by
  induction tail generalizing s with
  | nil =>
      intro x hx
      cases hx
  | cons b tail ih =>
      have h : E.escape s =
          E.mark :: E.high b :: E.low b :: (tail.flatMap E.marked ++ rest) := h
      cases s with
      | nil => cases h
      | cons a s =>
          rw [escape_cons] at h
          by_cases hkeep : E.keep a = true
          · rw [code_of_keep hkeep, List.singleton_append] at h
            obtain ⟨rfl, hmark⟩ := List.cons.inj h
            obtain ⟨s₁, rfl, hhigh⟩ := escape_literal (E.high_ne_mark b) hmark
            obtain ⟨s₂, rfl, hlow⟩ := escape_literal (E.low_ne_mark b) hhigh
            have hrest := ih (fun b' hb' => htail b' (List.mem_cons_of_mem b hb')) hlow
            intro x hx
            rw [List.flatMap_cons, List.mem_append] at hx
            rcases hx with hx | hx
            · simp only [marked, List.mem_cons, List.not_mem_nil, or_false] at hx
              rcases hx with rfl | rfl | rfl <;> simp
            · simp [hrest x hx]
          · -- an escape here would start with a byte that does not lead
            obtain ⟨b₁, tail₁, hbytes, hcode⟩ := code_head (Bool.not_eq_true _ ▸ hkeep)
            rw [hcode] at h
            simp only [List.cons_append, List.cons.injEq, true_and] at h
            have heq := E.digits_inj b₁ b h.1 h.2.1
            obtain ⟨b₂, tail₂, hbytes₂, hlead, -⟩ := E.lead a
            rw [hbytes] at hbytes₂
            obtain rfl := (List.cons.inj hbytes₂).1
            exact absurd hlead (heq ▸ htail b List.mem_cons_self)

/-- Marked bytes are read back as far as both go. -/
theorem marked_prefix {xs ys : List B} {u v : List A}
    (h : xs.flatMap E.marked ++ u = ys.flatMap E.marked ++ v) :
    xs.IsPrefix ys ∨ ys.IsPrefix xs := by
  induction xs generalizing ys with
  | nil => exact Or.inl List.nil_prefix
  | cons x xs ih =>
      cases ys with
      | nil => exact Or.inr List.nil_prefix
      | cons y ys =>
          have h : E.mark :: E.high x :: E.low x :: (xs.flatMap E.marked ++ u) =
              E.mark :: E.high y :: E.low y :: (ys.flatMap E.marked ++ v) := h
          simp only [List.cons.injEq, true_and] at h
          obtain ⟨hhigh, hlow, hrest⟩ := h
          obtain rfl := E.digits_inj x y hhigh hlow
          exact (ih hrest).imp (fun hp => (List.prefix_cons_inj x).mpr hp)
            fun hp => (List.prefix_cons_inj x).mpr hp

/-- A mark that stands for itself where the other text has an escape: the text spells it. -/
theorem spelled {d : A} (hkept : E.keep a = true) (hescaped : E.keep d = false)
    (h : E.escape (a :: s) = E.escape (d :: t)) : ∀ x ∈ E.code d, x ∈ a :: s := by
  obtain ⟨b, tail, hbytes, hcode⟩ := code_head hescaped
  obtain ⟨b', tail', hbytes', -, htail⟩ := E.lead d
  rw [hbytes] at hbytes'
  obtain ⟨rfl, rfl⟩ := List.cons.inj hbytes'
  rw [escape_cons, escape_cons, code_of_keep hkept, hcode] at h
  simp only [List.cons_append, List.nil_append, List.cons.injEq] at h
  obtain ⟨rfl, hmark⟩ := h
  obtain ⟨s₁, rfl, hhigh⟩ := escape_literal (E.high_ne_mark b) hmark
  obtain ⟨s₂, rfl, hlow⟩ := escape_literal (E.low_ne_mark b) hhigh
  have hrest := escape_tail htail hlow
  intro x hx
  rw [hcode] at hx
  simp only [List.mem_cons] at hx
  rcases hx with rfl | rfl | rfl | hx
  · simp
  · simp
  · simp
  · simp [hrest x hx]

/-! ## Injectivity -/

/-- An alphabet in which no escape can be spelled -/
def Spells (E : Escaping A B) (C : Set A) : Prop :=
  ∃ c ∈ C, E.keep c = false ∧ ∀ x ∈ E.code c, x ∈ C

theorem escape_inj {C : Set A} (hC : ¬ E.Spells C) (hs : ∀ x ∈ s, x ∈ C) (ht : ∀ x ∈ t, x ∈ C)
    (h : E.escape s = E.escape t) : s = t := by
  have hnonempty : ∀ a, E.code a ≠ [] := by
    intro a hnil
    by_cases hkeep : E.keep a = true
    · rw [code_of_keep hkeep] at hnil
      cases hnil
    · obtain ⟨b, tail, -, hcode⟩ := code_head (Bool.not_eq_true _ ▸ hkeep)
      rw [hcode] at hnil
      cases hnil
  induction s generalizing t with
  | nil =>
      cases t with
      | nil => rfl
      | cons d t => exact absurd (List.append_eq_nil_iff.mp h.symm).1 (hnonempty d)
  | cons a s ih =>
      cases t with
      | nil => exact absurd (List.append_eq_nil_iff.mp h).1 (hnonempty a)
      | cons d t =>
          have ih := fun {t : List A} ht => ih (t := t) (fun x hx => hs x
            (List.mem_cons_of_mem a hx)) ht
          have ht' := fun x hx => ht x (List.mem_cons_of_mem d hx)
          cases ha : E.keep a with
          | true =>
              cases hd : E.keep d with
              | true =>
                  rw [escape_cons, escape_cons, code_of_keep ha, code_of_keep hd] at h
                  obtain ⟨rfl, hrest⟩ := List.cons.inj h
                  rw [ih ht' hrest]
              | false =>
                  refine absurd ⟨d, ht d List.mem_cons_self, hd, fun x hx => ?_⟩ hC
                  exact hs x (spelled ha hd h x hx)
          | false =>
              cases hd : E.keep d with
              | true =>
                  refine absurd ⟨a, hs a List.mem_cons_self, ha, fun x hx => ?_⟩ hC
                  exact ht x (spelled hd ha h.symm x hx)
              | false =>
                  rw [escape_cons, escape_cons] at h
                  have hbytes : a = d := by
                    rw [code_of_not_keep ha, code_of_not_keep hd] at h
                    rcases marked_prefix h with hp | hp
                    · exact E.bytes_inj a d hp
                    · exact (E.bytes_inj d a hp).symm
                  subst hbytes
                  rw [ih ht' (List.append_cancel_left h)]

/-- The code of a symbol, spelled out, is escaped to itself. -/
theorem escape_code : E.escape (E.code a) = E.code a :=
  escape_of_keep fun _ hx => keep_of_mem_code hx

/-- **Escaping is injective exactly over the alphabets in which no escape can be spelled.** -/
theorem escape_inj_iff (C : Set A) :
    (∀ s t : List A, (∀ x ∈ s, x ∈ C) → (∀ x ∈ t, x ∈ C) → E.escape s = E.escape t → s = t) ↔
      ¬ E.Spells C := by
  refine ⟨fun h hspells => ?_, fun hC s t => escape_inj hC⟩
  obtain ⟨c, hc, hkeep, hcode⟩ := hspells
  have heq := h [c] (E.code c) (fun x hx => List.mem_singleton.mp hx ▸ hc) hcode (by
    rw [escape_code, escape_cons]
    exact List.append_nil _)
  -- what is not kept does not spell itself
  have hkept : E.keep c = true := keep_of_mem_code (heq ▸ List.mem_singleton_self c)
  rw [hkeep] at hkept
  cases hkept

end Escaping

end StellarAgent.Lib
