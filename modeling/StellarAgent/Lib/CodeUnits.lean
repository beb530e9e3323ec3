import Mathlib.Tactic

set_option autoImplicit false

/-! # UTF-16 code units

A character below `0x10000` is one code unit, another one is a pair of surrogates. No character is a
surrogate itself, so texts with the same code units are the same (`flatMap_codeUnits_injective`).
-/

namespace StellarAgent.Lib

/-- The UTF-16 code units of a character -/
def codeUnits (c : Char) : List ℕ :=
  if c.toNat < 0x10000 then [c.toNat]
  else [0xD800 + (c.toNat - 0x10000) / 0x400, 0xDC00 + (c.toNat - 0x10000) % 0x400]

theorem toNat_not_surrogate (c : Char) : c.toNat < 0xD800 ∨ 0xDFFF < c.toNat := by
  rcases c.valid with h | ⟨h, -⟩
  · exact Or.inl h
  · exact Or.inr h

theorem toNat_lt_max (c : Char) : c.toNat < 0x110000 := by
  rcases c.valid with h | ⟨-, h⟩
  · exact lt_trans h (by norm_num)
  · exact h

/-- Units are read back, one character at a time. -/
theorem codeUnits_append_inj {c d : Char} {xs ys : List ℕ}
    (h : codeUnits c ++ xs = codeUnits d ++ ys) : c = d ∧ xs = ys := by
  have hc := toNat_not_surrogate c
  have hd := toNat_not_surrogate d
  have hc_max := toNat_lt_max c
  have hd_max := toNat_lt_max d
  unfold codeUnits at h
  by_cases hcs : c.toNat < 0x10000
  · by_cases hds : d.toNat < 0x10000
    · rw [if_pos hcs, if_pos hds] at h
      obtain ⟨hunit, hrest⟩ := List.cons.inj h
      exact ⟨Char.toNat_inj.mp hunit, hrest⟩
    · rw [if_pos hcs, if_neg hds] at h
      have hunit := (List.cons.inj h).1
      omega
  · by_cases hds : d.toNat < 0x10000
    · rw [if_neg hcs, if_pos hds] at h
      have hunit := (List.cons.inj h).1
      omega
    · rw [if_neg hcs, if_neg hds] at h
      obtain ⟨hhigh, htail⟩ := List.cons.inj h
      obtain ⟨hlow, hrest⟩ := List.cons.inj htail
      exact ⟨Char.toNat_inj.mp (by omega), hrest⟩

theorem codeUnits_ne_nil (c : Char) : codeUnits c ≠ [] := by
  unfold codeUnits
  split_ifs <;> exact List.cons_ne_nil _ _

theorem flatMap_codeUnits_injective :
    Function.Injective fun text : List Char => text.flatMap codeUnits := by
  intro text
  induction text with
  | nil =>
      intro other h
      cases other with
      | nil => rfl
      | cons d other =>
          have hempty : codeUnits d ++ other.flatMap codeUnits = [] := h.symm
          exact absurd (List.append_eq_nil_iff.mp hempty).1 (codeUnits_ne_nil d)
  | cons c text ih =>
      intro other h
      cases other with
      | nil =>
          have hempty : codeUnits c ++ text.flatMap codeUnits = [] := h
          exact absurd (List.append_eq_nil_iff.mp hempty).1 (codeUnits_ne_nil c)
      | cons d other =>
          obtain ⟨rfl, hrest⟩ := codeUnits_append_inj (c := c) (d := d) h
          rw [ih hrest]

end StellarAgent.Lib
