import Mathlib.Order.Lex
import Mathlib.Data.List.Lex
import Mathlib.Tactic

set_option autoImplicit false

/-! # Texts ordered by their bytes

`compareUtf8` of `packages/core/src/routing/discovery.ts` and the `binaryCompare` of
`packages/core/src/math/routing.ts`, which has the same body: two texts are compared by their UTF-8
bytes, as the lexicographic order does (`compareUtf8_le_iff`). Different texts have different bytes
(`utf8_inj`), so no two of them are equivalent.
-/

namespace StellarAgent.Routing

/-- `new TextEncoder().encode(text)` -/
def utf8 (text : String) : List ℕ :=
  (text.toList.flatMap String.utf8EncodeChar).map UInt8.toNat

/-- The loop over the bytes, and the comparison of the lengths after it -/
def compareBytes : List ℕ → List ℕ → Ordering
  | left :: lefts, right :: rights =>
      if left ≠ right then (if left < right then .lt else .gt) else compareBytes lefts rights
  | [], _ :: _ => .lt
  | _, [] => .gt

def compareUtf8 (a b : String) : Ordering :=
  if a = b then .eq else compareBytes (utf8 a) (utf8 b)

def binaryCompare (a b : String) : Ordering := compareUtf8 a b

theorem utf8_inj {a b : String} (h : utf8 a = utf8 b) : a = b := by
  have hbytes : a.toList.flatMap String.utf8EncodeChar = b.toList.flatMap String.utf8EncodeChar :=
    List.map_injective_iff.mpr (fun x y hxy => UInt8.toNat_inj.mp hxy) h
  have hencode : a.toList.utf8Encode = b.toList.utf8Encode := congrArg List.toByteArray hbytes
  rw [String.utf8Encode_toList, String.utf8Encode_toList] at hencode
  exact String.toByteArray_inj.mp hencode

theorem compareBytes_lt {left right : List ℕ} : compareBytes left right = .lt ↔ left < right := by
  induction left generalizing right with
  | nil =>
      cases right with
      | nil => simp [compareBytes]
      | cons r right => simp [compareBytes]
  | cons l left ih =>
      cases right with
      | nil => simp [compareBytes]
      | cons r right =>
          rw [compareBytes, List.cons_lt_cons_iff, ← ih]
          by_cases h : l = r
          · simp [h]
          · by_cases hlt : l < r <;> simp [h, hlt]

/-- The loop never finds two lists equal: that is decided before it. -/
theorem compareBytes_ne_eq (left right : List ℕ) : compareBytes left right ≠ .eq := by
  induction left generalizing right with
  | nil => cases right <;> simp [compareBytes]
  | cons l left ih =>
      cases right with
      | nil => simp [compareBytes]
      | cons r right =>
          rw [compareBytes]
          split_ifs
          · simp
          · simp
          · exact ih right

/-- **Texts are compared by their bytes.** -/
theorem compareUtf8_le_iff {a b : String} : compareUtf8 a b ≠ .gt ↔ utf8 a ≤ utf8 b := by
  unfold compareUtf8
  by_cases h : a = b
  · simp [h]
  · rw [if_neg h]
    have hne : utf8 a ≠ utf8 b := fun heq => h (utf8_inj heq)
    rw [le_iff_lt_or_eq, or_iff_left hne, ← compareBytes_lt]
    cases hcompare : compareBytes (utf8 a) (utf8 b) with
    | lt => simp
    | eq => exact absurd hcompare (compareBytes_ne_eq _ _)
    | gt => simp

end StellarAgent.Routing
