import Mathlib.Tactic

set_option autoImplicit false

/-! # Byte offsets in a text

A text is a list of characters, `textBytes` are its UTF-8 bytes, and a byte offset can be cut at if
it lies between two characters (`splitAtByte`). An ASCII byte is a character of its own, so there is
a cut on both of its sides (`getElem?_ascii`).
-/

namespace StellarAgent.Lib

/-- The UTF-8 bytes of a text -/
def textBytes (cs : List Char) : List UInt8 := cs.flatMap String.utf8EncodeChar

/-- How many bytes a text has -/
def byteLength (cs : List Char) : ℕ := (cs.map Char.utf8Size).sum

@[simp] theorem byteLength_nil : byteLength [] = 0 := rfl

@[simp] theorem byteLength_cons (c : Char) (cs : List Char) :
    byteLength (c :: cs) = c.utf8Size + byteLength cs := rfl

@[simp] theorem byteLength_append (cs ds : List Char) :
    byteLength (cs ++ ds) = byteLength cs + byteLength ds := by
  simp [byteLength]

theorem length_textBytes (cs : List Char) : (textBytes cs).length = byteLength cs := by
  induction cs with
  | nil => rfl
  | cons c cs ih =>
      have hcons : textBytes (c :: cs) = String.utf8EncodeChar c ++ textBytes cs := rfl
      rw [hcons, List.length_append, String.length_utf8EncodeChar, ih, byteLength_cons]

/-- Cuts a text in front of byte `n`; there is no cut inside a character or behind the end. -/
def splitAtByte : List Char → ℕ → Option (List Char × List Char)
  | cs, 0 => some ([], cs)
  | [], _ + 1 => none
  | c :: cs, n + 1 =>
      if c.utf8Size ≤ n + 1 then
        (splitAtByte cs (n + 1 - c.utf8Size)).map fun (front, back) => (c :: front, back)
      else none

@[simp] theorem splitAtByte_zero (cs : List Char) : splitAtByte cs 0 = some ([], cs) := by
  cases cs <;> rfl

theorem splitAtByte_append (front back : List Char) :
    splitAtByte (front ++ back) (byteLength front) = some (front, back) := by
  induction front with
  | nil => exact splitAtByte_zero back
  | cons c front ih =>
      obtain ⟨n, hn⟩ : ∃ n, byteLength (c :: front) = n + 1 :=
        Nat.exists_eq_succ_of_ne_zero (by have := c.utf8Size_pos; simp; omega)
      have hrest : n + 1 - c.utf8Size = byteLength front := by
        rw [byteLength_cons] at hn
        omega
      have hle : c.utf8Size ≤ n + 1 := by
        rw [byteLength_cons] at hn
        omega
      rw [hn, List.cons_append, splitAtByte, if_pos hle, hrest, ih]
      rfl

theorem splitAtByte_eq_some {cs front back : List Char} {n : ℕ}
    (h : splitAtByte cs n = some (front, back)) : cs = front ++ back ∧ byteLength front = n := by
  induction cs generalizing n front with
  | nil =>
      cases n with
      | zero =>
          cases h
          exact ⟨rfl, rfl⟩
      | succ n => cases h
  | cons c cs ih =>
      cases n with
      | zero =>
          rw [splitAtByte_zero] at h
          cases h
          exact ⟨rfl, rfl⟩
      | succ n =>
          rw [splitAtByte] at h
          split_ifs at h with hle
          obtain ⟨⟨first, rest⟩, hsplit, heq⟩ := Option.map_eq_some_iff.mp h
          cases heq
          obtain ⟨rfl, hlen⟩ := ih hsplit
          refine ⟨rfl, ?_⟩
          rw [byteLength_cons, hlen]
          omega

/-- A cut behind a front is a cut in the rest. -/
theorem splitAtByte_add (front rest : List Char) (n : ℕ) :
    splitAtByte (front ++ rest) (byteLength front + n) =
      (splitAtByte rest n).map fun (first, back) => (front ++ first, back) := by
  cases hcut : splitAtByte rest n with
  | some parts =>
      obtain ⟨first, back⟩ := parts
      obtain ⟨rfl, rfl⟩ := splitAtByte_eq_some hcut
      rw [← byteLength_append, ← List.append_assoc, splitAtByte_append]
      rfl
  | none =>
      cases hall : splitAtByte (front ++ rest) (byteLength front + n) with
      | none => rfl
      | some parts =>
          obtain ⟨first, back⟩ := parts
          obtain ⟨heq, hlen⟩ := splitAtByte_eq_some hall
          -- a cut of the whole behind the front gives a cut of the rest
          rcases List.append_eq_append_iff.mp heq with ⟨more, rfl, rfl⟩ | ⟨more, rfl, rfl⟩
          · rw [byteLength_append] at hlen
            have hmore : byteLength more = n := by omega
            rw [← hmore, splitAtByte_append] at hcut
            cases hcut
          · rw [byteLength_append] at hlen
            have hnone : more = [] := by
              cases more with
              | nil => rfl
              | cons c more =>
                  have := c.utf8Size_pos
                  rw [byteLength_cons] at hlen
                  omega
            subst hnone
            have hzero : n = 0 := by
              rw [byteLength_nil] at hlen
              omega
            rw [hzero, splitAtByte_zero] at hcut
            cases hcut

/-! ## ASCII -/

theorem ascii_size {c : Char} (hc : c.toNat < 128) : c.utf8Size = 1 := by
  have hle : c.val ≤ 0x7f := by
    show c.val.toNat ≤ 127
    have : c.toNat = c.val.toNat := rfl
    omega
  simp [Char.utf8Size, hle]

theorem ascii_bytes {c : Char} (hc : c.toNat < 128) :
    String.utf8EncodeChar c = [c.val.toUInt8] :=
  String.utf8EncodeChar_eq_singleton (ascii_size hc)

theorem byteLength_ascii {cs : List Char} (h : ∀ c ∈ cs, c.toNat < 128) :
    byteLength cs = cs.length := by
  induction cs with
  | nil => rfl
  | cons c cs ih =>
      rw [byteLength_cons, ascii_size (h c List.mem_cons_self), List.length_cons,
        ih fun d hd => h d (List.mem_cons_of_mem _ hd), Nat.add_comm]

theorem ascii_toNat {c : Char} (hc : c.toNat < 128) : c.val.toUInt8.toNat = c.toNat := by
  rw [UInt32.toNat_toUInt8]
  exact Nat.mod_eq_of_lt (show c.toNat < 256 by omega)

/-- The bytes of a character that is not ASCII have their highest bit set. -/
theorem high_bit {c : Char} (h : c.utf8Size ≠ 1) :
    ∀ byte ∈ String.utf8EncodeChar c, 128 ≤ byte.toNat := by
  have hset : ∀ mask flag : UInt8, 128 ≤ flag.toNat → ∀ byte : UInt8,
      128 ≤ (byte &&& mask ||| flag).toNat := by
    intro mask flag hflag byte
    rw [UInt8.toNat_or]
    exact hflag.trans Nat.right_le_or
  rcases c.utf8Size_eq with hc | hc | hc | hc
  · exact absurd hc h
  · rw [String.utf8EncodeChar_eq_cons_cons hc]
    simp only [List.forall_mem_cons, List.not_mem_nil, false_implies, implies_true, and_true]
    exact ⟨hset _ _ (by decide) _, hset _ _ (by decide) _⟩
  · rw [String.utf8EncodeChar_eq_cons_cons_cons hc]
    simp only [List.forall_mem_cons, List.not_mem_nil, false_implies, implies_true, and_true]
    exact ⟨hset _ _ (by decide) _, hset _ _ (by decide) _, hset _ _ (by decide) _⟩
  · rw [String.utf8EncodeChar_eq_cons_cons_cons_cons hc]
    simp only [List.forall_mem_cons, List.not_mem_nil, false_implies, implies_true, and_true]
    exact ⟨hset _ _ (by decide) _, hset _ _ (by decide) _, hset _ _ (by decide) _,
      hset _ _ (by decide) _⟩

/-- A character with an ASCII byte in its encoding is that byte. -/
theorem char_of_ascii_byte {c d : Char} {n : ℕ} (hc : c.toNat < 128)
    (h : (String.utf8EncodeChar d)[n]? = some c.val.toUInt8) : n = 0 ∧ d = c := by
  have hsize : d.utf8Size = 1 := by
    by_contra hlarge
    have := high_bit hlarge _ (List.mem_of_getElem? h)
    rw [ascii_toNat hc] at this
    omega
  have hd : d.toNat < 128 := by
    have hle := Char.utf8Size_eq_one_iff.mp hsize
    have : d.toNat = d.val.toNat := rfl
    rw [UInt32.le_iff_toNat_le] at hle
    have hmax : (127 : UInt32).toNat = 127 := rfl
    omega
  rw [String.utf8EncodeChar_eq_singleton hsize] at h
  cases n with
  | succ n => cases h
  | zero =>
      have hbyte : d.val.toUInt8 = c.val.toUInt8 := Option.some.inj h
      have hnat := congrArg UInt8.toNat hbyte
      rw [ascii_toNat hc, ascii_toNat hd] at hnat
      exact ⟨rfl, Char.toNat_inj.mp hnat⟩

/-- An ASCII byte at an offset is an ASCII character there. -/
theorem getElem?_ascii {c : Char} (hc : c.toNat < 128) (cs : List Char) (n : ℕ) :
    (textBytes cs)[n]? = some c.val.toUInt8 ↔
      ∃ front back, cs = front ++ c :: back ∧ byteLength front = n := by
  constructor
  · intro h
    induction cs generalizing n with
    | nil => cases h
    | cons d cs ih =>
        have hcons : textBytes (d :: cs) = String.utf8EncodeChar d ++ textBytes cs := rfl
        rw [hcons, List.getElem?_append, String.length_utf8EncodeChar] at h
        split_ifs at h with hlt
        · obtain ⟨rfl, rfl⟩ := char_of_ascii_byte hc h
          exact ⟨[], cs, rfl, rfl⟩
        · obtain ⟨front, back, rfl, hlen⟩ := ih _ h
          refine ⟨d :: front, back, rfl, ?_⟩
          rw [byteLength_cons, hlen]
          omega
  · rintro ⟨front, back, rfl, rfl⟩
    have hsplit : textBytes (front ++ c :: back) =
        textBytes front ++ (String.utf8EncodeChar c ++ textBytes back) := by
      simp [textBytes]
    rw [hsplit, List.getElem?_append_right (by rw [length_textBytes]), length_textBytes,
      Nat.sub_self, ascii_bytes hc]
    rfl

/-- Behind an ASCII character the bytes are those of what follows. -/
theorem getElem?_behind {c : Char} (hc : c.toNat < 128) (front back : List Char) (n : ℕ) :
    (textBytes (front ++ c :: back))[byteLength front + 1 + n]? = (textBytes back)[n]? := by
  have hsplit : textBytes (front ++ c :: back) =
      textBytes front ++ (String.utf8EncodeChar c ++ textBytes back) := by
    simp [textBytes]
  rw [hsplit, List.getElem?_append_right (by rw [length_textBytes]; omega), length_textBytes,
    ascii_bytes hc, List.getElem?_append_right (by rw [List.length_singleton]; omega),
    List.length_singleton]
  congr 1
  omega

end StellarAgent.Lib
