import Mathlib.Tactic

set_option autoImplicit false

/-! # Fixed-width big-endian integers

`toBE w n` is the `w`-byte big-endian encoding of `n` modulo `256 ^ w`. The width is fixed, so
a concatenation of such fields can be cut apart again (`List.append_inj`), and within the range of
the width the encoding is injective. `fromBE` reads the number back, whatever the width is.
`intToBE w x` is the two's complement encoding of an integer.
-/

namespace StellarAgent.Lib

/-- The `w` low bytes of `n`, most significant first. -/
def toBE : Nat → Nat → List UInt8
  | 0, _ => []
  | w + 1, n => toBE w (n / 256) ++ [UInt8.ofNat (n % 256)]

@[simp] theorem toBE_length (w n : Nat) : (toBE w n).length = w := by
  induction w generalizing n with
  | zero => rfl
  | succ w ih => simp [toBE, ih]

/-- Equal encodings agree modulo the width. -/
theorem toBE_mod_eq (w : Nat) : ∀ {n m : Nat}, toBE w n = toBE w m → n % 256 ^ w = m % 256 ^ w := by
  induction w with
  | zero => intro n m _; simp [Nat.mod_one]
  | succ w ih =>
      intro n m h
      obtain ⟨hhi, hlo⟩ := List.append_inj' h rfl
      have hhigh : n / 256 % 256 ^ w = m / 256 % 256 ^ w := ih hhi
      have hlow : n % 256 = m % 256 := by
        have hbyte := congrArg UInt8.toNat (List.singleton_inj.mp hlo)
        simpa using hbyte
      rw [Nat.pow_succ, Nat.mul_comm, Nat.mod_mul, Nat.mod_mul, hhigh, hlow]

/-- Below `256 ^ w` the encoding is injective. -/
theorem toBE_inj {w n m : Nat} (hn : n < 256 ^ w) (hm : m < 256 ^ w) (h : toBE w n = toBE w m) :
    n = m := by
  have := toBE_mod_eq w h
  rwa [Nat.mod_eq_of_lt hn, Nat.mod_eq_of_lt hm] at this

/-- The most significant byte comes first. -/
theorem toBE_succ (w n : Nat) :
    toBE (w + 1) n = UInt8.ofNat (n / 256 ^ w % 256) :: toBE w n := by
  induction w generalizing n with
  | zero => simp [toBE]
  | succ w ih =>
      have hdiv : n / 256 / 256 ^ w = n / 256 ^ (w + 1) := by
        rw [Nat.div_div_eq_div_mul, Nat.pow_succ, Nat.mul_comm]
      calc toBE (w + 1 + 1) n
          = toBE (w + 1) (n / 256) ++ [UInt8.ofNat (n % 256)] := rfl
        _ = UInt8.ofNat (n / 256 / 256 ^ w % 256) :: toBE (w + 1) n := by
            rw [ih (n / 256), List.cons_append, toBE]
        _ = UInt8.ofNat (n / 256 ^ (w + 1) % 256) :: toBE (w + 1) n := by rw [hdiv]

/-- The number that big-endian bytes stand for. -/
def fromBE (bytes : List UInt8) : Nat := bytes.foldl (fun n byte => 256 * n + byte.toNat) 0

theorem fromBE_append_byte (bytes : List UInt8) (byte : UInt8) :
    fromBE (bytes ++ [byte]) = 256 * fromBE bytes + byte.toNat := by
  rw [fromBE, List.foldl_append, ← fromBE]
  rfl

/-- Reading an encoding back gives the number modulo the width. -/
theorem fromBE_toBE (w n : Nat) : fromBE (toBE w n) = n % 256 ^ w := by
  induction w generalizing n with
  | zero => simp [toBE, fromBE, Nat.mod_one]
  | succ w ih =>
      have hbyte : (UInt8.ofNat (n % 256)).toNat = n % 256 := by simp
      rw [toBE, fromBE_append_byte, ih, hbyte, Nat.pow_succ, Nat.mul_comm (256 ^ w), Nat.mod_mul,
        Nat.add_comm]

/-- The `w`-byte two's complement encoding of `x`. -/
def intToBE (w : Nat) (x : Int) : List UInt8 := toBE w (x % (256 ^ w : Nat)).toNat

@[simp] theorem intToBE_length (w : Nat) (x : Int) : (intToBE w x).length = w := toBE_length _ _

theorem intToBE_emod_eq {w : Nat} {x y : Int} (h : intToBE w x = intToBE w y) :
    x % (256 ^ w : Nat) = y % (256 ^ w : Nat) := by
  have hpos : (0 : Int) < (256 ^ w : Nat) := by exact_mod_cast Nat.pow_pos (by norm_num)
  have hx := Int.emod_nonneg x hpos.ne'
  have hy := Int.emod_nonneg y hpos.ne'
  have hx' := Int.emod_lt_of_pos x hpos
  have hy' := Int.emod_lt_of_pos y hpos
  have := toBE_inj (by omega) (by omega) h
  omega

end StellarAgent.Lib
