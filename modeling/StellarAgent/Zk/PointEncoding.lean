import StellarAgent.Lib.BigEndian
import StellarAgent.Zk.Circuit

set_option autoImplicit false

/-! # Curve points as bytes

`zk/solvency_proof/src/soroban_encoding.rs`. A finite point is written as the big-endian bytes of
its coordinates, `c1` before `c0` in the quadratic extension, and the point at infinity as one flag
in the first byte. The field prime has 381 bits, so the three flag bits of a finite point's first
byte are free and the decoder never mistakes it for infinity.

The decoder ends in the curve library's checked constructor, which stops unless the point is on
the curve and in the subgroup of prime order. Whether a point of the curve is in that subgroup is
the library's part, so it is a parameter here. `points_read_back` says what the two functions do for
every point of the two curves: a point of the subgroup is read back as it was written, and for
another one the decoder stops (`cofactor_point_stops`).
-/

namespace StellarAgent.Zk

open Lib

/-! ## The fields -/

/-- The prime of the BLS12-381 base field. -/
def base_modulus : ℕ :=
  0x1a0111ea397fe69a4b1ba7b6434bacd764774b84f38512bf6730d2a0f6b0f6241eabfffeb153ffffb9feffffffffaaab

abbrev Fq := ZMod base_modulus

instance : NeZero base_modulus := ⟨by decide⟩

/-- The prime has 381 bits. -/
theorem base_modulus_lt : base_modulus < 0x20 * 256 ^ 47 := by decide

/-- An element `c0 + c1 u` of the quadratic extension, with `u² = -1`. -/
structure Fp2 where
  c0 : Fq
  c1 : Fq
  deriving DecidableEq

instance : Zero Fp2 := ⟨⟨0, 0⟩⟩
instance : Add Fp2 := ⟨fun a b => ⟨a.c0 + b.c0, a.c1 + b.c1⟩⟩
instance : Mul Fp2 := ⟨fun a b => ⟨a.c0 * b.c0 - a.c1 * b.c1, a.c0 * b.c1 + a.c1 * b.c0⟩⟩

/-! ## Points -/

/-- A point in affine coordinates, as the curve library keeps it. -/
structure Affine (F : Type) where
  x : F
  y : F
  infinity : Bool
  deriving DecidableEq

namespace Affine

variable {F : Type} [Zero F] [Add F] [Mul F]

def identity : Affine F where
  x := 0
  y := 0
  infinity := true

def finite (x y : F) : Affine F where
  x := x
  y := y
  infinity := false

/-- A point of the curve `y² = x³ + b`. -/
def OnCurve (b : F) (p : Affine F) : Prop :=
  p = identity ∨ p.infinity = false ∧ p.y * p.y = p.x * p.x * p.x + b

instance [DecidableEq F] (b : F) (p : Affine F) : Decidable (OnCurve b p) :=
  inferInstanceAs (Decidable (_ ∨ _ ∧ _))

/-- The checked constructor; `none` is a failed assertion. -/
def new [DecidableEq F] (b : F) (is_in_correct_subgroup : Affine F → Bool) (x y : F) :
    Option (Affine F) :=
  if y * y = x * x * x + b ∧ is_in_correct_subgroup (finite x y) then some (finite x y) else none

omit [Zero F] [Add F] [Mul F] in
theorem finite_eta {p : Affine F} (h : p.infinity = false) : finite p.x p.y = p := by
  cases p
  simp_all [finite]

/-- At the coordinates of a point of the curve, only the subgroup is left to check. -/
theorem new_of_onCurve [DecidableEq F] {b : F} {p : Affine F} (is_in_correct_subgroup)
    (hinf : p.infinity = false) (h : OnCurve b p) :
    new b is_in_correct_subgroup p.x p.y = if is_in_correct_subgroup p then some p else none := by
  have heq : p.y * p.y = p.x * p.x * p.x + b := by
    rcases h with rfl | ⟨-, h⟩
    · cases hinf
    · exact h
  rw [new, finite_eta hinf]
  simp [heq]

end Affine

abbrev G1Affine := Affine Fq
abbrev G2Affine := Affine Fp2

def g1_b : Fq := 4
def g2_b : Fp2 := ⟨4, 4⟩

/-! ## The code -/

def FP_SIZE : ℕ := 48
def FP2_SIZE : ℕ := FP_SIZE * 2
def G1_SIZE : ℕ := FP_SIZE * 2
def G2_SIZE : ℕ := FP2_SIZE * 2

def INFINITY_FLAG : UInt8 := 0x40

/-- The bytes of the canonical representative. -/
def fq_to_be_bytes (f : Fq) : List UInt8 := toBE FP_SIZE f.val

/-- `from_be_bytes_mod_order` -/
def fq_from_be_bytes (bytes : List UInt8) : Fq := (fromBE bytes : Fq)

/-- `bytes[start..stop]` -/
def slice (bytes : List UInt8) (start stop : ℕ) : List UInt8 := (bytes.drop start).take (stop - start)

/-- `out[start..start + src.len()].copy_from_slice(src)` -/
def copy_from_slice (out : List UInt8) (start : ℕ) (src : List UInt8) : List UInt8 :=
  out.take start ++ src ++ out.drop (start + src.length)

def infinity_bytes (size : ℕ) : List UInt8 := (List.replicate size 0).set 0 INFINITY_FLAG

def g1_to_soroban_bytes (p : G1Affine) : List UInt8 :=
  if p.infinity then infinity_bytes G1_SIZE
  else
    let out := List.replicate G1_SIZE 0
    let out := copy_from_slice out 0 (fq_to_be_bytes p.x)
    copy_from_slice out FP_SIZE (fq_to_be_bytes p.y)

def g1_from_soroban_bytes (is_in_correct_subgroup : G1Affine → Bool) (bytes : List UInt8) :
    Option G1Affine :=
  if bytes.getD 0 0 &&& INFINITY_FLAG ≠ 0 then some .identity
  else
    let x := fq_from_be_bytes (slice bytes 0 FP_SIZE)
    let y := fq_from_be_bytes (slice bytes FP_SIZE G1_SIZE)
    Affine.new g1_b is_in_correct_subgroup x y

def g2_to_soroban_bytes (p : G2Affine) : List UInt8 :=
  if p.infinity then infinity_bytes G2_SIZE
  else
    let out := List.replicate G2_SIZE 0
    let out := copy_from_slice out 0 (fq_to_be_bytes p.x.c1)
    let out := copy_from_slice out FP_SIZE (fq_to_be_bytes p.x.c0)
    let out := copy_from_slice out FP2_SIZE (fq_to_be_bytes p.y.c1)
    copy_from_slice out (FP2_SIZE + FP_SIZE) (fq_to_be_bytes p.y.c0)

def g2_from_soroban_bytes (is_in_correct_subgroup : G2Affine → Bool) (bytes : List UInt8) :
    Option G2Affine :=
  if bytes.getD 0 0 &&& INFINITY_FLAG ≠ 0 then some .identity
  else
    let x_c1 := fq_from_be_bytes (slice bytes 0 FP_SIZE)
    let x_c0 := fq_from_be_bytes (slice bytes FP_SIZE FP2_SIZE)
    let y_c1 := fq_from_be_bytes (slice bytes FP2_SIZE (FP2_SIZE + FP_SIZE))
    let y_c0 := fq_from_be_bytes (slice bytes (FP2_SIZE + FP_SIZE) G2_SIZE)
    Affine.new g2_b is_in_correct_subgroup ⟨x_c0, x_c1⟩ ⟨y_c0, y_c1⟩

/-! ## Field elements -/

@[simp] theorem fq_to_be_bytes_length (f : Fq) : (fq_to_be_bytes f).length = FP_SIZE :=
  toBE_length _ _

theorem fq_val_lt (f : Fq) : f.val < 0x20 * 256 ^ 47 :=
  lt_trans (ZMod.val_lt f) base_modulus_lt

/-- A field element fits in its bytes, so it is read back. -/
@[simp] theorem fq_from_to (f : Fq) : fq_from_be_bytes (fq_to_be_bytes f) = f := by
  have hlt : f.val < 256 ^ FP_SIZE := by
    have := fq_val_lt f
    unfold FP_SIZE
    omega
  rw [fq_from_be_bytes, fq_to_be_bytes, fromBE_toBE, Nat.mod_eq_of_lt hlt, ZMod.natCast_zmod_val]

/-- The three flag bits -/
def FLAGS : UInt8 := 0xe0

/-- The first byte of a field element has its three highest bits clear. -/
theorem fq_flags (f : Fq) (rest : List UInt8) :
    (fq_to_be_bytes f ++ rest).getD 0 0 &&& FLAGS = 0 := by
  have hsmall : f.val / 256 ^ 47 < 0x20 := by
    have := fq_val_lt f
    omega
  have hbyte : ∀ n : ℕ, n < 0x20 → UInt8.ofNat (n % 256) &&& FLAGS = 0 := by decide
  rw [fq_to_be_bytes, FP_SIZE, toBE_succ]
  exact hbyte _ hsmall

/-! ## Writing and cutting -/

/-- The next field goes behind the ones that are written already. -/
theorem copy_next {start room : ℕ} {written src : List UInt8} (hstart : written.length = start)
    (hfits : src.length ≤ room) :
    copy_from_slice (written ++ List.replicate room 0) start src =
      (written ++ src) ++ List.replicate (room - src.length) 0 := by
  subst hstart
  rw [copy_from_slice, List.take_left, List.drop_append, List.drop_eq_nil_of_le (by omega),
    List.nil_append, List.drop_replicate]
  congr 2
  omega

theorem copy_first {room : ℕ} {src : List UInt8} (hfits : src.length ≤ room) :
    copy_from_slice (List.replicate room 0) 0 src = src ++ List.replicate (room - src.length) 0 :=
  @copy_next 0 room [] src rfl hfits

/-- A slice between two lengths is the field that stands there. -/
theorem slice_field {start stop : ℕ} {written src : List UInt8} (rest : List UInt8)
    (hstart : written.length = start) (hstop : start + src.length = stop) :
    slice (written ++ (src ++ rest)) start stop = src := by
  subst hstart hstop
  rw [slice, List.drop_left, Nat.add_sub_cancel_left, List.take_left]

theorem slice_first {stop : ℕ} {src : List UInt8} (rest : List UInt8) (hstop : src.length = stop) :
    slice (src ++ rest) 0 stop = src :=
  @slice_field 0 stop [] src rest rfl ((Nat.zero_add _).trans hstop)

theorem slice_last {start stop : ℕ} {written src : List UInt8} (hstart : written.length = start)
    (hstop : start + src.length = stop) : slice (written ++ src) start stop = src := by
  have h := slice_field [] hstart hstop
  rwa [List.append_nil] at h

/-! ## Finite points -/

/-- A finite point of the first curve is written as its coordinates in a row. -/
theorem g1_to_finite {p : G1Affine} (h : p.infinity = false) :
    g1_to_soroban_bytes p = fq_to_be_bytes p.x ++ fq_to_be_bytes p.y := by
  unfold g1_to_soroban_bytes
  rw [if_neg (by simp [h])]
  dsimp only
  rw [copy_first (by simp [G1_SIZE, FP_SIZE]), copy_next (by simp) (by simp [G1_SIZE, FP_SIZE])]
  simp [G1_SIZE, FP_SIZE]

theorem g2_to_finite {p : G2Affine} (h : p.infinity = false) :
    g2_to_soroban_bytes p = fq_to_be_bytes p.x.c1 ++ fq_to_be_bytes p.x.c0 ++
      fq_to_be_bytes p.y.c1 ++ fq_to_be_bytes p.y.c0 := by
  unfold g2_to_soroban_bytes
  rw [if_neg (by simp [h])]
  dsimp only
  rw [copy_first (by simp [G2_SIZE, FP2_SIZE, FP_SIZE]),
    copy_next (by simp) (by simp [G2_SIZE, FP2_SIZE, FP_SIZE]),
    copy_next (by simp [FP2_SIZE, FP_SIZE]) (by simp [G2_SIZE, FP2_SIZE, FP_SIZE]),
    copy_next (by simp [FP2_SIZE, FP_SIZE]) (by simp [G2_SIZE, FP2_SIZE, FP_SIZE])]
  simp [G2_SIZE, FP2_SIZE, FP_SIZE]

/-- No flag of a finite point is set. -/
theorem g1_flags {p : G1Affine} (h : p.infinity = false) :
    (g1_to_soroban_bytes p).getD 0 0 &&& FLAGS = 0 := by
  rw [g1_to_finite h]
  exact fq_flags _ _

theorem g2_flags {p : G2Affine} (h : p.infinity = false) :
    (g2_to_soroban_bytes p).getD 0 0 &&& FLAGS = 0 := by
  rw [g2_to_finite h, List.append_assoc, List.append_assoc]
  exact fq_flags _ _

/-- The infinity flag is one of the three. -/
theorem not_infinity_of_flags {byte : UInt8} (h : byte &&& FLAGS = 0) : byte &&& INFINITY_FLAG = 0 :=
  calc byte &&& INFINITY_FLAG
      = byte &&& (FLAGS &&& INFINITY_FLAG) := rfl
    _ = (byte &&& FLAGS) &&& INFINITY_FLAG := (UInt8.and_assoc ..).symm
    _ = 0 := by rw [h, UInt8.zero_and]

/-! ## Reading back -/

section Decoding

variable (is_in_correct_subgroup : G1Affine → Bool) (is_in_correct_subgroup₂ : G2Affine → Bool)

/-- A finite point's coordinates reach the checked constructor. -/
theorem g1_from_to_finite {p : G1Affine} (h : p.infinity = false) :
    g1_from_soroban_bytes is_in_correct_subgroup (g1_to_soroban_bytes p) =
      Affine.new g1_b is_in_correct_subgroup p.x p.y := by
  have hflag := not_infinity_of_flags (g1_flags h)
  have hx : slice (g1_to_soroban_bytes p) 0 FP_SIZE = fq_to_be_bytes p.x := by
    rw [g1_to_finite h]
    exact slice_first _ (fq_to_be_bytes_length _)
  have hy : slice (g1_to_soroban_bytes p) FP_SIZE G1_SIZE = fq_to_be_bytes p.y := by
    rw [g1_to_finite h]
    exact slice_last (by simp) (by simp [G1_SIZE, FP_SIZE])
  simp only [g1_from_soroban_bytes, hflag, ne_eq, not_true_eq_false, if_false, hx, hy, fq_from_to]

theorem g2_from_to_finite {p : G2Affine} (h : p.infinity = false) :
    g2_from_soroban_bytes is_in_correct_subgroup₂ (g2_to_soroban_bytes p) =
      Affine.new g2_b is_in_correct_subgroup₂ p.x p.y := by
  have hflag := not_infinity_of_flags (g2_flags h)
  have hfields := g2_to_finite h
  have hx1 : slice (g2_to_soroban_bytes p) 0 FP_SIZE = fq_to_be_bytes p.x.c1 := by
    rw [hfields, List.append_assoc, List.append_assoc]
    exact slice_first _ (fq_to_be_bytes_length _)
  have hx0 : slice (g2_to_soroban_bytes p) FP_SIZE FP2_SIZE = fq_to_be_bytes p.x.c0 := by
    rw [hfields, List.append_assoc, List.append_assoc]
    exact slice_field _ (by simp) (by simp [FP2_SIZE, FP_SIZE])
  have hy1 : slice (g2_to_soroban_bytes p) FP2_SIZE (FP2_SIZE + FP_SIZE) =
      fq_to_be_bytes p.y.c1 := by
    rw [hfields, List.append_assoc]
    exact slice_field _ (by simp [FP2_SIZE, FP_SIZE]) (by simp)
  have hy0 : slice (g2_to_soroban_bytes p) (FP2_SIZE + FP_SIZE) G2_SIZE =
      fq_to_be_bytes p.y.c0 := by
    rw [hfields]
    exact slice_last (by simp [FP2_SIZE, FP_SIZE]) (by simp [G2_SIZE, FP2_SIZE, FP_SIZE])
  simp only [g2_from_soroban_bytes, hflag, ne_eq, not_true_eq_false, if_false, hx1, hx0, hy1, hy0,
    fq_from_to]

theorem g1_from_to_identity :
    g1_from_soroban_bytes is_in_correct_subgroup (g1_to_soroban_bytes .identity) =
      some .identity := by
  rfl

theorem g2_from_to_identity :
    g2_from_soroban_bytes is_in_correct_subgroup₂ (g2_to_soroban_bytes .identity) =
      some .identity := by
  rfl

end Decoding

/-! ## The encoding of a curve -/

/-- What an encoder and a decoder do on the points of the curve `y² = x³ + b`. -/
structure PointEncoding {F : Type} [Zero F] [Add F] [Mul F] (b : F)
    (is_in_correct_subgroup : Affine F → Bool) (encode : Affine F → List UInt8)
    (decode : List UInt8 → Option (Affine F)) : Prop where
  reads_identity : decode (encode .identity) = some .identity
  reads_back : ∀ p, p.OnCurve b → is_in_correct_subgroup p → decode (encode p) = some p
  /-- Outside the subgroup the decoder stops. -/
  stops : ∀ p, p.OnCurve b → p.infinity = false → ¬ is_in_correct_subgroup p →
    decode (encode p) = none
  flags_clear : ∀ p : Affine F, p.infinity = false → (encode p).getD 0 0 &&& FLAGS = 0
  distinct : ∀ p q : Affine F, p.OnCurve b → q.OnCurve b → p ≠ q → encode p ≠ encode q

/-- The coordinates and the flag of infinity make an encoding of the curve. -/
theorem PointEncoding.of_finite {F : Type} [Zero F] [Add F] [Mul F] [DecidableEq F] {b : F}
    {is_in_correct_subgroup : Affine F → Bool} {encode : Affine F → List UInt8}
    {decode : List UInt8 → Option (Affine F)}
    (hidentity : decode (encode .identity) = some .identity)
    (hfinite : ∀ p : Affine F, p.infinity = false →
      decode (encode p) = Affine.new b is_in_correct_subgroup p.x p.y)
    (hflags : ∀ p : Affine F, p.infinity = false → (encode p).getD 0 0 &&& FLAGS = 0)
    (hflag : (encode .identity).getD 0 0 &&& FLAGS ≠ 0)
    (hinj : ∀ p q : Affine F, p.infinity = false → q.infinity = false → encode p = encode q →
      p.x = q.x ∧ p.y = q.y) :
    PointEncoding b is_in_correct_subgroup encode decode where
  reads_identity := hidentity
  reads_back := by
    intro p hp hin
    rcases hp with rfl | hp
    · exact hidentity
    · rw [hfinite p hp.1, Affine.new_of_onCurve _ hp.1 (.inr hp), if_pos hin]
  stops := by
    intro p hp hinf hin
    rw [hfinite p hinf, Affine.new_of_onCurve _ hinf hp, if_neg hin]
  flags_clear := hflags
  distinct := by
    -- the flag tells infinity from a finite point, the coordinates tell finite points apart
    intro p q hp hq hne heq
    rcases hp with rfl | hp <;> rcases hq with rfl | hq
    · exact hne rfl
    · rw [heq] at hflag
      exact hflag (hflags q hq.1)
    · rw [← heq] at hflag
      exact hflag (hflags p hp.1)
    · obtain ⟨hx, hy⟩ := hinj p q hp.1 hq.1 heq
      apply hne
      rw [← Affine.finite_eta hp.1, ← Affine.finite_eta hq.1, hx, hy]

theorem fq_to_be_bytes_injective : Function.Injective fq_to_be_bytes :=
  Function.LeftInverse.injective fq_from_to

/-- Two fields of the width of a field element in a row can be told apart. -/
theorem fields_inj {f g : Fq} {rest rest' : List UInt8}
    (h : fq_to_be_bytes f ++ rest = fq_to_be_bytes g ++ rest') : f = g ∧ rest = rest' := by
  have hlength : (fq_to_be_bytes f).length = (fq_to_be_bytes g).length := by simp
  obtain ⟨hfield, hrest⟩ := List.append_inj h hlength
  exact ⟨fq_to_be_bytes_injective hfield, hrest⟩

theorem g1_coordinates_inj {p q : G1Affine} (hp : p.infinity = false) (hq : q.infinity = false)
    (h : g1_to_soroban_bytes p = g1_to_soroban_bytes q) : p.x = q.x ∧ p.y = q.y := by
  rw [g1_to_finite hp, g1_to_finite hq] at h
  obtain ⟨hx, hrest⟩ := fields_inj h
  exact ⟨hx, fq_to_be_bytes_injective hrest⟩

theorem g2_coordinates_inj {p q : G2Affine} (hp : p.infinity = false) (hq : q.infinity = false)
    (h : g2_to_soroban_bytes p = g2_to_soroban_bytes q) : p.x = q.x ∧ p.y = q.y := by
  rw [g2_to_finite hp, g2_to_finite hq] at h
  simp only [List.append_assoc] at h
  obtain ⟨hx1, h⟩ := fields_inj h
  obtain ⟨hx0, h⟩ := fields_inj h
  obtain ⟨hy1, h⟩ := fields_inj h
  have hy0 := fq_to_be_bytes_injective h
  cases hpx : p.x
  cases hqx : q.x
  cases hpy : p.y
  cases hqy : q.y
  simp_all

/-- **The points of both curves are written and read back.** A point of the subgroup of prime order
comes back as it was, a point of the curve outside it stops the decoder, the flag bits of a finite
point are clear and no two points have the same bytes. -/
theorem points_read_back (in_g1 : G1Affine → Bool) (in_g2 : G2Affine → Bool) :
    PointEncoding g1_b in_g1 g1_to_soroban_bytes (g1_from_soroban_bytes in_g1) ∧
      PointEncoding g2_b in_g2 g2_to_soroban_bytes (g2_from_soroban_bytes in_g2) := by
  have hflag : INFINITY_FLAG &&& FLAGS ≠ 0 := by decide
  constructor
  · exact .of_finite (g1_from_to_identity in_g1) (fun _ => g1_from_to_finite in_g1)
      (fun _ => g1_flags) hflag (fun _ _ => g1_coordinates_inj)
  · exact .of_finite (g2_from_to_identity in_g2) (fun _ => g2_from_to_finite in_g2)
      (fun _ => g2_flags) hflag (fun _ _ => g2_coordinates_inj)

/-! ## A point outside the subgroup -/

/-- The tangent's third point, reflected -/
def G1Affine.double (p : G1Affine) : G1Affine :=
  if p.infinity ∨ p.y = 0 then .identity
  else
    let slope := 3 * p.x * p.x * (2 * p.y)⁻¹
    let x := slope * slope - 2 * p.x
    .finite x (slope * (p.x - x) - p.y)

/-- The group law, by chords and tangents. -/
def G1Affine.add (p q : G1Affine) : G1Affine :=
  if p.infinity then q
  else if q.infinity then p
  else if p.x = q.x then if p.y = q.y then G1Affine.double p else .identity
  else
    let slope := (q.y - p.y) * (q.x - p.x)⁻¹
    let x := slope * slope - p.x - q.x
    .finite x (slope * (p.x - x) - p.y)

def G1Affine.times (p : G1Affine) : ℕ → G1Affine
  | 0 => .identity
  | n + 1 => (G1Affine.times p n).add p

/-- The subgroup of prime order is what `modulus` takes to infinity. -/
def in_prime_order_subgroup (p : G1Affine) : Bool := G1Affine.times p modulus = .identity

/-- A point of order three -/
def cofactor_point : G1Affine := .finite 0 2

theorem cofactor_double : G1Affine.double cofactor_point = .finite 0 (-2) := by
  have htwo : (2 : Fq) ≠ 0 := by decide +kernel
  simp [G1Affine.double, cofactor_point, Affine.finite, htwo]

theorem times_cofactor_point (n : ℕ) :
    G1Affine.times cofactor_point n =
      if n % 3 = 0 then .identity else if n % 3 = 1 then cofactor_point else .finite 0 (-2) := by
  have hneg : (-2 : Fq) ≠ 2 := by decide +kernel
  induction n with
  | zero => rfl
  | succ n ih =>
      have hcases : n % 3 = 0 ∧ (n + 1) % 3 = 1 ∨ n % 3 = 1 ∧ (n + 1) % 3 = 2 ∨
          n % 3 = 2 ∧ (n + 1) % 3 = 0 := by omega
      rw [G1Affine.times, ih]
      obtain ⟨hn, hs⟩ | ⟨hn, hs⟩ | ⟨hn, hs⟩ := hcases
      · simp [hn, hs, G1Affine.add, Affine.identity]
      · rw [hn, hs]
        show G1Affine.add cofactor_point cofactor_point = .finite 0 (-2)
        rw [G1Affine.add, cofactor_double]
        simp [cofactor_point, Affine.finite]
      · simp [hn, hs, G1Affine.add, Affine.finite, cofactor_point, hneg]

/-- A point of the curve that the encoder writes and the decoder does not read. -/
theorem cofactor_point_stops :
    cofactor_point.OnCurve g1_b ∧
      g1_from_soroban_bytes in_prime_order_subgroup (g1_to_soroban_bytes cofactor_point) = none := by
  have hcurve : cofactor_point.OnCurve g1_b := by
    right
    refine ⟨rfl, ?_⟩
    show (2 : Fq) * 2 = 0 * 0 * 0 + 4
    norm_num
  have hout : in_prime_order_subgroup cofactor_point = false := by
    rw [in_prime_order_subgroup, times_cofactor_point,
      if_neg (by decide), if_pos (by decide)]
    rfl
  refine ⟨hcurve, ?_⟩
  rw [g1_from_to_finite _ rfl, Affine.new_of_onCurve _ rfl hcurve, hout]
  rfl

end StellarAgent.Zk
