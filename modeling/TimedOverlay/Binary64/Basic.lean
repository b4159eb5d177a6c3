/-
Double-precision numbers, held exactly.

The least positive double is `2 ^ -1074`, and every finite double is a
whole number of them. A finite number is therefore kept as a sign and a
count of these units, with the proof that the count needs no more than
53 significant bits. Nothing here is an approximation: sums, products
and comparisons of doubles are sums, products and comparisons of counts,
followed by one rounding (`Nearest.lean`).

The two zeros are different values that compare equal, as the format
wants it.
-/
-- `^` on numbers is the core power in every module, also in those whose
-- imports bring a power of monoids that would be preferred to it.
attribute [default_instance 20000, instance (20000)] instPowNat

namespace TimedOverlay

-- ========================================================== magnitudes

/-- The binary places of the largest finite size, in units. -/
def sizePlaces : Nat := 2098

/-- A count of units that a double can hold: at most 53 significant
bits, below `2 ^ 1024` in value. -/
def Representable (units : Nat) : Prop :=
  units < 2 ^ sizePlaces ∧ units % 2 ^ (units.log2 - 52) = 0

instance (units : Nat) : Decidable (Representable units) :=
  inferInstanceAs (Decidable (_ ∧ _))

/-- The size of a finite double, in units of `2 ^ -1074`. -/
structure Magnitude where
  units : Nat
  representable : Representable units
deriving DecidableEq

/-- A double: not a number, an infinity, or a signed finite size. -/
inductive Binary64 where
  | nan
  | infinite (negative : Bool)
  | finite (negative : Bool) (size : Magnitude)
deriving DecidableEq

namespace Magnitude

/-- The size of zero. -/
def zero : Magnitude := ⟨0, Nat.two_pow_pos _, Nat.zero_mod _⟩

/-- The binary places of the unit, below the point. -/
def unitPlaces : Nat := 1074

/-- The number of units in 1. -/
def unitsPerOne : Nat := 2 ^ unitPlaces

theorem unitsPerOne_pos : 0 < unitsPerOne := Nat.two_pow_pos _

/-- The 63 bits below the sign of a finite size: its exponent and the
significand without its first bit. -/
def pattern (m : Magnitude) : Nat :=
  let k := m.units.log2 - 52
  if m.units < 2 ^ 52 then m.units
  else (k + 1) * 2 ^ 52 + (m.units / 2 ^ k - 2 ^ 52)

end Magnitude

namespace Binary64

-- =============================================================== parts

/-- The positive zero. -/
def zero : Binary64 := .finite false .zero

instance : Inhabited Binary64 := ⟨zero⟩

/-- Whether a double is a number and not infinite. -/
def isFinite : Binary64 → Bool
  | .finite _ _ => true
  | _ => false

/-- The opposite number; the sign of a zero changes, too. -/
def neg : Binary64 → Binary64
  | .nan => .nan
  | .infinite s => .infinite !s
  | .finite s m => .finite (!s) m

/-- The number without its sign. -/
def abs : Binary64 → Binary64
  | .nan => .nan
  | .infinite _ => .infinite false
  | .finite _ m => .finite false m

-- ========================================================== comparison

/-- The signed number of units of a finite size. -/
def signedUnits (negative : Bool) (m : Magnitude) : Int :=
  if negative then -(m.units : Int) else m.units

/-- Strictly less; never true of a number that is no number. -/
def lt : Binary64 → Binary64 → Bool
  | .finite s m, .finite t n => signedUnits s m < signedUnits t n
  | .infinite s, .infinite t => s && !t
  | .infinite s, .finite _ _ => s
  | .finite _ _, .infinite t => !t
  | _, _ => false

/-- Equal as numbers: the zeros are equal, and nothing equals what is
no number. -/
def same : Binary64 → Binary64 → Bool
  | .finite s m, .finite t n => signedUnits s m == signedUnits t n
  | .infinite s, .infinite t => s == t
  | _, _ => false

/-- Less or equal; never true of a number that is no number. -/
def le (x y : Binary64) : Bool := x.lt y || x.same y

/-- The smaller number. A side that is no number yields to the other,
and of two equal numbers the first is taken. -/
def min (x y : Binary64) : Binary64 :=
  if x = .nan then y else if y.lt x then y else x

/-- `x` held between two bounds; what is no number stays as it is. -/
def clamp (x low high : Binary64) : Binary64 :=
  if x.lt low then low else if high.lt x then high else x

/-- The larger of `x` and zero, and zero for what is no number. -/
def orZero (x : Binary64) : Binary64 := if zero.lt x then x else zero

-- ================================================================ bits

/-- Every count of 53 bits is representable. -/
theorem representable_of_lt {units : Nat} (h : units < 2 ^ 53) :
    Representable units := by
  refine ⟨Nat.lt_of_lt_of_le h
    (Nat.pow_le_pow_right (by decide) (by simp [sizePlaces])), ?_⟩
  have : units.log2 - 52 = 0 := by
    by_cases h0 : units = 0
    · subst h0; decide
    · have := (Nat.log2_lt h0).2 h
      omega
  rw [this, Nat.pow_zero, Nat.mod_one]

/-- A full significand shifted to any exponent below the top one. -/
theorem representable_shift {m k : Nat} (low : 2 ^ 52 ≤ m)
    (high : m < 2 ^ 53) (hk : k ≤ 2045) : Representable (m * 2 ^ k) := by
  constructor
  · calc m * 2 ^ k < 2 ^ 53 * 2 ^ k :=
          Nat.mul_lt_mul_of_pos_right high (Nat.two_pow_pos k)
      _ = 2 ^ (53 + k) := (Nat.pow_add 2 53 k).symm
      _ ≤ 2 ^ sizePlaces :=
          Nat.pow_le_pow_right (by decide) (by unfold sizePlaces; omega)
  · have hlog : (m * 2 ^ k).log2 = 52 + k := by
      have h0 : m * 2 ^ k ≠ 0 :=
        Nat.pos_iff_ne_zero.1 (Nat.mul_pos (by omega) (Nat.two_pow_pos k))
      refine (Nat.log2_eq_iff h0).2 ⟨?_, ?_⟩
      · rw [Nat.pow_add]
        exact Nat.mul_le_mul_right _ low
      · rw [show 52 + k + 1 = 53 + k by omega, Nat.pow_add]
        exact Nat.mul_lt_mul_of_pos_right high (Nat.two_pow_pos k)
    rw [hlog, show 52 + k - 52 = k by omega, Nat.mul_mod_left]

/-- The number that a 64-bit pattern stands for. -/
def ofBits (bits : UInt64) : Binary64 :=
  let negative := bits >>> 63 == 1
  let exponent := (bits >>> 52).toNat % 2 ^ 11
  let fraction := bits.toNat % 2 ^ 52
  if exponent = 2047 then
    if fraction = 0 then .infinite negative else .nan
  else if he : exponent = 0 then
    .finite negative ⟨fraction, representable_of_lt (by
      have : fraction < 2 ^ 52 := Nat.mod_lt _ (by decide)
      omega)⟩
  else if hk : exponent - 1 ≤ 2045 then
    .finite negative ⟨(2 ^ 52 + fraction) * 2 ^ (exponent - 1), by
      have : fraction < 2 ^ 52 := Nat.mod_lt _ (by decide)
      exact representable_shift (by omega) (by omega) hk⟩
  else .nan

/-- The 64-bit pattern of a number; of those that are no number, the
quiet one. -/
def toBits : Binary64 → UInt64
  | .nan => 0x7ff8000000000000
  | .infinite s => if s then 0xfff0000000000000 else 0x7ff0000000000000
  | .finite s m =>
    (if s then 0x8000000000000000 else 0) ||| UInt64.ofNat m.pattern

end Binary64

end TimedOverlay
