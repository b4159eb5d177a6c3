/-
Sums, products and quotients of doubles.

Each is the exact result, rounded once. The exceptional cases are those
of the format: opposite infinities have no sum, zero times infinity and
zero over zero are no numbers, and a sum that cancels is the positive
zero.
-/
import TimedOverlay.Binary64.Nearest

namespace TimedOverlay.Binary64

open Magnitude (unitsPerOne)

-- ================================================================= sums

/-- A signed count of units as a double; `zeroSign` is the sign of an
exact zero. -/
def ofSignedUnits (zeroSign : Bool) (units : Int) : Binary64 :=
  if units = 0 then .finite zeroSign .zero
  else ofUnits (units < 0) units.natAbs 1

/-- The sum, rounded. Opposite infinities have none. -/
def add : Binary64 → Binary64 → Binary64
  | .nan, _ => .nan
  | _, .nan => .nan
  | .infinite s, .infinite t => if s = t then .infinite s else .nan
  | .infinite s, .finite _ _ => .infinite s
  | .finite _ _, .infinite t => .infinite t
  | .finite s m, .finite t n =>
    ofSignedUnits (s && t) (signedUnits s m + signedUnits t n)

/-- The difference: the sum with the opposite number. -/
def sub (x y : Binary64) : Binary64 := x.add y.neg

-- ============================================================= products

/-- The product, rounded. Zero times infinity is no number. -/
def mul : Binary64 → Binary64 → Binary64
  | .nan, _ => .nan
  | _, .nan => .nan
  | .infinite s, .infinite t => .infinite (s != t)
  | .infinite s, .finite t n =>
    if n.units = 0 then .nan else .infinite (s != t)
  | .finite s m, .infinite t =>
    if m.units = 0 then .nan else .infinite (s != t)
  | .finite s m, .finite t n =>
    ofUnits (s != t) (m.units * n.units) unitsPerOne

/-- The quotient, rounded. A number over zero is infinite; zero over zero
is no number. -/
def div : Binary64 → Binary64 → Binary64
  | .nan, _ => .nan
  | _, .nan => .nan
  | .infinite _, .infinite _ => .nan
  | .infinite s, .finite t _ => .infinite (s != t)
  | .finite s _, .infinite t => .finite (s != t) .zero
  | .finite s m, .finite t n =>
    if n.units = 0 then
      if m.units = 0 then .nan else .infinite (s != t)
    else ofUnits (s != t) (m.units * unitsPerOne) n.units

-- ======================================================== whole numbers

/-- The double nearest to a natural number. -/
def ofNat (n : Nat) : Binary64 := ofUnits false (n * unitsPerOne) 1

/-- The double nearest to an integer. -/
def ofInt (n : Int) : Binary64 :=
  ofUnits (n < 0) (n.natAbs * unitsPerOne) 1

instance {n : Nat} : OfNat Binary64 n := ⟨ofNat n⟩
instance : Add Binary64 := ⟨add⟩
instance : Sub Binary64 := ⟨sub⟩
instance : Mul Binary64 := ⟨mul⟩
instance : Div Binary64 := ⟨div⟩
instance : Neg Binary64 := ⟨neg⟩

/-- The whole number nearest to `x`, a half going away from zero;
nothing for a number that is not finite. -/
def round? : Binary64 → Option Int
  | .finite s m =>
    let n : Int := ((2 * m.units + unitsPerOne) / (2 * unitsPerOne) : Nat)
    some (if s then -n else n)
  | _ => none

/-- The least whole number not below `x`; nothing for a number that is
not finite. -/
def ceil? : Binary64 → Option Int
  | .finite s m =>
    some (if s then -((m.units / unitsPerOne : Nat) : Int)
      else ((m.units + (unitsPerOne - 1)) / unitsPerOne : Nat))
  | _ => none

end TimedOverlay.Binary64
