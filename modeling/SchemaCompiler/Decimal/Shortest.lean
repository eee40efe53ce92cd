/-!
The shortest decimal that reads back as a given double.

A positive double is `m * 2 ^ q`. The numbers that round to it form an interval around it, closed
when `m` is even. For one digit, two digits and so on the two neighbours of the double on the grid
of decimals with so many digits are tried; the first that lies in the interval is the answer, and
of two such neighbours the nearer one.
-/

namespace SchemaCompiler.Decimal

/-- `digits * 10 ^ exponent` -/
structure Scientific where
  digits : Nat
  exponent : Int
deriving DecidableEq, Repr

/-- Mantissa and binary exponent of the absolute value of a finite double. -/
structure Binary where
  mantissa : Nat
  exponent : Int
  /-- Whether the double below is only half as far away as the one above. -/
  narrowBelow : Bool
deriving DecidableEq, Repr

def Binary.ofBits (bits : UInt64) : Binary :=
  let biased := (bits >>> 52).toNat % 2048
  let fraction := bits.toNat % 0x10000000000000
  if biased = 0 then ⟨fraction, -1074, false⟩
  else ⟨fraction + 0x10000000000000, (biased : Int) - 1075, fraction == 0 && biased != 1⟩

/-- Compares `a * 2 ^ q` with `b * 10 ^ k`. -/
def compareScaled (a : Nat) (q : Int) (b : Nat) (k : Int) : Ordering :=
  compare (a * Nat.pow 2 q.toNat * Nat.pow 10 (-k).toNat)
    (b * Nat.pow 10 k.toNat * Nat.pow 2 (-q).toNat)

/-- `m * 2 ^ q` in units of `10 ^ k`, rounded down. -/
def floorScaled (m : Nat) (q k : Int) : Nat :=
  (m * Nat.pow 2 q.toNat * Nat.pow 10 (-k).toNat) /
    (Nat.pow 10 k.toNat * Nat.pow 2 (-q).toNat)

/-- The greatest `k` with `10 ^ k ≤ m * 2 ^ q`, found by trying upwards from below. -/
def leadingExponent (m : Nat) (q : Int) : Int :=
  let rec search : Nat → Int → Int
    | 0, k => k
    | steps + 1, k => if compareScaled m q 1 (k + 1) = .lt then k else search steps (k + 1)
  search 640 (-330)

/-- Whether `d * 10 ^ k` rounds to the double. Everything is counted in quarters of its last
binary place. -/
def roundsTo (b : Binary) (d : Nat) (k : Int) : Bool :=
  let q := b.exponent - 2
  let low := 4 * b.mantissa - (if b.narrowBelow then 1 else 2)
  let high := 4 * b.mantissa + 2
  let below := compareScaled low q d k
  let above := compareScaled high q d k
  if b.mantissa % 2 = 0 then below != .gt && above != .lt else below == .lt && above == .gt

/-- Whether `d + 1` is nearer than `d`; of two equally near neighbours the even one counts. -/
def upperIsNearer (b : Binary) (d : Nat) (k : Int) : Bool :=
  match compareScaled (2 * b.mantissa) b.exponent (2 * d + 1) k with
  | .gt => true
  | .lt => false
  | .eq => d % 2 = 1

/-- The neighbour on the grid `10 ^ k` that rounds to the double, if there is one. -/
def onGrid? (b : Binary) (k : Int) : Option Nat :=
  let d := floorScaled b.mantissa b.exponent k
  match roundsTo b d k, roundsTo b (d + 1) k with
  | true, true => some (if upperIsNearer b d k then d + 1 else d)
  | true, false => some d
  | false, true => some (d + 1)
  | false, false => none

/-- Without trailing zeros. -/
def trimZeros : Nat → Scientific → Scientific
  | 0, s => s
  | steps + 1, s =>
    if s.digits ≠ 0 ∧ s.digits % 10 = 0 then trimZeros steps ⟨s.digits / 10, s.exponent + 1⟩ else s

/-- Seventeen digits always suffice. -/
def shortest (b : Binary) : Scientific :=
  let top := leadingExponent b.mantissa b.exponent
  let rec search : Nat → Int → Scientific
    | 0, k => ⟨floorScaled b.mantissa b.exponent k, k⟩
    | steps + 1, k =>
      match onGrid? b k with
      | some d => trimZeros 20 ⟨d, k⟩
      | none => search steps (k - 1)
  search 17 top

end SchemaCompiler.Decimal
