/-! The fewest decimal digits that still name a binary floating-point number. -/

namespace OptimizerHints.Decimal

/-- The positive number `mantissa * 2 ^ exponent`. Below a power of two the next number down is half as far
away as the next one up, which `nearerBelow` records. -/
structure Binary where
  mantissa : Nat
  exponent : Int
  nearerBelow : Bool

def Binary.ofBits (bits : Nat) : Binary :=
  let fraction : Nat := bits % Nat.pow 2 52
  let biased : Nat := bits / Nat.pow 2 52 % 2048
  if biased = 0 then ⟨fraction, -1074, false⟩
  else ⟨Nat.pow 2 52 + fraction, (biased : Int) - 1075, fraction = 0 && decide (1 < biased)⟩

structure Digits where
  digits : Nat
  exponent : Int
  deriving DecidableEq, Repr

inductive Tie where
  | up
  | toEven
  deriving DecidableEq, Repr

def scaled (n : Nat) (two ten : Int) : Nat × Nat :=
  (n * Nat.pow 2 two.toNat * Nat.pow 10 (-ten).toNat, Nat.pow 2 (-two).toNat * Nat.pow 10 ten.toNat)

namespace Binary

def onGrid (tie : Tie) (b : Binary) (ten : Int) : Option Nat :=
  -- in quarters of the last binary place, halfway to each neighbour is a whole number
  let two := b.exponent - 2
  let (value, unit) := scaled (4 * b.mantissa) two ten
  let (low, _) := scaled (4 * b.mantissa - if b.nearerBelow then 1 else 2) two ten
  let (high, _) := scaled (4 * b.mantissa + 2) two ten
  let reads (d : Nat) : Bool :=
    if b.mantissa % 2 = 0 then low ≤ d * unit && d * unit ≤ high else low < d * unit && d * unit < high
  let down := value / unit
  let up := down + 1
  let below := value - down * unit
  let above := up * unit - value
  let pickUp : Bool :=
    if below = above then match tie with
      | .up => true
      | .toEven => down % 2 = 1
    else above < below
  match 0 < down && reads down, reads up with
  | true, true => some (if pickUp then up else down)
  | true, false => some down
  | false, true => some up
  | false, false => none

def leadingPlace (b : Binary) : Int :=
  let (value, unit) := scaled b.mantissa b.exponent (-400)
  ((Nat.toDigits 10 (value / unit)).length : Int) - 401

def search (tie : Tie) (b : Binary) : Nat → Int → Digits
  | 0, ten => ⟨(b.onGrid tie ten).getD 0, ten⟩
  | n + 1, ten =>
    match b.onGrid tie ten with
    | some d => ⟨d, ten⟩
    | none => search tie b n (ten - 1)

end Binary

def Digits.strip (d : Digits) : Digits :=
  let cs := (Nat.toDigits 10 d.digits).reverse
  let zeros := (cs.takeWhile (· == '0')).length
  if d.digits = 0 then d else ⟨d.digits / Nat.pow 10 zeros, d.exponent + zeros⟩

def shortest (tie : Tie) (bits : Nat) : Digits :=
  let b := Binary.ofBits bits
  (b.search tie 17 b.leadingPlace).strip

end OptimizerHints.Decimal
