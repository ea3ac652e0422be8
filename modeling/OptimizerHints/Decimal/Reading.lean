namespace OptimizerHints.Decimal

def nearest (digits : Nat) (exponent : Int) : Float :=
  let places := exponent + (Nat.toDigits 10 digits).length
  -- beyond these exponents the result is 0 or infinite whatever the digits are
  if digits = 0 ∨ places < -400 then 0
  else if 400 < places then Float.ofScientific 1 false 400
  else if 0 ≤ exponent then Float.ofScientific digits false exponent.toNat
  else Float.ofScientific digits true (-exponent).toNat

def natOfDigits (cs : List Char) : Nat := cs.foldl (fun n c => 10 * n + (c.toNat - 48)) 0

def takeMantissa (cs : List Char) : Option ((List Char × List Char) × List Char) :=
  let whole := cs.takeWhile Char.isDigit
  let rest := cs.dropWhile Char.isDigit
  let (fraction, rest) := match rest with
    | '.' :: r => (r.takeWhile Char.isDigit, r.dropWhile Char.isDigit)
    | _ => ([], rest)
  if whole.isEmpty && fraction.isEmpty then none else some ((whole, fraction), rest)

def takeSign : List Char → Bool × List Char
  | '-' :: cs => (true, cs)
  | '+' :: cs => (false, cs)
  | cs => (false, cs)

def exponent? : List Char → Option Int
  | [] => some 0
  | c :: cs =>
    let (negative, ds) := takeSign cs
    if (c = 'e' ∨ c = 'E') ∧ ds ≠ [] ∧ ds.all Char.isDigit then
      let n : Int := natOfDigits ds
      some (if negative then -n else n)
    else none

def unsigned? (cs : List Char) : Option Float := do
  let ((whole, fraction), rest) ← takeMantissa cs
  let e ← exponent? rest
  some (nearest (natOfDigits (whole ++ fraction)) (e - fraction.length))

def read? (s : String) : Option Float :=
  let (negative, body) := takeSign s.toList
  let magnitude :=
    match String.ofList (body.map Char.toLower) with
    | "inf" | "infinity" => some (1 / 0)
    | "nan" => some (0 / 0)
    | _ => unsigned? body
  magnitude.map fun x => if negative then -x else x

def shrink (x : Float) (places : Nat) : Float :=
  -- the next power of ten is not a finite double
  if places ≤ 308 ∨ x == 0 then x / Float.ofScientific 1 false (min places 308)
  else shrink (x / Float.ofScientific 1 false 308) (places - 308)
  termination_by places

/-- The double of `significand`, scaled once by the power of ten: not always the nearest double to the product.
There is none beyond the range of doubles. -/
def scale? (significand : Nat) (exponent : Int) : Option Float :=
  let x := Float.ofNat significand
  if exponent < 0 then some (shrink x (-exponent).toNat)
  else if exponent ≤ 308 then
    let y := x * Float.ofScientific 1 false exponent.toNat
    if y.isInf then none else some y
  else if significand = 0 then some 0 else none

end OptimizerHints.Decimal
