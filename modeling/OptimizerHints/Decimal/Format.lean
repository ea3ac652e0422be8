import OptimizerHints.Decimal.Shortest

namespace OptimizerHints.Decimal

structure Format where
  tie : Tie
  keepsPoint : Bool
  positional : Int → Bool

def placePoint (keepsPoint : Bool) (ds : List Char) (point : Int) : List Char :=
  if point ≤ 0 then '0' :: '.' :: (List.replicate (-point).toNat '0' ++ ds)
  else if ds.length ≤ point.toNat then
    ds ++ List.replicate (point.toNat - ds.length) '0' ++ if keepsPoint then ['.', '0'] else []
  else ds.take point.toNat ++ '.' :: ds.drop point.toNat

def withExponent (ds : List Char) (point : Int) : List Char :=
  let lead := match ds with
    | [d] => [d]
    | d :: rest => d :: '.' :: rest
    | [] => []
  lead ++ 'e' :: (toString (point - 1)).toList

def Format.write (f : Format) (x : Float) : String :=
  let bits := x.toBits.toNat
  let magnitude := bits % Nat.pow 2 63
  let sign := if bits / Nat.pow 2 63 = 1 then ['-'] else []
  let body :=
    if magnitude = 0 then if f.keepsPoint then ['0', '.', '0'] else ['0']
    else
      let d := shortest f.tie magnitude
      let ds := Nat.toDigits 10 d.digits
      let point := d.exponent + ds.length
      if f.positional point then placePoint f.keepsPoint ds point else withExponent ds point
  String.ofList (sign ++ body)

def plain : Format := ⟨.up, false, fun _ => true⟩

def stored : Format := ⟨.toEven, true, fun point => -5 < point && point ≤ 16⟩

def display (x : Float) : String :=
  if x.isNaN then "NaN"
  else if x.isInf then if x < 0 then "-inf" else "inf"
  else plain.write x

end OptimizerHints.Decimal
