import OptimizerHints.Decimal.Reading
import OptimizerHints.Yaml.Node

/-! What YAML scalars without quotes stand for, by the core schema. -/

namespace OptimizerHints.Yaml

def isNull (s : String) : Bool := ["null", "Null", "NULL", "~"].contains s

def flag? (s : String) : Option Bool :=
  if ["true", "True", "TRUE"].contains s then some true
  else if ["false", "False", "FALSE"].contains s then some false
  else none

def natural? (base : Nat) (cs : List Char) : Option Nat :=
  if cs.isEmpty then none
  else cs.foldlM (fun n c => do
    let d ← Json.hexDigit? c
    if d < base then some (base * n + d) else none) 0

def isZeroPadded (cs : List Char) : Bool :=
  match (Decimal.takeSign cs).2 with
  | '0' :: d :: ds => (d :: ds).all Char.isDigit
  | _ => false

def based? : List Char → Option Nat
  | '0' :: 'x' :: ds => natural? 16 ds
  | '0' :: 'o' :: ds => natural? 8 ds
  | '0' :: 'b' :: ds => natural? 2 ds
  | _ => none

def whole? (cs : List Char) : Option Int :=
  match cs with
  | '-' :: ds =>
    match based? ds with
    | some n => some (-(n : Int))
    | none => if isZeroPadded cs then none else (natural? 10 ds).map fun n => -(n : Int)
  | _ =>
    let ds := (Decimal.takeSign cs).2
    match based? ds with
    | some n => some n
    | none => if isZeroPadded cs then none else (natural? 10 ds).map fun n => (n : Int)

def count? (s : String) : Option Nat :=
  match s.toList with
  | '-' :: _ => none
  | cs => (whole? cs).bind fun n => if n < UInt64.size then some n.toNat else none

def real? (s : String) : Option Float :=
  let unsigned := match s.toList with
    | '+' :: cs => String.ofList cs
    | _ => s
  if [".inf", ".Inf", ".INF"].contains unsigned then some (1 / 0)
  else if ["-.inf", "-.Inf", "-.INF"].contains s then some (-1 / 0)
  else if [".nan", ".NaN", ".NAN"].contains s then some (0 / 0)
  else match s.toList with
    | '+' :: '+' :: _ | '+' :: '-' :: _ => none
    | _ => (Decimal.read? unsigned).filter Float.isFinite

def sizedWhole? (n : Int) : Option Document :=
  if -Int.pow 2 63 ≤ n ∧ n < Int.pow 2 64 then some (.whole n)
  else if -Int.pow 2 127 ≤ n ∧ n < Int.pow 2 128 then some .flawed
  else none

def plainValue (s : String) : Document :=
  if s.isEmpty || isNull s then .null
  else match flag? s with
    | some b => .flag b
    | none =>
      match (whole? s.toList).bind sizedWhole? with
      | some d => d
      | none =>
        match if isZeroPadded s.toList then none else real? s with
        | some x => .real x
        | none => .text s

namespace Node

mutual

def toDocument : Node → Document
  | scalar s plain => if plain then plainValue s else .text s
  | sequence items => .list (allToDocument items)
  | mapping entries => .record (entriesToDocument entries)
  | tooDeep => .flawed

def allToDocument : List Node → List Document
  | [] => []
  | n :: ns => n.toDocument :: allToDocument ns

def entriesToDocument : List (Node × Node) → List (Document × Document)
  | [] => []
  | (k, v) :: es => (k.toDocument, v.toDocument) :: entriesToDocument es

end

end Node

end OptimizerHints.Yaml
