import OptimizerHints.Text.Blank

namespace OptimizerHints

open Std

structure TableRef where
  name : String
  aliasName : Option String := none
  schema : Option String := none
  deriving DecidableEq, Repr, Inhabited

namespace TableRef

instance : Ord TableRef := ⟨compareLex (compareOn name) (compareLex (compareOn aliasName) (compareOn schema))⟩

instance : TransOrd TableRef :=
  inferInstanceAs (TransCmp (compareLex (compareOn name) (compareLex (compareOn aliasName) (compareOn schema))))

instance : LawfulEqOrd TableRef where
  eq_of_compare {a b} h := by
    simp only [compare, compareLex, compareOn, Ordering.then_eq_eq] at h
    obtain ⟨hn, ha, hs⟩ := h
    have hn := LawfulEqOrd.eq_of_compare (α := String) hn
    have ha := LawfulEqOrd.eq_of_compare (α := Option String) ha
    have hs := LawfulEqOrd.eq_of_compare (α := Option String) hs
    cases a; cases b; simp_all

def identifier (t : TableRef) : String := t.aliasName.getD t.name

def render (t : TableRef) : String :=
  let qualified := match t.schema with
    | some s => s ++ "." ++ t.name
    | none => t.name
  match t.aliasName with
  | some a => if a = t.name then qualified else qualified ++ " AS " ++ a
  | none => qualified

def splitSchema (cs : List Char) : Option (List Char) × List Char :=
  match cs.dropWhile (· != '.') with
  | _ :: rest => (some (cs.takeWhile (· != '.')), rest)
  | [] => (none, cs)

def parse? (src : String) : Option TableRef :=
  let parse (qualified : String) (aliasName : Option String) : Option TableRef :=
    let (schema, name) := splitSchema qualified.toList
    if name.isEmpty then none else some ⟨String.ofList name, aliasName, schema.map String.ofList⟩
  match (Text.words src).filter fun w => Text.lowerAscii w != "as" with
  | [qualified] => parse qualified none
  | [qualified, aliasName] => parse qualified (some aliasName)
  | _ => none

end TableRef

end OptimizerHints
