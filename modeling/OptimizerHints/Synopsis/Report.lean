import OptimizerHints.Decimal.Format
import OptimizerHints.Synopsis.Node

namespace OptimizerHints.Node

def pad (indent : Nat) : String := String.ofList (List.replicate indent ' ')

def costText (e : JoinOperator × Float) : String := e.1.name ++ "=" ++ Decimal.display e.2

mutual

def nodeLines (indent : Nat) : Node Float → List String
  | ⟨costs, children, inside⟩ =>
    (pad indent ++ "[" ++ ", ".intercalate (costs.map costText) ++ "]")
      :: (insideLines indent inside ++ childLines indent true children)

def insideLines (indent : Nat) : Option (Node Float) → List String
  | none => []
  | some ⟨costs, children, _⟩ =>
    if costs.isEmpty && children.isEmpty then []
    else (pad indent ++ "[SUBQUERY]") :: childLines (indent + 2) true children

def childLines (indent : Nat) (first : Bool) : List (Identifier × Node Float) → List String
  | [] => []
  | (id, n) :: rest =>
    (if first then [] else [pad indent ++ "-----"]) ++ (pad indent ++ "QEP-S node " ++ id.render)
      :: (nodeLines (indent + 2) n ++ childLines indent false rest)

end

def inspect (n : Node Float) : String := "\n".intercalate ("[ROOT]" :: childLines 2 true n.children)

end OptimizerHints.Node
