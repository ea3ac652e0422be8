import OptimizerHints.Query

namespace OptimizerHints

structure HintParts where
  settings : List String := []
  hints : List String := []
  deriving DecidableEq, Repr

namespace HintParts

def empty : HintParts := {}

def isEmpty (p : HintParts) : Bool := p.settings.isEmpty && p.hints.isEmpty

def extend (xs ys : List String) : List String := xs ++ ys.filter fun y => y ∉ xs

def merge (p q : HintParts) : HintParts := ⟨extend p.settings q.settings, extend p.hints q.hints⟩

def block (hints : List String) : String :=
  if hints.isEmpty then "" else "/*+\n" ++ String.join (hints.map fun h => "  " ++ h ++ "\n") ++ "*/"

def clause? (p : HintParts) : Option HintClause :=
  if p.isEmpty then none else some ⟨"\n".intercalate p.settings, block p.hints⟩

end HintParts

end OptimizerHints
