import OptimizerHints.JoinTree

/-! The joins of a tree in the order in which a synopsis walks them. -/

namespace OptimizerHints

/-- A join whose outer input is a base table or brings together several tables by joins of its own. -/
inductive Visit (α : Type) where
  | overTable (table : TableRef) (label : α)
  | overJoin (tables : TableSet) (label : α) (inside : List (Visit α))

namespace JoinNode

def visitOver (outer : JoinNode) (ts : TableSet) (inside : List (Visit TableSet)) : Visit TableSet :=
  match outer with
  | base t _ => .overTable t ts
  | join _ _ _ s => .overJoin s ts inside

def visits : JoinNode → List (Visit TableSet)
  | base _ _ => []
  | join l r _ ts => r.visits ++ [l.visitOver ts l.visits]

end JoinNode

def JoinTree.visits (t : JoinTree) : List (Visit TableSet) := t.root.elim [] JoinNode.visits

end OptimizerHints
