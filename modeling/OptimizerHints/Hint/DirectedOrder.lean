import OptimizerHints.Hint.Error
import OptimizerHints.JoinTree

/-! Join orders in which every join has an outer and an inner input. -/

namespace OptimizerHints

inductive DirectedOrder where
  | leaf (table : TableRef)
  | join (outer inner : DirectedOrder)
  deriving DecidableEq, Repr

namespace DirectedOrder

/-- The inner input of a join: the one that the assignment names, else the one that the node names, else the
left one if its rows have the smaller bound. An unknown bound is the least on the left and the greatest on the right. -/
def innerSide (ops : Option Assignment) (l r : JoinNode) (info : NodeInfo) (ts : TableSet) : Except HintError Side :=
  match (ops.bind (·.joinFor? ts)).bind (·.inner) with
  | some inner =>
    if inner = l.tables then .ok .left
    else if inner = r.tables then .ok .right
    else .error (.assignmentMismatch (.innerNotInput inner ts))
  | none =>
    match info.inner with
    | some side => .ok side
    | none =>
      let left := l.info.bound?.getD (-1 / 0)
      let right := r.info.bound?.getD (1 / 0)
      .ok (if left < right then .left else .right)

def ofNode (ops : Option Assignment) : JoinNode → Except HintError DirectedOrder
  | .base t _ => .ok (leaf t)
  | .join l r info ts => do
    match ← innerSide ops l r info ts with
    | .left =>
      let outer ← ofNode ops r
      return join outer (← ofNode ops l)
    | .right =>
      let outer ← ofNode ops l
      return join outer (← ofNode ops r)

def ofTree (t : JoinTree) (ops : Option Assignment) : Except HintError (Option DirectedOrder) :=
  match t.root with
  | some n => if 2 ≤ t.tables.size then (ofNode ops n).map some else .ok none
  | none => .ok none

def leaves : DirectedOrder → List TableRef
  | leaf t => [t]
  | join outer inner => outer.leaves ++ inner.leaves

def nested (sep : String) : DirectedOrder → String
  | leaf t => t.identifier
  | join outer inner => "(" ++ outer.nested sep ++ sep ++ inner.nested sep ++ ")"

def hint (d : Dialect) (o : DirectedOrder) : String :=
  match d with
  | .postgres => "Leading(" ++ o.nested " " ++ ")"
  -- the inputs of single joins cannot be named
  | .mysql => d.tableOrder o.leaves

end DirectedOrder

end OptimizerHints
