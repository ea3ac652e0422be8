import OptimizerHints.Assignment

/-! Binary join trees whose nodes may carry an operator, an upper bound of their rows and a direction. -/

namespace OptimizerHints

inductive Side where
  | left
  | right
  deriving DecidableEq, Repr

structure NodeInfo where
  operator : Option Operator := none
  upperBound : Option Float := none
  inner : Option Side := none
  deriving DecidableEq

def NodeInfo.bound? (i : NodeInfo) : Option Float := i.upperBound.filter fun b => !b.isNaN

inductive JoinNode where
  | base (table : TableRef) (info : NodeInfo)
  | join (left right : JoinNode) (info : NodeInfo) (tables : TableSet)
  deriving DecidableEq

namespace JoinNode

def ofTable (t : TableRef) : JoinNode := base t {}

def tables : JoinNode → TableSet
  | base t _ => .singleton t
  | join _ _ _ ts => ts

def info : JoinNode → NodeInfo
  | base _ i => i
  | join _ _ i _ => i

def mapInfo (f : NodeInfo → NodeInfo) : JoinNode → JoinNode
  | base t i => base t (f i)
  | join l r i ts => join l r (f i) ts

def joining (l r : JoinNode) : Except PlanError JoinNode :=
  if l.tables.isDisjoint r.tables then .ok (join l r {} (l.tables ∪ r.tables))
  else .error (.overlappingTrees l.tables r.tables)

def leaves : JoinNode → List TableRef
  | base t _ => [t]
  | join l r _ _ => l.leaves ++ r.leaves

def rightSpine : JoinNode → List JoinNode
  | base _ _ => []
  | join l r i ts => join l r i ts :: r.rightSpine

def joinSequence (n : JoinNode) : List JoinNode := n.rightSpine.reverse

@[simp] theorem joinSequence_base (t : TableRef) (i : NodeInfo) : (base t i).joinSequence = [] := rfl

@[simp] theorem joinSequence_join (l r : JoinNode) (i : NodeInfo) (ts : TableSet) :
    (join l r i ts).joinSequence = r.joinSequence ++ [join l r i ts] := List.reverse_cons

def joinSets : JoinNode → List TableSet
  | base _ _ => []
  | join l r _ ts => ts :: (l.joinSets ++ r.joinSets)

def updateAt (ts : TableSet) (f : NodeInfo → NodeInfo) (n : JoinNode) : Option JoinNode :=
  if n.tables = ts then some (n.mapInfo f)
  else match n with
    | base _ _ => none
    | join l r i s =>
      if ts.isSubset l.tables then (l.updateAt ts f).map fun l => join l r i s
      else (r.updateAt ts f).map fun r => join l r i s

def logical : JoinNode → JoinNode
  | base t i => base t { i with operator := none, inner := none }
  | join l r i ts => join l.logical r.logical { i with operator := none, inner := none } ts

def sideTables (l r : JoinNode) : Side → TableSet
  | .left => l.tables
  | .right => r.tables

def addJoinOperator (a : Assignment) (l r : JoinNode) (i : NodeInfo) (ts : TableSet) : Except PlanError Assignment :=
  match i.operator.bind Operator.asJoin? with
  | some op => a.setJoin ⟨op, ts, i.inner.map (l.sideTables r)⟩
  | none => .ok a

def addOperators (a : Assignment) : JoinNode → Except PlanError Assignment
  | base t i =>
    match i.operator.bind Operator.asScan? with
    | some op => .ok (a.setScan ⟨op, t⟩)
    | none => .ok a
  | join l r i ts => do r.addOperators (← l.addOperators (← addJoinOperator a l r i ts))

def render : JoinNode → String
  | base t _ => t.identifier
  | join l r _ _ => "(" ++ l.render ++ " ⋈ " ++ r.render ++ ")"

end JoinNode

structure JoinTree where
  root : Option JoinNode := none
  deriving DecidableEq

namespace JoinTree

def empty : JoinTree := {}

def ofTable (t : TableRef) : JoinTree := ⟨some (.ofTable t)⟩

def isEmpty (t : JoinTree) : Bool := t.root.isNone

def joining (l r : JoinTree) : Except PlanError JoinTree :=
  match l.root, r.root with
  | none, _ => .ok r
  | _, none => .ok l
  | some l, some r => do return ⟨some (← l.joining r)⟩

def crossProduct (ts : List JoinTree) : Except PlanError JoinTree := ts.foldlM joining empty

def tables (t : JoinTree) : TableSet := t.root.elim ∅ JoinNode.tables

def joinSequence (t : JoinTree) : List JoinNode := t.root.elim [] JoinNode.joinSequence

def subtrees (t : JoinTree) : SortedSet TableSet := .ofList (t.root.elim [] JoinNode.joinSets)

def operators (t : JoinTree) : Except PlanError Assignment :=
  match t.root with
  | some n => n.addOperators .empty
  | none => .ok .empty

def logical (t : JoinTree) : JoinTree := ⟨t.root.map JoinNode.logical⟩

def updateAt (t : JoinTree) (ts : TableSet) (f : NodeInfo → NodeInfo) : Except PlanError JoinTree :=
  match t.root.bind (JoinNode.updateAt ts f) with
  | some n => .ok ⟨some n⟩
  | none => .error (.malformedPlan (.uncovered ts))

def withBound (t : JoinTree) (ts : TableSet) (bound : Float) : Except PlanError JoinTree :=
  t.updateAt ts fun i => { i with upperBound := some bound }

def withOperator (t : JoinTree) (ts : TableSet) (op : Operator) : Except PlanError JoinTree :=
  t.updateAt ts fun i => { i with operator := some op }

def render (t : JoinTree) : String := t.root.elim "<empty>" JoinNode.render

end JoinTree

def Assignment.checkAgainst (a : Assignment) (t : JoinTree) : Except PlanError Unit :=
  if t.isEmpty then .ok ()
  else
    let subtrees := t.subtrees
    a.joins.keys.forM fun ts => if ts ∈ subtrees then .ok () else .error (.malformedPlan (.unmatchedJoin ts))

end OptimizerHints
