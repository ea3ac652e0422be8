import OptimizerHints.Error
import OptimizerHints.Sorted.Map

/-! Hints about a plan beyond its operators: indexes, join orders and row counts. -/

namespace OptimizerHints

inductive HintKind where
  | joinOrder
  | joinDirection
  | cardinality
  | index
  deriving DecidableEq, Repr

def HintKind.name : HintKind → String
  | joinOrder => "JoinOrderHint"
  | joinDirection => "JoinDirectionHint"
  | cardinality => "CardinalityHint"
  | index => "IndexHint"

structure Parameters where
  indexes : SortedMap (Option TableRef) (List String) := ∅
  joinOrders : List (List TableRef) := []
  rows : SortedMap TableSet Nat := ∅
  deriving DecidableEq

namespace Parameters

def empty : Parameters := {}

def isEmpty (p : Parameters) : Bool := p.indexes.isEmpty && p.joinOrders.isEmpty && p.rows.isEmpty

def appendNew {α : Type} [DecidableEq α] (xs : List α) (y : α) : List α := if y ∈ xs then xs else xs ++ [y]

def addIndexes (p : Parameters) (t : Option TableRef) (names : List String) : Parameters :=
  { p with indexes := p.indexes.insert t (names.foldl appendNew ((p.indexes.get? t).getD [])) }

def addJoinOrder (p : Parameters) (ts : List TableRef) : Parameters :=
  if ts.isEmpty then p else { p with joinOrders := appendNew p.joinOrders ts }

def setRows (p : Parameters) (ts : TableSet) (n : Nat) : Parameters := { p with rows := p.rows.insert ts n }

def addRows (p : Parameters) (ts : List TableRef) (n : Nat) : Except PlanError Parameters :=
  let set : TableSet := .ofList ts
  if set.isEmpty then .error .emptyJoinKey else .ok (p.setRows set n)

def merge (p q : Parameters) : Parameters :=
  let p := q.indexes.entries.foldl (fun acc e => acc.addIndexes e.1 e.2) p
  let p := q.joinOrders.foldl addJoinOrder p
  { p with rows := p.rows.union q.rows }

end Parameters

end OptimizerHints
