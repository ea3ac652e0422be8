import OptimizerHints.Error
import OptimizerHints.Operator
import OptimizerHints.Sorted.Map

namespace OptimizerHints

structure ScanChoice where
  operator : ScanOperator
  table : TableRef
  deriving DecidableEq, Repr

structure JoinChoice where
  operator : JoinOperator
  tables : TableSet
  inner : Option TableSet := none
  deriving DecidableEq

def ScanChoice.ofTables (op : ScanOperator) (ts : List TableRef) : Except PlanError ScanChoice :=
  let set : TableSet := .ofList ts
  match set.only? with
  | some t => .ok ⟨op, t⟩
  | none => .error (.scanArity set.size)

namespace JoinChoice

def properInner (tables : TableSet) (inner : TableSet) : Bool :=
  !inner.isEmpty && inner.isSubset tables && decide (inner ≠ tables)

def validate (c : JoinChoice) : Except PlanError Unit :=
  if c.tables.isEmpty then .error .emptyJoinKey
  else match c.inner with
    | some inner => if properInner c.tables inner then .ok () else .error (.invalidDirection inner c.tables)
    | none => .ok ()

def ofTables (op : JoinOperator) (ts : List TableRef) : Except PlanError JoinChoice :=
  let set : TableSet := .ofList ts
  if set.isEmpty then .error .emptyJoinKey else .ok ⟨op, set, none⟩

def withInner (c : JoinChoice) (inner : TableSet) : Except PlanError JoinChoice := do
  let directed := { c with inner := some inner }
  directed.validate
  return directed

end JoinChoice

structure Assignment where
  scans : SortedMap TableRef ScanChoice := ∅
  joins : SortedMap TableSet JoinChoice := ∅
  settings : SortedMap Operator Setting := ∅
  deriving DecidableEq

namespace Assignment

def empty : Assignment := {}

def isEmpty (a : Assignment) : Bool := a.scans.isEmpty && a.joins.isEmpty && a.settings.isEmpty

def setScan (a : Assignment) (c : ScanChoice) : Assignment := { a with scans := a.scans.insert c.table c }

def setJoin (a : Assignment) (c : JoinChoice) : Except PlanError Assignment := do
  c.validate
  return { a with joins := a.joins.insert c.tables c }

def addScan (a : Assignment) (op : ScanOperator) (ts : List TableRef) : Except PlanError Assignment := do
  return a.setScan (← ScanChoice.ofTables op ts)

def addJoin (a : Assignment) (op : JoinOperator) (ts : List TableRef) : Except PlanError Assignment := do
  a.setJoin (← JoinChoice.ofTables op ts)

def setOperator (a : Assignment) (op : Operator) (s : Setting) : Assignment :=
  { a with settings := a.settings.insert op s }

def scanFor? (a : Assignment) (t : TableRef) : Option ScanChoice := a.scans.get? t

def joinFor? (a : Assignment) (ts : TableSet) : Option JoinChoice := a.joins.get? ts

def merge (a b : Assignment) : Assignment :=
  ⟨a.scans.union b.scans, a.joins.union b.joins, a.settings.union b.settings⟩

def validateEntry (key : TableSet) (c : JoinChoice) : Except PlanError Unit := do
  c.validate
  if key = c.tables then .ok () else .error (.malformedPlan (.strayChoice key c.tables))

def validate (a : Assignment) : Except PlanError Unit :=
  a.joins.entries.forM fun (key, c) => validateEntry key c

end Assignment

end OptimizerHints
