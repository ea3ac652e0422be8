import OptimizerHints.JoinTree
import OptimizerHints.Parameters

namespace OptimizerHints

structure JoinSpecDetails where
  bound : Option Float := none
  operator : Option String := none
  deriving DecidableEq

inductive JoinSpec where
  | table (name : String) (details : Option JoinSpecDetails)
  | join (inputs : List JoinSpec) (details : Option JoinSpecDetails)

structure ScanEntry where
  table : String
  operator : String

structure JoinEntry where
  tables : List String
  operator : String
  inner : Option (List String)

structure IndexEntry where
  table : Option String
  indexes : List String

structure RowsEntry where
  tables : List String
  rows : Nat

structure ParameterSection where
  indexes : List IndexEntry := []
  joinOrders : List (List String) := []
  rows : List RowsEntry := []

structure PlanDocument where
  joinOrder : Option JoinSpec := none
  scans : List ScanEntry := []
  joins : List JoinEntry := []
  settings : SortedMap String String := ∅
  parameters : ParameterSection := {}

structure DeclaredPlan where
  tree : JoinTree
  operators : Assignment
  parameters : Parameters

def JoinSpecDetails.annotate (d : JoinSpecDetails) (t : JoinTree) : Except PlanError JoinTree := do
  let ts := t.tables
  let t ← match d.bound with
    | some b => t.withBound ts b
    | none => .ok t
  match d.operator with
  | some name => t.withOperator ts (← Operator.parse name)
  | none => .ok t

namespace JoinSpec

def annotate (d : Option JoinSpecDetails) (t : JoinTree) : Except PlanError JoinTree :=
  match d with
  | some d => d.annotate t
  | none => .ok t

def toTree : JoinSpec → Except PlanError JoinTree
  | table name d => do annotate d (.ofTable (← TableRef.parse name))
  | join [outer, inner] d => do
    let outer ← outer.toTree
    let inner ← inner.toTree
    annotate d (← outer.joining inner)
  | join inputs _ => .error (.document (.joinInputs inputs.length))

end JoinSpec

namespace PlanDocument

abbrev Names := SortedMap String TableRef

def namesOf (t : JoinTree) : Names := .ofList (t.tables.toList.map fun t => (t.identifier, t))

def resolve (known : Names) (name : String) : Except PlanError TableRef :=
  match known.get? (Text.trim name) with
  | some t => .ok t
  | none => TableRef.parse name

def resolveAll (known : Names) (names : List String) : Except PlanError (List TableRef) := names.mapM (resolve known)

def addScan (known : Names) (a : Assignment) (e : ScanEntry) : Except PlanError Assignment := do
  match (← Operator.parse e.operator).asScan? with
  | some op => return a.setScan ⟨op, ← resolve known e.table⟩
  | none => throw (.document (.notScan e.operator))

def joinChoice (known : Names) (op : JoinOperator) (e : JoinEntry) : Except PlanError JoinChoice := do
  let c ← JoinChoice.ofTables op (← resolveAll known e.tables)
  match e.inner with
  | some inner => c.withInner (.ofList (← resolveAll known inner))
  | none => return c

def addJoin (known : Names) (a : Assignment) (e : JoinEntry) : Except PlanError Assignment := do
  match (← Operator.parse e.operator).asJoin? with
  | some op => a.setJoin (← joinChoice known op e)
  | none => throw (.document (.notJoin e.operator))

def addSetting (a : Assignment) (e : String × String) : Except PlanError Assignment := do
  let op ← Operator.parse e.1
  match Setting.ofWord? e.2 with
  | some s => return a.setOperator op s
  | none => throw (.document (.unknownSetting (Text.lowerAscii (Text.trim e.2))))

def addIndexes (known : Names) (p : Parameters) (e : IndexEntry) : Except PlanError Parameters := do
  let t ← match e.table with
    | some name => some <$> resolve known name
    | none => pure none
  return p.addIndexes t e.indexes

def addJoinOrder (known : Names) (p : Parameters) (names : List String) : Except PlanError Parameters := do
  return p.addJoinOrder (← resolveAll known names)

def addRows (known : Names) (p : Parameters) (e : RowsEntry) : Except PlanError Parameters := do
  p.addRows (← resolveAll known e.tables) e.rows

def declare (d : PlanDocument) : Except PlanError DeclaredPlan := do
  let tree ← match d.joinOrder with
    | some spec => spec.toTree
    | none => pure .empty
  let known := namesOf tree
  let operators ← d.scans.foldlM (addScan known) (← tree.operators)
  let operators ← d.joins.foldlM (addJoin known) operators
  let operators ← d.settings.entries.foldlM addSetting operators
  let parameters ← d.parameters.indexes.foldlM (addIndexes known) .empty
  let parameters ← d.parameters.joinOrders.foldlM (addJoinOrder known) parameters
  let parameters ← d.parameters.rows.foldlM (addRows known) parameters
  return ⟨tree, operators, parameters⟩

end PlanDocument

end OptimizerHints
