import OptimizerHints.JoinTree
import OptimizerHints.Parameters
import OptimizerHints.Plan
import OptimizerHints.Stored.Query

namespace OptimizerHints

open Stored

namespace Operator

def scanNames : List (String × ScanOperator) :=
  [ScanOperator.sequential, .index, .indexOnly, .bitmap].map fun op => (op.name, op)

def joinNames : List (String × JoinOperator) :=
  [JoinOperator.nestedLoop, .hash, .sortMerge, .indexNestedLoop, .blockNestedLoop, .indexMerge, .merge,
    .index].map fun op => (op.name, op)

def stored : Operator → Document
  | scan op => .ofFields [("Scan", .text op.name)]
  | join op => .ofFields [("Join", .text op.name)]

def ofStored? : Document → Option Operator
  | .record [(.text "Scan", d)] => (constant scanNames d).map scan
  | .record [(.text "Join", d)] => (constant joinNames d).map join
  | _ => none

end Operator

namespace Setting

def name : Setting → String
  | enabled => "Enabled"
  | disabled => "Disabled"
  | default => "Default"

def ofStored? : Document → Option Setting := constant ([enabled, disabled, default].map fun s => (s.name, s))

end Setting

def HintKind.ofStored? : Document → Option HintKind :=
  constant ([joinOrder, joinDirection, cardinality, index].map fun k => (k.name, k))

namespace Side

def name : Side → String
  | left => "Left"
  | right => "Right"

def ofStored? : Document → Option Side := constant [("Left", left), ("Right", right)]

end Side

namespace NodeInfo

def stored (i : NodeInfo) : Document :=
  .ofFields [("operator", optional Operator.stored i.operator), ("upper_bound", optional .real i.upperBound),
    ("inner", optional (fun s => .text s.name) i.inner)]

def ofStored? (d : Document) : Option NodeInfo := do
  match ← fields ["operator", "upper_bound", "inner"] d with
  | [operator, upperBound, inner] =>
    return ⟨← operator.orElse none (nullable Operator.ofStored?),
      ← upperBound.orElse none (nullable Document.asReal?), ← inner.orElse none (nullable Side.ofStored?)⟩
  | _ => none

end NodeInfo

namespace JoinNode

def stored : JoinNode → Document
  | base t i => .ofFields [("Base", .ofFields [("table", t.stored), ("annotation", i.stored)])]
  | join l r i ts =>
    .ofFields [("Join", .ofFields [("left", l.stored), ("right", r.stored), ("annotation", i.stored),
      ("tables", TableSet.stored ts)])]

/-- The stored table set of a join is taken as it is, whatever stands below the join. -/
def ofStored? (d : Document) : Option JoinNode :=
  match d with
  | .record [(.text "Base", d)] => do
    match ← fields ["table", "annotation"] d with
    | [table, info] => return base (← table.required TableRef.ofStored?) (← info.orElse {} NodeInfo.ofStored?)
    | _ => none
  | .record [(.text "Join", d)] =>
    match _h : fields ["left", "right", "annotation", "tables"] d with
    | some [.given left, .given right, info, tables] => do
      let l ← ofStored? left
      let r ← ofStored? right
      return join l r (← info.orElse {} NodeInfo.ofStored?) (← tables.required TableSet.ofStored?)
    | _ => none
  | _ => none
  termination_by sizeOf d
  decreasing_by
  · have := sizeOf_lt_of_fields _h (v := left) (by simp)
    simp only [Document.record.sizeOf_spec, List.cons.sizeOf_spec, Prod.mk.sizeOf_spec]
    omega
  · have := sizeOf_lt_of_fields _h (v := right) (by simp)
    simp only [Document.record.sizeOf_spec, List.cons.sizeOf_spec, Prod.mk.sizeOf_spec]
    omega

end JoinNode

namespace JoinTree

def stored (t : JoinTree) : Document := .ofFields [("root", optional JoinNode.stored t.root)]

def ofStored? (d : Document) : Option JoinTree := do
  match ← fields ["root"] d with
  | [root] => return ⟨← root.nullableIn (nullable JoinNode.ofStored?)⟩
  | _ => none

end JoinTree

namespace Plan

def storedFields : List String :=
  ["node_type", "is_join", "is_scan", "table", "physical_operator", "cost", "estimated_cardinality",
    "true_cardinality", "execution_time", "children", "inner_child"]

def stored (p : Plan) : Document :=
  .ofFields [("node_type", .text p.nodeType), ("is_join", .flag p.isJoin), ("is_scan", .flag p.isScan),
    ("table", optional TableRef.stored p.table), ("physical_operator", optional Operator.stored p.operator),
    ("cost", .real p.cost), ("estimated_cardinality", .real p.estimatedRows),
    ("true_cardinality", optional .real p.actualRows), ("execution_time", optional .real p.executionTime),
    ("children", .list (p.children.map fun c => c.stored)),
    ("inner_child", optional (fun n : Nat => .whole n) p.innerIndex)]
  termination_by p.size
  decreasing_by exact size_lt_of_mem_children (by assumption)

mutual

def ofStored? (d : Document) : Option Plan :=
  match _h : fields storedFields d with
  | some [nodeType, isJoin, isScan, table, operator, cost, estimated, actual, time, children, inner] => do
    let nodeType ← nodeType.required Document.asText?
    let isJoin ← isJoin.required Document.asFlag?
    let isScan ← isScan.required Document.asFlag?
    let table ← table.orElse none (nullable TableRef.ofStored?)
    let operator ← operator.orElse none (nullable Operator.ofStored?)
    let cost ← cost.required Document.asReal?
    let estimatedRows ← estimated.required Document.asReal?
    let actualRows ← actual.orElse none (nullable Document.asReal?)
    let executionTime ← time.orElse none (nullable Document.asReal?)
    let innerIndex ← inner.orElse none (nullable Document.asCount?)
    let children ← match _hc : children with
      | .given (.list items) => allOfStored? items
      | .given _ => none
      | .missing | .cut => some []
    return ⟨nodeType, isJoin, isScan, table, operator, cost, estimatedRows, actualRows, executionTime, children,
      innerIndex⟩
  | _ => none
  termination_by sizeOf d
  decreasing_by
    have := sizeOf_lt_of_fields _h (v := .list items) (by simp [_hc])
    simp only [Document.list.sizeOf_spec] at this
    omega

def allOfStored? (items : List Document) : Option (List Plan) :=
  match items with
  | [] => some []
  | d :: ds => do
    let p ← ofStored? d
    return p :: (← allOfStored? ds)
  termination_by sizeOf items

end

end Plan

namespace JoinChoice

def stored (c : JoinChoice) : Document :=
  .ofFields [("operator", .text c.operator.name), ("tables", TableSet.stored c.tables),
    ("inner", optional TableSet.stored c.inner)]

def ofStored? (d : Document) : Option JoinChoice := do
  match ← fields ["operator", "tables", "inner"] d with
  | [operator, tables, inner] =>
    return ⟨← operator.required (constant Operator.joinNames), ← tables.required TableSet.ofStored?,
      ← inner.orElse none (nullable TableSet.ofStored?)⟩
  | _ => none

end JoinChoice

namespace Assignment

def stored? (a : Assignment) : Option Document := do
  let scans ← emptyMapForm a.scans.entries
  let joins ← emptyMapForm a.joins.entries
  let settings ← emptyMapForm a.settings.entries
  return .ofFields [("scan_operators", scans), ("join_operators", joins), ("global_settings", settings)]

def ofStored? (d : Document) : Option Assignment := do
  match ← fields ["scan_operators", "join_operators", "global_settings"] d with
  | [scans, joins, settings] =>
    scans.required emptyMap
    joins.required emptyMap
    settings.required emptyMap
    return .empty
  | _ => none

end Assignment

namespace Parameters

def stored? (p : Parameters) : Option Document := do
  let indexes ← emptyMapForm p.indexes.entries
  let rows ← emptyMapForm p.rows.entries
  return .ofFields [("index_hints", indexes),
    ("join_order_hints", .list (p.joinOrders.map fun ts => .list (ts.map TableRef.stored))),
    ("cardinality_hints", rows)]

def ofStored? (d : Document) : Option Parameters := do
  match ← fields ["index_hints", "join_order_hints", "cardinality_hints"] d with
  | [indexes, joinOrders, rows] =>
    indexes.required emptyMap
    let joinOrders ← joinOrders.required (listOf (listOf TableRef.ofStored?))
    rows.required emptyMap
    return { joinOrders }
  | _ => none

end Parameters

end OptimizerHints
