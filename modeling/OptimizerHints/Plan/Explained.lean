import OptimizerHints.Document
import OptimizerHints.Json.Reader
import OptimizerHints.Plan

namespace OptimizerHints

namespace Document

theorem sizeOf_lt_of_field {d v : Document} {name : String} (h : d.field? name = some v) : sizeOf v < sizeOf d := by
  unfold field? at h
  split at h
  · next fields =>
    obtain ⟨f, hf, rfl⟩ := Option.map_eq_some_iff.1 h
    have hm := List.sizeOf_lt_of_mem (List.mem_reverse.1 (List.mem_of_find?_eq_some hf))
    obtain ⟨k, v⟩ := f
    simp only [Prod.mk.sizeOf_spec, record.sizeOf_spec] at hm ⊢
    omega
  · contradiction

def textField? (d : Document) (name : String) : Option String := (d.field? name).bind asText?

def realField? (d : Document) (name : String) : Option Float := (d.field? name).bind asReal?

end Document

namespace Plan

def scanTypes : List String :=
  ["Seq Scan", "Index Scan", "Index Only Scan", "Bitmap Heap Scan", "Tid Scan", "Sample Scan"]

def joinTypes : List String := ["Nested Loop", "Hash Join", "Merge Join"]

def explainedTable (d : Document) : Except PlanError TableRef :=
  match d.textField? "Relation Name" with
  | some name => .ok ⟨name, (d.textField? "Alias").filter (· ≠ name), d.textField? "Schema"⟩
  | none => .error (.malformedPlan .scanWithoutRelation)

def explainedRows (d : Document) : Option Float :=
  match d.realField? "Actual Rows", d.realField? "Actual Loops" with
  | some rows, some loops => some (rows * loops)
  | rows, _ => rows

def explainedInner (children : List Document) : Option Nat :=
  ((children.zipIdx.filter fun c => c.1.textField? "Parent Relationship" == some "Inner").getLast?).map Prod.snd

def explainedNode (d : Document) (nodeType : String) (table : Option TableRef) (children : List Plan)
    (innerIndex : Option Nat) : Plan where
  nodeType := nodeType
  isJoin := joinTypes.contains nodeType
  isScan := table.isSome
  table := table
  operator := Operator.ofName? nodeType
  cost := (d.realField? "Total Cost").getD (0 / 0)
  estimatedRows := (d.realField? "Plan Rows").getD (0 / 0)
  actualRows := explainedRows d
  executionTime := none
  children := children
  innerIndex := innerIndex

def readsTable (d : Document) (nodeType : String) : Bool :=
  scanTypes.contains nodeType || (d.field? "Relation Name").isSome

mutual

/-- A node of the document. What stands below a scan belongs to the scan. -/
def ofExplainedNode (d : Document) : Except PlanError Plan :=
  match d.textField? "Node Type" with
  | none => .error (.malformedPlan .nodeWithoutType)
  | some nodeType =>
    if readsTable d nodeType then do
      let t ← explainedTable d
      return explainedNode d nodeType (some t) [] none
    else
      match _h : d.field? "Plans" with
      | some (.list items) => do
        let children ← ofExplainedNodes items
        return explainedNode d nodeType none children (explainedInner items)
      | _ => .ok (explainedNode d nodeType none [] none)
  termination_by sizeOf d
  decreasing_by
    have := Document.sizeOf_lt_of_field (by assumption)
    simp only [Document.list.sizeOf_spec] at this
    omega

def ofExplainedNodes (items : List Document) : Except PlanError (List Plan) :=
  match items with
  | [] => .ok []
  | d :: ds =>
    if d.isRecord then do
      let p ← ofExplainedNode d
      return p :: (← ofExplainedNodes ds)
    else .error (.malformedPlan .childNotRecord)
  termination_by sizeOf items

end

def ofExplained (d : Document) : Except PlanError Plan := do
  let top ← match d with
    | .list (first :: _) => .ok first
    | .list [] => .error (.malformedPlan .emptyExplain)
    | d => .ok d
  if !top.isRecord then throw (.malformedPlan .explainNotRecord)
  match (top.field? "Plan").filter Document.isRecord with
  | some d =>
    let p ← ofExplainedNode d
    return { p with executionTime := top.realField? "Execution Time" }
  | none => throw (.malformedPlan .explainWithoutPlan)

def ofExplainText (s : String) : Except PlanError Plan :=
  match Json.read? s with
  | some d => ofExplained d
  | none => .error .explainText

end Plan

end OptimizerHints
