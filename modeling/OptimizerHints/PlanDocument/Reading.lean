import OptimizerHints.Json.Reader
import OptimizerHints.PlanDocument
import OptimizerHints.Stored.Fields
import OptimizerHints.Yaml.Scalar

namespace OptimizerHints

open Stored

structure DocumentFormat (ν : Type) where
  text : ν → Option String
  count : ν → Option Nat
  isNull : ν → Bool
  list : ν → Option (List ν)
  fields : List String → ν → Option (List (FieldValue ν) × Bool)
  texts : ν → Option (List (String × String))
  value : ν → Document

namespace JoinSpec

def details? (bound operator : FieldValue Document) : Option JoinSpecDetails := do
  return ⟨← bound.orElse none (nullable Document.asReal?), ← operator.orElse none (nullable Document.asText?)⟩

def tableOf? (fs : List (Document × Document)) : Option JoinSpec := do
  match ← recordFields ["table", "bound", "operator"] fs with
  | [name, bound, operator] =>
    let details ← details? bound operator
    return table (← name.required Document.asText?) (some details)
  | _ => none

mutual

def ofDocument? (d : Document) : Option JoinSpec :=
  match d with
  | .text name => some (table name none)
  | .list items => (allOfDocument? items).map fun inputs => join inputs none
  | .record fs =>
    match tableOf? fs with
    | some spec => some spec
    | none =>
      match _h : recordFields ["join", "bound", "operator"] fs with
      | some [.given (.list items), bound, operator] => do
        let details ← details? bound operator
        return join (← allOfDocument? items) (some details)
      | _ => none
  | _ => none
  termination_by sizeOf d
  decreasing_by
  · simp only [Document.list.sizeOf_spec]
    omega
  · have := sizeOf_lt_of_recordFields _h (v := .list items) (by simp)
    simp only [Document.list.sizeOf_spec] at this
    omega

def allOfDocument? (items : List Document) : Option (List JoinSpec) :=
  match items with
  | [] => some []
  | d :: ds => do
    let spec ← ofDocument? d
    return spec :: (← allOfDocument? ds)
  termination_by sizeOf items

end

end JoinSpec

namespace DocumentFormat

variable {ν α : Type} (f : DocumentFormat ν)

def nullable (read : ν → Option α) (v : ν) : Option (Option α) :=
  if f.isNull v then some none else (read v).map some

def listOf (read : ν → Option α) (v : ν) : Option (List α) := (f.list v).bind (·.mapM read)

def names : ν → Option (List String) := f.listOf f.text

def scanEntry (v : ν) : Option ScanEntry := do
  match (← f.fields ["table", "operator"] v).1 with
  | [table, operator] => return ⟨← table.required f.text, ← operator.required f.text⟩
  | _ => none

def joinEntry (v : ν) : Option JoinEntry := do
  match (← f.fields ["tables", "operator", "inner"] v).1 with
  | [tables, operator, inner] =>
    return ⟨← tables.required f.names, ← operator.required f.text, ← inner.orElse none (f.nullable f.names)⟩
  | _ => none

def indexEntry (v : ν) : Option IndexEntry := do
  match (← f.fields ["table", "indexes"] v).1 with
  | [table, indexes] => return ⟨← table.orElse none (f.nullable f.text), ← indexes.required f.names⟩
  | _ => none

def rowsEntry (v : ν) : Option RowsEntry := do
  match (← f.fields ["tables", "rows"] v).1 with
  | [tables, rows] => return ⟨← tables.required f.names, ← rows.required f.count⟩
  | _ => none

def parameterSection (v : ν) : Option ParameterSection := do
  match (← f.fields ["indexes", "join_orders", "cardinalities"] v).1 with
  | [indexes, joinOrders, rows] =>
    return ⟨← indexes.orElse [] (f.listOf f.indexEntry), ← joinOrders.orElse [] (f.listOf f.names),
      ← rows.orElse [] (f.listOf f.rowsEntry)⟩
  | _ => none

def joinSpec (v : ν) : Option JoinSpec :=
  let d := f.value v
  if d.isSound then JoinSpec.ofDocument? d else none

def planDocument (v : ν) : Option PlanDocument := do
  match ← f.fields ["join_order", "scans", "joins", "settings", "params"] v with
  | ([joinOrder, scans, joins, settings, parameters], true) =>
    let joinOrder ← joinOrder.orElse none (f.nullable f.joinSpec)
    let scans ← scans.orElse [] (f.listOf f.scanEntry)
    let joins ← joins.orElse [] (f.listOf f.joinEntry)
    let settings ← settings.orElse [] f.texts
    let parameters ← parameters.orElse {} f.parameterSection
    return ⟨joinOrder, scans, joins, .ofList settings, parameters⟩
  | _ => none

end DocumentFormat

namespace Json

def isExact (names : List String) : Document → Bool
  | .record fs => fs.all fun f => fieldIndex? names f.1 != some none
  | _ => true

def textEntry? (e : Document × Document) : Option (String × String) := do return (← e.1.asText?, ← e.2.asText?)

def documentFormat : DocumentFormat Document where
  text := Document.asText?
  count := Document.asCount?
  isNull := fun
    | .null => true
    | _ => false
  list := Document.asList?
  fields := fun names d => (Stored.fields names d).map fun fs => (fs, isExact names d)
  texts := fun
    | .record fs => fs.mapM textEntry?
    | _ => none
  value := id

end Json

namespace Yaml

namespace Node

def asText? : Node → Option String
  | scalar s _ => some s
  | _ => none

def isAbsent : Node → Bool
  | scalar s plain => plain && s.isEmpty
  | _ => false

def entries? : Node → Option (List (Node × Node))
  | mapping entries => some entries
  | n => if n.isAbsent then some [] else none

def field (entries : List (String × Node)) (name : String) : Option (FieldValue Node) :=
  match entries.filter fun e => e.1 == name with
  | [] => some .missing
  | [e] => some (.given e.2)
  | _ => none

def fields (names : List String) (n : Node) : Option (List (FieldValue Node) × Bool) := do
  let entries ← (← n.entries?).mapM fun e => do return (← e.1.asText?, e.2)
  return (← names.mapM (field entries), entries.all fun e => names.contains e.1)

end Node

def documentFormat : DocumentFormat Node where
  text := Node.asText?
  count := fun
    | .scalar s true => count? s
    | _ => none
  isNull := fun
    | .scalar s true => s.isEmpty || isNull s
    | _ => false
  list := fun
    | .sequence items => some items
    | n => if n.isAbsent then some [] else none
  fields := Node.fields
  texts := fun n => do (← n.entries?).mapM fun e => do return (← e.1.asText?, ← e.2.asText?)
  value := Node.toDocument

end Yaml

namespace PlanDocument

def ofYaml (s : String) : Except PlanError PlanDocument :=
  match (Yaml.Node.read? s).bind fun root => root.elim (some {}) Yaml.documentFormat.planDocument with
  | some d => .ok d
  | none => .error .documentText

def ofStored? : Document → Option PlanDocument := Json.documentFormat.planDocument

end PlanDocument

def DeclaredPlan.ofYaml (s : String) : Except PlanError DeclaredPlan := do (← PlanDocument.ofYaml s).declare

end OptimizerHints
