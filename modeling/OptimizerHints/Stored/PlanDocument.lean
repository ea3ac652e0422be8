import OptimizerHints.PlanDocument
import OptimizerHints.Stored.Fields

namespace OptimizerHints

open Stored

def storedTexts (xs : List String) : Document := .list (xs.map .text)

def JoinSpecDetails.stored (d : JoinSpecDetails) : List (String × Document) :=
  [("bound", optional .real d.bound), ("operator", optional .text d.operator)]

namespace JoinSpec

mutual

def stored : JoinSpec → Document
  | table name none => .text name
  | table name (some d) => .ofFields (("table", .text name) :: d.stored)
  | join inputs none => .list (allStored inputs)
  | join inputs (some d) => .ofFields (("join", .list (allStored inputs)) :: d.stored)

def allStored : List JoinSpec → List Document
  | [] => []
  | s :: ss => s.stored :: allStored ss

end

end JoinSpec

def ScanEntry.stored (e : ScanEntry) : Document :=
  .ofFields [("table", .text e.table), ("operator", .text e.operator)]

def JoinEntry.stored (e : JoinEntry) : Document :=
  .ofFields [("tables", storedTexts e.tables), ("operator", .text e.operator), ("inner", optional storedTexts e.inner)]

def IndexEntry.stored (e : IndexEntry) : Document :=
  .ofFields [("table", optional .text e.table), ("indexes", storedTexts e.indexes)]

def RowsEntry.stored (e : RowsEntry) : Document :=
  .ofFields [("tables", storedTexts e.tables), ("rows", .whole e.rows)]

def ParameterSection.stored (p : ParameterSection) : Document :=
  .ofFields [("indexes", .list (p.indexes.map IndexEntry.stored)),
    ("join_orders", .list (p.joinOrders.map storedTexts)), ("cardinalities", .list (p.rows.map RowsEntry.stored))]

def PlanDocument.stored (d : PlanDocument) : Document :=
  .ofFields [("join_order", optional JoinSpec.stored d.joinOrder), ("scans", .list (d.scans.map ScanEntry.stored)),
    ("joins", .list (d.joins.map JoinEntry.stored)),
    ("settings", .ofFields (d.settings.entries.map fun e => (e.1, .text e.2))), ("params", d.parameters.stored)]

end OptimizerHints
