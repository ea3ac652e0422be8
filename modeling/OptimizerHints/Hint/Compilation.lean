import OptimizerHints.Hint.DirectedOrder
import OptimizerHints.Hint.Parts

/-! From a join order, an assignment and parameters to the hint clause of a query. -/

namespace OptimizerHints

namespace Hint

structure Request where
  tree : Option JoinTree := none
  operators : Option Assignment := none
  parameters : Option Parameters := none

def Request.trim (r : Request) : Request :=
  ⟨r.tree.filter fun t => !t.isEmpty, r.operators.filter fun a => !a.isEmpty,
    r.parameters.filter fun p => !p.isEmpty⟩

def orderParts (d : Dialect) (t : JoinTree) (ops : Option Assignment) : Except HintError HintParts := do
  match ← DirectedOrder.ofTree t ops with
  | some order => return ⟨[], [order.hint d]⟩
  | none => return .empty

def settingStatement (d : Dialect) (op : Operator) (s : Setting) : Except HintError String :=
  match d.settingStatement? op s with
  | some statement => .ok statement
  | none => .error (.unsupportedSetting d op)

def operatorHint (d : Dialect) (op : Operator) (tables : String) : Except HintError String :=
  match d.operatorHint? op with
  | some name => .ok (name ++ "(" ++ tables ++ ")")
  | none => .error (.unsupportedOperator d op)

def operatorParts (d : Dialect) (a : Assignment) : Except HintError HintParts := do
  let settings ← a.settings.entries.mapM fun (op, s) => settingStatement d op s
  let scans ← a.scans.entries.mapM fun (t, c) => operatorHint d (.scan c.operator) t.identifier
  let joins ← a.joins.entries.mapM fun (ts, c) => operatorHint d (.join c.operator) (ts.joinIdentifiers d.separator)
  return ⟨settings, scans ++ joins⟩

def indexHint (d : Dialect) (t : Option TableRef) (names : List String) : Except HintError String :=
  match d.indexHint? t names with
  | some hint => .ok hint
  | none => .error (.unsupportedHint d (.indexes names t))

def joinOrderHint (d : Dialect) (ts : List TableRef) : Except HintError String :=
  if d.supports .joinOrder then .ok (d.tableOrder ts) else .error (.unsupportedHint d (.joinOrder ts))

def rowsHint (d : Dialect) (ts : TableSet) (n : Nat) : Except HintError String :=
  match d.rowsHint? ts n with
  | some hint => .ok hint
  | none => .error (.unsupportedHint d (.rows n ts))

def parameterParts (d : Dialect) (p : Parameters) : Except HintError HintParts := do
  let indexes ← (p.indexes.entries.filter fun e => !e.2.isEmpty).mapM fun (t, names) => indexHint d t names
  let orders ← p.joinOrders.mapM (joinOrderHint d)
  let rows ← p.rows.entries.mapM fun (ts, n) => rowsHint d ts n
  return ⟨[], indexes ++ orders ++ rows⟩

def check (r : Request) : Except HintError Unit :=
  match r.operators with
  | none => .ok ()
  | some ops => do
    ops.validate.mapError .plan
    match r.tree with
    | some t => (ops.checkAgainst t).mapError fun e => .assignmentMismatch (.plan e)
    | none => .ok ()

def partsOf {α : Type} (decision : Option α) (parts : α → Except HintError HintParts) :
    Except HintError HintParts :=
  decision.elim (.ok .empty) parts

def parts (d : Dialect) (r : Request) : Except HintError HintParts := do
  let r := r.trim
  check r
  let order ← partsOf r.tree fun t => orderParts d t r.operators
  let operators ← partsOf r.operators (operatorParts d)
  let parameters ← partsOf r.parameters (parameterParts d)
  return ((HintParts.empty.merge order).merge operators).merge parameters

def compile (d : Dialect) (r : Request) (q : Query) : Except HintError Query := do
  let parts ← parts d r
  return parts.clause?.elim q fun c => { q with hint := some c }

end Hint

end OptimizerHints
