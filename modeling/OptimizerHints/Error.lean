import OptimizerHints.Operator
import OptimizerHints.Table.Set

namespace OptimizerHints

inductive PlanFault where
  | strayChoice (key tables : TableSet)
  | unmatchedJoin (tables : TableSet)
  | uncovered (tables : TableSet)
  | scanWithoutTable (nodeType : String)
  | neitherScanNorJoin (nodeType : String) (children : Nat)
  | joinWithoutInputs (nodeType : String)
  | notOneChild (nodeType : String) (children : Nat)
  | joinWithoutInner (nodeType : String)
  | emptyExplain
  | explainNotRecord
  | explainWithoutPlan
  | nodeWithoutType
  | childNotRecord
  | scanWithoutRelation
  deriving DecidableEq

inductive DocumentFault where
  | notScan (operator : String)
  | notJoin (operator : String)
  | joinInputs (count : Nat)
  | unknownSetting (word : String)
  deriving DecidableEq

inductive PlanError where
  | emptyJoinKey
  | scanArity (count : Nat)
  | invalidDirection (inner tables : TableSet)
  | overlappingTrees (left right : TableSet)
  | malformedPlan (fault : PlanFault)
  | unknownOperator (name : String)
  | explainText
  | documentText
  | document (fault : DocumentFault)
  | invalidIdentifier (text : String)
  deriving DecidableEq

def PlanFault.message : PlanFault → String
  | strayChoice key tables => "join operator stored under " ++ key.render ++ " targets " ++ tables.render
  | unmatchedJoin tables => "join operator for " ++ tables.render ++ " does not match any join of the join tree"
  | uncovered tables => "no node of the join tree covers " ++ tables.render
  | scanWithoutTable nodeType => "scan node '" ++ nodeType ++ "' has no table"
  | neitherScanNorJoin nodeType children =>
    "node '" ++ nodeType ++ "' is neither a scan nor a join and has " ++ toString children ++ " children"
  | joinWithoutInputs nodeType => "join node '" ++ nodeType ++ "' needs two children"
  | notOneChild nodeType children =>
    "non-join node '" ++ nodeType ++ "' must have exactly one child, has " ++ toString children
  | joinWithoutInner nodeType => "join node '" ++ nodeType ++ "' has no inner child"
  | emptyExplain => "empty EXPLAIN document"
  | explainNotRecord => "EXPLAIN document is not an object"
  | explainWithoutPlan => "missing 'Plan' entry"
  | nodeWithoutType => "plan node without 'Node Type'"
  | childNotRecord => "child plan is not an object"
  | scanWithoutRelation => "scan node without 'Relation Name'"

def DocumentFault.message : DocumentFault → String
  | notScan operator => "'" ++ operator ++ "' is not a scan operator"
  | notJoin operator => "'" ++ operator ++ "' is not a join operator"
  | joinInputs count => "a join needs exactly two inputs, got " ++ toString count
  | unknownSetting word => "unknown operator setting '" ++ word ++ "'"

def PlanError.message : PlanError → String
  | emptyJoinKey => "join operator assigned to an empty table set"
  | scanArity count => "scan operator must target exactly one table, got " ++ toString count
  | invalidDirection inner tables =>
    "invalid join direction: inner side " ++ inner.render ++ " is not a proper subset of " ++ tables.render
  | overlappingTrees left right => "cannot join trees that share tables: " ++ left.render ++ " and " ++ right.render
  | malformedPlan fault => "malformed execution plan: " ++ fault.message
  | unknownOperator name => "unknown operator or node type '" ++ name ++ "'"
  | explainText => "EXPLAIN document error"
  | documentText => "plan DSL error"
  | document fault => "plan DSL error: " ++ fault.message
  | invalidIdentifier text => "Invalid identifier: " ++ text

def TableRef.parse (src : String) : Except PlanError TableRef :=
  match TableRef.parse? src with
  | some t => .ok t
  | none => .error (.invalidIdentifier src)

def Operator.parse (s : String) : Except PlanError Operator :=
  match Operator.ofName? s with
  | some op => .ok op
  | none => .error (.unknownOperator (Text.trim s))

end OptimizerHints
