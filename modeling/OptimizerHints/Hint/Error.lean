import OptimizerHints.Hint.Dialect
import OptimizerHints.Text.Quoted

namespace OptimizerHints

inductive Mismatch where
  | plan (error : PlanError)
  | innerNotInput (inner tables : TableSet)
  deriving DecidableEq

inductive Inexpressible where
  | indexes (names : List String) (table : Option TableRef)
  | joinOrder (tables : List TableRef)
  | rows (count : Nat) (tables : TableSet)
  deriving DecidableEq

inductive HintError where
  | unsupportedOperator (dialect : Dialect) (operator : Operator)
  | unsupportedSetting (dialect : Dialect) (operator : Operator)
  | unsupportedHint (dialect : Dialect) (hint : Inexpressible)
  | assignmentMismatch (cause : Mismatch)
  | unknownDialect (name : String)
  | plan (error : PlanError)
  deriving DecidableEq

def Mismatch.message : Mismatch → String
  | plan error => error.message
  | innerNotInput inner tables =>
    "inner side " ++ inner.render ++ " of join " ++ tables.render ++ " is not one of its inputs"

namespace Inexpressible

def kind : Inexpressible → HintKind
  | indexes .. => .index
  | joinOrder .. => .joinOrder
  | rows .. => .cardinality

def detail : Inexpressible → String
  | indexes names t =>
    "indexes [" ++ ", ".intercalate (names.map Text.quote) ++ "] on " ++ t.elim "<no table>" TableRef.identifier
  | joinOrder ts => toString ts.length ++ " tables"
  | rows n ts => toString n ++ " rows for " ++ ts.render

end Inexpressible

def HintError.message : HintError → String
  | unsupportedOperator d op => d.name ++ " has no hint for operator " ++ op.name
  | unsupportedSetting d op => d.name ++ " has no optimizer setting for operator " ++ op.name
  | unsupportedHint d hint => d.name ++ " cannot express " ++ hint.kind.name ++ ": " ++ hint.detail
  | assignmentMismatch cause => "operator assignment does not match the join order: " ++ cause.message
  | unknownDialect name => "unknown dialect '" ++ name ++ "'"
  | plan error => error.message

def Dialect.parse (s : String) : Except HintError Dialect :=
  match Dialect.ofName? s with
  | some d => .ok d
  | none => .error (.unknownDialect (normalize s))

end OptimizerHints
