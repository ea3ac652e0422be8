import OptimizerHints.Operator

namespace OptimizerHints

abbrev Ledger (α : Type) := List (JoinOperator × α)

namespace Ledger

variable {α : Type}

def costOf? (op : JoinOperator) : Ledger α → Option α
  | [] => none
  | (op', cost) :: l => if op' = op then some cost else costOf? op l

/-- Adds a cost; what was known of the operator before counts `gamma` times. -/
def observe [Add α] [Mul α] (gamma : α) (op : JoinOperator) (cost : α) : Ledger α → Ledger α
  | [] => [(op, cost)]
  | (op', old) :: l =>
    if op' = op then (op', cost + gamma * old) :: l else (op', old) :: observe gamma op cost l

def better [LE α] [DecidableLE α] (best candidate : JoinOperator × α) : JoinOperator × α :=
  if best.2 ≤ candidate.2 then best else candidate

def recommendation? [LE α] [DecidableLE α] : Ledger α → Option JoinOperator
  | first :: second :: rest => some ((second :: rest).foldl better first).1
  | _ => none

end Ledger

end OptimizerHints
