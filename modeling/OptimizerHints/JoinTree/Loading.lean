import OptimizerHints.JoinTree
import OptimizerHints.Plan

/-! The join tree of an execution plan: outer inputs to the left, inner inputs to the right. -/

namespace OptimizerHints

def JoinNode.ofPlan (plan : Plan) : Except PlanError JoinNode :=
  let p := plan.unwrapped
  if p.isScan then
    match p.table with
    | some t => .ok (.base t { operator := p.operator, upperBound := some p.rows })
    | none => .error (.malformedPlan (.scanWithoutTable p.nodeType))
  else if p.isJoin then
    match _ho : p.outer?, _hi : p.inner? with
    | some outer, some inner => do
      let l ← JoinNode.ofPlan outer
      let r ← JoinNode.ofPlan inner
      let n ← l.joining r
      return n.mapInfo fun _ => { operator := p.operator, upperBound := some p.rows, inner := some .right }
    | _, _ => .error (.malformedPlan (.joinWithoutInputs p.nodeType))
  else .error (.malformedPlan (.neitherScanNorJoin p.nodeType p.children.length))
  termination_by plan.size
  decreasing_by
  · exact Nat.lt_of_lt_of_le (Plan.size_lt_of_outer (by assumption)) (Plan.size_unwrapped_le plan)
  · exact Nat.lt_of_lt_of_le (Plan.size_lt_of_inner (by assumption)) (Plan.size_unwrapped_le plan)

def JoinTree.ofPlan (plan : Plan) : Except PlanError JoinTree := do return ⟨some (← JoinNode.ofPlan plan)⟩

end OptimizerHints
