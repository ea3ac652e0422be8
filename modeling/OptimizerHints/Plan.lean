import OptimizerHints.Error
import OptimizerHints.Operator

/-! Execution plans as a database reports them. -/

namespace OptimizerHints

/-- A node of a plan with its inputs. A node that is neither a scan nor a join only passes rows on. -/
structure Plan where
  nodeType : String
  isJoin : Bool
  isScan : Bool
  table : Option TableRef
  operator : Option Operator
  cost : Float
  estimatedRows : Float
  actualRows : Option Float
  executionTime : Option Float
  children : List Plan
  innerIndex : Option Nat
  deriving Inhabited

namespace Plan

mutual

def size : Plan → Nat
  | ⟨_, _, _, _, _, _, _, _, _, children, _⟩ => sizeAll children + 1

def sizeAll : List Plan → Nat
  | [] => 0
  | p :: ps => p.size + sizeAll ps

end

theorem size_le_sizeAll {c : Plan} {ps : List Plan} (h : c ∈ ps) : c.size ≤ sizeAll ps := by
  induction h with
  | head => exact Nat.le_add_right ..
  | tail p _ ih => exact Nat.le_trans ih (Nat.le_add_left ..)

theorem size_lt_of_mem_children {c p : Plan} (h : c ∈ p.children) : c.size < p.size := by
  cases p with
  | mk => exact Nat.lt_succ_of_le (size_le_sizeAll h)

def scan (t : TableRef) (op : Option ScanOperator) (cost rows : Float) : Plan where
  nodeType := (op.map ScanOperator.name).getD "Scan"
  isJoin := false
  isScan := true
  table := some t
  operator := op.map .scan
  cost := cost
  estimatedRows := rows
  actualRows := none
  executionTime := none
  children := []
  innerIndex := none

def join (op : Option JoinOperator) (outer inner : Plan) (cost rows : Float) : Plan where
  nodeType := (op.map JoinOperator.name).getD "Join"
  isJoin := true
  isScan := false
  table := none
  operator := op.map .join
  cost := cost
  estimatedRows := rows
  actualRows := none
  executionTime := none
  children := [outer, inner]
  innerIndex := some 1

def passing (nodeType : String) (child : Plan) : Plan where
  nodeType := nodeType
  isJoin := false
  isScan := false
  table := none
  operator := none
  cost := child.cost
  estimatedRows := child.estimatedRows
  actualRows := child.actualRows
  executionTime := none
  children := [child]
  innerIndex := none

def isAnalyzed (p : Plan) : Bool := p.executionTime.isSome || p.actualRows.isSome

def rows (p : Plan) : Float := p.actualRows.getD p.estimatedRows

def inner? (p : Plan) : Option Plan := p.children[p.innerIndex.getD 1]?

def outer? (p : Plan) : Option Plan := p.children[if p.innerIndex = some 0 then 1 else 0]?

theorem size_lt_of_inner {c p : Plan} (h : p.inner? = some c) : c.size < p.size :=
  size_lt_of_mem_children (List.mem_of_getElem? h)

theorem size_lt_of_outer {c p : Plan} (h : p.outer? = some c) : c.size < p.size :=
  size_lt_of_mem_children (List.mem_of_getElem? h)

def passed? (p : Plan) : Option Plan :=
  if p.isJoin || p.isScan then none
  else match p.children with
    | [c] => some c
    | _ => none

theorem size_lt_of_passed {c p : Plan} (h : p.passed? = some c) : c.size < p.size := by
  simp only [passed?] at h
  split at h
  · contradiction
  · split at h
    · next hc =>
      obtain rfl := Option.some.inj h
      exact size_lt_of_mem_children (hc ▸ List.mem_singleton_self _)
    · contradiction

def unwrapped (p : Plan) : Plan :=
  match _h : p.passed? with
  | some c => unwrapped c
  | none => p
  termination_by p.size
  decreasing_by exact size_lt_of_passed (by assumption)

theorem size_unwrapped_le (p : Plan) : p.unwrapped.size ≤ p.size := by
  fun_induction unwrapped p with
  | case1 p c h ih => exact Nat.le_trans ih (Nat.le_of_lt (size_lt_of_passed h))
  | case2 p h => exact Nat.le_refl _

def scanTable? (p : Plan) : Option TableRef := if p.isScan then p.table else none

def scanned (p : Plan) : List TableRef :=
  if p.isScan then p.table.toList else p.children.flatMap fun c => c.scanned
  termination_by p.size
  decreasing_by exact size_lt_of_mem_children (by assumption)

def tables (p : Plan) : TableSet := .ofList p.scanned

def joinSequence (p : Plan) : Except PlanError (List Plan) :=
  if p.isScan then .ok []
  else if p.isJoin then
    match _h : p.inner? with
    | some c => do return (← c.joinSequence) ++ [p]
    | none => .error (.malformedPlan (.joinWithoutInner p.nodeType))
  else
    match _h : p.passed? with
    | some c => c.joinSequence
    | none => .error (.malformedPlan (.notOneChild p.nodeType p.children.length))
  termination_by p.size
  decreasing_by
  · exact size_lt_of_inner (by assumption)
  · exact size_lt_of_passed (by assumption)

/-- A measure of lists of plans by which a join outweighs the join sequences of its inputs. -/
def weight : List Plan → Nat
  | [] => 0
  | p :: ps => Nat.pow 2 p.size + weight ps

theorem weight_append (ps qs : List Plan) : weight (ps ++ qs) = weight ps + weight qs := by
  induction ps with
  | nil => exact (Nat.zero_add _).symm
  | cons p ps ih =>
    rw [List.cons_append, weight, weight, ih]
    exact (Nat.add_assoc ..).symm

theorem weight_lt_weight_cons (p : Plan) (ps : List Plan) : weight ps < weight (p :: ps) :=
  Nat.lt_add_of_pos_left (Nat.pow_pos Nat.two_pos)

theorem weight_joinSequence_lt {p : Plan} {js : List Plan} (h : p.joinSequence = .ok js) :
    weight js < Nat.pow 2 (p.size + 1) := by
  fun_induction joinSequence p generalizing js with
  | case1 p hscan =>
    cases h
    exact Nat.pow_pos Nat.two_pos
  | case2 p hscan hjoin c hc ih =>
    cases hcs : c.joinSequence with
    | error e =>
      rw [hcs] at h
      cases h
    | ok cs =>
      rw [hcs] at h
      cases h
      have hlt : weight cs < Nat.pow 2 p.size :=
        Nat.lt_of_lt_of_le (ih hcs) (Nat.pow_le_pow_right Nat.two_pos (size_lt_of_inner hc))
      have hpow : Nat.pow 2 (p.size + 1) = Nat.pow 2 p.size * 2 := rfl
      rw [weight_append, weight, weight, hpow]
      omega
  | case3 => cases h
  | case4 p hscan hjoin c hc ih =>
    exact Nat.lt_of_lt_of_le (ih h) (Nat.pow_le_pow_right Nat.two_pos (Nat.le_succ_of_le (size_lt_of_passed hc)))
  | case5 => cases h

end Plan

end OptimizerHints
