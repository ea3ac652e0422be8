import OptimizerHints.Plan

namespace OptimizerHints

inductive NodeFault where
  | notJoin (nodeType : String)
  | withoutOperator (nodeType : String)
  | withoutCost (nodeType : String)
  | withoutOuter (nodeType : String)
  | scanWithoutTable (nodeType : String)
  | outerNeither (outerType nodeType : String)
  deriving DecidableEq

inductive SynopsisError where
  | malformedNode (fault : NodeFault)
  | plan (error : PlanError)
  deriving DecidableEq

def NodeFault.message : NodeFault → String
  | notJoin nodeType => "'" ++ nodeType ++ "' is not a join node"
  | withoutOperator nodeType => "join node '" ++ nodeType ++ "' carries no join operator"
  | withoutCost nodeType => "join node '" ++ nodeType ++ "' carries no cost"
  | withoutOuter nodeType => "join node '" ++ nodeType ++ "' has no outer input"
  | scanWithoutTable nodeType => "scan node '" ++ nodeType ++ "' has no table"
  | outerNeither outerType nodeType =>
    "outer input '" ++ outerType ++ "' of join '" ++ nodeType ++ "' is neither a scan nor a join"

def SynopsisError.message : SynopsisError → String
  | malformedNode fault => "plan node cannot be integrated: " ++ fault.message
  | plan error => error.message

namespace Plan

def joinInput (p : Plan) : Except SynopsisError (JoinOperator × Plan) :=
  if !p.isJoin then .error (.malformedNode (.notJoin p.nodeType))
  else match p.operator.bind Operator.asJoin? with
    | none => .error (.malformedNode (.withoutOperator p.nodeType))
    | some op =>
      if p.cost.isNaN then .error (.malformedNode (.withoutCost p.nodeType))
      else match p.outer? with
        | none => .error (.malformedNode (.withoutOuter p.nodeType))
        | some outer =>
          let input := outer.unwrapped
          if input.isScan then
            if input.table.isSome then .ok (op, input)
            else .error (.malformedNode (.scanWithoutTable input.nodeType))
          else if input.isJoin then .ok (op, input)
          else .error (.malformedNode (.outerNeither input.nodeType p.nodeType))

theorem joinInput_eq_ok {p input : Plan} {op : JoinOperator} (h : p.joinInput = .ok (op, input)) :
    p.isJoin = true ∧ p.operator.bind Operator.asJoin? = some op ∧ p.cost.isNaN = false ∧
      (∃ outer, p.outer? = some outer ∧ outer.unwrapped = input) ∧
      (input.isScan = true ∧ input.table.isSome = true ∨ input.isScan = false ∧ input.isJoin = true) := by
  unfold joinInput at h
  split at h
  · cases h
  · split at h
    · cases h
    · split at h
      · cases h
      · split at h
        · cases h
        · next outer houter =>
          dsimp only at h
          split at h
          · split at h
            · cases h
              simp_all
            · cases h
          · split at h
            · cases h
              simp_all
            · cases h

theorem size_lt_of_joinInput {p input : Plan} {op : JoinOperator} (h : p.joinInput = .ok (op, input)) :
    input.size < p.size := by
  obtain ⟨-, -, -, ⟨outer, houter, rfl⟩, -⟩ := joinInput_eq_ok h
  exact Nat.lt_of_le_of_lt (size_unwrapped_le outer) (size_lt_of_outer houter)

theorem weight_inside_lt {p input : Plan} {ps inside : List Plan} {op : JoinOperator}
    (h : p.joinInput = .ok (op, input)) (hs : input.joinSequence = .ok inside) : weight inside < weight (p :: ps) :=
  calc weight inside
    _ < Nat.pow 2 (input.size + 1) := weight_joinSequence_lt hs
    _ ≤ Nat.pow 2 p.size := Nat.pow_le_pow_right Nat.two_pos (size_lt_of_joinInput h)
    _ ≤ weight (p :: ps) := Nat.le_add_right ..

def checkJoins : List Plan → Except SynopsisError Unit
  | [] => .ok ()
  | j :: js =>
    match _h : j.joinInput with
    | .error e => .error e
    | .ok (_, input) =>
      if input.isJoin then
        match _hs : input.joinSequence with
        | .error e => .error (.plan e)
        | .ok inside => do
          checkJoins inside
          checkJoins js
      else checkJoins js
  termination_by js => weight js
  decreasing_by
  · exact weight_inside_lt (by assumption) (by assumption)
  all_goals exact weight_lt_weight_cons ..

theorem checkJoins_nil : checkJoins [] = .ok () := by
  rw [checkJoins]

theorem checkJoins_cons_error {j : Plan} {js : List Plan} {e : SynopsisError} (h : j.joinInput = .error e) :
    checkJoins (j :: js) = .error e := by
  rw [checkJoins]
  split <;> simp_all

theorem checkJoins_cons {j input : Plan} {js : List Plan} {op : JoinOperator} (h : j.joinInput = .ok (op, input)) :
    checkJoins (j :: js) =
      if input.isJoin then do
        checkJoins (← input.joinSequence.mapError .plan)
        checkJoins js
      else checkJoins js := by
  rw [checkJoins]
  split
  · simp_all
  · next he =>
    rw [h] at he
    cases he
    congr 1
    split
    · next hs =>
      rw [hs]
      rfl
    · next hs =>
      rw [hs]
      rfl

end Plan

end OptimizerHints
