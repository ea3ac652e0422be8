import OptimizerHints.Hint.Compilation
import OptimizerHints.Proofs.Assignment
import OptimizerHints.Proofs.Hint.DirectedOrder

namespace OptimizerHints

lemma JoinTree.eq_empty_of_isEmpty {t : JoinTree} (h : t.isEmpty = true) : t = .empty := by
  obtain ⟨root⟩ := t
  obtain rfl := Option.isNone_iff_eq_none.1 h
  rfl

lemma Assignment.eq_empty_of_isEmpty {a : Assignment} (h : a.isEmpty = true) : a = .empty := by
  obtain ⟨scans, joins, settings⟩ := a
  simp only [isEmpty, Bool.and_eq_true] at h
  obtain ⟨⟨hscans, hjoins⟩, hsettings⟩ := h
  rw [SortedMap.eq_empty_of_isEmpty hscans, SortedMap.eq_empty_of_isEmpty hjoins,
    SortedMap.eq_empty_of_isEmpty hsettings]
  rfl

lemma Parameters.eq_empty_of_isEmpty {p : Parameters} (h : p.isEmpty = true) : p = .empty := by
  obtain ⟨indexes, joinOrders, rows⟩ := p
  simp only [isEmpty, Bool.and_eq_true] at h
  obtain ⟨⟨hindexes, horders⟩, hrows⟩ := h
  rw [SortedMap.eq_empty_of_isEmpty hindexes, List.isEmpty_iff.1 horders, SortedMap.eq_empty_of_isEmpty hrows]
  rfl

namespace Hint

section Absent

variable {α : Type}

lemma getD_filter_not_isEmpty {isEmpty : α → Bool} {empty : α} (h : ∀ x, isEmpty x = true → x = empty)
    (decision : Option α) :
    (decision.filter fun x => !isEmpty x).getD empty = decision.getD empty := by
  cases decision with
  | none => rfl
  | some x =>
    rw [Option.filter_some]
    cases hx : isEmpty x with
    | false => rfl
    | true => exact (h x hx).symm

lemma partsOf_eq (empty : α) {parts : α → Except HintError HintParts} (h : parts empty = .ok .empty)
    (decision : Option α) : partsOf decision parts = parts (decision.getD empty) := by
  cases decision with
  | none => exact h.symm
  | some x => rfl

end Absent

def Request.decidedTree (r : Request) : JoinTree := r.tree.getD .empty

def Request.decidedOperators (r : Request) : Assignment := r.operators.getD .empty

def Request.decidedParameters (r : Request) : Parameters := r.parameters.getD .empty

lemma check_eq (r : Request) :
    check r = (do
      r.decidedOperators.validate.mapError .plan
      (r.decidedOperators.checkAgainst r.decidedTree).mapError fun e => .assignmentMismatch (.plan e)) := by
  have hempty : Assignment.empty.checkAgainst r.decidedTree = .ok () :=
    Assignment.checkAgainst_ok_iff.2 fun _ _ _ h => nomatch h
  rw [check, Request.decidedOperators]
  cases r.operators with
  | none =>
    rw [Option.getD_none, hempty]
    rfl
  | some ops =>
    rw [Request.decidedTree]
    cases r.tree <;> rfl

lemma orderParts_eq (d : Dialect) (t : JoinTree) (ops : Option Assignment) :
    orderParts d t ops = orderParts d t (some (ops.getD .empty)) := by
  cases ops with
  | none =>
    rw [orderParts, DirectedOrder.ofTree_none]
    rfl
  | some ops => rfl

theorem parts_eq (d : Dialect) (r : Request) :
    parts d r = (do
      r.decidedOperators.validate.mapError .plan
      (r.decidedOperators.checkAgainst r.decidedTree).mapError fun e => .assignmentMismatch (.plan e)
      let order ← orderParts d r.decidedTree (some r.decidedOperators)
      let operators ← operatorParts d r.decidedOperators
      let parameters ← parameterParts d r.decidedParameters
      return ((HintParts.empty.merge order).merge operators).merge parameters) := by
  have htree : r.trim.decidedTree = r.decidedTree :=
    getD_filter_not_isEmpty (fun _ => JoinTree.eq_empty_of_isEmpty) r.tree
  have hoperators : r.trim.decidedOperators = r.decidedOperators :=
    getD_filter_not_isEmpty (fun _ => Assignment.eq_empty_of_isEmpty) r.operators
  have hparameters : r.trim.decidedParameters = r.decidedParameters :=
    getD_filter_not_isEmpty (fun _ => Parameters.eq_empty_of_isEmpty) r.parameters
  have horder : partsOf r.trim.tree (fun t => orderParts d t r.trim.operators) =
      orderParts d r.decidedTree (some r.decidedOperators) := by
    rw [partsOf_eq JoinTree.empty rfl, orderParts_eq]
    exact congrArg₂ (fun t a => orderParts d t (some a)) htree hoperators
  have hops : partsOf r.trim.operators (operatorParts d) = operatorParts d r.decidedOperators :=
    (partsOf_eq Assignment.empty rfl r.trim.operators).trans (congrArg (operatorParts d) hoperators)
  have hparams : partsOf r.trim.parameters (parameterParts d) = parameterParts d r.decidedParameters :=
    (partsOf_eq Parameters.empty rfl r.trim.parameters).trans (congrArg (parameterParts d) hparameters)
  rw [parts]
  simp only [check_eq, htree, hoperators, horder, hops, hparams, bind_assoc]

end Hint

end OptimizerHints
