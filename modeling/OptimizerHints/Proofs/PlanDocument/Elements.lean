import OptimizerHints.Proofs.PlanDocument.Direction
import OptimizerHints.Proofs.JoinTree.Annotations

/-! The nodes that the elements of a join order become. Each element has its own node in the tree with the operator
that it names, also if that operator is not one for the node. -/

namespace OptimizerHints

open Outcome

def Operator.isScan (op : Operator) : Bool := op.asScan?.isSome

def Operator.isJoin (op : Operator) : Bool := op.asJoin?.isSome

namespace JoinNode

variable {n m : JoinNode}

def nodes : JoinNode → List JoinNode
  | base t i => [base t i]
  | join l r i ts => join l r i ts :: (l.nodes ++ r.nodes)

lemma mem_nodes_self (n : JoinNode) : n ∈ n.nodes := by
  cases n <;> exact List.mem_cons_self

lemma base_mem_bases {t : TableRef} {i : NodeInfo} (h : base t i ∈ n.nodes) : base t i ∈ n.bases := by
  induction n with
  | base t' i' => exact h
  | join l r i' ts ihl ihr =>
    obtain h | h := List.mem_cons.1 h
    · cases h
    · exact List.mem_append.2 ((List.mem_append.1 h).imp ihl ihr)

lemma join_mem_joins {l r : JoinNode} {i : NodeInfo} {ts : TableSet} (h : join l r i ts ∈ n.nodes) :
    join l r i ts ∈ n.joins := by
  induction n with
  | base t' i' =>
    obtain h := List.mem_singleton.1 h
    cases h
  | join l' r' i' ts' ihl ihr =>
    obtain h | h := List.mem_cons.1 h
    · exact h ▸ List.mem_cons_self
    · exact List.mem_cons_of_mem _ (List.mem_append.2 ((List.mem_append.1 h).imp ihl ihr))

def pruned : JoinNode → JoinNode
  | base t i => base t { i with operator := i.operator.filter Operator.isScan }
  | join l r i ts => join l.pruned r.pruned { i with operator := i.operator.filter Operator.isJoin } ts

@[simp] lemma tables_pruned (n : JoinNode) : n.pruned.tables = n.tables := by
  cases n <;> rfl

lemma addOperators_pruned (n : JoinNode) (a : Assignment) : n.pruned.addOperators a = n.addOperators a := by
  induction n generalizing a with
  | base t i => rcases i with ⟨_ | _ | _, bound, inner⟩ <;> rfl
  | join l r i ts ihl ihr =>
    have hsides : l.pruned.sideTables r.pruned = l.sideTables r := by
      funext side
      cases side <;> exact tables_pruned _
    have hself : addJoinOperator a l.pruned r.pruned { i with operator := i.operator.filter Operator.isJoin }
        ts = addJoinOperator a l r i ts := by
      rw [addJoinOperator, addJoinOperator, hsides]
      rcases i with ⟨_ | _ | _, bound, inner⟩ <;> rfl
    simp only [pruned, addOperators, hself, ihl, ihr]

lemma joining_pruned (l r : JoinNode) : l.pruned.joining r.pruned = (l.joining r).map pruned := by
  rw [joining, joining, tables_pruned, tables_pruned]
  split <;> rfl

end JoinNode

namespace JoinTree

def pruned (t : JoinTree) : JoinTree := ⟨t.root.map JoinNode.pruned⟩

@[simp] lemma tables_pruned (t : JoinTree) : t.pruned.tables = t.tables := by
  obtain ⟨_ | n⟩ := t
  · rfl
  · exact n.tables_pruned

@[simp] lemma operators_pruned (t : JoinTree) : t.pruned.operators = t.operators := by
  obtain ⟨_ | n⟩ := t
  · rfl
  · exact n.addOperators_pruned .empty

end JoinTree

namespace JoinSpec

variable {spec el : JoinSpec} {d : Option JoinSpecDetails} {n m : JoinNode} {word name : String}

mutual

def elements : JoinSpec → List JoinSpec
  | table name d => [table name d]
  | join inputs d => join inputs d :: allElements inputs

def allElements : List JoinSpec → List JoinSpec
  | [] => []
  | s :: ss => s.elements ++ allElements ss

end

def operator? : JoinSpec → Option String
  | table _ d | join _ d => d.bind (·.operator)

def noted (d : Option JoinSpecDetails) : Except PlanError NodeInfo :=
  match d.bind (·.operator) with
  | some word => (Operator.parse word).map fun op => { operator := some op, upperBound := d.bind (·.bound) }
  | none => .ok { upperBound := d.bind (·.bound) }

def toNode : JoinSpec → Except PlanError JoinNode
  | table name d => do return .base (← TableRef.parse name) (← noted d)
  | join [outer, inner] d => do
    let l ← outer.toNode
    let r ← inner.toNode
    let n ← l.joining r
    let i ← noted d
    return n.mapInfo fun _ => i
  | join inputs _ => .error (.document (.joinInputs inputs.length))

lemma noted_of_operator {details : JoinSpecDetails} (h : details.operator = some word) : noted (some details) =
    (Operator.parse word).map fun op => { operator := some op, upperBound := details.bound } := by
  rw [noted, Option.bind_some, h]
  rfl

lemma operator_of_noted {i : NodeInfo} (hi : noted d = .ok i) (hword : d.bind (·.operator) = some word) :
    ∃ op, Operator.parse word = .ok op ∧ i.operator = some op ∧ i.inner = none := by
  rw [noted, hword] at hi
  obtain ⟨op, hop, rfl⟩ := mapped_ok_iff.1 hi
  exact ⟨op, hop, rfl, rfl⟩

lemma withBound_root (n : JoinNode) (b : Float) : JoinTree.withBound ⟨some n⟩ n.tables b =
    .ok ⟨some (n.mapInfo fun i => { i with upperBound := some b })⟩ := by
  cases n <;> simp [JoinTree.withBound, JoinTree.updateAt, JoinNode.updateAt]

lemma annotate_root (hn : n.info = {}) :
    annotate d ⟨some n⟩ = (noted d).map fun i => ⟨some (n.mapInfo fun _ => i)⟩ := by
  have hoperator {n' : JoinNode} (word : String) (htables : n'.tables = n.tables) :
      Operator.parse word >>= JoinTree.withOperator ⟨some n'⟩ n.tables =
        (Operator.parse word).map fun op => ⟨some (n'.mapInfo fun i => { i with operator := some op })⟩ := by
    rw [← htables]
    cases Operator.parse word with
    | error e => rfl
    | ok op => exact withOperator_root n' op
  have hbare (next : JoinTree → Except PlanError JoinTree) : .ok ⟨some n⟩ >>= next = next ⟨some n⟩ := rfl
  have hbounded (b : Float) (next : JoinTree → Except PlanError JoinTree) :
      JoinTree.withBound ⟨some n⟩ n.tables b >>= next =
        next ⟨some (n.mapInfo fun i => { i with upperBound := some b })⟩ := by
    rw [withBound_root]
    rfl
  rcases d with _ | ⟨_ | b, _ | word⟩
  · cases n <;> cases hn <;> rfl
  · cases n <;> cases hn <;> rfl
  · refine (hbare _).trans ((hoperator word rfl).trans ?_)
    rw [noted_of_operator rfl]
    cases n <;> cases hn <;> cases Operator.parse word <;> rfl
  · refine (hbounded b _).trans ?_
    cases n <;> cases hn <;> rfl
  · refine (hbounded b _).trans ((hoperator word (by cases n <;> rfl)).trans ?_)
    rw [noted_of_operator rfl]
    cases n <;> cases hn <;> cases Operator.parse word <;> rfl

theorem toTree_eq (spec : JoinSpec) : spec.toTree = spec.toNode.map fun n => ⟨some n⟩ := by
  fun_induction toTree spec with
  | case1 name d =>
    rw [toNode]
    cases TableRef.parse name with
    | error e => rfl
    | ok x =>
      refine (annotate_root (n := .ofTable x) rfl).trans ?_
      cases noted d <;> rfl
  | case2 outer inner d iho ihi =>
    rw [toNode, iho, ihi]
    cases outer.toNode with
    | error e => rfl
    | ok l =>
      cases inner.toNode with
      | error e => rfl
      | ok r =>
        have hjoining : JoinTree.joining ⟨some l⟩ ⟨some r⟩ = (l.joining r).map fun n => ⟨some n⟩ := by
          change l.joining r >>= (fun n => pure (JoinTree.mk (some n))) = _
          cases l.joining r <;> rfl
        change JoinTree.joining ⟨some l⟩ ⟨some r⟩ >>= annotate d = (l.joining r >>= _).map _
        rw [hjoining]
        cases hn : l.joining r with
        | error e => rfl
        | ok n =>
          obtain ⟨-, rfl⟩ := JoinNode.joining_ok_iff.1 hn
          refine (annotate_root rfl).trans ?_
          cases noted d <;> rfl
  | case3 inputs d h =>
    rw [toNode]
    · rfl
    · exact h

lemma toNode_table_ok_iff : (table name d).toNode = .ok n ↔
    ∃ x i, TableRef.parse name = .ok x ∧ noted d = .ok i ∧ .base x i = n := by
  simp only [toNode, then_ok_iff, done_ok_iff]
  grind

lemma toNode_join_ok_iff {inputs : List JoinSpec} : (join inputs d).toNode = .ok n ↔
    ∃ outer inner l r i, inputs = [outer, inner] ∧ outer.toNode = .ok l ∧ inner.toNode = .ok r ∧
      (∀ t ∈ l.tables, t ∉ r.tables) ∧ noted d = .ok i ∧ .join l r i (l.tables ∪ r.tables) = n := by
  rcases inputs with _ | ⟨outer, _ | ⟨inner, _ | ⟨third, rest⟩⟩⟩
  case cons.cons.nil =>
    constructor
    · intro h
      rw [toNode] at h
      obtain ⟨l, hl, h⟩ := then_ok_iff.1 h
      obtain ⟨r, hr, h⟩ := then_ok_iff.1 h
      obtain ⟨j, hj, h⟩ := then_ok_iff.1 h
      obtain ⟨i, hi, h⟩ := then_ok_iff.1 h
      obtain ⟨hdisjoint, rfl⟩ := JoinNode.joining_ok_iff.1 hj
      exact ⟨outer, inner, l, r, i, rfl, hl, hr, hdisjoint, hi, done_ok_iff.1 h⟩
    · rintro ⟨outer', inner', l, r, i, hinputs, hl, hr, hdisjoint, hi, rfl⟩
      cases hinputs
      rw [toNode]
      exact then_ok_iff.2 ⟨l, hl, then_ok_iff.2 ⟨r, hr, then_ok_iff.2
        ⟨_, JoinNode.joining_ok_iff.2 ⟨hdisjoint, rfl⟩, then_ok_iff.2 ⟨i, hi, rfl⟩⟩⟩⟩
  all_goals simp [toNode]

lemma mem_elements_join {outer inner : JoinSpec} : el ∈ (join [outer, inner] d).elements ↔
    el = join [outer, inner] d ∨ el ∈ outer.elements ∨ el ∈ inner.elements := by
  simp [elements, allElements]

theorem exists_mem_nodes (h : spec.toNode = .ok n) (hel : el ∈ spec.elements) :
    ∃ m, el.toNode = .ok m ∧ m ∈ n.nodes := by
  induction spec using toTree.induct generalizing n with
  | case1 name d =>
    obtain rfl := List.mem_singleton.1 hel
    exact ⟨n, h, n.mem_nodes_self⟩
  | case2 outer inner d iho ihi =>
    obtain ⟨_, _, l, r, i, hinputs, hl, hr, -, -, rfl⟩ := toNode_join_ok_iff.1 h
    cases hinputs
    rcases mem_elements_join.1 hel with rfl | hel | hel
    · exact ⟨_, h, JoinNode.mem_nodes_self _⟩
    · obtain ⟨m, hm, hmem⟩ := iho hl hel
      exact ⟨m, hm, List.mem_cons_of_mem _ (List.mem_append_left _ hmem)⟩
    · obtain ⟨m, hm, hmem⟩ := ihi hr hel
      exact ⟨m, hm, List.mem_cons_of_mem _ (List.mem_append_right _ hmem)⟩
  | case3 inputs d hnot =>
    obtain ⟨outer, inner, -, -, -, rfl, -⟩ := toNode_join_ok_iff.1 h
    exact (hnot outer inner rfl).elim

end JoinSpec

def JoinSpecDetails.pruned (fits : Operator → Bool) (d : JoinSpecDetails) : JoinSpecDetails :=
  { d with operator := d.operator.filter fun word => (Operator.ofName? word).all fits }

namespace JoinSpec

mutual

def pruned : JoinSpec → JoinSpec
  | table name d => table name (d.map (.pruned Operator.isScan))
  | join inputs d => join (allPruned inputs) (d.map (.pruned Operator.isJoin))

def allPruned : List JoinSpec → List JoinSpec
  | [] => []
  | s :: ss => s.pruned :: allPruned ss

end

lemma length_allPruned (specs : List JoinSpec) : (allPruned specs).length = specs.length := by
  induction specs with
  | nil => rfl
  | cons s ss ih => exact congrArg (· + 1) ih

lemma noted_pruned (fits : Operator → Bool) (d : Option JoinSpecDetails) : noted (d.map (.pruned fits)) =
    (noted d).map fun i => { i with operator := i.operator.filter fits } := by
  rcases d with _ | ⟨bound, _ | word⟩
  · rfl
  · rfl
  · have hnoted : noted (some ⟨bound, some word⟩) = _ := noted_of_operator rfl
    rw [Option.map_some, hnoted, Operator.parse]
    cases hop : Operator.ofName? word with
    | none =>
      have hkept : JoinSpecDetails.pruned fits ⟨bound, some word⟩ = ⟨bound, some word⟩ := by
        simp [JoinSpecDetails.pruned, hop]
      rw [hkept, noted_of_operator rfl, Operator.parse, hop]
      rfl
    | some op =>
      cases hfits : fits op with
      | true =>
        have hkept : JoinSpecDetails.pruned fits ⟨bound, some word⟩ = ⟨bound, some word⟩ := by
          simp [JoinSpecDetails.pruned, hop, hfits]
        have hstays : (some op).filter fits = some op := by rw [Option.filter_some, hfits, if_pos rfl]
        rw [hkept, noted_of_operator rfl, Operator.parse, hop]
        exact congrArg (fun o => (.ok { operator := o, upperBound := bound } : Except PlanError NodeInfo)) hstays.symm
      | false =>
        have hcut : JoinSpecDetails.pruned fits ⟨bound, some word⟩ = ⟨bound, none⟩ := by
          simp [JoinSpecDetails.pruned, hop, hfits]
        have hgone : (some op).filter fits = none := by rw [Option.filter_some, hfits, if_neg Bool.false_ne_true]
        rw [hcut]
        exact congrArg (fun o => (.ok { operator := o, upperBound := bound } : Except PlanError NodeInfo)) hgone.symm

theorem toNode_pruned (spec : JoinSpec) : spec.pruned.toNode = spec.toNode.map JoinNode.pruned := by
  induction spec using toTree.induct with
  | case1 name d =>
    rw [pruned, toNode, toNode, noted_pruned]
    cases TableRef.parse name with
    | error e => rfl
    | ok x => cases noted d <;> rfl
  | case2 outer inner d iho ihi =>
    have hinputs : allPruned [outer, inner] = [outer.pruned, inner.pruned] := rfl
    rw [pruned, hinputs, toNode, toNode, noted_pruned, iho, ihi]
    cases outer.toNode with
    | error e => rfl
    | ok l =>
      cases inner.toNode with
      | error e => rfl
      | ok r =>
        change l.pruned.joining r.pruned >>= _ = (l.joining r >>= _).map _
        rw [JoinNode.joining_pruned]
        cases hn : l.joining r with
        | error e => rfl
        | ok n =>
          obtain ⟨-, rfl⟩ := JoinNode.joining_ok_iff.1 hn
          cases noted d <;> rfl
  | case3 inputs d hnot =>
    have hcount := congrArg (fun k => (.error (.document (.joinInputs k)) : Except PlanError JoinNode))
      (length_allPruned inputs)
    rcases inputs with _ | ⟨outer, _ | ⟨inner, _ | ⟨third, rest⟩⟩⟩
    case cons.cons.nil => exact (hnot outer inner rfl).elim
    all_goals exact hcount

theorem toTree_pruned (spec : JoinSpec) : spec.pruned.toTree = spec.toTree.map JoinTree.pruned := by
  rw [toTree_eq, toTree_eq, toNode_pruned]
  cases spec.toNode <;> rfl

end JoinSpec

end OptimizerHints
