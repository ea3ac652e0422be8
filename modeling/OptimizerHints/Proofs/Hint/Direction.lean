import OptimizerHints.Proofs.Hint.DirectedOrder
import OptimizerHints.Proofs.JoinTree.Operators

namespace OptimizerHints

open Outcome

def JoinNode.directed (inner : Side) : JoinNode → DirectedOrder
  | base t _ => .leaf t
  | join l r _ _ =>
    match inner with
    | .left => .join (r.directed inner) (l.directed inner)
    | .right => .join (l.directed inner) (r.directed inner)

def DirectedOrder.swapped : DirectedOrder → DirectedOrder
  | leaf t => leaf t
  | join outer inner => join inner.swapped outer.swapped

def Assignment.Undirected (a : Assignment) : Prop := ∀ ts c, a.joinFor? ts = some c → c.inner = none

namespace JoinNode

def Undirected : JoinNode → Prop
  | base _ i => i.upperBound = none
  | join l r i _ => i.upperBound = none ∧ i.inner = none ∧ l.Undirected ∧ r.Undirected

lemma Undirected.upperBound {n : JoinNode} (h : n.Undirected) : n.info.upperBound = none := by
  cases n with
  | base t i => exact h
  | join l r i ts => exact h.1

lemma Undirected.of_mem_joins {n j : JoinNode} (h : n.Undirected) (hj : j ∈ n.joins) : j.Undirected :=
  inherited_of_mem_joins (fun _ _ _ _ ⟨_, _, hl, hr⟩ => ⟨hl, hr⟩) h hj

lemma directed_left (n : JoinNode) : n.directed .left = (n.directed .right).swapped := by
  induction n with
  | base t i => rfl
  | join l r i ts ihl ihr =>
    rw [directed, ihl, ihr]
    rfl

lemma mem_leaves_directed {n : JoinNode} {side : Side} {t : TableRef} :
    t ∈ (n.directed side).leaves ↔ t ∈ n.leaves := by
  induction n with
  | base t' i => exact Iff.rfl
  | join l r i ts ihl ihr =>
    rw [leaves, List.mem_append]
    cases side with
    | left => exact List.mem_append.trans ((or_congr ihr ihl).trans or_comm)
    | right => exact List.mem_append.trans (or_congr ihl ihr)

lemma Sound.directed_left_ne {n : JoinNode} (h : n.Sound) (htwo : 2 ≤ n.tables.size) :
    n.directed .left ≠ n.directed .right := by
  cases n with
  | base t i =>
    have hone : (base t i).tables.size = 1 := rfl
    omega
  | join l r i ts =>
    obtain ⟨⟨t, htl, -, htr⟩, -⟩ := h.exists_mem_sides
    obtain ⟨hl, hr, -, -⟩ := h
    intro heq
    obtain ⟨houter, -⟩ := DirectedOrder.join.inj heq
    rw [hl.mem_tables_iff, ← mem_leaves_directed, ← houter, mem_leaves_directed, ← hr.mem_tables_iff] at htl
    exact htr htl

end JoinNode

namespace DirectedOrder

variable {ops : Option Assignment} {a : Assignment} {l r n : JoinNode} {i : NodeInfo} {ts : TableSet} {side : Side}

lemma innerSide_of_named (h : (JoinNode.join l r i ts).Sound)
    (ha : ∀ inner, named? (some a) ts = some inner → i.inner.map (l.sideTables r) = some inner) :
    innerSide (some a) l r i ts = innerSide none l r i ts := by
  have habsent : named? none ts = none := rfl
  rw [innerSide, innerSide, ← named?, ← named?, habsent]
  cases hnamed : named? (some a) ts with
  | none => rfl
  | some inner =>
    -- the tables that are named are those of the input that the join names by its side
    obtain ⟨side, hi, rfl⟩ := Option.map_eq_some_iff.1 (ha inner hnamed)
    simp only [hi]
    cases side with
    | left => exact if_pos rfl
    | right => exact (if_neg h.tables_ne).trans (if_pos rfl)

lemma inner_of_named_choice {inner : TableSet} (ha : a.joinFor? ts = (JoinNode.join l r i ts).choice?)
    (hnamed : named? (some a) ts = some inner) : i.inner.map (l.sideTables r) = some inner := by
  obtain ⟨c, hc, hinner⟩ := Option.bind_eq_some_iff.1 hnamed
  obtain ⟨op, -, rfl⟩ := JoinNode.choice?_join_eq_some_iff.1 (ha.symm.trans hc)
  exact hinner

lemma innerSide_of_choice (h : (JoinNode.join l r i ts).Sound)
    (ha : a.joinFor? ts = (JoinNode.join l r i ts).choice?) :
    innerSide (some a) l r i ts = innerSide none l r i ts := by
  apply innerSide_of_named h
  intro inner
  exact inner_of_named_choice ha

lemma innerSide_of_undirected (ha : a.Undirected) (h : (JoinNode.join l r i ts).Undirected) :
    innerSide (some a) l r i ts = .ok .left := by
  obtain ⟨-, hi, hl, hr⟩ := h
  have hnone : (a.joinFor? ts).bind (·.inner) = none := Option.bind_eq_none_iff.2 (ha ts)
  -- a missing bound is the least on the left and the greatest on the right
  have hless : (-1 / 0 : Float) < 1 / 0 := by decide +kernel
  rw [innerSide, Option.bind_some, hnone, hi, NodeInfo.bound?, NodeInfo.bound?, hl.upperBound, hr.upperBound]
  exact congrArg Except.ok (if_pos hless)

lemma ofNode_of_innerSide (h : ∀ l r i ts, .join l r i ts ∈ n.joins → innerSide ops l r i ts = .ok side) :
    ofNode ops n = .ok (n.directed side) := by
  induction n with
  | base t i => rfl
  | join l r i ts ihl ihr =>
    have hl := ihl fun l' r' i' ts' hj => h l' r' i' ts' (.tail _ (List.mem_append_left _ hj))
    have hr := ihr fun l' r' i' ts' hj => h l' r' i' ts' (.tail _ (List.mem_append_right _ hj))
    rw [ofNode, h l r i ts (.head _), hl, hr]
    cases side <;> rfl

theorem ofNode_of_undirected (ha : a.Undirected) (h : n.Undirected) : ofNode (some a) n = .ok (n.directed .left) := by
  apply ofNode_of_innerSide
  intro l r i ts hj
  exact innerSide_of_undirected ha (h.of_mem_joins hj)

lemma ofTree_of_two_le (h : 2 ≤ n.tables.size) : ofTree ⟨some n⟩ ops = (ofNode ops n).map some := if_pos h

end DirectedOrder

end OptimizerHints
