import OptimizerHints.Proofs.Hint.DirectedOrder
import OptimizerHints.Proofs.JoinTree.Leaves

/-! The directed form of a tree has the joins of the tree, and says of each which input is the inner one. -/

namespace OptimizerHints

open Outcome

def NodeInfo.boundOr (i : NodeInfo) (substitute : Float) : Float :=
  match i.upperBound with
  | some bound => if bound.isNaN then substitute else bound
  | none => substitute

lemma NodeInfo.getD_bound? (i : NodeInfo) (substitute : Float) : i.bound?.getD substitute = i.boundOr substitute := by
  rw [bound?, boundOr]
  cases i.upperBound with
  | none => rfl
  | some bound =>
    rw [Option.filter_some]
    dsimp only
    cases bound.isNaN <;> rfl

namespace DirectedOrder

variable {ops : Option Assignment} {l r n : JoinNode} {i : NodeInfo} {ts : TableSet} {side : Side} {o : DirectedOrder}

/-- The inner input of a join is the one that the assignment names, else the one that the node names, else the left one if
its bound is the smaller one. An unknown bound is the least on the left and the greatest on the right. -/
inductive Inner (ops : Option Assignment) (l r : JoinNode) (i : NodeInfo) (ts : TableSet) : Side → Prop
  | named {side : Side} : named? ops ts = some (l.sideTables r side) → Inner ops l r i ts side
  | annotated {side : Side} : named? ops ts = none → i.inner = some side → Inner ops l r i ts side
  | left : named? ops ts = none → i.inner = none → l.info.boundOr (-1 / 0) < r.info.boundOr (1 / 0) →
    Inner ops l r i ts .left
  | right : named? ops ts = none → i.inner = none → ¬l.info.boundOr (-1 / 0) < r.info.boundOr (1 / 0) →
    Inner ops l r i ts .right

lemma inner_of_innerSide (h : innerSide ops l r i ts = .ok side) : Inner ops l r i ts side := by
  rw [innerSide, ← named?] at h
  cases hnamed : named? ops ts with
  | some inner =>
    simp only [hnamed] at h
    split at h
    · next hl =>
      obtain rfl := Except.ok.inj h
      exact .named (hnamed.trans (congrArg some hl))
    · split at h
      · next hr =>
        obtain rfl := Except.ok.inj h
        exact .named (hnamed.trans (congrArg some hr))
      · cases h
  | none =>
    simp only [hnamed] at h
    cases hi : i.inner with
    | some side' =>
      simp only [hi] at h
      obtain rfl := Except.ok.inj h
      exact .annotated hnamed hi
    | none =>
      simp only [hi, NodeInfo.getD_bound?] at h
      obtain rfl := Except.ok.inj h
      split
      · next hless => exact .left hnamed hi hless
      · next hless => exact .right hnamed hi hless

inductive Arranges (ops : Option Assignment) : DirectedOrder → JoinNode → Prop
  | leaf (t : TableRef) (i : NodeInfo) : Arranges ops (leaf t) (.base t i)
  | left {outer inner : DirectedOrder} {l r : JoinNode} {i : NodeInfo} {ts : TableSet} : Inner ops l r i ts .left →
    Arranges ops outer r → Arranges ops inner l → Arranges ops (join outer inner) (.join l r i ts)
  | right {outer inner : DirectedOrder} {l r : JoinNode} {i : NodeInfo} {ts : TableSet} : Inner ops l r i ts .right →
    Arranges ops outer l → Arranges ops inner r → Arranges ops (join outer inner) (.join l r i ts)

lemma arranges_of_ofNode (h : ofNode ops n = .ok o) : o.Arranges ops n := by
  induction n generalizing o with
  | base t i =>
    obtain rfl := Except.ok.inj h
    exact .leaf t i
  | join l r i ts ihl ihr =>
    rw [ofNode] at h
    obtain ⟨side, hside, h⟩ := then_ok_iff.1 h
    have hinner := inner_of_innerSide hside
    cases side with
    | left =>
      obtain ⟨outer, houter, h⟩ := then_ok_iff.1 h
      obtain ⟨inner, hin, h⟩ := then_ok_iff.1 h
      obtain rfl := done_ok_iff.1 h
      exact .left hinner (ihr houter) (ihl hin)
    | right =>
      obtain ⟨outer, houter, h⟩ := then_ok_iff.1 h
      obtain ⟨inner, hin, h⟩ := then_ok_iff.1 h
      obtain rfl := done_ok_iff.1 h
      exact .right hinner (ihl houter) (ihr hin)

def joins : DirectedOrder → List DirectedOrder
  | leaf _ => []
  | join outer inner => join outer inner :: (outer.joins ++ inner.joins)

def tables (o : DirectedOrder) : TableSet := .ofList o.leaves

lemma Arranges.leaves_perm (h : o.Arranges ops n) : o.leaves.Perm n.leaves := by
  induction h with
  | leaf t i => exact .refl _
  | left _ _ _ ihr ihl => exact (ihr.append ihl).trans List.perm_append_comm
  | right _ _ _ ihl ihr => exact ihl.append ihr

lemma Arranges.tables_eq (h : o.Arranges ops n) (hn : n.Summed) : o.tables = n.tables := by
  rw [tables, hn.tables_eq]
  exact SortedSet.ofList_eq_of_perm h.leaves_perm

lemma Arranges.joins_perm (h : o.Arranges ops n) (hn : n.Summed) : (o.joins.map tables).Perm n.joinSets := by
  induction h with
  | leaf t i => exact .nil
  | left hinner houter hin ihr ihl =>
    have htables := (Arranges.left hinner houter hin).tables_eq hn
    obtain ⟨hl, hr, -⟩ := hn
    rw [joins, List.map_cons, List.map_append, htables]
    exact .cons _ (((ihr hr).append (ihl hl)).trans List.perm_append_comm)
  | right hinner houter hin ihl ihr =>
    have htables := (Arranges.right hinner houter hin).tables_eq hn
    obtain ⟨hl, hr, -⟩ := hn
    rw [joins, List.map_cons, List.map_append, htables]
    exact .cons _ ((ihl hl).append (ihr hr))

section Tree

variable {t : JoinTree}

lemma ofTree_eq_none_iff : ofTree t ops = .ok none ↔ t.tables.size < 2 := by
  constructor
  · intro h
    have htwo := isSome_ofTree h
    simpa using htwo
  · intro h
    obtain ⟨_ | n⟩ := t
    · rfl
    · exact if_neg (Nat.not_le.2 h)

lemma exists_ofTree_iff (h : t.Sound) :
    (∃ o, ofTree t ops = .ok o) ↔ ∀ l r i ts inner, .join l r i ts ∈ t.joins → named? ops ts = some inner →
      inner = l.tables ∨ inner = r.tables := by
  cases ops with
  | none => exact iff_of_true ((ofTree_none t).symm ▸ (ofTree_ok_iff h).2 fun _ _ _ _ _ => nofun) fun _ _ _ _ _ _ => nofun
  | some a =>
    rw [ofTree_ok_iff h]
    simp only [directable_iff]
    exact ⟨fun h l r i ts inner hj => h l r i ts hj inner, fun h l r i ts hj inner => h l r i ts inner hj⟩

lemma two_le_size_of_mem_joins {j : JoinNode} (h : t.Sound) (hj : j ∈ t.joins) : 2 ≤ t.tables.size := by
  obtain ⟨_ | _ | ⟨l, r, i, ts⟩⟩ := t
  · cases hj
  · cases hj
  · exact (h _ rfl).two_le_size

lemma exists_ofNode_of_ofTree (h : ofTree t ops = .ok (some o)) : ∃ n, t.root = some n ∧ ofNode ops n = .ok o := by
  obtain ⟨_ | n⟩ := t
  · cases h
  · rw [ofTree] at h
    dsimp only at h
    split at h
    · obtain ⟨o', ho', heq⟩ := mapped_ok_iff.1 h
      obtain rfl := Option.some.inj heq
      exact ⟨n, rfl, ho'⟩
    · cases h

/-- A tree of fewer than two tables has no directed form. One of two or more has a directed form unless the assignment
names an inner side of a join that is not one of its inputs. The directed form has the tables of the tree, each once,
and its joins, each with the inner input that the assignment, the tree or the bounds call for. -/
theorem ofTree_swaps_inputs (ops : Option Assignment) (h : t.Built) :
    (ofTree t ops = .ok none ↔ t.tables.size < 2) ∧
      ((∃ e, ofTree t ops = .error e) ↔ 2 ≤ t.tables.size ∧ ∃ l r i ts inner, .join l r i ts ∈ t.joins ∧
        named? ops ts = some inner ∧ inner ≠ l.tables ∧ inner ≠ r.tables) ∧
      ∀ o, ofTree t ops = .ok (some o) →
        (∃ n, t.root = some n ∧ o.Arranges ops n) ∧ o.leaves.Nodup ∧ .ofList o.leaves = t.tables ∧
          .ofList (o.joins.map tables) = t.subtrees := by
  have hsound := h.sound
  refine ⟨ofTree_eq_none_iff, ?_, fun o ho => ?_⟩
  · rw [error_iff, exists_ofTree_iff hsound]
    push Not
    constructor
    · rintro ⟨l, r, i, ts, inner, hj, hinner⟩
      exact ⟨two_le_size_of_mem_joins hsound hj, l, r, i, ts, inner, hj, hinner⟩
    · rintro ⟨-, hjoin⟩
      exact hjoin
  · obtain ⟨n, hroot, ho⟩ := exists_ofNode_of_ofTree ho
    have hn := hsound n hroot
    have harranges := arranges_of_ofNode ho
    have htables : t.tables = n.tables := by rw [JoinTree.tables, hroot, Option.elim_some]
    refine ⟨⟨n, hroot, harranges⟩, harranges.leaves_perm.nodup_iff.2 hn.nodup_leaves, ?_, ?_⟩
    · rw [htables]
      exact harranges.tables_eq hn.summed
    · rw [JoinTree.subtrees, hroot]
      exact SortedSet.ofList_eq_of_perm (harranges.joins_perm hn.summed)

theorem ofTree_swaps_inputs_bushy :
    let table (name : String) : TableRef := ⟨name, none, none⟩
    let scanned (name : String) : JoinNode := .base (table name) { upperBound := some 1 }
    let bounded (name : String) (bound : Float) : JoinNode := .base (table name) { upperBound := some bound }
    let rs : JoinNode := .join (scanned "r") (scanned "s") { upperBound := some 1, inner := some .right }
      (.ofList [table "r", table "s"])
    let uv : JoinNode := .join (bounded "u" 5) (bounded "v" (0 / 0)) {} (.ofList [table "u", table "v"])
    let ts : TableSet := .ofList [table "r", table "s", table "u", table "v"]
    let t : JoinTree := ⟨some (.join rs uv {} ts)⟩
    let directed (inner : TableSet) : Assignment := { joins := .ofList [(ts, ⟨.hash, ts, some inner⟩)] }
    let o : DirectedOrder := .join (.join (.leaf (table "v")) (.leaf (table "u")))
      (.join (.leaf (table "r")) (.leaf (table "s")))
    let ru : TableSet := .ofList [table "r", table "u"]
    t.Built ∧ ofTree t (some (directed rs.tables)) = .ok (some o) ∧
      (∃ n, t.root = some n ∧ o.Arranges (some (directed rs.tables)) n) ∧
      ∃ e, ofTree t (some (directed ru)) = .error e := by
  intro table scanned bounded rs uv ts t directed o ru
  let scan (name : String) : Plan := .scan (table name) none 1 1
  have hload : JoinTree.ofPlan (.join none (scan "r") (scan "s") 1 1) = .ok ⟨some rs⟩ := by decide +kernel
  have hu : (JoinTree.ofTable (table "u")).withBound (.singleton (table "u")) 5 = .ok ⟨some (bounded "u" 5)⟩ := by
    decide +kernel
  have hv : (JoinTree.ofTable (table "v")).withBound (.singleton (table "v")) (0 / 0) =
      .ok ⟨some (bounded "v" (0 / 0))⟩ := by decide +kernel
  have huv : JoinTree.Built ⟨some uv⟩ :=
    .joining (.withBound (.ofTable _) hu) (.withBound (.ofTable _) hv) (by decide +kernel)
  have hbuilt : t.Built := .joining (.ofPlan hload) huv (by decide +kernel)
  have horder : ofTree t (some (directed rs.tables)) = .ok (some o) := by decide +kernel
  obtain ⟨-, -, harranged⟩ := ofTree_swaps_inputs (some (directed rs.tables)) hbuilt
  obtain ⟨-, hfails, -⟩ := ofTree_swaps_inputs (some (directed ru)) hbuilt
  refine ⟨hbuilt, horder, (harranged o horder).1, hfails.2 ⟨by decide +kernel, rs, uv, {}, ts, ru, .head _, ?_⟩⟩
  exact ⟨by decide +kernel, by decide +kernel, by decide +kernel⟩

end Tree

end DirectedOrder

end OptimizerHints
