import OptimizerHints.Hint.DirectedOrder
import OptimizerHints.Proofs.JoinTree.Soundness

namespace OptimizerHints

open Outcome

lemma JoinNode.Sound.two_le_size {l r : JoinNode} {i : NodeInfo} {ts : TableSet} (h : (join l r i ts).Sound) :
    2 ≤ ts.size := by
  obtain ⟨⟨tl, -, htl, htlr⟩, tr, htr', htr, -⟩ := h.exists_mem_sides
  apply SortedSet.two_le_size htl htr
  rintro rfl
  exact htlr htr'

namespace DirectedOrder

section Agreement

variable {ops ops' : Option Assignment}

lemma ofNode_congr {n : JoinNode}
    (h : ∀ l r i ts, .join l r i ts ∈ n.joins → innerSide ops l r i ts = innerSide ops' l r i ts) :
    ofNode ops n = ofNode ops' n := by
  induction n with
  | base t i => rfl
  | join l r i ts ihl ihr =>
    have hl := ihl fun l' r' i' ts' hj => h l' r' i' ts' (.tail _ (List.mem_append_left _ hj))
    have hr := ihr fun l' r' i' ts' hj => h l' r' i' ts' (.tail _ (List.mem_append_right _ hj))
    rw [ofNode, ofNode, h l r i ts (.head _), hl, hr]

lemma ofTree_congr {t : JoinTree}
    (h : ∀ l r i ts, .join l r i ts ∈ t.joins → innerSide ops l r i ts = innerSide ops' l r i ts) :
    ofTree t ops = ofTree t ops' := by
  obtain ⟨_ | n⟩ := t
  · rfl
  · rw [ofTree, ofTree]
    simp only [ofNode_congr h]

lemma ofTree_none (t : JoinTree) : ofTree t none = ofTree t (some .empty) := by
  apply ofTree_congr
  intro l r i ts _
  rfl

end Agreement

def Directable (a : Assignment) (l r : JoinNode) (ts : TableSet) : Prop :=
  ∀ c inner, a.joinFor? ts = some c → c.inner = some inner → inner = l.tables ∨ inner = r.tables

def named? (ops : Option Assignment) (ts : TableSet) : Option TableSet := (ops.bind (·.joinFor? ts)).bind (·.inner)

lemma directable_iff {a : Assignment} {l r : JoinNode} {ts : TableSet} :
    Directable a l r ts ↔ ∀ inner, named? (some a) ts = some inner → inner = l.tables ∨ inner = r.tables := by
  simp only [Directable, named?, Option.bind_some, Option.bind_eq_some_iff, forall_exists_index, and_imp]
  exact ⟨fun h inner c => h c inner, fun h c inner => h inner c⟩

lemma innerSide_ok_iff {a : Assignment} {l r : JoinNode} {i : NodeInfo} {ts : TableSet} :
    (∃ side, innerSide (some a) l r i ts = .ok side) ↔ Directable a l r ts := by
  rw [directable_iff, innerSide, ← named?]
  cases named? (some a) ts with
  | none => cases i.inner <;> simp
  | some inner =>
    by_cases hl : inner = l.tables
    · simp [hl]
    · simp only [hl, if_false, Option.some.injEq, forall_eq', false_or]
      by_cases hr : inner = r.tables <;> simp [hr]

theorem ofNode_ok_iff {a : Assignment} {n : JoinNode} :
    (∃ o, ofNode (some a) n = .ok o) ↔ ∀ l r i ts, .join l r i ts ∈ n.joins → Directable a l r ts := by
  induction n with
  | base t i => exact ⟨fun _ => nofun, fun _ => ⟨leaf t, rfl⟩⟩
  | join l r i ts ihl ihr =>
    have hbelow : (∃ o, ofNode (some a) (.join l r i ts) = .ok o) ↔
        (∃ side, innerSide (some a) l r i ts = .ok side) ∧
          (∃ o, ofNode (some a) l = .ok o) ∧ ∃ o, ofNode (some a) r = .ok o := by
      rw [ofNode]
      cases innerSide (some a) l r i ts with
      | error e => exact ⟨nofun, nofun⟩
      | ok side =>
        cases side with
        | left => exact both_done_iff.trans (and_comm.trans (and_iff_right ⟨.left, rfl⟩).symm)
        | right => exact both_done_iff.trans (and_iff_right ⟨.right, rfl⟩).symm
    rw [hbelow, innerSide_ok_iff, ihl, ihr]
    simp only [JoinNode.joins, List.mem_cons, List.mem_append, JoinNode.join.injEq]
    constructor
    · rintro ⟨hown, hl, hr⟩ l' r' i' ts' (⟨rfl, rfl, rfl, rfl⟩ | hj | hj)
      · exact hown
      · exact hl l' r' i' ts' hj
      · exact hr l' r' i' ts' hj
    · intro h
      exact ⟨h l r i ts (.inl ⟨rfl, rfl, rfl, rfl⟩), fun l' r' i' ts' hj => h l' r' i' ts' (.inr (.inl hj)),
        fun l' r' i' ts' hj => h l' r' i' ts' (.inr (.inr hj))⟩

theorem ofTree_ok_iff {a : Assignment} {t : JoinTree} (h : t.Sound) :
    (∃ o, ofTree t (some a) = .ok o) ↔ ∀ l r i ts, .join l r i ts ∈ t.joins → Directable a l r ts := by
  obtain ⟨_ | n⟩ := t
  · exact ⟨fun _ => nofun, fun _ => ⟨none, rfl⟩⟩
  · have hn : n.Sound := h n rfl
    cases n with
    | base t i => exact ⟨fun _ => nofun, fun _ => ⟨none, rfl⟩⟩
    | join l r i ts =>
      have htwo : ofTree ⟨some (.join l r i ts)⟩ (some a) = (ofNode (some a) (.join l r i ts)).map some :=
        if_pos hn.two_le_size
      rw [htwo]
      refine Iff.trans ?_ ofNode_ok_iff
      constructor
      · rintro ⟨o, ho⟩
        obtain ⟨o', ho', -⟩ := mapped_ok_iff.1 ho
        exact ⟨o', ho'⟩
      · rintro ⟨o, ho⟩
        exact ⟨some o, mapped_ok_iff.2 ⟨o, ho, rfl⟩⟩

lemma isSome_ofTree {t : JoinTree} {ops : Option Assignment} {o : Option DirectedOrder} (h : ofTree t ops = .ok o) :
    o.isSome = true ↔ 2 ≤ t.tables.size := by
  obtain ⟨_ | n⟩ := t
  · obtain rfl := Except.ok.inj h
    decide
  · have hn : (if 2 ≤ n.tables.size then (ofNode ops n).map some else .ok none) = Except.ok o := h
    change o.isSome = true ↔ 2 ≤ n.tables.size
    split at hn
    · next htwo =>
      obtain ⟨o', -, rfl⟩ := mapped_ok_iff.1 hn
      exact iff_of_true rfl htwo
    · next htwo =>
      obtain rfl := Except.ok.inj hn
      exact iff_of_false nofun htwo

end DirectedOrder

end OptimizerHints
