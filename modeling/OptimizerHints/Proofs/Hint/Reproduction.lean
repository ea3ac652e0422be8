import OptimizerHints.Proofs.Hint.Direction
import OptimizerHints.Proofs.JoinTree.Loaded

/-! A tree that is loaded from a plan leads back to the outer and inner inputs of the plan. -/

namespace OptimizerHints

open Outcome

namespace DirectedOrder

inductive Follows : DirectedOrder → Plan → Prop
  | scan {p : Plan} {t : TableRef} : p.unwrapped.isScan = true → p.unwrapped.table = some t → Follows (leaf t) p
  | join {p outer inner : Plan} {o i : DirectedOrder} : p.unwrapped.isScan = false → p.unwrapped.isJoin = true →
    p.unwrapped.outer? = some outer → p.unwrapped.inner? = some inner → Follows o outer → Follows i inner →
      Follows (join o i) p

end DirectedOrder

namespace JoinNode

variable {n l r : JoinNode} {i : NodeInfo} {ts : TableSet} {p : Plan}

lemma Mirrors.follows (h : n.Mirrors p) : (n.directed .right).Follows p := by
  induction h with
  | scan hscan ht => exact .scan hscan ht
  | join hscan hjoin ho hi _ _ ihl ihr => exact .join hscan hjoin ho hi ihl ihr

lemma Mirrors.inner_of_mem_joins (h : n.Mirrors p) (hj : .join l r i ts ∈ n.joins) : i.inner = some .right := by
  obtain ⟨path, hpath⟩ := exists_at?_of_mem_joins hj
  obtain ⟨q, -, -, -, rfl⟩ := h.reached hpath
  rfl

lemma Mirrors.ofNode_operators (h : n.Mirrors p) (hsound : JoinTree.Sound ⟨some n⟩) {a : Assignment}
    (ha : JoinTree.operators ⟨some n⟩ = .ok a) : DirectedOrder.ofNode (some a) n = .ok (n.directed .right) := by
  apply DirectedOrder.ofNode_of_innerSide
  intro l r i ts hj
  have hjoin := (hsound n rfl).of_mem_joins hj
  rw [DirectedOrder.innerSide_of_choice hjoin (hsound.joinFor?_tables ha hj), DirectedOrder.innerSide,
    h.inner_of_mem_joins hj]
  rfl

end JoinNode

namespace JoinTree

/-- A plan loads exactly if the nodes that are reached of it are scans of tables, none of them twice, and joins of two
inputs. The nodes of the tree then stand for these one to one, left for outer and right for inner, and the tree with
its own operators leads back to the outer and inner inputs of the plan. -/
theorem loads_as_executed (p : Plan) :
    ((∃ t, ofPlan p = .ok t) ↔ (∀ path q, p.Reaches path q → q.Loadable) ∧ p.ScansOnce) ∧
      ∀ t, ofPlan p = .ok t →
        (∃ n, t.root = some n ∧ (∀ path q, p.Reaches path q → ∃ m, n.at? path = some m ∧ m.Shows q) ∧
          ∀ path m, n.at? path = some m → ∃ q, p.Reaches path q ∧ m.Shows q) ∧
        (2 ≤ t.tables.size →
          ∃ a o, t.operators = .ok a ∧ DirectedOrder.ofTree t (some a) = .ok (some o) ∧ o.Follows p) := by
  constructor
  · rw [← JoinNode.exists_ofPlan_iff]
    simp only [ofPlan_ok_iff]
    exact ⟨fun ⟨_, n, hn, _⟩ => ⟨n, hn⟩, fun ⟨n, hn⟩ => ⟨_, n, hn, rfl⟩⟩
  · intro t ht
    obtain ⟨n, hn, rfl⟩ := ofPlan_ok_iff.1 ht
    have hmirrors := JoinNode.mirrors_of_ofPlan hn
    have hsound := (Built.ofPlan ht).sound
    refine ⟨⟨n, rfl, fun path q hq => hmirrors.shown hq, fun path m hm => hmirrors.reached hm⟩, fun htwo => ?_⟩
    obtain ⟨a, ha, -, -⟩ := hsound.operators
    have horder : DirectedOrder.ofTree ⟨some n⟩ (some a) = .ok (some (n.directed .right)) := by
      rw [DirectedOrder.ofTree_of_two_le htwo, hmirrors.ofNode_operators hsound ha]
      rfl
    exact ⟨a, n.directed .right, ha, horder, hmirrors.follows⟩

theorem loads_as_executed_bushy :
    let table (name : String) : TableRef := ⟨name, none, none⟩
    let scan (name : String) (rows : Float) : Plan := .scan (table name) none 1 rows
    let below : Plan := .join none (scan "r" 1) (.passing "Hash" (scan "s" 1000)) 5 10
    let p : Plan := .join (some .hash) (.passing "Sort" below) (scan "u" 500) 9 10
    ∃ t a o, ofPlan p = .ok t ∧ t.operators = .ok a ∧ DirectedOrder.ofTree t (some a) = .ok (some o) ∧ o.Follows p ∧
      o = .join (.join (.leaf (table "r")) (.leaf (table "s"))) (.leaf (table "u")) := by
  intro table scan below p
  let leaf (name : String) (rows : Float) : JoinNode := .base (table name) { upperBound := some rows }
  let rs : JoinNode := .join (leaf "r" 1) (leaf "s" 1000) { upperBound := some 10, inner := some .right }
    (.ofList [table "r", table "s"])
  let t : JoinTree := ⟨some (.join rs (leaf "u" 500)
    { operator := some (.join .hash), upperBound := some 10, inner := some .right }
    (.ofList [table "r", table "s", table "u"]))⟩
  have ht : ofPlan p = .ok t := by decide +kernel
  obtain ⟨-, hloaded⟩ := loads_as_executed p
  obtain ⟨a, o, ha, ho, hfollows⟩ := (hloaded t ht).2 (by decide +kernel)
  refine ⟨t, a, o, ht, ha, ho, hfollows, ?_⟩
  have horder : t.operators.map (fun a => DirectedOrder.ofTree t (some a)) =
      .ok (.ok (some (.join (.join (.leaf (table "r")) (.leaf (table "s"))) (.leaf (table "u"))))) := by decide +kernel
  rw [ha] at horder
  exact Option.some.inj (Except.ok.inj (ho.symm.trans (Except.ok.inj horder)))

end JoinTree

end OptimizerHints
