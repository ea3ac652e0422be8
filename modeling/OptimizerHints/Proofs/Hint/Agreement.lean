import OptimizerHints.Proofs.Hint.Arrangement
import OptimizerHints.Proofs.Hint.Direction
import OptimizerHints.Proofs.Synopsis.Advice

namespace OptimizerHints

open Outcome

namespace Node

variable {α : Type} [LE α] [DecidableLE α]

lemma named?_followed (n : Node α) (e : List Step × TableSet) (a : Assignment) (ts : TableSet) :
    DirectedOrder.named? (some (n.followed a e)) ts = DirectedOrder.named? (some a) ts := by
  by_cases hts : ts = e.2
  · subst hts
    rw [followed]
    cases n.advice? e.1 with
    | none => rfl
    | some op =>
      -- a replaced operator keeps the inner side that stood beside the old one
      have hself := a.joinFor?_withJoin_self ⟨op, e.2, (a.joinFor? e.2).bind (·.inner)⟩
      have hinner := congrArg (Option.bind · JoinChoice.inner) hself
      exact hinner
  · exact congrArg (Option.bind · JoinChoice.inner) (joinFor?_followed_of_ne hts)

lemma named?_followAll (n : Node α) (es : List (List Step × TableSet)) (a : Assignment) (ts : TableSet) :
    DirectedOrder.named? (some (n.followAll es a)) ts = DirectedOrder.named? (some a) ts := by
  induction es generalizing a with
  | nil => rfl
  | cons e es ih => rw [followAll_cons, ih, named?_followed]

end Node

namespace DirectedOrder

variable {t : JoinTree} {a : Assignment}

def NamedBy (t : JoinTree) (a : Assignment) : Prop :=
  ∀ l r i ts inner, .join l r i ts ∈ t.joins → named? (some a) ts = some inner →
    i.inner.map (l.sideTables r) = some inner

lemma namedBy_operators (h : t.Sound) (ha : t.operators = .ok a) : NamedBy t a := by
  intro l r i ts inner hj hnamed
  exact inner_of_named_choice (h.joinFor?_tables ha hj) hnamed

lemma NamedBy.followAll (h : NamedBy t a) (n : Node Float) (es : List (List Step × TableSet)) :
    NamedBy t (n.followAll es a) := by
  intro l r i ts inner hj hnamed
  rw [Node.named?_followAll] at hnamed
  exact h l r i ts inner hj hnamed

lemma NamedBy.ofTree_eq (h : NamedBy t a) (hsound : t.Sound) : ofTree t (some a) = ofTree t none := by
  apply ofTree_congr
  intro l r i ts hj
  apply innerSide_of_named (hsound.of_mem_joins hj)
  intro inner hnamed
  exact h l r i ts inner hj hnamed

lemma exists_ofTree_none (h : t.Sound) : ∃ o, ofTree t none = .ok o := by
  apply (exists_ofTree_iff h).2
  intro l r i ts inner _ hnamed
  cases hnamed

/-- A tree has the same directed form by itself, with the assignment that its operators make, and with whatever a
synopsis recommends for it. -/
theorem directions_agree (h : t.Built) :
    ∃ o, ofTree t none = .ok o ∧ (∃ a, t.operators = .ok a ∧ ofTree t (some a) = .ok o) ∧
      ∀ (s : Synopsis) (q : Query), ∃ a, s.recommend q t = .ok a ∧ ofTree t (some a) = .ok o := by
  have hsound := h.sound
  obtain ⟨o, ho⟩ := exists_ofTree_none hsound
  obtain ⟨seed, hseed, hvalid, -⟩ := hsound.operators
  have hnamed := namedBy_operators hsound hseed
  refine ⟨o, ho, ⟨seed, hseed, (hnamed.ofTree_eq hsound).trans ho⟩, fun s q => ?_⟩
  obtain ⟨es, hes⟩ := s.exists_followAll hsound q hseed hvalid
  exact ⟨_, hes, ((hnamed.followAll s.root es).ofTree_eq hsound).trans ho⟩

theorem directions_agree_replaced :
    let table (name : String) : TableRef := ⟨name, none, none⟩
    let scanned (name : String) : JoinNode := .base (table name) { upperBound := some 1 }
    let rs : JoinNode := .join (scanned "r") (scanned "s") { upperBound := some 5, inner := some .right }
      (.ofList [table "r", table "s"])
    let rsu : TableSet := .ofList [table "r", table "s", table "u"]
    let tree (op : Option Operator) : JoinTree := ⟨some (.join rs (.ofTable (table "u")) { operator := op } rsu)⟩
    let t := tree (some (.join .hash))
    let inside : Node Float := { children := [(.ofTable (table "r"), { costs := [(.hash, 20), (.nestedLoop, 2)] })] }
    let onTop : Node Float := { costs := [(.hash, 9), (.merge, 1)], inside := some inside }
    let synopsis : Synopsis := { config := {}, root := { children := [(⟨rs.tables, none⟩, onTop)] } }
    let q : Query := { select := "*", sources := [table "r", table "s", table "u"] }
    let o : DirectedOrder := .join (.leaf (table "u")) (.join (.leaf (table "r")) (.leaf (table "s")))
    t.Built ∧ ofTree t none = .ok (some o) ∧ (∃ a, t.operators = .ok a ∧ ofTree t (some a) = .ok (some o)) ∧
      ∃ a, synopsis.recommend q t = .ok a ∧ ofTree t (some a) = .ok (some o) ∧
        a.joinFor? rs.tables = some ⟨.nestedLoop, rs.tables, none⟩ ∧ a.joinFor? rsu = some ⟨.merge, rsu, none⟩ := by
  intro table scanned rs rsu tree t inside onTop synopsis q o
  let scan (name : String) : Plan := .scan (table name) none 1 1
  have hload : JoinTree.ofPlan (.join none (scan "r") (scan "s") 1 5) = .ok ⟨some rs⟩ := by decide +kernel
  have htree : (tree none).Built := .joining (.ofPlan hload) (.ofTable (table "u")) (by decide +kernel)
  have hbuilt : t.Built := by
    have hoperator : (tree none).withOperator rsu (.join .hash) = .ok t := by decide +kernel
    exact .withOperator htree hoperator
  obtain ⟨o', ho', hseed, hadvice⟩ := directions_agree hbuilt
  have ho : ofTree t none = .ok (some o) := by decide +kernel
  obtain rfl := Except.ok.inj (ho.symm.trans ho')
  obtain ⟨a, ha, hdirected⟩ := hadvice synopsis q
  refine ⟨hbuilt, ho, hseed, a, ha, hdirected, ?_⟩
  have hjoins : (synopsis.recommend q t).map (fun a => (a.joinFor? rs.tables, a.joinFor? rsu)) =
      .ok (some ⟨.nestedLoop, rs.tables, none⟩, some ⟨.merge, rsu, none⟩) := by decide +kernel
  rw [ha] at hjoins
  exact Prod.mk.inj (Except.ok.inj hjoins)

end DirectedOrder

end OptimizerHints
