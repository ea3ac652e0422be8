import OptimizerHints.Proofs.Json.Numbers
import OptimizerHints.Proofs.Plan.Explained

namespace OptimizerHints

namespace Plan

open Document Outcome

structure Shaped (p : Plan) : Prop where
  scan : p.isScan = true → (∃ t, p.table = some t) ∧ p.children = [] ∧ p.innerIndex = none
  table : p.isScan = false → p.table = none
  inner : ∀ i, p.innerIndex = some i → i < p.children.length
  operator : p.isScan = false → p.isJoin = true → ∃ op : JoinOperator, p.operator = some (.join op)

variable {d c root : Document} {p q : Plan} {place : List Nat}

lemma explainedInner_lt {items : List Document} {i : Nat} (h : explainedInner items = some i) : i < items.length := by
  obtain ⟨e, he, rfl⟩ := Option.map_eq_some_iff.1 h
  obtain ⟨hmem, -⟩ := List.mem_filter.1 (List.mem_of_getLast? he)
  exact (List.getElem?_eq_some_iff.1 (List.mem_zipIdx_iff_getElem?.1 hmem)).1

lemma innerIndex_lt_of_explained (h : ofExplainedNode d = .ok p) {i : Nat} (hi : p.innerIndex = some i) :
    i < p.children.length := by
  rw [innerIndex_explained h] at hi
  rw [← (children_explained h).length_eq]
  exact explainedInner_lt hi

theorem shaped_of_explained (h : ofExplainedNode d = .ok p) : p.Shaped where
  scan hscan := by
    obtain ⟨nodeType, -, ⟨-, t, -, rfl⟩ | ⟨-, ps, -, rfl⟩⟩ := ofExplainedNode_ok_iff.1 h
    · exact ⟨⟨t, rfl⟩, rfl, rfl⟩
    · cases hscan
  table hscan := by
    obtain ⟨nodeType, -, ⟨-, t, -, rfl⟩ | ⟨-, ps, -, rfl⟩⟩ := ofExplainedNode_ok_iff.1 h
    · cases hscan
    · rfl
  inner _ hi := innerIndex_lt_of_explained h hi
  operator _ hjoin := by
    obtain ⟨op, -, hop⟩ := operator_explained h hjoin
    exact ⟨op, hop⟩

lemma numeric_of_mem_explainedInputs (h : d.Numeric) (hc : c ∈ explainedInputs d) : c.Numeric := by
  unfold explainedInputs at hc
  split at hc
  · next items _ hitems =>
    split_ifs at hc
    · cases hc
    · have hitems := h.of_field? hitems
      rw [Numeric, allNumeric_iff] at hitems
      exact hitems c hc
  · cases hc

lemma numeric_of_explainedAt? (h : d.Numeric) (hc : explainedAt? d place = some c) : c.Numeric := by
  induction place generalizing d with
  | nil =>
    obtain rfl := Option.some.inj hc
    exact h
  | cons k place ih =>
    obtain ⟨below, hbelow, hc⟩ := Option.bind_eq_some_iff.1 hc
    exact ih (numeric_of_mem_explainedInputs h (List.mem_of_getElem? hbelow)) hc

lemma numeric_explainedTop (h : d.Numeric) : (explainedTop d).Numeric := by
  unfold explainedTop
  split
  · rw [Numeric, AllNumeric] at h
    exact h.1
  · exact h

lemma cost_explained (h : ofExplainedNode d = .ok p) : p.cost = (d.realField? "Total Cost").getD (0 / 0) := by
  obtain ⟨nodeType, -, ⟨-, t, -, rfl⟩ | ⟨-, ps, -, rfl⟩⟩ := ofExplainedNode_ok_iff.1 h <;> rfl

lemma isNaN_cost_explained (hd : d.Numeric) (h : ofExplainedNode d = .ok p) :
    p.cost.isNaN = true ↔ d.realField? "Total Cost" = none := by
  rw [cost_explained h]
  cases hcost : d.realField? "Total Cost" with
  | none => exact iff_of_true (by decide) rfl
  | some x =>
    obtain ⟨v, hv, hx⟩ := Option.bind_eq_some_iff.1 hcost
    have hx : x.isNaN = false := (hd.of_field? hv).of_asReal? hx
    exact iff_of_false (Bool.eq_false_iff.1 hx) nofun

theorem shaped_of_explainText {s : String} (h : ofExplainText s = .ok p) :
    ∃ d root, Json.read? s = some d ∧ (explainedTop d).field? "Plan" = some root ∧
      ∀ place q, p.at? place = some q → q.Shaped ∧
        ∃ c, explainedAt? root place = some c ∧ (q.cost.isNaN = true ↔ c.realField? "Total Cost" = none) := by
  unfold ofExplainText at h
  split at h
  · next d hd =>
    obtain ⟨root, hroot, hread⟩ := at?_ofExplained h
    have hnumeric : root.Numeric := (numeric_explainedTop (Json.numeric_of_read? hd)).of_field? hroot
    refine ⟨d, root, hd, hroot, fun place q hq => ?_⟩
    have hnode := hread place
    rw [hq] at hnode
    generalize hc : explainedAt? root place = c at hnode
    cases hnode with
    | @some c _ hnode =>
      have hshaped := shaped_of_explained hnode
      have hcost := isNaN_cost_explained (numeric_of_explainedAt? hnumeric hc) hnode
      exact ⟨⟨hshaped.scan, hshaped.table, hshaped.inner, hshaped.operator⟩, c, rfl, hcost⟩
  · cases h

end Plan

end OptimizerHints
