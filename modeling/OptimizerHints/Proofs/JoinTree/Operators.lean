import OptimizerHints.Proofs.Assignment
import OptimizerHints.Proofs.JoinTree.Soundness

namespace OptimizerHints

open Outcome

namespace JoinNode

variable {l r : JoinNode} {i : NodeInfo} {ts : TableSet}

lemma Sound.properInner_side (h : (join l r i ts).Sound) (side : Side) :
    JoinChoice.properInner ts (l.sideTables r side) = true := by
  obtain ⟨⟨tl, htl, htl', htlr⟩, tr, htr, htr', htrl⟩ := h.exists_mem_sides
  obtain ⟨-, -, rfl, -⟩ := h
  rw [JoinChoice.properInner_iff]
  cases side with
  | left =>
    refine ⟨⟨tl, htl⟩, fun t ht => SortedSet.mem_union.2 (.inl ht), fun heq => htrl ?_⟩
    rwa [← heq] at htr'
  | right =>
    refine ⟨⟨tr, htr⟩, fun t ht => SortedSet.mem_union.2 (.inr ht), fun heq => htlr ?_⟩
    rwa [← heq] at htl'

lemma Sound.validate_choice (h : (join l r i ts).Sound) (op : JoinOperator) (side : Option Side) :
    (⟨op, ts, side.map (l.sideTables r)⟩ : JoinChoice).validate = .ok () := by
  refine JoinChoice.validate_ok_iff.2 ⟨SortedSet.isEmpty_eq_false_iff.2 h.exists_mem_tables, fun inner hinner => ?_⟩
  obtain ⟨side, -, rfl⟩ := Option.map_eq_some_iff.1 hinner
  exact h.properInner_side side

lemma Sound.addJoinOperator (h : (join l r i ts).Sound) {a : Assignment} (ha : a.Valid) :
    ∃ a', addJoinOperator a l r i ts = .ok a' ∧ a'.Valid := by
  rw [JoinNode.addJoinOperator]
  cases i.operator.bind Operator.asJoin? with
  | none => exact ⟨a, rfl, ha⟩
  | some op =>
    have hvalid := h.validate_choice op i.inner
    exact ⟨_, Assignment.setJoin_of_valid hvalid a, ha.withJoin hvalid⟩

theorem Sound.addOperators {n : JoinNode} (h : n.Sound) {a : Assignment} (ha : a.Valid) :
    ∃ a', n.addOperators a = .ok a' ∧ a'.Valid := by
  induction n generalizing a with
  | base t i =>
    rw [JoinNode.addOperators]
    cases i.operator.bind Operator.asScan? with
    | none => exact ⟨a, rfl, ha⟩
    | some op => exact ⟨a.setScan ⟨op, t⟩, rfl, ha⟩
  | join l r i ts ihl ihr =>
    obtain ⟨a₁, h₁, hvalid₁⟩ := h.addJoinOperator ha
    obtain ⟨hl, hr, -, -⟩ := h
    obtain ⟨a₂, h₂, hvalid₂⟩ := ihl hl hvalid₁
    obtain ⟨a₃, h₃, hvalid₃⟩ := ihr hr hvalid₂
    exact ⟨a₃, then_ok_iff.2 ⟨a₁, h₁, then_ok_iff.2 ⟨a₂, h₂, h₃⟩⟩, hvalid₃⟩

def choice? : JoinNode → Option JoinChoice
  | base _ _ => none
  | join l r i ts => (i.operator.bind Operator.asJoin?).map fun op => ⟨op, ts, i.inner.map (l.sideTables r)⟩

lemma choice?_join_eq_some_iff {c : JoinChoice} :
    (join l r i ts).choice? = some c ↔
      ∃ op, i.operator = some (.join op) ∧ ⟨op, ts, i.inner.map (l.sideTables r)⟩ = c := by
  have hjoin : ∀ op, i.operator.bind Operator.asJoin? = some op ↔ i.operator = some (.join op) := by
    intro op
    rcases i.operator with _ | _ | op' <;> simp [Operator.asJoin?]
  rw [choice?, Option.map_eq_some_iff]
  simp only [hjoin]

def choiceFor? (ts : TableSet) : JoinNode → Option JoinChoice
  | base _ _ => none
  | join l r i s => (r.choiceFor? ts).or ((l.choiceFor? ts).or (if ts = s then (join l r i s).choice? else none))

lemma joinFor?_addJoinOperator {a a' : Assignment} (h : JoinNode.addJoinOperator a l r i ts = .ok a')
    (ts' : TableSet) :
    a'.joinFor? ts' = (if ts' = ts then (join l r i ts).choice? else none).or (a.joinFor? ts') := by
  rw [JoinNode.addJoinOperator] at h
  rw [choice?]
  cases hop : i.operator.bind Operator.asJoin? with
  | none =>
    rw [hop] at h
    obtain rfl := Except.ok.inj h
    simp
  | some op =>
    rw [hop] at h
    obtain ⟨-, rfl⟩ := Assignment.setJoin_ok_iff.1 h
    by_cases hts : ts' = ts
    · subst hts
      rw [if_pos rfl]
      exact Assignment.joinFor?_withJoin_self ..
    · rw [if_neg hts]
      exact Assignment.joinFor?_withJoin_of_ne a hts

theorem joinFor?_addOperators {n : JoinNode} {a a' : Assignment} (h : n.addOperators a = .ok a') (ts : TableSet) :
    a'.joinFor? ts = (n.choiceFor? ts).or (a.joinFor? ts) := by
  induction n generalizing a a' with
  | base t i =>
    rw [JoinNode.addOperators] at h
    cases hop : i.operator.bind Operator.asScan? with
    | none | some op =>
      rw [hop] at h
      obtain rfl := Except.ok.inj h
      rfl
  | join l r i s ihl ihr =>
    obtain ⟨a₁, h₁, h⟩ := then_ok_iff.1 h
    obtain ⟨a₂, h₂, h₃⟩ := then_ok_iff.1 h
    rw [ihr h₃, ihl h₂, joinFor?_addJoinOperator h₁, choiceFor?, Option.or_assoc, Option.or_assoc]

lemma rest_of_addJoinOperator {a a' : Assignment} (h : JoinNode.addJoinOperator a l r i ts = .ok a') :
    a'.scans = a.scans ∧ a'.settings = a.settings := by
  rw [JoinNode.addJoinOperator] at h
  split at h
  · obtain ⟨-, rfl⟩ := Assignment.setJoin_ok_iff.1 h
    exact ⟨rfl, rfl⟩
  · obtain rfl := Except.ok.inj h
    exact ⟨rfl, rfl⟩

lemma settings_addOperators {n : JoinNode} {a a' : Assignment} (h : n.addOperators a = .ok a') :
    a'.settings = a.settings := by
  induction n generalizing a a' with
  | base t i =>
    rw [JoinNode.addOperators] at h
    cases hop : i.operator.bind Operator.asScan? with
    | none | some op =>
      rw [hop] at h
      obtain rfl := Except.ok.inj h
      rfl
  | join l r i s ihl ihr =>
    obtain ⟨a₁, h₁, h⟩ := then_ok_iff.1 h
    obtain ⟨a₂, h₂, h₃⟩ := then_ok_iff.1 h
    rw [ihr h₃, ihl h₂, (rest_of_addJoinOperator h₁).2]

lemma mem_of_choiceFor? {n : JoinNode} {c : JoinChoice} (h : n.choiceFor? ts = some c) :
    ∃ j ∈ n.joins, j.tables = ts ∧ j.choice? = some c := by
  induction n with
  | base t i => cases h
  | join l r i s ihl ihr =>
    simp only [joins, List.mem_cons, List.mem_append]
    rcases Option.or_eq_some_iff.1 h with hr | ⟨-, h⟩
    · obtain ⟨j, hj, hc⟩ := ihr hr
      exact ⟨j, .inr (.inr hj), hc⟩
    rcases Option.or_eq_some_iff.1 h with hl | ⟨-, h⟩
    · obtain ⟨j, hj, hc⟩ := ihl hl
      exact ⟨j, .inr (.inl hj), hc⟩
    split at h
    · next hts => exact ⟨_, .inl rfl, hts.symm, h⟩
    · cases h

lemma choiceFor?_eq_none {n : JoinNode} (h : ts ∉ n.joinSets) : n.choiceFor? ts = none := by
  rw [joinSets_eq_map] at h
  cases hc : n.choiceFor? ts with
  | none => rfl
  | some c =>
    obtain ⟨j, hj, htables, -⟩ := mem_of_choiceFor? hc
    exact (h (List.mem_map.2 ⟨j, hj, htables⟩)).elim

theorem Sound.choiceFor?_tables {n j : JoinNode} (h : n.Sound) (hj : j ∈ n.joins) :
    n.choiceFor? j.tables = j.choice? := by
  induction n with
  | base t i => cases hj
  | join l r i s ihl ihr =>
    obtain ⟨hs, hnodup⟩ := List.nodup_cons.1 h.nodup_joinSets
    obtain ⟨-, -, hne⟩ := List.nodup_append.1 hnodup
    rw [List.mem_append, not_or] at hs
    obtain ⟨hl, hr, -, -⟩ := h
    rw [choiceFor?]
    rcases List.mem_cons.1 hj with rfl | hj
    · rw [tables, choiceFor?_eq_none hs.1, choiceFor?_eq_none hs.2, if_pos rfl]
      rfl
    have hset : ∀ {m : JoinNode}, j ∈ m.joins → j.tables ∈ m.joinSets := fun hm => by
      rw [joinSets_eq_map]
      exact List.mem_map_of_mem hm
    rcases List.mem_append.1 hj with hjl | hjr
    · have hnr : j.tables ∉ r.joinSets := fun hmem => hne _ (hset hjl) _ hmem rfl
      have hns : j.tables ≠ s := fun heq => hs.1 (heq ▸ hset hjl)
      rw [choiceFor?_eq_none hnr, ihl hl hjl, if_neg hns, Option.none_or, Option.or_none]
    · have hnl : j.tables ∉ l.joinSets := fun hmem => hne _ hmem _ (hset hjr) rfl
      have hns : j.tables ≠ s := fun heq => hs.2 (heq ▸ hset hjr)
      rw [choiceFor?_eq_none hnl, ihr hr hjr, if_neg hns, Option.none_or, Option.or_none]

end JoinNode

namespace JoinTree

lemma joinFor?_operators {t : JoinTree} {a : Assignment} (h : t.operators = .ok a) (ts : TableSet) :
    a.joinFor? ts = t.root.bind (JoinNode.choiceFor? ts) := by
  rw [JoinTree.operators] at h
  cases hroot : t.root with
  | none =>
    rw [hroot] at h
    obtain rfl := Except.ok.inj h
    rfl
  | some n =>
    rw [hroot] at h
    exact (JoinNode.joinFor?_addOperators h ts).trans Option.or_none

lemma exists_join_of_joinFor? {t : JoinTree} {a : Assignment} (h : t.operators = .ok a) {ts : TableSet}
    {c : JoinChoice} (hc : a.joinFor? ts = some c) : ∃ j ∈ t.joins, j.tables = ts ∧ j.choice? = some c := by
  rw [joinFor?_operators h] at hc
  obtain ⟨n, hn, hc⟩ := Option.bind_eq_some_iff.1 hc
  rw [joins, hn]
  exact JoinNode.mem_of_choiceFor? hc

theorem Sound.joinFor?_tables {t : JoinTree} {a : Assignment} {j : JoinNode} (h : t.Sound) (ha : t.operators = .ok a)
    (hj : j ∈ t.joins) : a.joinFor? j.tables = j.choice? := by
  obtain ⟨_ | n⟩ := t
  · cases hj
  · exact (joinFor?_operators ha j.tables).trans ((h n rfl).choiceFor?_tables hj)

lemma settings_operators {t : JoinTree} {a : Assignment} (h : t.operators = .ok a) : a.settings = ∅ := by
  rw [JoinTree.operators] at h
  cases hroot : t.root with
  | none =>
    rw [hroot] at h
    obtain rfl := Except.ok.inj h
    rfl
  | some n =>
    rw [hroot] at h
    exact JoinNode.settings_addOperators h

theorem Sound.operators {t : JoinTree} (h : t.Sound) :
    ∃ a, t.operators = .ok a ∧ a.Valid ∧ ∀ ts c, a.joinFor? ts = some c → ∃ j ∈ t.joins, j.tables = ts := by
  have hok : ∃ a, t.operators = .ok a ∧ a.Valid := by
    rw [JoinTree.operators]
    cases hroot : t.root with
    | none => exact ⟨.empty, rfl, Assignment.valid_empty⟩
    | some n => exact (h n hroot).addOperators Assignment.valid_empty
  obtain ⟨a, ha, hvalid⟩ := hok
  refine ⟨a, ha, hvalid, fun ts c hc => ?_⟩
  obtain ⟨j, hj, htables, -⟩ := exists_join_of_joinFor? ha hc
  exact ⟨j, hj, htables⟩

end JoinTree

end OptimizerHints
