import OptimizerHints.Proofs.JoinTree.Leaves
import OptimizerHints.Proofs.JoinTree.Operators
import OptimizerHints.Proofs.Sorted.Map

namespace OptimizerHints

open Outcome

namespace JoinNode

def bases : JoinNode → List JoinNode
  | base t i => [base t i]
  | join l r _ _ => l.bases ++ r.bases

def scanChoice? : JoinNode → Option ScanChoice
  | base t i => (i.operator.bind Operator.asScan?).map fun op => ⟨op, t⟩
  | join .. => none

def scanEntries (n : JoinNode) : List (TableRef × ScanChoice) :=
  (n.bases.filterMap scanChoice?).map fun c => (c.table, c)

def joinEntries (n : JoinNode) : List (TableSet × JoinChoice) :=
  (n.joins.filterMap choice?).map fun c => (c.tables, c)

lemma scanEntries_base (t : TableRef) (i : NodeInfo) :
    (base t i).scanEntries = ((i.operator.bind Operator.asScan?).map fun op => (t, ScanChoice.mk op t)).toList := by
  rw [scanEntries, bases]
  cases hop : i.operator.bind Operator.asScan? <;> simp [scanChoice?, hop]

lemma scanEntries_join (l r : JoinNode) (i : NodeInfo) (ts : TableSet) :
    (join l r i ts).scanEntries = l.scanEntries ++ r.scanEntries := by
  simp [scanEntries, bases]

theorem scans_addOperators {n : JoinNode} {a a' : Assignment} (h : n.addOperators a = .ok a') :
    a'.scans = a.scans.insertAll n.scanEntries := by
  induction n generalizing a a' with
  | base t i =>
    rw [addOperators] at h
    rw [scanEntries_base]
    cases hop : i.operator.bind Operator.asScan? with
    | none | some op =>
      rw [hop] at h
      obtain rfl := Except.ok.inj h
      rfl
  | join l r i ts ihl ihr =>
    obtain ⟨a₁, h₁, h⟩ := then_ok_iff.1 h
    obtain ⟨a₂, h₂, h₃⟩ := then_ok_iff.1 h
    rw [ihr h₃, ihl h₂, (rest_of_addJoinOperator h₁).1, scanEntries_join, SortedMap.insertAll_append]

lemma scanKeys_sublist (n : JoinNode) : (n.scanEntries.map Prod.fst).Sublist n.leaves := by
  induction n with
  | base t i =>
    rw [scanEntries_base, leaves]
    cases i.operator.bind Operator.asScan? <;> simp
  | join l r i ts ihl ihr =>
    rw [scanEntries_join, List.map_append, leaves]
    exact ihl.append ihr

lemma tables_of_choice? {j : JoinNode} {c : JoinChoice} (h : j.choice? = some c) : c.tables = j.tables := by
  cases j with
  | base t i => cases h
  | join l r i ts =>
    obtain ⟨op, -, rfl⟩ := choice?_join_eq_some_iff.1 h
    rfl

lemma joinKeys_sublist (n : JoinNode) : (n.joinEntries.map Prod.fst).Sublist n.joinSets := by
  rw [joinSets_eq_map, joinEntries, List.map_map]
  induction n.joins with
  | nil => exact .refl _
  | cons j js ih =>
    rw [List.filterMap_cons]
    cases hc : j.choice? with
    | none => exact ih.cons j.tables
    | some c =>
      have hkey := tables_of_choice? hc
      simpa [hkey] using ih

end JoinNode

namespace JoinTree

variable {t : JoinTree} {a : Assignment}

def scanEntries (t : JoinTree) : List (TableRef × ScanChoice) := t.root.elim [] JoinNode.scanEntries

def joinEntries (t : JoinTree) : List (TableSet × JoinChoice) := t.root.elim [] JoinNode.joinEntries

lemma mem_joinEntries_iff {ts : TableSet} {c : JoinChoice} :
    (ts, c) ∈ t.joinEntries ↔ ∃ j ∈ t.joins, j.tables = ts ∧ j.choice? = some c := by
  rw [joinEntries, joins]
  cases t.root with
  | none => simp
  | some n =>
    simp only [Option.elim_some, JoinNode.joinEntries, List.mem_map, List.mem_filterMap, Prod.mk.injEq]
    constructor
    · rintro ⟨_, ⟨j, hj, hc⟩, rfl, rfl⟩
      exact ⟨j, hj, (JoinNode.tables_of_choice? hc).symm, hc⟩
    · rintro ⟨j, hj, rfl, hc⟩
      exact ⟨c, ⟨j, hj, hc⟩, JoinNode.tables_of_choice? hc, rfl⟩

lemma Sound.nodup_joinEntries (h : t.Sound) : t.joinEntries.Nodup := by
  obtain ⟨_ | n⟩ := t
  · exact .nil
  · exact .of_map Prod.fst (n.joinKeys_sublist.nodup (h n rfl).nodup_joinSets)

lemma Sound.joinEntries_perm (h : t.Sound) (ha : t.operators = .ok a) : a.joins.entries.Perm t.joinEntries := by
  apply (List.perm_ext_iff_of_nodup a.joins.nodup_entries h.nodup_joinEntries).2
  rintro ⟨ts, c⟩
  rw [mem_joinEntries_iff, SortedMap.mem_entries_iff]
  constructor
  · exact exists_join_of_joinFor? ha
  · rintro ⟨j, hj, rfl, hc⟩
    exact (h.joinFor?_tables ha hj).trans hc

lemma Sound.scanEntries_perm (h : t.Sound) (ha : t.operators = .ok a) : a.scans.entries.Perm t.scanEntries := by
  obtain ⟨_ | n⟩ := t
  · obtain rfl := Except.ok.inj ha
    exact .nil
  · rw [JoinNode.scans_addOperators ha]
    exact SortedMap.entries_insertAll_perm (n.scanKeys_sublist.nodup (h n rfl).nodup_leaves)

/-- The operators of a tree always make an assignment. It has one entry for each join that carries a join operator, one
for each table that carries a scan operator, and nothing else, and it passes all checks. -/
theorem operators_of_annotations (h : t.Built) :
    ∃ a, t.operators = .ok a ∧ a.scans.entries.Perm t.scanEntries ∧ a.joins.entries.Perm t.joinEntries ∧
      a.settings = ∅ ∧ a.validate = .ok () ∧ a.checkAgainst t = .ok () := by
  obtain ⟨a, ha, hvalid, hjoins⟩ := h.sound.operators
  refine ⟨a, ha, h.sound.scanEntries_perm ha, h.sound.joinEntries_perm ha, settings_operators ha,
    Assignment.validate_ok_iff.2 hvalid, ?_⟩
  apply Assignment.checkAgainst_ok_iff.2
  intro _ ts c hc
  exact mem_subtrees_iff.2 (hjoins ts c hc)

theorem operators_of_annotations_mixed :
    let r := TableRef.mk "r" none none
    let s := TableRef.mk "s" none none
    let u := TableRef.mk "u" none none
    let rs : TableSet := .ofList [r, s]
    let rsu : TableSet := .ofList [r, s, u]
    let tree (onJoin onTable : Option Operator) : JoinTree := ⟨some (.join
      (.join (.base r { operator := some (.scan .index), upperBound := some 10 })
        (.base s { operator := onTable, upperBound := some 20 })
        { operator := onJoin, upperBound := some 5, inner := some .right } rs)
      (.base u { operator := some (.scan .sequential), upperBound := some 30 })
      { operator := some (.join .hash), upperBound := some 2, inner := some .right } rsu)⟩
    let t := tree (some (.scan .bitmap)) (some (.join .hash))
    t.Built ∧ ∃ a, t.operators = .ok a ∧ a.scans.entries.Perm [(r, ⟨.index, r⟩), (u, ⟨.sequential, u⟩)] ∧
      a.joins.entries.Perm [(rsu, ⟨.hash, rsu, some (.singleton u)⟩)] := by
  intro r s u rs rsu tree t
  let p : Plan := .join (some .hash) (.join none (.scan r (some .index) 1 10) (.scan s none 1 20) 3 5)
    (.scan u (some .sequential) 1 30) 9 2
  have hload : ofPlan p = .ok (tree none none) := by decide +kernel
  have honJoin : (tree none none).withOperator rs (.scan .bitmap) = .ok (tree (some (.scan .bitmap)) none) := by
    decide +kernel
  have honTable : (tree (some (.scan .bitmap)) none).withOperator (.singleton s) (.join .hash) = .ok t := by
    decide +kernel
  have hbuilt : t.Built := .withOperator (.withOperator (.ofPlan hload) honJoin) honTable
  obtain ⟨a, ha, hscans, hjoins, -⟩ := operators_of_annotations hbuilt
  have hscan : t.scanEntries = [(r, ⟨.index, r⟩), (u, ⟨.sequential, u⟩)] := by decide +kernel
  have hjoin : t.joinEntries = [(rsu, ⟨.hash, rsu, some (.singleton u)⟩)] := by decide +kernel
  exact ⟨hbuilt, a, ha, hscan ▸ hscans, hjoin ▸ hjoins⟩

end JoinTree

end OptimizerHints
