import OptimizerHints.Proofs.JoinTree.Soundness
import OptimizerHints.Proofs.Sorted.Set

namespace OptimizerHints.JoinNode

lemma Summed.tables_eq {n : JoinNode} (h : n.Summed) : n.tables = .ofList n.leaves := by
  apply SortedSet.ext
  intro t
  rw [h.mem_tables_iff, SortedSet.mem_ofList]

theorem Summed.sound_iff {n : JoinNode} (h : n.Summed) : n.Sound ↔ n.leaves.Nodup := by
  induction n with
  | base t i => exact ⟨fun _ => List.nodup_singleton t, fun _ => trivial⟩
  | join l r i ts ihl ihr =>
    obtain ⟨hl, hr, hts⟩ := h
    rw [leaves, List.nodup_append, ← ihl hl, ← ihr hr]
    constructor
    · rintro ⟨hsl, hsr, -, hdisjoint⟩
      refine ⟨hsl, hsr, fun t ht t' ht' heq => ?_⟩
      rw [← hl.mem_tables_iff] at ht
      rw [← hr.mem_tables_iff, ← heq] at ht'
      exact hdisjoint t ht ht'
    · rintro ⟨hsl, hsr, hne⟩
      refine ⟨hsl, hsr, hts, fun t ht ht' => ?_⟩
      rw [hl.mem_tables_iff] at ht
      rw [hr.mem_tables_iff] at ht'
      exact hne t ht t ht' rfl

lemma Sound.nodup_leaves {n : JoinNode} (h : n.Sound) : n.leaves.Nodup := h.summed.sound_iff.1 h

lemma length_joinSets (n : JoinNode) : n.joinSets.length + 1 = n.leaves.length := by
  induction n with
  | base t i => rfl
  | join l r i ts ihl ihr =>
    simp only [joinSets, leaves, List.length_cons, List.length_append]
    omega

lemma Sound.size_tables {n : JoinNode} (h : n.Sound) : n.tables.size = n.joinSets.length + 1 := by
  rw [h.summed.tables_eq, SortedSet.size_ofList h.nodup_leaves, length_joinSets]

theorem Sound.nested_or_disjoint {n j k : JoinNode} (h : n.Sound) (hj : j ∈ n.joins) (hk : k ∈ n.joins) :
    (∀ t ∈ j.tables, t ∈ k.tables) ∨ (∀ t ∈ k.tables, t ∈ j.tables) ∨ ∀ t ∈ j.tables, t ∉ k.tables := by
  induction n with
  | base t i => cases hj
  | join l r i ts ihl ihr =>
    rcases List.mem_cons.1 hj with rfl | hj'
    · exact .inr (.inl fun t ht => h.mem_of_mem_joins hk ht)
    rcases List.mem_cons.1 hk with rfl | hk'
    · exact .inl fun t ht => h.mem_of_mem_joins hj ht
    obtain ⟨hl, hr, -, hdisjoint⟩ := h
    rcases List.mem_append.1 hj' with hjl | hjr <;> rcases List.mem_append.1 hk' with hkl | hkr
    · exact ihl hl hjl hkl
    · exact .inr (.inr fun t ht ht' => hdisjoint t (hl.mem_of_mem_joins hjl ht) (hr.mem_of_mem_joins hkr ht'))
    · exact .inr (.inr fun t ht ht' => hdisjoint t (hl.mem_of_mem_joins hkl ht') (hr.mem_of_mem_joins hjr ht))
    · exact ihr hr hjr hkr

end OptimizerHints.JoinNode
