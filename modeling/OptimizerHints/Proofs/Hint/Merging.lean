import OptimizerHints.Hint.Parts
import OptimizerHints.Proofs.Parameters

/-! The parts of a hint clause are merged like ordered sets: what stands there stays where it is, what is new follows
in its own order, and neither grouping nor repeating makes a difference. -/

namespace OptimizerHints.HintParts

def Extends (xs ys zs : List String) : Prop :=
  ∃ added, zs = xs ++ added ∧ added.Sublist ys ∧ ∀ y, added.count y = if y ∈ xs then 0 else ys.count y

def Distinct (p : HintParts) : Prop := p.settings.Nodup ∧ p.hints.Nodup

variable {xs ys zs : List String} {p q : HintParts}

lemma extend_eq_appendAll (xs ys : List String) : extend xs ys = Parameters.appendAll xs ys := rfl

lemma count_filter_not_mem (y : String) :
    (ys.filter fun y => y ∉ xs).count y = if y ∈ xs then 0 else ys.count y := by
  by_cases hy : y ∈ xs
  · rw [if_pos hy, List.count_eq_zero]
    exact fun hmem => of_decide_eq_true (List.mem_filter.1 hmem).2 hy
  · rw [if_neg hy]
    exact List.count_filter (decide_eq_true hy)

theorem extends_iff : Extends xs ys zs ↔ zs = extend xs ys := by
  constructor
  · rintro ⟨added, rfl, hsub, hcount⟩
    have hperm : added.Perm (ys.filter fun y => y ∉ xs) :=
      List.perm_iff_count.2 fun y => (hcount y).trans (count_filter_not_mem y).symm
    have hkept : added.filter (fun y => y ∉ xs) = added :=
      List.filter_eq_self.2 fun y hy => (List.mem_filter.1 (hperm.mem_iff.1 hy)).2
    -- a sublist as long as the whole is the whole
    have hnew : added.Sublist (ys.filter fun y => y ∉ xs) := hkept ▸ hsub.filter fun y => y ∉ xs
    rw [hnew.eq_of_length hperm.length_eq, extend]
  · rintro rfl
    exact ⟨_, rfl, List.filter_sublist, count_filter_not_mem⟩

lemma extend_of_subset (h : ∀ y ∈ ys, y ∈ xs) : extend xs ys = xs := by
  have hnone : (ys.filter fun y => y ∉ xs) = [] :=
    List.filter_eq_nil_iff.2 fun y hy => by simpa using h y hy
  rw [extend, hnone, List.append_nil]

lemma mem_extend {y : String} : y ∈ extend xs ys ↔ y ∈ xs ∨ y ∈ ys := Parameters.mem_appendAll

lemma extend_extend_self : extend (extend xs ys) xs = extend xs ys :=
  extend_of_subset fun _ hy => mem_extend.2 (.inl hy)

lemma merge_assoc (p q r : HintParts) : (p.merge q).merge r = p.merge (q.merge r) := by
  simp only [merge, extend_eq_appendAll, Parameters.appendAll_assoc]

lemma empty_merge (p : HintParts) : empty.merge p = p := by
  simp only [merge, empty, extend_eq_appendAll, Parameters.nil_appendAll]

lemma merge_empty (p : HintParts) : p.merge empty = p := by
  simp only [merge, empty, extend_eq_appendAll, Parameters.appendAll_nil]

lemma merge_merge_self (p q : HintParts) : (p.merge q).merge p = p.merge q := by
  simp only [merge, extend_extend_self]

lemma merge_self (p : HintParts) : p.merge p = p := by
  simp only [merge, extend_eq_appendAll, Parameters.appendAll_self]

lemma foldl_merge (ps : List HintParts) (p : HintParts) : ps.foldl merge p = p.merge (ps.foldl merge empty) := by
  induction ps generalizing p with
  | nil => exact (merge_empty p).symm
  | cons q ps ih => rw [List.foldl_cons, List.foldl_cons, ih, ih (empty.merge q), empty_merge, merge_assoc]

lemma Distinct.merge (hp : p.Distinct) (hq : q.Distinct) : (p.merge q).Distinct :=
  ⟨Parameters.nodup_appendAll hp.1 hq.1, Parameters.nodup_appendAll hp.2 hq.2⟩

/-- Merging may be grouped in any way, also where one part after the other is merged into the first. The empty parts
change nothing, nor do parts that were merged before. The result is the first parts with what the second have besides,
and holds nothing twice if neither of them does. -/
theorem merge_is_ordered_union (p q r : HintParts) :
    (p.merge q).merge r = p.merge (q.merge r) ∧
      (∀ ps : List HintParts, ps.foldl merge p = p.merge (ps.foldl merge empty)) ∧
      empty.merge p = p ∧ p.merge empty = p ∧ p.merge p = p ∧ (p.merge q).merge p = p.merge q ∧
      (∀ texts, Extends p.settings q.settings texts ↔ texts = (p.merge q).settings) ∧
      (∀ texts, Extends p.hints q.hints texts ↔ texts = (p.merge q).hints) ∧
      (∀ text, text ∈ (p.merge q).settings ↔ text ∈ p.settings ∨ text ∈ q.settings) ∧
      (∀ text, text ∈ (p.merge q).hints ↔ text ∈ p.hints ∨ text ∈ q.hints) ∧
      (p.Distinct → q.Distinct → (p.merge q).Distinct) :=
  ⟨merge_assoc p q r, fun ps => foldl_merge ps p, empty_merge p, merge_empty p, merge_self p, merge_merge_self p q,
    fun _ => extends_iff, fun _ => extends_iff, fun _ => mem_extend, fun _ => mem_extend, Distinct.merge⟩

theorem merge_is_ordered_union_shared :
    let p : HintParts := ⟨["SET a;"], ["X(r)", "Y(s)"]⟩
    let q : HintParts := ⟨["SET b;", "SET a;"], ["Z(t)", "Y(s)", "W(u)"]⟩
    p.Distinct ∧ q.Distinct ∧ (p.merge q).Distinct ∧
      p.merge q = ⟨["SET a;", "SET b;"], ["X(r)", "Y(s)", "Z(t)", "W(u)"]⟩ := by
  intro p q
  have hp : p.Distinct := ⟨by decide, by decide⟩
  have hq : q.Distinct := ⟨by decide, by decide⟩
  obtain ⟨-, -, -, -, -, -, -, -, -, -, hdistinct⟩ := merge_is_ordered_union p q empty
  exact ⟨hp, hq, hdistinct hp hq, by decide⟩

end OptimizerHints.HintParts
