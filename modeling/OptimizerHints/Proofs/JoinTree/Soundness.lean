import OptimizerHints.JoinTree.Loading
import OptimizerHints.Proofs.Outcome

/-! Join trees that are built by the public operations hold the right tables at every join, and no table twice. -/

namespace OptimizerHints

open Outcome

namespace JoinNode

def Sound : JoinNode → Prop
  | base _ _ => True
  | join l r _ ts => l.Sound ∧ r.Sound ∧ ts = l.tables ∪ r.tables ∧ ∀ t ∈ l.tables, t ∉ r.tables

def Summed : JoinNode → Prop
  | base _ _ => True
  | join l r _ ts => l.Summed ∧ r.Summed ∧ ts = l.tables ∪ r.tables

lemma Sound.summed {n : JoinNode} (h : n.Sound) : n.Summed := by
  induction n with
  | base t i => trivial
  | join l r i ts ihl ihr =>
    obtain ⟨hl, hr, htables, -⟩ := h
    exact ⟨ihl hl, ihr hr, htables⟩

lemma Summed.mem_tables_iff {n : JoinNode} (h : n.Summed) {t : TableRef} : t ∈ n.tables ↔ t ∈ n.leaves := by
  induction n with
  | base t' i => simp [tables, leaves]
  | join l r i ts ihl ihr =>
    obtain ⟨hl, hr, rfl⟩ := h
    rw [tables, SortedSet.mem_union, ihl hl, ihr hr, leaves, List.mem_append]

def joins : JoinNode → List JoinNode
  | base _ _ => []
  | join l r i ts => join l r i ts :: (l.joins ++ r.joins)

lemma joinSets_eq_map (n : JoinNode) : n.joinSets = n.joins.map tables := by
  induction n with
  | base t i => rfl
  | join l r i ts ihl ihr => rw [joinSets, joins, List.map_cons, List.map_append, ihl, ihr]; rfl

lemma sound_mapInfo {f : NodeInfo → NodeInfo} {n : JoinNode} : (n.mapInfo f).Sound ↔ n.Sound := by
  cases n <;> rfl

lemma joining_ok_iff {l r n : JoinNode} :
    l.joining r = .ok n ↔ (∀ t ∈ l.tables, t ∉ r.tables) ∧ n = join l r {} (l.tables ∪ r.tables) := by
  rw [joining, ← SortedSet.isDisjoint_iff]
  cases l.tables.isDisjoint r.tables with
  | true => simp [eq_comm]
  | false => simp

lemma sound_joining {l r n : JoinNode} (hl : l.Sound) (hr : r.Sound) (h : l.joining r = .ok n) : n.Sound := by
  obtain ⟨hdisjoint, rfl⟩ := joining_ok_iff.1 h
  exact ⟨hl, hr, rfl, hdisjoint⟩

lemma tables_updateAt {ts : TableSet} {f : NodeInfo → NodeInfo} {n n' : JoinNode} (h : n.updateAt ts f = some n') :
    n'.tables = n.tables := by
  cases n with
  | base t i =>
    rw [updateAt] at h
    split at h
    · obtain rfl := Option.some.inj h
      rfl
    · cases h
  | join l r i s =>
    rw [updateAt] at h
    split at h
    · obtain rfl := Option.some.inj h
      rfl
    · split at h <;> (obtain ⟨c, -, rfl⟩ := Option.map_eq_some_iff.1 h; rfl)

lemma sound_updateAt {ts : TableSet} {f : NodeInfo → NodeInfo} {n n' : JoinNode} (hn : n.Sound)
    (h : n.updateAt ts f = some n') : n'.Sound := by
  induction n generalizing n' with
  | base t i =>
    rw [updateAt] at h
    split at h
    · obtain rfl := Option.some.inj h
      trivial
    · cases h
  | join l r i s ihl ihr =>
    obtain ⟨hl, hr, htables, hdisjoint⟩ := hn
    rw [updateAt] at h
    split at h
    · obtain rfl := Option.some.inj h
      exact ⟨hl, hr, htables, hdisjoint⟩
    · split at h
      · obtain ⟨l', hl', rfl⟩ := Option.map_eq_some_iff.1 h
        have hsame := tables_updateAt hl'
        exact ⟨ihl hl hl', hr, hsame ▸ htables, hsame ▸ hdisjoint⟩
      · obtain ⟨r', hr', rfl⟩ := Option.map_eq_some_iff.1 h
        have hsame := tables_updateAt hr'
        exact ⟨hl, ihr hr hr', hsame ▸ htables, hsame ▸ hdisjoint⟩

@[simp] lemma tables_logical (n : JoinNode) : n.logical.tables = n.tables := by
  cases n <;> rfl

lemma sound_logical {n : JoinNode} (h : n.Sound) : n.logical.Sound := by
  induction n with
  | base t i => trivial
  | join l r i ts ihl ihr =>
    obtain ⟨hl, hr, htables, hdisjoint⟩ := h
    refine ⟨ihl hl, ihr hr, ?_, ?_⟩
    · rw [tables_logical, tables_logical]
      exact htables
    · rw [tables_logical, tables_logical]
      exact hdisjoint

lemma sound_ofPlan {p : Plan} {n : JoinNode} (h : ofPlan p = .ok n) : n.Sound := by
  fun_induction ofPlan p generalizing n with
  | case1 =>
    obtain rfl := Except.ok.inj h
    trivial
  | case3 plan p hscan hjoin outer inner ho hi ihl =>
    rename_i ihr
    obtain ⟨l, hl, h⟩ := then_ok_iff.1 h
    obtain ⟨r, hr, h⟩ := then_ok_iff.1 h
    obtain ⟨j, hj, h⟩ := then_ok_iff.1 h
    obtain rfl := done_ok_iff.1 h
    exact sound_mapInfo.2 (sound_joining (ihl hl) (ihr hr) hj)
  | _ => cases h

lemma Sound.mem_tables_iff {n : JoinNode} (h : n.Sound) {t : TableRef} : t ∈ n.tables ↔ t ∈ n.leaves :=
  h.summed.mem_tables_iff

lemma leaves_ne_nil (n : JoinNode) : n.leaves ≠ [] := by
  induction n with
  | base t i => exact List.cons_ne_nil t []
  | join l r i ts ihl ihr => exact List.append_ne_nil_of_left_ne_nil ihl r.leaves

lemma Sound.exists_mem_tables {n : JoinNode} (h : n.Sound) : ∃ t, t ∈ n.tables := by
  obtain ⟨t, ht⟩ := List.exists_mem_of_ne_nil _ n.leaves_ne_nil
  exact ⟨t, h.mem_tables_iff.2 ht⟩

lemma Sound.exists_mem_sides {l r : JoinNode} {i : NodeInfo} {ts : TableSet} (h : (join l r i ts).Sound) :
    (∃ t ∈ l.tables, t ∈ ts ∧ t ∉ r.tables) ∧ ∃ t ∈ r.tables, t ∈ ts ∧ t ∉ l.tables := by
  obtain ⟨hl, hr, rfl, hdisjoint⟩ := h
  obtain ⟨tl, htl⟩ := hl.exists_mem_tables
  obtain ⟨tr, htr⟩ := hr.exists_mem_tables
  constructor
  · exact ⟨tl, htl, SortedSet.mem_union.2 (.inl htl), hdisjoint tl htl⟩
  · exact ⟨tr, htr, SortedSet.mem_union.2 (.inr htr), fun h => hdisjoint tr h htr⟩

lemma Sound.tables_ne {l r : JoinNode} {i : NodeInfo} {ts : TableSet} (h : (join l r i ts).Sound) :
    r.tables ≠ l.tables := by
  obtain ⟨-, t, htr, -, htl⟩ := h.exists_mem_sides
  exact fun heq => htl (heq ▸ htr)

lemma inherited_of_mem_joins {P : JoinNode → Prop} (h : ∀ l r i ts, P (join l r i ts) → P l ∧ P r) {n j : JoinNode}
    (hn : P n) (hj : j ∈ n.joins) : P j := by
  induction n with
  | base t i => cases hj
  | join l r i ts ihl ihr =>
    obtain ⟨hl, hr⟩ := h l r i ts hn
    rcases List.mem_cons.1 hj with rfl | hj
    · exact hn
    · exact (List.mem_append.1 hj).elim (ihl hl) (ihr hr)

lemma Sound.of_mem_joins {n j : JoinNode} (h : n.Sound) (hj : j ∈ n.joins) : j.Sound :=
  inherited_of_mem_joins (fun _ _ _ _ ⟨hl, hr, _, _⟩ => ⟨hl, hr⟩) h hj

lemma Sound.mem_of_mem_joins {n j : JoinNode} (h : n.Sound) (hj : j ∈ n.joins) {t : TableRef} (ht : t ∈ j.tables) :
    t ∈ n.tables := by
  induction n with
  | base t i => cases hj
  | join l r i ts ihl ihr =>
    obtain ⟨hl, hr, hts, -⟩ := h
    rcases List.mem_cons.1 hj with rfl | hj
    · exact ht
    · rw [tables, hts, SortedSet.mem_union]
      exact (List.mem_append.1 hj).imp (ihl hl) (ihr hr)

lemma Sound.ne_of_mem_joins {n j n' j' : JoinNode} (h : n.Sound) (h' : n'.Sound) (hj : j ∈ n.joins)
    (hj' : j' ∈ n'.joins) (hdisjoint : ∀ t ∈ n.tables, t ∉ n'.tables) : j.tables ≠ j'.tables := by
  intro heq
  obtain ⟨t, ht⟩ := (h.of_mem_joins hj).exists_mem_tables
  exact hdisjoint t (h.mem_of_mem_joins hj ht) (h'.mem_of_mem_joins hj' (heq ▸ ht))

theorem Sound.nodup_joinSets {n : JoinNode} (h : n.Sound) : n.joinSets.Nodup := by
  rw [joinSets_eq_map]
  induction n with
  | base t i => exact List.nodup_nil
  | join l r i ts ihl ihr =>
    obtain ⟨⟨tl, -, htl, htlr⟩, tr, -, htr, htrl⟩ := h.exists_mem_sides
    obtain ⟨hl, hr, -, hdisjoint⟩ := h
    rw [joins, List.map_cons, List.map_append]
    refine List.nodup_cons.2 ⟨?_, List.nodup_append.2 ⟨ihl hl, ihr hr, ?_⟩⟩
    · rw [← List.map_append, List.mem_map]
      rintro ⟨j, hj, rfl⟩
      rcases List.mem_append.1 hj with hj | hj
      · exact htrl (hl.mem_of_mem_joins hj htr)
      · exact htlr (hr.mem_of_mem_joins hj htl)
    · intro ts hts ts' hts'
      obtain ⟨j, hj, rfl⟩ := List.mem_map.1 hts
      obtain ⟨j', hj', rfl⟩ := List.mem_map.1 hts'
      exact hl.ne_of_mem_joins hr hj hj' hdisjoint

end JoinNode

namespace JoinTree

inductive Built : JoinTree → Prop
  | empty : Built empty
  | ofTable (t : TableRef) : Built (ofTable t)
  | joining {l r t : JoinTree} : Built l → Built r → l.joining r = .ok t → Built t
  | crossProduct {ts : List JoinTree} {t : JoinTree} : (∀ l ∈ ts, Built l) → crossProduct ts = .ok t → Built t
  | ofPlan {p : Plan} {t : JoinTree} : ofPlan p = .ok t → Built t
  | logical {t : JoinTree} : Built t → Built t.logical
  | withBound {t t' : JoinTree} {ts : TableSet} {bound : Float} : Built t → t.withBound ts bound = .ok t' → Built t'
  | withOperator {t t' : JoinTree} {ts : TableSet} {op : Operator} :
    Built t → t.withOperator ts op = .ok t' → Built t'

lemma Built.of_tables (ts : List TableRef) {t : JoinTree}
    (h : JoinTree.crossProduct (ts.map JoinTree.ofTable) = .ok t) : t.Built := by
  apply Built.crossProduct _ h
  intro l hl
  obtain ⟨x, -, rfl⟩ := List.mem_map.1 hl
  exact .ofTable x

def Sound (t : JoinTree) : Prop := ∀ n, t.root = some n → n.Sound

def joins (t : JoinTree) : List JoinNode := t.root.elim [] JoinNode.joins

lemma Sound.of_mem_joins {t : JoinTree} {j : JoinNode} (h : t.Sound) (hj : j ∈ t.joins) : j.Sound := by
  obtain ⟨_ | n⟩ := t
  · cases hj
  · exact (h n rfl).of_mem_joins hj

lemma sound_empty : empty.Sound := fun _ h => nomatch h

lemma sound_joining {l r t : JoinTree} (hl : l.Sound) (hr : r.Sound) (h : l.joining r = .ok t) : t.Sound := by
  unfold joining at h
  split at h
  · obtain rfl := Except.ok.inj h
    exact hr
  · obtain rfl := Except.ok.inj h
    exact hl
  · next l' r' hl' hr' =>
    obtain ⟨n, hn, h⟩ := then_ok_iff.1 h
    obtain rfl := done_ok_iff.1 h
    intro n' hn'
    obtain rfl := Option.some.inj hn'
    exact JoinNode.sound_joining (hl l' hl') (hr r' hr') hn

lemma sound_updateAt {t t' : JoinTree} {ts : TableSet} {f : NodeInfo → NodeInfo} (ht : t.Sound)
    (h : t.updateAt ts f = .ok t') : t'.Sound := by
  unfold updateAt at h
  split at h
  · next n hn =>
    obtain rfl := Except.ok.inj h
    obtain ⟨m, hm, hn⟩ := Option.bind_eq_some_iff.1 hn
    intro n' hn'
    obtain rfl := Option.some.inj hn'
    exact JoinNode.sound_updateAt (ht m hm) hn
  · cases h

theorem Built.sound {t : JoinTree} (h : t.Built) : t.Sound := by
  induction h with
  | empty => exact sound_empty
  | ofTable t =>
    intro n hn
    obtain rfl := Option.some.inj hn
    trivial
  | joining _ _ h ihl ihr => exact sound_joining ihl ihr h
  | crossProduct _ h ih => exact folded_of_step (fun _ l _ hl h hacc => sound_joining hacc (ih l hl) h) h sound_empty
  | ofPlan h =>
    obtain ⟨n, hn, h⟩ := then_ok_iff.1 h
    obtain rfl := done_ok_iff.1 h
    intro n' hn'
    obtain rfl := Option.some.inj hn'
    exact JoinNode.sound_ofPlan hn
  | logical _ ih =>
    intro n hn
    obtain ⟨m, hm, rfl⟩ := Option.map_eq_some_iff.1 hn
    exact JoinNode.sound_logical (ih m hm)
  | withBound _ h ih | withOperator _ h ih => exact sound_updateAt ih h

lemma mem_subtrees_iff {t : JoinTree} {ts : TableSet} : ts ∈ t.subtrees ↔ ∃ j ∈ t.joins, j.tables = ts := by
  rw [subtrees, joins, SortedSet.mem_ofList]
  cases t.root with
  | none => simp
  | some n => simp [JoinNode.joinSets_eq_map]

end JoinTree

end OptimizerHints
