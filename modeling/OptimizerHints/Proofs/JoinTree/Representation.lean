import OptimizerHints.Proofs.JoinTree.Mirror

namespace OptimizerHints

open Outcome

namespace JoinNode

variable {n : JoinNode} {p q q' : Plan} {path path' : List Side} {t : TableRef}

lemma Mirrors.mem_leaves (h : n.Mirrors p) (hq : p.Reaches path q) (ht : q.scanTable? = some t) : t ∈ n.leaves := by
  induction h generalizing path with
  | scan hscan htable =>
    obtain ⟨-, rfl⟩ := hq.of_isScan hscan
    rw [Plan.scanTable?, if_pos hscan, htable] at ht
    exact List.mem_singleton.2 (Option.some.inj ht).symm
  | join hscan hjoin ho hi _ _ ihl ihr =>
    obtain ⟨-, rfl⟩ | ⟨path', -, hq⟩ | ⟨path', -, hq⟩ := hq.of_inputs ho hi
    · rw [Plan.scanTable?, hscan] at ht
      cases ht
    · exact List.mem_append_left _ (ihl hq)
    · exact List.mem_append_right _ (ihr hq)

lemma Mirrors.path_unique (h : n.Mirrors p) (hnodup : n.leaves.Nodup) (hq : p.Reaches path q)
    (hq' : p.Reaches path' q') (ht : q.scanTable? = some t) (ht' : q'.scanTable? = some t) : path = path' := by
  induction h generalizing path path' with
  | scan hscan _ => rw [(hq.of_isScan hscan).1, (hq'.of_isScan hscan).1]
  | @join p o i l r hscan hjoin ho hi hl hr ihl ihr =>
    have hself : p.unwrapped.scanTable? = none := by rw [Plan.scanTable?, hscan]; rfl
    obtain ⟨hnl, hnr, hne⟩ := List.nodup_append.1 hnodup
    obtain ⟨-, rfl⟩ | ⟨path, rfl, hin⟩ | ⟨path, rfl, hin⟩ := hq.of_inputs ho hi
    · rw [hself] at ht
      cases ht
    all_goals obtain ⟨-, rfl⟩ | ⟨path', rfl, hin'⟩ | ⟨path', rfl, hin'⟩ := hq'.of_inputs ho hi
    · rw [hself] at ht'
      cases ht'
    · rw [ihl hnl hin hin']
    · exact (hne t (hl.mem_leaves hin ht) t (hr.mem_leaves hin' ht') rfl).elim
    · rw [hself] at ht'
      cases ht'
    · exact (hne t (hl.mem_leaves hin' ht') t (hr.mem_leaves hin ht) rfl).elim
    · rw [ihr hnr hin hin']

end JoinNode

namespace JoinTree

def leaves (t : JoinTree) : List TableRef := t.root.elim [] JoinNode.leaves

lemma joining_error_iff {l r : JoinTree} :
    (∃ e, l.joining r = .error e) ↔ l.isEmpty = false ∧ r.isEmpty = false ∧ ∃ x, x ∈ l.tables ∧ x ∈ r.tables := by
  obtain ⟨_ | l⟩ := l
  · simp [joining, isEmpty]
  obtain ⟨_ | r⟩ := r
  · simp [joining, isEmpty]
  have hok : (∃ t, joining ⟨some l⟩ ⟨some r⟩ = .ok t) ↔ ∀ x ∈ l.tables, x ∉ r.tables := by
    constructor
    · rintro ⟨t, h⟩
      obtain ⟨n, hn, -⟩ := then_ok_iff.1 h
      exact (JoinNode.joining_ok_iff.1 hn).1
    · intro hdisjoint
      exact ⟨_, then_ok_iff.2 ⟨_, JoinNode.joining_ok_iff.2 ⟨hdisjoint, rfl⟩, rfl⟩⟩
  rw [error_iff, hok]
  simp [isEmpty, tables]

lemma ofPlan_error_of_repeated {p q q' : Plan} {path path' : List Side} {x : TableRef} (hq : p.Reaches path q)
    (hq' : p.Reaches path' q') (hne : path ≠ path') (hx : q.scanTable? = some x) (hx' : q'.scanTable? = some x) :
    ∃ e, ofPlan p = .error e := by
  cases h : ofPlan p with
  | error e => exact ⟨e, rfl⟩
  | ok t =>
    obtain ⟨n, hn, -⟩ := ofPlan_ok_iff.1 h
    obtain ⟨hmirrors, hsound⟩ := JoinNode.ofPlan_ok_iff.1 hn
    exact (hne (hmirrors.path_unique hsound.nodup_leaves hq hq' hx hx')).elim

lemma Sound.size_subtrees {t : JoinTree} (h : t.Sound) (hne : t.isEmpty = false) :
    t.subtrees.size + 1 = t.tables.size := by
  obtain ⟨_ | n⟩ := t
  · cases hne
  · have hn : n.Sound := h n rfl
    exact (congrArg (· + 1) (SortedSet.size_ofList hn.nodup_joinSets)).trans hn.size_tables.symm

/-- The trees that the public operations make. Every join holds the tables of the leaves below it, and its inputs have
leaves of their own; no table is at two leaves; so there is one join less than there are tables, and of two joins one is
part of the other or they have no table in common. Trees that share a table are not joined, and a plan does not load
that scans a table twice below inputs that are reached. -/
theorem representation_invariant :
    (∀ t : JoinTree, t.Built →
      (∀ l r i ts, JoinNode.join l r i ts ∈ t.joins →
        ts = .ofList (l.leaves ++ r.leaves) ∧ l.leaves ≠ [] ∧ r.leaves ≠ [] ∧ ∀ x ∈ l.leaves, x ∉ r.leaves) ∧
      t.leaves.Nodup ∧ t.tables = .ofList t.leaves ∧
      (t.isEmpty = false → t.subtrees.size + 1 = t.tables.size) ∧
      ∀ s ∈ t.subtrees, ∀ s' ∈ t.subtrees, (∀ x ∈ s, x ∈ s') ∨ (∀ x ∈ s', x ∈ s) ∨ ∀ x ∈ s, x ∉ s') ∧
    (∀ l r : JoinTree, (∃ e, l.joining r = .error e) ↔
      l.isEmpty = false ∧ r.isEmpty = false ∧ ∃ x, x ∈ l.tables ∧ x ∈ r.tables) ∧
    ∀ (p q q' : Plan) (path path' : List Side) (x : TableRef), p.Reaches path q → p.Reaches path' q' → path ≠ path' →
      q.scanTable? = some x → q'.scanTable? = some x → ∃ e, ofPlan p = .error e := by
  refine ⟨fun t ht => ?_, fun l r => joining_error_iff, fun p q q' path path' x => ofPlan_error_of_repeated⟩
  have hsound := ht.sound
  obtain ⟨_ | n⟩ := t
  · exact ⟨nofun, List.nodup_nil, rfl, nofun, nofun⟩
  have hn : n.Sound := hsound n rfl
  refine ⟨fun l r i ts hj => ?_, hn.nodup_leaves, hn.summed.tables_eq, hsound.size_subtrees, fun s hs s' hs' => ?_⟩
  · have hjoin := hn.of_mem_joins hj
    refine ⟨hjoin.summed.tables_eq, l.leaves_ne_nil, r.leaves_ne_nil, fun x hx hx' => ?_⟩
    exact (List.nodup_append.1 hjoin.nodup_leaves).2.2 x hx x hx' rfl
  · obtain ⟨j, hj, rfl⟩ := mem_subtrees_iff.1 hs
    obtain ⟨k, hk, rfl⟩ := mem_subtrees_iff.1 hs'
    exact hn.nested_or_disjoint hj hk

theorem representation_invariant_bushy :
    let r := TableRef.mk "r" none none
    let s := TableRef.mk "s" none none
    let u := TableRef.mk "u" none none
    let v := TableRef.mk "v" none none
    let node (x y : TableRef) : JoinNode := .join (.ofTable x) (.ofTable y) {} (.ofList [x, y])
    let t : JoinTree := ⟨some (.join (node r s) (node u v) {} (.ofList [r, s, u, v]))⟩
    let twice : Plan := .join none (.scan r none 1 1) (.passing "Hash" (.scan r none 1 1)) 1 1
    t.Built ∧ t.subtrees.size = 3 ∧ (∃ e, t.joining (.ofTable s) = .error e) ∧ ∃ e, ofPlan twice = .error e := by
  intro r s u v node t twice
  have hbuilt : ∀ x y, joining (.ofTable x) (.ofTable y) = .ok ⟨some (node x y)⟩ → Built ⟨some (node x y)⟩ :=
    fun x y h => .joining (.ofTable x) (.ofTable y) h
  have ht : t.Built := .joining (hbuilt r s (by decide +kernel)) (hbuilt u v (by decide +kernel)) (by decide +kernel)
  obtain ⟨htrees, hjoining, hplans⟩ := representation_invariant
  refine ⟨ht, ?_, (hjoining t (.ofTable s)).2 ⟨rfl, rfl, s, by decide +kernel, by decide +kernel⟩, ?_⟩
  · have hsize := (htrees t ht).2.2.2.1 rfl
    have hfour : t.tables.size = 4 := by decide +kernel
    omega
  · have hself : twice.unwrapped = twice := Plan.unwrapped_of_isJoin rfl
    have hscan : twice.unwrapped.isScan = false := by rw [hself]; rfl
    have hjoin : twice.unwrapped.isJoin = true := by rw [hself]; rfl
    have ho : twice.unwrapped.outer? = some (.scan r none 1 1) := by rw [hself]; rfl
    have hi : twice.unwrapped.inner? = some (.passing "Hash" (.scan r none 1 1)) := by rw [hself]; rfl
    have houter := Plan.Reaches.outer hscan hjoin ho (.here _)
    have hinner := Plan.Reaches.inner hscan hjoin hi (.here _)
    exact hplans _ _ _ _ _ r houter hinner (by decide) (by decide +kernel) (by decide +kernel)

end JoinTree

end OptimizerHints
