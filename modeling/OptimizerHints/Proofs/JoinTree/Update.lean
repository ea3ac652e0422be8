import OptimizerHints.Proofs.JoinTree.Loaded

/-! A table set names one node of a tree at most, and a change of this node leaves the rest of the tree as it is. -/

namespace OptimizerHints

open Outcome

inductive NodeChange where
  | bound (bound : Float)
  | operator (op : Operator)

def NodeChange.apply : NodeChange → NodeInfo → NodeInfo
  | .bound b, i => { i with upperBound := some b }
  | .operator op, i => { i with operator := some op }

namespace JoinNode

def mapAt (ts : TableSet) (f : NodeInfo → NodeInfo) : JoinNode → JoinNode
  | base t i => base t (if .singleton t = ts then f i else i)
  | join l r i s => join (l.mapAt ts f) (r.mapAt ts f) (if s = ts then f i else i) s

def nodeSets : JoinNode → List TableSet
  | base t _ => [.singleton t]
  | join l r _ ts => ts :: (l.nodeSets ++ r.nodeSets)

variable {n l r m : JoinNode} {i : NodeInfo} {s ts ts' : TableSet} {f g : NodeInfo → NodeInfo} {path : List Side}

lemma mem_nodeSets_iff : ts ∈ n.nodeSets ↔ (∃ t ∈ n.leaves, ts = .singleton t) ∨ ts ∈ n.joinSets := by
  induction n with
  | base t i => simp [nodeSets, leaves, joinSets]
  | join l r i s ihl ihr =>
    simp only [nodeSets, leaves, joinSets, List.mem_cons, List.mem_append, ihl, ihr, or_and_right, exists_or]
    rw [or_or_or_comm, or_left_comm]

lemma tables_mem_nodeSets (n : JoinNode) : n.tables ∈ n.nodeSets := by
  cases n with
  | base t i => exact List.mem_singleton_self _
  | join l r i s => exact List.mem_cons_self

lemma at?_nil (n : JoinNode) : n.at? [] = some n := by
  cases n <;> rfl

lemma mem_nodeSets_of_at? (h : n.at? path = some m) : m.tables ∈ n.nodeSets := by
  induction path generalizing n with
  | nil =>
    rw [at?_nil] at h
    obtain rfl := Option.some.inj h
    exact n.tables_mem_nodeSets
  | cons side path ih =>
    cases n with
    | base t i => cases h
    | join l r i s =>
      apply List.mem_cons_of_mem
      cases side with
      | left => exact List.mem_append_left _ (ih h)
      | right => exact List.mem_append_right _ (ih h)

lemma exists_at?_of_mem_nodeSets (h : ts ∈ n.nodeSets) : ∃ path m, n.at? path = some m ∧ m.tables = ts := by
  induction n with
  | base t i => exact ⟨[], _, rfl, (List.mem_singleton.1 h).symm⟩
  | join l r i s ihl ihr =>
    rcases List.mem_cons.1 h with rfl | h
    · exact ⟨[], _, rfl, rfl⟩
    rcases List.mem_append.1 h with hl | hr
    · obtain ⟨path, m, hm⟩ := ihl hl
      exact ⟨.left :: path, m, hm⟩
    · obtain ⟨path, m, hm⟩ := ihr hr
      exact ⟨.right :: path, m, hm⟩

lemma Sound.of_mem_nodeSets (h : n.Sound) (hts : ts ∈ n.nodeSets) : (∃ t, t ∈ ts) ∧ ∀ t ∈ ts, t ∈ n.tables := by
  induction n with
  | base t i =>
    obtain rfl := List.mem_singleton.1 hts
    exact ⟨⟨t, SortedSet.mem_singleton.2 rfl⟩, fun _ => id⟩
  | join l r i s ihl ihr =>
    rcases List.mem_cons.1 hts with rfl | hts
    · exact ⟨h.exists_mem_tables, fun _ => id⟩
    obtain ⟨hl, hr, hs, -⟩ := h
    rw [tables, hs]
    rcases List.mem_append.1 hts with htl | htr
    · obtain ⟨hne, hsub⟩ := ihl hl htl
      exact ⟨hne, fun t ht => SortedSet.mem_union.2 (.inl (hsub t ht))⟩
    · obtain ⟨hne, hsub⟩ := ihr hr htr
      exact ⟨hne, fun t ht => SortedSet.mem_union.2 (.inr (hsub t ht))⟩

lemma Sound.not_mem_nodeSets (h : (join l r i s).Sound) : s ∉ l.nodeSets ∧ s ∉ r.nodeSets := by
  obtain ⟨⟨tl, -, htl, htlr⟩, tr, -, htr, htrl⟩ := h.exists_mem_sides
  obtain ⟨hl, hr, -, -⟩ := h
  exact ⟨fun hs => htrl ((hl.of_mem_nodeSets hs).2 tr htr), fun hs => htlr ((hr.of_mem_nodeSets hs).2 tl htl)⟩

lemma Sound.isSubset_left (h : (join l r i s).Sound) :
    (∀ ts ∈ l.nodeSets, ts.isSubset l.tables = true) ∧ ∀ ts ∈ r.nodeSets, ts.isSubset l.tables = false := by
  obtain ⟨hl, hr, -, hdisjoint⟩ := h
  refine ⟨fun ts hts => SortedSet.isSubset_iff.2 (hl.of_mem_nodeSets hts).2, fun ts hts => ?_⟩
  obtain ⟨⟨t, ht⟩, hsub⟩ := hr.of_mem_nodeSets hts
  apply Bool.eq_false_iff.2
  intro hleft
  exact hdisjoint t (SortedSet.isSubset_iff.1 hleft t ht) (hsub t ht)

def pathTo (ts : TableSet) : JoinNode → List Side
  | base _ _ => []
  | join l r _ s =>
    if s = ts then [] else if ts.isSubset l.tables then .left :: l.pathTo ts else .right :: r.pathTo ts

theorem Sound.eq_pathTo (h : n.Sound) (hm : n.at? path = some m) : path = n.pathTo m.tables := by
  induction n generalizing path with
  | base t i =>
    cases path with
    | nil => rfl
    | cons side path => cases hm
  | join l r i s ihl ihr =>
    obtain ⟨hsl, hsr⟩ := h.not_mem_nodeSets
    obtain ⟨hleft, hright⟩ := h.isSubset_left
    obtain ⟨hl, hr, -, -⟩ := h
    rw [pathTo]
    rcases path with _ | ⟨_ | _, path⟩
    · obtain rfl := Option.some.inj hm
      exact (if_pos rfl).symm
    · have hmem : m.tables ∈ l.nodeSets := mem_nodeSets_of_at? hm
      have hs : s ≠ m.tables := fun heq => hsl (heq ▸ hmem)
      rw [if_neg hs, if_pos (hleft _ hmem), ← ihl hl hm]
    · have hmem : m.tables ∈ r.nodeSets := mem_nodeSets_of_at? hm
      have hs : s ≠ m.tables := fun heq => hsr (heq ▸ hmem)
      rw [if_neg hs, if_neg (Bool.eq_false_iff.1 (hright _ hmem)), ← ihr hr hm]

lemma mapAt_of_not_mem (h : ts ∉ n.nodeSets) : n.mapAt ts f = n := by
  induction n with
  | base t i =>
    rw [nodeSets, List.mem_singleton] at h
    rw [mapAt, if_neg (Ne.symm h)]
  | join l r i s ihl ihr =>
    rw [nodeSets, List.mem_cons, List.mem_append, not_or, not_or] at h
    rw [mapAt, ihl h.2.1, ihr h.2.2, if_neg (Ne.symm h.1)]

@[simp] lemma nodeSets_mapAt : (n.mapAt ts f).nodeSets = n.nodeSets := by
  induction n with
  | base t i => rfl
  | join l r i s ihl ihr => rw [mapAt, nodeSets, nodeSets, ihl, ihr]

lemma mapAt_mapAt : (n.mapAt ts f).mapAt ts g = n.mapAt ts (g ∘ f) := by
  induction n with
  | base t i => by_cases h : .singleton t = ts <;> simp [mapAt, h]
  | join l r i s ihl ihr => by_cases h : s = ts <;> simp [mapAt, h, ihl, ihr]

lemma mapAt_comm (h : ts ≠ ts') : (n.mapAt ts f).mapAt ts' g = (n.mapAt ts' g).mapAt ts f := by
  induction n with
  | base t i => by_cases ht : .singleton t = ts <;> simp [mapAt, ht, h]
  | join l r i s ihl ihr => by_cases hs : s = ts <;> simp [mapAt, hs, h, ihl, ihr]

theorem Sound.updateAt_eq (h : n.Sound) :
    n.updateAt ts f = if ts ∈ n.nodeSets then some (n.mapAt ts f) else none := by
  induction n with
  | base t i =>
    rw [updateAt, nodeSets, mapAt]
    by_cases ht : .singleton t = ts
    · simp [tables, mapInfo, ht]
    · simp [tables, ht, Ne.symm ht]
  | join l r i s ihl ihr =>
    obtain ⟨hsl, hsr⟩ := h.not_mem_nodeSets
    obtain ⟨hleft, hright⟩ := h.isSubset_left
    obtain ⟨hl, hr, -, -⟩ := h
    rw [updateAt, tables, mapAt, nodeSets]
    by_cases hs : s = ts
    · subst hs
      rw [if_pos rfl, if_pos List.mem_cons_self, if_pos rfl, mapAt_of_not_mem hsl, mapAt_of_not_mem hsr, mapInfo]
    rw [if_neg hs, if_neg hs, ihl hl, ihr hr]
    have hmem : ts ∈ s :: (l.nodeSets ++ r.nodeSets) ↔ ts ∈ l.nodeSets ∨ ts ∈ r.nodeSets := by
      simp [Ne.symm hs]
    -- the side that is not searched has no such node, and is the same after the change
    by_cases hsub : ts.isSubset l.tables = true
    · have hnr : ts ∉ r.nodeSets := fun htr => Bool.eq_false_iff.1 (hright ts htr) hsub
      rw [if_pos hsub, mapAt_of_not_mem hnr]
      by_cases htl : ts ∈ l.nodeSets <;> simp [hmem, htl, hnr]
    · have hnl : ts ∉ l.nodeSets := fun htl => hsub (hleft ts htl)
      rw [if_neg hsub, mapAt_of_not_mem hnl]
      by_cases htr : ts ∈ r.nodeSets <;> simp [hmem, htr, hnl]

end JoinNode

namespace JoinTree

def at? (t : JoinTree) (path : List Side) : Option JoinNode := t.root.bind (·.at? path)

def mapAt (ts : TableSet) (f : NodeInfo → NodeInfo) (t : JoinTree) : JoinTree := ⟨t.root.map (JoinNode.mapAt ts f)⟩

def nodeSets (t : JoinTree) : List TableSet := t.root.elim [] JoinNode.nodeSets

def change (t : JoinTree) (ts : TableSet) : NodeChange → Except PlanError JoinTree
  | .bound b => t.withBound ts b
  | .operator op => t.withOperator ts op

variable {t t' : JoinTree} {ts ts' : TableSet} {f g : NodeInfo → NodeInfo} {c c' : NodeChange}

lemma change_eq : t.change ts c = t.updateAt ts c.apply := by
  cases c <;> rfl

@[simp] lemma nodeSets_mapAt : (t.mapAt ts f).nodeSets = t.nodeSets := by
  obtain ⟨_ | n⟩ := t
  · rfl
  · exact JoinNode.nodeSets_mapAt

lemma mapAt_mapAt : (t.mapAt ts f).mapAt ts g = t.mapAt ts (g ∘ f) := by
  obtain ⟨_ | n⟩ := t
  · rfl
  · exact congrArg (fun n => JoinTree.mk (some n)) JoinNode.mapAt_mapAt

lemma mapAt_comm (h : ts ≠ ts') : (t.mapAt ts f).mapAt ts' g = (t.mapAt ts' g).mapAt ts f := by
  obtain ⟨_ | n⟩ := t
  · rfl
  · exact congrArg (fun n => JoinTree.mk (some n)) (JoinNode.mapAt_comm h)

lemma Sound.mem_nodeSets_iff (h : t.Sound) :
    ts ∈ t.nodeSets ↔ (∃ x ∈ t.tables, ts = .singleton x) ∨ ts ∈ t.subtrees := by
  obtain ⟨_ | n⟩ := t
  · simp [nodeSets, tables, subtrees, SortedSet.mem_ofList]
    rintro x hx
    cases hx
  · have hn : n.Sound := h n rfl
    simp only [nodeSets, tables, subtrees, Option.elim_some, SortedSet.mem_ofList, hn.mem_tables_iff]
    exact JoinNode.mem_nodeSets_iff

lemma Sound.updateAt_eq (h : t.Sound) :
    t.updateAt ts f =
      if ts ∈ t.nodeSets then .ok (t.mapAt ts f) else .error (.malformedPlan (.uncovered ts)) := by
  obtain ⟨_ | n⟩ := t
  · rfl
  · have hn : n.Sound := h n rfl
    rw [updateAt, Option.bind_some, hn.updateAt_eq]
    by_cases hts : ts ∈ n.nodeSets <;> simp [nodeSets, mapAt, hts]

lemma Sound.updateAt_ok_iff (h : t.Sound) : t.updateAt ts f = .ok t' ↔ ts ∈ t.nodeSets ∧ t.mapAt ts f = t' := by
  rw [h.updateAt_eq]
  by_cases hts : ts ∈ t.nodeSets <;> simp [hts]

lemma Sound.existsUnique_path (h : t.Sound) (hts : ts ∈ t.nodeSets) :
    ∃! path, (t.at? path).map JoinNode.tables = some ts := by
  obtain ⟨_ | n⟩ := t
  · cases hts
  · have hn : n.Sound := h n rfl
    obtain ⟨path, m, hm, rfl⟩ := JoinNode.exists_at?_of_mem_nodeSets hts
    refine ⟨path, Option.map_eq_some_iff.2 ⟨m, hm, rfl⟩, fun path' hpath' => ?_⟩
    obtain ⟨m', hm', heq⟩ := Option.map_eq_some_iff.1 hpath'
    rw [hn.eq_pathTo hm', heq, ← hn.eq_pathTo hm]

lemma Sound.updateAt_updateAt (h : t.Sound) :
    (t.updateAt ts f >>= fun t => t.updateAt ts' g) =
      if ts ∈ t.nodeSets then
        if ts' ∈ t.nodeSets then .ok ((t.mapAt ts f).mapAt ts' g) else .error (.malformedPlan (.uncovered ts'))
      else .error (.malformedPlan (.uncovered ts)) := by
  by_cases hts : ts ∈ t.nodeSets
  · have hfirst : t.updateAt ts f = .ok (t.mapAt ts f) := h.updateAt_ok_iff.2 ⟨hts, rfl⟩
    have hsound := sound_updateAt h hfirst
    rw [hfirst, if_pos hts]
    exact hsound.updateAt_eq.trans (by rw [nodeSets_mapAt])
  · rw [h.updateAt_eq, if_neg hts, if_neg hts]
    rfl

lemma Sound.updateAt_same (h : t.Sound) (hfg : ∀ i, g (f i) = g i) :
    (t.updateAt ts f >>= fun t => t.updateAt ts g) = t.updateAt ts g := by
  have hcomp : g ∘ f = g := funext hfg
  rw [h.updateAt_updateAt, h.updateAt_eq, mapAt_mapAt, hcomp]
  by_cases hts : ts ∈ t.nodeSets <;> simp [hts]

lemma Sound.updateAt_comm (h : t.Sound) (hne : ts ≠ ts') :
    (t.updateAt ts f >>= fun t => t.updateAt ts' g) = .ok t' ↔
      (t.updateAt ts' g >>= fun t => t.updateAt ts f) = .ok t' := by
  rw [h.updateAt_updateAt, h.updateAt_updateAt, mapAt_comm hne]
  by_cases hts : ts ∈ t.nodeSets <;> by_cases hts' : ts' ∈ t.nodeSets <;> simp [hts, hts']

/-- A table set names a node of a tree if it is that of one of its tables or of one of its joins. A bound or an operator
can be set at such a set only, and then changes this field of the one node with this set, and nothing else. So changes
at different sets can be made in either order, and of two changes of a field at one set the later one counts. -/
theorem change_hits_named_node (h : t.Built) (ts : TableSet) :
    (∀ c, (∃ t', t.change ts c = .ok t') ↔ (∃ x ∈ t.tables, ts = .singleton x) ∨ ts ∈ t.subtrees) ∧
      (∀ c t', t.change ts c = .ok t' →
        t' = t.mapAt ts c.apply ∧ ∃! path, (t.at? path).map JoinNode.tables = some ts) ∧
      (∀ ts' c c' t', ts ≠ ts' →
        ((t.change ts c >>= fun t => t.change ts' c') = .ok t' ↔
          (t.change ts' c' >>= fun t => t.change ts c) = .ok t')) ∧
      (∀ b b', (t.withBound ts b >>= fun t => t.withBound ts b') = t.withBound ts b') ∧
      ∀ op op', (t.withOperator ts op >>= fun t => t.withOperator ts op') = t.withOperator ts op' := by
  have hsound := h.sound
  simp only [change_eq]
  refine ⟨fun c => ?_, fun c t' hc => ?_, fun ts' c c' t' hne => hsound.updateAt_comm hne,
    fun b b' => hsound.updateAt_same fun i => rfl, fun op op' => hsound.updateAt_same fun i => rfl⟩
  · rw [← hsound.mem_nodeSets_iff]
    simp only [hsound.updateAt_ok_iff, exists_and_left, exists_eq', and_true]
  · obtain ⟨hts, rfl⟩ := hsound.updateAt_ok_iff.1 hc
    exact ⟨rfl, hsound.existsUnique_path hts⟩

theorem change_hits_named_node_bushy :
    let r := TableRef.mk "r" none none
    let s := TableRef.mk "s" none none
    let u := TableRef.mk "u" none none
    let v := TableRef.mk "v" none none
    let node (x y : TableRef) (i j : NodeInfo) : JoinNode := .join (.base x i) (.ofTable y) j (.ofList [x, y])
    let tree (atR atUV : NodeInfo) : JoinTree :=
      ⟨some (.join (node r s atR {}) (node u v {} atUV) {} (.ofList [r, s, u, v]))⟩
    let t := tree {} {}
    let bounded : NodeInfo := { upperBound := some 5 }
    let scanned : NodeInfo := { operator := some (.scan .index) }
    t.Built ∧ t.change (.ofList [u, v]) (.bound 5) = .ok (tree {} bounded) ∧
      (∃! path, (t.at? path).map JoinNode.tables = some (.ofList [u, v])) ∧
      (t.change (.singleton r) (.operator (.scan .index)) >>= fun t => t.change (.ofList [u, v]) (.bound 5)) =
        .ok (tree scanned bounded) ∧
      (¬∃ t', t.change ∅ (.bound 5) = .ok t') ∧ ¬∃ t', t.change (.ofList [r, u]) (.bound 5) = .ok t' := by
  intro r s u v node tree t bounded scanned
  have hbuilt : ∀ x y, joining (.ofTable x) (.ofTable y) = .ok ⟨some (node x y {} {})⟩ → Built ⟨some (node x y {} {})⟩ :=
    fun x y h => .joining (.ofTable x) (.ofTable y) h
  have ht : t.Built := .joining (hbuilt r s (by decide +kernel)) (hbuilt u v (by decide +kernel)) (by decide +kernel)
  have hchange : t.change (.ofList [u, v]) (.bound 5) = .ok (tree {} bounded) := by decide +kernel
  obtain ⟨-, hnode, hcomm, -, -⟩ := change_hits_named_node ht (.ofList [u, v])
  obtain ⟨hempty, -⟩ := change_hits_named_node ht ∅
  obtain ⟨hacross, -⟩ := change_hits_named_node ht (.ofList [r, u])
  refine ⟨ht, hchange, (hnode _ _ hchange).2, (hcomm _ _ _ _ (by decide +kernel)).1 (by decide +kernel), ?_, ?_⟩
  · rw [hempty]
    decide +kernel
  · rw [hacross]
    decide +kernel

end JoinTree

end OptimizerHints
