import OptimizerHints.Proofs.PlanDocument.Elements

namespace OptimizerHints

open Outcome

lemma Operator.asScan?_eq_some_iff {op : Operator} {s : ScanOperator} : op.asScan? = some s ↔ op = .scan s := by
  cases op <;> simp [asScan?]

lemma Operator.asJoin?_eq_some_iff {op : Operator} {j : JoinOperator} : op.asJoin? = some j ↔ op = .join j := by
  cases op <;> simp [asJoin?]

namespace PlanDocument

variable {known : Names} {a a' : Assignment} {d : PlanDocument} {p : DeclaredPlan} {t : TableRef} {ts : TableSet}

def tableSet (known : Names) (e : JoinEntry) : Except PlanError TableSet := (resolveAll known e.tables).map .ofList

def innerSet (known : Names) (e : JoinEntry) : Except PlanError (Option TableSet) :=
  match e.inner with
  | some names => (resolveAll known names).map fun ts => some (.ofList ts)
  | none => .ok none

lemma addScan_ok {e : ScanEntry} (h : addScan known a e = .ok a') :
    ∃ op t, Operator.parse e.operator = .ok (.scan op) ∧ resolve known e.table = .ok t ∧ a' = a.setScan ⟨op, t⟩ := by
  obtain ⟨op, hop, h⟩ := then_ok_iff.1 h
  split at h
  · next s hs =>
    obtain rfl := Operator.asScan?_eq_some_iff.1 hs
    obtain ⟨t, ht, h⟩ := then_ok_iff.1 h
    exact ⟨s, t, hop, ht, (done_ok_iff.1 h).symm⟩
  · cases h

lemma joinChoice_ok {op : JoinOperator} {e : JoinEntry} {c : JoinChoice} (h : joinChoice known op e = .ok c) :
    c.operator = op ∧ tableSet known e = .ok c.tables ∧ innerSet known e = .ok c.inner := by
  obtain ⟨ts, hts, h⟩ := then_ok_iff.1 h
  obtain ⟨c', hc', h⟩ := then_ok_iff.1 h
  have hbare : c' = ⟨op, .ofList ts, none⟩ := by
    rw [JoinChoice.ofTables] at hc'
    split at hc'
    · cases hc'
    · exact (Except.ok.inj hc').symm
  have hset : tableSet known e = .ok c'.tables := mapped_ok_iff.2 ⟨ts, hts, congrArg JoinChoice.tables hbare.symm⟩
  split at h
  · next names hnames =>
    obtain ⟨is, his, h⟩ := then_ok_iff.1 h
    obtain ⟨-, h⟩ := both_ok_iff.1 h
    obtain rfl := done_ok_iff.1 h
    refine ⟨congrArg JoinChoice.operator hbare, hset, ?_⟩
    rw [innerSet, hnames]
    exact mapped_ok_iff.2 ⟨is, his, rfl⟩
  · next hnone =>
    obtain rfl := done_ok_iff.1 h
    refine ⟨congrArg JoinChoice.operator hbare, hset, ?_⟩
    rw [innerSet, hnone, hbare]

lemma addJoin_ok {e : JoinEntry} (h : addJoin known a e = .ok a') :
    ∃ c : JoinChoice, Operator.parse e.operator = .ok (.join c.operator) ∧ tableSet known e = .ok c.tables ∧
      innerSet known e = .ok c.inner ∧ a' = a.withJoin c := by
  obtain ⟨op, hop, h⟩ := then_ok_iff.1 h
  split at h
  · next j hj =>
    obtain rfl := Operator.asJoin?_eq_some_iff.1 hj
    obtain ⟨c, hc, hnoted⟩ := then_ok_iff.1 h
    obtain ⟨rfl, hset, hinner⟩ := joinChoice_ok hc
    exact ⟨c, hop, hset, hinner, (Assignment.setJoin_ok_iff.1 hnoted).2.symm⟩
  · cases h

lemma addSetting_ok {e : String × String} (h : addSetting a e = .ok a') : a'.scans = a.scans ∧ a'.joins = a.joins := by
  obtain ⟨op, -, h⟩ := then_ok_iff.1 h
  split at h
  · obtain rfl := done_ok_iff.1 h
    exact ⟨rfl, rfl⟩
  · cases h

section Sections

variable {scans : List ScanEntry} {joins : List JoinEntry} {settings : List (String × String)}

lemma joins_foldlM_addScan (h : scans.foldlM (addScan known) a = .ok a') : a'.joins = a.joins := by
  refine folded_of_step (P := fun b => b.joins = a.joins) ?_ h rfl
  intro b e b' _ hstep hb
  obtain ⟨op, t, -, -, rfl⟩ := addScan_ok hstep
  exact hb

lemma scans_foldlM_addJoin (h : joins.foldlM (addJoin known) a = .ok a') : a'.scans = a.scans := by
  refine folded_of_step (P := fun b => b.scans = a.scans) ?_ h rfl
  intro b e b' _ hstep hb
  obtain ⟨c, -, -, -, rfl⟩ := addJoin_ok hstep
  exact hb

lemma rest_foldlM_addSetting (h : settings.foldlM addSetting a = .ok a') :
    a'.scans = a.scans ∧ a'.joins = a.joins := by
  refine folded_of_step (P := fun b => b.scans = a.scans ∧ b.joins = a.joins) ?_ h ⟨rfl, rfl⟩
  intro b e b' _ hstep ⟨hscans, hjoins⟩
  obtain ⟨hscans', hjoins'⟩ := addSetting_ok hstep
  exact ⟨hscans'.trans hscans, hjoins'.trans hjoins⟩

lemma scanFor?_foldlM_addScan (h : scans.foldlM (addScan known) a = .ok a')
    (hother : ∀ e ∈ scans, resolve known e.table ≠ .ok t) : a'.scanFor? t = a.scanFor? t := by
  refine folded_of_step (P := fun b => b.scanFor? t = a.scanFor? t) ?_ h rfl
  intro b e b' he hstep hb
  obtain ⟨op, t', -, ht', rfl⟩ := addScan_ok hstep
  have hne : t ≠ t' := fun heq => hother e he (heq ▸ ht')
  exact (SortedMap.get?_insert_of_ne _ hne _).trans hb

lemma joinFor?_foldlM_addJoin (h : joins.foldlM (addJoin known) a = .ok a')
    (hother : ∀ e ∈ joins, tableSet known e ≠ .ok ts) : a'.joinFor? ts = a.joinFor? ts := by
  refine folded_of_step (P := fun b => b.joinFor? ts = a.joinFor? ts) ?_ h rfl
  intro b e b' he hstep hb
  obtain ⟨c, -, hset, -, rfl⟩ := addJoin_ok hstep
  have hne : ts ≠ c.tables := fun heq => hother e he (heq ▸ hset)
  exact (Assignment.joinFor?_withJoin_of_ne b hne).trans hb

end Sections

lemma scanFor?_eq {a₁ a₂ : Assignment} (h₂ : d.joins.foldlM (addJoin known) a₁ = .ok a₂)
    (h₃ : d.settings.entries.foldlM addSetting a₂ = .ok p.operators) (t : TableRef) :
    p.operators.scanFor? t = a₁.scanFor? t :=
  congrArg (·.get? t) ((rest_foldlM_addSetting h₃).1.trans (scans_foldlM_addJoin h₂))

lemma joinFor?_eq (h₃ : d.settings.entries.foldlM addSetting a = .ok p.operators) (ts : TableSet) :
    p.operators.joinFor? ts = a.joinFor? ts :=
  congrArg (·.get? ts) (rest_foldlM_addSetting h₃).2

lemma orderTree_sound {tree : JoinTree} (h : d.orderTree = .ok tree) : tree.Sound := by
  rw [orderTree] at h
  split at h
  · exact (JoinSpec.built_toTree h).sound
  · obtain rfl := Except.ok.inj h
    exact JoinTree.sound_empty

section Order

variable {n : JoinNode} {i : NodeInfo}

lemma scanFor?_of_mem_nodes (h : d.declare = .ok p) (htree : p.tree = ⟨some n⟩) (hmem : .base t i ∈ n.nodes)
    {op : ScanOperator} (hop : i.operator = some (.scan op))
    (hother : ∀ e ∈ d.scans, resolve (namesOf p.tree) e.table ≠ .ok t) : p.operators.scanFor? t = some ⟨op, t⟩ := by
  obtain ⟨hd, a₀, a₁, a₂, h₀, h₁, h₂, h₃⟩ := declare_stages h
  have hentry : (t, ScanChoice.mk op t) ∈ p.tree.scanEntries := by
    rw [htree]
    have hchoice : (JoinNode.base t i).scanChoice? = some ⟨op, t⟩ := by
      rw [JoinNode.scanChoice?, hop]
      rfl
    exact List.mem_map_of_mem (List.mem_filterMap.2 ⟨_, JoinNode.base_mem_bases hmem, hchoice⟩)
  have hstored : a₀.scanFor? t = some ⟨op, t⟩ :=
    SortedMap.mem_entries_iff.1 (((orderTree_sound hd).scanEntries_perm h₀).mem_iff.2 hentry)
  rw [scanFor?_eq h₂ h₃, scanFor?_foldlM_addScan h₁ hother, hstored]

lemma joinFor?_of_mem_nodes (h : d.declare = .ok p) (htree : p.tree = ⟨some n⟩) {l r : JoinNode}
    (hmem : .join l r i ts ∈ n.nodes) {op : JoinOperator} (hop : i.operator = some (.join op)) (hinner : i.inner = none)
    (hother : ∀ e ∈ d.joins, tableSet (namesOf p.tree) e ≠ .ok ts) :
    p.operators.joinFor? ts = some ⟨op, ts, none⟩ := by
  obtain ⟨hd, a₀, a₁, a₂, h₀, h₁, h₂, h₃⟩ := declare_stages h
  have hjoin : .join l r i ts ∈ p.tree.joins := htree ▸ JoinNode.join_mem_joins hmem
  have hchoice : (JoinNode.join l r i ts).choice? = some ⟨op, ts, none⟩ :=
    JoinNode.choice?_join_eq_some_iff.2 ⟨op, hop, by rw [hinner]; rfl⟩
  have hstored : a₀.joinFor? ts = some ⟨op, ts, none⟩ := ((orderTree_sound hd).joinFor?_tables h₀ hjoin).trans hchoice
  have hfirst : a₁.joinFor? ts = a₀.joinFor? ts := congrArg (·.get? ts) (joins_foldlM_addScan h₁)
  rw [joinFor?_eq h₃, joinFor?_foldlM_addJoin h₂ hother, hfirst, hstored]

end Order

structure Keeps (d : PlanDocument) (p : DeclaredPlan) : Prop where
  scans : ∀ before e after, d.scans = before ++ e :: after →
    ∃ op t, Operator.parse e.operator = .ok (.scan op) ∧ resolve (namesOf p.tree) e.table = .ok t ∧
      ((∀ e' ∈ after, resolve (namesOf p.tree) e'.table ≠ .ok t) → p.operators.scanFor? t = some ⟨op, t⟩)
  joins : ∀ before e after, d.joins = before ++ e :: after →
    ∃ op ts inner, Operator.parse e.operator = .ok (.join op) ∧ tableSet (namesOf p.tree) e = .ok ts ∧
      innerSet (namesOf p.tree) e = .ok inner ∧
      ((∀ e' ∈ after, tableSet (namesOf p.tree) e' ≠ .ok ts) → p.operators.joinFor? ts = some ⟨op, ts, inner⟩)
  elements : ∀ spec el word, d.joinOrder = some spec → el ∈ spec.elements → el.operator? = some word →
    ∃ op, Operator.parse word = .ok op ∧
      match el, op with
      | .table name _, .scan op => ∃ t, TableRef.parse name = .ok t ∧
        ((∀ e ∈ d.scans, resolve (namesOf p.tree) e.table ≠ .ok t) → p.operators.scanFor? t = some ⟨op, t⟩)
      | .join inputs details, .join op => ∃ t, (JoinSpec.join inputs details).toTree = .ok t ∧
        ((∀ e ∈ d.joins, tableSet (namesOf p.tree) e ≠ .ok t.tables) →
          p.operators.joinFor? t.tables = some ⟨op, t.tables, none⟩)
      | _, _ => True

lemma keeps (h : d.declare = .ok p) : d.Keeps p where
  scans before e after hsplit := by
    obtain ⟨-, a₀, a₁, a₂, -, h₁, h₂, h₃⟩ := declare_stages h
    rw [hsplit] at h₁
    obtain ⟨b, b', -, hb', h₁⟩ := folded_around h₁
    obtain ⟨op, t, hop, ht, rfl⟩ := addScan_ok hb'
    refine ⟨op, t, hop, ht, fun hlater => ?_⟩
    rw [scanFor?_eq h₂ h₃, scanFor?_foldlM_addScan h₁ hlater]
    exact SortedMap.get?_insert_self ..
  joins before e after hsplit := by
    obtain ⟨-, a₀, a₁, a₂, -, h₁, h₂, h₃⟩ := declare_stages h
    rw [hsplit] at h₂
    obtain ⟨b, b', -, hb', h₂⟩ := folded_around h₂
    obtain ⟨c, hop, hset, hinner, rfl⟩ := addJoin_ok hb'
    refine ⟨c.operator, c.tables, c.inner, hop, hset, hinner, fun hlater => ?_⟩
    rw [joinFor?_eq h₃, joinFor?_foldlM_addJoin h₂ hlater]
    exact Assignment.joinFor?_withJoin_self b c
  elements spec el word hspec hel hword := by
    obtain ⟨htree, -⟩ := declare_ok h hspec
    rw [JoinSpec.toTree_eq] at htree
    obtain ⟨n, hn, hroot⟩ := mapped_ok_iff.1 htree
    obtain ⟨m, hm, hmem⟩ := JoinSpec.exists_mem_nodes hn hel
    cases el with
    | table name details =>
      obtain ⟨t, i, ht, hi, rfl⟩ := JoinSpec.toNode_table_ok_iff.1 hm
      obtain ⟨op, hparsed, hop, -⟩ := JoinSpec.operator_of_noted hi hword
      refine ⟨op, hparsed, ?_⟩
      cases op with
      | scan op => exact ⟨t, ht, scanFor?_of_mem_nodes h hroot.symm hmem hop⟩
      | join op => trivial
    | join inputs details =>
      obtain ⟨outer, inner, l, r, i, rfl, -, -, -, hi, rfl⟩ := JoinSpec.toNode_join_ok_iff.1 hm
      obtain ⟨op, hparsed, hop, hinner⟩ := JoinSpec.operator_of_noted hi hword
      refine ⟨op, hparsed, ?_⟩
      cases op with
      | scan op => trivial
      | join op =>
        have helement := (JoinSpec.toTree_eq _).trans (mapped_ok_iff.2 ⟨_, hm, rfl⟩)
        exact ⟨_, helement, joinFor?_of_mem_nodes h hroot.symm hmem hop hinner⟩

def pruned (d : PlanDocument) : PlanDocument := { d with joinOrder := d.joinOrder.map JoinSpec.pruned }

end PlanDocument

def DeclaredPlan.pruned (p : DeclaredPlan) : DeclaredPlan := { p with tree := p.tree.pruned }

namespace PlanDocument

theorem declare_pruned (d : PlanDocument) : d.pruned.declare = d.declare.map DeclaredPlan.pruned := by
  unfold declare
  extract_lets kept all
  have hrest (t : JoinTree) : kept t.pruned = (all t).map DeclaredPlan.pruned := by
    have hnames : namesOf t.pruned = namesOf t := by rw [namesOf, namesOf, JoinTree.tables_pruned]
    simp only [kept, all, hnames, JoinTree.operators_pruned, mapped_then]
    rfl
  obtain ⟨_ | spec, scans, joins, settings, parameters⟩ := d
  · exact hrest .empty
  · change spec.pruned.toTree >>= kept = (spec.toTree >>= all).map _
    rw [JoinSpec.toTree_pruned, mapped_then]
    cases spec.toTree with
    | error e => rfl
    | ok t => exact hrest t

/-- A document stores each operator that it names for a table or a join of the right kind, and in its sections there is
no room for others. At an element of the other kind an operator may stand, but the plan is the same without it. -/
theorem declare_passes_over_misplaced (d : PlanDocument) :
    d.pruned.declare = d.declare.map DeclaredPlan.pruned ∧
    ((∃ e ∈ d.scans, ∃ op, Operator.parse e.operator = .ok (.join op)) ∨
      (∃ e ∈ d.joins, ∃ op, Operator.parse e.operator = .ok (.scan op)) → ∃ error, d.declare = .error error) ∧
    ∀ p, d.declare = .ok p → d.Keeps p := by
  refine ⟨declare_pruned d, fun hwrong => error_iff.2 ?_, fun p h => keeps h⟩
  rintro ⟨p, h⟩
  rcases hwrong with ⟨e, he, op, hop⟩ | ⟨e, he, op, hop⟩
  · obtain ⟨before, after, hsplit⟩ := List.append_of_mem he
    obtain ⟨op', t, hop', -⟩ := (keeps h).scans before e after hsplit
    cases hop.symm.trans hop'
  · obtain ⟨before, after, hsplit⟩ := List.append_of_mem he
    obtain ⟨op', ts, inner, hop', -⟩ := (keeps h).joins before e after hsplit
    cases hop.symm.trans hop'

theorem declare_drops_misplaced :
    let details (operator : String) : Option JoinSpecDetails := some { operator := some operator }
    let onTable : PlanDocument := { joinOrder := some (.table "r" (details "HashJoin")) }
    let onJoin : PlanDocument := { joinOrder := some (.join [.table "r" none, .table "s" none] (details "SeqScan")) }
    onTable.declare.map (fun p => p.operators) = .ok .empty ∧
      onJoin.declare.map (fun p => p.operators) = .ok .empty := by
  decide +kernel

theorem declare_passes_over_misplaced_among_others :
    let details (operator : String) : Option JoinSpecDetails := some { operator := some operator }
    let document (atX : Option JoinSpecDetails) : PlanDocument := {
      joinOrder := some (.join [.table "r" (details "IndexScan"),
        .join [.table "s" none, .table "u x" atX] (details "MergeJoin")] none)
      scans := [⟨"s", "SeqScan"⟩, ⟨"s", "BitmapScan"⟩]
      joins := [⟨["x", "s"], "HashJoin", some ["x"]⟩] }
    let r : TableRef := ⟨"r", none, none⟩
    let s : TableRef := ⟨"s", none, none⟩
    let x : TableRef := ⟨"u", some "x", none⟩
    let operators : Assignment := {
      scans := .ofList [(r, ⟨.index, r⟩), (s, ⟨.bitmap, s⟩)]
      joins := .ofList [(.ofList [s, x], ⟨.hash, .ofList [s, x], some (.singleton x)⟩)] }
    ∃ p, (document (details "HashJoin")).declare = .ok p ∧ (document (details "HashJoin")).Keeps p ∧
      p.operators = operators ∧ ∃ p', (document (some {})).declare = .ok p' ∧ p'.operators = operators := by
  intro details document r s x operators
  have hfit : (document (details "HashJoin")).declare.map (fun p => p.operators) = .ok operators := by decide +kernel
  obtain ⟨p, hp, hoperators⟩ := mapped_ok_iff.1 hfit
  obtain ⟨hsame, -, hkeeps⟩ := declare_passes_over_misplaced (document (details "HashJoin"))
  have hpruned : (document (details "HashJoin")).pruned = document (some {}) := by
    have hr : JoinSpecDetails.pruned Operator.isScan ⟨none, some "IndexScan"⟩ = ⟨none, some "IndexScan"⟩ := by
      decide +kernel
    have hx : JoinSpecDetails.pruned Operator.isScan ⟨none, some "HashJoin"⟩ = {} := by decide +kernel
    have hsx : JoinSpecDetails.pruned Operator.isJoin ⟨none, some "MergeJoin"⟩ = ⟨none, some "MergeJoin"⟩ := by
      decide +kernel
    simp only [document, details, pruned, JoinSpec.pruned, JoinSpec.allPruned, Option.map_some, Option.map_none, hr,
      hx, hsx]
  rw [hpruned, hp] at hsame
  exact ⟨p, hp, hkeeps p hp, hoperators, p.pruned, hsame, hoperators⟩

end PlanDocument

end OptimizerHints
