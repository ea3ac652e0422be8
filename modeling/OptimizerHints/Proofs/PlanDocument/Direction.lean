import OptimizerHints.PlanDocument
import OptimizerHints.Proofs.Hint.Compilation
import OptimizerHints.Proofs.Hint.Direction
import OptimizerHints.Proofs.Table

/-! What becomes of the outer and inner inputs in a plan document that names them by their order only. -/

namespace OptimizerHints

open Outcome

lemma JoinSpecDetails.annotate_ok {d : JoinSpecDetails} {t t' : JoinTree} (h : d.annotate t = .ok t') :
    ∃ t₁, (d.bound = none ∧ t₁ = t ∨ ∃ b, d.bound = some b ∧ t.withBound t.tables b = .ok t₁) ∧
      (t' = t₁ ∨ ∃ op, t₁.withOperator t.tables op = .ok t') := by
  unfold annotate at h
  -- whether there is a bound or not, the operator is noted next
  extract_lets ts noted at h
  have hoperator : ∀ {t₁}, noted t₁ = .ok t' → t' = t₁ ∨ ∃ op, t₁.withOperator t.tables op = .ok t' := by
    intro t₁ h
    dsimp only [noted] at h
    split at h
    · obtain ⟨op, -, h⟩ := then_ok_iff.1 h
      exact .inr ⟨op, h⟩
    · exact .inl (Except.ok.inj h).symm
  split at h
  · next b hb =>
    obtain ⟨t₁, h₁, h⟩ := then_ok_iff.1 h
    exact ⟨t₁, .inr ⟨b, hb, h₁⟩, hoperator h⟩
  · next hb => exact ⟨t, .inl ⟨hb, rfl⟩, hoperator h⟩

namespace JoinSpec

mutual

def Unbounded : JoinSpec → Prop
  | table _ d => d.bind (·.bound) = none
  | join inputs d => d.bind (·.bound) = none ∧ AllUnbounded inputs

def AllUnbounded : List JoinSpec → Prop
  | [] => True
  | s :: ss => s.Unbounded ∧ AllUnbounded ss

end

def written? : JoinSpec → Option DirectedOrder
  | table name _ => (TableRef.parse? name).map .leaf
  | join [outer, inner] _ => do return .join (← outer.written?) (← inner.written?)
  | join _ _ => none

variable {spec : JoinSpec} {d : Option JoinSpecDetails} {n : JoinNode} {t : JoinTree}

lemma built_annotate {t' : JoinTree} (h : annotate d t = .ok t') (ht : t.Built) : t'.Built := by
  cases d with
  | none =>
    obtain rfl := Except.ok.inj h
    exact ht
  | some d =>
    obtain ⟨t₁, hbound, hoperator⟩ := JoinSpecDetails.annotate_ok h
    have ht₁ : t₁.Built := by
      obtain ⟨-, rfl⟩ | ⟨b, -, h₁⟩ := hbound
      · exact ht
      · exact .withBound ht h₁
    obtain rfl | ⟨op, h'⟩ := hoperator
    · exact ht₁
    · exact .withOperator ht₁ h'

theorem built_toTree (h : spec.toTree = .ok t) : t.Built := by
  fun_induction toTree spec generalizing t with
  | case1 name d =>
    obtain ⟨x, -, h⟩ := then_ok_iff.1 h
    exact built_annotate h (.ofTable x)
  | case2 outer inner d iho ihi =>
    obtain ⟨l, hl, h⟩ := then_ok_iff.1 h
    obtain ⟨r, hr, h⟩ := then_ok_iff.1 h
    obtain ⟨j, hj, h⟩ := then_ok_iff.1 h
    exact built_annotate h (.joining (iho hl) (ihi hr) hj)
  | case3 => cases h

lemma withOperator_root (n : JoinNode) (op : Operator) :
    JoinTree.withOperator ⟨some n⟩ n.tables op = .ok ⟨some (n.mapInfo fun i => { i with operator := some op })⟩ := by
  cases n <;> simp [JoinTree.withOperator, JoinTree.updateAt, JoinNode.updateAt]

lemma annotate_undirected (hd : d.bind (·.bound) = none) (hn : n.Undirected) (h : annotate d ⟨some n⟩ = .ok t) :
    ∃ n', t = ⟨some n'⟩ ∧ n'.Undirected ∧ n'.directed .right = n.directed .right := by
  cases d with
  | none =>
    obtain rfl := Except.ok.inj h
    exact ⟨n, rfl, hn, rfl⟩
  | some d =>
    have hnone : d.bound = none := hd
    obtain ⟨t₁, ⟨-, rfl⟩ | ⟨b, hb, -⟩, rfl | ⟨op, h'⟩⟩ := JoinSpecDetails.annotate_ok h
    · exact ⟨n, rfl, hn, rfl⟩
    · obtain rfl := Except.ok.inj ((withOperator_root n op).symm.trans h')
      cases n <;> exact ⟨_, rfl, hn, rfl⟩
    all_goals cases hnone.symm.trans hb

theorem toTree_undirected (h : spec.toTree = .ok t) (hspec : spec.Unbounded) :
    ∃ n, t = ⟨some n⟩ ∧ n.Undirected ∧ spec.written? = some (n.directed .right) := by
  fun_induction toTree spec generalizing t with
  | case1 name d =>
    obtain ⟨x, hx, h⟩ := then_ok_iff.1 h
    obtain ⟨n, rfl, hn, hdirected⟩ := annotate_undirected (n := .ofTable x) hspec rfl h
    refine ⟨n, rfl, hn, ?_⟩
    rw [written?, TableRef.parse_ok_iff.1 hx, hdirected]
    rfl
  | case2 outer inner d iho ihi =>
    obtain ⟨hd, ho, hi, -⟩ := hspec
    obtain ⟨_, hto, h⟩ := then_ok_iff.1 h
    obtain ⟨_, hti, h⟩ := then_ok_iff.1 h
    obtain ⟨_, hjoin, h⟩ := then_ok_iff.1 h
    obtain ⟨l, rfl, hl, hwl⟩ := iho hto ho
    obtain ⟨r, rfl, hr, hwr⟩ := ihi hti hi
    obtain ⟨j, hj, hjoin⟩ := then_ok_iff.1 hjoin
    obtain rfl := done_ok_iff.1 hjoin
    obtain ⟨-, rfl⟩ := JoinNode.joining_ok_iff.1 hj
    have hjoined : (JoinNode.join l r {} (l.tables ∪ r.tables)).Undirected := ⟨rfl, rfl, hl, hr⟩
    obtain ⟨n, rfl, hn, hdirected⟩ := annotate_undirected hd hjoined h
    refine ⟨n, rfl, hn, ?_⟩
    rw [written?, hwl, hwr, hdirected]
    rfl
  | case3 => cases h

end JoinSpec

lemma JoinTree.undirected_operators {n : JoinNode} {a : Assignment} (hn : n.Undirected)
    (ha : operators ⟨some n⟩ = .ok a) : a.Undirected := by
  intro ts c hc
  obtain ⟨j, hj, -, hchoice⟩ := exists_join_of_joinFor? ha hc
  have hj' := hn.of_mem_joins hj
  cases j with
  | base t i => cases hchoice
  | join l r i ts =>
    obtain ⟨op, -, rfl⟩ := JoinNode.choice?_join_eq_some_iff.1 hchoice
    obtain ⟨-, hi, -, -⟩ := hj'
    exact congrArg (Option.map _) hi

namespace PlanDocument

variable {known : Names} {a a' : Assignment} {d : PlanDocument} {p : DeclaredPlan} {spec : JoinSpec}

lemma undirected_addScan {e : ScanEntry} (h : addScan known a e = .ok a') (ha : a.Undirected) : a'.Undirected := by
  obtain ⟨op, -, h⟩ := then_ok_iff.1 h
  split at h
  · obtain ⟨t, -, h⟩ := then_ok_iff.1 h
    obtain rfl := done_ok_iff.1 h
    exact ha
  · cases h

lemma inner_joinChoice {e : JoinEntry} {op : JoinOperator} {c : JoinChoice} (he : e.inner = none)
    (h : joinChoice known op e = .ok c) : c.inner = none := by
  obtain ⟨ts, -, h⟩ := then_ok_iff.1 h
  obtain ⟨c', hc', h⟩ := then_ok_iff.1 h
  rw [he] at h
  obtain rfl := done_ok_iff.1 h
  rw [JoinChoice.ofTables] at hc'
  split at hc'
  · cases hc'
  · obtain rfl := Except.ok.inj hc'
    rfl

lemma undirected_addJoin {e : JoinEntry} (he : e.inner = none) (h : addJoin known a e = .ok a') (ha : a.Undirected) :
    a'.Undirected := by
  obtain ⟨op, -, h⟩ := then_ok_iff.1 h
  split at h
  · obtain ⟨c, hc, h⟩ := then_ok_iff.1 h
    obtain ⟨-, rfl⟩ := Assignment.setJoin_ok_iff.1 h
    have hinner := inner_joinChoice he hc
    intro ts c' hc'
    by_cases hts : ts = c.tables
    · subst hts
      rw [Assignment.joinFor?_withJoin_self] at hc'
      obtain rfl := Option.some.inj hc'
      exact hinner
    · rw [Assignment.joinFor?_withJoin_of_ne a hts] at hc'
      exact ha ts c' hc'
  · cases h

lemma undirected_addSetting {e : String × String} (h : addSetting a e = .ok a') (ha : a.Undirected) :
    a'.Undirected := by
  obtain ⟨op, -, h⟩ := then_ok_iff.1 h
  split at h
  · obtain rfl := done_ok_iff.1 h
    exact ha
  · cases h

def orderTree (d : PlanDocument) : Except PlanError JoinTree :=
  match d.joinOrder with
  | some spec => spec.toTree
  | none => .ok .empty

lemma declare_stages (h : d.declare = .ok p) :
    d.orderTree = .ok p.tree ∧ ∃ a₀ a₁ a₂, p.tree.operators = .ok a₀ ∧
      d.scans.foldlM (addScan (namesOf p.tree)) a₀ = .ok a₁ ∧ d.joins.foldlM (addJoin (namesOf p.tree)) a₁ = .ok a₂ ∧
      d.settings.entries.foldlM addSetting a₂ = .ok p.operators := by
  unfold declare at h
  extract_lets jp at h
  have htree : ∃ t, d.orderTree = .ok t ∧ jp t = .ok p := by
    cases hspec : d.joinOrder with
    | some spec =>
      rw [hspec] at h
      rw [orderTree, hspec]
      exact then_ok_iff.1 h
    | none =>
      rw [hspec] at h
      exact ⟨.empty, by rw [orderTree, hspec], h⟩
  obtain ⟨t, ht, h⟩ := htree
  dsimp only [jp] at h
  obtain ⟨a₀, h₀, h⟩ := then_ok_iff.1 h
  obtain ⟨a₁, h₁, h⟩ := then_ok_iff.1 h
  obtain ⟨a₂, h₂, h⟩ := then_ok_iff.1 h
  obtain ⟨a₃, h₃, h⟩ := then_ok_iff.1 h
  obtain ⟨p₁, -, h⟩ := then_ok_iff.1 h
  obtain ⟨p₂, -, h⟩ := then_ok_iff.1 h
  obtain ⟨p₃, -, h⟩ := then_ok_iff.1 h
  obtain rfl := done_ok_iff.1 h
  exact ⟨ht, a₀, a₁, a₂, h₀, h₁, h₂, h₃⟩

lemma declare_ok (h : d.declare = .ok p) (hspec : d.joinOrder = some spec) :
    spec.toTree = .ok p.tree ∧ ∃ a₀ a₁ a₂, p.tree.operators = .ok a₀ ∧
      d.scans.foldlM (addScan (namesOf p.tree)) a₀ = .ok a₁ ∧ d.joins.foldlM (addJoin (namesOf p.tree)) a₁ = .ok a₂ ∧
      d.settings.entries.foldlM addSetting a₂ = .ok p.operators := by
  have hstages := declare_stages h
  rwa [orderTree, hspec] at hstages

theorem undirected_operators (h : d.declare = .ok p) (hspec : d.joinOrder = some spec) (hbounds : spec.Unbounded)
    (hjoins : ∀ e ∈ d.joins, e.inner = none) :
    ∃ n, p.tree = ⟨some n⟩ ∧ n.Undirected ∧ p.operators.Undirected ∧ spec.written? = some (n.directed .right) := by
  obtain ⟨ht, a₀, a₁, a₂, h₀, h₁, h₂, h₃⟩ := declare_ok h hspec
  obtain ⟨n, hn, hundirected, hwritten⟩ := spec.toTree_undirected ht hbounds
  have ha₀ : a₀.Undirected := JoinTree.undirected_operators hundirected (hn ▸ h₀)
  have ha₁ : a₁.Undirected := folded_of_step (fun _ _ _ _ h ha => undirected_addScan h ha) h₁ ha₀
  have ha₂ : a₂.Undirected := folded_of_step (fun _ e _ he h ha => undirected_addJoin (hjoins e he) h ha) h₂ ha₁
  have ha₃ := folded_of_step (fun _ _ _ _ h ha => undirected_addSetting h ha) h₃ ha₂
  exact ⟨n, hn, hundirected, ha₃, hwritten⟩

/-- Where a document names outer and inner inputs by their order only, every join gets them the other way round: with
no bound on either side, the left input counts as the smaller one. -/
theorem unbounded_order_is_reversed (h : d.declare = .ok p) (hspec : d.joinOrder = some spec)
    (hbounds : spec.Unbounded) (htwo : 2 ≤ p.tree.tables.size) (hjoins : ∀ e ∈ d.joins, e.inner = none) :
    ∃ o, spec.written? = some o ∧ o.swapped ≠ o ∧
      DirectedOrder.ofTree p.tree (some p.operators) = .ok (some o.swapped) ∧
      Hint.orderParts .postgres p.tree (some p.operators) =
        .ok ⟨[], ["Leading(" ++ o.swapped.nested " " ++ ")"]⟩ := by
  obtain ⟨n, hn, hundirected, ha, hwritten⟩ := undirected_operators h hspec hbounds hjoins
  obtain ⟨ht, -⟩ := declare_ok h hspec
  have hsound : n.Sound := (JoinSpec.built_toTree ht).sound n (congrArg JoinTree.root hn)
  rw [hn] at htwo
  have horder : DirectedOrder.ofTree p.tree (some p.operators) = .ok (some (n.directed .right).swapped) := by
    rw [hn, DirectedOrder.ofTree_of_two_le htwo, DirectedOrder.ofNode_of_undirected ha hundirected, n.directed_left]
    rfl
  have hparts : Hint.orderParts .postgres p.tree (some p.operators) =
      .ok ⟨[], ["Leading(" ++ (n.directed .right).swapped.nested " " ++ ")"]⟩ :=
    Hint.orderParts_ok_iff.2 ⟨_, horder, rfl⟩
  exact ⟨n.directed .right, hwritten, n.directed_left ▸ hsound.directed_left_ne htwo, horder, hparts⟩

theorem unbounded_order_is_reversed_nested :
    let details (operator : String) : Option JoinSpecDetails := some { operator := some operator }
    let below : JoinSpec := .join [.table "r" (details "IndexScan"), .table "s" none] (details "HashJoin")
    let spec : JoinSpec := .join [below, .table "u x" none] none
    let d : PlanDocument := { joinOrder := some spec, joins := [⟨["r", "x", "s"], "MergeJoin", none⟩] }
    let r : DirectedOrder := .leaf ⟨"r", none, none⟩
    let s : DirectedOrder := .leaf ⟨"s", none, none⟩
    let x : DirectedOrder := .leaf ⟨"u", some "x", none⟩
    ∃ p, d.declare = .ok p ∧ spec.written? = some (.join (.join r s) x) ∧
      DirectedOrder.ofTree p.tree (some p.operators) = .ok (some (.join x (.join s r))) ∧
      Hint.orderParts .postgres p.tree (some p.operators) = .ok ⟨[], ["Leading((x (s r)))"]⟩ := by
  intro details below spec d r s x
  have hfit : d.declare.map (fun p => p.tree.tables.size) = .ok 3 := by decide +kernel
  obtain ⟨p, hp, hthree⟩ := mapped_ok_iff.1 hfit
  have hwritten : spec.written? = some (.join (.join r s) x) := by decide +kernel
  have hbounds : spec.Unbounded := ⟨rfl, ⟨rfl, rfl, rfl, trivial⟩, rfl, trivial⟩
  have hjoins : ∀ e ∈ d.joins, e.inner = none := List.forall_mem_singleton.2 rfl
  have htwo : 2 ≤ p.tree.tables.size := by omega
  obtain ⟨o, ho, -, horder, hparts⟩ := unbounded_order_is_reversed hp rfl hbounds htwo hjoins
  obtain rfl := Option.some.inj (ho.symm.trans hwritten)
  exact ⟨p, hp, hwritten, horder, hparts⟩

end PlanDocument

end OptimizerHints
