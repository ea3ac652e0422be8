import OptimizerHints.Proofs.Hint.Agreement
import OptimizerHints.Proofs.Synopsis.Consulted
import OptimizerHints.Selection

/-! Without a join order, what is selected depends on the shape of the plan that the database estimates, and on nothing
else of it. -/

namespace OptimizerHints

namespace JoinNode

inductive SameShape : JoinNode → JoinNode → Prop
  | base (t : TableRef) (i i' : NodeInfo) : SameShape (base t i) (base t i')
  | join {l l' r r' : JoinNode} (i i' : NodeInfo) (ts ts' : TableSet) : SameShape l l' → SameShape r r' →
    SameShape (join l r i ts) (join l' r' i' ts')

variable {n n' l l' : JoinNode}

lemma SameShape.leaves_eq (h : n.SameShape n') : n.leaves = n'.leaves := by
  induction h with
  | base t i i' => rfl
  | join i i' ts ts' _ _ ihl ihr => rw [leaves, leaves, ihl, ihr]

lemma SameShape.tables_eq (h : n.SameShape n') (hn : n.Summed) (hn' : n'.Summed) : n.tables = n'.tables := by
  rw [hn.tables_eq, hn'.tables_eq, h.leaves_eq]

lemma SameShape.visitOver_eq (h : l.SameShape l') (htables : l.tables = l'.tables) (ts : TableSet)
    (inside : List (Visit TableSet)) : l.visitOver ts inside = l'.visitOver ts inside := by
  cases h with
  | base => rfl
  | join => exact congrArg (Visit.overJoin · ts inside) htables

theorem SameShape.visits_eq (h : n.SameShape n') (hn : n.Summed) (hn' : n'.Summed) : n.visits = n'.visits := by
  induction h with
  | base => rfl
  | @join l l' r r' i i' ts ts' hl hr ihl ihr =>
    have htables := (SameShape.join i i' ts ts' hl hr).tables_eq hn hn'
    obtain ⟨hnl, hnr, -⟩ := hn
    obtain ⟨hnl', hnr', -⟩ := hn'
    rw [tables, tables] at htables
    rw [visits, visits, ihr hnr hnr', ihl hnl hnl', htables, hl.visitOver_eq (hl.tables_eq hnl hnl')]

lemma addOperators_logical (n : JoinNode) (a : Assignment) : n.logical.addOperators a = .ok a := by
  induction n generalizing a with
  | base t i => rfl
  | join l r i ts ihl ihr => exact Outcome.then_ok_iff.2 ⟨a, rfl, Outcome.then_ok_iff.2 ⟨a, ihl a, ihr a⟩⟩

end JoinNode

namespace JoinTree

variable {t t' : JoinTree}

def SameShape (t t' : JoinTree) : Prop := Option.Rel JoinNode.SameShape t.root t'.root

lemma SameShape.visits_eq (h : t.SameShape t') (ht : t.Sound) (ht' : t'.Sound) : t.visits = t'.visits := by
  obtain ⟨n⟩ := t
  obtain ⟨n'⟩ := t'
  cases h with
  | none => rfl
  | some h => exact h.visits_eq (ht _ rfl).summed (ht' _ rfl).summed

lemma operators_logical (t : JoinTree) : t.logical.operators = .ok .empty := by
  obtain ⟨_ | n⟩ := t
  · rfl
  · exact n.addOperators_logical .empty

end JoinTree

namespace Synopsis

lemma recommend_logical_congr (s : Synopsis) (q : Query) {t t' : JoinTree} (h : t.visits = t'.visits) :
    s.recommend q t.logical = s.recommend q t'.logical := by
  simp only [recommend, t.operators_logical, t'.operators_logical, visits_logical, h]

lemma exists_recommend_logical (s : Synopsis) (q : Query) {t : JoinTree} (h : t.Built) :
    ∃ a, s.recommend q t.logical = .ok a ∧ a.scans = ∅ ∧ a.settings = ∅ ∧ a.Undirected := by
  obtain ⟨es, hes⟩ := s.exists_followAll h.logical.sound q t.operators_logical Assignment.valid_empty
  obtain ⟨hscans, hsettings⟩ := s.root.scans_followAll es .empty
  refine ⟨_, hes, hscans, hsettings, fun ts c hc => ?_⟩
  have hnamed := Node.named?_followAll s.root es .empty ts
  rw [DirectedOrder.named?, Option.bind_some, hc] at hnamed
  exact hnamed

end Synopsis

namespace Selection

lemma select_native {s : Selection} {q : Query} {order : Option JoinTree} {p : Plan} {t : JoinTree}
    (horder : order = none ∨ order = some .empty) (hp : (s.backend.ask (.estimate q)).1 = .ok p)
    (ht : JoinTree.ofPlan p = .ok t) :
    (s.select q order).1 = (s.synopsis.recommend q t.logical).mapError .plan := by
  have hnone : (order.filter fun t => !t.isEmpty) = none := by
    rcases horder with rfl | rfl <;> rfl
  rcases hask : s.backend.ask (.estimate q) with ⟨reply, backend⟩
  rw [hask] at hp
  obtain rfl : reply = .ok p := hp
  rw [select, hnone]
  dsimp only
  rw [withPlan, hask]
  dsimp only
  rw [ht]
  rfl

/-- Two plans that load as trees of one shape lead to one selection, whether no join order is given or an empty one:
what the synopsis recommends for the logical form of the trees. It consists of undirected joins. -/
theorem shape_decides_selection (s : Selection) (b : Backend) (q : Query) {p p' : Plan} {t t' : JoinTree}
    (hp : (s.backend.ask (.estimate q)).1 = .ok p) (hp' : (b.ask (.estimate q)).1 = .ok p')
    (ht : JoinTree.ofPlan p = .ok t) (ht' : JoinTree.ofPlan p' = .ok t') (hshape : t.SameShape t') :
    ∃ a, s.synopsis.recommend q t.logical = .ok a ∧ s.synopsis.recommend q t'.logical = .ok a ∧
      (∀ order, order = none ∨ order = some .empty →
        (s.select q order).1 = .ok a ∧ ({ s with backend := b }.select q order).1 = .ok a) ∧
      a.scans = ∅ ∧ a.settings = ∅ ∧ a.Undirected := by
  have hbuilt : t.Built := .ofPlan ht
  have hbuilt' : t'.Built := .ofPlan ht'
  have hvisits := hshape.visits_eq hbuilt.sound hbuilt'.sound
  obtain ⟨a, ha, hscans, hsettings, hundirected⟩ := s.synopsis.exists_recommend_logical q hbuilt
  have ha' : s.synopsis.recommend q t'.logical = .ok a := by
    rw [← ha, s.synopsis.recommend_logical_congr q hvisits]
  refine ⟨a, ha, ha', fun order horder => ⟨?_, ?_⟩, hscans, hsettings, hundirected⟩
  · rw [select_native horder hp ht, ha]
    rfl
  · rw [select_native horder hp' ht', ha']
    rfl

theorem shape_decides_selection_reported_otherwise :
    let table (name : String) : TableRef := ⟨name, none, none⟩
    let scan (name : String) (op : Option ScanOperator) (rows : Float) : Plan := .scan (table name) op rows rows
    let p : Plan := .join (some .hash) (.join (some .hash) (scan "r" none 1) (.passing "Hash" (scan "s" none 2)) 5 4)
      (scan "u" (some .sequential) 3) 9 1
    let rs : Plan := { Plan.join (some .nestedLoop) (scan "s" none 7) (scan "r" (some .index) 6) 50 40 with
      innerIndex := some 0, executionTime := some 2 }
    let p' : Plan := .passing "Sort" (.join none rs (scan "u" none 8) 90 10)
    let leaf (name : String) (op : Option Operator) (rows : Float) : JoinNode :=
      .base (table name) ⟨op, some rows, none⟩
    let node (l r : JoinNode) (op : Option Operator) (rows : Float) : JoinNode :=
      .join l r ⟨op, some rows, some .right⟩ (l.tables ∪ r.tables)
    let t : JoinTree := ⟨some (node (node (leaf "r" none 1) (leaf "s" none 2) (some (.join .hash)) 4)
      (leaf "u" (some (.scan .sequential)) 3) (some (.join .hash)) 1)⟩
    let t' : JoinTree := ⟨some (node
      (node (leaf "r" (some (.scan .index)) 6) (leaf "s" none 7) (some (.join .nestedLoop)) 40) (leaf "u" none 8)
      none 10)⟩
    let below : TableSet := .ofList [table "r", table "s"]
    let inside : Node Float := { children := [(.ofTable (table "r"), { costs := [(.hash, 20), (.nestedLoop, 2)] })] }
    let onTop : Node Float := { costs := [(.hash, 9), (.merge, 1)], inside := some inside }
    let synopsis : Synopsis := { config := {}, root := { children := [(⟨below, none⟩, onTop)] } }
    let b (p : Plan) : Backend := { dialect := .postgres, answer := fun _ _ => .ok p }
    let q : Query := { select := "*", sources := [table "r", table "s", table "u"] }
    JoinTree.ofPlan p = .ok t ∧ JoinTree.ofPlan p' = .ok t' ∧ t.SameShape t' ∧
      ∃ a, (select ⟨synopsis, b p⟩ q none).1 = .ok a ∧ (select ⟨synopsis, b p'⟩ q (some .empty)).1 = .ok a ∧
        a.joinFor? below = some ⟨.nestedLoop, below, none⟩ ∧ a.scans = ∅ := by
  intro table scan p rs p' leaf node t t' below inside onTop synopsis b q
  have ht : JoinTree.ofPlan p = .ok t := by decide +kernel
  have ht' : JoinTree.ofPlan p' = .ok t' := by decide +kernel
  have hshape : t.SameShape t' := .some (.join _ _ _ _ (.join _ _ _ _ (.base _ _ _) (.base _ _ _)) (.base _ _ _))
  obtain ⟨a, ha, -, hselect, hscans, -⟩ := shape_decides_selection ⟨synopsis, b p⟩ (b p') q rfl rfl ht ht' hshape
  refine ⟨ht, ht', hshape, a, (hselect none (.inl rfl)).1, (hselect _ (.inr rfl)).2, ?_, hscans⟩
  have hbelow : (synopsis.recommend q t.logical).map (·.joinFor? below) = .ok (some ⟨.nestedLoop, below, none⟩) := by
    decide +kernel
  rw [ha] at hbelow
  exact Except.ok.inj hbelow

end Selection

end OptimizerHints
