import OptimizerHints.Proofs.Hint.Compilation
import OptimizerHints.Proofs.JoinTree.Loaded
import OptimizerHints.Proofs.JoinTree.Operators
import OptimizerHints.Proofs.Plan.Explained
import OptimizerHints.Selection

namespace OptimizerHints

open Outcome

variable {d : Document} {p : Plan} {t : JoinTree} {a : Assignment}

namespace Hint

theorem expressible_of_explained (h : Plan.ofExplained d = .ok p) (ht : JoinTree.ofPlan p = .ok t)
    (ha : t.operators = .ok a) : Expressible .postgres t a .empty := by
  have hsound := (JoinTree.Built.ofPlan ht).sound
  obtain ⟨a', ha', hvalid, hknown⟩ := hsound.operators
  obtain rfl := Except.ok.inj (ha.symm.trans ha')
  obtain ⟨n, hn, rfl⟩ := JoinTree.ofPlan_ok_iff.1 ht
  have hmirrors := JoinNode.mirrors_of_ofPlan hn
  constructor
  case valid => exact hvalid
  case known => exact fun _ ts c hc => JoinTree.mem_subtrees_iff.2 (hknown ts c hc)
  case directed =>
    intro l r i ts hj c inner hc hinner
    have hown := (hsound.joinFor?_tables ha hj).symm.trans hc
    obtain ⟨op, -, rfl⟩ := JoinNode.choice?_join_eq_some_iff.1 hown
    obtain ⟨side, -, rfl⟩ := Option.map_eq_some_iff.1 hinner
    cases side with
    | left => exact .inl rfl
    | right => exact .inr rfl
  case settings =>
    rw [JoinTree.settings_operators ha]
    exact fun _ hmem => nomatch hmem
  case scans =>
    rintro ⟨table, op, table'⟩ -
    cases op <;> rfl
  case joins =>
    rintro ⟨ts, c⟩ hmem
    obtain ⟨j, hj, rfl, hchoice⟩ := JoinTree.exists_join_of_joinFor? ha (SortedMap.mem_entries_iff.1 hmem)
    cases j with
    | base t i => cases hchoice
    | join l r i ts =>
      obtain ⟨op, hop, rfl⟩ := JoinNode.choice?_join_eq_some_iff.1 hchoice
      obtain ⟨path, q, hq, hjoin, hoperator⟩ := hmirrors.exists_join hj
      obtain ⟨op', hsupported, hop'⟩ := Plan.operator_reached h hq hjoin
      obtain rfl := Operator.join.inj (Option.some.inj (hop.symm.trans (hoperator.symm.trans hop')))
      have hhints : ∀ op ∈ [JoinOperator.nestedLoop, .hash, .sortMerge],
          (Dialect.postgres.operatorHint? (.join op)).isSome = true := by decide
      exact hhints op hsupported
  case indexes => exact fun _ names hnames => nomatch hnames
  case rows => exact fun hd => nomatch hd

end Hint

lemma JoinTree.compiles_of_explained (h : Plan.ofExplained d = .ok p) (ht : ofPlan p = .ok t)
    (ha : t.operators = .ok a) (q : Query) :
    ∃ q', Hint.compile .postgres { tree := some t, operators := some a } q = .ok q' := by
  apply Hint.Expressible.compiles
  · exact (Built.ofPlan ht).sound
  · exact Hint.expressible_of_explained h ht ha

namespace Selection

variable {s : Selection} {provider : HintProvider} {q : Query} {e : SelectionError}

lemma forcedQuery_of_not_analyzed (h : p.isAnalyzed = false) :
    forcedQuery provider q p = .error .notAnalyzed := by
  rw [forcedQuery, h]
  rfl

lemma forcedQuery_of_not_loaded {e : PlanError} (h : p.isAnalyzed = true) (ht : JoinTree.ofPlan p = .error e) :
    forcedQuery provider q p = .error (.plan e) := by
  rw [forcedQuery, h, ht]
  rfl

lemma forcedQuery_of_explained (h : Plan.ofExplained d = .ok p) (hanalyzed : p.isAnalyzed = true)
    (ht : JoinTree.ofPlan p = .ok t) (q : Query) :
    ∃ forced, forcedQuery (Hint.compile .postgres) q p = .ok forced := by
  obtain ⟨a, ha, -, -⟩ := (JoinTree.Built.ofPlan ht).sound.operators
  obtain ⟨forced, hforced⟩ := JoinTree.compiles_of_explained h ht ha { q with explain := none }
  refine ⟨forced, ?_⟩
  rw [forcedQuery, hanalyzed, ht]
  exact then_ok_iff.2 ⟨t, rfl, then_ok_iff.2 ⟨a, renamed_ok_iff.2 ha, renamed_ok_iff.2 hforced⟩⟩

lemma forcedQuery_error_iff (h : Plan.ofExplained d = .ok p) :
    forcedQuery (Hint.compile .postgres) q p = .error e ↔
      p.isAnalyzed = false ∧ e = .notAnalyzed ∨
        p.isAnalyzed = true ∧ ∃ e', JoinTree.ofPlan p = .error e' ∧ e = .plan e' := by
  cases hanalyzed : p.isAnalyzed with
  | false =>
    rw [forcedQuery_of_not_analyzed hanalyzed]
    simp [eq_comm]
  | true =>
    cases ht : JoinTree.ofPlan p with
    | error e' =>
      rw [forcedQuery_of_not_loaded hanalyzed ht]
      simp [eq_comm]
    | ok t =>
      obtain ⟨forced, hforced⟩ := forcedQuery_of_explained h hanalyzed ht q
      simp [hforced]

lemma learn_error_iff :
    (s.learn q p).1 = .error e ↔ ∃ e', (s.synopsis.integrate q p).1 = .error e' ∧ .synopsis e' = e :=
  renamed_error_iff

lemma withPlan_error_iff {r : PlanRequest} {next : Selection → Plan → Except SelectionError Unit × Selection} :
    (s.withPlan r next).1 = .error e ↔
      (∃ text, s.backend.answer s.backend.asked r = .error text ∧ .backend text = e) ∨
        ∃ plan, s.backend.answer s.backend.asked r = .ok plan ∧
          (next { s with backend := (s.backend.ask r).2 } plan).1 = .error e := by
  unfold withPlan Backend.ask
  cases s.backend.answer s.backend.asked r with
  | error text =>
    simp only [reduceCtorEq, false_and, exists_false, or_false, Except.error.injEq, exists_eq_left']
    exact ⟨Except.error.inj, congrArg _⟩
  | ok plan =>
    simp only [reduceCtorEq, false_and, exists_false, false_or, Except.ok.injEq, exists_eq_left']
    rfl

lemma incorporate_error_iff :
    (s.incorporate q p).1 = .error e ↔
      forcedQuery s.backend.provider q p = .error e ∨ ∃ forced, forcedQuery s.backend.provider q p = .ok forced ∧
        ((∃ text, s.backend.answer s.backend.asked (.estimate forced) = .error text ∧ .backend text = e) ∨
          ∃ plan e', s.backend.answer s.backend.asked (.estimate forced) = .ok plan ∧
            (s.synopsis.integrate q plan).1 = .error e' ∧ .synopsis e' = e) := by
  rw [incorporate]
  cases forcedQuery s.backend.provider q p with
  | error e' => simp
  | ok forced =>
    simp only [withPlan_error_iff, learn_error_iff, reduceCtorEq, false_or, Except.ok.injEq, exists_eq_left',
      exists_and_left]

/-- The decisions of a plan that PostgreSQL explains can be forced back onto PostgreSQL, for any query. Learning from
the plan therefore fails for no other reason than that it is not analyzed, that it does not load, that the database
fails, or that the plan with which the database answers is not fit for the synopsis. -/
theorem explained_plan_is_forced (h : Plan.ofExplained d = .ok p) :
    (∀ t, JoinTree.ofPlan p = .ok t →
      ∃ a, t.operators = .ok a ∧ a.validate = .ok () ∧ a.checkAgainst t = .ok () ∧
        ∀ q, ∃ q', Hint.compile .postgres { tree := some t, operators := some a } q = .ok q') ∧
    ∀ (s : Selection) q e, s.backend.provider = Hint.compile .postgres →
      ((s.incorporate q p).1 = .error e ↔
        p.isAnalyzed = false ∧ e = .notAnalyzed ∨
        (p.isAnalyzed = true ∧ ∃ e', JoinTree.ofPlan p = .error e' ∧ e = .plan e') ∨
        ∃ forced, forcedQuery (Hint.compile .postgres) q p = .ok forced ∧
          ((∃ text, s.backend.answer s.backend.asked (.estimate forced) = .error text ∧ .backend text = e) ∨
            ∃ plan e', s.backend.answer s.backend.asked (.estimate forced) = .ok plan ∧
              (s.synopsis.integrate q plan).1 = .error e' ∧ .synopsis e' = e)) := by
  constructor
  · intro t ht
    obtain ⟨a, ha, hvalid, hknown⟩ := (JoinTree.Built.ofPlan ht).sound.operators
    have hagainst : a.checkAgainst t = .ok () :=
      Assignment.checkAgainst_ok_iff.2 fun _ ts c hc => JoinTree.mem_subtrees_iff.2 (hknown ts c hc)
    exact ⟨a, ha, Assignment.validate_ok_iff.2 hvalid, hagainst, JoinTree.compiles_of_explained h ht ha⟩
  · intro s q e hd
    rw [incorporate_error_iff, hd, forcedQuery_error_iff h, or_assoc]

theorem explained_plan_is_forced_unanswered :
    let node (nodeType : String) (fields : List (String × Document)) : Document :=
      .ofFields (("Node Type", .text nodeType) :: fields)
    let scan (nodeType name : String) := node nodeType [("Relation Name", .text name), ("Actual Rows", .whole 3)]
    let hash := node "Hash" [("Parent Relationship", .text "Inner"), ("Plans", .list [scan "Index Scan" "s"])]
    let join := node "Hash Join" [("Actual Rows", .whole 3), ("Plans", .list [scan "Seq Scan" "r", hash])]
    let root := node "Gather" [("Actual Rows", .whole 3), ("Plans", .list [join])]
    let d : Document := .list [.ofFields [("Plan", root)]]
    let q : Query := { select := "*", sources := [⟨"r", none, none⟩, ⟨"s", none, none⟩] }
    let s : Selection := ⟨⟨{}, {}⟩, { dialect := .postgres, answer := fun _ _ => .error "connection lost" }⟩
    ∃ p t a q', Plan.ofExplained d = .ok p ∧ JoinTree.ofPlan p = .ok t ∧ t.operators = .ok a ∧
      Hint.compile .postgres { tree := some t, operators := some a } q = .ok q' ∧
      (s.incorporate q p).1 = .error (.backend "connection lost") := by
  intro node scan hash join root d q s
  have hok : (Plan.ofExplained d).map (fun p => (p.isAnalyzed, (JoinTree.ofPlan p).isOk)) = .ok (true, true) := by
    decide +kernel
  obtain ⟨p, hp, hfit⟩ := mapped_ok_iff.1 hok
  obtain ⟨hanalyzed, hloads⟩ := Prod.mk.inj hfit
  cases ht : JoinTree.ofPlan p with
  | error e =>
    rw [ht] at hloads
    cases hloads
  | ok t =>
    obtain ⟨hforced, hfails⟩ := explained_plan_is_forced hp
    obtain ⟨a, ha, -, -, hcompiles⟩ := hforced t ht
    obtain ⟨q', hq'⟩ := hcompiles q
    obtain ⟨forced, hforced⟩ := forcedQuery_of_explained hp hanalyzed ht q
    have hfailed := (hfails s q (.backend "connection lost") rfl).2
      (.inr (.inr ⟨forced, hforced, .inl ⟨"connection lost", rfl, rfl⟩⟩))
    exact ⟨p, t, a, q', hp, ht, ha, hq', hfailed⟩

end Selection

end OptimizerHints
