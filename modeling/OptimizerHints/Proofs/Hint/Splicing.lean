import OptimizerHints.Proofs.Hint.Compilation
import OptimizerHints.Proofs.Text.Lines

/-! Hints are the same for every query, and go into its hint clause only. -/

namespace OptimizerHints

open Outcome

lemma Dialect.settingStatement_ne_empty {d : Dialect} {op : Operator} {s : Setting} {text : String}
    (h : d.settingStatement? op s = some text) : text ≠ "" := by
  obtain ⟨switch, -, rfl⟩ := Option.map_eq_some_iff.1 h
  cases d <;> simp [String.append_eq_empty_iff]

namespace HintParts

lemma block_ne_empty {hints : List String} (h : hints ≠ []) : block hints ≠ "" := by
  have hne : hints.isEmpty = false := List.isEmpty_eq_false_iff.2 h
  simp [block, hne, String.append_eq_empty_iff]

lemma isEmpty_clause {p : HintParts} {c : HintClause} (hp : ∀ s ∈ p.settings, s ≠ "") (h : p.clause? = some c) :
    c.isEmpty = false := by
  rw [clause?, isEmpty] at h
  split at h
  · cases h
  · next hne =>
    obtain rfl := Option.some.inj h
    rw [Bool.and_eq_true, List.isEmpty_iff, List.isEmpty_iff, not_and_or] at hne
    rw [HintClause.isEmpty, Bool.and_eq_false_iff, String.isEmpty_eq_false_iff, String.isEmpty_eq_false_iff]
    exact hne.imp (Text.intercalate_ne_empty · hp) block_ne_empty

end HintParts

namespace Query

lemma renderWith_hinted (explain : Explain → String) {q : Query} {c : HintClause} (hq : q.hint = none)
    (hc : c.isEmpty = false) :
    renderWith explain { q with hint := some c } = c.render ++ "\n" ++ renderWith explain q := by
  have hshown : (some c).filter (fun h => !h.isEmpty) = some c := by simp [Option.filter_some, hc]
  have hhidden : (none : Option HintClause).filter (fun h => !h.isEmpty) = none := rfl
  rw [renderWith, renderWith, hq, hhidden]
  simp only [hshown, Option.elim_some, Option.elim_none, String.empty_append, String.append_assoc]
  rfl

end Query

namespace Hint

variable {d : Dialect} {r : Request}

lemma settings_ne_empty {parts : HintParts} (h : Hint.parts d r = .ok parts) : ∀ s ∈ parts.settings, s ≠ "" := by
  obtain ⟨-, -, w, hw, rfl⟩ := parts_ok_iff.1 h
  intro s hs
  obtain ⟨e, -, he⟩ := exists_of_found hw.settings hs
  exact Dialect.settingStatement_ne_empty he

lemma compile_of_error {e : HintError} (h : Hint.parts d r = .error e) (q : Query) : compile d r q = .error e := by
  rw [compile, h]
  rfl

lemma compile_of_parts {parts : HintParts} (h : Hint.parts d r = .ok parts) (q : Query) :
    compile d r q = .ok (parts.clause?.elim q fun c => { q with hint := some c }) := by
  rw [compile, h]
  rfl

lemma compile_compile {q q' : Query} (h : compile d r q = .ok q') : compile d r q' = .ok q' := by
  cases hparts : Hint.parts d r with
  | error e =>
    rw [compile_of_error hparts] at h
    cases h
  | ok parts =>
    rw [compile_of_parts hparts] at h ⊢
    obtain rfl := Except.ok.inj h
    cases parts.clause? <;> rfl

/-- Hints cannot be written for any query, or no query needs any, or every query gets the same clause: it stands in
front of the query as it was, in place of a clause that the query had. So a second compilation changes nothing. -/
theorem compile_ignores_query (d : Dialect) (r : Request) :
    ((∃ e, ∀ q, compile d r q = .error e) ∨ (∀ q, compile d r q = .ok q) ∨
      ∃ c : HintClause, (∀ q, compile d r q = .ok { q with hint := some c }) ∧
        ∀ q, q.hint = none →
          d.format { q with hint := some c } = c.render ++ "\n" ++ d.format q ∧
            Query.body { q with hint := some c } = q.body) ∧
      ∀ q q', compile d r q = .ok q' → compile d r q' = .ok q' := by
  refine ⟨?_, fun q q' => compile_compile⟩
  cases hparts : Hint.parts d r with
  | error e => exact .inl ⟨e, compile_of_error hparts⟩
  | ok parts =>
    have hcompile := compile_of_parts hparts
    cases hclause : parts.clause? with
    | none =>
      simp only [hclause] at hcompile
      exact .inr (.inl hcompile)
    | some c =>
      simp only [hclause] at hcompile
      -- an empty clause would be left out of the text, with its line break
      have hc := HintParts.isEmpty_clause (settings_ne_empty hparts) hclause
      exact .inr (.inr ⟨c, hcompile, fun q hq => ⟨Query.renderWith_hinted _ hq hc, rfl⟩⟩)

theorem compile_ignores_query_explained :
    let r := TableRef.mk "r" none none
    let s := TableRef.mk "s" none none
    let t : JoinTree := ⟨some (.join (.ofTable r) (.ofTable s) {} (.ofList [r, s]))⟩
    let a : Assignment := { settings := .ofList [(.join .hash, .disabled)] }
    let q : Query := { explain := some ⟨true, some "JSON"⟩, select := "*", sources := [r, s], condition := some "a = b" }
    let c : HintClause := ⟨"SET enable_hashjoin = 'off';", "/*+\n  Leading((s r))\n*/"⟩
    let q' : Query := { q with hint := some c }
    q.hint = none ∧ compile .postgres ⟨some t, some a, none⟩ q = .ok q' ∧
      compile .postgres ⟨some t, some a, none⟩ q' = .ok q' ∧
      Dialect.postgres.format q' =
        c.render ++ "\n" ++ "EXPLAIN (ANALYZE, FORMAT JSON) SELECT * FROM r, s WHERE a = b;" := by
  intro r s t a q c q'
  have hcompile : compile .postgres ⟨some t, some a, none⟩ q = .ok q' := by decide +kernel
  obtain ⟨hcases, hagain⟩ := compile_ignores_query .postgres ⟨some t, some a, none⟩
  refine ⟨rfl, hcompile, hagain q q' hcompile, ?_⟩
  rcases hcases with ⟨e, he⟩ | hsame | ⟨c', hc', hformat⟩
  · cases hcompile.symm.trans (he q)
  · have hhint := congrArg Query.hint (Except.ok.inj (hcompile.symm.trans (hsame q)))
    cases hhint
  · have hhint := congrArg Query.hint (Except.ok.inj (hcompile.symm.trans (hc' q)))
    obtain rfl : c = c' := Option.some.inj hhint
    have hplain : Dialect.postgres.format q = "EXPLAIN (ANALYZE, FORMAT JSON) SELECT * FROM r, s WHERE a = b;" := by
      decide +kernel
    rw [← hplain]
    exact (hformat q rfl).1

end Hint

end OptimizerHints
