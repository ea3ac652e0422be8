import OptimizerHints.Proofs.Plan.Shape
import OptimizerHints.Proofs.Synopsis.PlanVisits

namespace OptimizerHints

namespace Plan

open Outcome

inductive Hinders (p : Plan) : SynopsisError → Prop
  | withoutCost : p.isScan = false → p.isJoin = true → p.cost.isNaN = true →
    Hinders p (.malformedNode (.withoutCost p.nodeType))
  | withoutOuter : p.isScan = false → p.isJoin = true → p.outer? = none →
    Hinders p (.malformedNode (.withoutOuter p.nodeType))
  | withoutInner : p.isScan = false → p.isJoin = true → p.inner? = none →
    Hinders p (.plan (.malformedPlan (.joinWithoutInner p.nodeType)))
  | deadEnd : p.isScan = false → p.isJoin = false → p.children.length ≠ 1 →
    Hinders p (.plan (.malformedPlan (.notOneChild p.nodeType p.children.length)))
  | outerDeadEnd (joinType : String) : p.isScan = false → p.isJoin = false → p.children.length ≠ 1 →
    Hinders p (.malformedNode (.outerNeither p.nodeType joinType))

variable {p o q : Plan} {e : SynopsisError} {path : List Side}

lemma Hinders.ne_withoutOperator (h : p.Hinders e) (nodeType : String) :
    e ≠ .malformedNode (.withoutOperator nodeType) := by
  cases h <;> simp

lemma Hinders.ne_scanWithoutTable (h : p.Hinders e) (nodeType : String) :
    e ≠ .malformedNode (.scanWithoutTable nodeType) := by
  cases h <;> simp

section Visits

lemma visits_without_inner (hscan : p.isScan = false) (hjoin : p.isJoin = true) (hi : p.inner? = none) :
    p.visits = .error (.plan (.malformedPlan (.joinWithoutInner p.nodeType))) := by
  have hsequence : p.joinSequence = .error (.malformedPlan (.joinWithoutInner p.nodeType)) := by
    rw [joinSequence, if_neg (Bool.eq_false_iff.1 hscan), if_pos hjoin]
    split
    · next hi' =>
      rw [hi] at hi'
      cases hi'
    · rfl
  rw [visits, hsequence]
  rfl

lemma visits_of_deadEnd (hscan : p.isScan = false) (hjoin : p.isJoin = false) (hchildren : p.children.length ≠ 1) :
    p.visits = .error (.plan (.malformedPlan (.notOneChild p.nodeType p.children.length))) := by
  rw [visits, joinSequence_of_deadEnd hscan hjoin hchildren]
  rfl

lemma visitOver_error {obs : Observation Float} (h : o.unwrapped.visitOver obs = .error e) : o.visits = .error e := by
  rw [visitOver] at h
  split at h
  · cases h
  · obtain h | ⟨us, -, h⟩ := then_error_iff.1 h
    · rwa [visits_unwrapped] at h
    · cases h

lemma visitAll_singleton_error (h : visitAll [p] = .error e) :
    p.joinInput = .error e ∨ ∃ o, p.outer? = some o ∧ o.visits = .error e := by
  cases hinput : p.joinInput with
  | error e' =>
    rw [visitAll_cons_error hinput] at h
    cases h
    exact .inl rfl
  | ok found =>
    obtain ⟨op, input⟩ := found
    obtain ⟨-, -, -, ⟨o, ho, rfl⟩, -⟩ := joinInput_eq_ok hinput
    rw [visitAll_cons hinput, visitAll] at h
    obtain h | ⟨v, -, h⟩ := then_error_iff.1 h
    · exact .inr ⟨o, ho, visitOver_error h⟩
    · cases h

lemma visits_error_of_isJoin (hscan : p.isScan = false) (hjoin : p.isJoin = true) (h : p.visits = .error e) :
    p.Hinders e ∨ p.joinInput = .error e ∨ (∃ i, p.inner? = some i ∧ i.visits = .error e) ∨
      ∃ o, p.outer? = some o ∧ o.visits = .error e := by
  cases hi : p.inner? with
  | none =>
    rw [visits_without_inner hscan hjoin hi] at h
    cases h
    exact .inl (.withoutInner hscan hjoin hi)
  | some i =>
    rw [visits_of_isJoin hscan hjoin hi] at h
    obtain h | ⟨us, -, h⟩ := then_error_iff.1 h
    · exact .inr (.inr (.inl ⟨i, rfl, h⟩))
    · obtain h | ⟨ws, -, h⟩ := then_error_iff.1 h
      · exact (visitAll_singleton_error h).elim (fun h => .inr (.inl h)) fun h => .inr (.inr (.inr h))
      · cases h

end Visits

lemma hinders_of_joinInput_error (hscan : p.isScan = false) (hjoin : p.isJoin = true)
    (hop : ∃ op : JoinOperator, p.operator = some (.join op))
    (htable : ∀ o, p.outer? = some o → o.unwrapped.isScan = true → ∃ t, o.unwrapped.table = some t)
    (h : p.joinInput = .error e) : p.Hinders e ∨ ∃ o, p.outer? = some o ∧ o.unwrapped.Hinders e := by
  obtain ⟨op, hop⟩ := hop
  have hop : p.operator.bind Operator.asJoin? = some op := by rw [hop]; rfl
  rw [joinInput, hjoin, hop] at h
  dsimp only at h
  rw [if_neg (by simp)] at h
  split_ifs at h with hcost
  · cases h
    exact .inl (.withoutCost hscan hjoin hcost)
  · cases ho : p.outer? with
    | none =>
      rw [ho] at h
      cases h
      exact .inl (.withoutOuter hscan hjoin ho)
    | some o =>
      rw [ho] at h
      dsimp only at h
      obtain hinput | ⟨hinput, hisJoin⟩ | ⟨hinput, hisJoin, hchildren⟩ := o.unwrapped_cases
      · obtain ⟨t, ht⟩ := htable o ho hinput
        rw [if_pos hinput, ht] at h
        cases h
      · rw [hinput, hisJoin] at h
        cases h
      · rw [hinput, hisJoin] at h
        cases h
        exact .inr ⟨o, rfl, .outerDeadEnd p.nodeType hinput hisJoin hchildren⟩

theorem exists_hinders_of_visits (p : Plan) (hshaped : ∀ path q, p.Reaches path q → q.Shaped)
    (h : p.visits = .error e) : ∃ path q, p.Reaches path q ∧ q.Hinders e := by
  rw [← visits_unwrapped] at h
  have hhere : p.Reaches [] p.unwrapped := .here p
  obtain hscan | ⟨hscan, hjoin⟩ | ⟨hscan, hjoin, hchildren⟩ := p.unwrapped_cases
  · rw [visits_of_isScan hscan] at h
    cases h
  · obtain h | h | ⟨i, hi, h⟩ | ⟨o, ho, h⟩ := visits_error_of_isJoin hscan hjoin h
    · exact ⟨[], _, hhere, h⟩
    · have htable : ∀ o, p.unwrapped.outer? = some o → o.unwrapped.isScan = true →
          ∃ t, o.unwrapped.table = some t := fun o ho hoscan =>
        ((hshaped _ _ (.outer hscan hjoin ho (.here o))).scan hoscan).1
      have hop := (hshaped _ _ hhere).operator hscan hjoin
      obtain h | ⟨o, ho, h⟩ := hinders_of_joinInput_error hscan hjoin hop htable h
      · exact ⟨[], _, hhere, h⟩
      · exact ⟨_, _, .outer hscan hjoin ho (.here o), h⟩
    · -- an input is smaller than the plan, and what is reached from it is reached from the plan
      have hsize : i.size < p.size := Nat.lt_of_lt_of_le (size_lt_of_inner hi) (size_unwrapped_le p)
      obtain ⟨path, q, hq, hhinders⟩ :=
        exists_hinders_of_visits i (fun path q hq => hshaped _ q (.inner hscan hjoin hi hq)) h
      exact ⟨_, q, .inner hscan hjoin hi hq, hhinders⟩
    · have hsize : o.size < p.size := Nat.lt_of_lt_of_le (size_lt_of_outer ho) (size_unwrapped_le p)
      obtain ⟨path, q, hq, hhinders⟩ :=
        exists_hinders_of_visits o (fun path q hq => hshaped _ q (.outer hscan hjoin ho hq)) h
      exact ⟨_, q, .outer hscan hjoin ho hq, hhinders⟩
  · rw [visits_of_deadEnd hscan hjoin hchildren] at h
    cases h
    exact ⟨[], _, hhere, .deadEnd hscan hjoin hchildren⟩
  termination_by p.size

section Converse

variable {vs : List (Visit (Observation Float))}

lemma inputs_of_visits (hscan : p.isScan = false) (hjoin : p.isJoin = true) (h : p.visits = .ok vs) :
    p.cost.isNaN = false ∧ (∃ i us, p.inner? = some i ∧ i.visits = .ok us) ∧
      ∃ o ws, p.outer? = some o ∧ o.visits = .ok ws := by
  cases hi : p.inner? with
  | none =>
    rw [visits_without_inner hscan hjoin hi] at h
    cases h
  | some i =>
    rw [visits_of_isJoin hscan hjoin hi] at h
    obtain ⟨us, hus, h⟩ := then_ok_iff.1 h
    obtain ⟨ws, hws, -⟩ := then_ok_iff.1 h
    obtain ⟨op, input, v, hinput, hv, -⟩ := visitAll_singleton_ok_iff.1 hws
    obtain ⟨-, -, hcost, ⟨o, ho, rfl⟩, -⟩ := joinInput_eq_ok hinput
    refine ⟨hcost, ⟨i, us, rfl, hus⟩, o, ?_⟩
    obtain ⟨t, ht, -⟩ | ⟨-, os, hos, -⟩ := visitOver_ok_iff.1 hv
    · exact ⟨[], ho, by rw [← visits_unwrapped, visits_of_isScan (isScan_of_scanTable? ht)]⟩
    · exact ⟨os, ho, hos⟩

lemma not_hinders_of_visits (h : p.visits = .ok vs) : ¬p.Hinders e := by
  intro hhinders
  cases hhinders with
  | withoutCost hscan hjoin hcost =>
    rw [(inputs_of_visits hscan hjoin h).1] at hcost
    cases hcost
  | withoutOuter hscan hjoin ho =>
    obtain ⟨-, -, o, -, ho', -⟩ := inputs_of_visits hscan hjoin h
    rw [ho] at ho'
    cases ho'
  | withoutInner hscan hjoin hi =>
    rw [visits_without_inner hscan hjoin hi] at h
    cases h
  | deadEnd hscan hjoin hchildren | outerDeadEnd _ hscan hjoin hchildren =>
    rw [visits_of_deadEnd hscan hjoin hchildren] at h
    cases h

theorem Reaches.not_hinders (hq : p.Reaches path q) (h : p.visits = .ok vs) : ¬q.Hinders e := by
  induction hq generalizing vs with
  | here p =>
    rw [← visits_unwrapped] at h
    exact not_hinders_of_visits h
  | outer hscan hjoin ho _ ih =>
    rw [← visits_unwrapped] at h
    obtain ⟨-, -, o, ws, ho', hws⟩ := inputs_of_visits hscan hjoin h
    obtain rfl := Option.some.inj (ho.symm.trans ho')
    exact ih hws
  | inner hscan hjoin hi _ ih =>
    rw [← visits_unwrapped] at h
    obtain ⟨-, ⟨i, us, hi', hus⟩, -⟩ := inputs_of_visits hscan hjoin h
    obtain rfl := Option.some.inj (hi.symm.trans hi')
    exact ih hus

end Converse

theorem visits_error_iff (hshaped : ∀ path q, p.Reaches path q → q.Shaped) :
    (∃ e, p.visits = .error e) ↔ ∃ path q e, p.Reaches path q ∧ q.Hinders e := by
  constructor
  · rintro ⟨e, h⟩
    obtain ⟨path, q, hq, hhinders⟩ := exists_hinders_of_visits p hshaped h
    exact ⟨path, q, e, hq, hhinders⟩
  · rintro ⟨path, q, e, hq, hhinders⟩
    rw [error_iff]
    rintro ⟨vs, hvs⟩
    exact hq.not_hinders hvs hhinders

end Plan

namespace Synopsis

open Outcome Plan

lemma integrate_error_iff {s : Synopsis} {q : Query} {p : Plan} {e : SynopsisError} :
    (s.integrate q p).1 = .error e ↔ p.visits = .error e := by
  rw [integrate_eq]
  cases p.visits with
  | error e' => exact ⟨fun h => congrArg _ (Except.error.inj h), fun h => congrArg _ (Except.error.inj h)⟩
  | ok vs => exact ⟨nofun, nofun⟩

/-- Each node of an explained plan keeps to the shape that walks rely on, and is without a cost only where its part of
the document has no number for one. A synopsis refuses the plan just if a node that is reached hinders it, and then for
the reason that such a node gives, which is never that a join has no operator or a scan no table. -/
theorem refuses_explained_iff {s : String} {p : Plan} (h : ofExplainText s = .ok p) :
    ∃ d root, Json.read? s = some d ∧ (explainedTop d).field? "Plan" = some root ∧
      (∀ place q, p.at? place = some q → q.Shaped ∧
        ∃ c, explainedAt? root place = some c ∧ (q.cost.isNaN = true ↔ c.realField? "Total Cost" = none)) ∧
      ∀ (syn : Synopsis) (query : Query),
        ((∃ e, (syn.integrate query p).1 = .error e) ↔ ∃ path q e, p.Reaches path q ∧ q.Hinders e) ∧
        ∀ e, (syn.integrate query p).1 = .error e →
          (∃ path place q, p.Reaches path q ∧ p.at? place = some q ∧ q.Hinders e) ∧
            ∀ nodeType, e ≠ .malformedNode (.withoutOperator nodeType) ∧
              e ≠ .malformedNode (.scanWithoutTable nodeType) := by
  obtain ⟨d, root, hd, hroot, hnodes⟩ := shaped_of_explainText h
  have hshaped : ∀ path q, p.Reaches path q → q.Shaped := by
    intro path q hq
    obtain ⟨place, hplace⟩ := hq.exists_at?
    exact (hnodes place q hplace).1
  refine ⟨d, root, hd, hroot, hnodes, fun syn query => ⟨?_, fun e he => ?_⟩⟩
  · simp only [integrate_error_iff]
    exact visits_error_iff hshaped
  · obtain ⟨path, q, hq, hhinders⟩ := exists_hinders_of_visits p hshaped (integrate_error_iff.1 he)
    obtain ⟨place, hplace⟩ := hq.exists_at?
    exact ⟨⟨path, place, q, hq, hplace, hhinders⟩,
      fun nodeType => ⟨hhinders.ne_withoutOperator nodeType, hhinders.ne_scanWithoutTable nodeType⟩⟩

theorem refuses_explained_without_cost :
    let scan (name : String) := "\x7b\"Node Type\":\"Seq Scan\",\"Relation Name\":\"" ++ name ++ "\"\x7d"
    let s := "\x7b\"Plan\":\x7b\"Node Type\":\"Hash Join\",\"Plans\":[" ++ scan "r" ++ "," ++ scan "s" ++ "]\x7d\x7d"
    ∃ p, ofExplainText s = .ok p ∧ ∀ (syn : Synopsis) (query : Query),
      ∃ e, (syn.integrate query p).1 = .error e := by
  intro scan s
  have hread : (ofExplainText s).map (fun p => (p.isScan, p.isJoin, p.cost.isNaN)) = .ok (false, true, true) := by
    decide +kernel
  obtain ⟨p, hp, hflags⟩ := mapped_ok_iff.1 hread
  simp only [Prod.mk.injEq] at hflags
  obtain ⟨hscan, hjoin, hcost⟩ := hflags
  obtain ⟨-, -, -, -, -, hrefused⟩ := refuses_explained_iff hp
  exact ⟨p, hp, fun syn query =>
    (hrefused syn query).1.2 ⟨[], p, _, .self hjoin, .withoutCost hscan hjoin hcost⟩⟩

end Synopsis

end OptimizerHints
