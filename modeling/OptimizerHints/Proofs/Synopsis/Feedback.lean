import OptimizerHints.Proofs.Outcome
import OptimizerHints.Proofs.Plan.Reach
import OptimizerHints.Proofs.Synopsis.Places
import OptimizerHints.Synopsis

/-! The check of a plan and the recording of its costs walk the plan separately. They agree on which joins there are
and where each lies, so that what passes the check is recorded in full and what does not leaves no trace. -/

namespace OptimizerHints

open Outcome

namespace Plan

def visitAll : List Plan → Except SynopsisError (List (Visit (Observation Float)))
  | [] => .ok []
  | j :: js =>
    match _h : j.joinInput with
    | .error e => .error e
    | .ok (op, input) =>
      match input.scanTable? with
      | some t => do
        let vs ← visitAll js
        return .overTable t ⟨j.tables, op, j.cost⟩ :: vs
      | none =>
        match _hs : input.joinSequence with
        | .error e => .error (.plan e)
        | .ok inside => do
          let is ← visitAll inside
          let vs ← visitAll js
          return .overJoin input.tables ⟨j.tables, op, j.cost⟩ is :: vs
  termination_by js => weight js
  decreasing_by
  · exact weight_lt_weight_cons ..
  · exact weight_inside_lt (by assumption) (by assumption)
  · exact weight_lt_weight_cons ..

def visits (p : Plan) : Except SynopsisError (List (Visit (Observation Float))) := do
  visitAll (← p.joinSequence.mapError .plan)

lemma mem_joinSequence_self {p : Plan} {js : List Plan} (hscan : p.isScan = false) (hjoin : p.isJoin = true)
    (h : p.joinSequence = .ok js) : p ∈ js := by
  rw [joinSequence, if_neg (by simp [hscan]), if_pos hjoin] at h
  split at h
  · obtain ⟨before, -, hjs⟩ := then_ok_iff.1 h
    obtain rfl := done_ok_iff.1 hjs
    exact List.mem_append_right before (List.mem_singleton_self p)
  · cases h

lemma visitAll_ne_nil {js : List Plan} {vs : List (Visit (Observation Float))} (h : visitAll js = .ok vs)
    (hjs : js ≠ []) : vs ≠ [] := by
  obtain ⟨j, js, rfl⟩ := List.exists_cons_of_ne_nil hjs
  rw [visitAll] at h
  split at h
  · cases h
  · split at h
    · obtain ⟨_, _, hvs⟩ := then_ok_iff.1 h
      obtain rfl := done_ok_iff.1 hvs
      exact List.cons_ne_nil _ _
    · split at h
      · cases h
      · obtain ⟨_, _, h⟩ := then_ok_iff.1 h
        obtain ⟨_, _, hvs⟩ := then_ok_iff.1 h
        obtain rfl := done_ok_iff.1 hvs
        exact List.cons_ne_nil _ _

lemma input_cases {p input : Plan} {op : JoinOperator} (h : p.joinInput = .ok (op, input)) :
    (∃ t, input.scanTable? = some t ∧ input.joinSequence = .ok []) ∨
      input.scanTable? = none ∧ input.isJoin = true ∧
        ∀ inside, input.joinSequence = .ok inside → inside ≠ [] := by
  obtain ⟨-, -, -, -, ⟨hscan, ht⟩ | ⟨hscan, hjoin⟩⟩ := joinInput_eq_ok h
  · obtain ⟨t, ht⟩ := Option.isSome_iff_exists.1 ht
    exact .inl ⟨t, by simp [scanTable?, hscan, ht], joinSequence_of_isScan hscan⟩
  · refine .inr ⟨by simp [scanTable?, hscan], hjoin, fun inside hs => ?_⟩
    exact List.ne_nil_of_mem (mem_joinSequence_self hscan hjoin hs)

theorem checkJoins_eq_map_visitAll (js : List Plan) : checkJoins js = (visitAll js).map fun _ => () := by
  fun_induction visitAll js with
  | case1 => exact checkJoins_nil
  | case2 j js e h => exact checkJoins_cons_error h
  | case3 j js op input h t ht ih =>
    rw [checkJoins_cons h]
    obtain ⟨t', -, hs⟩ | ⟨ht', -⟩ := input_cases h
    · have hrest : (do
          checkJoins (← input.joinSequence.mapError .plan)
          checkJoins js) = checkJoins js := by
        rw [hs]
        change (checkJoins [] >>= fun _ => checkJoins js) = checkJoins js
        rw [checkJoins_nil]
        rfl
      rw [hrest, ite_self, ih]
      cases visitAll js <;> rfl
    · rw [ht] at ht'
      cases ht'
  | case4 j js op input h ht e hs =>
    rw [checkJoins_cons h]
    obtain ⟨t, ht', -⟩ | ⟨-, hjoin, -⟩ := input_cases h
    · rw [ht] at ht'
      cases ht'
    · rw [if_pos hjoin, hs]
      rfl
  | case5 j js op input h ht inside hs ihs ih =>
    rw [checkJoins_cons h]
    obtain ⟨t, ht', -⟩ | ⟨-, hjoin, -⟩ := input_cases h
    · rw [ht] at ht'
      cases ht'
    · rw [if_pos hjoin, hs]
      change (checkJoins inside >>= fun _ => checkJoins js) = _
      rw [ihs, ih]
      cases visitAll inside with
      | error e => rfl
      | ok is => cases visitAll js <;> rfl

end Plan

namespace Node

lemma atChild_eq_modifyStep {ρ : Type} {α : Type} (id : Identifier) (r : ρ) (f : Node α → Node α) (n : Node α) :
    n.atChild id (fun c => (r, f c)) = (r, n.modifyStep (.child id) f) := rfl

lemma atInside_eq_modifyStep {ρ : Type} {α : Type} (r : ρ) (f : Node α → Node α) (n : Node α) :
    n.atInside (fun m => (r, f m)) = (r, n.modifyStep .inside f) := rfl

theorem recordJoins_of_visitAll {gamma : Float} {view : View} {js : List Plan}
    {vs : List (Visit (Observation Float))} (h : Plan.visitAll js = .ok vs) (n : Node Float) :
    recordJoins gamma view js n = (.ok (), noteAll gamma (Visit.placesAll view [] vs) n) := by
  fun_induction Plan.visitAll js generalizing vs n with
  | case1 =>
    cases h
    exact recordJoins_nil
  | case2 => cases h
  | case3 j js op input hj t ht ih =>
    obtain ⟨vs, hvs, h⟩ := then_ok_iff.1 h
    obtain rfl := done_ok_iff.1 h
    rw [recordJoins_cons_table hj ht]
    simp only [ih hvs]
    rw [atChild_eq_modifyStep]
    simp only [Visit.placesAll, Visit.places, Visit.identifier, List.nil_append, List.singleton_append,
      Visit.placesAll_singleton_path, noteAll_cons, modifyAt_cons, noteAll_under_modifyStep]
    rfl
  | case4 => cases h
  | case5 j js op input hj ht inside hs ihs ih =>
    obtain ⟨is, his, h⟩ := then_ok_iff.1 h
    obtain ⟨vs, hvs, h⟩ := then_ok_iff.1 h
    obtain rfl := done_ok_iff.1 h
    have hne : is ≠ [] := by
      obtain ⟨t, ht', -⟩ | ⟨-, -, hinside⟩ := Plan.input_cases hj
      · rw [ht] at ht'
        cases ht'
      · exact Plan.visitAll_ne_nil his (hinside inside hs)
    rw [recordJoins_cons_join hj ht hs]
    simp only [ihs his, ih hvs, atInside_eq_modifyStep]
    rw [atChild_eq_modifyStep]
    have hplaces : Visit.placesAll view [] (.overJoin input.tables ⟨j.tables, op, j.cost⟩ is :: vs) =
        ([.child ⟨input.tables, none⟩], ⟨j.tables, op, j.cost⟩) ::
          ((Visit.placesAll view [] is).map (Visit.under .inside) ++ Visit.placesAll view [] vs).map
            (Visit.under (.child ⟨input.tables, none⟩)) := by
      simp only [Visit.placesAll, Visit.places, Visit.identifier, List.nil_append,
        List.cons_append, Visit.placesAll_cons_path, List.map_append]
    rw [hplaces, noteAll_cons, modifyAt_cons, noteAll_under_modifyStep]
    congr 2
    funext c
    rw [noteAll_append, noteAll_under gamma .inside (Visit.placesAll_ne_nil view [] hne)]
    rfl

lemma recordJoins_of_checkJoins {js : List Plan} (h : Plan.checkJoins js = .ok ()) (gamma : Float) (view : View)
    (n : Node Float) : (recordJoins gamma view js n).1 = .ok () := by
  rw [Plan.checkJoins_eq_map_visitAll] at h
  obtain ⟨vs, hvs, -⟩ := mapped_ok_iff.1 h
  rw [recordJoins_of_visitAll hvs]

theorem integrate_eq (gamma : Float) (view : View) (js : List Plan) (n : Node Float) :
    n.integrate gamma view js =
      match Plan.visitAll js with
      | .ok vs => (.ok (), noteAll gamma (Visit.placesAll view [] vs) n)
      | .error e => (.error e, n) := by
  rw [integrate, Plan.checkJoins_eq_map_visitAll]
  cases h : Plan.visitAll js with
  | error e => rfl
  | ok vs => exact recordJoins_of_visitAll h n

lemma integrate_of_error {gamma : Float} {view : View} {js : List Plan} {n : Node Float} {e : SynopsisError}
    (h : (n.integrate gamma view js).1 = .error e) : (n.integrate gamma view js).2 = n := by
  rw [integrate_eq] at h ⊢
  cases hvs : Plan.visitAll js with
  | error e => rfl
  | ok vs => simp [hvs] at h

end Node

namespace Synopsis

theorem integrate_eq (s : Synopsis) (q : Query) (p : Plan) :
    s.integrate q p =
      match p.visits with
      | .ok vs =>
        let view := View.ofQuery s.config.filterAware q
        (.ok (), { s with root := s.root.noteAll s.config.gamma (Visit.placesAll view [] vs) })
      | .error e => (.error e, s) := by
  rw [integrate, Plan.visits]
  cases p.joinSequence with
  | error e => rfl
  | ok js =>
    have hvisits : (do Plan.visitAll (← (Except.ok js).mapError .plan)) = Plan.visitAll js := rfl
    rw [hvisits]
    simp only [Node.integrate_eq]
    cases Plan.visitAll js <;> rfl

lemma integrate_of_error {s : Synopsis} {q : Query} {p : Plan} {e : SynopsisError}
    (h : (s.integrate q p).1 = .error e) : (s.integrate q p).2 = s := by
  rw [integrate_eq] at h ⊢
  cases hvs : p.visits with
  | error e => rfl
  | ok vs => simp [hvs] at h

end Synopsis

end OptimizerHints
