import OptimizerHints.Proofs.Plan.Built
import OptimizerHints.Proofs.Synopsis.Feedback

namespace OptimizerHints

open Outcome

namespace Visit

variable {α β : Type} (f : α → β)

mutual

def relabel : Visit α → Visit β
  | .overTable t a => .overTable t (f a)
  | .overJoin ts a inside => .overJoin ts (f a) (relabelAll inside)

def relabelAll : List (Visit α) → List (Visit β)
  | [] => []
  | v :: vs => v.relabel :: relabelAll vs

end

lemma relabelAll_append (vs ws : List (Visit α)) : relabelAll f (vs ++ ws) = relabelAll f vs ++ relabelAll f ws := by
  induction vs with
  | nil => rw [relabelAll, List.nil_append, List.nil_append]
  | cons v vs ih => rw [List.cons_append, relabelAll, relabelAll, ih, List.cons_append]

variable (view : View)

@[simp] lemma identifier_relabel (v : Visit α) : (v.relabel f).identifier view = v.identifier view := by
  cases v <;> rw [relabel] <;> rfl

mutual

theorem places_relabel (path : List Step) :
    ∀ v : Visit α, (v.relabel f).places view path = (v.places view path).map fun e => (e.1, f e.2)
  | .overTable _ _ => by rw [relabel, places, places]; rfl
  | .overJoin _ _ inside => by rw [relabel, places, places, placesAll_relabelAll _ inside, List.map_cons]

theorem placesAll_relabelAll (path : List Step) :
    ∀ vs : List (Visit α), placesAll view path (relabelAll f vs) = (placesAll view path vs).map fun e => (e.1, f e.2)
  | [] => by rw [relabelAll, placesAll, placesAll]; rfl
  | v :: vs => by
    rw [relabelAll, placesAll, placesAll, identifier_relabel, places_relabel _ v, placesAll_relabelAll _ vs,
      List.map_append]

end

end Visit

namespace Plan

lemma visits_of_joinSequence {p : Plan} {js : List Plan} (h : p.joinSequence = .ok js) : p.visits = visitAll js := by
  rw [visits, h]
  rfl

lemma visits_of_isScan {p : Plan} (hscan : p.isScan = true) : p.visits = .ok [] := by
  rw [visits_of_joinSequence (joinSequence_of_isScan hscan), visitAll]

def visitOver (input : Plan) (o : Observation Float) : Except SynopsisError (Visit (Observation Float)) :=
  match input.scanTable? with
  | some t => .ok (.overTable t o)
  | none => do return .overJoin input.tables o (← input.visits)

lemma visitAll_cons {j input : Plan} {js : List Plan} {op : JoinOperator} (h : j.joinInput = .ok (op, input)) :
    visitAll (j :: js) = do
      let v ← input.visitOver ⟨j.tables, op, j.cost⟩
      let vs ← visitAll js
      return v :: vs := by
  rw [visitAll, visitOver]
  split
  · next he =>
    rw [h] at he
    cases he
  · next h' =>
    rw [h] at h'
    cases h'
    cases input.scanTable? with
    | some t => rfl
    | none =>
      dsimp only
      split
      · next hs =>
        rw [visits, hs]
        rfl
      · next hs =>
        rw [visits_of_joinSequence hs, bind_assoc]
        rfl

lemma visitAll_cons_error {j : Plan} {js : List Plan} {e : SynopsisError} (h : j.joinInput = .error e) :
    visitAll (j :: js) = .error e := by
  rw [visitAll]
  split <;> simp_all

lemma visitAll_append (js ks : List Plan) :
    visitAll (js ++ ks) = do
      let vs ← visitAll js
      let ws ← visitAll ks
      return vs ++ ws := by
  induction js with
  | nil =>
    rw [List.nil_append, visitAll]
    cases visitAll ks <;> rfl
  | cons j js ih =>
    rw [List.cons_append]
    cases h : j.joinInput with
    | error e =>
      rw [visitAll_cons_error h, visitAll_cons_error h]
      rfl
    | ok found =>
      obtain ⟨op, input⟩ := found
      rw [visitAll_cons h, visitAll_cons h, ih]
      simp only [bind_assoc, pure_bind, List.cons_append]

lemma visitAll_singleton_ok_iff {j : Plan} {us : List (Visit (Observation Float))} :
    visitAll [j] = .ok us ↔ ∃ op input v, j.joinInput = .ok (op, input) ∧
      input.visitOver ⟨j.tables, op, j.cost⟩ = .ok v ∧ us = [v] := by
  cases h : j.joinInput with
  | error e => simp [visitAll_cons_error h]
  | ok found =>
    obtain ⟨op, input⟩ := found
    rw [visitAll_cons h, visitAll, then_ok_iff]
    simp only [Except.ok.injEq, Prod.mk.injEq]
    constructor
    · rintro ⟨v, hv, hus⟩
      exact ⟨op, input, v, ⟨rfl, rfl⟩, hv, (Except.ok.inj hus).symm⟩
    · rintro ⟨_, _, v, ⟨rfl, rfl⟩, hv, rfl⟩
      exact ⟨v, hv, rfl⟩

lemma visits_of_isJoin {p i : Plan} (hscan : p.isScan = false) (hjoin : p.isJoin = true) (hi : p.inner? = some i) :
    p.visits = do
      let vs ← i.visits
      let ws ← visitAll [p]
      return vs ++ ws := by
  have hsequence := joinSequence_of_isJoin hscan hjoin hi
  cases h : i.joinSequence with
  | error e => rw [visits, visits, hsequence, h]; rfl
  | ok js =>
    rw [h] at hsequence
    have hjs : p.joinSequence = .ok (js ++ [p]) := hsequence
    rw [visits_of_joinSequence hjs, visits_of_joinSequence h, visitAll_append]

section Join

variable {op : Option JoinOperator} {o i : Plan} {cost rows : Float}

lemma visits_join :
    (join op o i cost rows).visits = do
      let vs ← i.visits
      let ws ← visitAll [join op o i cost rows]
      return vs ++ ws :=
  visits_of_isJoin rfl rfl rfl

lemma Built.joinInput_join (ho : o.Built) {op' : JoinOperator} {input : Plan} :
    (Plan.join op o i cost rows).joinInput = .ok (op', input) ↔
      op = some op' ∧ cost.isNaN = false ∧ input = o.unwrapped := by
  have houter : (Plan.join op o i cost rows).outer? = some o := rfl
  constructor
  · intro h
    obtain ⟨-, hop, hcost, ⟨outer, houter', rfl⟩, -⟩ := joinInput_eq_ok h
    obtain rfl := Option.some.inj (houter.symm.trans houter')
    refine ⟨?_, hcost, rfl⟩
    cases op with
    | none => cases hop
    | some op => exact hop
  · rintro ⟨rfl, hcost, rfl⟩
    have hcost' : (Plan.join (some op') o i cost rows).cost.isNaN = false := hcost
    have hop : (Plan.join (some op') o i cost rows).operator.bind Operator.asJoin? = some op' := rfl
    have hjoin : (Plan.join (some op') o i cost rows).isJoin = true := rfl
    rw [joinInput, hjoin, hop, houter]
    simp only [hcost', Bool.not_true, Bool.false_eq_true, if_false]
    obtain ⟨hscan, t, ht⟩ | ⟨hscan, hisJoin⟩ := ho.unwrapped_cases
    · have htable : o.unwrapped.table = some t := by rwa [scanTable?, if_pos hscan] at ht
      simp [hscan, htable]
    · simp [hscan, hisJoin]

theorem Built.visits_join_ok_iff (ho : o.Built) {us : List (Visit (Observation Float))} :
    (Plan.join op o i cost rows).visits = .ok us ↔ ∃ op' vs v, op = some op' ∧ cost.isNaN = false ∧ i.visits = .ok vs ∧
      o.unwrapped.visitOver ⟨(Plan.join op o i cost rows).tables, op', cost⟩ = .ok v ∧ us = vs ++ [v] := by
  rw [visits_join]
  simp only [then_ok_iff, done_ok_iff, visitAll_singleton_ok_iff, ho.joinInput_join]
  constructor
  · rintro ⟨vs, hvs, _, ⟨op', _, v, ⟨hop, hcost, rfl⟩, hv, rfl⟩, rfl⟩
    exact ⟨op', vs, v, hop, hcost, hvs, hv, rfl⟩
  · rintro ⟨op', vs, v, hop, hcost, hvs, hv, rfl⟩
    exact ⟨vs, hvs, [v], ⟨op', _, v, ⟨hop, hcost, rfl⟩, hv, rfl⟩, rfl⟩

end Join

lemma visits_scan (t : TableRef) (op : Option ScanOperator) (cost rows : Float) :
    (scan t op cost rows).visits = .ok [] :=
  visits_of_isScan rfl

@[simp] lemma visits_passing (nodeType : String) (c : Plan) : (passing nodeType c).visits = c.visits := by
  rw [visits, joinSequence_passing, visits]

@[simp] lemma visits_unwrapped (p : Plan) : p.unwrapped.visits = p.visits := by
  rw [visits, joinSequence_unwrapped, visits]

def told? (j : Plan) : Option (Observation Float) :=
  (j.operator.bind Operator.asJoin?).map fun op => ⟨j.tables, op, j.cost⟩

lemma told?_eq_some_iff {j : Plan} {o : Observation Float} :
    j.told? = some o ↔ j.operator = some (.join o.operator) ∧ j.tables = o.tables ∧ j.cost = o.cost := by
  obtain ⟨ts, op, cost⟩ := o
  rw [told?]
  cases j.operator with
  | none => simp
  | some jop => cases jop <;> simp [Operator.asJoin?, and_left_comm]

variable {p o : Plan} {n l : JoinNode} {vs : List (Visit (Observation Float))} {v : Visit (Observation Float)}
  {obs : Observation Float}

lemma visitOver_ok_iff :
    o.unwrapped.visitOver obs = .ok v ↔ (∃ t, o.unwrapped.scanTable? = some t ∧ v = .overTable t obs) ∨
      o.unwrapped.scanTable? = none ∧ ∃ os, o.visits = .ok os ∧ v = .overJoin o.tables obs os := by
  rw [visitOver]
  cases o.unwrapped.scanTable? with
  | some t => simp [eq_comm]
  | none =>
    simp only [then_ok_iff, done_ok_iff, visits_unwrapped, tables_unwrapped, reduceCtorEq, false_and, exists_false,
      false_or, true_and]
    exact exists_congr fun os => and_congr_right fun _ => eq_comm

lemma relabel_of_visitOver (ho : o.Built) (hl : l.Mirrors o) (hv : o.unwrapped.visitOver obs = .ok v)
    (ih : ∀ os, o.visits = .ok os → Visit.relabelAll Observation.tables os = l.visits) :
    v.relabel Observation.tables = l.visitOver obs.tables l.visits := by
  have htables := ho.tables_eq hl
  cases hl with
  | @scan _ t hscan ht =>
    have hself : o.unwrapped.scanTable? = some t := by rw [scanTable?, if_pos hscan, ht]
    obtain ⟨t', ht', rfl⟩ | ⟨hnone, -⟩ := visitOver_ok_iff.1 hv
    · obtain rfl := Option.some.inj (hself.symm.trans ht')
      rw [Visit.relabel]
      rfl
    · rw [hself] at hnone
      cases hnone
  | join hscan =>
    have hself : o.unwrapped.scanTable? = none := by rw [scanTable?, hscan]; rfl
    obtain ⟨t', ht', -⟩ | ⟨-, os, hos, rfl⟩ := visitOver_ok_iff.1 hv
    · rw [hself] at ht'
      cases ht'
    · rw [Visit.relabel, ih os hos, ← htables]
      rfl

theorem Built.relabel_visits (h : p.Built) (hn : n.Mirrors p) (hvs : p.visits = .ok vs) :
    Visit.relabelAll Observation.tables vs = n.visits := by
  induction h generalizing n vs with
  | scan =>
    rw [visits_scan] at hvs
    obtain rfl := Except.ok.inj hvs
    obtain rfl := JoinNode.mirrors_scan_iff.1 hn
    rw [Visit.relabelAll, JoinNode.visits]
  | @join o i op cost rows ho hi iho ihi =>
    obtain ⟨op', us, v, rfl, hcost, hus, hv, rfl⟩ := ho.visits_join_ok_iff.1 hvs
    obtain ⟨l, r, hl, hr, rfl⟩ := JoinNode.mirrors_join_iff.1 hn
    have htables := (ho.join (some op') cost rows hi).tables_eq hn
    have hlast := relabel_of_visitOver ho hl hv fun os hos => iho hl hos
    rw [Visit.relabelAll_append, ihi hr hus, Visit.relabelAll, Visit.relabelAll, hlast, JoinNode.visits, ← htables]
    rfl
  | passing nodeType _ ih =>
    rw [visits_passing] at hvs
    exact ih (JoinNode.mirrors_passing_iff.1 hn) hvs

theorem Built.exists_visits (h : p.Built)
    (hfit : ∀ j ∈ p.joinNodes, (∃ op, j.operator = some (.join op)) ∧ j.cost.isNaN = false) :
    ∃ vs, p.visits = .ok vs := by
  induction h with
  | scan => exact ⟨[], visits_scan ..⟩
  | @join o i op cost rows ho hi iho ihi =>
    rw [joinNodes_join, List.forall_mem_cons, List.forall_mem_append] at hfit
    obtain ⟨⟨⟨op', hop⟩, hcost⟩, hfito, hfiti⟩ := hfit
    obtain ⟨os, hos⟩ := iho hfito
    obtain ⟨us, hus⟩ := ihi hfiti
    have hop' : op = some op' := by
      cases op with
      | none => cases hop
      | some op => exact congrArg some (Operator.join.inj (Option.some.inj hop))
    obtain ⟨v, hv⟩ : ∃ v, o.unwrapped.visitOver ⟨(Plan.join op o i cost rows).tables, op', cost⟩ = .ok v := by
      cases ht : o.unwrapped.scanTable? with
      | some t => exact ⟨_, visitOver_ok_iff.2 (.inl ⟨t, ht, rfl⟩)⟩
      | none => exact ⟨_, visitOver_ok_iff.2 (.inr ⟨ht, os, hos, rfl⟩)⟩
    exact ⟨_, ho.visits_join_ok_iff.2 ⟨op', us, v, hop', hcost, hus, hv, rfl⟩⟩
  | passing nodeType _ ih =>
    rw [joinNodes_passing] at hfit
    rw [visits_passing]
    exact ih hfit

lemma visitOver_perm (hv : o.unwrapped.visitOver obs = .ok v) (view : View) (path : List Step)
    (ih : ∀ os path, o.visits = .ok os →
      (((Visit.placesAll view path os).map Prod.snd).map some).Perm (o.joinNodes.map told?)) :
    (((v.places view path).map Prod.snd).map some).Perm (some obs :: o.joinNodes.map told?) := by
  obtain ⟨t, ht, rfl⟩ | ⟨-, os, hos, rfl⟩ := visitOver_ok_iff.1 hv
  · rw [joinNodes_of_isScan (isScan_of_scanTable? ht), Visit.places]
    exact .refl _
  · rw [Visit.places]
    exact (ih os _ hos).cons (some obs)

theorem Built.visits_perm (h : p.Built) (hvs : p.visits = .ok vs) (view : View) (path : List Step) :
    (((Visit.placesAll view path vs).map Prod.snd).map some).Perm (p.joinNodes.map told?) := by
  induction h generalizing vs path with
  | scan =>
    rw [visits_scan] at hvs
    obtain rfl := Except.ok.inj hvs
    rw [joinNodes_scan, Visit.placesAll]
    exact .refl _
  | @join o i op cost rows ho hi iho ihi =>
    obtain ⟨op', us, v, rfl, hcost, hus, hv, rfl⟩ := ho.visits_join_ok_iff.1 hvs
    have hlast := visitOver_perm hv view [.child (v.identifier view)] fun os path hos => iho hos path
    rw [Visit.map_snd_placesAll_append, Visit.placesAll, Visit.placesAll, List.append_nil, List.map_append,
      joinNodes_join, List.map_cons, List.map_append]
    exact (List.perm_append_comm.trans (hlast.append (ihi hus path)))
  | passing nodeType _ ih =>
    rw [visits_passing] at hvs
    rw [joinNodes_passing]
    exact ih hvs path

end Plan

end OptimizerHints
