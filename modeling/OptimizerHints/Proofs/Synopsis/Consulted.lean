import OptimizerHints.Proofs.Synopsis.Advice
import OptimizerHints.Proofs.Synopsis.Log
import OptimizerHints.Proofs.Synopsis.PlanVisits

/-! Which places of a synopsis are consulted for a tree, and that they are those where the costs of the plan were noted
from which the tree was loaded. -/

namespace OptimizerHints

namespace Node

variable {α : Type}

section Consulted

variable (view : View)

mutual

def consultedVisit : Visit TableSet → Node α → List (List Step × TableSet)
  | .overTable _ ts, _ => [([], ts)]
  | .overJoin _ ts inside, n =>
    ([], ts) ::
      match n.inside with
      | some m => (consultedAll inside m).map (Visit.under .inside)
      | none => []

def consultedAll : List (Visit TableSet) → Node α → List (List Step × TableSet)
  | [], _ => []
  | v :: vs, n =>
    match n.child? (v.identifier view) with
    | some c => (consultedVisit v c ++ consultedAll vs c).map (Visit.under (.child (v.identifier view)))
    | none => []

end

variable {view}

def present (n : Node α) (es : List (List Step × TableSet)) : List (List Step × TableSet) :=
  es.filter fun e => (n.at? e.1).isSome

lemma present_under (n : Node α) (s : Step) (es : List (List Step × TableSet)) :
    n.present (es.map (Visit.under s)) = (n.step? s).elim [] fun c => (c.present es).map (Visit.under s) := by
  have hunder : ((fun e : List Step × TableSet => (n.at? e.1).isSome) ∘ Visit.under s) =
      fun e => ((n.step? s).bind (at? e.1)).isSome := by
    funext e
    rw [Function.comp_apply, Visit.under, at?_cons]
  rw [present, List.filter_map, hunder]
  cases n.step? s with
  | some c => rfl
  | none => simp

lemma present_append (n : Node α) (es es' : List (List Step × TableSet)) :
    n.present (es ++ es') = n.present es ++ n.present es' := List.filter_append ..

mutual

theorem consultedVisit_eq : ∀ (v : Visit TableSet) (n : Node α),
    consultedVisit view v n = n.present (v.places view [])
  | .overTable _ ts, n => by rw [consultedVisit, Visit.places]; rfl
  | .overJoin _ ts inside, n => by
    have hself : n.present (([], ts) :: (Visit.placesAll view [] inside).map (Visit.under .inside)) =
        ([], ts) :: n.present ((Visit.placesAll view [] inside).map (Visit.under .inside)) := rfl
    rw [consultedVisit, Visit.places, List.nil_append, Visit.placesAll_singleton_path, hself, present_under, step?]
    cases n.inside with
    | some m => rw [Option.elim_some, ← consultedAll_eq inside m]
    | none => rfl

theorem consultedAll_eq : ∀ (vs : List (Visit TableSet)) (n : Node α),
    consultedAll view vs n = n.present (Visit.placesAll view [] vs)
  | [], n => by rw [consultedAll, Visit.placesAll]; rfl
  | v :: vs, n => by
    rw [consultedAll, Visit.placesAll, List.nil_append, Visit.places_cons_path, Visit.placesAll_singleton_path,
      ← List.map_append, present_under, step?]
    cases n.child? (v.identifier view) with
    | some c =>
      rw [Option.elim_some, present_append, ← consultedVisit_eq v c, ← consultedAll_eq vs c]
    | none => rfl

end

lemma consultedAll_of_present {vs : List (Visit TableSet)} {n : Node α}
    (h : ∀ e ∈ Visit.placesAll view [] vs, (n.at? e.1).isSome = true) :
    consultedAll view vs n = Visit.placesAll view [] vs := by
  rw [consultedAll_eq, present, List.filter_eq_self.2 h]

end Consulted

section Advice

variable [LE α] [DecidableLE α]

def adviseAt (n : Node α) (a : Assignment) (e : List Step × TableSet) : Except Interrupted Assignment :=
  match n.at? e.1 with
  | some c => adviseJoin e.2 c a
  | none => .ok a

variable {view : View}

lemma foldlM_adviseAt_under {n c : Node α} {s : Step} (h : n.step? s = some c) (es : List (List Step × TableSet))
    (a : Assignment) : (es.map (Visit.under s)).foldlM n.adviseAt a = es.foldlM c.adviseAt a := by
  have hunder : (fun a e => n.adviseAt a (Visit.under s e)) = c.adviseAt := by
    funext a e
    rw [adviseAt, Visit.under, at?_cons, h]
    rfl
  rw [List.foldlM_map, hunder]

mutual

theorem adviseVisit_eq_foldlM : ∀ (v : Visit TableSet) (n : Node α) (a : Assignment),
    adviseVisit view v n a = (consultedVisit view v n).foldlM n.adviseAt a
  | .overTable _ ts, n, a => by
    rw [adviseVisit, consultedVisit, List.foldlM_cons]
    change adviseJoin ts n a = (adviseJoin ts n a >>= pure)
    rw [bind_pure]
  | .overJoin _ ts inside, n, a => by
    rw [adviseVisit, consultedVisit, List.foldlM_cons]
    change (adviseJoin ts n a >>= _) = (adviseJoin ts n a >>= _)
    congr 1
    funext a
    cases h : n.inside with
    | some m =>
      have hstep : n.step? .inside = some m := h
      rw [foldlM_adviseAt_under hstep, ← adviseAll_eq_foldlM inside m a]
    | none => rfl

theorem adviseAll_eq_foldlM : ∀ (vs : List (Visit TableSet)) (n : Node α) (a : Assignment),
    adviseAll view vs n a = (consultedAll view vs n).foldlM n.adviseAt a
  | [], n, a => by rw [adviseAll, consultedAll]; rfl
  | v :: vs, n, a => by
    rw [adviseAll, consultedAll]
    cases h : n.child? (v.identifier view) with
    | some c =>
      have hstep : n.step? (.child (v.identifier view)) = some c := h
      have hrest : (fun a => adviseAll view vs c a) = fun a => (consultedAll view vs c).foldlM c.adviseAt a :=
        funext fun a => adviseAll_eq_foldlM vs c a
      dsimp only
      rw [foldlM_adviseAt_under hstep, List.foldlM_append, ← adviseVisit_eq_foldlM v c a, ← hrest]
    | none => rfl

end

end Advice

section Knows

def operatorsAt (n : Node α) (path : List Step) : List JoinOperator := ((n.ledgerAt? path).getD []).map Prod.fst

lemma exists_of_mem_operatorsAt {n : Node α} {path : List Step} {op : JoinOperator} (h : op ∈ n.operatorsAt path) :
    ∃ c, n.at? path = some c ∧ op ∈ c.costs.map Prod.fst := by
  rw [operatorsAt, ledgerAt?] at h
  cases hc : n.at? path with
  | some c =>
    rw [hc] at h
    exact ⟨c, rfl, h⟩
  | none =>
    rw [hc] at h
    cases h

variable [Add α] [Mul α] {gamma : α}

lemma mem_operatorsAt_modifyAt_iff {n : Node α} {path path' : List Step} {op op' : JoinOperator} {cost : α} :
    op ∈ (n.modifyAt path' (observe gamma op' cost)).operatorsAt path ↔
      op ∈ n.operatorsAt path ∨ path = path' ∧ op = op' := by
  rw [operatorsAt, operatorsAt, ledgerAt?_modifyAt_observe]
  by_cases hpath : path = path'
  · rw [if_pos hpath, Option.getD_some, Ledger.map_fst_observe]
    split
    · next hmem =>
      refine ⟨.inl, fun h => h.elim id ?_⟩
      rintro ⟨-, rfl⟩
      exact hmem
    · simp [hpath]
  · rw [if_neg hpath]
    by_cases hpre : path <+: path' <;> simp [hpath, hpre]

theorem mem_operatorsAt_noteAll_iff {n : Node α} {es : List (List Step × Observation α)} {path : List Step}
    {op : JoinOperator} :
    op ∈ (noteAll gamma es n).operatorsAt path ↔
      op ∈ n.operatorsAt path ∨ ∃ e ∈ es, path = e.1 ∧ op = e.2.operator := by
  induction es generalizing n with
  | nil => simp
  | cons e es ih =>
    rw [noteAll_cons, ih, mem_operatorsAt_modifyAt_iff, List.exists_mem_cons_iff, or_assoc]

end Knows

end Node

namespace JoinNode

@[simp] lemma visits_logical (n : JoinNode) : n.logical.visits = n.visits := by
  induction n with
  | base t i => rfl
  | join l r i ts ihl ihr =>
    rw [logical, visits, visits, ihl, ihr]
    cases l <;> rfl

end JoinNode

namespace Synopsis

lemma visits_logical (t : JoinTree) : t.logical.visits = t.visits := by
  obtain ⟨_ | n⟩ := t
  · rfl
  · exact n.visits_logical

/-- Whatever a synopsis knew before, it can learn from a plan of which every join has an operator and a cost and no
table is scanned twice, and the plan loads as a tree. The walk for this tree, or for its logical form, then consults
just the places where the joins of the plan were noted, with the same tables and in the same order. Every join node
was noted at one of them, and the operator of the join is known there. -/
theorem advice_reads_where_noted {p : Plan} (hp : p.Built)
    (hfit : ∀ j ∈ p.joinNodes, (∃ op, j.operator = some (.join op)) ∧ j.cost.isNaN = false)
    (hscanned : p.scanned.Nodup) (s : Synopsis) (q : Query) :
    let view := View.ofQuery s.config.filterAware q
    let noted := p.observations view
    let places := noted.map fun e => (e.1, e.2.tables)
    let after := (s.integrate q p).2
    (s.integrate q p).1 = .ok () ∧ after.root = s.root.noteAll s.config.gamma noted ∧
      ∃ t, JoinTree.ofPlan p = .ok t ∧
        after.root.consultedAll view t.visits = places ∧ after.root.consultedAll view t.logical.visits = places ∧
        (∀ a, after.root.adviseAll view t.visits a = places.foldlM after.root.adviseAt a) ∧
        (noted.map fun e => some e.2).Perm (p.joinNodes.map Plan.told?) ∧ (places.map Prod.snd).Nodup ∧
        ∀ e ∈ noted, ∃ n, after.root.at? e.1 = some n ∧ e.2.operator ∈ n.costs.map Prod.fst := by
  intro view noted places after
  obtain ⟨vs, hvs⟩ := hp.exists_visits hfit
  obtain ⟨n, hn⟩ := hp.mirrored
  have hsound : n.Sound := hn.summed.sound_iff.2 (by rwa [hp.leaves_eq hn])
  have hload : JoinTree.ofPlan p = .ok ⟨some n⟩ :=
    JoinTree.ofPlan_ok_iff.2 ⟨n, JoinNode.ofPlan_ok_iff.2 ⟨hn, hsound⟩, rfl⟩
  have hnoted : noted = Visit.placesAll view [] vs := by
    change p.observations view = _
    rw [Plan.observations, hvs]
  have hplaces : Visit.placesAll view [] n.visits = places := by
    rw [← hp.relabel_visits hn hvs, Visit.placesAll_relabelAll, ← hnoted]
  have hintegrate : s.integrate q p = (.ok (), { s with root := s.root.noteAll s.config.gamma noted }) := by
    rw [integrate_eq, hvs, hnoted]
  have hroot : after.root = s.root.noteAll s.config.gamma noted := congrArg (fun r => r.2.root) hintegrate
  have hknown : ∀ e ∈ noted, ∃ n, after.root.at? e.1 = some n ∧ e.2.operator ∈ n.costs.map Prod.fst := by
    intro e he
    apply Node.exists_of_mem_operatorsAt
    rw [hroot, Node.mem_operatorsAt_noteAll_iff]
    exact .inr ⟨e, he, rfl, rfl⟩
  have hconsulted : after.root.consultedAll view n.visits = places := by
    rw [← hplaces]
    apply Node.consultedAll_of_present
    rw [hplaces, List.forall_mem_map]
    intro e he
    obtain ⟨c, hc, -⟩ := hknown e he
    exact Option.isSome_of_eq_some hc
  refine ⟨congrArg Prod.fst hintegrate, hroot, ⟨some n⟩, hload, hconsulted, ?_, fun a => ?_, ?_, ?_, hknown⟩
  · rw [visits_logical]
    exact hconsulted
  · rw [← hconsulted]
    exact Node.adviseAll_eq_foldlM n.visits after.root a
  · have hperm := hp.visits_perm hvs view []
    rwa [← hnoted, List.map_map] at hperm
  · rw [← hplaces]
    exact (n.map_snd_places_perm view []).nodup_iff.2 hsound.nodup_joinSets

theorem advice_reads_where_noted_bushy :
    let table (name : String) : TableRef := ⟨name, none, none⟩
    let scan (name : String) : Plan := .scan (table name) none 1 1
    let outer : Plan := .join (some .nestedLoop) (scan "r") (.passing "Hash" (scan "s")) 5 1
    let inner : Plan := .join (some .hash) (scan "u") (scan "v") 7 1
    let p : Plan := .join (some .hash) outer (.passing "Hash" inner) 9 1
    let s : Synopsis := { config := {}, root := { children := [(.ofTable (table "r"), { costs := [(.hash, 3)] })] } }
    let q : Query := { select := "*", sources := [] }
    let view := View.ofQuery s.config.filterAware q
    p.Built ∧ p.scanned.Nodup ∧ (s.integrate q p).1 = .ok () ∧ ∃ t, JoinTree.ofPlan p = .ok t ∧
      ((s.integrate q p).2.root.consultedAll view t.visits).map Prod.snd =
        [.ofList [table "u", table "v"], .ofList [table "r", table "s", table "u", table "v"],
          .ofList [table "r", table "s"]] := by
  intro table scan outer inner p s q view
  have hscan : ∀ name, (scan name).Built := fun name => .scan (table name) none 1 1
  have hpassing : ∀ name, (Plan.passing "Hash" (scan name)).Built := fun name => .passing "Hash" (hscan name)
  have houter : outer.Built := .join _ _ _ (hscan "r") (hpassing "s")
  have hinner : inner.Built := .join _ _ _ (hscan "u") (hscan "v")
  have hp : p.Built := .join _ _ _ houter (.passing "Hash" hinner)
  have hfit : ∀ j ∈ p.joinNodes, (∃ op, j.operator = some (.join op)) ∧ j.cost.isNaN = false := by
    have hnodes : p.joinNodes = [p, outer, inner] := by simp [p, outer, inner, scan]
    rw [hnodes]
    simp only [List.forall_mem_cons, List.not_mem_nil, false_implies, implies_true, and_true]
    exact ⟨⟨⟨_, rfl⟩, by decide +kernel⟩, ⟨⟨_, rfl⟩, by decide +kernel⟩, ⟨_, rfl⟩, by decide +kernel⟩
  have hscanned : p.scanned.Nodup := by decide +kernel
  obtain ⟨hok, -, t, ht, hconsulted, -⟩ := advice_reads_where_noted hp hfit hscanned s q
  refine ⟨hp, hscanned, hok, t, ht, ?_⟩
  rw [hconsulted]
  decide +kernel

end Synopsis

end OptimizerHints
