import OptimizerHints.Proofs.Synopsis.Consulted

/-! A synopsis sees a query only through the filters on the base tables that are outer inputs of joins. -/

namespace OptimizerHints

open Outcome

namespace Visit

variable {α : Type} {view view' : View}

mutual

def overTables : Visit α → List TableRef
  | .overTable t _ => [t]
  | .overJoin _ _ inside => overTablesAll inside

def overTablesAll : List (Visit α) → List TableRef
  | [] => []
  | v :: vs => v.overTables ++ overTablesAll vs

end

lemma overTablesAll_append (vs ws : List (Visit α)) :
    overTablesAll (vs ++ ws) = overTablesAll vs ++ overTablesAll ws := by
  induction vs with
  | nil => rw [overTablesAll, List.nil_append, List.nil_append]
  | cons v vs ih => rw [List.cons_append, overTablesAll, overTablesAll, ih, List.append_assoc]

lemma identifier_congr {v : Visit α} (h : ∀ t ∈ v.overTables, view t = view' t) :
    v.identifier view = v.identifier view' := by
  cases v with
  | overTable t a =>
    rw [overTables, List.forall_mem_singleton] at h
    exact congrArg (Identifier.mk (.singleton t)) h
  | overJoin ts a inside => rfl

mutual

theorem places_congr (path : List Step) : ∀ v : Visit α, (∀ t ∈ v.overTables, view t = view' t) →
    v.places view path = v.places view' path
  | .overTable _ _, _ => by rw [places, places]
  | .overJoin _ _ inside, h => by
    rw [overTables] at h
    rw [places, places, placesAll_congr _ inside h]

theorem placesAll_congr (path : List Step) : ∀ vs : List (Visit α), (∀ t ∈ overTablesAll vs, view t = view' t) →
    placesAll view path vs = placesAll view' path vs
  | [], _ => by rw [placesAll, placesAll]
  | v :: vs, h => by
    rw [overTablesAll, List.forall_mem_append] at h
    obtain ⟨hv, hvs⟩ := h
    rw [placesAll, placesAll, identifier_congr hv, places_congr _ v hv, placesAll_congr _ vs hvs]

end

end Visit

namespace Node

lemma adviseAll_congr {α : Type} [LE α] [DecidableLE α] {view view' : View} {vs : List (Visit TableSet)}
    (h : ∀ t ∈ Visit.overTablesAll vs, view t = view' t) (n : Node α) (a : Assignment) :
    adviseAll view vs n a = adviseAll view' vs n a := by
  rw [adviseAll_eq_foldlM, adviseAll_eq_foldlM, consultedAll_eq, consultedAll_eq, Visit.placesAll_congr [] vs h]

end Node

namespace Plan

variable {p o i c j : Plan} {t : TableRef} {js : List Plan}

def ScansOuter (p : Plan) (t : TableRef) : Prop :=
  p.HasJoin fun j => ∃ o, j.outer? = some o ∧ o.unwrapped.scanTable? = some t

section Constructors

variable {sop : Option ScanOperator} {jop : Option JoinOperator} {cost rows : Float} {nodeType : String} {x : TableRef}

@[simp] lemma scanTable?_scan : (scan x sop cost rows).scanTable? = some x := rfl

@[simp] lemma scanTable?_join : (join jop o i cost rows).scanTable? = none := rfl

@[simp] lemma not_scansOuter_scan : ¬(scan x sop cost rows).ScansOuter t := by
  apply not_hasJoin_of_isScan
  rw [unwrapped_scan]
  rfl

@[simp] lemma scansOuter_join_iff : (join jop o i cost rows).ScansOuter t ↔
    o.ScansOuter t ∨ i.ScansOuter t ∨ o.unwrapped.scanTable? = some t := by
  have hself := unwrapped_join jop o i cost rows
  have houter : (join jop o i cost rows).outer? = some o := rfl
  rw [ScansOuter, hasJoin_join_iff (by rw [hself]; rfl) (by rw [hself]; rfl) (o := o) (i := i) (by rw [hself]; rfl)
    (by rw [hself]; rfl), hself, houter]
  simp only [Option.some.injEq, exists_eq_left', ScansOuter]

@[simp] lemma scansOuter_passing_iff : (passing nodeType c).ScansOuter t ↔ c.ScansOuter t := by
  rw [ScansOuter, ← hasJoin_unwrapped, unwrapped_passing, hasJoin_unwrapped]
  rfl

end Constructors

lemma of_mem_joinSequence (h : p.joinSequence = .ok js) (hj : j ∈ js) :
    j.isScan = false ∧ j.isJoin = true ∧ ∃ path, p.Reaches path j := by
  fun_induction joinSequence p generalizing js with
  | case1 =>
    obtain rfl := Except.ok.inj h
    cases hj
  | case2 p hscan hjoin c hc ih =>
    have hself := unwrapped_of_isJoin hjoin
    obtain ⟨before, hbefore, h⟩ := then_ok_iff.1 h
    obtain rfl := done_ok_iff.1 h
    obtain hj | hj := List.mem_append.1 hj
    · obtain ⟨hjscan, hjjoin, path, hpath⟩ := ih hbefore hj
      rw [← hself] at hscan hjoin hc
      exact ⟨hjscan, hjjoin, .right :: path, .inner (Bool.eq_false_iff.2 hscan) hjoin hc hpath⟩
    · obtain rfl := List.mem_singleton.1 hj
      exact ⟨Bool.eq_false_iff.2 hscan, hjoin, [], .self hjoin⟩
  | case3 => cases h
  | case4 p hscan hjoin c hc ih =>
    obtain ⟨hjscan, hjjoin, path, hpath⟩ := ih h hj
    exact ⟨hjscan, hjjoin, path, hpath.of_unwrapped_eq (unwrapped_of_passed hc).symm⟩
  | case5 => cases h

lemma HasJoin.of_mem_joinSequence {P : Plan → Prop} (h : j.HasJoin P) (hjs : p.joinSequence = .ok js) (hj : j ∈ js) :
    p.HasJoin P := by
  obtain ⟨-, -, path, hpath⟩ := Plan.of_mem_joinSequence hjs hj
  exact h.of_reaches hpath

lemma exists_scansOuter {vs : List (Visit (Observation Float))} (hjs : ∀ j ∈ js, j.isScan = false)
    (h : visitAll js = .ok vs) (ht : t ∈ Visit.overTablesAll vs) : ∃ j ∈ js, j.ScansOuter t := by
  fun_induction visitAll js generalizing vs with
  | case1 =>
    obtain rfl := Except.ok.inj h
    rw [Visit.overTablesAll] at ht
    cases ht
  | case2 => cases h
  | case3 j js op input hj x hx ih =>
    obtain ⟨hscan, hjs⟩ := List.forall_mem_cons.1 hjs
    obtain ⟨ws, hws, h⟩ := then_ok_iff.1 h
    obtain rfl := done_ok_iff.1 h
    rw [Visit.overTablesAll, Visit.overTables, List.singleton_append] at ht
    obtain rfl | ht := List.mem_cons.1 ht
    · obtain ⟨hjoin, -, -, ⟨o, ho, rfl⟩, -⟩ := joinInput_eq_ok hj
      exact ⟨j, List.mem_cons_self, [], j, .self hjoin, hscan, hjoin, o, ho, hx⟩
    · obtain ⟨k, hk, hkt⟩ := ih hjs hws ht
      exact ⟨k, List.mem_cons_of_mem j hk, hkt⟩
  | case4 => cases h
  | case5 j js op input hj hx inside hinside ihs ih =>
    obtain ⟨hscan, hjs⟩ := List.forall_mem_cons.1 hjs
    obtain ⟨us, hus, h⟩ := then_ok_iff.1 h
    obtain ⟨ws, hws, h⟩ := then_ok_iff.1 h
    obtain rfl := done_ok_iff.1 h
    rw [Visit.overTablesAll, Visit.overTables] at ht
    obtain ht | ht := List.mem_append.1 ht
    · -- a join inside the outer input is reached through it
      obtain ⟨hjoin, -, -, ⟨o, ho, rfl⟩, -⟩ := joinInput_eq_ok hj
      obtain ⟨k, hk, hkt⟩ := ihs (fun k hk => (of_mem_joinSequence hinside hk).1) hus ht
      have hinput : o.unwrapped.ScansOuter t := hkt.of_mem_joinSequence hinside hk
      have hself := unwrapped_of_isJoin hjoin
      rw [← hself] at hscan hjoin ho
      exact ⟨j, List.mem_cons_self, hinput.of_reaches (.outer hscan hjoin ho (.here o))⟩
    · obtain ⟨k, hk, hkt⟩ := ih hjs hws ht
      exact ⟨k, List.mem_cons_of_mem j hk, hkt⟩

lemma scansOuter_of_visits {vs : List (Visit (Observation Float))} (h : p.visits = .ok vs)
    (ht : t ∈ Visit.overTablesAll vs) : p.ScansOuter t := by
  obtain ⟨js, hjs, hvs⟩ := then_ok_iff.1 h
  have hjs := renamed_ok_iff.1 hjs
  obtain ⟨j, hj, hjt⟩ := exists_scansOuter (fun j hj => (of_mem_joinSequence hjs hj).1) hvs ht
  exact hjt.of_mem_joinSequence hjs hj

end Plan

namespace JoinNode

variable {n l r : JoinNode} {t x : TableRef} {info : NodeInfo} {ts : TableSet}

def OuterLeaf (n : JoinNode) (x : TableRef) : Prop := ∃ i r info ts, join (base x i) r info ts ∈ n.joins

@[simp] lemma not_outerLeaf_base : ¬(base t info).OuterLeaf x := by simp [OuterLeaf, joins]

@[simp] lemma outerLeaf_join_iff :
    (join l r info ts).OuterLeaf x ↔ (∃ i, l = base x i) ∨ l.OuterLeaf x ∨ r.OuterLeaf x := by
  simp only [OuterLeaf, joins, List.mem_cons, List.mem_append, join.injEq, exists_or, eq_comm (b := l)]
  simp

lemma mem_overTables_visitOver_iff {inside : List (Visit TableSet)} :
    x ∈ (l.visitOver ts inside).overTables ↔
      (∃ i, l = base x i) ∨ (∀ t i, l ≠ base t i) ∧ x ∈ Visit.overTablesAll inside := by
  cases l with
  | base t i => simp [visitOver, Visit.overTables, eq_comm]
  | join l r info s => simp [visitOver, Visit.overTables]

lemma mem_overTablesAll_visits_iff : x ∈ Visit.overTablesAll n.visits ↔ n.OuterLeaf x := by
  induction n with
  | base t i => simp [visits, Visit.overTablesAll]
  | join l r info ts ihl ihr =>
    rw [visits, Visit.overTablesAll_append, List.mem_append, ihr, Visit.overTablesAll, Visit.overTablesAll,
      List.append_nil, mem_overTables_visitOver_iff, ihl, outerLeaf_join_iff]
    cases l with
    | base t i => simp [or_comm]
    | join => simp [or_comm]

end JoinNode

namespace JoinTree

def OuterLeaf (t : JoinTree) (x : TableRef) : Prop := ∃ i r info ts, .join (.base x i) r info ts ∈ t.joins

lemma outerLeaf_of_mem_visits {t : JoinTree} {x : TableRef} (h : x ∈ Visit.overTablesAll t.visits) :
    t.OuterLeaf x := by
  obtain ⟨_ | n⟩ := t
  · cases h
  · exact JoinNode.mem_overTablesAll_visits_iff.1 h

end JoinTree

lemma Query.filterFor?_withFilter_of_ne (q : Query) {x y : TableRef} (f : Filter) (h : y ≠ x) :
    (q.withFilter x f).filterFor? y = q.filterFor? y := q.filters.get?_insert_of_ne h f

namespace Synopsis

section Runs

variable (s : Synopsis) {q q' : Query} {p : Plan} {t : JoinTree}

lemma integrate_congr
    (h : ∀ x, p.ScansOuter x → View.ofQuery s.config.filterAware q x = View.ofQuery s.config.filterAware q' x) :
    s.integrate q p = s.integrate q' p := by
  rw [integrate_eq, integrate_eq]
  cases hvs : p.visits with
  | error e => rfl
  | ok vs =>
    have hplaces := Visit.placesAll_congr [] vs fun x hx => h x (Plan.scansOuter_of_visits hvs hx)
    dsimp only
    rw [hplaces]

lemma recommend_congr
    (h : ∀ x, t.OuterLeaf x → View.ofQuery s.config.filterAware q x = View.ofQuery s.config.filterAware q' x) :
    s.recommend q t = s.recommend q' t := by
  have hadvise := Node.adviseAll_congr (n := s.root) fun x hx => h x (JoinTree.outerLeaf_of_mem_visits hx)
  rw [recommend, recommend]
  simp only [hadvise]

end Runs

/-- Whatever else two queries say, a synopsis learns the same from a plan and recommends the same for a tree if they
have the same filters on the outer base tables of joins, and in any case if it does not tell filters apart. A filter on
another table makes no difference. -/
theorem sees_outer_filters_only (s : Synopsis) (q q' : Query) (p : Plan) (t : JoinTree) :
    (s.config.filterAware = false → s.integrate q p = s.integrate q' p ∧ s.recommend q t = s.recommend q' t) ∧
      ((∀ x, p.ScansOuter x → q.filterFor? x = q'.filterFor? x) → s.integrate q p = s.integrate q' p) ∧
      ((∀ x, t.OuterLeaf x → q.filterFor? x = q'.filterFor? x) → s.recommend q t = s.recommend q' t) ∧
      (∀ x f, ¬p.ScansOuter x → s.integrate (q.withFilter x f) p = s.integrate q p) ∧
      (∀ x f, ¬t.OuterLeaf x → s.recommend (q.withFilter x f) t = s.recommend q t) ∧
      (q.filters = q'.filters → s.integrate q p = s.integrate q' p ∧ s.recommend q t = s.recommend q' t) := by
  have hview : ∀ {q q' : Query} {x : TableRef}, q.filterFor? x = q'.filterFor? x →
      View.ofQuery s.config.filterAware q x = View.ofQuery s.config.filterAware q' x := by
    intro q q' x h
    rw [View.ofQuery, View.ofQuery, h]
  refine ⟨fun haware => ?_, fun h => ?_, fun h => ?_, fun x f hx => ?_, fun x f hx => ?_, fun h => ?_⟩
  · have hblind : View.ofQuery s.config.filterAware q = View.ofQuery s.config.filterAware q' := by
      rw [haware]
      rfl
    exact ⟨s.integrate_congr fun x _ => congrFun hblind x, s.recommend_congr fun x _ => congrFun hblind x⟩
  · exact s.integrate_congr fun x hx => hview (h x hx)
  · exact s.recommend_congr fun x hx => hview (h x hx)
  · refine s.integrate_congr fun y hy => hview (q.filterFor?_withFilter_of_ne f ?_)
    rintro rfl
    exact hx hy
  · refine s.recommend_congr fun y hy => hview (q.filterFor?_withFilter_of_ne f ?_)
    rintro rfl
    exact hx hy
  · have hsame : ∀ x, q.filterFor? x = q'.filterFor? x := fun x => congrArg (·.get? x) h
    exact ⟨s.integrate_congr fun x _ => hview (hsame x), s.recommend_congr fun x _ => hview (hsame x)⟩

theorem sees_outer_filters_only_bushy :
    let table (name : String) : TableRef := ⟨name, none, none⟩
    let scan (name : String) : Plan := .scan (table name) none 1 1
    let outer : Plan := .join (some .nestedLoop) (.passing "Sort" (scan "r")) (scan "s") 5 1
    let inner : Plan := .join (some .hash) (scan "u") (.passing "Hash" (scan "v")) 7 1
    let p : Plan := .join (some .hash) (.passing "Sort" outer) inner 9 1
    let node (l r : JoinNode) : JoinNode := .join l r {} (l.tables ∪ r.tables)
    let leaf (name : String) : JoinNode := .ofTable (table name)
    let t : JoinTree := ⟨some (node (node (leaf "r") (leaf "s")) (node (leaf "u") (leaf "v")))⟩
    let known : Node Float := { costs := [(.hash, 3), (.sortMerge, 2)] }
    let s : Synopsis := { config := { filterAware := true }, root := { children := [(.ofTable (table "u"), known)] } }
    let blind : Synopsis := { s with config := {} }
    let q : Query := { select := "*", sources := [], filters := SortedMap.empty.insert (table "r") ⟨"r.a < 3", []⟩ }
    let q' : Query := { (q.withFilter (table "s") ⟨"s.b = 4", []⟩).withFilter (table "v") ⟨"v.c = 5", []⟩ with
      select := "count(*)", condition := some "s.b = 4 AND v.c = 5" }
    let bare : Query := { select := "*", sources := [] }
    (s.integrate q p).1 = .ok () ∧ s.integrate q p = s.integrate q' p ∧ s.recommend q t = s.recommend q' t ∧
      s.integrate (q.withFilter (table "s") ⟨"s.b = 4", []⟩) p = s.integrate q p ∧
      s.recommend (q.withFilter (table "s") ⟨"s.b = 4", []⟩) t = s.recommend q t ∧
      blind.integrate q p = blind.integrate bare p ∧ blind.recommend q t = blind.recommend bare t := by
  intro table scan outer inner p node leaf t known s blind q q' bare
  have hscans : ∀ x, p.ScansOuter x ↔ x = table "r" ∨ x = table "u" := by
    intro x
    simp [p, outer, inner, scan, eq_comm]
  have hleaves : ∀ x, t.OuterLeaf x ↔ x = table "r" ∨ x = table "u" := by
    intro x
    have hroot : t.OuterLeaf x ↔ (node (node (leaf "r") (leaf "s")) (node (leaf "u") (leaf "v"))).OuterLeaf x := Iff.rfl
    simp [hroot, node, leaf, JoinNode.ofTable, eq_comm]
  have hsame : ∀ x, x = table "r" ∨ x = table "u" → q.filterFor? x = q'.filterFor? x := by
    rintro x (rfl | rfl) <;> decide +kernel
  have hs : ¬(table "s" = table "r" ∨ table "s" = table "u") := by decide
  have hok : (s.integrate q p).1 = .ok () := by
    decide +kernel
  obtain ⟨-, hintegrate, hrecommend, hinner, hinner', -⟩ := sees_outer_filters_only s q q' p t
  obtain ⟨hblind, -⟩ := sees_outer_filters_only blind q bare p t
  exact ⟨hok, hintegrate fun x hx => hsame x ((hscans x).1 hx), hrecommend fun x hx => hsame x ((hleaves x).1 hx),
    hinner _ _ fun h => hs ((hscans _).1 h), hinner' _ _ fun h => hs ((hleaves _).1 h), hblind rfl⟩

end Synopsis

end OptimizerHints
