import OptimizerHints.Proofs.JoinTree.Leaves
import OptimizerHints.Proofs.Synopsis.Routes

/-! What a path tells of the tables of the join it leads to: all but one, which is the innermost inner input. -/

namespace OptimizerHints

/-- What a path spells: the tables of the outer inputs that it names since it last went inside one of them, those of
the last one that it names, and those of the one that it went inside. -/
structure Spelling where
  outer : TableSet := ∅
  last : TableSet := ∅
  within : Option TableSet := none

namespace Spelling

def next (w : Spelling) : Step → Spelling
  | .child id => { w with outer := w.outer ∪ id.tables, last := id.tables }
  | .inside => { within := some w.last }

def ofPath (path : List Step) : Spelling := path.foldl next {}

@[simp] lemma ofPath_concat (path : List Step) (s : Step) : ofPath (path ++ [s]) = (ofPath path).next s := by
  simp [ofPath]

@[simp] lemma ofPath_into (path : List Step) (id : Identifier) :
    ofPath (path ++ [.child id, .inside]) = { within := some id.tables } := by
  simp [ofPath, next]

/-- A join of these tables can lie at the end of the path: they are those of the outer inputs and one more, and within
the outer input that contains the join. The one is not among the others if no table is joined twice. -/
structure Fits (w : Spelling) (apart : Prop) (ts : TableSet) : Prop where
  oneMore : ∃ t, ts = w.outer.insert t ∧ (apart → t ∉ w.outer)
  confined : ∀ all, w.within = some all → ∀ t ∈ ts, t ∈ all

variable {w : Spelling} {apart apart' : Prop} {ts all : TableSet}

lemma Fits.mono (h : w.Fits apart ts) (himp : apart' → apart) : w.Fits apart' ts := by
  obtain ⟨⟨t, hts, hapart⟩, hconfined⟩ := h
  exact ⟨⟨t, hts, fun h' => hapart (himp h')⟩, hconfined⟩

lemma Fits.eq_within (h : w.Fits True ts) (hall : w.Fits apart all) (hwithin : w.within = some all) : ts = all := by
  obtain ⟨⟨t, rfl, hapart⟩, hconfined⟩ := h
  obtain ⟨⟨t', rfl, -⟩, -⟩ := hall
  -- the table that is added to the outer inputs is the one that they lack of the whole
  rcases SortedSet.mem_insert.1 (hconfined _ hwithin t (SortedSet.mem_insert.2 (.inl rfl))) with rfl | ht
  · rfl
  · exact (hapart trivial ht).elim

end Spelling

namespace Visit

variable {α : Type} (view : View)

def steps (vs : List (Visit α)) : List Step := vs.map fun v => .child (v.identifier view)

lemma placesAll_append (path : List Step) (vs ws : List (Visit α)) :
    placesAll view path (vs ++ ws) = placesAll view path vs ++ placesAll view (path ++ steps view vs) ws := by
  induction vs generalizing path with
  | nil => rw [List.nil_append, placesAll, steps, List.map_nil, List.append_nil, List.nil_append]
  | cons v vs ih =>
    have hsteps : path ++ steps view (v :: vs) = path ++ [.child (v.identifier view)] ++ steps view vs := by
      simp [steps]
    rw [List.cons_append, placesAll, placesAll, ih, hsteps, ← List.append_assoc]

end Visit

namespace JoinNode

def innermost : JoinNode → TableRef
  | base t _ => t
  | join _ r _ _ => r.innermost

@[simp] lemma tables_seenAs (view : View) (n : JoinNode) : (n.seenAs view).tables = n.tables := by
  cases n <;> rfl

section Join

variable (view : View) (l r : JoinNode) (i : NodeInfo) (ts : TableSet) (path : List Step)

lemma steps_visits_join :
    Visit.steps view (join l r i ts).visits = Visit.steps view r.visits ++ [.child (l.seenAs view)] := by
  simp [Visit.steps, visits]

lemma placesAll_join :
    Visit.placesAll view path (join l r i ts).visits =
      Visit.placesAll view path r.visits ++
        (path ++ Visit.steps view (join l r i ts).visits, ts) ::
          Visit.placesAll view (path ++ Visit.steps view r.visits ++ [.child (l.seenAs view), .inside]) l.visits := by
  rw [steps_visits_join, visits, Visit.placesAll_append, placesAll_cons_visit, Visit.placesAll, List.append_nil,
    List.append_assoc path]

end Join

variable {view : View} {n : JoinNode} {path : List Step}

lemma within_steps (n : JoinNode) (path : List Step) :
    (Spelling.ofPath (path ++ Visit.steps view n.visits)).within = (Spelling.ofPath path).within := by
  induction n with
  | base t i => rw [visits, Visit.steps, List.map_nil, List.append_nil]
  | join l r i ts _ ihr =>
    rw [steps_visits_join, ← List.append_assoc, Spelling.ofPath_concat]
    exact ihr

lemma Summed.tables_eq_insert (view : View) (h : n.Summed) (hpath : (Spelling.ofPath path).outer = ∅) :
    n.tables = (Spelling.ofPath (path ++ Visit.steps view n.visits)).outer.insert n.innermost := by
  -- along the right spine each join adds the tables of its left input, and only the leaf at the end is never named
  induction n with
  | base t i =>
    rw [visits, Visit.steps, List.map_nil, List.append_nil, hpath]
    rfl
  | join l r i ts _ ihr =>
    obtain ⟨-, hr, rfl⟩ := h
    rw [steps_visits_join, ← List.append_assoc, Spelling.ofPath_concat]
    apply SortedSet.ext
    intro t
    have hmem : t ∈ r.tables ↔
        t = r.innermost ∨ t ∈ (Spelling.ofPath (path ++ Visit.steps view r.visits)).outer := by
      rw [ihr hr, SortedSet.mem_insert]
    rw [tables, Spelling.next, SortedSet.mem_insert, SortedSet.mem_union, SortedSet.mem_union, tables_seenAs, hmem,
      innermost]
    exact or_left_comm.trans (or_congr_right or_comm)

lemma Sound.innermost_not_mem (h : n.Sound) (hpath : (Spelling.ofPath path).outer = ∅) :
    n.innermost ∉ (Spelling.ofPath (path ++ Visit.steps view n.visits)).outer := by
  induction n with
  | base t i =>
    rw [visits, Visit.steps, List.map_nil, List.append_nil, hpath]
    exact List.not_mem_nil
  | join l r i ts _ ihr =>
    obtain ⟨-, hr, -, hdisjoint⟩ := h
    have hmem : r.innermost ∈ r.tables := by
      rw [hr.summed.tables_eq_insert view hpath]
      exact SortedSet.mem_insert.2 (.inl rfl)
    rw [steps_visits_join, ← List.append_assoc, Spelling.ofPath_concat]
    simp only [innermost, Spelling.next, tables_seenAs, SortedSet.mem_union, not_or]
    exact ⟨ihr hr, fun hl => hdisjoint _ hl hmem⟩

theorem Summed.placesAll_fit (h : n.Summed) (hpath : (Spelling.ofPath path).outer = ∅)
    (hwithin : ∀ all, (Spelling.ofPath path).within = some all → ∀ t ∈ n.tables, t ∈ all) :
    ∀ e ∈ Visit.placesAll view path n.visits, (Spelling.ofPath e.1).Fits n.Sound e.2 := by
  induction n generalizing path with
  | base t i => exact nofun
  | join l r i ts ihl ihr =>
    have hself := h.tables_eq_insert view hpath
    obtain ⟨hl, hr, hts⟩ := h
    rw [placesAll_join, List.forall_mem_append, List.forall_mem_cons]
    refine ⟨fun e he => ?_, ⟨⟨r.innermost, hself, fun hsound => hsound.innermost_not_mem hpath⟩, ?_⟩, fun e he => ?_⟩
    · have hconfined : ∀ all, (Spelling.ofPath path).within = some all → ∀ t ∈ r.tables, t ∈ all := by
        intro all hall t ht
        refine hwithin all hall t ?_
        rw [tables, hts]
        exact SortedSet.mem_union.2 (.inr ht)
      exact (ihr hr hpath hconfined e he).mono fun hsound => hsound.2.1
    · rw [within_steps]
      exact hwithin
    · have hinto := Spelling.ofPath_into (path ++ Visit.steps view r.visits) (l.seenAs view)
      refine (ihl hl ?_ ?_ e he).mono fun hsound => hsound.1
      · rw [hinto]
      · rw [hinto]
        rintro all hall t ht
        obtain rfl := Option.some.inj hall
        rwa [tables_seenAs]

lemma Summed.places_fit (h : n.Summed) {e : List Step × TableSet} (he : e ∈ Visit.placesAll view [] n.visits) :
    (Spelling.ofPath e.1).Fits n.Sound e.2 := by
  refine h.placesAll_fit rfl (fun all hall => ?_) e he
  cases hall

lemma mem_places_self {l r : JoinNode} {i : NodeInfo} {ts : TableSet} :
    (path ++ Visit.steps view (join l r i ts).visits, ts) ∈ Visit.placesAll view path (join l r i ts).visits := by
  rw [placesAll_join]
  exact List.mem_append_right _ List.mem_cons_self

lemma joins_ne_nil {j : JoinNode} (hj : j ∈ n.joins) : j.joins ≠ [] := by
  induction n with
  | base t i => cases hj
  | join l r i ts ihl ihr =>
    rcases List.mem_cons.1 hj with rfl | hj
    · exact List.cons_ne_nil _ _
    · exact (List.mem_append.1 hj).elim ihl ihr

lemma exists_place_of_outer {j r : JoinNode} {i : NodeInfo} {ts : TableSet} (hj : j.joins ≠ [])
    (h : join j r i ts ∈ n.joins) (path : List Step) :
    ∃ path', (path', j.tables) ∈ Visit.placesAll view path n.visits ∧
      (Spelling.ofPath path').within = some j.tables := by
  induction n generalizing path with
  | base t i => cases h
  | join l r' i' ts' ihl ihr =>
    have hinto := Spelling.ofPath_into (path ++ Visit.steps view r'.visits) (l.seenAs view)
    rw [placesAll_join]
    rcases List.mem_cons.1 h with heq | h
    · cases heq
      cases j with
      | base t i => exact (hj rfl).elim
      | join l' r'' i'' ts'' =>
        refine ⟨_, List.mem_append_right _ (List.mem_cons_of_mem _ mem_places_self), ?_⟩
        rw [within_steps, hinto]
        rfl
    rcases List.mem_append.1 h with h | h
    · obtain ⟨path', hmem, hwithin⟩ := ihl h (path ++ Visit.steps view r'.visits ++ [.child (l.seenAs view), .inside])
      exact ⟨path', List.mem_append_right _ (List.mem_cons_of_mem _ hmem), hwithin⟩
    · obtain ⟨path', hmem, hwithin⟩ := ihr h path
      exact ⟨path', List.mem_append_left _ hmem, hwithin⟩

end JoinNode

end OptimizerHints
