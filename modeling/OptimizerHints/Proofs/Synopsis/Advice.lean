import OptimizerHints.Proofs.JoinTree.Operators
import OptimizerHints.Proofs.Synopsis.Routes
import OptimizerHints.Synopsis

namespace OptimizerHints

namespace Node

variable {α : Type} [LE α] [DecidableLE α]

def advice? (path : List Step) (n : Node α) : Option JoinOperator := (n.at? path).bind fun c => c.costs.recommendation?

def followed (n : Node α) (a : Assignment) (e : List Step × TableSet) : Assignment :=
  match n.advice? e.1 with
  | some op => a.withJoin ⟨op, e.2, (a.joinFor? e.2).bind (·.inner)⟩
  | none => a

def followAll (n : Node α) (es : List (List Step × TableSet)) (a : Assignment) : Assignment := es.foldl n.followed a

lemma followAll_cons (n : Node α) (e : List Step × TableSet) (es : List (List Step × TableSet)) (a : Assignment) :
    n.followAll (e :: es) a = n.followAll es (n.followed a e) := rfl

lemma followAll_append (n : Node α) (es es' : List (List Step × TableSet)) (a : Assignment) :
    n.followAll (es ++ es') a = n.followAll es' (n.followAll es a) := List.foldl_append

lemma followed_under (n : Node α) (s : Step) (e : List Step × TableSet) (a : Assignment) :
    n.followed a (Visit.under s e) = (n.step? s).elim a fun c => c.followed a e := by
  have hadvice : n.advice? (Visit.under s e).1 = (n.step? s).bind (advice? e.1) := by
    rw [Visit.under, advice?, at?_cons, Option.bind_assoc]
    rfl
  rw [followed, hadvice]
  cases n.step? s <;> rfl

lemma followAll_under (n : Node α) (s : Step) (es : List (List Step × TableSet)) (a : Assignment) :
    n.followAll (es.map (Visit.under s)) a = (n.step? s).elim a (followAll · es a) := by
  induction es generalizing a with
  | nil => cases n.step? s <;> rfl
  | cons e es ih =>
    rw [List.map_cons, followAll_cons, ih, followed_under]
    cases n.step? s <;> rfl

variable {n : Node α} {a : Assignment}

lemma valid_followed {e : List Step × TableSet} (ha : a.Valid) (he : ∃ t, t ∈ e.2) : (n.followed a e).Valid := by
  unfold followed
  split
  · exact ha.withJoin (ha.replaceOperator he _)
  · exact ha

lemma valid_followAll {es : List (List Step × TableSet)} (ha : a.Valid) (hes : ∀ e ∈ es, ∃ t, t ∈ e.2) :
    (n.followAll es a).Valid := by
  induction es generalizing a with
  | nil => exact ha
  | cons e es ih =>
    obtain ⟨he, hes⟩ := List.forall_mem_cons.1 hes
    exact ih (valid_followed ha he) hes

lemma adviseJoin_eq {ts : TableSet} (ha : a.Valid) (hts : ∃ t, t ∈ ts) :
    adviseJoin ts n a = .ok (n.followed a ([], ts)) := by
  rw [adviseJoin, followed, advice?, at?_nil, Option.bind_some]
  cases n.costs.recommendation? with
  | none => rfl
  | some op =>
    dsimp only
    rw [Assignment.replaceOperator, Assignment.setJoin_of_valid (ha.replaceOperator hts op)]
    rfl

mutual

theorem adviseVisit_eq (view : View) : ∀ (v : Visit TableSet) (n : Node α) (a : Assignment), a.Valid →
    (∀ e ∈ v.places view [], ∃ t, t ∈ e.2) → adviseVisit view v n a = .ok (n.followAll (v.places view []) a)
  | .overTable t ts, n, a, ha, hv => by
    obtain ⟨hts, -⟩ := List.forall_mem_cons.1 hv
    rw [adviseVisit, adviseJoin_eq ha hts]
    rfl
  | .overJoin ts' ts inside, n, a, ha, hv => by
    rw [Visit.places, List.nil_append, Visit.placesAll_singleton_path] at hv ⊢
    obtain ⟨hts, hinside⟩ := List.forall_mem_cons.1 hv
    rw [List.forall_mem_map] at hinside
    have ih := fun m => adviseAll_eq view inside m (n.followed a ([], ts)) (valid_followed ha hts) hinside
    rw [adviseVisit, adviseJoin_eq ha hts, followAll_cons, followAll_under]
    simp only [bind, Except.bind, step?]
    cases n.inside with
    | none => rfl
    | some m => exact ih m

theorem adviseAll_eq (view : View) : ∀ (vs : List (Visit TableSet)) (n : Node α) (a : Assignment), a.Valid →
    (∀ e ∈ Visit.placesAll view [] vs, ∃ t, t ∈ e.2) →
      adviseAll view vs n a = .ok (n.followAll (Visit.placesAll view [] vs) a)
  | [], n, a, _, _ => by rw [adviseAll]; rfl
  | v :: vs, n, a, ha, hvs => by
    rw [Visit.placesAll, List.nil_append, Visit.places_cons_path, Visit.placesAll_singleton_path, ← List.map_append,
      List.forall_mem_map] at hvs
    obtain ⟨hv, hvs⟩ := List.forall_mem_append.1 hvs
    have ihv := fun c => adviseVisit_eq view v c a ha hv
    have ihs := fun c => adviseAll_eq view vs c (c.followAll (v.places view []) a) (valid_followAll ha hv) hvs
    rw [adviseAll, Visit.placesAll, List.nil_append, Visit.places_cons_path, Visit.placesAll_singleton_path,
      ← List.map_append, followAll_under]
    simp only [step?]
    cases n.child? (v.identifier view) with
    | none => rfl
    | some c =>
      simp only [ihv, ihs, bind, Except.bind, Option.elim_some, followAll_append]

end

lemma scans_followAll (n : Node α) (es : List (List Step × TableSet)) (a : Assignment) :
    (n.followAll es a).scans = a.scans ∧ (n.followAll es a).settings = a.settings := by
  induction es generalizing a with
  | nil => exact ⟨rfl, rfl⟩
  | cons e es ih =>
    have he : (n.followed a e).scans = a.scans ∧ (n.followed a e).settings = a.settings := by
      unfold followed
      split <;> exact ⟨rfl, rfl⟩
    exact ⟨(ih _).1.trans he.1, (ih _).2.trans he.2⟩

lemma joinFor?_followed_of_ne {e : List Step × TableSet} {ts : TableSet} (h : ts ≠ e.2) :
    (n.followed a e).joinFor? ts = a.joinFor? ts := by
  unfold followed
  split
  · exact Assignment.joinFor?_withJoin_of_ne a h
  · rfl

lemma joinFor?_followAll_of_not_mem {es : List (List Step × TableSet)} {ts : TableSet} (h : ts ∉ es.map Prod.snd) :
    (n.followAll es a).joinFor? ts = a.joinFor? ts := by
  induction es generalizing a with
  | nil => rfl
  | cons e es ih =>
    rw [List.map_cons, List.mem_cons, not_or] at h
    rw [followAll_cons, ih h.2, joinFor?_followed_of_ne h.1]

theorem joinFor?_followAll {es : List (List Step × TableSet)} (hes : (es.map Prod.snd).Nodup)
    {path : List Step} {ts : TableSet} (he : (path, ts) ∈ es) :
    (n.followAll es a).joinFor? ts =
      match n.advice? path with
      | some op => some ⟨op, ts, (a.joinFor? ts).bind (·.inner)⟩
      | none => a.joinFor? ts := by
  -- a later place never overwrites the choice, as no two places have the same tables
  induction es generalizing a with
  | nil => cases he
  | cons e es ih =>
    rw [List.map_cons, List.nodup_cons] at hes
    rw [followAll_cons]
    rcases List.mem_cons.1 he with rfl | he
    · rw [joinFor?_followAll_of_not_mem hes.1, followed]
      cases n.advice? path with
      | none => rfl
      | some op => exact Assignment.joinFor?_withJoin_self ..
    · have hne : ts ≠ e.2 := fun heq => hes.1 (heq ▸ List.mem_map_of_mem (f := Prod.snd) he)
      rw [ih hes.2 he, joinFor?_followed_of_ne hne]

end Node

namespace Synopsis

lemma recommend_empty (s : Synopsis) (q : Query) : s.recommend q .empty = .ok .empty := by
  have hadvise : s.root.adviseAll (.ofQuery s.config.filterAware q) [] .empty = .ok .empty := by rw [Node.adviseAll]
  exact congrArg (Except.mapError Interrupted.error) hadvise

lemma recommend_of_sound {n : JoinNode} (h : n.Sound) (s : Synopsis) (q : Query) {seed : Assignment}
    (hseed : JoinTree.operators ⟨some n⟩ = .ok seed) (hvalid : seed.Valid) :
    let places := Visit.placesAll (.ofQuery s.config.filterAware q) [] n.visits
    s.recommend q ⟨some n⟩ = .ok (s.root.followAll places seed) ∧ (s.root.followAll places seed).Valid := by
  intro places
  have hnonempty : ∀ e ∈ places, ∃ t, t ∈ e.2 := by
    intro e he
    have hmem := (n.map_snd_places_perm _ []).mem_iff.1 (List.mem_map_of_mem (f := Prod.snd) he)
    rw [JoinNode.joinSets_eq_map] at hmem
    obtain ⟨j, hj, htables⟩ := List.mem_map.1 hmem
    exact htables ▸ (h.of_mem_joins hj).exists_mem_tables
  refine ⟨?_, Node.valid_followAll hvalid hnonempty⟩
  have hadvise := Node.adviseAll_eq _ n.visits s.root seed hvalid hnonempty
  rw [recommend, hseed]
  exact congrArg (Except.mapError Interrupted.error) hadvise

lemma exists_followAll {t : JoinTree} (h : t.Sound) (s : Synopsis) (q : Query) {seed : Assignment}
    (hseed : t.operators = .ok seed) (hvalid : seed.Valid) : ∃ es, s.recommend q t = .ok (s.root.followAll es seed) := by
  obtain ⟨_ | n⟩ := t
  · obtain rfl := Except.ok.inj hseed
    exact ⟨[], s.recommend_empty q⟩
  · exact ⟨_, (recommend_of_sound (h n rfl) s q hseed hvalid).1⟩

/-- A recommendation always succeeds. It is the assignment of the tree, except that each join whose path leads to a
node with a recommendation gets the operator that is recommended there. -/
theorem recommend_follows_paths (s : Synopsis) (q : Query) {t : JoinTree} (h : t.Built) :
    let view := View.ofQuery s.config.filterAware q
    ∃ seed advice, t.operators = .ok seed ∧ s.recommend q t = .ok advice ∧
      advice.scans = seed.scans ∧ advice.settings = seed.settings ∧
      (∀ ts choice, advice.joinFor? ts = some choice → ∃ j ∈ t.joins, j.tables = ts) ∧
      (∀ j ∈ t.joins, ∃ path, (∀ path', JoinNode.Leads view [] t.joinSequence path' j ↔ path' = path) ∧
        advice.joinFor? j.tables =
          match (s.root.at? path).bind fun n => n.costs.recommendation? with
          | some op => some ⟨op, j.tables, (seed.joinFor? j.tables).bind (·.inner)⟩
          | none => seed.joinFor? j.tables) ∧
      advice.validate = .ok () ∧ advice.checkAgainst t = .ok () := by
  intro view
  have hsound := h.sound
  obtain ⟨seed, hseed, hvalid, hjoins⟩ := hsound.operators
  obtain ⟨_ | n⟩ := t
  · obtain rfl := Except.ok.inj hseed
    exact ⟨.empty, .empty, rfl, s.recommend_empty q, rfl, rfl, nofun, nofun, rfl, rfl⟩
  have hn : n.Sound := hsound n rfl
  have hperm := n.map_snd_places_perm view []
  obtain ⟨hadvice, hfollowed⟩ := recommend_of_sound hn s q hseed hvalid
  have hentries : ∀ ts choice, (s.root.followAll (Visit.placesAll view [] n.visits) seed).joinFor? ts = some choice →
      ∃ j ∈ n.joins, j.tables = ts := by
    intro ts choice hchoice
    by_cases hts : ts ∈ (Visit.placesAll view [] n.visits).map Prod.snd
    · rw [hperm.mem_iff, JoinNode.joinSets_eq_map] at hts
      exact List.mem_map.1 hts
    · rw [Node.joinFor?_followAll_of_not_mem hts] at hchoice
      exact hjoins ts choice hchoice
  obtain ⟨hscans, hsettings⟩ := s.root.scans_followAll (Visit.placesAll view [] n.visits) seed
  refine ⟨seed, _, hseed, hadvice, hscans, hsettings, hentries, fun j hj => ?_, ?_, ?_⟩
  · obtain ⟨path, hpath⟩ := JoinNode.exists_leads view hj []
    have hmem := hpath.mem_places
    rw [← JoinNode.visits_eq_filterMap] at hmem
    refine ⟨path, fun path' => ⟨fun hpath' => hn.leads_unique hpath' hpath, ?_⟩, ?_⟩
    · rintro rfl
      exact hpath
    · exact Node.joinFor?_followAll (hperm.nodup_iff.2 hn.nodup_joinSets) hmem
  · exact Assignment.validate_ok_iff.2 hfollowed
  · exact Assignment.checkAgainst_ok_iff.2 fun _ ts choice hchoice =>
      JoinTree.mem_subtrees_iff.2 (hentries ts choice hchoice)

theorem recommend_follows_paths_inside :
    let r := TableRef.mk "r" none none
    let s := TableRef.mk "s" none none
    let u := TableRef.mk "u" none none
    let below := JoinNode.join (.ofTable r) (.ofTable s) {} (.ofList [r, s])
    let t : JoinTree := ⟨some (.join below (.ofTable u) {} (.ofList [r, s, u]))⟩
    let inside : Node Float := { children := [(.ofTable r, { costs := [(.hash, 20), (.nestedLoop, 2)] })] }
    let synopsis : Synopsis := { config := {}, root := { children := [(⟨below.tables, none⟩, { inside })] } }
    t.Built ∧ ∃ advice, synopsis.recommend { select := "*", sources := [r, s, u] } t = .ok advice ∧
      advice.joinFor? below.tables = some ⟨.nestedLoop, below.tables, none⟩ := by
  intro r s u below t inside synopsis
  have hbuilt : t.Built := by
    have hcross : JoinTree.crossProduct [.ofTable r, .ofTable s, .ofTable u] = .ok t := by decide +kernel
    refine .crossProduct (fun l hl => ?_) hcross
    simp only [List.mem_cons, List.not_mem_nil, or_false] at hl
    rcases hl with rfl | rfl | rfl <;> exact .ofTable _
  refine ⟨hbuilt, ?_⟩
  obtain ⟨seed, advice, hseed, hadvice, -, -, -, hjoins, -⟩ := recommend_follows_paths synopsis _ hbuilt
  have hempty : t.operators = .ok .empty := by decide +kernel
  obtain rfl := Except.ok.inj (hempty.symm.trans hseed)
  obtain ⟨path, hpath, hchoice⟩ := hjoins below (.tail _ (.head _))
  have hleads := (hpath [.child ⟨below.tables, none⟩, .inside, .child (.ofTable r)]).1 (.inside (.here _ _ _ _ _ []))
  obtain rfl := hleads
  refine ⟨advice, hadvice, hchoice.trans ?_⟩
  decide +kernel

end Synopsis

end OptimizerHints
