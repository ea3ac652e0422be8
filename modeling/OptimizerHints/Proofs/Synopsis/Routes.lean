import Mathlib.Data.List.Nodup
import OptimizerHints.Proofs.JoinTree.Expansion
import OptimizerHints.Proofs.JoinTree.Operators
import OptimizerHints.Proofs.Synopsis.Places

namespace OptimizerHints

namespace JoinNode

def seenAs (view : View) : JoinNode → Identifier
  | base t _ => view.identifier t
  | join _ _ _ ts => ⟨ts, none⟩

/-- The path of a join when a sequence of joins is walked from the end of another path: each join is a child of the
one before it, and the sequence of its outer input is walked from the inside of it. -/
inductive Leads (view : View) : List Step → List JoinNode → List Step → JoinNode → Prop
  | here (path : List Step) (l r : JoinNode) (i : NodeInfo) (ts : TableSet) (js : List JoinNode) :
    Leads view path (join l r i ts :: js) (path ++ [.child (l.seenAs view)]) (join l r i ts)
  | after {path path' : List Step} {l r j : JoinNode} {i : NodeInfo} {ts : TableSet} {js : List JoinNode} :
    Leads view (path ++ [.child (l.seenAs view)]) js path' j → Leads view path (join l r i ts :: js) path' j
  | inside {path path' : List Step} {l r j : JoinNode} {i : NodeInfo} {ts : TableSet} {js : List JoinNode} :
    Leads view (path ++ [.child (l.seenAs view), .inside]) l.joinSequence path' j →
      Leads view path (join l r i ts :: js) path' j

section Leads

variable {view : View} {path path' : List Step} {j : JoinNode} {js : List JoinNode}

lemma Leads.append_right (h : Leads view path js path' j) (ks : List JoinNode) :
    Leads view path (js ++ ks) path' j := by
  induction h with
  | here path l r i ts js => exact .here path l r i ts (js ++ ks)
  | after _ ih => exact .after ih
  | inside h _ => exact .inside h

lemma exists_end (view : View) (n : JoinNode) (path : List Step) :
    ∃ last, ∀ js path' j, Leads view last js path' j → Leads view path (n.joinSequence ++ js) path' j := by
  induction n generalizing path with
  | base t i => exact ⟨path, fun _ _ _ h => h⟩
  | join l r i ts _ ihr =>
    obtain ⟨last, hlast⟩ := ihr path
    refine ⟨last ++ [.child (l.seenAs view)], fun js path' j h => ?_⟩
    rw [joinSequence_join, List.append_assoc]
    exact hlast _ _ _ (.after h)

theorem exists_leads (view : View) {n : JoinNode} (hj : j ∈ n.joins) (path : List Step) :
    ∃ path', Leads view path n.joinSequence path' j := by
  induction n generalizing path with
  | base t i => cases hj
  | join l r i ts ihl ihr =>
    rw [joinSequence_join]
    obtain ⟨last, hlast⟩ := exists_end view r path
    rcases List.mem_cons.1 hj with rfl | hj
    · exact ⟨_, hlast _ _ _ (.here last l r i ts [])⟩
    · rcases List.mem_append.1 hj with hj | hj
      · obtain ⟨path', h⟩ := ihl hj (last ++ [.child (l.seenAs view), .inside])
        exact ⟨path', hlast _ _ _ (.inside h)⟩
      · obtain ⟨path', h⟩ := ihr hj path
        exact ⟨path', h.append_right _⟩

end Leads

def visit? : JoinNode → Option (Visit TableSet)
  | base _ _ => none
  | join l _ _ ts => some (l.visitOver ts l.visits)

lemma filterMap_visit?_join (l r : JoinNode) (i : NodeInfo) (ts : TableSet) (js : List JoinNode) :
    (join l r i ts :: js).filterMap visit? = l.visitOver ts l.visits :: js.filterMap visit? := rfl

lemma visits_eq_filterMap (n : JoinNode) : n.visits = n.joinSequence.filterMap visit? := by
  induction n with
  | base t i => rfl
  | join l r i ts _ ihr => rw [visits, joinSequence_join, List.filterMap_append, ihr]; rfl

@[simp] lemma identifier_visitOver (view : View) (n : JoinNode) (ts : TableSet) (inside : List (Visit TableSet)) :
    (n.visitOver ts inside).identifier view = n.seenAs view := by
  cases n <;> rfl

lemma places_visitOver (view : View) (n : JoinNode) (ts : TableSet) (path : List Step) :
    (n.visitOver ts n.visits).places view path =
      (path, ts) :: Visit.placesAll view (path ++ [.inside]) n.visits := by
  cases n <;> rfl

lemma placesAll_cons_visit (view : View) (path : List Step) (n : JoinNode) (ts : TableSet)
    (vs : List (Visit TableSet)) :
    Visit.placesAll view path (n.visitOver ts n.visits :: vs) =
      (path ++ [.child (n.seenAs view)], ts) ::
        (Visit.placesAll view (path ++ [.child (n.seenAs view), .inside]) n.visits ++
          Visit.placesAll view (path ++ [.child (n.seenAs view)]) vs) := by
  rw [Visit.placesAll, identifier_visitOver, places_visitOver, List.append_assoc]
  rfl

lemma Leads.mem_places {view : View} {path path' : List Step} {j : JoinNode} {js : List JoinNode}
    (h : Leads view path js path' j) : (path', j.tables) ∈ Visit.placesAll view path (js.filterMap visit?) := by
  induction h with
  | here path l r i ts js =>
    rw [filterMap_visit?_join, placesAll_cons_visit]
    exact List.mem_cons_self
  | after _ ih =>
    rw [filterMap_visit?_join, placesAll_cons_visit]
    exact List.mem_cons_of_mem _ (List.mem_append_right _ ih)
  | inside _ ih =>
    rw [filterMap_visit?_join, placesAll_cons_visit]
    rw [← visits_eq_filterMap] at ih
    exact List.mem_cons_of_mem _ (List.mem_append_left _ ih)

lemma map_snd_places (view : View) (n : JoinNode) (path : List Step) :
    (Visit.placesAll view path n.visits).map Prod.snd = n.expansion.map tables := by
  induction n generalizing path with
  | base t i => rfl
  | join l r i ts ihl ihr =>
    have hl := ihl ([] ++ [.child (l.seenAs view), .inside])
    rw [visits, Visit.map_snd_placesAll_append, placesAll_cons_visit, ihr path]
    simp only [Visit.placesAll, List.append_nil, List.map_cons, hl, expansion, List.map_append, tables]

lemma map_snd_places_perm (view : View) (n : JoinNode) (path : List Step) :
    ((Visit.placesAll view path n.visits).map Prod.snd).Perm n.joinSets := by
  rw [map_snd_places, joinSets_eq_map]
  exact n.expansion_perm_joins.map tables

theorem Sound.leads_unique {view : View} {n j : JoinNode} (h : n.Sound) {path' path'' : List Step}
    (hj : Leads view [] n.joinSequence path' j) (hj' : Leads view [] n.joinSequence path'' j) : path' = path'' := by
  have hnodup : ((Visit.placesAll view [] n.visits).map Prod.snd).Nodup :=
    (map_snd_places_perm view n []).nodup_iff.2 h.nodup_joinSets
  have hmem := hj.mem_places
  have hmem' := hj'.mem_places
  rw [← visits_eq_filterMap] at hmem hmem'
  exact congrArg Prod.fst (List.inj_on_of_nodup_map hnodup hmem hmem' rfl)

end JoinNode

end OptimizerHints
