import OptimizerHints.Proofs.Synopsis.Paths

/-! Where the joins of a sequence lie in a synopsis, and the synopsis that costs noted there make. -/

namespace OptimizerHints

structure Observation (α : Type) where
  tables : TableSet
  operator : JoinOperator
  cost : α
  deriving DecidableEq

namespace Visit

variable {α β : Type} (view : View)

mutual

def places (path : List Step) : Visit α → List (List Step × α)
  | .overTable _ a => [(path, a)]
  | .overJoin _ a inside => (path, a) :: placesAll (path ++ [.inside]) inside

def placesAll (path : List Step) : List (Visit α) → List (List Step × α)
  | [] => []
  | v :: vs =>
    v.places (path ++ [.child (v.identifier view)]) ++ placesAll (path ++ [.child (v.identifier view)]) vs

end

def under (s : Step) (e : List Step × α) : List Step × α := (s :: e.1, e.2)

mutual

theorem places_cons_path (s : Step) (path : List Step) :
    ∀ v : Visit α, v.places view (s :: path) = (v.places view path).map (under s)
  | .overTable _ _ => by simp [places, under]
  | .overJoin _ _ inside => by
    have ih := placesAll_cons_path s (path ++ [.inside]) inside
    simp only [places, List.cons_append, ih, List.map_cons]
    rfl

theorem placesAll_cons_path (s : Step) (path : List Step) :
    ∀ vs : List (Visit α), placesAll view (s :: path) vs = (placesAll view path vs).map (under s)
  | [] => by simp [placesAll]
  | v :: vs => by
    have ihv := places_cons_path s (path ++ [.child (v.identifier view)]) v
    have ihs := placesAll_cons_path s (path ++ [.child (v.identifier view)]) vs
    simp only [placesAll, List.cons_append, ihv, ihs, List.map_append]

end

lemma placesAll_singleton_path (s : Step) (vs : List (Visit α)) :
    placesAll view [s] vs = (placesAll view [] vs).map (under s) :=
  placesAll_cons_path view s [] vs

lemma map_snd_placesAll (path : List Step) (vs : List (Visit α)) :
    (placesAll view path vs).map Prod.snd = (placesAll view [] vs).map Prod.snd := by
  induction path with
  | nil => rfl
  | cons s path ih => rw [placesAll_cons_path, List.map_map, ← ih]; rfl

lemma map_snd_placesAll_append (path : List Step) (vs ws : List (Visit α)) :
    (placesAll view path (vs ++ ws)).map Prod.snd =
      (placesAll view path vs).map Prod.snd ++ (placesAll view [] ws).map Prod.snd := by
  induction vs generalizing path with
  | nil => exact map_snd_placesAll view path ws
  | cons v vs ih => rw [List.cons_append, placesAll, placesAll, List.map_append, List.map_append, ih, List.append_assoc]

lemma placesAll_ne_nil (path : List Step) {vs : List (Visit α)} (h : vs ≠ []) : placesAll view path vs ≠ [] := by
  obtain ⟨v, vs, rfl⟩ := List.exists_cons_of_ne_nil h
  cases v <;> simp [placesAll, places]

end Visit

namespace Node

variable {α : Type} [Add α] [Mul α] (gamma : α)

def noteAll (es : List (List Step × Observation α)) (n : Node α) : Node α :=
  es.foldl (fun n e => n.modifyAt e.1 (observe gamma e.2.operator e.2.cost)) n

@[simp] lemma noteAll_nil (n : Node α) : noteAll gamma [] n = n := rfl

lemma noteAll_cons (e : List Step × Observation α) (es : List (List Step × Observation α)) (n : Node α) :
    noteAll gamma (e :: es) n = noteAll gamma es (n.modifyAt e.1 (observe gamma e.2.operator e.2.cost)) := rfl

lemma noteAll_append (es es' : List (List Step × Observation α)) (n : Node α) :
    noteAll gamma (es ++ es') n = noteAll gamma es' (noteAll gamma es n) := by
  simp [noteAll]

lemma noteAll_under_modifyStep (s : Step) (es : List (List Step × Observation α)) (f : Node α → Node α) (n : Node α) :
    noteAll gamma (es.map (Visit.under s)) (n.modifyStep s f) = n.modifyStep s fun c => noteAll gamma es (f c) := by
  induction es generalizing f with
  | nil => rfl
  | cons e es ih =>
    rw [List.map_cons, noteAll_cons, Visit.under, modifyAt_cons, modifyStep_modifyStep, ih]
    rfl

lemma noteAll_under (s : Step) {es : List (List Step × Observation α)} (h : es ≠ []) (n : Node α) :
    noteAll gamma (es.map (Visit.under s)) n = n.modifyStep s (noteAll gamma es) := by
  obtain ⟨e, es, rfl⟩ := List.exists_cons_of_ne_nil h
  rw [List.map_cons, noteAll_cons, Visit.under, modifyAt_cons, noteAll_under_modifyStep]
  rfl

end Node

end OptimizerHints
