import Mathlib.Data.List.Infix
import OptimizerHints.Proofs.Synopsis.Feedback
import OptimizerHints.Proofs.Synopsis.Ledger

/-! A synopsis holds what the log of all observations holds that were made by successful calls, and nothing else. -/

namespace OptimizerHints

def Plan.observations (view : View) (p : Plan) : List (List Step × Observation Float) :=
  match p.visits with
  | .ok vs => Visit.placesAll view [] vs
  | .error _ => []

lemma Plan.mem_observations_iff {view : View} {p : Plan} {e : List Step × Observation Float} :
    e ∈ p.observations view ↔ ∃ vs, p.visits = .ok vs ∧ e ∈ Visit.placesAll view [] vs := by
  rw [observations]
  cases p.visits <;> simp

namespace Synopsis

def run (s : Synopsis) (calls : List (Query × Plan)) : Synopsis :=
  calls.foldl (fun s c => (s.integrate c.1 c.2).2) s

def heard (s : Synopsis) (c : Query × Plan) : List (List Step × Observation Float) :=
  match (s.integrate c.1 c.2).1 with
  | .ok () => c.2.observations (.ofQuery s.config.filterAware c.1)
  | .error _ => []

def log (s : Synopsis) : List (Query × Plan) → List (List Step × Observation Float)
  | [] => []
  | c :: calls => s.heard c ++ (s.integrate c.1 c.2).2.log calls

end Synopsis

namespace Node

section Known

variable {α : Type} {es : List (List Step × Observation α)} {path : List Step}

def Known (es : List (List Step × Observation α)) (path : List Step) : Prop := path = [] ∨ ∃ e ∈ es, path <+: e.1

instance : Decidable (Known es path) := inferInstanceAs (Decidable (path = [] ∨ ∃ e ∈ es, path <+: e.1))

lemma known_concat {e : List Step × Observation α} : Known (es ++ [e]) path ↔ Known es path ∨ path <+: e.1 := by
  simp [Known, or_and_right, exists_or, or_assoc]

end Known

variable {α : Type} [Add α] [Mul α] (gamma : α)

def ledgerOf (es : List (List Step × Observation α)) (path : List Step) : Ledger α :=
  .ofList gamma ((es.filter (·.1 = path)).map fun e => (e.2.operator, e.2.cost))

lemma ledgerOf_concat_self (es : List (List Step × Observation α)) (e : List Step × Observation α) :
    ledgerOf gamma (es ++ [e]) e.1 = (ledgerOf gamma es e.1).observe gamma e.2.operator e.2.cost := by
  have hlast : [e].filter (fun e' => decide (e'.1 = e.1)) = [e] := by simp
  rw [ledgerOf, List.filter_append, hlast, List.map_append, List.map_singleton, Ledger.ofList_concat]
  rfl

lemma ledgerOf_concat_of_ne {es : List (List Step × Observation α)} {e : List Step × Observation α} {path : List Step}
    (h : path ≠ e.1) : ledgerOf gamma (es ++ [e]) path = ledgerOf gamma es path := by
  simp [ledgerOf, Ne.symm h]

lemma ledgerOf_eq_nil {es : List (List Step × Observation α)} {path : List Step} (h : ¬Known es path) :
    ledgerOf gamma es path = [] := by
  have hnone : es.filter (fun e => decide (e.1 = path)) = [] := by
    refine List.filter_eq_nil_iff.2 fun e he hpath => h (.inr ⟨e, he, ?_⟩)
    rw [of_decide_eq_true hpath]
  rw [ledgerOf, hnone]
  rfl

theorem ledgerAt?_noteAll (es : List (List Step × Observation α)) (path : List Step) :
    (noteAll gamma es empty).ledgerAt? path = if Known es path then some (ledgerOf gamma es path) else none := by
  -- the log is taken from its end, so that the last observation is the outermost change of the node
  induction es using List.reverseRecOn generalizing path with
  | nil =>
    cases path with
    | nil => simp [Known]; rfl
    | cons s path => rw [noteAll_nil, ledgerAt?_empty (List.cons_ne_nil s path)]; simp [Known]
  | append_singleton es e ih =>
    have hget : ((noteAll gamma es empty).ledgerAt? path).getD [] = ledgerOf gamma es path := by
      rw [ih]
      split
      · rfl
      · next h => exact (ledgerOf_eq_nil gamma h).symm
    rw [noteAll_append, noteAll_cons, noteAll_nil, ledgerAt?_modifyAt_observe, hget, ih]
    simp only [known_concat]
    by_cases hpath : path = e.1
    · subst hpath
      rw [if_pos rfl, if_pos (.inr List.prefix_rfl), ledgerOf_concat_self]
    · rw [if_neg hpath, ledgerOf_concat_of_ne gamma hpath]
      by_cases hpre : path <+: e.1 <;> simp [hpre]

end Node

namespace Synopsis

@[simp] lemma config_integrate (s : Synopsis) (q : Query) (p : Plan) : (s.integrate q p).2.config = s.config := by
  rw [integrate_eq]
  split <;> rfl

lemma root_integrate (s : Synopsis) (c : Query × Plan) :
    (s.integrate c.1 c.2).2.root = s.root.noteAll s.config.gamma (s.heard c) := by
  rw [heard, integrate_eq, Plan.observations]
  cases c.2.visits <;> rfl

theorem root_run (s : Synopsis) (calls : List (Query × Plan)) :
    (s.run calls).root = s.root.noteAll s.config.gamma (s.log calls) := by
  induction calls generalizing s with
  | nil => rfl
  | cons c calls ih =>
    have hrun : s.run (c :: calls) = (s.integrate c.1 c.2).2.run calls := rfl
    rw [hrun, ih, config_integrate, root_integrate, log, Node.noteAll_append]

@[simp] lemma config_run (s : Synopsis) (calls : List (Query × Plan)) : (s.run calls).config = s.config := by
  induction calls generalizing s with
  | nil => rfl
  | cons c calls ih => exact (ih _).trans (config_integrate s c.1 c.2)

lemma mem_heard {s : Synopsis} {c : Query × Plan} {e : List Step × Observation Float} (h : e ∈ s.heard c) :
    (s.integrate c.1 c.2).1 = .ok () ∧ e ∈ c.2.observations (.ofQuery s.config.filterAware c.1) := by
  rw [heard] at h
  split at h
  · next hok => exact ⟨hok, h⟩
  · cases h

lemma mem_log {s : Synopsis} {calls : List (Query × Plan)} {e : List Step × Observation Float} (h : e ∈ s.log calls) :
    ∃ before q p after, calls = before ++ (q, p) :: after ∧ ((s.run before).integrate q p).1 = .ok () ∧
      e ∈ p.observations (.ofQuery s.config.filterAware q) := by
  induction calls generalizing s with
  | nil => cases h
  | cons c calls ih =>
    rcases List.mem_append.1 h with h | h
    · obtain ⟨hok, he⟩ := mem_heard h
      exact ⟨[], c.1, c.2, calls, rfl, hok, he⟩
    · obtain ⟨before, q, p, after, rfl, hok, he⟩ := ih h
      rw [config_integrate] at he
      exact ⟨c :: before, q, p, after, rfl, hok, he⟩

lemma integrate_ok_iff (s : Synopsis) (q : Query) (p : Plan) :
    (s.integrate q p).1 = .ok () ↔ ∃ vs, p.visits = .ok vs := by
  rw [integrate_eq]
  cases p.visits with
  | ok vs => exact iff_of_true rfl ⟨vs, rfl⟩
  | error e => exact iff_of_false nofun nofun

/-- A synopsis that starts empty has a node at the end of a path exactly if an observation lies there or beyond. The
node has the operators that were observed there, each once and in the order of their first observation, and each of
them has the costs that were observed for it there, folded in their order. A call succeeds, whatever came before it,
exactly if the joins of its plan can be visited. -/
theorem run_refines_log (config : SynopsisConfig) (calls : List (Query × Plan)) (path : List Step) :
    let s : Synopsis := { config }
    let log := s.log calls
    (((s.run calls).root.at? path).isSome ↔ path = [] ∨ ∃ e ∈ log, path <+: e.1) ∧
      (∀ n, (s.run calls).root.at? path = some n →
        n.costs.map Prod.fst = ((log.filter (·.1 = path)).map (·.2.operator)).eraseDups ∧
        (n.costs.map Prod.fst).Nodup ∧
        ∀ op, n.costs.costOf? op =
          Ledger.decayed config.gamma ((log.filter fun e => e.1 = path ∧ e.2.operator = op).map (·.2.cost))) ∧
      ∀ q p, ((s.run calls).integrate q p).1 = .ok () ↔ ∃ vs, p.visits = .ok vs := by
  intro s log
  have hroot : (s.run calls).root = Node.noteAll config.gamma log Node.empty := root_run s calls
  have hledger := Node.ledgerAt?_noteAll config.gamma log path
  rw [← hroot, Node.ledgerAt?] at hledger
  refine ⟨?_, fun n hn => ?_, fun q p => integrate_ok_iff (s.run calls) q p⟩
  · rw [← Option.isSome_map (f := Node.costs), hledger]
    exact Option.isSome_ite
  · have hcosts : n.costs = Node.ledgerOf config.gamma log path := by
      rw [hn, Option.map_some] at hledger
      split at hledger
      · exact Option.some.inj hledger
      · cases hledger
    rw [hcosts, Node.ledgerOf]
    refine ⟨?_, Ledger.nodup_map_fst_ofList .., fun op => ?_⟩
    · rw [Ledger.map_fst_ofList, List.map_map]
      rfl
    · rw [Ledger.costOf?_ofList, List.filter_map, List.map_map, List.filter_filter]
      simp [Function.comp_def, and_comm]

end Synopsis

end OptimizerHints
