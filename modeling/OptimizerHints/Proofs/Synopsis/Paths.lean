import Mathlib.Tactic.Common
import OptimizerHints.Synopsis.Node

namespace OptimizerHints.Node

variable {α : Type}

def step? : Step → Node α → Option (Node α)
  | .child id, n => n.child? id
  | .inside, n => n.inside

def modifyStep : Step → (Node α → Node α) → Node α → Node α
  | .child id, f => modifyChild id f
  | .inside, f => modifyInside f

lemma at?_nil (n : Node α) : n.at? [] = some n := rfl

lemma at?_cons (s : Step) (path : List Step) (n : Node α) : n.at? (s :: path) = (n.step? s).bind (at? path) := by
  cases s <;> rfl

lemma modifyAt_nil (f : Node α → Node α) (n : Node α) : n.modifyAt [] f = f n := rfl

lemma modifyAt_cons (s : Step) (path : List Step) (f : Node α → Node α) (n : Node α) :
    n.modifyAt (s :: path) f = n.modifyStep s (modifyAt path f) := by
  cases s <;> rfl

@[simp] lemma costs_modifyStep (s : Step) (f : Node α → Node α) (n : Node α) : (n.modifyStep s f).costs = n.costs := by
  cases s <;> rfl

lemma step?_modifyStep_self (s : Step) (f : Node α → Node α) (n : Node α) :
    (n.modifyStep s f).step? s = some (f ((n.step? s).getD empty)) := by
  cases s with
  | child id => exact Entries.get?_put_self id _ n.children
  | inside => rfl

lemma step?_modifyStep_of_ne {s s' : Step} (h : s' ≠ s) (f : Node α → Node α) (n : Node α) :
    (n.modifyStep s f).step? s' = n.step? s' := by
  cases s with
  | child id =>
    cases s' with
    | child id' =>
      have hid : id' ≠ id := fun he => h (congrArg Step.child he)
      exact Entries.get?_put_of_ne hid _ n.children
    | inside => rfl
  | inside =>
    cases s' with
    | child id' => rfl
    | inside => exact absurd rfl h

lemma modifyStep_modifyStep (s : Step) (f g : Node α → Node α) (n : Node α) :
    (n.modifyStep s f).modifyStep s g = n.modifyStep s (g ∘ f) := by
  cases s with
  | child id =>
    have hc : (modifyChild id f n).child? id = some (f ((n.child? id).getD empty)) :=
      step?_modifyStep_self (.child id) f n
    simp only [modifyStep]
    rw [modifyChild, hc]
    simp only [modifyChild, Entries.put_put, Option.getD_some, Function.comp_apply]
  | inside => rfl

def ledgerAt? (path : List Step) (n : Node α) : Option (Ledger α) := (n.at? path).map costs

@[simp] lemma ledgerAt?_nil (n : Node α) : n.ledgerAt? [] = some n.costs := rfl

lemma ledgerAt?_cons (s : Step) (path : List Step) (n : Node α) :
    n.ledgerAt? (s :: path) = (n.step? s).bind (ledgerAt? path) := by
  simp only [ledgerAt?, at?_cons, Option.map_bind]
  rfl

lemma ledgerAt?_empty {path : List Step} (h : path ≠ []) : (empty : Node α).ledgerAt? path = none := by
  obtain ⟨s, path, rfl⟩ := List.exists_cons_of_ne_nil h
  cases s <;> rfl

lemma getD_ledgerAt?_cons (s : Step) (path : List Step) (n : Node α) :
    (n.ledgerAt? (s :: path)).getD [] = (((n.step? s).getD empty).ledgerAt? path).getD [] := by
  rw [ledgerAt?_cons]
  cases n.step? s with
  | some c => rfl
  | none =>
    cases path with
    | nil => rfl
    | cons s' path => rw [Option.getD_none, ledgerAt?_empty (List.cons_ne_nil s' path)]; rfl

section Observe

variable [Add α] [Mul α] (gamma : α) (op : JoinOperator) (cost : α)

lemma ledgerAt?_observe_cons (s : Step) (path : List Step) (n : Node α) :
    (n.observe gamma op cost).ledgerAt? (s :: path) = n.ledgerAt? (s :: path) := by
  cases s <;> rfl

theorem ledgerAt?_modifyAt_observe (path path' : List Step) (n : Node α) :
    (n.modifyAt path (observe gamma op cost)).ledgerAt? path' =
      if path' = path then some (((n.ledgerAt? path').getD []).observe gamma op cost)
      else if path' <+: path then some ((n.ledgerAt? path').getD [])
      else n.ledgerAt? path' := by
  -- the other path either parts from that of the observation, or both go on from the same child
  induction path generalizing path' n with
  | nil =>
    cases path' with
    | nil => rfl
    | cons s' path' =>
      rw [modifyAt_nil, ledgerAt?_observe_cons]
      simp
  | cons s path ih =>
    rw [modifyAt_cons]
    cases path' with
    | nil => simp
    | cons s' path' =>
      rw [ledgerAt?_cons]
      by_cases hs : s' = s
      · subst hs
        rw [step?_modifyStep_self, Option.bind_some, ih, getD_ledgerAt?_cons]
        simp only [List.cons.injEq, true_and, List.cons_prefix_cons]
        split
        · rfl
        · split
          · rfl
          · next hne hpre =>
            rw [ledgerAt?_cons]
            cases n.step? s' with
            | some c => rfl
            | none =>
              have hnil : path' ≠ [] := by
                rintro rfl
                exact hpre List.nil_prefix
              rw [Option.getD_none, ledgerAt?_empty hnil]
              rfl
      · rw [step?_modifyStep_of_ne hs, ← ledgerAt?_cons]
        simp [hs]

end Observe

end OptimizerHints.Node
