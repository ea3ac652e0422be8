import Mathlib.Data.List.Induction
import OptimizerHints.Synopsis.Ledger

namespace OptimizerHints.Ledger

variable {α : Type} [Add α] [Mul α] (gamma : α)

def decayed : List α → Option α
  | [] => none
  | c :: cs => some (cs.foldl (fun old c => c + gamma * old) c)

def ofList (es : List (JoinOperator × α)) : Ledger α := es.foldl (fun l e => l.observe gamma e.1 e.2) []

lemma ofList_concat (es : List (JoinOperator × α)) (e : JoinOperator × α) :
    ofList gamma (es ++ [e]) = (ofList gamma es).observe gamma e.1 e.2 := by
  simp [ofList]

lemma decayed_concat (cs : List α) (c : α) :
    decayed gamma (cs ++ [c]) = some (((decayed gamma cs).map fun old => c + gamma * old).getD c) := by
  cases cs with
  | nil => rfl
  | cons c' cs => simp [decayed]

lemma map_fst_observe (op : JoinOperator) (cost : α) (l : Ledger α) :
    (observe gamma op cost l).map Prod.fst =
      if op ∈ l.map Prod.fst then l.map Prod.fst else l.map Prod.fst ++ [op] := by
  induction l with
  | nil => rfl
  | cons e l ih =>
    obtain ⟨op', old⟩ := e
    by_cases h : op' = op
    · simp [observe, h]
    · simp only [observe, if_neg h, List.map_cons, ih, List.mem_cons, Ne.symm h, false_or]
      split <;> rfl

lemma costOf?_observe_self (op : JoinOperator) (cost : α) (l : Ledger α) :
    costOf? op (observe gamma op cost l) = some (((costOf? op l).map fun old => cost + gamma * old).getD cost) := by
  induction l with
  | nil => simp [observe, costOf?]
  | cons e l ih =>
    obtain ⟨op', old⟩ := e
    by_cases h : op' = op
    · simp [observe, costOf?, h]
    · simp only [observe, costOf?, if_neg h, ih]

lemma costOf?_observe_of_ne {op op' : JoinOperator} (h : op' ≠ op) (cost : α) (l : Ledger α) :
    costOf? op' (observe gamma op cost l) = costOf? op' l := by
  induction l with
  | nil => simp [observe, costOf?, Ne.symm h]
  | cons e l ih =>
    obtain ⟨op'', old⟩ := e
    by_cases hop : op'' = op
    · simp [observe, costOf?, hop, Ne.symm h]
    · simp only [observe, costOf?, if_neg hop, ih]

theorem map_fst_ofList (es : List (JoinOperator × α)) :
    (ofList gamma es).map Prod.fst = (es.map Prod.fst).eraseDups := by
  induction es using List.reverseRecOn with
  | nil => rfl
  | append_singleton es e ih =>
    rw [ofList_concat, map_fst_observe, ih, List.map_append, List.map_singleton, List.eraseDups_append]
    by_cases h : e.1 ∈ es.map Prod.fst
    · simp [List.removeAll, h]
    · rw [List.removeAll, List.filter_cons_of_pos (by simpa using h), if_neg (by simpa using h)]
      rfl

lemma nodup_map_fst_ofList (es : List (JoinOperator × α)) : ((ofList gamma es).map Prod.fst).Nodup := by
  induction es using List.reverseRecOn with
  | nil => exact List.nodup_nil
  | append_singleton es e ih =>
    rw [ofList_concat, map_fst_observe]
    split
    · exact ih
    · next h => exact List.nodup_append.2 ⟨ih, List.pairwise_singleton .., by grind⟩

theorem costOf?_ofList (op : JoinOperator) (es : List (JoinOperator × α)) :
    costOf? op (ofList gamma es) = decayed gamma ((es.filter (·.1 = op)).map Prod.snd) := by
  induction es using List.reverseRecOn with
  | nil => rfl
  | append_singleton es e ih =>
    rw [ofList_concat, List.filter_append, List.map_append]
    by_cases h : e.1 = op
    · subst h
      have hlast : [e].filter (fun e' => decide (e'.1 = e.1)) = [e] := by simp
      rw [costOf?_observe_self, ih, hlast]
      exact (decayed_concat gamma _ _).symm
    · rw [costOf?_observe_of_ne gamma (Ne.symm h), ih]
      simp [h]

section Recommendation

variable {α : Type} [LE α] [DecidableLE α]

lemma foldl_better_mem (best : JoinOperator × α) (l : Ledger α) : l.foldl better best ∈ best :: l := by
  induction l generalizing best with
  | nil => exact List.mem_cons_self
  | cons e l ih =>
    rw [List.foldl_cons]
    rcases List.mem_cons.1 (ih (better best e)) with h | h
    · rw [h, better]
      split
      · exact List.mem_cons_self
      · exact List.mem_cons_of_mem _ List.mem_cons_self
    · exact List.mem_cons_of_mem _ (List.mem_cons_of_mem _ h)

lemma exists_ne_of_recommendation? {l : Ledger α} {op : JoinOperator} (hl : (l.map Prod.fst).Nodup)
    (h : l.recommendation? = some op) : op ∈ l.map Prod.fst ∧ ∃ op' ∈ l.map Prod.fst, op' ≠ op := by
  obtain _ | ⟨first, _ | ⟨second, rest⟩⟩ := l
  · cases h
  · cases h
  have hop : op ∈ (first :: second :: rest).map Prod.fst := by
    obtain rfl := Option.some.inj h
    exact List.mem_map_of_mem (foldl_better_mem first (second :: rest))
  have hne : first.1 ≠ second.1 := fun heq => (List.nodup_cons.1 hl).1 (heq ▸ List.mem_cons_self)
  refine ⟨hop, ?_⟩
  by_cases hfirst : first.1 = op
  · exact ⟨second.1, List.mem_cons_of_mem _ List.mem_cons_self, fun hsecond => hne (hfirst.trans hsecond.symm)⟩
  · exact ⟨first.1, List.mem_cons_self, hfirst⟩

end Recommendation

end OptimizerHints.Ledger
