import Mathlib.Algebra.BigOperators.Fin
import Mathlib.Algebra.Order.Field.GeomSum
import Mathlib.Algebra.Order.Ring.Rat
import Mathlib.Tactic.NormNum
import OptimizerHints.Proofs.Synopsis.Ledger
import OptimizerHints.Synopsis.Node

namespace OptimizerHints

open Finset

namespace Ledger

section Weights

variable {R : Type} [CommSemiring R] (gamma : R)

def weighted (cs : List R) : R := ∑ i : Fin cs.length, gamma ^ (cs.length - 1 - i) * cs[i]

lemma weighted_concat (cs : List R) (c : R) : weighted gamma (cs ++ [c]) = c + gamma * weighted gamma cs := by
  have hlength : cs.length + 1 = (cs ++ [c]).length := by simp
  rw [weighted, ← Fin.sum_congr' _ hlength, Fin.sum_univ_castSucc, add_comm, weighted, mul_sum]
  congr 1
  · simp
  · refine sum_congr rfl fun i _ => ?_
    have hpower : cs.length - i = cs.length - 1 - i + 1 := by omega
    simp [hpower, pow_succ', mul_assoc]

lemma decayed_eq_weighted {cs : List R} (h : cs ≠ []) : decayed gamma cs = some (weighted gamma cs) := by
  induction cs using List.reverseRecOn with
  | nil => exact absurd rfl h
  | append_singleton cs c ih =>
    rw [decayed_concat, weighted_concat]
    cases cs with
    | nil => simp [decayed, weighted]
    | cons c' cs =>
      rw [ih (List.cons_ne_nil c' cs)]
      rfl

lemma weighted_replicate (k : ℕ) (c : R) : weighted gamma (List.replicate k c) = c * ∑ i ∈ range k, gamma ^ i := by
  induction k with
  | zero => simp [weighted]
  | succ k ih =>
    rw [List.replicate_succ', weighted_concat, ih, sum_range_succ', pow_zero, mul_add, mul_one, add_comm, mul_sum,
      mul_sum, mul_sum]
    simp only [pow_succ', mul_left_comm]

end Weights

section Limit

variable {gamma c : ℚ} (hgamma : 0 < gamma) (hc : 0 < c)
include hgamma hc

lemma strictMono_geometric :
    StrictMono fun k => c * ∑ i ∈ range k, gamma ^ i := by
  apply strictMono_nat_of_lt_succ
  intro k
  rw [sum_range_succ, mul_add]
  exact lt_add_of_pos_right _ (mul_pos hc (pow_pos hgamma k))

lemma geometric_lt (hone : gamma < 1) (k : ℕ) : c * ∑ i ∈ range k, gamma ^ i < c / (1 - gamma) := by
  rw [lt_div_iff₀ (sub_pos.2 hone), mul_assoc, mul_comm _ (1 - gamma), mul_neg_geom_sum]
  exact mul_lt_of_lt_one_right hc (sub_lt_self 1 (pow_pos hgamma k))

end Limit

section Choice

variable {α : Type} [LinearOrder α]

lemma foldl_better_first (first : JoinOperator × α) (l : Ledger α) :
    ∃ before after, first :: l = before ++ l.foldl better first :: after ∧
      (∀ e ∈ before, (l.foldl better first).2 < e.2) ∧ ∀ e ∈ after, (l.foldl better first).2 ≤ e.2 := by
  induction l using List.reverseRecOn with
  | nil => exact ⟨[], [], rfl, nofun, nofun⟩
  | append_singleton l e ih =>
    obtain ⟨before, after, hl, hbefore, hafter⟩ := ih
    rw [List.foldl_concat, better]
    split
    · next hle =>
      refine ⟨before, after ++ [e], ?_, hbefore, ?_⟩
      · rw [← List.cons_append, hl, List.append_assoc, List.cons_append]
      · rw [List.forall_mem_append]
        exact ⟨hafter, List.forall_mem_singleton.2 hle⟩
    · next hlt =>
      have hless := not_le.1 hlt
      refine ⟨first :: l, [], rfl, ?_, nofun⟩
      rw [hl, List.forall_mem_append, List.forall_mem_cons]
      exact ⟨fun b hb => hless.trans (hbefore b hb), hless, fun a ha => hless.trans_le (hafter a ha)⟩

lemma exists_foldl_of_recommendation? {l : Ledger α} {op : JoinOperator} (h : l.recommendation? = some op) :
    ∃ first rest, l = first :: rest ∧ (rest.foldl better first).1 = op := by
  obtain _ | ⟨first, _ | ⟨second, rest⟩⟩ := l
  · cases h
  · cases h
  · exact ⟨first, second :: rest, rfl, Option.some.inj h⟩

lemma recommendation?_eq_none_iff {l : Ledger α} : l.recommendation? = none ↔ l.length < 2 := by
  obtain _ | ⟨first, _ | ⟨second, rest⟩⟩ := l <;> simp [recommendation?]

end Choice

lemma costOf?_of_mem {α : Type} {l : Ledger α} (hl : (l.map Prod.fst).Nodup) {e : JoinOperator × α} (he : e ∈ l) :
    costOf? e.1 l = some e.2 := by
  induction l with
  | nil => cases he
  | cons e' l ih =>
    obtain ⟨hnew, hl⟩ := List.nodup_cons.1 hl
    rcases List.mem_cons.1 he with rfl | he
    · exact if_pos rfl
    · have hne : e'.1 ≠ e.1 := fun heq => hnew (heq ▸ List.mem_map_of_mem he)
      exact (if_neg hne).trans (ih hl he)

lemma pairwise_idxOf_eraseDups (ops : List JoinOperator) :
    ops.eraseDups.Pairwise fun op op' => ops.idxOf op < ops.idxOf op' := by
  induction ops using List.reverseRecOn with
  | nil => exact .nil
  | append_singleton ops op ih =>
    have hkept : ops.eraseDups.Pairwise fun o o' => (ops ++ [op]).idxOf o < (ops ++ [op]).idxOf o' := by
      refine ih.imp_of_mem fun ho ho' hlt => ?_
      rwa [List.idxOf_append_of_mem (List.mem_eraseDups.1 ho), List.idxOf_append_of_mem (List.mem_eraseDups.1 ho')]
    rw [List.eraseDups_append]
    by_cases hop : op ∈ ops
    · simpa [List.removeAll, hop] using hkept
    · have hnew : ([op].removeAll ops).eraseDups = [op] := by
        rw [List.removeAll, List.filter_cons_of_pos (by simpa using hop)]
        rfl
      rw [hnew]
      refine List.pairwise_append.2 ⟨hkept, List.pairwise_singleton .., fun o ho o' ho' => ?_⟩
      obtain rfl := List.mem_singleton.1 ho'
      have ho := List.mem_eraseDups.1 ho
      rw [List.idxOf_append_of_mem ho, List.idxOf_append_of_notMem hop]
      exact Nat.lt_add_right _ (List.idxOf_lt_length_of_mem ho)

section Observed

variable (gamma : ℚ) (es : List (JoinOperator × ℚ))

def costsOf (op : JoinOperator) : List ℚ := (es.filter (·.1 = op)).map Prod.snd

def Precedes (op op' : JoinOperator) : Prop :=
  weighted gamma (costsOf es op) < weighted gamma (costsOf es op') ∨
    weighted gamma (costsOf es op) = weighted gamma (costsOf es op') ∧
      (es.map Prod.fst).idxOf op < (es.map Prod.fst).idxOf op'

variable {gamma es}

lemma Precedes.asymm {op op' : JoinOperator} (h : Precedes gamma es op op') : ¬Precedes gamma es op' op := by
  rintro (hlt | ⟨heq, hfirst⟩)
  · rcases h with h | ⟨h, -⟩
    · exact lt_asymm h hlt
    · exact hlt.ne' h
  · rcases h with h | ⟨-, h⟩
    · exact h.ne' heq
    · exact lt_asymm h hfirst

variable (gamma es)

lemma costOf?_ofList_eq (op : JoinOperator) :
    costOf? op (ofList gamma es) = if costsOf es op = [] then none else some (weighted gamma (costsOf es op)) := by
  rw [costOf?_ofList]
  split
  · next h =>
    rw [costsOf] at h
    rw [h]
    rfl
  · next h => exact decayed_eq_weighted gamma h

lemma snd_eq_weighted {e : JoinOperator × ℚ} (h : e ∈ ofList gamma es) : e.2 = weighted gamma (costsOf es e.1) := by
  have hcost := costOf?_of_mem (nodup_map_fst_ofList gamma es) h
  rw [costOf?_ofList_eq] at hcost
  split at hcost
  · cases hcost
  · exact (Option.some.inj hcost).symm

lemma mem_map_fst_ofList {op : JoinOperator} : op ∈ (ofList gamma es).map Prod.fst ↔ op ∈ es.map Prod.fst := by
  rw [map_fst_ofList, List.mem_eraseDups]

lemma length_ofList : (ofList gamma es).length = (es.map Prod.fst).toFinset.card := by
  have hsame : (es.map Prod.fst).toFinset = ((ofList gamma es).map Prod.fst).toFinset := by
    ext op
    rw [List.mem_toFinset, List.mem_toFinset, mem_map_fst_ofList]
  rw [hsame, List.toFinset_card_of_nodup (nodup_map_fst_ofList gamma es), List.length_map]

theorem recommendation?_ofList_eq_none_iff :
    (ofList gamma es).recommendation? = none ↔ (es.map Prod.fst).toFinset.card < 2 := by
  rw [← length_ofList gamma, recommendation?_eq_none_iff]

lemma recommended_precedes {op : JoinOperator} (h : (ofList gamma es).recommendation? = some op) :
    op ∈ es.map Prod.fst ∧ ∀ op' ∈ es.map Prod.fst, op' ≠ op → Precedes gamma es op op' := by
  obtain ⟨first, rest, hlisted, rfl⟩ := exists_foldl_of_recommendation? h
  obtain ⟨before, after, hsplit, hbefore, hafter⟩ := foldl_better_first first rest
  have hsplit := hlisted.trans hsplit
  set best := rest.foldl better first
  have hbest : best ∈ ofList gamma es := hsplit ▸ List.mem_append_right before List.mem_cons_self
  refine ⟨(mem_map_fst_ofList gamma es).1 (List.mem_map_of_mem hbest), fun op' hop' hne => ?_⟩
  obtain ⟨e, he, rfl⟩ := List.mem_map.1 ((mem_map_fst_ofList gamma es).2 hop')
  rw [Precedes, ← snd_eq_weighted gamma es hbest, ← snd_eq_weighted gamma es he]
  rw [hsplit] at he
  rcases List.mem_append.1 he with he | he
  · exact .inl (hbefore e he)
  rcases List.mem_cons.1 he with rfl | he
  · exact absurd rfl hne
  -- what stands after the best was observed later
  have horder := pairwise_idxOf_eraseDups (es.map Prod.fst)
  rw [← map_fst_ofList gamma, hsplit, List.map_append, List.map_cons] at horder
  obtain ⟨-, hlater, -⟩ := List.pairwise_append.1 horder
  have hfirst := (List.pairwise_cons.1 hlater).1 e.1 (List.mem_map_of_mem he)
  exact (hafter e he).lt_or_eq.imp_right fun heq => ⟨heq, hfirst⟩

theorem recommendation?_ofList_eq_some_iff {op : JoinOperator} :
    (ofList gamma es).recommendation? = some op ↔
      2 ≤ (es.map Prod.fst).toFinset.card ∧ op ∈ es.map Prod.fst ∧
        ∀ op' ∈ es.map Prod.fst, op' ≠ op → Precedes gamma es op op' := by
  constructor
  · intro h
    refine ⟨not_lt.1 fun hfew => ?_, recommended_precedes gamma es h⟩
    rw [(recommendation?_ofList_eq_none_iff gamma es).2 hfew] at h
    cases h
  · rintro ⟨htwo, hop, hfirst⟩
    cases hchosen : (ofList gamma es).recommendation? with
    | none => exact absurd htwo (not_le.2 ((recommendation?_ofList_eq_none_iff gamma es).1 hchosen))
    | some op' =>
      obtain ⟨hop', hfirst'⟩ := recommended_precedes gamma es hchosen
      by_contra hne
      have hne := fun heq => hne (congrArg some heq)
      exact (hfirst op' hop' hne).asymm (hfirst' op hop (Ne.symm hne))

end Observed

end Ledger

namespace Node

open Ledger

def observeAll {α : Type} [Add α] [Mul α] (gamma : α) (es : List (JoinOperator × α)) (n : Node α) : Node α :=
  es.foldl (fun n e => n.observe gamma e.1 e.2) n

lemma costs_observeAll_empty {α : Type} [Add α] [Mul α] (gamma : α) (es : List (JoinOperator × α)) :
    (empty.observeAll gamma es).costs = ofList gamma es := by
  induction es using List.reverseRecOn with
  | nil => rfl
  | append_singleton es e ih =>
    rw [ofList_concat, ← ih, observeAll, List.foldl_concat]
    rfl

/-- In exact arithmetic, what a node holds for an operator is the sum of the operator's own costs, each counting `gamma`
times as much with each later one. A constant cost makes a geometric series, which grows and stays below its limit.
Nothing is recommended until two operators were observed, and then the operator with the least sum, of several the one
that was observed first. -/
theorem costs_decay_and_least_is_recommended (gamma : ℚ) (es : List (JoinOperator × ℚ)) :
    let n := empty.observeAll gamma es
    (∀ op, n.costs.costOf? op = if costsOf es op = [] then none else some (weighted gamma (costsOf es op))) ∧
      (∀ op op' cost, op' ≠ op → (n.observe gamma op' cost).costs.costOf? op = n.costs.costOf? op) ∧
      (∀ op cost k, costsOf es op = List.replicate (k + 1) cost →
        n.costs.costOf? op = some (cost * ∑ i ∈ range (k + 1), gamma ^ i)) ∧
      (∀ cost, 0 < gamma → 0 < cost → (StrictMono fun k => cost * ∑ i ∈ range k, gamma ^ i) ∧
        (gamma < 1 → ∀ k, cost * ∑ i ∈ range k, gamma ^ i < cost / (1 - gamma))) ∧
      (n.costs.recommendation? = none ↔ (es.map Prod.fst).toFinset.card < 2) ∧
      ∀ op, n.costs.recommendation? = some op ↔
        2 ≤ (es.map Prod.fst).toFinset.card ∧ op ∈ es.map Prod.fst ∧
          ∀ op' ∈ es.map Prod.fst, op' ≠ op → Precedes gamma es op op' := by
  intro n
  have hcosts : n.costs = ofList gamma es := costs_observeAll_empty gamma es
  refine ⟨fun op => ?_, fun op op' cost hne => ?_, fun op cost k hconstant => ?_, fun cost hgamma hcost => ?_, ?_,
    fun op => ?_⟩
  · rw [hcosts, costOf?_ofList_eq]
  · exact costOf?_observe_of_ne gamma (Ne.symm hne) cost n.costs
  · rw [hcosts, costOf?_ofList_eq, hconstant, weighted_replicate, if_neg (by simp)]
  · exact ⟨strictMono_geometric hgamma hcost, geometric_lt hgamma hcost⟩
  · rw [hcosts, recommendation?_ofList_eq_none_iff]
  · rw [hcosts, recommendation?_ofList_eq_some_iff]

theorem costs_decay_and_least_is_recommended_tie :
    let es : List (JoinOperator × ℚ) := [(.hash, 4), (.nestedLoop, 6), (.hash, 4)]
    let n := empty.observeAll (1 / 2) es
    n.costs.costOf? .hash = some 6 ∧ n.costs.costOf? .nestedLoop = some 6 ∧ n.costs.costOf? .index = none ∧
      (n.observe (1 / 2) .nestedLoop 1).costs.costOf? .hash = some 6 ∧
      (StrictMono fun k => (4 : ℚ) * ∑ i ∈ range k, (1 / 2) ^ i) ∧
      (4 : ℚ) * ∑ i ∈ range 2, (1 / 2) ^ i < 4 / (1 - 1 / 2) ∧ n.costs.recommendation? = some .hash := by
  intro es n
  obtain ⟨hcost, hother, hconstant, hlimit, -, hrecommended⟩ :=
    costs_decay_and_least_is_recommended (1 / 2) es
  obtain ⟨hmono, hbelow⟩ := hlimit 4 (by norm_num) (by norm_num)
  have hhash : weighted (1 / 2) (costsOf es .hash) = 6 := by
    have hobserved : costsOf es .hash = List.replicate 2 4 := rfl
    rw [hobserved, weighted_replicate]
    norm_num [sum_range_succ]
  have hloop : weighted (1 / 2) (costsOf es .nestedLoop) = 6 := by
    have hobserved : costsOf es .nestedLoop = List.replicate 1 6 := rfl
    rw [hobserved, weighted_replicate]
    norm_num
  have hsix : n.costs.costOf? .hash = some 6 := by
    refine (hconstant .hash 4 1 rfl).trans ?_
    norm_num [sum_range_succ]
  refine ⟨hsix, ?_, hcost .index, (hother .hash .nestedLoop 1 (by decide)).trans hsix, hmono,
    hbelow (by norm_num) 2, (hrecommended .hash).2 ⟨by decide, by decide, ?_⟩⟩
  · rw [hcost .nestedLoop, hloop]
    rfl
  · intro op hop hne
    have hop : op = .nestedLoop := by
      simp only [es, List.map_cons, List.map_nil, List.mem_cons, List.not_mem_nil, or_false] at hop
      tauto
    subst hop
    exact .inr ⟨hhash.trans hloop.symm, by decide⟩

end Node

end OptimizerHints
