import OptimizerHints.Proofs.Plan.Explained

namespace OptimizerHints.Plan

open Outcome

def SolelyReported (items : List Document) (relationship : String) (k : Nat) : Prop :=
  ∀ m, (items[m]?.bind fun c => c.textField? "Parent Relationship") = some relationship ↔ m = k

variable {d n root : Document} {p q : Plan} {items : List Document} {path : List Nat} {i j k : Nat}

lemma solelyReported_of_forall_lt {relationship : String} (hk : k < items.length)
    (h : ∀ m < items.length, (items[m]?.bind fun c => c.textField? "Parent Relationship") = some relationship ↔ m = k) :
    SolelyReported items relationship k := by
  intro m
  by_cases hm : m < items.length
  · exact h m hm
  · rw [List.getElem?_eq_none (Nat.le_of_not_lt hm)]
    exact iff_of_false nofun fun heq => hm (heq ▸ hk)

lemma explainedInner_of_solelyReported (h : SolelyReported items "Inner" i) : explainedInner items = some i := by
  obtain ⟨c, hc, hinner⟩ := Option.bind_eq_some_iff.1 ((h i).2 rfl)
  have hmem : (c, i) ∈ items.zipIdx.filter fun c => c.1.textField? "Parent Relationship" == some "Inner" := by
    rw [List.mem_filter, List.mem_zipIdx_iff_getElem?]
    exact ⟨hc, beq_iff_eq.2 hinner⟩
  rw [explainedInner]
  cases hlast : (items.zipIdx.filter fun c => c.1.textField? "Parent Relationship" == some "Inner").getLast? with
  | none =>
    rw [List.getLast?_eq_none_iff.1 hlast] at hmem
    cases hmem
  | some e =>
    obtain ⟨hat, hreported⟩ := List.mem_filter.1 (List.mem_of_getLast? hlast)
    have hsole : (items[e.2]?.bind fun c => c.textField? "Parent Relationship") = some "Inner" :=
      Option.bind_eq_some_iff.2 ⟨e.1, List.mem_zipIdx_iff_getElem?.1 hat, beq_iff_eq.1 hreported⟩
    exact congrArg some ((h e.2).1 hsole)

lemma explainedInputs_of_join (htype : ∃ nodeType ∈ joinTypes, n.textField? "Node Type" = some nodeType)
    (hrelation : n.field? "Relation Name" = none) (hplans : n.field? "Plans" = some (.list items)) :
    explainedInputs n = items := by
  obtain ⟨nodeType, hmem, htype⟩ := htype
  have hscan : ∀ nodeType ∈ joinTypes, scanTypes.contains nodeType = false := by decide
  have hreads : readsTable n nodeType = false := by rw [readsTable, hscan nodeType hmem, hrelation]; rfl
  rw [explainedInputs, htype, hplans]
  exact if_neg (Bool.eq_false_iff.1 hreads)

lemma exists_child_explained (h : ofExplainedNode n = .ok q) (hk : k < (explainedInputs n).length) :
    ∃ m c, (explainedInputs n)[k]? = some m ∧ ofExplainedNode m = .ok c ∧ q.children[k]? = some c := by
  have hrel := rel_getElem? (children_explained h) k
  rw [List.getElem?_eq_getElem hk] at hrel ⊢
  generalize q.children[k]? = c at hrel
  cases hrel with
  | some hc => exact ⟨_, _, rfl, hc, rfl⟩

lemma SolelyReported.lt_length {relationship : String} (h : SolelyReported items relationship k) :
    k < items.length := by
  obtain ⟨c, hc, -⟩ := Option.bind_eq_some_iff.1 ((h k).2 rfl)
  exact (List.getElem?_eq_some_iff.1 hc).1

lemma SolelyReported.ne (hi : SolelyReported items "Inner" i) (ho : SolelyReported items "Outer" j) : i ≠ j := by
  rintro rfl
  have hinner := (hi i).2 rfl
  rw [(ho i).2 rfl] at hinner
  exact absurd hinner (by decide)

lemma inputs_explained (h : ofExplainedNode n = .ok q) (hinputs : explainedInputs n = items)
    (hi : SolelyReported items "Inner" i) (ho : SolelyReported items "Outer" j) :
    (∃ m inner, items[i]? = some m ∧ ofExplainedNode m = .ok inner ∧ q.inner? = some inner) ∧
      (∃ m first, items[if i = 0 then 1 else 0]? = some m ∧ ofExplainedNode m = .ok first ∧ q.outer? = some first) ∧
      ((∀ k < j, k = i) → ∃ m outer, items[j]? = some m ∧ ofExplainedNode m = .ok outer ∧ q.outer? = some outer) := by
  have hilt := hi.lt_length
  have hjlt := ho.lt_length
  have hne := hi.ne ho
  have hindex : q.innerIndex = some i :=
    (innerIndex_explained h).trans (hinputs ▸ explainedInner_of_solelyReported hi)
  have hinner : q.inner? = q.children[i]? := by rw [inner?, hindex]; rfl
  have houter : q.outer? = q.children[if i = 0 then 1 else 0]? := by rw [outer?, hindex]; simp
  subst hinputs
  have hfirst := exists_child_explained (k := if i = 0 then 1 else 0) h (by split <;> omega)
  rw [hinner, houter]
  refine ⟨exists_child_explained h hilt, hfirst, fun hbefore => ?_⟩
  have hj : j = if i = 0 then 1 else 0 := by
    split
    · next hzero =>
      by_contra hone
      have hk := hbefore 1 (by omega)
      omega
    · next hpos =>
      by_contra hzero
      have hk := hbefore 0 (by omega)
      omega
  rw [hj]
  exact hfirst

/-- The inner input of a join is read from the part that is reported as inner, and its outer input from the first part
besides: this is the part that is reported as outer unless something else stands before it. -/
theorem inner_as_reported_outer_first (h : ofExplained d = .ok p)
    (hroot : (explainedTop d).field? "Plan" = some root) (hn : explainedAt? root path = some n)
    (htype : ∃ nodeType ∈ joinTypes, n.textField? "Node Type" = some nodeType)
    (hrelation : n.field? "Relation Name" = none) (hplans : n.field? "Plans" = some (.list items))
    (hi : SolelyReported items "Inner" i) (ho : SolelyReported items "Outer" j) :
    ∃ q, p.at? path = some q ∧
      (∃ m inner, items[i]? = some m ∧ ofExplainedNode m = .ok inner ∧ q.inner? = some inner) ∧
      (∃ m first, items[if i = 0 then 1 else 0]? = some m ∧ ofExplainedNode m = .ok first ∧ q.outer? = some first) ∧
      ((∀ k < j, k = i) → ∃ m outer, items[j]? = some m ∧ ofExplainedNode m = .ok outer ∧ q.outer? = some outer) := by
  obtain ⟨root', hroot', hread⟩ := at?_ofExplained h
  obtain rfl := Option.some.inj (hroot.symm.trans hroot')
  have hnode := hread path
  rw [hn] at hnode
  generalize p.at? path = at' at hnode
  cases hnode with
  | @some _ q hq =>
    have hinputs := inputs_explained hq (explainedInputs_of_join htype hrelation hplans) hi ho
    exact ⟨q, rfl, hinputs⟩

theorem inner_as_reported_outer_first_subplan :
    let node (nodeType relationship : String) (fields : List (String × Document)) : Document :=
      .ofFields ([("Node Type", .text nodeType), ("Parent Relationship", .text relationship)] ++ fields)
    let scan (relationship name : String) := node "Seq Scan" relationship [("Relation Name", .text name)]
    let items := [scan "Inner" "s", scan "Outer" "r", node "Result" "SubPlan" []]
    let below := node "Nested Loop" "Outer" [("Plans", .list items)]
    let hash := node "Hash" "Inner" [("Plans", .list [scan "Outer" "u"])]
    let above := node "Hash Join" "Outer" [("Plans", .list [below, hash])]
    let d : Document := .list [.ofFields [("Plan", above)]]
    ∃ p q outer inner, ofExplained d = .ok p ∧ p.at? [0] = some q ∧
      ofExplainedNode (scan "Outer" "r") = .ok outer ∧ q.outer? = some outer ∧
      ofExplainedNode (scan "Inner" "s") = .ok inner ∧ q.inner? = some inner := by
  intro node scan items below hash above d
  have hsole : SolelyReported items "Inner" 0 ∧ SolelyReported items "Outer" 1 := by
    constructor <;> exact solelyReported_of_forall_lt (by decide) (by decide +kernel)
  have hok : (ofExplained d).isOk = true := by decide +kernel
  cases hp : ofExplained d with
  | error e =>
    rw [hp] at hok
    cases hok
  | ok p =>
    obtain ⟨q, hq, ⟨m, inner, hm, hinner, hi⟩, -, houter⟩ := inner_as_reported_outer_first hp
      (by rfl : (explainedTop d).field? "Plan" = some above) (by rfl : explainedAt? above [0] = some below)
      ⟨"Nested Loop", by decide, by rfl⟩ (by rfl) (by rfl : below.field? "Plans" = some (.list items)) hsole.1 hsole.2
    obtain ⟨m', outer, hm', houter, ho⟩ := houter (by omega)
    obtain rfl := Option.some.inj hm
    obtain rfl := Option.some.inj hm'
    exact ⟨p, q, outer, inner, rfl, hq, houter, ho, hinner, hi⟩

/-- A scan of `u` whose result is needed first stands before the part that is reported as outer, and is taken for it. -/
theorem outer_as_reported_misses_initplan :
    let node (nodeType relationship : String) (fields : List (String × Document)) : Document :=
      .ofFields ([("Node Type", .text nodeType), ("Parent Relationship", .text relationship)] ++ fields)
    let scan (relationship name : String) := node "Seq Scan" relationship [("Relation Name", .text name)]
    let items := [scan "InitPlan" "u", scan "Outer" "r", scan "Inner" "s"]
    let d : Document := .list [.ofFields [("Plan", node "Nested Loop" "" [("Plans", .list items)])]]
    SolelyReported items "Inner" 2 ∧ SolelyReported items "Outer" 1 ∧
      ∃ p outer, ofExplained d = .ok p ∧ ofExplainedNode (scan "Outer" "r") = .ok outer ∧ p.outer? ≠ some outer := by
  intro node scan items d
  have hsole : SolelyReported items "Inner" 2 ∧ SolelyReported items "Outer" 1 := by
    constructor <;> exact solelyReported_of_forall_lt (by decide) (by decide +kernel)
  have htaken : (ofExplained d).map (fun p => p.outer?.map scanned) = .ok (some [⟨"u", none, none⟩]) := by
    decide +kernel
  have hreported : (ofExplainedNode (scan "Outer" "r")).map scanned = .ok [⟨"r", none, none⟩] := by decide +kernel
  obtain ⟨p, hp, htaken⟩ := mapped_ok_iff.1 htaken
  obtain ⟨outer, houter, hreported⟩ := mapped_ok_iff.1 hreported
  refine ⟨hsole.1, hsole.2, p, outer, hp, houter, fun heq => ?_⟩
  rw [heq, Option.map_some, hreported] at htaken
  exact absurd htaken (by decide)

end OptimizerHints.Plan
