import OptimizerHints.Proofs.JoinTree.Expansion
import OptimizerHints.Proofs.Plan.Built

namespace OptimizerHints

open Outcome

namespace Plan

def outerSequence (j : Plan) : Except PlanError (List Plan) :=
  match j.outer? with
  | some o => o.unwrapped.joinSequence
  | none => .ok []

lemma weight_outerSequence_lt {j : Plan} {inside : List Plan} (h : j.outerSequence = .ok inside) (js : List Plan) :
    weight inside < weight (j :: js) := by
  rw [outerSequence] at h
  split at h
  · next o ho =>
    have hsize : o.unwrapped.size + 1 ≤ j.size := (size_unwrapped_le o).trans_lt (size_lt_of_outer ho)
    have hlt := (weight_joinSequence_lt h).trans_le (Nat.pow_le_pow_right Nat.two_pos hsize)
    exact hlt.trans_le (Nat.le_add_right ..)
  · cases h
    exact (Nat.zero_le _).trans_lt (weight_lt_weight_cons j js)

def expandAll : List Plan → Except PlanError (List Plan)
  | [] => .ok []
  | j :: js =>
    match _h : j.outerSequence with
    | .error e => .error e
    | .ok inside => do
      let below ← expandAll inside
      return j :: below ++ (← expandAll js)
  termination_by js => weight js
  decreasing_by
  · exact weight_outerSequence_lt (by assumption) js
  · exact weight_lt_weight_cons j js

def expansion (p : Plan) : Except PlanError (List Plan) := do expandAll (← p.joinSequence)

/-- There is a join sequence, and one of each outer input that comes up where it is expanded. -/
inductive Linearizes : Plan → Prop
  | intro {p : Plan} {js : List Plan} : p.joinSequence = .ok js →
    (∀ j ∈ js, ∀ o, j.outer? = some o → Linearizes o.unwrapped) → Linearizes p

def HasTwoInputs (p : Plan) : Prop :=
  p.children.length = 2 ∧ (p.innerIndex = none ∨ p.innerIndex = some 0 ∨ p.innerIndex = some 1)

instance {p : Plan} : Decidable p.HasTwoInputs := inferInstanceAs (Decidable (_ ∧ _))

variable {p j o i : Plan} {js ks es fs inside below : List Plan}

lemma expandAll_cons (hj : j.outerSequence = .ok inside) (hbelow : expandAll inside = .ok below)
    (hjs : expandAll js = .ok es) : expandAll (j :: js) = .ok (j :: below ++ es) := by
  rw [expandAll]
  split
  · next h =>
    rw [hj] at h
    cases h
  · next h =>
    obtain rfl := Except.ok.inj (hj.symm.trans h)
    rw [hbelow, hjs]
    rfl

lemma expandAll_append (hjs : expandAll js = .ok es) (hks : expandAll ks = .ok fs) :
    expandAll (js ++ ks) = .ok (es ++ fs) := by
  induction js generalizing es with
  | nil =>
    rw [expandAll] at hjs
    obtain rfl := Except.ok.inj hjs
    exact hks
  | cons j js ih =>
    rw [expandAll] at hjs
    split at hjs
    · cases hjs
    · next hj =>
      obtain ⟨below, hbelow, hjs⟩ := then_ok_iff.1 hjs
      obtain ⟨es, hes, hjs⟩ := then_ok_iff.1 hjs
      obtain rfl := done_ok_iff.1 hjs
      rw [List.append_assoc]
      exact expandAll_cons hj hbelow (ih hes)

lemma expansion_of_joinSequence (h : p.joinSequence = .ok js) : p.expansion = expandAll js := by
  rw [expansion, h]
  rfl

lemma expansion_unwrapped (p : Plan) : p.unwrapped.expansion = p.expansion := by
  rw [expansion, joinSequence_unwrapped, expansion]

lemma outerSequence_of_outer (ho : j.outer? = some o) : j.outerSequence = o.joinSequence := by
  rw [outerSequence, ho]
  exact o.joinSequence_unwrapped

lemma Linearizes.exists_joinSequence (h : p.Linearizes) : ∃ js, p.joinSequence = .ok js := by
  obtain ⟨hjs, -⟩ := h
  exact ⟨_, hjs⟩

lemma Linearizes.of_joinSequence_eq {q : Plan} (h : p.Linearizes) (hq : q.joinSequence = p.joinSequence) :
    q.Linearizes := by
  obtain ⟨hjs, houter⟩ := h
  exact ⟨hq.trans hjs, houter⟩

lemma linearizes_unwrapped : p.unwrapped.Linearizes ↔ p.Linearizes :=
  ⟨fun h => h.of_joinSequence_eq p.joinSequence_unwrapped.symm, fun h => h.of_joinSequence_eq p.joinSequence_unwrapped⟩

lemma linearizes_of_isScan (hscan : p.isScan = true) : p.Linearizes :=
  ⟨joinSequence_of_isScan hscan, fun _ hj => absurd hj List.not_mem_nil⟩

lemma linearizes_join_iff (hscan : p.isScan = false) (hjoin : p.isJoin = true) (ho : p.outer? = some o)
    (hi : p.inner? = some i) : p.Linearizes ↔ o.Linearizes ∧ i.Linearizes := by
  have hsequence := joinSequence_of_isJoin hscan hjoin hi
  constructor
  · rintro ⟨hjs, houter⟩
    rw [hsequence] at hjs
    obtain ⟨js, hinner, hjs⟩ := then_ok_iff.1 hjs
    obtain rfl := done_ok_iff.1 hjs
    have hself := houter p (List.mem_append_right js (List.mem_singleton_self p)) o ho
    exact ⟨linearizes_unwrapped.1 hself, hinner, fun j hj => houter j (List.mem_append_left _ hj)⟩
  · rintro ⟨hself, ⟨hinner, houter⟩⟩
    refine ⟨hsequence.trans (then_ok_iff.2 ⟨_, hinner, rfl⟩), fun j hj o' ho' => ?_⟩
    rcases List.mem_append.1 hj with hj | hj
    · exact houter j hj o' ho'
    · obtain rfl := List.mem_singleton.1 hj
      obtain rfl := Option.some.inj (ho.symm.trans ho')
      exact linearizes_unwrapped.2 hself

lemma HasTwoInputs.exists_inputs (h : p.HasTwoInputs) :
    ∃ o i, p.outer? = some o ∧ p.inner? = some i ∧ p.children.Perm [o, i] := by
  obtain ⟨hlength, hindex⟩ := h
  obtain ⟨c, d, hchildren⟩ := List.length_eq_two.1 hlength
  rw [outer?, inner?, hchildren]
  obtain hindex | hindex | hindex := hindex
  · exact ⟨c, d, by rw [hindex]; rfl, by rw [hindex]; rfl, .refl _⟩
  · exact ⟨d, c, by rw [hindex]; rfl, by rw [hindex]; rfl, .swap d c []⟩
  · exact ⟨c, d, by rw [hindex]; rfl, by rw [hindex]; rfl, .refl _⟩

lemma joinNodes_perm (hscan : p.isScan = false) (hjoin : p.isJoin = true) (hchildren : p.children.Perm [o, i]) :
    p.joinNodes.Perm (p :: (o.joinNodes ++ i.joinNodes)) := by
  have hbelow := (hchildren.flatMap_right fun c => c.joinNodes).cons p
  rw [joinNodes_of_isJoin hscan hjoin]
  simpa using hbelow

lemma expansion_join (hscan : p.isScan = false) (hjoin : p.isJoin = true) (ho : p.outer? = some o)
    (hi : p.inner? = some i) (hinner : i.expansion = .ok es) (houter : o.expansion = .ok fs) :
    p.expansion = .ok (es ++ p :: fs) := by
  obtain ⟨inside, hinside, hes⟩ := then_ok_iff.1 hinner
  obtain ⟨outside, houtside, hfs⟩ := then_ok_iff.1 houter
  have hsequence : p.joinSequence = .ok (inside ++ [p]) :=
    (joinSequence_of_isJoin hscan hjoin hi).trans (then_ok_iff.2 ⟨inside, hinside, rfl⟩)
  have hself : expandAll [p] = .ok (p :: fs ++ []) :=
    expandAll_cons ((outerSequence_of_outer ho).trans houtside) hfs (by rw [expandAll])
  rw [List.append_nil] at hself
  rw [expansion_of_joinSequence hsequence]
  exact expandAll_append hes hself

theorem Linearizes.exists_expansion (p : Plan) (hinputs : ∀ j ∈ p.joinNodes, j.HasTwoInputs) (h : p.Linearizes) :
    ∃ es, p.expansion = .ok es ∧ es.Perm p.joinNodes := by
  rw [← joinNodes_unwrapped] at hinputs
  rw [← linearizes_unwrapped] at h
  rw [← expansion_unwrapped, ← joinNodes_unwrapped]
  obtain hscan | ⟨hscan, hjoin⟩ | ⟨hscan, hjoin, hchildren⟩ := p.unwrapped_cases
  · refine ⟨[], (expansion_of_joinSequence (joinSequence_of_isScan hscan)).trans (by rw [expandAll]), ?_⟩
    rw [joinNodes_unwrapped, joinNodes_of_isScan hscan]
  · have hself : p.unwrapped ∈ p.unwrapped.joinNodes := joinNodes_of_isJoin hscan hjoin ▸ List.mem_cons_self
    obtain ⟨o, i, ho, hi, hchildren⟩ := (hinputs _ hself).exists_inputs
    have hperm := joinNodes_perm hscan hjoin hchildren
    obtain ⟨hlo, hli⟩ := (linearizes_join_iff hscan hjoin ho hi).1 h
    have hsize := p.size_unwrapped_le
    have hlto := (size_lt_of_outer ho).trans_le hsize
    have hlti := (size_lt_of_inner hi).trans_le hsize
    have hbelow : ∀ j ∈ o.joinNodes ++ i.joinNodes, j.HasTwoInputs :=
      fun j hj => hinputs j (hperm.mem_iff.2 (List.mem_cons_of_mem _ hj))
    obtain ⟨fs, hfs, hpermo⟩ := exists_expansion o (fun j hj => hbelow j (List.mem_append_left _ hj)) hlo
    obtain ⟨es, hes, hpermi⟩ := exists_expansion i (fun j hj => hbelow j (List.mem_append_right _ hj)) hli
    refine ⟨_, expansion_join hscan hjoin ho hi hes hfs, ?_⟩
    exact (hpermi.append (hpermo.cons _)).trans ((perm_cons_append _ o.joinNodes i.joinNodes).trans hperm.symm)
  · obtain ⟨js, hjs⟩ := h.exists_joinSequence
    rw [joinSequence_of_deadEnd hscan hjoin hchildren] at hjs
    cases hjs
  termination_by p.size

end Plan

/-- A leaf has no join sequence, and a join comes after the joins of its right input. Where each join of the sequence is
followed by what its left input expands to, the joins are those of the tree, each as often as it stands there. It is the
same with the outer inputs of a plan whose joins have two inputs, if there are the join sequences that this takes: they
give the joins that no scan contains. -/
theorem expansion_meets_each_join_once :
    (∀ t i, (JoinNode.base t i).joinSequence = []) ∧
    (∀ l r i ts, (JoinNode.join l r i ts).joinSequence = r.joinSequence ++ [.join l r i ts]) ∧
    (∀ n : JoinNode, n.expansion = n.joinSequence.flatMap (fun j => j :: j.left?.elim [] JoinNode.expansion) ∧
      n.expansion.Perm n.joins) ∧
    ∀ p : Plan, (∀ j ∈ p.joinNodes, j.HasTwoInputs) → p.Linearizes →
      ∃ js, p.expansion = .ok js ∧ js.Perm p.joinNodes :=
  ⟨JoinNode.joinSequence_base, JoinNode.joinSequence_join, fun n => ⟨n.expansion_eq, n.expansion_perm_joins⟩,
    fun p hinputs h => h.exists_expansion p hinputs⟩

theorem expansion_meets_each_join_once_bushy :
    let scan (name : String) : Plan := .scan ⟨name, none, none⟩ none 1 1
    let rs : Plan := .join (some .hash) (scan "r") (scan "s") 9 1
    let uv : Plan := { Plan.join (some .hash) (scan "u") (scan "v") 9 1 with innerIndex := some 0 }
    let bushy : Plan := { Plan.join (some .nestedLoop) (.passing "Materialize" rs) (.passing "Hash" uv) 20 1 with
      innerIndex := none }
    let p : Plan := .passing "Limit" (.join none bushy (scan "w") 30 1)
    (∀ j ∈ p.joinNodes, j.HasTwoInputs) ∧ p.Linearizes ∧
      ∃ js, p.expansion = .ok js ∧ js.Perm p.joinNodes ∧ js.length = 4 := by
  intro scan rs uv bushy p
  have hinputs : ∀ j ∈ p.joinNodes, j.HasTwoInputs := by decide +kernel
  have hscan (name : String) : (scan name).Linearizes := Plan.linearizes_of_isScan rfl
  have hrs : rs.Linearizes := (Plan.linearizes_join_iff rfl rfl rfl rfl).2 ⟨hscan "r", hscan "s"⟩
  have huv : uv.Linearizes := (Plan.linearizes_join_iff rfl rfl rfl rfl).2 ⟨hscan "v", hscan "u"⟩
  have hbushy : bushy.Linearizes := (Plan.linearizes_join_iff rfl rfl rfl rfl).2
    ⟨hrs.of_joinSequence_eq (Plan.joinSequence_passing ..), huv.of_joinSequence_eq (Plan.joinSequence_passing ..)⟩
  have hp : p.Linearizes := ((Plan.linearizes_join_iff rfl rfl rfl rfl).2 ⟨hbushy, hscan "w"⟩).of_joinSequence_eq
    (Plan.joinSequence_passing ..)
  obtain ⟨-, -, -, hplans⟩ := expansion_meets_each_join_once
  obtain ⟨js, hjs, hperm⟩ := hplans p hinputs hp
  have hlength : p.joinNodes.length = 4 := by decide +kernel
  exact ⟨hinputs, hp, js, hjs, hperm, hperm.length_eq.trans hlength⟩

end OptimizerHints
