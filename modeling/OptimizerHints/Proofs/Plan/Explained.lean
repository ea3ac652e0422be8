import Mathlib.Data.List.Forall2
import OptimizerHints.Plan.Explained
import OptimizerHints.Proofs.Outcome
import OptimizerHints.Proofs.Plan.Reach

namespace OptimizerHints.Plan

open Outcome

def explainedInputs (d : Document) : List Document :=
  match d.textField? "Node Type", d.field? "Plans" with
  | some nodeType, some (.list items) => if readsTable d nodeType then [] else items
  | _, _ => []

def explainedAt? (d : Document) : List Nat → Option Document
  | [] => some d
  | k :: path => (explainedInputs d)[k]?.bind fun c => explainedAt? c path

def at? (p : Plan) : List Nat → Option Plan
  | [] => some p
  | k :: path => p.children[k]?.bind fun c => c.at? path

variable {d : Document} {p q : Plan}

lemma at?_append (p : Plan) (path path' : List Nat) :
    p.at? (path ++ path') = (p.at? path).bind fun q => q.at? path' := by
  induction path generalizing p with
  | nil => rfl
  | cons k path ih =>
    rw [List.cons_append, at?, at?]
    cases p.children[k]? with
    | none => rfl
    | some c => exact ih c

lemma at?_inner {c : Plan} (h : p.inner? = some c) : ∃ path, p.at? path = some c :=
  ⟨[p.innerIndex.getD 1], Option.bind_eq_some_iff.2 ⟨c, h, rfl⟩⟩

lemma at?_outer {c : Plan} (h : p.outer? = some c) : ∃ path, p.at? path = some c :=
  ⟨[if p.innerIndex = some 0 then 1 else 0], Option.bind_eq_some_iff.2 ⟨c, h, rfl⟩⟩

lemma at?_unwrapped (p : Plan) : ∃ path, p.at? path = some p.unwrapped := by
  fun_induction unwrapped p with
  | case1 p c h ih =>
    obtain ⟨path, hpath⟩ := ih
    obtain ⟨-, -, hchildren⟩ := passed?_eq_some_iff.1 h
    exact ⟨0 :: path, by rw [at?, hchildren]; exact hpath⟩
  | case2 p h => exact ⟨[], rfl⟩

lemma at?_trans {c : Plan} (h : ∃ path, p.at? path = some c) (h' : ∃ path, c.at? path = some q) :
    ∃ path, p.at? path = some q := by
  obtain ⟨path, hpath⟩ := h
  obtain ⟨path', hpath'⟩ := h'
  exact ⟨path ++ path', by rw [at?_append, hpath]; exact hpath'⟩

lemma Reaches.exists_at? {sides : List Side} (h : p.Reaches sides q) : ∃ path, p.at? path = some q := by
  induction h with
  | here p => exact at?_unwrapped p
  | outer _ _ ho _ ih => exact at?_trans (at?_unwrapped _) (at?_trans (at?_outer ho) ih)
  | inner _ _ hi _ ih => exact at?_trans (at?_unwrapped _) (at?_trans (at?_inner hi) ih)

lemma ofExplainedNodes_ok_iff {items : List Document} {ps : List Plan} :
    ofExplainedNodes items = .ok ps ↔
      List.Forall₂ (fun d p => d.isRecord = true ∧ ofExplainedNode d = .ok p) items ps := by
  induction items generalizing ps with
  | nil =>
    rw [ofExplainedNodes, List.forall₂_nil_left_iff]
    exact done_ok_iff.trans eq_comm
  | cons d ds ih =>
    rw [ofExplainedNodes, List.forall₂_cons_left_iff]
    cases d.isRecord with
    | false => simp
    | true =>
      simp only [if_true, then_ok_iff, done_ok_iff, ih, true_and]
      constructor
      · rintro ⟨q, hq, qs, hqs, rfl⟩
        exact ⟨q, qs, hq, hqs, rfl⟩
      · rintro ⟨q, qs, hq, hqs, rfl⟩
        exact ⟨q, hq, qs, hqs, rfl⟩

lemma explainedInputs_of_readsTable {nodeType : String} (htype : d.textField? "Node Type" = some nodeType)
    (h : readsTable d nodeType = true) : explainedInputs d = [] := by
  unfold explainedInputs
  split
  · next htype' _ =>
    obtain rfl := Option.some.inj (htype.symm.trans htype')
    exact if_pos h
  · rfl

theorem ofExplainedNode_ok_iff :
    ofExplainedNode d = .ok p ↔ ∃ nodeType, d.textField? "Node Type" = some nodeType ∧
      ((readsTable d nodeType = true ∧
          ∃ t, explainedTable d = .ok t ∧ explainedNode d nodeType (some t) [] none = p) ∨
        (readsTable d nodeType = false ∧
          ∃ ps, ofExplainedNodes (explainedInputs d) = .ok ps ∧
            explainedNode d nodeType none ps (explainedInner (explainedInputs d)) = p)) := by
  rw [ofExplainedNode]
  cases htype : d.textField? "Node Type" with
  | none => simp
  | some nodeType =>
    simp only [Option.some.injEq, exists_eq_left']
    cases hreads : readsTable d nodeType with
    | true => simp only [if_true, true_and, Bool.true_eq_false, false_and, or_false, then_ok_iff, done_ok_iff]
    | false =>
      simp only [Bool.false_eq_true, if_false, false_and, true_and, false_or]
      split
      · next items hplans =>
        have hinputs : explainedInputs d = items := by simp [explainedInputs, htype, hplans, hreads]
        simp only [hinputs, then_ok_iff, done_ok_iff]
      · next hplans =>
        have hinputs : explainedInputs d = [] := by
          unfold explainedInputs
          split
          · next items _ hitems => exact (hplans items hitems).elim
          · rfl
        simp [hinputs, ofExplainedNodes_ok_iff, List.forall₂_nil_left_iff, explainedInner]

lemma innerIndex_explained (h : ofExplainedNode d = .ok p) : p.innerIndex = explainedInner (explainedInputs d) := by
  obtain ⟨nodeType, htype, ⟨hreads, t, -, rfl⟩ | ⟨-, ps, -, rfl⟩⟩ := ofExplainedNode_ok_iff.1 h
  · rw [explainedInputs_of_readsTable htype hreads]
    rfl
  · rfl

lemma children_explained (h : ofExplainedNode d = .ok p) :
    List.Forall₂ (fun c q => ofExplainedNode c = .ok q) (explainedInputs d) p.children := by
  obtain ⟨nodeType, htype, ⟨hreads, t, -, rfl⟩ | ⟨-, ps, hps, rfl⟩⟩ := ofExplainedNode_ok_iff.1 h
  · rw [explainedInputs_of_readsTable htype hreads]
    exact .nil
  · exact (ofExplainedNodes_ok_iff.1 hps).imp fun c q hc => hc.2

lemma rel_getElem? {α β : Type} {R : α → β → Prop} {xs : List α} {ys : List β} (h : List.Forall₂ R xs ys) (k : Nat) :
    Option.Rel R xs[k]? ys[k]? := by
  induction h generalizing k with
  | nil => exact .none
  | cons hxy _ ih =>
    cases k with
    | zero => exact .some hxy
    | succ k => exact ih k

theorem at?_explained (h : ofExplainedNode d = .ok p) (path : List Nat) :
    Option.Rel (fun c q => ofExplainedNode c = .ok q) (explainedAt? d path) (p.at? path) := by
  induction path generalizing d p with
  | nil => exact .some h
  | cons k path ih =>
    have hk := rel_getElem? (children_explained h) k
    rw [explainedAt?, at?]
    generalize (explainedInputs d)[k]? = c at hk
    generalize p.children[k]? = q at hk
    cases hk with
    | none => exact .none
    | some hc => exact ih hc

lemma operator_explained (h : ofExplainedNode d = .ok p) (hjoin : p.isJoin = true) :
    ∃ op : JoinOperator, op ∈ [JoinOperator.nestedLoop, .hash, .sortMerge] ∧ p.operator = some (.join op) := by
  have htypes : ∀ nodeType ∈ joinTypes, ∃ op : JoinOperator,
      op ∈ [JoinOperator.nestedLoop, .hash, .sortMerge] ∧ Operator.ofName? nodeType = some (.join op) := by
    simp only [joinTypes, List.forall_mem_cons, List.not_mem_nil, false_imp_iff, implies_true, and_true]
    refine ⟨⟨.nestedLoop, ?_⟩, ⟨.hash, ?_⟩, .sortMerge, ?_⟩ <;> decide +kernel
  obtain ⟨nodeType, -, ⟨-, t, -, rfl⟩ | ⟨-, ps, -, rfl⟩⟩ := ofExplainedNode_ok_iff.1 h
  all_goals
    dsimp only [explainedNode] at hjoin ⊢
    exact htypes nodeType (List.contains_iff_mem.1 hjoin)

lemma executionTime_explained (h : ofExplainedNode d = .ok p) : p.executionTime = none := by
  obtain ⟨nodeType, htype, ⟨-, t, -, rfl⟩ | ⟨-, ps, -, rfl⟩⟩ := ofExplainedNode_ok_iff.1 h <;> rfl

def explainedTop (d : Document) : Document :=
  match d with
  | .list (first :: _) => first
  | d => d

lemma exists_explained_root (h : ofExplained d = .ok p) :
    ∃ root q, (explainedTop d).field? "Plan" = some root ∧ ofExplainedNode root = .ok q ∧
      { q with executionTime := p.executionTime } = p := by
  unfold ofExplained at h
  extract_lets read at h
  have htop : ∀ top, read top = .ok p →
      ∃ root q, top.field? "Plan" = some root ∧ ofExplainedNode root = .ok q ∧
        { q with executionTime := p.executionTime } = p := by
    intro top h
    dsimp only [read] at h
    cases hrecord : top.isRecord with
    | false =>
      rw [hrecord] at h
      cases h
    | true =>
      rw [hrecord] at h
      cases hroot : (top.field? "Plan").filter Document.isRecord with
      | none =>
        rw [hroot] at h
        cases h
      | some root =>
        rw [hroot] at h
        obtain ⟨q, hq, h⟩ := then_ok_iff.1 h
        obtain rfl := done_ok_iff.1 h
        exact ⟨root, q, (Option.filter_eq_some_iff.1 hroot).1, hq, rfl⟩
  cases d with
  | list items =>
    cases items with
    | nil => cases h
    | cons first rest => exact htop first h
  | _ => exact htop _ h

theorem at?_ofExplained (h : ofExplained d = .ok p) :
    ∃ root, (explainedTop d).field? "Plan" = some root ∧ ∀ path,
      Option.Rel (fun c q => ofExplainedNode c = .ok { q with executionTime := none }) (explainedAt? root path)
        (p.at? path) := by
  obtain ⟨root, q, hroot, hq, hp⟩ := exists_explained_root h
  have hsame : ∀ {c q}, ofExplainedNode c = .ok q → ofExplainedNode c = .ok { q with executionTime := none } := by
    intro c q hc
    have htime := executionTime_explained hc
    cases q
    cases htime
    exact hc
  have hself := hsame hq
  refine ⟨root, hroot, fun path => ?_⟩
  have hpath := at?_explained hq path
  cases path with
  | nil =>
    rw [← hp]
    exact .some hself
  | cons k path =>
    have hat : p.at? (k :: path) = q.at? (k :: path) := by rw [← hp]; rfl
    rw [hat]
    generalize explainedAt? root (k :: path) = c at hpath
    generalize q.at? (k :: path) = q' at hpath
    cases hpath with
    | none => exact .none
    | some hc => exact .some (hsame hc)

lemma operator_reached (h : ofExplained d = .ok p) {path : List Side} (hq : p.Reaches path q)
    (hjoin : q.isJoin = true) :
    ∃ op : JoinOperator, op ∈ [JoinOperator.nestedLoop, .hash, .sortMerge] ∧ q.operator = some (.join op) := by
  obtain ⟨root, -, hread⟩ := at?_ofExplained h
  obtain ⟨place, hplace⟩ := hq.exists_at?
  have hnode := hread place
  rw [hplace] at hnode
  generalize explainedAt? root place = c at hnode
  cases hnode with
  | some hc =>
    have hoperator := operator_explained hc hjoin
    exact hoperator

end OptimizerHints.Plan
