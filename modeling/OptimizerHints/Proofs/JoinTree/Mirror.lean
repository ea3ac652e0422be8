import Mathlib.Data.List.Forall2
import OptimizerHints.Proofs.JoinTree.Leaves
import OptimizerHints.Proofs.Plan.Reach

/-! A tree that is loaded from a plan mirrors what is reached of the plan: node by node, and join by join in the order
of execution. Its table sets miss only what the plan scans beside the inputs of its joins. -/

namespace OptimizerHints

open Outcome

namespace JoinNode

/-- The leaves are the scans of a plan and the joins its joins, as far as they are reached. A table may be scanned
more than once. -/
inductive Mirrors : JoinNode → Plan → Prop
  | scan {p : Plan} {t : TableRef} : p.unwrapped.isScan = true → p.unwrapped.table = some t →
    Mirrors (base t { operator := p.unwrapped.operator, upperBound := some p.unwrapped.rows }) p
  | join {p outer inner : Plan} {l r : JoinNode} : p.unwrapped.isScan = false → p.unwrapped.isJoin = true →
    p.unwrapped.outer? = some outer → p.unwrapped.inner? = some inner → Mirrors l outer → Mirrors r inner →
      Mirrors (join l r { operator := p.unwrapped.operator, upperBound := some p.unwrapped.rows, inner := some .right }
        (l.tables ∪ r.tables)) p

variable {n : JoinNode} {p : Plan}

lemma ofPlan_join {outer inner : Plan} (hscan : p.unwrapped.isScan = false) (hjoin : p.unwrapped.isJoin = true)
    (ho : p.unwrapped.outer? = some outer) (hi : p.unwrapped.inner? = some inner) :
    ofPlan p = do
      let l ← ofPlan outer
      let r ← ofPlan inner
      let n ← l.joining r
      return n.mapInfo fun _ =>
        { operator := p.unwrapped.operator, upperBound := some p.unwrapped.rows, inner := some .right } := by
  rw [ofPlan]
  simp only [hscan, hjoin, Bool.false_eq_true, if_false, if_true]
  split
  · next ho' hi' =>
    obtain rfl := Option.some.inj (ho.symm.trans ho')
    obtain rfl := Option.some.inj (hi.symm.trans hi')
    rfl
  · next hnone => exact (hnone outer inner ho hi).elim

lemma mirrors_of_ofPlan (h : ofPlan p = .ok n) : n.Mirrors p := by
  fun_induction ofPlan p generalizing n with
  | case1 plan p hscan t =>
    rename_i ht
    obtain rfl := Except.ok.inj h
    exact .scan hscan ht
  | case3 plan p hscan hjoin outer inner ho hi ihl =>
    rename_i ihr
    obtain ⟨l, hl, h⟩ := then_ok_iff.1 h
    obtain ⟨r, hr, h⟩ := then_ok_iff.1 h
    obtain ⟨j, hj, h⟩ := then_ok_iff.1 h
    obtain rfl := done_ok_iff.1 h
    obtain ⟨-, rfl⟩ := joining_ok_iff.1 hj
    exact .join (Bool.eq_false_iff.2 hscan) hjoin ho hi (ihl hl) (ihr hr)
  | _ => cases h

lemma Mirrors.ofPlan_of_sound (h : n.Mirrors p) (hsound : n.Sound) : ofPlan p = .ok n := by
  induction h with
  | scan hscan ht =>
    rw [ofPlan]
    simp only [hscan, if_true, ht]
  | join hscan hjoin ho hi _ _ ihl ihr =>
    obtain ⟨hl, hr, -, hdisjoint⟩ := hsound
    rw [ofPlan_join hscan hjoin ho hi, ihl hl, ihr hr]
    exact then_ok_iff.2 ⟨_, rfl, then_ok_iff.2 ⟨_, rfl, then_ok_iff.2 ⟨_, joining_ok_iff.2 ⟨hdisjoint, rfl⟩, rfl⟩⟩⟩

theorem ofPlan_ok_iff : ofPlan p = .ok n ↔ n.Mirrors p ∧ n.Sound :=
  ⟨fun h => ⟨mirrors_of_ofPlan h, sound_ofPlan h⟩, fun ⟨h, hsound⟩ => h.ofPlan_of_sound hsound⟩

lemma Mirrors.summed (h : n.Mirrors p) : n.Summed := by
  induction h with
  | scan => trivial
  | join _ _ _ _ _ _ ihl ihr => exact ⟨ihl, ihr, rfl⟩

lemma Mirrors.of_unwrapped_eq {q : Plan} (h : n.Mirrors p) (hq : p.unwrapped = q.unwrapped) : n.Mirrors q := by
  cases h with
  | scan hscan ht =>
    rw [hq] at hscan ht ⊢
    exact .scan hscan ht
  | join hscan hjoin ho hi hl hr =>
    rw [hq] at hscan hjoin ho hi ⊢
    exact .join hscan hjoin ho hi hl hr

theorem Mirrors.mem_tables_iff (h : n.Mirrors p) {t : TableRef} : t ∈ p.tables ↔ t ∈ n.tables ∨ p.ScansAside t := by
  induction h with
  | @scan p t' hscan ht =>
    have hscanned : p.scanned = [t'] := by rw [← p.scanned_unwrapped, Plan.scanned, if_pos hscan, ht]; rfl
    simp [Plan.tables, hscanned, tables, Plan.not_scansAside_of_isScan hscan]
  | @join p outer inner l r hscan hjoin ho hi _ _ ihl ihr =>
    rw [← p.tables_unwrapped, Plan.mem_tables_join_iff hscan ho hi, Plan.scansAside_join_iff hscan hjoin ho hi, ihl,
      ihr, tables, SortedSet.mem_union]
    simp only [or_assoc, or_left_comm]

lemma Mirrors.tables_eq (h : n.Mirrors p) (hnone : ∀ t, ¬p.ScansAside t) : p.tables = n.tables := by
  apply SortedSet.ext
  intro t
  rw [h.mem_tables_iff, or_iff_left (hnone t)]

theorem Mirrors.joinSequence (h : n.Mirrors p) :
    ∃ js, p.joinSequence = .ok js ∧
      List.Forall₂ (fun j m => m.Mirrors j ∧ ∀ t, j.ScansAside t → p.ScansAside t) js n.joinSequence := by
  induction h with
  | @scan p t hscan ht =>
    refine ⟨[], ?_, .nil⟩
    rw [← p.joinSequence_unwrapped, Plan.joinSequence_of_isScan hscan]
  | @join p outer inner l r hscan hjoin ho hi hl hr _ ihr =>
    obtain ⟨js, hjs, hmirror⟩ := ihr
    refine ⟨js ++ [p.unwrapped], ?_, ?_⟩
    · rw [← p.joinSequence_unwrapped, Plan.joinSequence_of_isJoin hscan hjoin hi, hjs]
      rfl
    · have hinner := hmirror.imp fun j m hj => And.imp_right (fun haside t ht =>
        (Plan.scansAside_join_iff hscan hjoin ho hi).2 (.inr (.inl (haside t ht)))) hj
      have hself := (Mirrors.join hscan hjoin ho hi hl hr).of_unwrapped_eq p.unwrapped_unwrapped.symm
      rw [joinSequence_join]
      exact List.rel_append hinner (.cons ⟨hself, fun t => p.scansAside_unwrapped.1⟩ .nil)

end JoinNode

namespace JoinTree

lemma ofPlan_ok_iff {p : Plan} {t : JoinTree} : ofPlan p = .ok t ↔ ∃ n, JoinNode.ofPlan p = .ok n ∧ t = ⟨some n⟩ := by
  rw [ofPlan, then_ok_iff]
  exact exists_congr fun n => and_congr_right fun _ => done_ok_iff.trans eq_comm

/-- A plan that loads as a tree has a join sequence that is as long as that of the tree. A join of the one has the
tables of the join at the same position of the other, and the plan those of the tree, except for what is scanned below
further children of joins, next to their two inputs. -/
theorem ofPlan_keeps_joinSequence {p : Plan} {t : JoinTree} (h : ofPlan p = .ok t) :
    ∃ js, p.joinSequence = .ok js ∧ js.length = t.joinSequence.length ∧
      (∀ k (hj : k < js.length) (hn : k < t.joinSequence.length) x,
        x ∈ js[k].tables ↔ x ∈ t.joinSequence[k].tables ∨ js[k].ScansAside x) ∧
      (∀ x, x ∈ p.tables ↔ x ∈ t.tables ∨ p.ScansAside x) ∧
      ((∀ x, ¬p.ScansAside x) → js.map Plan.tables = t.joinSequence.map JoinNode.tables ∧ p.tables = t.tables) := by
  obtain ⟨n, hn, rfl⟩ := ofPlan_ok_iff.1 h
  have hmirrors := JoinNode.mirrors_of_ofPlan hn
  obtain ⟨js, hjs, hall⟩ := hmirrors.joinSequence
  obtain ⟨hlength, hat⟩ := List.forall₂_iff_get.1 hall
  refine ⟨js, hjs, hlength, fun k hj hk x => (hat k hj hk).1.mem_tables_iff, fun x => hmirrors.mem_tables_iff, ?_⟩
  intro hnone
  refine ⟨?_, hmirrors.tables_eq hnone⟩
  have hsame : List.Forall₂ (fun j m => j.tables = m.tables) js n.joinSequence :=
    hall.imp fun j m ⟨hm, haside⟩ => hm.tables_eq fun t ht => hnone t (haside t ht)
  rw [← List.forall₂_map_right_iff, ← List.forall₂_map_left_iff, List.forall₂_eq_eq_eq] at hsame
  exact hsame

theorem ofPlan_keeps_joinSequence_aside :
    let table (name : String) : TableRef := ⟨name, none, none⟩
    let scan (name : String) : Plan := .scan (table name) none 1 1
    let below : Plan := { Plan.join (some .hash) (scan "r") (scan "s") 9 1 with
      children := [scan "r", .passing "Hash" (scan "s"), scan "u"] }
    let p : Plan := .join (some .nestedLoop) (scan "v") below 20 1
    let leaf (name : String) : JoinNode := .base (table name) { upperBound := some 1 }
    let info (op : JoinOperator) : NodeInfo :=
      { operator := some (.join op), upperBound := some 1, inner := some .right }
    let rs : JoinNode := .join (leaf "r") (leaf "s") (info .hash) (.ofList [table "r", table "s"])
    let t : JoinTree := ⟨some (.join (leaf "v") rs (info .nestedLoop) (.ofList [table "r", table "s", table "v"]))⟩
    ofPlan p = .ok t ∧ (∃ js, p.joinSequence = .ok js ∧ js.length = 2) ∧ table "u" ∉ t.tables ∧
      p.ScansAside (table "u") := by
  intro table scan below p leaf info rs t
  have ht : ofPlan p = .ok t := by decide +kernel
  have hu : table "u" ∉ t.tables := by decide +kernel
  obtain ⟨js, hjs, hlength, -, htables, -⟩ := ofPlan_keeps_joinSequence ht
  exact ⟨ht, ⟨js, hjs, hlength⟩, hu, ((htables _).1 (by decide +kernel)).resolve_left hu⟩

theorem ofPlan_misses_aside :
    let table (name : String) : TableRef := ⟨name, none, none⟩
    let scan (name : String) : Plan := .scan (table name) none 1 1
    let p : Plan := { Plan.join (some .hash) (scan "r") (scan "s") 9 1 with children := [scan "r", scan "s", scan "u"] }
    let leaf (name : String) : JoinNode := .base (table name) { upperBound := some 1 }
    let info : NodeInfo := { operator := some (.join .hash), upperBound := some 1, inner := some .right }
    let t : JoinTree := ⟨some (.join (leaf "r") (leaf "s") info (.ofList [table "r", table "s"]))⟩
    ofPlan p = .ok t ∧ p.tables ≠ t.tables ∧
      p.joinSequence.map (·.map Plan.tables) ≠ .ok (t.joinSequence.map JoinNode.tables) := by
  decide +kernel

end JoinTree

end OptimizerHints
