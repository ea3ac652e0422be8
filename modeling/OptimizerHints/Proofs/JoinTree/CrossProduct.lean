import Mathlib.Data.List.Induction
import OptimizerHints.Proofs.JoinTree.Representation
import OptimizerHints.Proofs.JoinTree.Update

/-! The cross product puts trees side by side: each of them stays what it is, below joins that go down to the left. -/

namespace OptimizerHints

open Outcome

namespace JoinNode

def Apart (l r : JoinNode) : Prop := ∀ x ∈ l.tables, x ∉ r.tables

def crossed (l r : JoinNode) : JoinNode := join l r {} (l.tables ∪ r.tables)

/-- The way to one of so many inputs, which are counted from the left, below joins that go down to the left. -/
def inputPath (count k : Nat) : List Side := List.replicate (count - 1 - k) .left ++ if k = 0 then [] else [.right]

variable {n m : JoinNode} {ns : List JoinNode}

lemma Apart.symm (h : n.Apart m) : m.Apart n := fun x hm hn => h x hn hm

lemma foldl_crossed_concat (n : JoinNode) (ns : List JoinNode) (r : JoinNode) :
    (ns ++ [r]).foldl crossed n = crossed (ns.foldl crossed n) r := by
  rw [List.foldl_append, List.foldl_cons, List.foldl_nil]

lemma leaves_foldl_crossed (n : JoinNode) (ns : List JoinNode) :
    (ns.foldl crossed n).leaves = (n :: ns).flatMap leaves := by
  induction ns using List.reverseRecOn with
  | nil => simp
  | append_singleton ns r ih =>
    rw [foldl_crossed_concat, crossed, leaves, ih]
    simp

lemma mem_tables_foldl_crossed (n : JoinNode) (ns : List JoinNode) {x : TableRef} :
    x ∈ (ns.foldl crossed n).tables ↔ ∃ m ∈ n :: ns, x ∈ m.tables := by
  induction ns using List.reverseRecOn with
  | nil => simp
  | append_singleton ns r ih =>
    rw [foldl_crossed_concat, crossed, tables, SortedSet.mem_union, ih, ← List.cons_append]
    simp only [List.mem_append, List.mem_singleton, or_and_right, exists_or, exists_eq_left]

lemma apart_foldl_crossed_iff {r : JoinNode} : (ns.foldl crossed n).Apart r ↔ ∀ m ∈ n :: ns, m.Apart r := by
  constructor
  · exact fun h m hm x hx => h x ((mem_tables_foldl_crossed n ns).2 ⟨m, hm, hx⟩)
  · intro h x hx
    obtain ⟨m, hm, hx⟩ := (mem_tables_foldl_crossed n ns).1 hx
    exact h m hm x hx

lemma inputPath_succ {count k : Nat} (h : k < count) : inputPath (count + 1) k = .left :: inputPath count k := by
  have hdepth : count + 1 - 1 - k = count - 1 - k + 1 := by omega
  rw [inputPath, inputPath, hdepth, List.replicate_succ, List.cons_append]

lemma inputPath_last (count : Nat) : inputPath (count + 2) (count + 1) = [.right] := by
  have hdepth : count + 2 - 1 - (count + 1) = 0 := by omega
  rw [inputPath, hdepth, if_neg (Nat.succ_ne_zero count)]
  rfl

lemma at?_foldl_crossed {k : Nat} (h : (n :: ns)[k]? = some m) :
    (ns.foldl crossed n).at? (inputPath (ns.length + 1) k) = some m := by
  induction ns using List.reverseRecOn generalizing k with
  | nil =>
    obtain ⟨hk, rfl⟩ := List.getElem?_eq_some_iff.1 h
    obtain rfl : k = 0 := Nat.lt_one_iff.1 hk
    exact at?_nil n
  | append_singleton ns r ih =>
    rw [foldl_crossed_concat, List.length_append, List.length_singleton]
    rw [← List.cons_append] at h
    by_cases hk : k < ns.length + 1
    · rw [List.getElem?_append_left hk] at h
      rw [inputPath_succ hk]
      exact ih h
    · rw [List.getElem?_append_right (Nat.le_of_not_lt hk), List.getElem?_singleton] at h
      obtain ⟨hlast, h⟩ := Option.ite_none_right_eq_some.1 h
      obtain rfl := Option.some.inj h
      obtain rfl : k = ns.length + 1 := Nat.le_antisymm (Nat.le_of_sub_eq_zero hlast) (Nat.le_of_not_lt hk)
      rw [inputPath_last]
      exact at?_nil r

lemma joins_foldl_crossed (n : JoinNode) (ns : List JoinNode) :
    ∃ new : List JoinNode, new.length = ns.length ∧
      (ns.foldl crossed n).joins.Perm (new ++ (n :: ns).flatMap joins) ∧
      ∀ d j, new[d]? = some j →
        (ns.foldl crossed n).at? (List.replicate d .left) = some j ∧ ∃ l r, j = crossed l r := by
  induction ns using List.reverseRecOn with
  | nil => exact ⟨[], rfl, by simp, nofun⟩
  | append_singleton ns r ih =>
    obtain ⟨new, hlength, hperm, hspine⟩ := ih
    refine ⟨crossed (ns.foldl crossed n) r :: new, by simp [hlength], ?_, fun d j hj => ?_⟩
    · rw [foldl_crossed_concat, ← List.cons_append, List.flatMap_append, List.flatMap_singleton]
      have happended := (hperm.append_right r.joins).cons (crossed (ns.foldl crossed n) r)
      rwa [List.append_assoc] at happended
    · rw [foldl_crossed_concat]
      cases d with
      | zero =>
        obtain rfl := Option.some.inj hj
        exact ⟨at?_nil _, _, _, rfl⟩
      | succ d => exact hspine d j hj

end JoinNode

namespace JoinTree

open JoinNode

def roots (ts : List JoinTree) : List JoinNode := ts.filterMap root

def sideBySide : List JoinNode → JoinTree
  | [] => empty
  | n :: ns => ⟨some (ns.foldl crossed n)⟩

variable {ns : List JoinNode} {n : JoinNode} {p : JoinTree}

lemma joining_root_ok_iff :
    (sideBySide ns).joining ⟨some n⟩ = .ok p ↔ (∀ m ∈ ns, m.Apart n) ∧ p = sideBySide (ns ++ [n]) := by
  cases ns with
  | nil => exact ⟨fun h => ⟨nofun, (Except.ok.inj h).symm⟩, fun h => congrArg Except.ok h.2.symm⟩
  | cons m ms =>
    have hjoined : (sideBySide (m :: ms)).joining ⟨some n⟩ =
      (do return ⟨some (← (ms.foldl crossed m).joining n)⟩) := rfl
    have hconcat : sideBySide (m :: ms ++ [n]) = ⟨some (crossed (ms.foldl crossed m) n)⟩ :=
      congrArg (fun n => JoinTree.mk (some n)) (foldl_crossed_concat m ms n)
    rw [hjoined, hconcat, ← apart_foldl_crossed_iff, then_ok_iff]
    simp only [joining_ok_iff, done_ok_iff]
    constructor
    · rintro ⟨_, ⟨happart, rfl⟩, rfl⟩
      exact ⟨happart, rfl⟩
    · rintro ⟨happart, rfl⟩
      exact ⟨_, ⟨happart, rfl⟩, rfl⟩

lemma joining_of_root_none (l : JoinTree) {t : JoinTree} (h : t.root = none) : l.joining t = .ok l := by
  obtain rfl : t = ⟨none⟩ := congrArg mk h
  obtain ⟨_ | n⟩ := l <;> rfl

lemma crossProduct_eq (ts : List JoinTree) :
    crossProduct ts = (roots ts).foldlM (fun t n => t.joining ⟨some n⟩) (sideBySide []) := by
  rw [crossProduct, roots, List.foldlM_filterMap]
  congr 1
  funext l t
  cases h : t.root with
  | none => exact joining_of_root_none l h
  | some n =>
    obtain rfl : t = ⟨some n⟩ := congrArg mk h
    rfl

lemma foldlM_joining_ok_iff {ms : List JoinNode} (hns : ns.Pairwise Apart) :
    ms.foldlM (fun t n => t.joining ⟨some n⟩) (sideBySide ns) = .ok p ↔
      (ns ++ ms).Pairwise Apart ∧ p = sideBySide (ns ++ ms) := by
  induction ms generalizing ns with
  | nil =>
    rw [List.foldlM_nil, done_ok_iff, List.append_nil]
    exact ⟨fun h => ⟨hns, h.symm⟩, fun h => h.2.symm⟩
  | cons m ms ih =>
    have hconcat : (ns ++ [m]).Pairwise Apart ↔ ∀ n ∈ ns, n.Apart m := by simp [List.pairwise_append, hns]
    rw [List.foldlM_cons, then_ok_iff, List.append_cons]
    simp only [joining_root_ok_iff]
    constructor
    · rintro ⟨_, ⟨hfirst, rfl⟩, h⟩
      exact (ih (hconcat.2 hfirst)).1 h
    · rintro ⟨hpairwise, rfl⟩
      have hfirst := (List.pairwise_append.1 hpairwise).1
      exact ⟨_, ⟨hconcat.1 hfirst, rfl⟩, (ih hfirst).2 ⟨hpairwise, rfl⟩⟩

theorem crossProduct_ok_iff {ts : List JoinTree} :
    crossProduct ts = .ok p ↔ (roots ts).Pairwise Apart ∧ p = sideBySide (roots ts) := by
  rw [crossProduct_eq, foldlM_joining_ok_iff .nil, List.nil_append]

lemma crossProduct_congr {ts us : List JoinTree} (h : roots us = roots ts) : crossProduct us = crossProduct ts := by
  rw [crossProduct_eq, crossProduct_eq, h]

lemma exists_crossProduct_iff {ts : List JoinTree} :
    (∃ p, crossProduct ts = .ok p) ↔ (roots ts).Pairwise Apart := by
  simp only [crossProduct_ok_iff, exists_and_left, exists_eq, and_true]

lemma exists_crossProduct_of_perm {ts us : List JoinTree} (h : us.Perm ts) :
    (∃ p, crossProduct us = .ok p) ↔ ∃ p, crossProduct ts = .ok p := by
  rw [exists_crossProduct_iff, exists_crossProduct_iff]
  exact (h.filterMap root).pairwise_iff Apart.symm

lemma flatMap_roots {α : Type} (f : JoinNode → List α) (ts : List JoinTree) :
    (roots ts).flatMap f = ts.flatMap fun t => t.root.elim [] f := by
  induction ts with
  | nil => rfl
  | cons t ts ih =>
    rw [List.flatMap_cons, ← ih, roots, List.filterMap_cons]
    cases t.root <;> rfl

lemma roots_filter (ts : List JoinTree) : roots (ts.filter (!·.isEmpty)) = roots ts := by
  rw [roots, List.filterMap_filter]
  refine List.filterMap_congr fun t _ => ?_
  obtain ⟨_ | n⟩ := t <;> rfl

lemma exists_mem_roots_iff {ts : List JoinTree} {x : TableRef} :
    (∃ n ∈ roots ts, x ∈ n.tables) ↔ ∃ t ∈ ts, x ∈ t.tables := by
  constructor
  · rintro ⟨n, hn, hx⟩
    obtain ⟨⟨_⟩, ht, rfl⟩ := List.mem_filterMap.1 hn
    exact ⟨_, ht, hx⟩
  · rintro ⟨⟨_ | n⟩, ht, hx⟩
    · exact absurd hx List.not_mem_nil
    · exact ⟨n, List.mem_filterMap.2 ⟨_, ht, rfl⟩, hx⟩

lemma leaves_sideBySide (ns : List JoinNode) : (sideBySide ns).leaves = ns.flatMap JoinNode.leaves := by
  cases ns with
  | nil => rfl
  | cons n ns => exact leaves_foldl_crossed n ns

lemma mem_tables_sideBySide (ns : List JoinNode) {x : TableRef} :
    x ∈ (sideBySide ns).tables ↔ ∃ n ∈ ns, x ∈ n.tables := by
  cases ns with
  | nil => exact iff_of_false List.not_mem_nil fun ⟨_, h, _⟩ => List.not_mem_nil h
  | cons n ns => exact mem_tables_foldl_crossed n ns

lemma at?_sideBySide {k : Nat} (h : ns[k]? = some n) : (sideBySide ns).at? (inputPath ns.length k) = some n := by
  cases ns with
  | nil => cases h
  | cons m ns => exact at?_foldl_crossed h

lemma joins_sideBySide (ns : List JoinNode) :
    ∃ new : List JoinNode, new.length = ns.length - 1 ∧
      (sideBySide ns).joins.Perm (new ++ ns.flatMap JoinNode.joins) ∧
      ∀ d j, new[d]? = some j → (sideBySide ns).at? (List.replicate d .left) = some j ∧ ∃ l r, j = crossed l r := by
  cases ns with
  | nil => exact ⟨[], rfl, .refl _, nofun⟩
  | cons n ns => exact joins_foldl_crossed n ns

/-- There is a cross product if no two of the trees share a table, in whatever order they come, and empty trees make no
difference to it. It has the leaves of all trees in their order, their tables, and each of the trees that is not empty
as it was. All other joins carry nothing, and each of them but the first is the left input of another. -/
theorem crossProduct_is_side_by_side (ts : List JoinTree) :
    ((∃ p, crossProduct ts = .ok p) ↔ (roots ts).Pairwise fun l r => ∀ x ∈ l.tables, x ∉ r.tables) ∧
    (∀ us : List JoinTree, us.Perm ts → ((∃ p, crossProduct us = .ok p) ↔ ∃ p, crossProduct ts = .ok p)) ∧
    (∀ us : List JoinTree, us.filter (!·.isEmpty) = ts.filter (!·.isEmpty) → crossProduct us = crossProduct ts) ∧
    ∀ p, crossProduct ts = .ok p →
      p.leaves = ts.flatMap leaves ∧ (∀ x, x ∈ p.tables ↔ ∃ t ∈ ts, x ∈ t.tables) ∧
      (∀ k n, (roots ts)[k]? = some n → p.at? (inputPath (roots ts).length k) = some n) ∧
      ∃ new : List JoinNode, new.length = (roots ts).length - 1 ∧ p.joins.Perm (new ++ ts.flatMap joins) ∧
        ∀ d j, new[d]? = some j →
          p.at? (List.replicate d .left) = some j ∧ ∃ l r, j = .join l r {} (l.tables ∪ r.tables) := by
  refine ⟨exists_crossProduct_iff, fun us => exists_crossProduct_of_perm, fun us h => crossProduct_congr ?_, ?_⟩
  · rw [← roots_filter us, h, roots_filter]
  · intro p hp
    obtain ⟨-, rfl⟩ := crossProduct_ok_iff.1 hp
    refine ⟨?_, fun x => ?_, fun k n => at?_sideBySide, ?_⟩
    · rw [leaves_sideBySide, flatMap_roots]
      rfl
    · rw [mem_tables_sideBySide]
      exact exists_mem_roots_iff
    · have hjoins := joins_sideBySide (roots ts)
      rwa [flatMap_roots] at hjoins

theorem crossProduct_is_side_by_side_annotated :
    let r := TableRef.mk "r" none none
    let s := TableRef.mk "s" none none
    let u := TableRef.mk "u" none none
    let v := TableRef.mk "v" none none
    let rs : JoinNode := .join (.ofTable r) (.ofTable s) { operator := some (.join .hash) } (.ofList [r, s])
    let ub : JoinNode := .base u { upperBound := some 7 }
    let ts : List JoinTree := [⟨some rs⟩, .empty, ⟨some ub⟩, .ofTable v]
    let p : JoinTree := ⟨some (.join (.join rs ub {} (.ofList [r, s, u])) (.ofTable v) {} (.ofList [r, s, u, v]))⟩
    crossProduct ts = .ok p ∧ (∃ q, crossProduct ts.reverse = .ok q) ∧ crossProduct (ts ++ [.empty]) = .ok p ∧
      p.leaves = [r, s, u, v] ∧ p.at? [.left, .left] = some rs ∧ p.at? [.left, .right] = some ub := by
  intro r s u v rs ub ts p
  have hp : crossProduct ts = .ok p := by decide +kernel
  obtain ⟨-, hperm, hcongr, hparts⟩ := crossProduct_is_side_by_side ts
  obtain ⟨hleaves, -, hinputs, -⟩ := hparts p hp
  exact ⟨hp, (hperm _ (List.reverse_perm ts)).2 ⟨p, hp⟩, (hcongr (ts ++ [.empty]) rfl).trans hp, hleaves,
    hinputs 0 rs rfl, hinputs 1 ub rfl⟩

end JoinTree

end OptimizerHints
