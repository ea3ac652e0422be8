import OptimizerHints.JoinTree
import OptimizerHints.Proofs.Outcome

namespace OptimizerHints

open Outcome

lemma JoinChoice.properInner_iff {tables inner : TableSet} :
    properInner tables inner = true ↔ (∃ t, t ∈ inner) ∧ (∀ t ∈ inner, t ∈ tables) ∧ inner ≠ tables := by
  simp only [properInner, Bool.and_eq_true, Bool.not_eq_true', SortedSet.isEmpty_eq_false_iff,
    SortedSet.isSubset_iff, decide_eq_true_eq, and_assoc]

lemma JoinChoice.validate_ok_iff {c : JoinChoice} :
    c.validate = .ok () ↔
      c.tables.isEmpty = false ∧ ∀ inner, c.inner = some inner → properInner c.tables inner = true := by
  rw [validate]
  cases c.tables.isEmpty with
  | true => simp
  | false =>
    cases c.inner with
    | none => simp
    | some inner => simp

namespace Assignment

def Valid (a : Assignment) : Prop := ∀ ts c, a.joinFor? ts = some c → c.validate = .ok () ∧ ts = c.tables

lemma validate_ok_iff {a : Assignment} : a.validate = .ok () ↔ a.Valid := by
  have hentry : ∀ key c, validateEntry key c = .ok () ↔ c.validate = .ok () ∧ key = c.tables := by
    intro key c
    rw [validateEntry, both_ok_iff]
    by_cases h : key = c.tables <;> simp [h]
  rw [validate, each_ok_iff, Prod.forall]
  exact forall₂_congr fun ts c => imp_congr SortedMap.mem_entries_iff (hentry ts c)

lemma checkAgainst_ok_iff {a : Assignment} {t : JoinTree} :
    a.checkAgainst t = .ok () ↔ (t.isEmpty = false → ∀ ts c, a.joinFor? ts = some c → ts ∈ t.subtrees) := by
  rw [checkAgainst]
  cases t.isEmpty with
  | true => simp
  | false =>
    have hmember : ∀ ts, (if ts ∈ t.subtrees then .ok () else .error (.malformedPlan (.unmatchedJoin ts)) :
        Except PlanError Unit) = .ok () ↔ ts ∈ t.subtrees := by
      intro ts
      by_cases h : ts ∈ t.subtrees <;> simp [h]
    simp only [Bool.false_eq_true, if_false, forall_const, each_ok_iff, hmember, SortedMap.keys, List.mem_map,
      Prod.exists, forall_exists_index, and_imp]
    constructor
    · intro h ts c hc
      exact h ts ts c (SortedMap.mem_entries_iff.2 hc) rfl
    · rintro h _ ts c hc rfl
      exact h ts c (SortedMap.mem_entries_iff.1 hc)

lemma valid_empty : empty.Valid := fun _ _ h => nomatch h

def withJoin (a : Assignment) (c : JoinChoice) : Assignment := { a with joins := a.joins.insert c.tables c }

lemma setJoin_ok_iff {a a' : Assignment} {c : JoinChoice} :
    a.setJoin c = .ok a' ↔ c.validate = .ok () ∧ a.withJoin c = a' := by
  rw [setJoin, both_ok_iff]
  exact and_congr_right fun _ => done_ok_iff

lemma setJoin_of_valid {c : JoinChoice} (h : c.validate = .ok ()) (a : Assignment) :
    a.setJoin c = .ok (a.withJoin c) :=
  setJoin_ok_iff.2 ⟨h, rfl⟩

@[simp] lemma joinFor?_withJoin_self (a : Assignment) (c : JoinChoice) : (a.withJoin c).joinFor? c.tables = some c :=
  SortedMap.get?_insert_self ..

lemma joinFor?_withJoin_of_ne (a : Assignment) {c : JoinChoice} {ts : TableSet} (h : ts ≠ c.tables) :
    (a.withJoin c).joinFor? ts = a.joinFor? ts :=
  SortedMap.get?_insert_of_ne _ h _

lemma Valid.withJoin {a : Assignment} {c : JoinChoice} (ha : a.Valid) (hc : c.validate = .ok ()) :
    (a.withJoin c).Valid := by
  intro ts c' h
  by_cases hts : ts = c.tables
  · subst hts
    rw [joinFor?_withJoin_self] at h
    obtain rfl := Option.some.inj h
    exact ⟨hc, rfl⟩
  · rw [joinFor?_withJoin_of_ne a hts] at h
    exact ha ts c' h

lemma Valid.replaceOperator {a : Assignment} {ts : TableSet} (ha : a.Valid) (hts : ∃ t, t ∈ ts) (op : JoinOperator) :
    (⟨op, ts, (a.joinFor? ts).bind (·.inner)⟩ : JoinChoice).validate = .ok () := by
  refine JoinChoice.validate_ok_iff.2 ⟨SortedSet.isEmpty_eq_false_iff.2 hts, fun inner hinner => ?_⟩
  obtain ⟨c, hc, hold⟩ := Option.bind_eq_some_iff.1 hinner
  obtain ⟨hvalid, rfl⟩ := ha ts c hc
  exact (JoinChoice.validate_ok_iff.1 hvalid).2 inner hold

end Assignment

end OptimizerHints
