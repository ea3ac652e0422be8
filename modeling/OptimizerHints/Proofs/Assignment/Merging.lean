import OptimizerHints.Proofs.Assignment
import OptimizerHints.Proofs.Sorted.Map

namespace OptimizerHints

open Outcome

namespace Assignment

variable {a a' b c : Assignment}

inductive Reached : Assignment → Prop
  | empty : Reached empty
  | setScan {a : Assignment} (s : ScanChoice) : Reached a → Reached (a.setScan s)
  | setJoin {a a' : Assignment} {j : JoinChoice} : Reached a → a.setJoin j = .ok a' → Reached a'
  | addScan {a a' : Assignment} {op : ScanOperator} {ts : List TableRef} :
    Reached a → a.addScan op ts = .ok a' → Reached a'
  | addJoin {a a' : Assignment} {op : JoinOperator} {ts : List TableRef} :
    Reached a → a.addJoin op ts = .ok a' → Reached a'
  | setOperator {a : Assignment} (op : Operator) (s : Setting) : Reached a → Reached (a.setOperator op s)
  | merge {a b : Assignment} : Reached a → Reached b → Reached (a.merge b)

def setJoinInPlace (j : JoinChoice) : InPlace PlanError Assignment Unit := do
  j.validate
  modify fun a => { a with joins := a.joins.insert j.tables j }

def addScanInPlace (op : ScanOperator) (ts : List TableRef) : InPlace PlanError Assignment Unit := do
  let s ← ScanChoice.ofTables op ts
  modify fun a => a.setScan s

def addJoinInPlace (op : JoinOperator) (ts : List TableRef) : InPlace PlanError Assignment Unit := do
  let j ← JoinChoice.ofTables op ts
  setJoinInPlace j

lemma perform_setJoin (a : Assignment) (j : JoinChoice) :
    (setJoinInPlace j).perform a = settle a (a.setJoin j) := by
  rw [setJoinInPlace, InPlace.perform_checked, setJoin]
  cases j.validate <;> rfl

lemma perform_addScan (a : Assignment) (op : ScanOperator) (ts : List TableRef) :
    (addScanInPlace op ts).perform a = settle a (a.addScan op ts) := by
  rw [addScanInPlace, InPlace.perform_checked, addScan]
  cases ScanChoice.ofTables op ts <;> rfl

lemma perform_addJoin (a : Assignment) (op : JoinOperator) (ts : List TableRef) :
    (addJoinInPlace op ts).perform a = settle a (a.addJoin op ts) := by
  rw [addJoinInPlace, InPlace.perform_checked, addJoin]
  cases JoinChoice.ofTables op ts with
  | error e => rfl
  | ok j => exact perform_setJoin a j

def ScansOwned (a : Assignment) : Prop := ∀ t s, a.scanFor? t = some s → s.table = t

lemma scanFor?_merge (a b : Assignment) (t : TableRef) :
    (a.merge b).scanFor? t = (b.scanFor? t).or (a.scanFor? t) :=
  SortedMap.get?_union a.scans b.scans t

lemma joinFor?_merge (a b : Assignment) (ts : TableSet) :
    (a.merge b).joinFor? ts = (b.joinFor? ts).or (a.joinFor? ts) :=
  SortedMap.get?_union a.joins b.joins ts

lemma Valid.merge (ha : a.Valid) (hb : b.Valid) : (a.merge b).Valid := SortedMap.forall_union ha hb

lemma ScansOwned.merge (ha : a.ScansOwned) (hb : b.ScansOwned) : (a.merge b).ScansOwned :=
  SortedMap.forall_union ha hb

lemma ScansOwned.setScan (ha : a.ScansOwned) (s : ScanChoice) : (a.setScan s).ScansOwned :=
  SortedMap.forall_insert ha rfl

theorem Reached.valid (h : a.Reached) : a.Valid ∧ a.ScansOwned := by
  have hsetJoin : ∀ {a a' : Assignment} {j : JoinChoice}, a.setJoin j = .ok a' →
      a.Valid ∧ a.ScansOwned → a'.Valid ∧ a'.ScansOwned := by
    rintro a a' j hset ⟨hvalid, howned⟩
    obtain ⟨hj, rfl⟩ := setJoin_ok_iff.1 hset
    exact ⟨hvalid.withJoin hj, howned⟩
  induction h with
  | empty => exact ⟨valid_empty, nofun⟩
  | setScan s _ ih => exact ⟨ih.1, ih.2.setScan s⟩
  | setJoin _ hset ih => exact hsetJoin hset ih
  | addScan _ hadd ih =>
    obtain ⟨s, -, h⟩ := then_ok_iff.1 hadd
    obtain rfl := done_ok_iff.1 h
    exact ⟨ih.1, ih.2.setScan s⟩
  | addJoin _ hadd ih =>
    obtain ⟨j, -, hset⟩ := then_ok_iff.1 hadd
    exact hsetJoin hset ih
  | setOperator op s _ ih => exact ih
  | merge _ _ iha ihb => exact ⟨iha.1.merge ihb.1, iha.2.merge ihb.2⟩

/-- Every assignment that is made by the public operations is valid, and has each scan choice under its own table. A
choice that is refused leaves the assignment as it is. Assignments merge in groups as well as one by one, and what is
looked up in a merged one is what the second has, or else what the first has. -/
theorem operations_keep_valid :
    (∀ a : Assignment, a.Reached → a.validate = .ok () ∧ ∀ t s, a.scanFor? t = some s → s.table = t) ∧
      (∀ (a : Assignment) j, (setJoinInPlace j).perform a = settle a (a.setJoin j)) ∧
      (∀ (a : Assignment) op ts, (addScanInPlace op ts).perform a = settle a (a.addScan op ts)) ∧
      (∀ (a : Assignment) op ts, (addJoinInPlace op ts).perform a = settle a (a.addJoin op ts)) ∧
      (∀ a b c : Assignment, (a.merge b).merge c = a.merge (b.merge c)) ∧
      (∀ a : Assignment, a.merge a = a ∧ empty.merge a = a ∧ a.merge empty = a) ∧
      ∀ a b : Assignment, (∀ t, (a.merge b).scanFor? t = (b.scanFor? t).or (a.scanFor? t)) ∧
        (∀ ts, (a.merge b).joinFor? ts = (b.joinFor? ts).or (a.joinFor? ts)) ∧
        ∀ op, (a.merge b).settings.get? op = (b.settings.get? op).or (a.settings.get? op) := by
  refine ⟨fun a ha => ⟨validate_ok_iff.2 ha.valid.1, ha.valid.2⟩, perform_setJoin, perform_addScan, perform_addJoin,
    fun a b c => ?_, fun a => ⟨?_, ?_, ?_⟩, fun a b => ⟨scanFor?_merge a b, joinFor?_merge a b, ?_⟩⟩
  · simp only [merge, SortedMap.union_assoc]
  · simp only [merge, SortedMap.union_self]
  · exact congr (congrArg₂ _ SortedMap.empty_union SortedMap.empty_union) SortedMap.empty_union
  · exact congr (congrArg₂ _ SortedMap.union_empty SortedMap.union_empty) SortedMap.union_empty
  · exact SortedMap.get?_union a.settings b.settings

theorem operations_keep_valid_merged :
    let r := TableRef.mk "r" none none
    let s := TableRef.mk "s" none none
    let rs : TableSet := .ofList [r, s]
    let joined : JoinChoice := ⟨.hash, rs, some (.singleton s)⟩
    let a : Assignment := { scans := .ofList [(r, ⟨.sequential, r⟩)], joins := .ofList [(rs, joined)] }
    let b : Assignment :=
      { scans := .ofList [(r, ⟨.index, r⟩)], settings := .ofList [(.join .nestedLoop, .disabled)] }
    a.Reached ∧ b.Reached ∧ (a.merge b).validate = .ok () ∧
      (addJoinInPlace .hash []).perform a = (.error .emptyJoinKey, a) ∧
      (a.merge b).scanFor? r = some ⟨.index, r⟩ ∧ (a.merge b).joinFor? rs = some joined ∧
      (a.merge b).settings.get? (.join .nestedLoop) = some .disabled := by
  intro r s rs joined a b
  have ha : a.Reached := .setJoin (.setScan ⟨.sequential, r⟩ .empty)
    (show setJoin _ joined = .ok a by decide +kernel)
  have hb : b.Reached := .addScan (.setOperator (.join .nestedLoop) .disabled .empty)
    (show addScan _ .index [r, r] = .ok b by decide +kernel)
  obtain ⟨hvalid, -, -, hheld, -, -, hmerge⟩ := operations_keep_valid
  obtain ⟨hscans, hjoins, hsettings⟩ := hmerge a b
  refine ⟨ha, hb, (hvalid _ (.merge ha hb)).1, (hheld a .hash []).trans rfl, (hscans r).trans ?_, (hjoins rs).trans ?_,
    (hsettings (.join .nestedLoop)).trans ?_⟩
  all_goals decide +kernel

end Assignment

end OptimizerHints
