/-! Finite sets held as their strictly increasing lists, so that equal sets are equal values. -/

namespace OptimizerHints

open Std

def Increasing {α : Type} [Ord α] (xs : List α) : Prop := xs.Pairwise fun a b => compare a b = .lt

structure SortedSet (α : Type) [Ord α] where
  toList : List α
  increasing : Increasing toList

namespace SortedSet

variable {α : Type} [Ord α]

def place (a : α) : List α → List α
  | [] => [a]
  | b :: bs =>
    match compare a b with
    | .lt => a :: b :: bs
    | .eq => b :: bs
    | .gt => b :: place a bs

theorem mem_place [LawfulEqOrd α] {a x : α} {xs : List α} : x ∈ place a xs ↔ x = a ∨ x ∈ xs := by
  induction xs with
  | nil => simp [place]
  | cons b bs ih =>
    simp only [place]
    split
    · simp
    · next h =>
      obtain rfl := LawfulEqOrd.eq_of_compare h
      simp
    · simp only [List.mem_cons, ih]
      exact or_left_comm

theorem increasing_place [TransOrd α] [LawfulEqOrd α] {a : α} {xs : List α} (h : Increasing xs) :
    Increasing (place a xs) := by
  induction xs with
  | nil => simp [place, Increasing]
  | cons b bs ih =>
    obtain ⟨hb, hbs⟩ := List.pairwise_cons.1 h
    simp only [place]
    split
    · next hab =>
      refine List.pairwise_cons.2 ⟨fun x hx => ?_, h⟩
      rcases List.mem_cons.1 hx with rfl | hx
      · exact hab
      · exact TransCmp.lt_trans hab (hb x hx)
    · exact h
    · next hab =>
      refine List.pairwise_cons.2 ⟨fun x hx => ?_, ih hbs⟩
      rcases mem_place.1 hx with rfl | hx
      · exact OrientedCmp.lt_of_gt hab
      · exact hb x hx

def empty : SortedSet α := ⟨[], List.Pairwise.nil⟩

def singleton (a : α) : SortedSet α := ⟨[a], List.pairwise_singleton ..⟩

instance : Membership α (SortedSet α) := ⟨fun s a => a ∈ s.toList⟩

instance : EmptyCollection (SortedSet α) := ⟨empty⟩

instance : Inhabited (SortedSet α) := ⟨empty⟩

instance [DecidableEq α] : DecidableEq (SortedSet α) := fun s t =>
  if h : s.toList = t.toList then isTrue (by cases s; cases t; simp_all)
  else isFalse fun hst => h (hst ▸ rfl)

instance [DecidableEq α] {a : α} {s : SortedSet α} : Decidable (a ∈ s) :=
  inferInstanceAs (Decidable (a ∈ s.toList))

instance : Ord (SortedSet α) := ⟨compareOn toList⟩

instance [TransOrd α] : TransOrd (SortedSet α) := inferInstanceAs (TransCmp (compareOn toList))

instance [LawfulEqOrd α] : LawfulEqOrd (SortedSet α) where
  compare_self {s} := ReflOrd.compare_self (a := s.toList)
  eq_of_compare {s t} h := by
    have := LawfulEqOrd.eq_of_compare (α := List α) h
    cases s; cases t; simp_all

def size (s : SortedSet α) : Nat := s.toList.length

def isEmpty (s : SortedSet α) : Bool := s.toList.isEmpty

def isSubset [DecidableEq α] (s t : SortedSet α) : Bool := s.toList.all (· ∈ t)

def isDisjoint [DecidableEq α] (s t : SortedSet α) : Bool := s.toList.all (· ∉ t)

@[simp] theorem mem_singleton {a x : α} : x ∈ singleton a ↔ x = a := List.mem_singleton

theorem two_le_size {s : SortedSet α} {a b : α} (ha : a ∈ s) (hb : b ∈ s) (hab : a ≠ b) : 2 ≤ s.size := by
  obtain ⟨_ | ⟨x, _ | ⟨y, xs⟩⟩, hs⟩ := s
  · cases ha
  · exact absurd ((List.mem_singleton.1 ha).trans (List.mem_singleton.1 hb).symm) hab
  · exact Nat.le_add_left 2 xs.length

theorem isEmpty_eq_false_iff {s : SortedSet α} : s.isEmpty = false ↔ ∃ x, x ∈ s := by
  rw [isEmpty, List.isEmpty_eq_false_iff_exists_mem]
  rfl

theorem isSubset_iff [DecidableEq α] {s t : SortedSet α} : s.isSubset t = true ↔ ∀ x ∈ s, x ∈ t := by
  rw [isSubset, List.all_eq_true]
  exact forall_congr' fun x => imp_congr_right fun _ => decide_eq_true_iff

theorem isDisjoint_iff [DecidableEq α] {s t : SortedSet α} : s.isDisjoint t = true ↔ ∀ x ∈ s, x ∉ t := by
  rw [isDisjoint, List.all_eq_true]
  exact forall_congr' fun x => imp_congr_right fun _ => decide_eq_true_iff

def only? (s : SortedSet α) : Option α :=
  match s.toList with
  | [a] => some a
  | _ => none

variable [TransOrd α] [LawfulEqOrd α]

def insert (a : α) (s : SortedSet α) : SortedSet α := ⟨place a s.toList, increasing_place s.increasing⟩

def addAll (s : SortedSet α) (xs : List α) : SortedSet α := xs.foldl (fun acc a => acc.insert a) s

def ofList (xs : List α) : SortedSet α := empty.addAll xs

def union (s t : SortedSet α) : SortedSet α := s.addAll t.toList

instance : Union (SortedSet α) := ⟨union⟩

@[simp] theorem mem_insert {a x : α} {s : SortedSet α} : x ∈ s.insert a ↔ x = a ∨ x ∈ s := mem_place

@[simp] theorem mem_addAll {x : α} {s : SortedSet α} {xs : List α} : x ∈ s.addAll xs ↔ x ∈ s ∨ x ∈ xs := by
  induction xs generalizing s with
  | nil => simp [addAll]
  | cons a xs ih =>
    show x ∈ (s.insert a).addAll xs ↔ _
    rw [ih, mem_insert, List.mem_cons, or_assoc, or_left_comm]

@[simp] theorem mem_ofList {x : α} {xs : List α} : x ∈ ofList xs ↔ x ∈ xs := by
  have : x ∉ (empty : SortedSet α) := List.not_mem_nil
  simp [ofList, this]

@[simp] theorem mem_union {x : α} {s t : SortedSet α} : x ∈ s ∪ t ↔ x ∈ s ∨ x ∈ t := mem_addAll

end SortedSet

end OptimizerHints
