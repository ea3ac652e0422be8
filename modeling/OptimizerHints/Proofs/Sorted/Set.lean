import Mathlib.Data.List.Sort
import OptimizerHints.Sorted.Set

namespace OptimizerHints.SortedSet

open Std

variable {α : Type} [Ord α] [LawfulEqOrd α]

instance : Irrefl fun a b : α => compare a b = .lt where
  irrefl a h := by
    rw [ReflOrd.compare_self] at h
    cases h

lemma nodup_toList (s : SortedSet α) : s.toList.Nodup := List.Pairwise.nodup s.increasing

variable [TransOrd α]

instance : Antisymm fun a b : α => compare a b = .lt where
  antisymm a b hab hba := by
    have hself := TransCmp.lt_trans hab hba
    rw [ReflOrd.compare_self] at hself
    cases hself

theorem ext {s t : SortedSet α} (h : ∀ x, x ∈ s ↔ x ∈ t) : s = t := by
  obtain ⟨xs, hxs⟩ := s
  obtain ⟨ys, hys⟩ := t
  obtain rfl : xs = ys := List.Pairwise.eq_of_mem_iff hxs hys h
  rfl

lemma ofList_eq_of_perm {xs ys : List α} (h : xs.Perm ys) : ofList xs = ofList ys := by
  apply ext
  intro x
  rw [mem_ofList, mem_ofList, h.mem_iff]

lemma toList_ofList_perm {xs : List α} (h : xs.Nodup) : (ofList xs).toList.Perm xs :=
  (List.perm_ext_iff_of_nodup (nodup_toList _) h).2 fun _ => mem_ofList

lemma size_ofList {xs : List α} (h : xs.Nodup) : (ofList xs).size = xs.length := (toList_ofList_perm h).length_eq

end OptimizerHints.SortedSet
