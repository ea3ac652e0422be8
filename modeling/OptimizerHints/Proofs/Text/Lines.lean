import Mathlib.Tactic.Common

namespace OptimizerHints.Text

def lines (s : String) : List String := if s = "" then [] else (s.toList.splitOn '\n').map String.ofList

def IsLine (s : String) : Prop := s ≠ "" ∧ '\n' ∉ s.toList

instance : DecidablePred IsLine := fun _ => inferInstanceAs (Decidable (_ ∧ _))

variable {s t : String} {ls : List String}

lemma IsLine.append_left (h : IsLine t) (hs : '\n' ∉ s.toList) : IsLine (s ++ t) := by
  obtain ⟨hne, ht⟩ := h
  refine ⟨fun hempty => hne (String.append_eq_empty_iff.1 hempty).2, ?_⟩
  rw [String.toList_append, List.mem_append]
  exact not_or.2 ⟨hs, ht⟩

lemma intercalate_cons (sep s : String) (hls : ls ≠ []) :
    sep.intercalate (s :: ls) = s ++ sep ++ sep.intercalate ls := by
  obtain ⟨t, ts, rfl⟩ := List.exists_cons_of_ne_nil hls
  exact String.intercalate_cons_cons

lemma intercalate_ne_empty {sep : String} (hls : ls ≠ []) (h : ∀ l ∈ ls, l ≠ "") : sep.intercalate ls ≠ "" := by
  obtain ⟨l, ls, rfl⟩ := List.exists_cons_of_ne_nil hls
  have hl : l ≠ "" := h l List.mem_cons_self
  cases ls with
  | nil => simpa using hl
  | cons l' ls => simp [String.append_eq_empty_iff, hl]

lemma intercalate_append (sep : String) {ks : List String} (hks : ks ≠ []) (hls : ls ≠ []) :
    sep.intercalate (ks ++ ls) = sep.intercalate ks ++ sep ++ sep.intercalate ls := by
  induction ks with
  | nil => exact absurd rfl hks
  | cons k ks ih =>
    rw [List.cons_append, intercalate_cons sep k (List.append_ne_nil_of_right_ne_nil ks hls)]
    cases ks with
    | nil => rw [List.nil_append, String.intercalate_singleton]
    | cons k' ks =>
      rw [ih (List.cons_ne_nil k' ks), intercalate_cons sep k (List.cons_ne_nil k' ks)]
      simp only [String.append_assoc]

lemma join_ended_append (ls : List String) (last : String) :
    String.join (ls.map (· ++ "\n")) ++ last = "\n".intercalate (ls ++ [last]) := by
  induction ls with
  | nil => simp
  | cons l ls ih =>
    rw [List.cons_append, intercalate_cons "\n" l (List.concat_ne_nil last ls), ← ih, List.map_cons, String.join_cons]
    simp only [String.append_assoc]

lemma lines_intercalate (h : ∀ l ∈ ls, IsLine l) : lines ("\n".intercalate ls) = ls := by
  by_cases hls : ls = []
  · rw [hls]
    rfl
  · have hne : "\n".intercalate ls ≠ "" := intercalate_ne_empty hls fun l hl => (h l hl).1
    have hbreak : ∀ cs ∈ ls.map String.toList, '\n' ∉ cs := by
      intro cs hcs
      obtain ⟨l, hl, rfl⟩ := List.mem_map.1 hcs
      exact (h l hl).2
    have hsplit := List.splitOn_intercalate '\n' hbreak (by simpa using hls)
    have hsep : "\n".toList = ['\n'] := rfl
    rw [lines, if_neg hne, String.toList_intercalate, hsep, hsplit, List.map_map]
    simp

end OptimizerHints.Text
