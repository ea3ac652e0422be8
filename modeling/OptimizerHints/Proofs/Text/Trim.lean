import Mathlib.Data.List.DropRight
import OptimizerHints.Proofs.Text.Words

namespace OptimizerHints.Text

def AllBlank (s : String) : Prop := ∀ c ∈ s.toList, isBlank c = true

lemma trimBlank_eq (cs : List Char) : trimBlank cs = (cs.dropWhile isBlank).rdropWhile isBlank := rfl

lemma trimBlank_trimBlank (cs : List Char) : trimBlank (trimBlank cs) = trimBlank cs := by
  have hfront : (trimBlank cs).dropWhile isBlank = trimBlank cs := by
    rw [List.dropWhile_eq_self_iff]
    intro hlen hblank
    -- what is left begins as the text without its leading blanks does
    obtain ⟨cut, hcut⟩ := List.rdropWhile_prefix isBlank (cs.dropWhile isBlank)
    rw [← trimBlank_eq] at hcut
    have hne : cs.dropWhile isBlank ≠ [] := by
      rw [← hcut]
      exact List.append_ne_nil_of_left_ne_nil (List.ne_nil_of_length_pos hlen) cut
    have hhead : (cs.dropWhile isBlank).head hne = (trimBlank cs)[0] := by
      simp only [← hcut, List.head_append_of_ne_nil (List.ne_nil_of_length_pos hlen), List.head_eq_getElem]
    have hnot : isBlank ((cs.dropWhile isBlank).head hne) = false := List.head_dropWhile_not isBlank hne
    rw [hhead, hblank] at hnot
    cases hnot
  rw [trimBlank_eq (trimBlank cs), hfront, trimBlank_eq, List.rdropWhile_idempotent]

lemma trim_trim (s : String) : trim (trim s) = trim s := by
  rw [trim, trim, String.toList_ofList, trimBlank_trimBlank]

lemma trim_eq_empty_iff {s : String} : trim s = "" ↔ AllBlank s := by
  rw [AllBlank, trim, ← String.toList_inj, String.toList_ofList, trimBlank_eq]
  change _ = [] ↔ _
  rw [List.rdropWhile_eq_nil_iff]
  constructor
  · intro h c hc
    rw [← List.takeWhile_append_dropWhile (p := isBlank) (l := s.toList)] at hc
    rcases List.mem_append.1 hc with hc | hc
    · exact List.mem_takeWhile_imp hc
    · exact h c hc
  · exact fun h c hc => h c ((List.dropWhile_sublist isBlank).subset hc)

lemma toLower_toLower (c : Char) : c.toLower.toLower = c.toLower := by
  rw [← Char.toNat_inj, toNat_toLower c.toLower, toNat_toLower c]
  split_ifs <;> omega

lemma isBlank_toLower (c : Char) : isBlank c.toLower = isBlank c := by
  rw [Bool.eq_iff_iff]
  simp only [isBlank, toNat_toLower, Bool.or_eq_true, Bool.and_eq_true, decide_eq_true_eq, beq_iff_eq]
  split_ifs <;> omega

lemma lowerAscii_lowerAscii (s : String) : lowerAscii (lowerAscii s) = lowerAscii s := by
  rw [lowerAscii, lowerAscii, String.toList_ofList, List.map_map]
  congr 1
  exact List.map_congr_left fun c _ => toLower_toLower c

lemma trim_lowerAscii (s : String) : trim (lowerAscii s) = lowerAscii (trim s) := by
  have hkept : isBlank ∘ Char.toLower = isBlank := funext isBlank_toLower
  rw [trim, lowerAscii, lowerAscii, trim, String.toList_ofList, String.toList_ofList, trimBlank, trimBlank,
    List.dropWhile_map, hkept, ← List.map_reverse, List.dropWhile_map, hkept, List.map_reverse]

end OptimizerHints.Text
