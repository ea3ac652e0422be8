import Mathlib.Tactic.Common
import OptimizerHints.Text.Blank

namespace OptimizerHints.Text

def IsWord (w : List Char) : Prop := w ≠ [] ∧ ∀ c ∈ w, isBlank c = false

/-- The text consists of these words in their order, with blanks between them and perhaps around them. -/
inductive Spaced : List (List Char) → List Char → Prop
  | nil : Spaced [] []
  | blank {c : Char} {ws : List (List Char)} {cs : List Char} : isBlank c = true → Spaced ws cs → Spaced ws (c :: cs)
  | word {w : List Char} {ws : List (List Char)} {cs : List Char} : IsWord w → (∀ c ∈ cs.head?, isBlank c = true) →
    Spaced ws cs → Spaced (w :: ws) (w ++ cs)

variable {c : Char} {w cs : List Char} {ws : List (List Char)}

lemma isWord_singleton (h : isBlank c = false) : IsWord [c] :=
  ⟨List.cons_ne_nil c [], fun _ hd => List.mem_singleton.1 hd ▸ h⟩

lemma IsWord.cons (hw : IsWord w) (h : isBlank c = false) : IsWord (c :: w) :=
  ⟨List.cons_ne_nil c w, List.forall_mem_cons.2 ⟨h, hw.2⟩⟩

lemma Spaced.only (hw : IsWord w) : Spaced [w] w := by
  have hend : ∀ c ∈ ([] : List Char).head?, isBlank c = true := nofun
  have h := Spaced.word hw hend .nil
  rwa [List.append_nil] at h

lemma Spaced.before_blank (hw : IsWord w) (hc : isBlank c = true) (h : Spaced ws cs) :
    Spaced (w :: ws) (w ++ c :: cs) :=
  .word hw (fun _ hd => Option.some.inj hd ▸ hc) (.blank hc h)

lemma startWord_false (c : Char) (ws : List (List Char)) : startWord c false ws = [c] :: ws := by
  cases ws <;> rfl

lemma splitWords_cons (h : isBlank c = false) (cs : List Char) :
    splitWords (c :: cs) = startWord c (!(cs.head?.all isBlank)) (splitWords cs) := by
  rw [splitWords, if_neg (Bool.eq_false_iff.1 h)]

lemma splitWords_word (hw : IsWord w) (hcs : ∀ c ∈ cs.head?, isBlank c = true) :
    splitWords (w ++ cs) = w :: splitWords cs := by
  obtain ⟨hne, hw⟩ := hw
  induction w with
  | nil => exact (hne rfl).elim
  | cons c w ih =>
    obtain ⟨hc, hw⟩ := List.forall_mem_cons.1 hw
    rw [List.cons_append, splitWords_cons hc]
    cases w with
    | nil =>
      have hend : cs.head?.all isBlank = true := (Option.all_eq_true ..).2 hcs
      rw [List.nil_append, hend, Bool.not_true, startWord_false]
    | cons d w =>
      have hgoes : (d :: w ++ cs).head?.all isBlank = false := hw d List.mem_cons_self
      rw [hgoes, ih (List.cons_ne_nil d w) hw]
      rfl

lemma spaced_splitWords (cs : List Char) : Spaced (splitWords cs) cs := by
  induction cs with
  | nil => exact .nil
  | cons c cs ih =>
    cases hc : isBlank c with
    | true =>
      rw [splitWords_blank hc]
      exact .blank hc ih
    | false =>
      rw [splitWords_cons hc]
      -- whether the character starts a word depends on what the rest begins with
      generalize splitWords cs = ws at ih ⊢
      cases ih with
      | nil => exact .word (isWord_singleton hc) nofun .nil
      | @blank b ws cs hb h =>
        have hend : (b :: cs).head?.all isBlank = true := hb
        rw [hend, Bool.not_true, startWord_false]
        exact .word (isWord_singleton hc) (fun _ hd => Option.some.inj hd ▸ hb) (.blank hb h)
      | @word w ws cs hw hcs h =>
        obtain ⟨hne, hnone⟩ := id hw
        obtain ⟨d, w, rfl⟩ := List.exists_cons_of_ne_nil hne
        have hgoes : (d :: w ++ cs).head?.all isBlank = false := hnone d List.mem_cons_self
        rw [hgoes, Bool.not_false]
        exact .word (hw.cons hc) hcs h

theorem spaced_iff : Spaced ws cs ↔ splitWords cs = ws := by
  refine ⟨fun h => ?_, fun h => h ▸ spaced_splitWords cs⟩
  induction h with
  | nil => rfl
  | blank hc _ ih => rw [splitWords_blank hc, ih]
  | word hw hcs _ ih => rw [splitWords_word hw hcs, ih]

lemma Spaced.isWord (h : Spaced ws cs) (hw : w ∈ ws) : IsWord w := by
  induction h with
  | nil => cases hw
  | blank _ _ ih => exact ih hw
  | word hw' _ _ ih =>
    rcases List.mem_cons.1 hw with rfl | hw
    · exact hw'
    · exact ih hw

theorem words_eq_iff {s : String} {ws : List String} : words s = ws ↔ Spaced (ws.map String.toList) s.toList := by
  rw [spaced_iff, words]
  constructor
  · rintro rfl
    simp
  · intro h
    simp [h]

lemma isWord_of_mem_words {s word : String} (h : word ∈ words s) : IsWord word.toList :=
  (words_eq_iff.1 rfl).isWord (List.mem_map_of_mem h)

lemma toNat_toLower (c : Char) : c.toLower.toNat = if 65 ≤ c.toNat ∧ c.toNat ≤ 90 then c.toNat + 32 else c.toNat := by
  have hcapital : (c.val ≥ 'A'.val ∧ c.val ≤ 'Z'.val) ↔ 65 ≤ c.toNat ∧ c.toNat ≤ 90 := by
    rw [ge_iff_le, UInt32.le_iff_toNat_le, UInt32.le_iff_toNat_le]
    rfl
  by_cases h : c.val ≥ 'A'.val ∧ c.val ≤ 'Z'.val
  · have hlower : c.toLower.toNat = (c.val + 32).toNat := congrArg Char.toNat (dif_pos h)
    obtain ⟨hlow, hhigh⟩ := hcapital.1 h
    have hsum : (c.toNat + 32) % UInt32.size = c.toNat + 32 := Nat.mod_eq_of_lt (by rw [UInt32.size]; omega)
    rw [hlower, if_pos ⟨hlow, hhigh⟩]
    exact (UInt32.toNat_add c.val 32).trans hsum
  · have hlower : c.toLower = c := dif_neg h
    rw [hlower, if_neg (hcapital.not.1 h)]

lemma toLower_eq_iff {c capital small : Char} (hcapital : 65 ≤ capital.toNat ∧ capital.toNat ≤ 90)
    (hsmall : small.toNat = capital.toNat + 32) : c.toLower = small ↔ c = small ∨ c = capital := by
  simp only [← Char.toNat_inj, toNat_toLower, hsmall]
  split <;> omega

lemma lowerAscii_eq_as_iff {word : String} : lowerAscii word = "as" ↔ word ∈ ["as", "aS", "As", "AS"] := by
  have ha (c : Char) : c.toLower = 'a' ↔ c = 'a' ∨ c = 'A' := toLower_eq_iff (by decide) rfl
  have hs (c : Char) : c.toLower = 's' ↔ c = 's' ∨ c = 'S' := toLower_eq_iff (by decide) rfl
  have hword (s : String) : word = s ↔ word.toList = s.toList := String.toList_inj.symm
  rw [lowerAscii, ← String.toList_inj, String.toList_ofList]
  simp only [List.mem_cons, hword]
  rcases word.toList with _ | ⟨c, _ | ⟨d, _ | ⟨e, cs⟩⟩⟩ <;> simp [ha, hs]
  rw [or_and_right, and_or_left, and_or_left, or_assoc]

end OptimizerHints.Text
