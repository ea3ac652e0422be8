import Mathlib.Data.Int.Notation
import Mathlib.Data.Nat.Notation
import Mathlib.Tactic.Common

namespace OptimizerHints.Decimal

section Unpacked

open Float.Model (UnpackedFloat)

variable {a b : UnpackedFloat}

lemma compare_swap (a b : UnpackedFloat) : b.compare a = (a.compare b).map Ordering.swap := by
  -- two numbers of one sign are compared by exponent, then by mantissa
  have hmagnitude (d e : ℤ) (m n : ℕ) :
      (compare e d).then (compare n m) = ((compare d e).then (compare m n)).swap := by
    rw [Ordering.swap_then, Int.compare_swap, Nat.compare_swap]
  rcases a with (_ | _) | _ | s | ⟨_ | _, m, d, hm⟩ <;> rcases b with (_ | _) | _ | t | ⟨_ | _, n, e, hn⟩ <;>
    first
    | rfl
    | exact congrArg some (hmagnitude d e m n)
    | exact congrArg (fun o => some o.swap) (hmagnitude d e m n)

lemma exists_compare (ha : a.isNaN = false) (hb : b.isNaN = false) : ∃ o, a.compare b = some o := by
  rcases a with (_ | _) | _ | s | ⟨_ | _, m, d, hm⟩ <;> rcases b with (_ | _) | _ | t | ⟨_ | _, n, e, hn⟩ <;>
    first | exact ⟨_, rfl⟩ | exact absurd ha (by decide) | exact absurd hb (by decide)

lemma compare_of_isNaN (ha : a.isNaN = true) : a.compare b = none := by
  rcases a with _ | _ | _ | _
  case notANumber => rfl
  all_goals cases ha

end Unpacked

variable {v w : Float}

lemma lt_iff : v < w ↔ v.toModel.unpack.compare w.toModel.unpack = some .lt := by
  change decide (_ == some Ordering.lt) = true ↔ _
  simp

lemma le_iff : v ≤ w ↔ ∃ o, v.toModel.unpack.compare w.toModel.unpack = some o ∧ o.isLE = true := by
  change decide (Option.any _ _ = true) = true ↔ _
  rw [decide_eq_true_iff, Option.any_eq_true]

lemma not_le_of_isNaN (hv : v.isNaN = true) : ¬ v ≤ w := by
  rw [le_iff, compare_of_isNaN hv]
  rintro ⟨o, h, -⟩
  cases h

lemma not_le_iff_lt (hv : v.isNaN = false) (hw : w.isNaN = false) : ¬ v ≤ w ↔ w < v := by
  obtain ⟨o, ho⟩ := exists_compare hv hw
  rw [le_iff, lt_iff, compare_swap v.toModel.unpack, ho]
  cases o <;> simp

end OptimizerHints.Decimal
