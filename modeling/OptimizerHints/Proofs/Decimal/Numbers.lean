import Mathlib.Algebra.Group.Nat.Defs
import Mathlib.Data.Nat.Log
import Mathlib.Tactic.Common
import OptimizerHints.Decimal.Reading

/-! Doubles that are made of digits and a power of ten are numbers: NaN cannot come out. -/

namespace OptimizerHints.Decimal

section Unpacked

open Float.Model (UnpackedFloat)
open Float.Model.UnpackedFloat hiding normalize

variable {spec : Float.Model.Format} {a b : UnpackedFloat}

def isProper : UnpackedFloat → Bool
  | .finite .. => true
  | _ => false

lemma isNaN_ite {c : Prop} [Decidable c] (ha : a.isNaN = false) (hb : b.isNaN = false) :
    (ite c a b).isNaN = false := by
  split
  · exact ha
  · exact hb

lemma isNaN_dite {c : Prop} [Decidable c] {x : c → UnpackedFloat} {y : ¬c → UnpackedFloat}
    (hx : ∀ h, (x h).isNaN = false) (hy : ∀ h, (y h).isNaN = false) : (dite c x y).isNaN = false := by
  by_cases h : c
  · rw [dif_pos h]
    exact hx h
  · rw [dif_neg h]
    exact hy h

lemma isNaN_roundWithAccuracy (s : Sign) (m : Nat) (e : Int) (acc : Accuracy) :
    (roundWithAccuracy spec s m e acc).isNaN = false := by
  unfold roundWithAccuracy
  exact isNaN_dite (fun _ => rfl) fun _ => rfl

lemma isNaN_normalize (m e : Int) (s : Sign) : (UnpackedFloat.normalize spec m e s).isNaN = false := by
  unfold UnpackedFloat.normalize
  split
  · exact isNaN_roundWithAccuracy ..
  · rfl
  · exact isNaN_roundWithAccuracy ..

lemma isNaN_neg (h : a.isNaN = false) : a.neg.isNaN = false := by
  cases a <;> first | rfl | exact h

lemma isNaN_mul_div (ha : a.isNaN = false) (hb : isProper b = true) :
    (mul spec a b).isNaN = false ∧ (div spec a b).isNaN = false := by
  rcases b with _ | _ | _ | ⟨t, n, e, hn⟩
  case finite =>
    cases a with
    | notANumber => cases ha
    | finite => exact ⟨isNaN_roundWithAccuracy .., isNaN_roundWithAccuracy ..⟩
    | _ => exact ⟨rfl, rfl⟩
  all_goals cases hb

lemma isNaN_ofScientific (m : Nat) (e : Int) : (UnpackedFloat.ofScientific spec m e).isNaN = false := by
  unfold UnpackedFloat.ofScientific
  refine isNaN_dite (fun _ => rfl) fun _ => isNaN_ite rfl (isNaN_ite rfl (isNaN_ite ?_ ?_))
  · exact (isNaN_mul_div rfl rfl).1
  · exact (isNaN_mul_div rfl rfl).2

lemma isNaN_unpack {bits : BitVec spec.numBits} (h : unpackExponent bits = -1 → unpackMantissa bits = 0) :
    (UnpackedFloat.unpack spec bits).isNaN = false := by
  unfold UnpackedFloat.unpack
  dsimp only
  by_cases hexponent : unpackExponent bits = -BitVec.ofNat spec.exponentBits 1
  · have hmantissa : unpackMantissa bits = BitVec.ofNat spec.mantissaBitsWithoutImplicit 0 := h hexponent
    rw [if_pos hexponent, if_pos hmantissa]
    rfl
  · rw [if_neg hexponent]
    exact isNaN_ite (isNaN_dite (fun _ => rfl) fun _ => rfl) rfl

lemma isNaN_unpack_pack (h : a.isNaN = false) :
    (UnpackedFloat.unpack spec (UnpackedFloat.pack spec a)).isNaN = false := by
  apply isNaN_unpack
  have hwide : 2 ≤ 2 ^ spec.exponentBits := Nat.le_self_pow (Nat.pos_iff_ne_zero.1 spec.he) 2
  unfold UnpackedFloat.pack
  cases a with
  | notANumber => cases h
  | infinity s => simp [packedInfinity]
  | zero s => simp [packedZero]
  | finite s m e hm =>
    dsimp only
    split_ifs with hlarge hnormal
    · simp [packedInfinity]
    · rw [unpackExponent_packComponents]
      intro hexponent
      have hall := congrArg BitVec.toNat hexponent
      rw [BitVec.toNat_ofNat, Nat.mod_eq_of_lt (by omega)] at hall
      simp [BitVec.neg_one_eq_allOnes] at hall
      omega
    · rw [unpackExponent_packComponents]
      intro hexponent
      have hall := congrArg BitVec.toNat hexponent
      simp [BitVec.neg_one_eq_allOnes] at hall
      omega

lemma mantissa_shiftRight (em : ExtendedMantissa) (n : Nat) : (em >>> n).mantissa = em.mantissa / 2 ^ n := by
  change (Nat.repeat ExtendedMantissa.shiftRightOne n em).mantissa = _
  induction n with
  | zero => exact (Nat.div_one _).symm
  | succ n ih =>
    change (Nat.repeat ExtendedMantissa.shiftRightOne n em).mantissa / 2 = _
    rw [ih, Nat.div_div_eq_div_mul, Nat.pow_succ]

lemma le_roundToNearestEven (m : Nat) (acc : Accuracy) :
    m ≤ acc.roundToNearestEven m ∧ acc.roundToNearestEven m ≤ m + 1 := by
  rcases acc with _ | _ | _ | _ <;> simp only [Accuracy.roundToNearestEven] <;> omega

lemma isProper_unpack_pack {s : Sign} {m : Nat} {e : Int} {hm : 0 < m} (hlog : m.log2 = 52) (hlow : -1074 ≤ e)
    (hhigh : e ≤ 971) :
    isProper (UnpackedFloat.unpack .binary64 (UnpackedFloat.pack .binary64 (.finite s m e hm))) = true := by
  have hbias : (e + Float.Model.Format.binary64.exponentBias +
      Float.Model.Format.binary64.mantissaBitsWithoutImplicit).toNat = (e + 1075).toNat := by
    change (e + (1023 : Nat) + (52 : Nat)).toNat = _
    omega
  have hpack : UnpackedFloat.pack .binary64 (.finite s m e hm) =
      packComponents .binary64 s (BitVec.ofNat 11 (e + 1075).toNat) (BitVec.ofNat 52 m) := by
    unfold UnpackedFloat.pack
    dsimp only
    rw [hbias, hlog, if_neg (by omega), if_pos (by rfl)]
  have hexponent : (BitVec.ofNat 11 (e + 1075).toNat).toNat = (e + 1075).toNat := by
    rw [BitVec.toNat_ofNat, Nat.mod_eq_of_lt (by omega)]
  have hnotall : BitVec.ofNat 11 (e + 1075).toNat ≠ -1#11 := by
    intro h
    have hall := congrArg BitVec.toNat h
    rw [hexponent] at hall
    simp at hall
    omega
  have hnotzero : BitVec.ofNat 11 (e + 1075).toNat ≠ 0#11 := by
    intro h
    have hnone := congrArg BitVec.toNat h
    rw [hexponent] at hnone
    simp at hnone
    omega
  rw [hpack]
  unfold UnpackedFloat.unpack
  dsimp only
  rw [if_neg (by rwa [unpackExponent_packComponents]), if_neg (by rwa [unpackExponent_packComponents])]
  rfl

lemma shiftToTargetExponent_of_bits {m k : Nat} {e : Int} {c : Accuracy} (hlow : 2 ^ (52 + k) ≤ m)
    (hhigh : m < 2 ^ (53 + k)) (he : -1074 ≤ e + k) :
    (2 ^ 52 ≤ (shiftToTargetExponent .binary64 m e c).1.mantissa ∧
        (shiftToTargetExponent .binary64 m e c).1.mantissa < 2 ^ 53) ∧
      (shiftToTargetExponent .binary64 m e c).2 = e + k := by
  have hpos : 0 < m := Nat.lt_of_lt_of_le (Nat.two_pow_pos _) hlow
  have hlog : m.log2 = 52 + k := (Nat.log2_eq_iff hpos.ne').2 ⟨hlow, by rwa [Nat.add_right_comm]⟩
  have hshift : (Float.Model.Format.binary64.targetExponent (Float.Model.totalExponent m e) - e).toNat = k := by
    have htarget : Float.Model.Format.binary64.targetExponent (Float.Model.totalExponent m e) =
        max (((m.log2 : Int) + 1 + e) - 53) (-1074) := rfl
    rw [htarget, hlog]
    omega
  have hmantissa : (ExtendedMantissa.ofMantissaAndAccuracy m c).mantissa = m := by
    rcases c with _ | _ | _ | _ <;> rfl
  have hkept : 2 ^ 52 ≤ m / 2 ^ k ∧ m / 2 ^ k < 2 ^ 53 := by
    rw [Nat.le_div_iff_mul_le (Nat.two_pow_pos _), Nat.div_lt_iff_lt_mul (Nat.two_pow_pos _), ← Nat.pow_add,
      ← Nat.pow_add]
    exact ⟨hlow, hhigh⟩
  simpa only [shiftToTargetExponent, shiftToExponent, hshift, mantissa_shiftRight, hmantissa, and_true] using hkept

lemma exists_bits_roundedMantissa {em : ExtendedMantissa} (hlow : 2 ^ 52 ≤ em.mantissa) (hhigh : em.mantissa < 2 ^ 53) :
    ∃ k ≤ 1, 2 ^ (52 + k) ≤ em.roundedMantissa ∧ em.roundedMantissa < 2 ^ (53 + k) := by
  obtain ⟨hr, hr'⟩ : em.mantissa ≤ em.roundedMantissa ∧ em.roundedMantissa ≤ em.mantissa + 1 :=
    le_roundToNearestEven em.mantissa em.accuracy
  by_cases hfull : em.roundedMantissa < 2 ^ 53
  · exact ⟨0, by omega, hlow.trans hr, hfull⟩
  · -- rounding up takes one bit more
    refine ⟨1, by omega, Nat.not_lt.1 hfull, ?_⟩
    change em.roundedMantissa < 2 ^ 54
    omega

lemma isProper_round {n : Nat} (hn : 0 < n) (hlog : n.log2 ≤ 1022) :
    isProper (UnpackedFloat.unpack .binary64 (UnpackedFloat.pack .binary64
      (roundWithAccuracy .binary64 .positive (2 ^ 53 * n) (-53) .exact))) = true := by
  have hle : 2 ^ n.log2 ≤ n := Nat.log2_self_le hn.ne'
  have hlt : n < 2 ^ (n.log2 + 1) := Nat.lt_log2_self
  generalize n.log2 = l at hle hlt hlog
  have hfirst : 2 ^ (52 + (l + 1)) ≤ 2 ^ 53 * n ∧ 2 ^ 53 * n < 2 ^ (53 + (l + 1)) := by
    have hl : 2 ^ (52 + (l + 1)) = 2 ^ 53 * 2 ^ l := by rw [← Nat.pow_add]; congr 1; omega
    rw [hl, Nat.pow_add 2 53]
    exact ⟨Nat.mul_le_mul_left _ hle, Nat.mul_lt_mul_of_pos_left hlt (Nat.two_pow_pos 53)⟩
  obtain ⟨⟨hlow, hhigh⟩, he₁⟩ :=
    shiftToTargetExponent_of_bits (e := -53) (c := .exact) hfirst.1 hfirst.2 (by omega)
  unfold roundWithAccuracy
  generalize shiftToTargetExponent .binary64 (2 ^ 53 * n) (-53) .exact = first at he₁ hlow hhigh ⊢
  obtain ⟨em, e⟩ := first
  dsimp only at he₁ hlow hhigh
  obtain ⟨k, hk, hbits, hbits'⟩ := exists_bits_roundedMantissa hlow hhigh
  obtain ⟨hkept, he₂⟩ := shiftToTargetExponent_of_bits (e := e) (c := .exact) hbits hbits' (by omega)
  dsimp only
  generalize shiftToTargetExponent .binary64 em.roundedMantissa e .exact = second at hkept he₂ ⊢
  obtain ⟨em', e'⟩ := second
  dsimp only at hkept he₂
  have hpos : em'.mantissa ≠ 0 := by omega
  rw [dif_neg hpos]
  exact isProper_unpack_pack ((Nat.log2_eq_iff hpos).2 hkept) (by omega) (by omega)

end Unpacked

open Float.Model (UnpackedFloat)
open Float.Model.UnpackedFloat (roundWithAccuracy)

variable {x y : Float}

lemma isNaN_ofModel_pack {u : Float.Model.UnpackedFloat} (h : u.isNaN = false) :
    (Float.ofModel (.pack u)).isNaN = false :=
  isNaN_unpack_pack h

lemma isNaN_neg_float (hx : x.isNaN = false) : (-x).isNaN = false :=
  isNaN_ofModel_pack (isNaN_neg hx)

lemma isNaN_mul_float (hx : x.isNaN = false) (hy : isProper y.toModel.unpack = true) : (x * y).isNaN = false :=
  isNaN_ofModel_pack (isNaN_mul_div hx hy).1

lemma isNaN_div_float (hx : x.isNaN = false) (hy : isProper y.toModel.unpack = true) : (x / y).isNaN = false :=
  isNaN_ofModel_pack (isNaN_mul_div hx hy).2

lemma isProper_powerOfTen {k : Nat} (h : k ≤ 308) : isProper (Float.ofScientific 1 false k).toModel.unpack = true := by
  -- the first powers come from a table, and the last one has the largest exponent
  have hsmall : ∀ k < 23, isProper (Float.ofScientific 1 false k).toModel.unpack = true := by decide +kernel
  have hlast : isProper (Float.ofScientific 1 false 308).toModel.unpack = true := by decide +kernel
  obtain hk | hk | ⟨hk, hk'⟩ : k < 23 ∨ k = 308 ∨ 22 < k ∧ k ≤ 307 := by omega
  · exact hsmall k hk
  · exact hk ▸ hlast
  · have hbits : ∀ k < 308, Nat.pow 10 k < Nat.pow 2 (103 * k / 31 + 1) := by decide +kernel
    have hpos : 0 < 10 ^ k := Nat.pow_pos (by decide)
    have hlog : (10 ^ k).log2 < 103 * k / 31 + 1 := (Nat.log2_lt hpos.ne').2 (hbits k (Nat.lt_succ_of_le hk'))
    have hmodel : UnpackedFloat.ofScientific .binary64 1 k =
        roundWithAccuracy .binary64 .positive (2 ^ 53 * 10 ^ k) (-53) .exact := by
      have hhigh : ¬ (k : Int) > 2 ^ Float.Model.Format.binary64.exponentBits := by
        change ¬ (k : Int) > 2048
        omega
      have hlow : ¬ (k : Int) < -((2 ^ Float.Model.Format.binary64.exponentBits : Int) + Nat.log2 1) := by omega
      rw [UnpackedFloat.ofScientific, dif_neg Nat.one_ne_zero, if_neg hhigh, if_neg hlow,
        if_pos (Int.natCast_nonneg k)]
      rfl
    rw [Float.ofScientific, dif_neg (by omega)]
    change isProper (UnpackedFloat.unpack .binary64 (UnpackedFloat.pack .binary64
      (UnpackedFloat.ofScientific .binary64 1 k))) = true
    rw [hmodel]
    exact isProper_round hpos (by omega)

lemma isNaN_ofScientific_float (m : Nat) (s : Bool) (e : Nat) : (Float.ofScientific m s e).isNaN = false := by
  have hpowers : ∀ k : Fin 23, isProper (Float.exactlyRepresentablePowersOfTen[k]).toModel.unpack = true := by
    decide +kernel
  rw [Float.ofScientific]
  split
  · next h =>
    have hwhole : m.toUInt64.toFloat.isNaN = false := isNaN_ofModel_pack (isNaN_normalize ..)
    cases s with
    | true => exact isNaN_div_float hwhole (hpowers ⟨e, by omega⟩)
    | false => exact isNaN_mul_float hwhole (hpowers ⟨e, by omega⟩)
  · exact isNaN_ofModel_pack (isNaN_ofScientific ..)

lemma isNaN_ofNat (n : Nat) : (Float.ofNat n).isNaN = false := isNaN_ofScientific_float n false 0

lemma isNaN_ofInt (n : Int) : (Float.ofInt n).isNaN = false := by
  cases n with
  | ofNat n => exact isNaN_ofNat n
  | negSucc n => exact isNaN_neg_float (isNaN_ofNat (n + 1))

lemma isNaN_shrink (hx : x.isNaN = false) (places : Nat) : (shrink x places).isNaN = false := by
  fun_induction shrink x places with
  | case1 x places h => exact isNaN_div_float hx (isProper_powerOfTen (Nat.min_le_right ..))
  | case2 x places h ih => exact ih (isNaN_div_float hx (isProper_powerOfTen (Nat.le_refl _)))

lemma isNaN_of_scale? {significand : Nat} {exponent : Int} (h : scale? significand exponent = some x) :
    x.isNaN = false := by
  unfold scale? at h
  dsimp only at h
  split_ifs at h with hsmall hlarge hinf hzero
  · obtain rfl := Option.some.inj h
    exact isNaN_shrink (isNaN_ofNat significand) _
  · obtain rfl := Option.some.inj h
    exact isNaN_mul_float (isNaN_ofNat significand) (isProper_powerOfTen (by omega))
  · obtain rfl := Option.some.inj h
    exact isNaN_ofNat 0

end OptimizerHints.Decimal
