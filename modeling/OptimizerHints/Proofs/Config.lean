import OptimizerHints.Config
import OptimizerHints.Hint.Error
import OptimizerHints.Proofs.Decimal.Order
import OptimizerHints.Proofs.Text.Trim

/-! Which environments give settings that can be used. A value in the wrong form gives way to the default. A value in
the right form is taken over as it is, also a number that is no decay factor and a word that is no dialect. -/

namespace OptimizerHints

lemma SynopsisConfig.validate_eq (c : SynopsisConfig) :
    c.validate = if 0 < c.gamma ∧ c.gamma ≤ 1 then .ok () else .error (.gamma c.gamma) := by
  obtain ⟨v, filterAware⟩ := c
  cases hv : v.isNaN with
  | true =>
    have hnot : ¬ (0 < v ∧ v ≤ 1) := fun h => Decimal.not_le_of_isNaN hv h.2
    simp only [validate, hv, Bool.true_or, ↓reduceIte, if_neg hnot]
  | false =>
    have hpos : 0 < v ↔ ¬ v ≤ 0 := (Decimal.not_le_iff_lt hv rfl).symm
    have hone : v > 1 ↔ ¬ v ≤ 1 := (Decimal.not_le_iff_lt hv rfl).symm
    simp only [validate, hv, hpos, hone, Bool.false_or, Bool.or_eq_true, decide_eq_true_eq]
    by_cases hzero : v ≤ 0 <;> by_cases hle : v ≤ 1 <;> simp [hzero, hle]

lemma SynopsisConfig.validate_ok_iff {c : SynopsisConfig} : c.validate = .ok () ↔ 0 < c.gamma ∧ c.gamma ≤ 1 := by
  rw [validate_eq]
  split_ifs with h <;> simp [h]

lemma Dialect.normalize_normalize (s : String) : normalize (normalize s) = normalize s := by
  rw [normalize, normalize, Text.trim_lowerAscii, Text.lowerAscii_lowerAscii, Text.trim_trim]

lemma Dialect.parse_normalize (s : String) : Dialect.parse (normalize s) = Dialect.parse s := by
  rw [Dialect.parse, Dialect.parse, ofName?, ofName?, normalize_normalize]

namespace Config

def Usable (c : Config) : Prop := c.synopsis.validate = .ok () ∧ ∃ d, Dialect.parse c.dialect = .ok d

variable {dialect gamma filterAware : Option String} {s : String}

lemma ofEnvironment_gamma : (ofEnvironment dialect gamma filterAware).synopsis.gamma =
    (gamma.bind Decimal.read?).getD 0.8 := rfl

lemma ofEnvironment_dialect (hs : dialect = some s) (hword : ¬ Text.AllBlank s) :
    (ofEnvironment dialect gamma filterAware).dialect = Dialect.normalize s := by
  have hne : Text.trim s ≠ "" := Text.trim_eq_empty_iff.not.2 hword
  simp only [ofEnvironment, hs, Option.map_some]
  rfl

lemma ofEnvironment_dialect_default (h : ∀ s, dialect = some s → Text.AllBlank s) :
    (ofEnvironment dialect gamma filterAware).dialect = "postgres" := by
  cases dialect with
  | none => rfl
  | some s => simp [ofEnvironment, Text.trim_eq_empty_iff.2 (h s rfl)]

lemma ofEnvironment_filterAware :
    (ofEnvironment dialect gamma filterAware).synopsis.filterAware = true ↔ filterAware = some "true" := by
  unfold ofEnvironment
  dsimp only
  split
  case h_1 => simp
  case h_2 hother => simpa using hother

lemma ofEnvironment_validate_ok_iff : (ofEnvironment dialect gamma filterAware).synopsis.validate = .ok () ↔
    ∀ v, gamma.bind Decimal.read? = some v → 0 < v ∧ v ≤ 1 := by
  have hdefault : (0 : Float) < 0.8 ∧ (0.8 : Float) ≤ 1 := by decide +kernel
  rw [SynopsisConfig.validate_ok_iff, ofEnvironment_gamma]
  cases gamma.bind Decimal.read? with
  | none => simpa using hdefault
  | some v => simp

lemma ofEnvironment_parse_ok_iff : (∃ d, Dialect.parse (ofEnvironment dialect gamma filterAware).dialect = .ok d) ↔
    ∀ s, dialect = some s → ¬ Text.AllBlank s → ∃ d, Dialect.parse s = .ok d := by
  by_cases hword : ∃ s, dialect = some s ∧ ¬ Text.AllBlank s
  · obtain ⟨s, hs, hword⟩ := hword
    rw [ofEnvironment_dialect hs hword, Dialect.parse_normalize]
    constructor
    · rintro h s' hs' -
      rwa [← Option.some.inj (hs.symm.trans hs')]
    · exact fun h => h s hs hword
  · push Not at hword
    rw [ofEnvironment_dialect_default hword]
    exact ⟨fun _ s hs hnot => absurd (hword s hs) hnot, fun _ => ⟨.postgres, by decide +kernel⟩⟩

/-- A number in the environment is taken for the decay factor whatever its size, and any word for a dialect. So the
settings cannot be used when the number lies outside (0, 1] or there is no such dialect; otherwise they can. -/
theorem ofEnvironment_usable_iff (dialect gamma filterAware : Option String) :
    ((ofEnvironment dialect gamma filterAware).Usable ↔
      (∀ v, gamma.bind Decimal.read? = some v → 0 < v ∧ v ≤ 1) ∧
        ∀ s, dialect = some s → ¬ Text.AllBlank s → ∃ d, Dialect.parse s = .ok d) ∧
    let c := ofEnvironment dialect gamma filterAware
    (∀ v, gamma.bind Decimal.read? = some v → ¬ (0 < v ∧ v ≤ 1) → c.synopsis.validate = .error (.gamma v)) ∧
    (gamma.bind Decimal.read? = none → c.synopsis.gamma = 0.8) ∧
    (∀ s, dialect = some s → ¬ Text.AllBlank s → Dialect.parse c.dialect = Dialect.parse s) ∧
    ((∀ s, dialect = some s → Text.AllBlank s) → c.dialect = "postgres") ∧
    (c.synopsis.filterAware = true ↔ filterAware = some "true") := by
  refine ⟨and_congr ofEnvironment_validate_ok_iff ofEnvironment_parse_ok_iff, ?_⟩
  intro c
  refine ⟨?_, ?_, ?_, ofEnvironment_dialect_default, ofEnvironment_filterAware⟩
  · intro v hv hnot
    have hgamma : c.synopsis.gamma = v := by rw [ofEnvironment_gamma, hv, Option.getD_some]
    rw [SynopsisConfig.validate_eq, hgamma, if_neg hnot]
  · intro hnone
    rw [ofEnvironment_gamma, hnone, Option.getD_none]
  · intro s hs hword
    rw [ofEnvironment_dialect hs hword, Dialect.parse_normalize]

theorem ofEnvironment_keeps_invalid :
    (ofEnvironment none (some "2") none).synopsis.validate = .error (.gamma 2) ∧
    (ofEnvironment none (some "-Inf") none).synopsis.validate = .error (.gamma (-(1 / 0))) ∧
    (ofEnvironment none (some "NaN") none).synopsis.validate = .error (.gamma (0 / 0)) ∧
    Dialect.parse (ofEnvironment (some "Oracle 9 ") none none).dialect = .error (.unknownDialect "oracle 9") := by
  decide +kernel

end Config

end OptimizerHints
