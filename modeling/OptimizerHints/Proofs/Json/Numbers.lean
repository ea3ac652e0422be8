import OptimizerHints.Json.Reader
import OptimizerHints.Proofs.Decimal.Numbers

namespace OptimizerHints

open Decimal

namespace Document

mutual

def Numeric : Document → Prop
  | real x => x.isNaN = false
  | list items => AllNumeric items
  | record fields => FieldsNumeric fields
  | null | flag _ | whole _ | text _ | flawed => True

def AllNumeric : List Document → Prop
  | [] => True
  | d :: ds => d.Numeric ∧ AllNumeric ds

def FieldsNumeric : List (Document × Document) → Prop
  | [] => True
  | (_, d) :: fs => d.Numeric ∧ FieldsNumeric fs

end

lemma allNumeric_iff {ds : List Document} : AllNumeric ds ↔ ∀ d ∈ ds, d.Numeric := by
  induction ds with
  | nil => simp [AllNumeric]
  | cons d ds ih => rw [AllNumeric, List.forall_mem_cons, ih]

lemma fieldsNumeric_iff {fs : List (Document × Document)} : FieldsNumeric fs ↔ ∀ f ∈ fs, f.2.Numeric := by
  induction fs with
  | nil => simp [FieldsNumeric]
  | cons f fs ih => rw [FieldsNumeric, List.forall_mem_cons, ih]

variable {d v : Document} {name : String} {x : Float}

lemma Numeric.of_field? (h : d.Numeric) (hv : d.field? name = some v) : v.Numeric := by
  cases d with
  | record fields =>
    obtain ⟨f, hf, rfl⟩ := Option.map_eq_some_iff.1 hv
    rw [Numeric, fieldsNumeric_iff] at h
    exact h f (List.mem_reverse.1 (List.mem_of_find?_eq_some hf))
  | _ => cases hv

lemma Numeric.of_asReal? (h : d.Numeric) (hx : d.asReal? = some x) : x.isNaN = false := by
  cases d with
  | whole n =>
    obtain rfl := Option.some.inj hx
    exact isNaN_ofInt n
  | real y =>
    obtain rfl := Option.some.inj hx
    rwa [Numeric] at h
  | _ => cases hx

end Document

namespace Json

open Document

variable {d : Document}

lemma numeric_realOf (negative : Bool) (significand : Nat) (exponent : Int) :
    (realOf negative significand exponent).Numeric := by
  rw [realOf]
  split
  · next x hx =>
    have hx := isNaN_of_scale? hx
    rw [Numeric]
    cases negative with
    | true => exact isNaN_neg_float hx
    | false => exact hx
  · trivial

lemma numeric_wholeOf (negative : Bool) (significand : Nat) : (wholeOf negative significand).Numeric := by
  rw [wholeOf]
  split_ifs
  · rw [Numeric]
    exact isNaN_neg_float (isNaN_ofNat significand)
  · trivial
  · trivial

lemma numeric_textOf (ps : List Piece) : (textOf ps).Numeric := by
  rw [textOf]
  split <;> trivial

lemma numeric_takeNumber? {negative : Bool} {cs rest : List Char} (h : takeNumber? negative cs = some (d, rest)) :
    d.Numeric := by
  unfold takeNumber? at h
  extract_lets finish at h
  -- however the whole part is written, the rest of the number makes one of the two forms of it
  have hfinish : ∀ part, finish part = some (d, rest) → d.Numeric := by
    rintro ⟨significand, rest₁⟩ h
    dsimp only [finish] at h
    split at h
    · split at h
      · cases h
      · obtain ⟨⟨e, rest₂⟩, -, h⟩ := Option.bind_eq_some_iff.1 h
        cases h
        exact numeric_realOf ..
    · obtain ⟨⟨e, rest₂⟩, -, h⟩ := Option.bind_eq_some_iff.1 h
      dsimp only at h
      split at h
      · cases h
        exact numeric_wholeOf ..
      · cases h
        exact numeric_realOf ..
  have hpart : ∀ part? : Option (Nat × List Char), part?.bind finish = some (d, rest) → d.Numeric := by
    intro part? h
    obtain ⟨part, -, h⟩ := Option.bind_eq_some_iff.1 h
    exact hfinish part h
  split at h
  · split at h <;> exact hpart _ h
  · split at h <;> exact hpart _ h
  · exact hpart _ h

section Step

variable {fuel : Nat}
  (hvalues : ∀ depth cs d rest, takeValue? fuel depth cs = some (d, rest) → d.Numeric)
  (hitems : ∀ depth cs ds rest, takeItems? fuel depth cs = some (ds, rest) → AllNumeric ds)
  (hfields : ∀ depth cs fs rest, takeFields? fuel depth cs = some (fs, rest) → FieldsNumeric fs)

include hitems hfields in
lemma numeric_takeValue?_succ {depth : Nat} {cs rest : List Char}
    (h : takeValue? (fuel + 1) depth cs = some (d, rest)) : d.Numeric := by
  rw [takeValue?] at h
  split at h
  case h_1 | h_2 | h_3 =>
    obtain ⟨r, -, h⟩ := Option.map_eq_some_iff.1 h
    cases h
    trivial
  case h_4 =>
    obtain ⟨⟨ps, r⟩, -, h⟩ := Option.map_eq_some_iff.1 h
    cases h
    exact numeric_textOf ps
  case h_5 | h_8 => exact numeric_takeNumber? h
  case h_6 =>
    obtain ⟨⟨items, r⟩, hfound, h⟩ := Option.map_eq_some_iff.1 h
    cases h
    have hnumeric : AllNumeric items := by
      split at hfound
      · cases hfound
        trivial
      · exact hitems _ _ _ _ hfound
    split
    · exact hnumeric
    · trivial
  case h_7 =>
    obtain ⟨⟨fields, r⟩, hfound, h⟩ := Option.map_eq_some_iff.1 h
    cases h
    have hnumeric : FieldsNumeric fields := by
      split at hfound
      · cases hfound
        trivial
      · exact hfields _ _ _ _ hfound
    split
    · exact hnumeric
    · trivial

include hvalues hitems in
lemma numeric_takeItems?_succ {depth : Nat} {cs rest : List Char} {ds : List Document}
    (h : takeItems? (fuel + 1) depth cs = some (ds, rest)) : AllNumeric ds := by
  rw [takeItems?] at h
  obtain ⟨⟨item, rest₁⟩, hitem, h⟩ := Option.bind_eq_some_iff.1 h
  dsimp only at h
  split at h
  · cases h
    exact ⟨hvalues _ _ _ _ hitem, trivial⟩
  · obtain ⟨⟨items, rest₂⟩, hfound, h⟩ := Option.bind_eq_some_iff.1 h
    cases h
    exact ⟨hvalues _ _ _ _ hitem, hitems _ _ _ _ hfound⟩
  · cases h

include hvalues hfields in
lemma numeric_takeFields?_succ {depth : Nat} {cs rest : List Char} {fs : List (Document × Document)}
    (h : takeFields? (fuel + 1) depth cs = some (fs, rest)) : FieldsNumeric fs := by
  rw [takeFields?] at h
  split at h
  · obtain ⟨⟨name, rest₁⟩, -, h⟩ := Option.bind_eq_some_iff.1 h
    dsimp only at h
    split at h
    · obtain ⟨⟨value, rest₂⟩, hvalue, h⟩ := Option.bind_eq_some_iff.1 h
      dsimp only at h
      split at h
      · cases h
        exact ⟨hvalues _ _ _ _ hvalue, trivial⟩
      · obtain ⟨⟨fields, rest₃⟩, hfound, h⟩ := Option.bind_eq_some_iff.1 h
        cases h
        exact ⟨hvalues _ _ _ _ hvalue, hfields _ _ _ _ hfound⟩
      · cases h
    · cases h
  · cases h

end Step

theorem numeric_take? (fuel : Nat) :
    (∀ depth cs d rest, takeValue? fuel depth cs = some (d, rest) → d.Numeric) ∧
    (∀ depth cs ds rest, takeItems? fuel depth cs = some (ds, rest) → AllNumeric ds) ∧
    ∀ depth cs fs rest, takeFields? fuel depth cs = some (fs, rest) → FieldsNumeric fs := by
  induction fuel with
  | zero => exact ⟨nofun, nofun, nofun⟩
  | succ fuel ih =>
    obtain ⟨hvalues, hitems, hfields⟩ := ih
    exact ⟨fun _ _ _ _ => numeric_takeValue?_succ hitems hfields,
      fun _ _ _ _ => numeric_takeItems?_succ hvalues hitems,
      fun _ _ _ _ => numeric_takeFields?_succ hvalues hfields⟩

theorem numeric_of_read? {s : String} (h : read? s = some d) : d.Numeric := by
  obtain ⟨value, hvalue, h⟩ := Option.bind_eq_some_iff.1 h
  obtain ⟨⟨found, rest⟩, hfound, hvalue⟩ := Option.bind_eq_some_iff.1 hvalue
  have hnumeric : found.Numeric := (numeric_take? _).1 _ _ _ _ hfound
  split at h
  · cases h
    dsimp only at hvalue
    split at hvalue
    · cases hvalue
      exact hnumeric
    · cases hvalue
  · cases h

end Json

end OptimizerHints
