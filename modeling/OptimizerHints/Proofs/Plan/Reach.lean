import Mathlib.Tactic.Common
import OptimizerHints.JoinTree
import OptimizerHints.Plan

/-! The nodes that are reached from a plan by going from joins to their inputs, and what lies beside them. -/

namespace OptimizerHints.Plan

lemma passed?_eq_some_iff {p c : Plan} :
    p.passed? = some c ↔ p.isJoin = false ∧ p.isScan = false ∧ p.children = [c] := by
  rw [passed?]
  cases p.isJoin <;> cases p.isScan <;> rcases p.children with _ | ⟨a, _ | ⟨b, cs⟩⟩ <;> simp

lemma passed?_eq_none_iff {p : Plan} (hscan : p.isScan = false) (hjoin : p.isJoin = false) :
    p.passed? = none ↔ p.children.length ≠ 1 := by
  rw [passed?, hscan, hjoin]
  rcases p.children with _ | ⟨a, _ | ⟨b, cs⟩⟩ <;> simp

lemma isScan_of_scanTable? {p : Plan} {t : TableRef} (h : p.scanTable? = some t) : p.isScan = true := by
  rw [scanTable?] at h
  exact (Option.ite_none_right_eq_some.1 h).1

lemma unwrapped_of_passed {p c : Plan} (h : p.passed? = some c) : p.unwrapped = c.unwrapped := by
  rw [unwrapped]
  split
  · next c' h' =>
    obtain rfl := Option.some.inj (h.symm.trans h')
    rfl
  · next h' =>
    rw [h] at h'
    cases h'

lemma unwrapped_of_not_passed {p : Plan} (h : p.passed? = none) : p.unwrapped = p := by
  rw [unwrapped]
  split
  · next h' =>
    rw [h] at h'
    cases h'
  · rfl

lemma passed?_unwrapped (p : Plan) : p.unwrapped.passed? = none := by
  fun_induction unwrapped p with
  | case1 p c h ih => exact ih
  | case2 p h => exact h

@[simp] lemma unwrapped_unwrapped (p : Plan) : p.unwrapped.unwrapped = p.unwrapped :=
  unwrapped_of_not_passed (passed?_unwrapped p)

lemma unwrapped_of_isJoin {p : Plan} (h : p.isJoin = true) : p.unwrapped = p :=
  unwrapped_of_not_passed (by simp [passed?, h])

lemma unwrapped_cases (p : Plan) :
    p.unwrapped.isScan = true ∨ p.unwrapped.isScan = false ∧ p.unwrapped.isJoin = true ∨
      p.unwrapped.isScan = false ∧ p.unwrapped.isJoin = false ∧ p.unwrapped.children.length ≠ 1 := by
  cases hscan : p.unwrapped.isScan with
  | true => exact .inl rfl
  | false =>
    cases hjoin : p.unwrapped.isJoin with
    | true => exact .inr (.inl ⟨rfl, rfl⟩)
    | false => exact .inr (.inr ⟨rfl, rfl, (passed?_eq_none_iff hscan hjoin).1 (passed?_unwrapped p)⟩)

lemma of_unwrapped {ρ : Type} (f : Plan → ρ) (hf : ∀ p c, p.passed? = some c → f p = f c) (p : Plan) :
    f p.unwrapped = f p := by
  fun_induction unwrapped p with
  | case1 p c h ih => rw [ih, hf p c h]
  | case2 p h => rfl

lemma scanned_of_passed {p c : Plan} (h : p.passed? = some c) : p.scanned = c.scanned := by
  obtain ⟨-, hscan, hchildren⟩ := passed?_eq_some_iff.1 h
  rw [scanned]
  simp [hscan, hchildren]

@[simp] lemma scanned_unwrapped (p : Plan) : p.unwrapped.scanned = p.scanned :=
  of_unwrapped scanned (fun _ _ => scanned_of_passed) p

@[simp] lemma tables_unwrapped (p : Plan) : p.unwrapped.tables = p.tables := by
  rw [tables, scanned_unwrapped, tables]

lemma joinSequence_of_passed {p c : Plan} (h : p.passed? = some c) : p.joinSequence = c.joinSequence := by
  obtain ⟨hjoin, hscan, -⟩ := passed?_eq_some_iff.1 h
  rw [joinSequence]
  simp only [hscan, hjoin, Bool.false_eq_true, if_false]
  split
  · next c' h' =>
    obtain rfl := Option.some.inj (h.symm.trans h')
    rfl
  · next h' =>
    rw [h] at h'
    cases h'

@[simp] lemma joinSequence_unwrapped (p : Plan) : p.unwrapped.joinSequence = p.joinSequence :=
  of_unwrapped joinSequence (fun _ _ => joinSequence_of_passed) p

lemma joinSequence_of_isScan {p : Plan} (h : p.isScan = true) : p.joinSequence = .ok [] := by
  rw [joinSequence, if_pos h]

lemma joinSequence_of_isJoin {p i : Plan} (hscan : p.isScan = false) (hjoin : p.isJoin = true)
    (hi : p.inner? = some i) : p.joinSequence = do return (← i.joinSequence) ++ [p] := by
  rw [joinSequence]
  simp only [hscan, hjoin, Bool.false_eq_true, if_false, if_true]
  split
  · next i' hi' =>
    obtain rfl := Option.some.inj (hi.symm.trans hi')
    rfl
  · next hi' =>
    rw [hi] at hi'
    cases hi'

lemma joinSequence_of_deadEnd {p : Plan} (hscan : p.isScan = false) (hjoin : p.isJoin = false)
    (hchildren : p.children.length ≠ 1) :
    p.joinSequence = .error (.malformedPlan (.notOneChild p.nodeType p.children.length)) := by
  have hpassed := (passed?_eq_none_iff hscan hjoin).2 hchildren
  rw [joinSequence, if_neg (Bool.eq_false_iff.1 hscan), if_neg (Bool.eq_false_iff.1 hjoin)]
  split
  · next h =>
    rw [hpassed] at h
    cases h
  · rfl

/-- The node that a choice of outer (left) and inner (right) inputs leads to, nodes that pass rows on being skipped. -/
inductive Reaches : Plan → List Side → Plan → Prop
  | here (p : Plan) : Reaches p [] p.unwrapped
  | outer {p c q : Plan} {path : List Side} : p.unwrapped.isScan = false → p.unwrapped.isJoin = true →
    p.unwrapped.outer? = some c → Reaches c path q → Reaches p (.left :: path) q
  | inner {p c q : Plan} {path : List Side} : p.unwrapped.isScan = false → p.unwrapped.isJoin = true →
    p.unwrapped.inner? = some c → Reaches c path q → Reaches p (.right :: path) q

def HasJoin (P : Plan → Prop) (p : Plan) : Prop :=
  ∃ path j, p.Reaches path j ∧ j.isScan = false ∧ j.isJoin = true ∧ P j

def Aside (p c : Plan) : Prop :=
  ∃ k, p.children[k]? = some c ∧ k ≠ (if p.innerIndex = some 0 then 1 else 0) ∧ k ≠ p.innerIndex.getD 1

def ScansAside (p : Plan) (t : TableRef) : Prop :=
  ∃ path j c, p.Reaches path j ∧ j.isScan = false ∧ j.isJoin = true ∧ j.Aside c ∧ t ∈ c.tables

variable {p c o i : Plan} {t : TableRef}

lemma mem_tables_iff (hscan : p.isScan = false) : t ∈ p.tables ↔ ∃ c ∈ p.children, t ∈ c.tables := by
  rw [tables, SortedSet.mem_ofList, scanned, hscan]
  simp [tables]

lemma mem_children_iff (ho : p.outer? = some o) (hi : p.inner? = some i) :
    c ∈ p.children ↔ p.Aside c ∨ c = o ∨ c = i := by
  rw [outer?] at ho
  rw [inner?] at hi
  rw [List.mem_iff_getElem?]
  constructor
  · rintro ⟨k, hk⟩
    by_cases hko : k = if p.innerIndex = some 0 then 1 else 0
    · rw [← hko, hk] at ho
      exact .inr (.inl (Option.some.inj ho))
    · by_cases hki : k = p.innerIndex.getD 1
      · rw [← hki, hk] at hi
        exact .inr (.inr (Option.some.inj hi))
      · exact .inl ⟨k, hk, hko, hki⟩
  · rintro (⟨k, hk, -, -⟩ | rfl | rfl)
    · exact ⟨k, hk⟩
    · exact ⟨_, ho⟩
    · exact ⟨_, hi⟩

lemma mem_tables_join_iff (hscan : p.isScan = false) (ho : p.outer? = some o) (hi : p.inner? = some i) :
    t ∈ p.tables ↔ t ∈ o.tables ∨ t ∈ i.tables ∨ ∃ c, p.Aside c ∧ t ∈ c.tables := by
  simp only [mem_tables_iff hscan, mem_children_iff ho hi]
  constructor
  · rintro ⟨c, haside | rfl | rfl, ht⟩
    · exact .inr (.inr ⟨c, haside, ht⟩)
    · exact .inl ht
    · exact .inr (.inl ht)
  · rintro (ht | ht | ⟨c, haside, ht⟩)
    · exact ⟨o, .inr (.inl rfl), ht⟩
    · exact ⟨i, .inr (.inr rfl), ht⟩
    · exact ⟨c, .inl haside, ht⟩

lemma Reaches.of_isScan {q : Plan} {path : List Side} (h : p.Reaches path q) (hscan : p.unwrapped.isScan = true) :
    path = [] ∧ q = p.unwrapped := by
  cases h with
  | here => exact ⟨rfl, rfl⟩
  | outer h | inner h =>
    rw [hscan] at h
    cases h

lemma Reaches.of_inputs {q : Plan} {path : List Side} (h : p.Reaches path q) (ho : p.unwrapped.outer? = some o)
    (hi : p.unwrapped.inner? = some i) :
    (path = [] ∧ q = p.unwrapped) ∨ (∃ path', path = .left :: path' ∧ o.Reaches path' q) ∨
      ∃ path', path = .right :: path' ∧ i.Reaches path' q := by
  cases h with
  | here => exact .inl ⟨rfl, rfl⟩
  | outer _ _ ho' h =>
    obtain rfl := Option.some.inj (ho.symm.trans ho')
    exact .inr (.inl ⟨_, rfl, h⟩)
  | inner _ _ hi' h =>
    obtain rfl := Option.some.inj (hi.symm.trans hi')
    exact .inr (.inr ⟨_, rfl, h⟩)

lemma Reaches.of_unwrapped_eq {q r : Plan} {path : List Side} (h : p.Reaches path r) (hq : p.unwrapped = q.unwrapped) :
    q.Reaches path r := by
  cases h with
  | here =>
    rw [hq]
    exact .here q
  | outer hscan hjoin ho h =>
    rw [hq] at hscan hjoin ho
    exact .outer hscan hjoin ho h
  | inner hscan hjoin hi h =>
    rw [hq] at hscan hjoin hi
    exact .inner hscan hjoin hi h

lemma Reaches.trans {q r : Plan} {path path' : List Side} (h : p.Reaches path q) (h' : q.Reaches path' r) :
    p.Reaches (path ++ path') r := by
  induction h with
  | here p => exact h'.of_unwrapped_eq p.unwrapped_unwrapped
  | outer hscan hjoin ho _ ih => exact .outer hscan hjoin ho (ih h')
  | inner hscan hjoin hi _ ih => exact .inner hscan hjoin hi (ih h')

lemma Reaches.self (h : p.isJoin = true) : p.Reaches [] p := by
  have hhere := Reaches.here p
  rwa [unwrapped_of_isJoin h] at hhere

section HasJoin

variable {P : Plan → Prop}

lemma HasJoin.of_reaches {q : Plan} {path : List Side} (h : q.HasJoin P) (hq : p.Reaches path q) : p.HasJoin P := by
  obtain ⟨path', j, hj, hjoin⟩ := h
  exact ⟨path ++ path', j, hq.trans hj, hjoin⟩

lemma hasJoin_unwrapped (p : Plan) : p.unwrapped.HasJoin P ↔ p.HasJoin P := by
  constructor
  · exact fun h => h.of_reaches (.here p)
  · rintro ⟨path, j, hj, h⟩
    exact ⟨path, j, hj.of_unwrapped_eq p.unwrapped_unwrapped.symm, h⟩

lemma hasJoin_join_iff (hscan : p.unwrapped.isScan = false) (hjoin : p.unwrapped.isJoin = true)
    (ho : p.unwrapped.outer? = some o) (hi : p.unwrapped.inner? = some i) :
    p.HasJoin P ↔ o.HasJoin P ∨ i.HasJoin P ∨ P p.unwrapped := by
  constructor
  · rintro ⟨path, j, hj, h⟩
    obtain ⟨-, rfl⟩ | ⟨path', -, hj⟩ | ⟨path', -, hj⟩ := hj.of_inputs ho hi
    · exact .inr (.inr h.2.2)
    · exact .inl ⟨path', j, hj, h⟩
    · exact .inr (.inl ⟨path', j, hj, h⟩)
  · rintro (h | h | h)
    · exact ((hasJoin_unwrapped o).2 h).of_reaches (.outer hscan hjoin ho (.here o))
    · exact ((hasJoin_unwrapped i).2 h).of_reaches (.inner hscan hjoin hi (.here i))
    · exact ⟨[], _, .here p, hscan, hjoin, h⟩

lemma not_hasJoin_of_isScan (hscan : p.unwrapped.isScan = true) : ¬p.HasJoin P := by
  rintro ⟨path, j, hj, hjscan, -⟩
  obtain ⟨-, rfl⟩ := hj.of_isScan hscan
  rw [hscan] at hjscan
  cases hjscan

end HasJoin

lemma scansAside_iff_hasJoin : p.ScansAside t ↔ p.HasJoin fun j => ∃ c, j.Aside c ∧ t ∈ c.tables := by
  constructor
  · rintro ⟨path, j, c, hj, hscan, hjoin, hc⟩
    exact ⟨path, j, hj, hscan, hjoin, c, hc⟩
  · rintro ⟨path, j, hj, hscan, hjoin, c, hc⟩
    exact ⟨path, j, c, hj, hscan, hjoin, hc⟩

lemma scansAside_join_iff (hscan : p.unwrapped.isScan = false) (hjoin : p.unwrapped.isJoin = true)
    (ho : p.unwrapped.outer? = some o) (hi : p.unwrapped.inner? = some i) :
    p.ScansAside t ↔ o.ScansAside t ∨ i.ScansAside t ∨ ∃ c, p.unwrapped.Aside c ∧ t ∈ c.tables := by
  simp only [scansAside_iff_hasJoin, hasJoin_join_iff hscan hjoin ho hi]

lemma scansAside_unwrapped (p : Plan) : p.unwrapped.ScansAside t ↔ p.ScansAside t := by
  simp only [scansAside_iff_hasJoin, hasJoin_unwrapped]

lemma not_scansAside_of_isScan (hscan : p.unwrapped.isScan = true) : ¬p.ScansAside t := by
  rw [scansAside_iff_hasJoin]
  exact not_hasJoin_of_isScan hscan

end OptimizerHints.Plan
