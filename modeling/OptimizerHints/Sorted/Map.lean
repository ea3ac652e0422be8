import OptimizerHints.Sorted.Set

/-! Finite maps held as their entries in strictly increasing order of keys. -/

namespace OptimizerHints

open Std

namespace Entries

variable {κ β : Type} [Ord κ]

def get? (k : κ) : List (κ × β) → Option β
  | [] => none
  | (k', v) :: es => if compare k k' = .eq then some v else get? k es

def put (k : κ) (v : β) : List (κ × β) → List (κ × β)
  | [] => [(k, v)]
  | (k', v') :: es =>
    match compare k k' with
    | .lt => (k, v) :: (k', v') :: es
    | .eq => (k', v) :: es
    | .gt => (k', v') :: put k v es

theorem get?_put_self [LawfulEqOrd κ] (k : κ) (v : β) (es : List (κ × β)) : get? k (put k v es) = some v := by
  induction es with
  | nil => simp [put, get?]
  | cons e es ih =>
    obtain ⟨k', v'⟩ := e
    cases h : compare k k' <;> simp [put, get?, h, ih]

theorem get?_put_of_ne [LawfulEqOrd κ] {k k' : κ} (hk : k' ≠ k) (v : β) (es : List (κ × β)) :
    get? k' (put k v es) = get? k' es := by
  have hne : compare k' k ≠ .eq := fun h => hk (LawfulEqOrd.eq_of_compare h)
  induction es with
  | nil => simp [put, get?, hne]
  | cons e es ih =>
    obtain ⟨k'', v'⟩ := e
    cases h : compare k k'' with
    | lt => simp [put, get?, h, hne]
    | eq =>
      obtain rfl := LawfulEqOrd.eq_of_compare h
      simp [put, get?, hne]
    | gt => simp [put, get?, h, ih]

theorem put_put [LawfulEqOrd κ] (k : κ) (v w : β) (es : List (κ × β)) : put k w (put k v es) = put k w es := by
  induction es with
  | nil => simp [put]
  | cons e es ih =>
    obtain ⟨k', v'⟩ := e
    cases h : compare k k' <;> simp [put, h, ih]

theorem get?_eq_some_iff [LawfulEqOrd κ] {es : List (κ × β)} (h : Increasing (es.map Prod.fst)) {k : κ} {v : β} :
    get? k es = some v ↔ (k, v) ∈ es := by
  induction es with
  | nil => simp [get?]
  | cons e es ih =>
    obtain ⟨k', v'⟩ := e
    obtain ⟨hlt, hes⟩ := List.pairwise_cons.1 h
    rw [get?, List.mem_cons, Prod.mk.injEq]
    split
    · next hk =>
      obtain rfl := LawfulEqOrd.eq_of_compare hk
      have hnot : (k, v) ∉ es := fun hmem => by
        have hself := hlt k (List.mem_map_of_mem (f := Prod.fst) hmem)
        rw [hk] at hself
        cases hself
      simp [hnot, eq_comm]
    · next hk =>
      have hne : k ≠ k' := fun he => hk (he ▸ ReflOrd.compare_self)
      simp [hne, ih hes]

theorem map_fst_put (k : κ) (v : β) (es : List (κ × β)) :
    (put k v es).map Prod.fst = SortedSet.place k (es.map Prod.fst) := by
  induction es with
  | nil => rfl
  | cons e es ih =>
    obtain ⟨k', v'⟩ := e
    cases h : compare k k' <;> simp [put, SortedSet.place, h, ih]

end Entries

structure SortedMap (κ β : Type) [Ord κ] where
  entries : List (κ × β)
  increasing : Increasing (entries.map Prod.fst)

namespace SortedMap

variable {κ β : Type} [Ord κ]

def empty : SortedMap κ β := ⟨[], SortedSet.empty.increasing⟩

instance : EmptyCollection (SortedMap κ β) := ⟨empty⟩

instance : Inhabited (SortedMap κ β) := ⟨empty⟩

instance [DecidableEq κ] [DecidableEq β] : DecidableEq (SortedMap κ β) := fun m n =>
  if h : m.entries = n.entries then isTrue (by cases m; cases n; simp_all)
  else isFalse fun hmn => h (hmn ▸ rfl)

def isEmpty (m : SortedMap κ β) : Bool := m.entries.isEmpty

theorem eq_empty_of_isEmpty {m : SortedMap κ β} (h : m.isEmpty = true) : m = ∅ := by
  obtain ⟨entries, hentries⟩ := m
  obtain rfl := List.isEmpty_iff.1 h
  rfl

def keys (m : SortedMap κ β) : List κ := m.entries.map Prod.fst

def get? (m : SortedMap κ β) (k : κ) : Option β := Entries.get? k m.entries

theorem mem_entries_iff [LawfulEqOrd κ] {m : SortedMap κ β} {k : κ} {v : β} :
    (k, v) ∈ m.entries ↔ m.get? k = some v :=
  (Entries.get?_eq_some_iff m.increasing).symm

variable [TransOrd κ] [LawfulEqOrd κ]

def insert (m : SortedMap κ β) (k : κ) (v : β) : SortedMap κ β :=
  ⟨Entries.put k v m.entries, Entries.map_fst_put k v m.entries ▸ SortedSet.increasing_place m.increasing⟩

def union (m n : SortedMap κ β) : SortedMap κ β := n.entries.foldl (fun acc e => acc.insert e.1 e.2) m

def ofList (es : List (κ × β)) : SortedMap κ β := es.foldl (fun acc e => acc.insert e.1 e.2) empty

@[simp] theorem get?_insert_self (m : SortedMap κ β) (k : κ) (v : β) : (m.insert k v).get? k = some v :=
  Entries.get?_put_self k v m.entries

theorem get?_insert_of_ne (m : SortedMap κ β) {k k' : κ} (h : k' ≠ k) (v : β) :
    (m.insert k v).get? k' = m.get? k' :=
  Entries.get?_put_of_ne h v m.entries

end SortedMap

end OptimizerHints
