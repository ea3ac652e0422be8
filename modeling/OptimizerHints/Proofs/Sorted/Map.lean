import OptimizerHints.Proofs.Sorted.Set
import OptimizerHints.Sorted.Map

namespace OptimizerHints

open Std

variable {κ β : Type} [Ord κ] [LawfulEqOrd κ]

lemma Entries.put_perm {k : κ} {es : List (κ × β)} (h : k ∉ es.map Prod.fst) (v : β) :
    (put k v es).Perm ((k, v) :: es) := by
  induction es with
  | nil => exact .refl _
  | cons e es ih =>
    obtain ⟨k', v'⟩ := e
    rw [List.map_cons, List.mem_cons, not_or] at h
    cases hk : compare k k' with
    | lt => simp [put, hk]
    | eq => exact absurd (LawfulEqOrd.eq_of_compare hk) h.1
    | gt =>
      simp only [put, hk]
      exact ((ih h.2).cons (k', v')).trans (.swap (k, v) (k', v') es)

lemma Entries.get?_cons_self (e : κ × β) (es : List (κ × β)) : get? e.1 (e :: es) = some e.2 :=
  if_pos ReflOrd.compare_self

lemma Entries.get?_cons_of_ne {k : κ} {e : κ × β} (h : k ≠ e.1) (es : List (κ × β)) : get? k (e :: es) = get? k es :=
  if_neg fun hk => h (LawfulEqOrd.eq_of_compare hk)

lemma Entries.get?_eq_none {k : κ} {es : List (κ × β)} (h : k ∉ es.map Prod.fst) : get? k es = none := by
  induction es with
  | nil => rfl
  | cons e es ih =>
    rw [List.map_cons, List.mem_cons, not_or] at h
    rw [get?_cons_of_ne h.1, ih h.2]

namespace SortedMap

lemma nodup_entries (m : SortedMap κ β) : m.entries.Nodup := .of_map Prod.fst (List.Pairwise.nodup m.increasing)

lemma mem_keys_iff {m : SortedMap κ β} {k : κ} : k ∈ m.keys ↔ (m.get? k).isSome = true := by
  simp only [keys, List.mem_map, Prod.exists, mem_entries_iff, exists_and_right, exists_eq_right, Option.isSome_iff_exists]

variable [TransOrd κ]

def insertAll (m : SortedMap κ β) (es : List (κ × β)) : SortedMap κ β := es.foldl (fun acc e => acc.insert e.1 e.2) m

lemma insertAll_append (m : SortedMap κ β) (es es' : List (κ × β)) :
    m.insertAll (es ++ es') = (m.insertAll es).insertAll es' := List.foldl_append

lemma entries_insertAll_perm {m : SortedMap κ β} {es : List (κ × β)} (h : (m.keys ++ es.map Prod.fst).Nodup) :
    (m.insertAll es).entries.Perm (m.entries ++ es) := by
  induction es generalizing m with
  | nil =>
    rw [List.append_nil]
    exact .refl _
  | cons e es ih =>
    rw [List.map_cons, List.perm_middle.nodup_iff] at h
    -- the key is new, so that no entry is overwritten
    have hfresh : e.1 ∉ m.keys := fun hmem => (List.nodup_cons.1 h).1 (List.mem_append_left _ hmem)
    have hinsert : (m.insert e.1 e.2).entries.Perm (e :: m.entries) := Entries.put_perm hfresh e.2
    have hkeys : ((m.insert e.1 e.2).keys ++ es.map Prod.fst).Nodup :=
      ((hinsert.map Prod.fst).append_right _).nodup_iff.2 h
    exact (ih hkeys).trans ((hinsert.append_right es).trans List.perm_middle.symm)

theorem ext {m n : SortedMap κ β} (h : ∀ k, m.get? k = n.get? k) : m = n := by
  let before (e e' : κ × β) : Prop := compare e.1 e'.1 = .lt
  have : Irrefl before := ⟨fun e => irrefl (r := fun a b : κ => compare a b = .lt) e.1⟩
  have : Antisymm before := ⟨fun e _ hlt hgt => absurd (TransCmp.lt_trans hlt hgt) (irrefl (r := before) e)⟩
  have hmem : ∀ e, e ∈ m.entries ↔ e ∈ n.entries := by
    rintro ⟨k, v⟩
    rw [mem_entries_iff, mem_entries_iff, h]
  obtain ⟨es, hes⟩ := m
  obtain ⟨es', hes'⟩ := n
  obtain rfl : es = es' :=
    List.Pairwise.eq_of_mem_iff (r := before) (List.pairwise_map.1 hes) (List.pairwise_map.1 hes') hmem
  rfl

variable {m n o : SortedMap κ β}

lemma get?_insertAll {es : List (κ × β)} (h : (es.map Prod.fst).Nodup) (k : κ) :
    (m.insertAll es).get? k = (Entries.get? k es).or (m.get? k) := by
  induction es generalizing m with
  | nil => rfl
  | cons e es ih =>
    obtain ⟨he, hes⟩ := List.nodup_cons.1 h
    have hrest : (m.insertAll (e :: es)).get? k = _ := ih (m := m.insert e.1 e.2) hes
    rw [hrest]
    by_cases hk : k = e.1
    · subst hk
      rw [Entries.get?_eq_none he, get?_insert_self, Entries.get?_cons_self]
      rfl
    · rw [get?_insert_of_ne m hk, Entries.get?_cons_of_ne hk]

theorem get?_union (m n : SortedMap κ β) (k : κ) : (m.union n).get? k = (n.get? k).or (m.get? k) :=
  get?_insertAll (List.Pairwise.nodup n.increasing) k

section Entries

variable {P : κ → β → Prop} (hm : ∀ k v, m.get? k = some v → P k v)
include hm

lemma forall_insert {k : κ} {v : β} (hv : P k v) : ∀ k' v', (m.insert k v).get? k' = some v' → P k' v' := by
  intro k' v' h
  by_cases hk : k' = k
  · subst hk
    rw [get?_insert_self] at h
    obtain rfl := Option.some.inj h
    exact hv
  · rw [get?_insert_of_ne m hk] at h
    exact hm k' v' h

lemma forall_union (hn : ∀ k v, n.get? k = some v → P k v) : ∀ k v, (m.union n).get? k = some v → P k v := by
  intro k v h
  rw [get?_union, Option.or_eq_some_iff] at h
  rcases h with h | ⟨-, h⟩
  · exact hn k v h
  · exact hm k v h

end Entries

lemma union_assoc : (m.union n).union o = m.union (n.union o) := by
  apply ext
  intro k
  simp only [get?_union, Option.or_assoc]

@[simp] lemma union_self : m.union m = m := by
  apply ext
  intro k
  rw [get?_union, Option.or_self]

@[simp] lemma empty_union : (∅ : SortedMap κ β).union m = m := by
  apply ext
  intro k
  rw [get?_union]
  exact Option.or_none

@[simp] lemma union_empty : m.union ∅ = m := by
  apply ext
  intro k
  rw [get?_union]
  exact Option.none_or

end SortedMap

end OptimizerHints
