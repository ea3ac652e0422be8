import OptimizerHints.Parameters
import OptimizerHints.Proofs.Outcome
import OptimizerHints.Proofs.Sorted.Map

namespace OptimizerHints

open Outcome

namespace Parameters

section Lists

variable {α : Type} [DecidableEq α] {xs ys zs : List α}

def appendAll (xs ys : List α) : List α := xs ++ ys.filter fun y => y ∉ xs

lemma nodup_appendNew (h : xs.Nodup) (y : α) : (appendNew xs y).Nodup := by
  by_cases hy : y ∈ xs
  · rwa [appendNew, if_pos hy]
  · rw [appendNew, if_neg hy]
    exact h.append (List.nodup_singleton y) (List.disjoint_singleton.2 hy)

lemma mem_appendNew {x y : α} : x ∈ appendNew xs y ↔ x ∈ xs ∨ x = y := by
  by_cases hy : y ∈ xs
  · rw [appendNew, if_pos hy]
    exact (or_iff_left_of_imp fun h => h ▸ hy).symm
  · rw [appendNew, if_neg hy, List.mem_append, List.mem_singleton]

lemma nodup_foldl_appendNew (h : xs.Nodup) (ys : List α) : (ys.foldl appendNew xs).Nodup := by
  induction ys generalizing xs with
  | nil => exact h
  | cons y ys ih => exact ih (nodup_appendNew h y)

lemma foldl_appendNew (h : ys.Nodup) : ys.foldl appendNew xs = appendAll xs ys := by
  induction ys generalizing xs with
  | nil => simp [appendAll]
  | cons y ys ih =>
    obtain ⟨hy, hys⟩ := List.nodup_cons.1 h
    rw [List.foldl_cons, ih hys]
    by_cases hmem : y ∈ xs
    · simp [appendAll, appendNew, hmem]
    · have hkept : ys.filter (fun z => z ∉ xs ++ [y]) = ys.filter fun z => z ∉ xs := by
        apply List.filter_congr
        intro z hz
        have hne : z ≠ y := fun heq => hy (heq ▸ hz)
        simp [hne]
      rw [appendNew, if_neg hmem, appendAll, hkept]
      simp [appendAll, hmem]

lemma nodup_appendAll (hxs : xs.Nodup) (hys : ys.Nodup) : (appendAll xs ys).Nodup := by
  rw [← foldl_appendNew hys]
  exact nodup_foldl_appendNew hxs ys

@[simp] lemma nil_appendAll : appendAll [] ys = ys := by
  simp [appendAll]

@[simp] lemma appendAll_nil : appendAll xs [] = xs := by
  simp [appendAll]

@[simp] lemma appendAll_self : appendAll xs xs = xs := by
  simp [appendAll]

lemma mem_appendAll {x : α} : x ∈ appendAll xs ys ↔ x ∈ xs ∨ x ∈ ys := by
  simp only [appendAll, List.mem_append, List.mem_filter, decide_eq_true_eq]
  tauto

lemma appendAll_assoc : appendAll (appendAll xs ys) zs = appendAll xs (appendAll ys zs) := by
  have hlast : zs.filter (fun z => z ∉ appendAll xs ys) =
      (zs.filter fun z => z ∉ ys).filter fun z => z ∉ xs := by
    rw [List.filter_filter]
    apply List.filter_congr
    intro z _
    simp [mem_appendAll]
  rw [appendAll, hlast]
  simp only [appendAll, List.filter_append, List.append_assoc]

end Lists

inductive Reached : Parameters → Prop
  | empty : Reached empty
  | addIndexes {p : Parameters} (t : Option TableRef) (names : List String) : Reached p → Reached (p.addIndexes t names)
  | addJoinOrder {p : Parameters} (ts : List TableRef) : Reached p → Reached (p.addJoinOrder ts)
  | addRows {p p' : Parameters} {ts : List TableRef} {n : Nat} : Reached p → p.addRows ts n = .ok p' → Reached p'
  | merge {p q : Parameters} : Reached p → Reached q → Reached (p.merge q)

def addRowsInPlace (ts : List TableRef) (n : Nat) : InPlace PlanError Parameters Unit := do
  let set : TableSet := .ofList ts
  if set.isEmpty then throw .emptyJoinKey
  modify fun p => p.setRows set n

structure Normal (p : Parameters) : Prop where
  indexes : ∀ t names, p.indexes.get? t = some names → names.Nodup
  joinOrders : p.joinOrders.Nodup
  orders_ne_nil : [] ∉ p.joinOrders
  rows : ∀ ts n, p.rows.get? ts = some n → ts.isEmpty = false

variable {p q r : Parameters} {t : Option TableRef} {names : List String}

lemma perform_addRows (p : Parameters) (ts : List TableRef) (n : Nat) :
    (addRowsInPlace ts n).perform p = settle p (p.addRows ts n) := by
  rw [addRows, addRowsInPlace]
  dsimp only
  split <;> rfl

lemma get?_addIndexes_self :
    (p.addIndexes t names).indexes.get? t = some (names.foldl appendNew ((p.indexes.get? t).getD [])) :=
  SortedMap.get?_insert_self ..

lemma get?_addIndexes_of_ne {t' : Option TableRef} (h : t' ≠ t) :
    (p.addIndexes t names).indexes.get? t' = p.indexes.get? t' :=
  SortedMap.get?_insert_of_ne _ h _

lemma get?_addIndexes_of_nodup (h : names.Nodup) :
    (p.addIndexes t names).indexes.get? t = (p.indexes.get? t).merge appendAll (some names) := by
  rw [get?_addIndexes_self, foldl_appendNew h]
  cases p.indexes.get? t <;> simp

lemma get?_foldl_addIndexes {es : List (Option TableRef × List String)} (hkeys : (es.map Prod.fst).Nodup)
    (hnames : ∀ e ∈ es, e.2.Nodup) (t : Option TableRef) :
    (es.foldl (fun acc e => acc.addIndexes e.1 e.2) p).indexes.get? t =
      (p.indexes.get? t).merge appendAll (Entries.get? t es) := by
  induction es generalizing p with
  | nil => exact Option.merge_none_right.symm
  | cons e es ih =>
    obtain ⟨he, hes⟩ := List.nodup_cons.1 hkeys
    obtain ⟨hown, hrest⟩ := List.forall_mem_cons.1 hnames
    rw [List.foldl_cons, ih hes hrest]
    by_cases ht : t = e.1
    · subst ht
      rw [Entries.get?_eq_none he, Entries.get?_cons_self, get?_addIndexes_of_nodup hown, Option.merge_none_right]
    · rw [get?_addIndexes_of_ne ht, Entries.get?_cons_of_ne ht]

lemma rest_foldl_addIndexes (es : List (Option TableRef × List String)) :
    (es.foldl (fun acc e => acc.addIndexes e.1 e.2) p).joinOrders = p.joinOrders ∧
      (es.foldl (fun acc e => acc.addIndexes e.1 e.2) p).rows = p.rows := by
  induction es generalizing p with
  | nil => exact ⟨rfl, rfl⟩
  | cons e es ih => exact ih (p := p.addIndexes e.1 e.2)

lemma addJoinOrder_of_ne_nil {ts : List TableRef} (h : ts ≠ []) :
    p.addJoinOrder ts = { p with joinOrders := appendNew p.joinOrders ts } := by
  rw [addJoinOrder, if_neg]
  rwa [List.isEmpty_iff]

lemma foldl_addJoinOrder {orders : List (List TableRef)} (h : [] ∉ orders) :
    orders.foldl addJoinOrder p = { p with joinOrders := orders.foldl appendNew p.joinOrders } := by
  induction orders generalizing p with
  | nil => rfl
  | cons ts orders ih =>
    rw [List.mem_cons, not_or] at h
    rw [List.foldl_cons, addJoinOrder_of_ne_nil (Ne.symm h.1), ih h.2]
    rfl

section Merge

variable (p) (hq : q.Normal)
include hq

lemma merge_of_normal :
    p.merge q =
      { indexes := (q.indexes.entries.foldl (fun acc e => acc.addIndexes e.1 e.2) p).indexes
        joinOrders := appendAll p.joinOrders q.joinOrders
        rows := p.rows.union q.rows } := by
  obtain ⟨horders, hrows⟩ := rest_foldl_addIndexes (p := p) q.indexes.entries
  rw [merge, foldl_addJoinOrder hq.orders_ne_nil, foldl_appendNew hq.joinOrders]
  dsimp only
  rw [horders, hrows]

lemma indexes_merge (t : Option TableRef) :
    (p.merge q).indexes.get? t = (p.indexes.get? t).merge appendAll (q.indexes.get? t) := by
  rw [merge_of_normal p hq]
  apply get?_foldl_addIndexes (List.Pairwise.nodup q.indexes.increasing)
  rintro ⟨t', names⟩ hmem
  exact hq.indexes t' names (SortedMap.mem_entries_iff.1 hmem)

lemma joinOrders_merge : (p.merge q).joinOrders = appendAll p.joinOrders q.joinOrders := by
  rw [merge_of_normal p hq]

lemma rows_merge : (p.merge q).rows = p.rows.union q.rows := by
  rw [merge_of_normal p hq]

lemma mem_keys_merge (t : Option TableRef) :
    t ∈ (p.merge q).indexes.keys ↔ t ∈ p.indexes.keys ∨ t ∈ q.indexes.keys := by
  simp only [SortedMap.mem_keys_iff, indexes_merge p hq, Option.isSome_merge, Bool.or_eq_true]

end Merge

lemma normal_empty : empty.Normal := ⟨nofun, List.nodup_nil, nofun, nofun⟩

lemma Normal.addIndexes (h : p.Normal) (t : Option TableRef) (names : List String) : (p.addIndexes t names).Normal := by
  refine ⟨SortedMap.forall_insert h.indexes ?_, h.joinOrders, h.orders_ne_nil, h.rows⟩
  apply nodup_foldl_appendNew
  cases hold : p.indexes.get? t with
  | none => exact List.nodup_nil
  | some old => exact h.indexes t old hold

lemma Normal.addJoinOrder (h : p.Normal) (ts : List TableRef) : (p.addJoinOrder ts).Normal := by
  by_cases hts : ts = []
  · subst hts
    exact h
  · rw [addJoinOrder_of_ne_nil hts]
    refine ⟨h.indexes, nodup_appendNew h.joinOrders ts, ?_, h.rows⟩
    rw [mem_appendNew, not_or]
    exact ⟨h.orders_ne_nil, Ne.symm hts⟩

lemma Normal.addRows {p' : Parameters} {ts : List TableRef} {n : Nat} (h : p.Normal) (hadd : p.addRows ts n = .ok p') :
    p'.Normal := by
  rw [Parameters.addRows] at hadd
  split at hadd
  · cases hadd
  · next hts =>
    obtain rfl := Except.ok.inj hadd
    exact ⟨h.indexes, h.joinOrders, h.orders_ne_nil, SortedMap.forall_insert h.rows (Bool.eq_false_iff.2 hts)⟩

lemma Normal.merge (hp : p.Normal) (hq : q.Normal) : (p.merge q).Normal := by
  refine ⟨fun t names ht => ?_, ?_, ?_, ?_⟩
  · rw [indexes_merge p hq] at ht
    cases hold : p.indexes.get? t with
    | none =>
      rw [hold, Option.merge_none_left] at ht
      exact hq.indexes t names ht
    | some old =>
      cases hnew : q.indexes.get? t with
      | none =>
        rw [hold, hnew] at ht
        obtain rfl := Option.some.inj ht
        exact hp.indexes t old hold
      | some new =>
        rw [hold, hnew] at ht
        obtain rfl := Option.some.inj ht
        exact nodup_appendAll (hp.indexes t old hold) (hq.indexes t new hnew)
  · rw [joinOrders_merge p hq]
    exact nodup_appendAll hp.joinOrders hq.joinOrders
  · rw [joinOrders_merge p hq, mem_appendAll, not_or]
    exact ⟨hp.orders_ne_nil, hq.orders_ne_nil⟩
  · rw [rows_merge p hq]
    exact SortedMap.forall_union hp.rows hq.rows

theorem Reached.normal (h : p.Reached) : p.Normal := by
  induction h with
  | empty => exact normal_empty
  | addIndexes t names _ ih => exact ih.addIndexes t names
  | addJoinOrder ts _ ih => exact ih.addJoinOrder ts
  | addRows _ hadd ih => exact ih.addRows hadd
  | merge _ _ ihp ihq => exact ihp.merge ihq

lemma ext_of_get? (hindexes : ∀ t, p.indexes.get? t = q.indexes.get? t) (horders : p.joinOrders = q.joinOrders)
    (hrows : p.rows = q.rows) : p = q := by
  obtain ⟨indexes, orders, rows⟩ := p
  obtain ⟨indexes', orders', rows'⟩ := q
  obtain rfl : indexes = indexes' := SortedMap.ext hindexes
  obtain rfl : orders = orders' := horders
  obtain rfl : rows = rows' := hrows
  rfl

lemma Normal.merge_assoc (hq : q.Normal) (hr : r.Normal) : (p.merge q).merge r = p.merge (q.merge r) := by
  have hqr := hq.merge hr
  apply ext_of_get?
  · intro t
    rw [indexes_merge _ hr, indexes_merge p hq, indexes_merge p hqr, indexes_merge q hr]
    cases p.indexes.get? t <;> cases q.indexes.get? t <;> cases r.indexes.get? t <;> simp [appendAll_assoc]
  · rw [joinOrders_merge _ hr, joinOrders_merge p hq, joinOrders_merge p hqr, joinOrders_merge q hr, appendAll_assoc]
  · rw [rows_merge _ hr, rows_merge p hq, rows_merge p hqr, rows_merge q hr, SortedMap.union_assoc]

lemma Normal.merge_self (h : p.Normal) : p.merge p = p := by
  apply ext_of_get?
  · intro t
    rw [indexes_merge p h]
    cases p.indexes.get? t <;> simp
  · rw [joinOrders_merge p h, appendAll_self]
  · rw [rows_merge p h, SortedMap.union_self]

lemma Normal.empty_merge (h : p.Normal) : empty.merge p = p := by
  apply ext_of_get?
  · intro t
    rw [indexes_merge empty h]
    exact Option.merge_none_left
  · rw [joinOrders_merge empty h]
    exact nil_appendAll
  · rw [rows_merge empty h]
    exact SortedMap.empty_union

lemma merge_empty (p : Parameters) : p.merge empty = p := rfl

/-- Parameters that are made by the public operations repeat no index and no join order, and hold no empty join order and
no row count of no tables. A row count that is refused leaves them as they are. Merging adds to the lists of the first
what the second has besides, loses no table that has a list, and prefers the row counts of the second. -/
theorem operations_keep_normal :
    (∀ p : Parameters, p.Reached → p.Normal) ∧
      (∀ (p : Parameters) ts n, (addRowsInPlace ts n).perform p = settle p (p.addRows ts n)) ∧
      (∀ p q r : Parameters, q.Reached → r.Reached → (p.merge q).merge r = p.merge (q.merge r)) ∧
      (∀ p : Parameters, p.Reached → p.merge p = p ∧ empty.merge p = p ∧ p.merge empty = p) ∧
      ∀ p q : Parameters, q.Reached →
        (∀ t, (p.merge q).indexes.get? t = (p.indexes.get? t).merge appendAll (q.indexes.get? t)) ∧
          (∀ t, t ∈ (p.merge q).indexes.keys ↔ t ∈ p.indexes.keys ∨ t ∈ q.indexes.keys) ∧
          (p.merge q).joinOrders = appendAll p.joinOrders q.joinOrders ∧
          ∀ ts, (p.merge q).rows.get? ts = (q.rows.get? ts).or (p.rows.get? ts) := by
  refine ⟨fun p hp => hp.normal, perform_addRows, fun p q r hq hr => hq.normal.merge_assoc hr.normal,
    fun p hp => ⟨hp.normal.merge_self, hp.normal.empty_merge, merge_empty p⟩, fun p q hq => ?_⟩
  have hnormal := hq.normal
  refine ⟨indexes_merge p hnormal, mem_keys_merge p hnormal, joinOrders_merge p hnormal, fun ts => ?_⟩
  rw [rows_merge p hnormal, SortedMap.get?_union]

theorem operations_keep_normal_merged :
    let r := TableRef.mk "r" none none
    let s := TableRef.mk "s" none none
    let rs : TableSet := .ofList [r, s]
    let p : Parameters :=
      { indexes := .ofList [(some r, ["r_pkey", "r_a_idx"]), (some s, [])], rows := .ofList [(rs, 10)] }
    let q : Parameters :=
      { indexes := .ofList [(some r, ["r_b_idx", "r_pkey"])], joinOrders := [[s, r]], rows := .ofList [(rs, 99)] }
    p.Reached ∧ q.Reached ∧ (p.merge q).Normal ∧
      (addRowsInPlace [] 5).perform p = (.error .emptyJoinKey, p) ∧
      (p.merge q).indexes.get? (some r) = some ["r_pkey", "r_a_idx", "r_b_idx"] ∧ some s ∈ (p.merge q).indexes.keys ∧
      (p.merge q).joinOrders = [[s, r]] ∧ (p.merge q).rows.get? rs = some 99 ∧
      (p.merge q).merge q = p.merge (q.merge q) ∧ q.merge q = q := by
  intro r s rs p q
  have hp : p.Reached := .addRows
    (.addIndexes (some s) [] (.addIndexes (some r) ["r_pkey", "r_a_idx", "r_pkey"] .empty))
    (show Parameters.addRows _ [s, r] 10 = .ok p by decide +kernel)
  have hq : q.Reached := .addRows (.addJoinOrder [s, r] (.addIndexes (some r) ["r_b_idx", "r_pkey"] .empty))
    (show Parameters.addRows _ [r, s] 99 = .ok q by decide +kernel)
  obtain ⟨hnormal, hheld, hassoc, hself, hmerge⟩ := operations_keep_normal
  obtain ⟨hindexes, hkeys, horders, hrows⟩ := hmerge p q hq
  refine ⟨hp, hq, hnormal _ (.merge hp hq), (hheld p [] 5).trans rfl, (hindexes (some r)).trans ?_,
    (hkeys (some s)).2 (.inl ?_), horders, (hrows rs).trans ?_, hassoc p q q hq hq, (hself q hq).1⟩
  all_goals decide +kernel

end Parameters

end OptimizerHints
