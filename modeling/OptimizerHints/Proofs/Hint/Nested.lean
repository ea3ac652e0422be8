import Mathlib.Tactic.Common
import OptimizerHints.Hint.DirectedOrder

/-! The nested text of a join order can be read in one way only, if its names hold no blank and no parenthesis. -/

namespace OptimizerHints

def namesIn (text : String) : List String :=
  ((text.toList.filter fun c => c ∉ ['(', ')']).splitOn ' ').map String.ofList

def TableRef.Unbroken (t : TableRef) : Prop := ∀ c ∈ t.identifier.toList, c ∉ [' ', '(', ')']

-- named, as a search may find the one that goes through all characters
instance : DecidablePred TableRef.Unbroken := fun t => List.decidableBAll (fun c => c ∉ [' ', '(', ')']) t.identifier.toList

namespace DirectedOrder

def Unbroken (o : DirectedOrder) : Prop := ∀ t ∈ o.leaves, t.Unbroken

instance : DecidablePred Unbroken := fun o => List.decidableBAll TableRef.Unbroken o.leaves

inductive Alike : DirectedOrder → DirectedOrder → Prop
  | leaf {t t' : TableRef} : t.identifier = t'.identifier → Alike (leaf t) (leaf t')
  | join {outer outer' inner inner' : DirectedOrder} :
    Alike outer outer' → Alike inner inner' → Alike (join outer inner) (join outer' inner')

def IsTail (rest : List Char) : Prop := ∀ c ∈ rest.head?, c ∈ [' ', ')']

variable {o o' outer inner : DirectedOrder} {t : TableRef} {rest rest' : List Char}

lemma unbroken_join : (join outer inner).Unbroken ↔ outer.Unbroken ∧ inner.Unbroken := by
  simp only [Unbroken, leaves, List.forall_mem_append]

lemma toList_nested_join (outer inner : DirectedOrder) :
    ((join outer inner).nested " ").toList =
      '(' :: ((outer.nested " ").toList ++ ' ' :: ((inner.nested " ").toList ++ [')'])) := by
  simp [nested, String.toList_append]

lemma takeWhile_identifier (ht : t.Unbroken) (hrest : IsTail rest) :
    (t.identifier.toList ++ rest).takeWhile (fun c => c ∉ [' ', '(', ')']) = t.identifier.toList := by
  have hstop : rest.takeWhile (fun c => c ∉ [' ', '(', ')']) = [] := by
    cases rest with
    | nil => rfl
    | cons c rest =>
      have hc : c = ' ' ∨ c = ')' := by simpa using hrest c rfl
      rcases hc with rfl | rfl <;> rfl
  rw [List.takeWhile_append_of_pos fun c hc => decide_eq_true (ht c hc), hstop, List.append_nil]

lemma identifier_ne_join (ht : t.Unbroken) (hrest : IsTail rest) : t.identifier.toList ++ rest ≠ '(' :: rest' := by
  intro h
  cases hname : t.identifier.toList with
  | nil =>
    rw [hname, List.nil_append] at h
    have hopen := hrest '(' (by rw [h]; rfl)
    simp at hopen
  | cons c cs =>
    rw [hname, List.cons_append] at h
    obtain ⟨rfl, -⟩ := List.cons.inj h
    have hopen := ht '(' (by rw [hname]; exact List.mem_cons_self)
    simp at hopen

theorem alike_of_nested_append (ho : o.Unbroken) (ho' : o'.Unbroken) (hrest : IsTail rest) (hrest' : IsTail rest')
    (h : (o.nested " ").toList ++ rest = (o'.nested " ").toList ++ rest') : o.Alike o' ∧ rest = rest' := by
  -- what follows is left open, so that the inputs of a join can be cut off one after the other
  induction o generalizing o' rest rest' with
  | leaf t =>
    have ht : t.Unbroken := ho t (List.mem_singleton_self t)
    cases o' with
    | leaf t' =>
      have ht' : t'.Unbroken := ho' t' (List.mem_singleton_self t')
      rw [nested, nested] at h
      have hname : t.identifier.toList = t'.identifier.toList := by
        rw [← takeWhile_identifier ht hrest, h, takeWhile_identifier ht' hrest']
      rw [hname] at h
      exact ⟨.leaf (String.toList_inj.1 hname), List.append_cancel_left h⟩
    | join outer' inner' =>
      rw [toList_nested_join] at h
      exact absurd h (identifier_ne_join ht hrest)
  | join outer inner iho ihi =>
    cases o' with
    | leaf t' =>
      rw [toList_nested_join] at h
      exact absurd h.symm (identifier_ne_join (ho' t' (List.mem_singleton_self t')) hrest')
    | join outer' inner' =>
      obtain ⟨houter, hinner⟩ := unbroken_join.1 ho
      obtain ⟨houter', hinner'⟩ := unbroken_join.1 ho'
      have hblank : ∀ cs, IsTail (' ' :: cs) := by simp [IsTail]
      have hclose : ∀ cs, IsTail (')' :: cs) := by simp [IsTail]
      rw [toList_nested_join, toList_nested_join] at h
      simp only [List.cons_append, List.append_assoc, List.nil_append, List.cons.injEq, true_and] at h
      obtain ⟨halike, h⟩ := iho houter houter' (hblank _) (hblank _) h
      obtain ⟨halike', h⟩ := ihi hinner hinner' (hclose _) (hclose _) (List.cons.inj h).2
      exact ⟨.join halike halike', (List.cons.inj h).2⟩

lemma Alike.nested_eq (h : o.Alike o') (sep : String) : o.nested sep = o'.nested sep := by
  induction h with
  | leaf h => exact h
  | join _ _ iho ihi => rw [nested, nested, iho, ihi]

lemma namesIn_nested (h : o.Unbroken) : namesIn (o.nested " ") = o.leaves.map TableRef.identifier := by
  rw [namesIn]
  induction o with
  | leaf t =>
    have ht : t.Unbroken := h t (List.mem_singleton_self t)
    have hkept : t.identifier.toList.filter (fun c => c ∉ ['(', ')']) = t.identifier.toList :=
      List.filter_eq_self.2 fun c hc => decide_eq_true fun hmem => ht c hc (List.mem_cons_of_mem _ hmem)
    have hblank : ' ' ∉ t.identifier.toList := fun hmem => ht ' ' hmem List.mem_cons_self
    rw [nested, hkept, List.splitOn_eq_singleton hblank]
    simp [leaves]
  | join outer inner iho ihi =>
    obtain ⟨houter, hinner⟩ := unbroken_join.1 h
    rw [toList_nested_join, leaves, List.map_append, ← iho houter, ← ihi hinner]
    simp [List.filter_append, List.splitOn_append_cons_self]

/-- Two join orders have the same nested text only if they have the same shape and the same names. These names can be
read off the text in their order, and MySQL is told the same list that the nested text tells PostgreSQL. -/
theorem nested_determines_order :
    (∀ o o' : DirectedOrder, o.Unbroken → o'.Unbroken → (o.nested " " = o'.nested " " ↔ o.Alike o')) ∧
      ∀ o : DirectedOrder, o.Unbroken →
        namesIn (o.nested " ") = o.leaves.map TableRef.identifier ∧
          o.hint .postgres = "Leading(" ++ o.nested " " ++ ")" ∧
          o.hint .mysql = "JOIN_ORDER(" ++ ", ".intercalate (namesIn (o.nested " ")) ++ ")" := by
  refine ⟨fun o o' ho ho' => ⟨fun h => ?_, fun h => h.nested_eq " "⟩, fun o ho => ?_⟩
  · have hnil : IsTail [] := nofun
    have happend : (o.nested " ").toList ++ [] = (o'.nested " ").toList ++ [] := by rw [h]
    exact (alike_of_nested_append ho ho' hnil hnil happend).1
  · have hnames := namesIn_nested ho
    rw [hnames]
    exact ⟨rfl, rfl, rfl⟩

theorem nested_determines_order_deep :
    let o := TableRef.mk "orders" (some "o") none
    let s := TableRef.mk "stock" none (some "shop")
    let u := TableRef.mk "users" none none
    let left : DirectedOrder := .join (.join (.leaf o) (.leaf s)) (.leaf u)
    let right : DirectedOrder := .join (.leaf o) (.join (.leaf s) (.leaf u))
    left.Unbroken ∧ right.Unbroken ∧ left.leaves = right.leaves ∧ left.nested " " ≠ right.nested " " ∧
      namesIn (left.nested " ") = ["o", "stock", "users"] ∧ right.hint .mysql = "JOIN_ORDER(o, stock, users)" := by
  intro o s u left right
  have hleft : left.Unbroken := by decide +kernel
  have hright : right.Unbroken := by decide +kernel
  obtain ⟨hsame, hread⟩ := nested_determines_order
  have hne : left.nested " " ≠ right.nested " " := by
    intro h
    have halike : Alike (.join (.join (.leaf o) (.leaf s)) (.leaf u)) (.join (.leaf o) (.join (.leaf s) (.leaf u))) :=
      (hsame left right hleft hright).1 h
    cases halike with
    | join houter _ => cases houter
  obtain ⟨hnames, -, -⟩ := hread left hleft
  obtain ⟨hnames', -, hmysql⟩ := hread right hright
  rw [hnames'] at hmysql
  exact ⟨hleft, hright, rfl, hne, hnames, hmysql⟩

end DirectedOrder

end OptimizerHints
