import OptimizerHints.Document

/-! The fields of stored values. A value with named fields is a record, or the list of its fields in order. -/

namespace OptimizerHints.Stored

inductive FieldValue (ν : Type) where
  | given (value : ν)
  | missing
  | cut

namespace FieldValue

variable {ν α : Type}

def required (read : ν → Option α) : FieldValue ν → Option α
  | given v => read v
  | missing | cut => none

def orElse (fallback : α) (read : ν → Option α) : FieldValue ν → Option α
  | given v => read v
  | missing | cut => some fallback

def nullableIn (read : ν → Option (Option α)) : FieldValue ν → Option (Option α)
  | given v => read v
  | missing => some none
  | cut => none

end FieldValue

def fieldIndex? (names : List String) : Document → Option (Option Nat)
  | .text s => some (names.findIdx? (· == s))
  | .whole n => if n < 0 then none else some (if n < names.length then some n.toNat else none)
  | _ => none

def fieldAt (names : List String) (fs : List (Document × Document)) (i : Nat) : Option (FieldValue Document) :=
  match fs.filter fun f => fieldIndex? names f.1 == some (some i) with
  | [] => some .missing
  | [f] => some (.given f.2)
  | _ => none

def recordFields (names : List String) (fs : List (Document × Document)) : Option (List (FieldValue Document)) :=
  if fs.all fun f => (fieldIndex? names f.1).isSome then (List.range names.length).mapM (fieldAt names fs) else none

def fields (names : List String) : Document → Option (List (FieldValue Document))
  | .record fs => recordFields names fs
  | .list items =>
    if items.length ≤ names.length then
      some (items.map .given ++ List.replicate (names.length - items.length) .cut)
    else none
  | _ => none

theorem sizeOf_lt_of_fieldAt {names : List String} {fs : List (Document × Document)} {i : Nat} {v : Document}
    (h : fieldAt names fs i = some (.given v)) : sizeOf v < sizeOf (Document.record fs) := by
  unfold fieldAt at h
  split at h
  · simp at h
  · next f hf =>
    obtain rfl : f.2 = v := by simpa using h
    have hm : f ∈ fs := (List.mem_filter.1 (hf ▸ List.mem_singleton_self f)).1
    have := List.sizeOf_lt_of_mem hm
    obtain ⟨k, v⟩ := f
    simp only [Prod.mk.sizeOf_spec, Document.record.sizeOf_spec] at this ⊢
    omega
  · simp at h

theorem exists_of_mem_mapM {α β : Type} {f : α → Option β} {xs : List α} {ys : List β} (h : xs.mapM f = some ys)
    {y : β} (hy : y ∈ ys) : ∃ x ∈ xs, f x = some y := by
  induction xs generalizing ys with
  | nil => simp_all
  | cons x xs ih =>
    simp only [List.mapM_cons, Option.bind_eq_bind, Option.bind_eq_some_iff, Option.pure_def, Option.some.injEq] at h
    obtain ⟨z, hz, zs, hzs, rfl⟩ := h
    rcases List.mem_cons.1 hy with rfl | hy
    · exact ⟨x, List.mem_cons_self, hz⟩
    · obtain ⟨x', hx', hf⟩ := ih hzs hy
      exact ⟨x', List.mem_cons_of_mem _ hx', hf⟩

theorem sizeOf_lt_of_recordFields {names : List String} {fs : List (Document × Document)}
    {gs : List (FieldValue Document)} {v : Document} (h : recordFields names fs = some gs) (hv : .given v ∈ gs) :
    sizeOf v < sizeOf (Document.record fs) := by
  unfold recordFields at h
  split at h
  · obtain ⟨i, _, hi⟩ := exists_of_mem_mapM h hv
    exact sizeOf_lt_of_fieldAt hi
  · contradiction

theorem sizeOf_lt_of_fields {names : List String} {d v : Document} {gs : List (FieldValue Document)}
    (h : fields names d = some gs) (hv : .given v ∈ gs) : sizeOf v < sizeOf d := by
  unfold fields at h
  split at h
  · exact sizeOf_lt_of_recordFields h hv
  · split at h
    · obtain rfl := Option.some.inj h
      rcases List.mem_append.1 hv with hv | hv
      · obtain ⟨w, hw, rfl⟩ : ∃ w, w ∈ _ ∧ w = v := by simpa using hv
        have := List.sizeOf_lt_of_mem hw
        simp only [Document.list.sizeOf_spec]
        omega
      · simp at hv
    · contradiction
  · contradiction

def nullable {α : Type} (read : Document → Option α) : Document → Option (Option α)
  | .null => some none
  | d => (read d).map some

def listOf {α : Type} (read : Document → Option α) (d : Document) : Option (List α) :=
  d.asList?.bind (·.mapM read)

def constant {α : Type} (names : List (String × α)) : Document → Option α
  | .text s | .record [(.text s, .null)] => (names.find? fun e => e.1 == s).map Prod.snd
  | _ => none

/-- A map has a stored form only while it is empty, since keys that are not texts have none. -/
def emptyMap : Document → Option Unit
  | .record [] => some ()
  | _ => none

def optional {α : Type} (form : α → Document) : Option α → Document
  | some a => form a
  | none => .null

def emptyMapForm {κ β : Type} : List (κ × β) → Option Document
  | [] => some (.record [])
  | _ :: _ => none

end OptimizerHints.Stored
