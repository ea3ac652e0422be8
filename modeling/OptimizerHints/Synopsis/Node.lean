import OptimizerHints.Query
import OptimizerHints.Synopsis.Feedback
import OptimizerHints.Synopsis.Ledger
import OptimizerHints.Synopsis.Visit

/-! The tree of joins that a synopsis has seen, each join reached by the outer inputs of the joins before it. -/

namespace OptimizerHints

open Std

structure Identifier where
  tables : TableSet
  filter : Option Filter := none
  deriving DecidableEq

namespace Identifier

instance : Ord Identifier := ⟨compareLex (compareOn tables) (compareOn filter)⟩

instance : TransOrd Identifier := inferInstanceAs (TransCmp (compareLex (compareOn tables) (compareOn filter)))

instance : LawfulEqOrd Identifier where
  eq_of_compare {a b} h := by
    simp only [compare, compareLex, Ordering.then_eq_eq] at h
    have ht := LawfulEqOrd.eq_of_compare (α := TableSet) h.1
    have hf := LawfulEqOrd.eq_of_compare (α := Option Filter) h.2
    cases a; cases b; simp_all

def ofTable (t : TableRef) : Identifier := ⟨.singleton t, none⟩

def table? (i : Identifier) : Option TableRef := i.tables.only?

def render (i : Identifier) : String :=
  (match i.table? with
    | some t => t.identifier
    | none => "#" ++ i.tables.joinIdentifiers "#") ++ i.filter.elim "" fun f => "[" ++ f.text ++ "]"

end Identifier

abbrev View := TableRef → Option Filter

def View.ofQuery (filterAware : Bool) (q : Query) : View := fun t => if filterAware then q.filterFor? t else none

def View.identifier (view : View) (t : TableRef) : Identifier := ⟨.singleton t, view t⟩

def Visit.identifier {α : Type} (view : View) : Visit α → Identifier
  | overTable t _ => view.identifier t
  | overJoin ts _ _ => ⟨ts, none⟩

/-- A node holds the costs of the join that leads to it, the joins that can follow, and the joins inside the
outer input of the join that leads to it. -/
structure Node (α : Type) where
  costs : Ledger α := []
  children : List (Identifier × Node α) := []
  inside : Option (Node α) := none

inductive Step where
  | child (id : Identifier)
  | inside
  deriving DecidableEq

namespace Node

variable {α : Type}

def empty : Node α := {}

def isEmpty (n : Node α) : Bool := n.costs.isEmpty && n.children.isEmpty

def child? (n : Node α) (id : Identifier) : Option (Node α) := Entries.get? id n.children

def at? : List Step → Node α → Option (Node α)
  | [], n => some n
  | .child id :: path, n => (n.child? id).bind (at? path)
  | .inside :: path, n => n.inside.bind (at? path)

def modifyChild (id : Identifier) (f : Node α → Node α) (n : Node α) : Node α :=
  { n with children := Entries.put id (f ((n.child? id).getD empty)) n.children }

def modifyInside (f : Node α → Node α) (n : Node α) : Node α :=
  { n with inside := some (f (n.inside.getD empty)) }

def modifyAt : List Step → (Node α → Node α) → Node α → Node α
  | [], f => f
  | .child id :: path, f => modifyChild id (modifyAt path f)
  | .inside :: path, f => modifyInside (modifyAt path f)

def atChild {ρ : Type} (id : Identifier) (f : Node α → ρ × Node α) (n : Node α) : ρ × Node α :=
  let (r, c) := f ((n.child? id).getD empty)
  (r, { n with children := Entries.put id c n.children })

def atInside {ρ : Type} (f : Node α → ρ × Node α) (n : Node α) : ρ × Node α :=
  let (r, m) := f (n.inside.getD empty)
  (r, { n with inside := some m })

def observe [Add α] [Mul α] (gamma : α) (op : JoinOperator) (cost : α) (n : Node α) : Node α :=
  { n with costs := n.costs.observe gamma op cost }

/-- Notes the costs of joins, each below the one before it, and those of the joins inside an outer input first.
A join that is not fit ends the walk, and what was noted until then stays. -/
def recordJoins (gamma : Float) (view : View) : List Plan → Node Float → Except SynopsisError Unit × Node Float
  | [], n => (.ok (), n)
  | j :: js, n =>
    match _h : j.joinInput with
    | .error e => (.error e, n)
    | .ok (op, input) =>
      match input.scanTable? with
      | some t =>
        n.atChild (view.identifier t) fun c => recordJoins gamma view js (c.observe gamma op j.cost)
      | none =>
        n.atChild ⟨input.tables, none⟩ fun c =>
          let c := c.observe gamma op j.cost
          match _hs : input.joinSequence with
          | .error e => (.error (.plan e), c)
          | .ok inside =>
            match c.atInside fun m => recordJoins gamma view inside m with
            | (.ok (), c) => recordJoins gamma view js c
            | (.error e, c) => (.error e, c)
  termination_by js => Plan.weight js
  decreasing_by
  · exact Plan.weight_lt_weight_cons ..
  · exact Plan.weight_inside_lt (by assumption) (by assumption)
  · exact Plan.weight_lt_weight_cons ..

section

variable {gamma : Float} {view : View} {j input : Plan} {js : List Plan} {op : JoinOperator} {n : Node Float}

theorem recordJoins_nil : recordJoins gamma view [] n = (.ok (), n) := by
  rw [recordJoins]

theorem recordJoins_cons_table {t : TableRef} (h : j.joinInput = .ok (op, input)) (ht : input.scanTable? = some t) :
    recordJoins gamma view (j :: js) n =
      n.atChild (view.identifier t) fun c => recordJoins gamma view js (c.observe gamma op j.cost) := by
  rw [recordJoins]
  split
  · simp_all
  · next he =>
    rw [h] at he
    cases he
    simp only [ht]

theorem recordJoins_cons_join {inside : List Plan} (h : j.joinInput = .ok (op, input)) (ht : input.scanTable? = none)
    (hs : input.joinSequence = .ok inside) :
    recordJoins gamma view (j :: js) n =
      n.atChild ⟨input.tables, none⟩ fun c =>
        match (c.observe gamma op j.cost).atInside fun m => recordJoins gamma view inside m with
        | (.ok (), c) => recordJoins gamma view js c
        | (.error e, c) => (.error e, c) := by
  rw [recordJoins]
  split
  · simp_all
  · next he =>
    rw [h] at he
    cases he
    simp only [ht]
    congr 1
    funext c
    split
    · simp_all
    · next hs' =>
      rw [hs] at hs'
      cases hs'
      rfl

end

def integrate (gamma : Float) (view : View) (js : List Plan) (n : Node Float) :
    Except SynopsisError Unit × Node Float :=
  match Plan.checkJoins js with
  | .ok () => recordJoins gamma view js n
  | .error e => (.error e, n)

end Node

def Assignment.replaceOperator (a : Assignment) (ts : TableSet) (op : JoinOperator) : Except PlanError Assignment :=
  a.setJoin ⟨op, ts, (a.joinFor? ts).bind (·.inner)⟩

structure Interrupted where
  error : PlanError
  made : Assignment

namespace Node

variable {α : Type} [LE α] [DecidableLE α]

def adviseJoin (ts : TableSet) (n : Node α) (a : Assignment) : Except Interrupted Assignment :=
  match n.costs.recommendation? with
  | some op => (a.replaceOperator ts op).mapError fun e => ⟨e, a⟩
  | none => .ok a

mutual

def adviseVisit (view : View) : Visit TableSet → Node α → Assignment → Except Interrupted Assignment
  | .overTable _ ts, n, a => adviseJoin ts n a
  | .overJoin _ ts inside, n, a => do
    let a ← adviseJoin ts n a
    match n.inside with
    | some m => adviseAll view inside m a
    | none => .ok a

def adviseAll (view : View) : List (Visit TableSet) → Node α → Assignment → Except Interrupted Assignment
  | [], _, a => .ok a
  | v :: vs, n, a =>
    match n.child? (v.identifier view) with
    | some c => do adviseAll view vs c (← adviseVisit view v c a)
    | none => .ok a

end

end Node

end OptimizerHints
