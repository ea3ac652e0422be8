import OptimizerHints.Sorted.Map
import OptimizerHints.Table.Set

namespace OptimizerHints

open Std

structure Column where
  name : String
  table : Option TableRef := none
  deriving DecidableEq, Repr

namespace Column

instance : Ord Column := ⟨compareLex (compareOn name) (compareOn table)⟩

instance : TransOrd Column := inferInstanceAs (TransCmp (compareLex (compareOn name) (compareOn table)))

instance : LawfulEqOrd Column where
  eq_of_compare {a b} h := by
    simp only [compare, compareLex, compareOn, Ordering.then_eq_eq] at h
    have hn := LawfulEqOrd.eq_of_compare (α := String) h.1
    have ht := LawfulEqOrd.eq_of_compare (α := Option TableRef) h.2
    cases a; cases b; simp_all

def render (c : Column) : String :=
  match c.table with
  | some t => t.identifier ++ "." ++ c.name
  | none => c.name

end Column

structure Filter where
  text : String
  columns : List Column := []
  deriving DecidableEq, Repr

namespace Filter

instance : Ord Filter := ⟨compareLex (compareOn text) (compareOn columns)⟩

instance : TransOrd Filter := inferInstanceAs (TransCmp (compareLex (compareOn text) (compareOn columns)))

instance : LawfulEqOrd Filter where
  eq_of_compare {a b} h := by
    simp only [compare, compareLex, compareOn, Ordering.then_eq_eq] at h
    have ht := LawfulEqOrd.eq_of_compare (α := String) h.1
    have hc := LawfulEqOrd.eq_of_compare (α := List Column) h.2
    cases a; cases b; simp_all

end Filter

structure HintClause where
  preparation : String
  hints : String
  deriving DecidableEq, Repr

namespace HintClause

def isEmpty (c : HintClause) : Bool := c.preparation.isEmpty && c.hints.isEmpty

def render (c : HintClause) : String :=
  "\n".intercalate ([c.preparation, c.hints].filter fun s => !s.isEmpty)

end HintClause

structure Explain where
  analyze : Bool
  format : Option String := none
  deriving DecidableEq, Repr

def Explain.render (e : Explain) : String :=
  match (if e.analyze then ["ANALYZE"] else []) ++ (e.format.map ("FORMAT " ++ ·)).toList with
  | [] => "EXPLAIN"
  | options => "EXPLAIN (" ++ ", ".intercalate options ++ ")"

structure Query where
  hint : Option HintClause := none
  explain : Option Explain := none
  select : String
  sources : List TableRef
  condition : Option String := none
  tail : Option String := none
  filters : SortedMap TableRef Filter := ∅
  deriving DecidableEq

namespace Query

def withFilter (q : Query) (t : TableRef) (f : Filter) : Query := { q with filters := q.filters.insert t f }

def filterFor? (q : Query) (t : TableRef) : Option Filter := q.filters.get? t

def tables (q : Query) : TableSet := .ofList q.sources

def body (q : Query) : String :=
  "SELECT " ++ q.select ++ " FROM " ++ ", ".intercalate (q.sources.map TableRef.render)
    ++ (q.condition.elim "" (" WHERE " ++ ·)) ++ (q.tail.elim "" (" " ++ ·)) ++ ";"

def renderWith (explain : Explain → String) (q : Query) : String :=
  ((q.hint.filter fun h => !h.isEmpty).elim "" fun h => h.render ++ "\n")
    ++ (q.explain.elim "" fun e => explain e ++ " ") ++ q.body

def render (q : Query) : String := q.renderWith Explain.render

end Query

end OptimizerHints
