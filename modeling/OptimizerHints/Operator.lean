import OptimizerHints.Text.Blank

namespace OptimizerHints

open Std

inductive ScanOperator where
  | sequential
  | index
  | indexOnly
  | bitmap
  deriving DecidableEq, Repr

inductive JoinOperator where
  | nestedLoop
  | hash
  | sortMerge
  | indexNestedLoop
  | blockNestedLoop
  | indexMerge
  | merge
  | index
  deriving DecidableEq, Repr

inductive Operator where
  | scan (op : ScanOperator)
  | join (op : JoinOperator)
  deriving DecidableEq, Repr

inductive Setting where
  | enabled
  | disabled
  | default
  deriving DecidableEq, Repr

namespace ScanOperator

def name : ScanOperator → String
  | sequential => "SequentialScan"
  | index => "IndexScan"
  | indexOnly => "IndexOnlyScan"
  | bitmap => "BitmapScan"

end ScanOperator

namespace JoinOperator

def name : JoinOperator → String
  | nestedLoop => "NestedLoopJoin"
  | hash => "HashJoin"
  | sortMerge => "SortMergeJoin"
  | indexNestedLoop => "IndexNestedLoopJoin"
  | blockNestedLoop => "BlockNestedLoopJoin"
  | indexMerge => "IndexMergeJoin"
  | merge => "MergeJoin"
  | index => "IndexJoin"

end JoinOperator

namespace Operator

def name : Operator → String
  | scan op => op.name
  | join op => op.name

def asScan? : Operator → Option ScanOperator
  | scan op => some op
  | join _ => none

def asJoin? : Operator → Option JoinOperator
  | scan _ => none
  | join op => some op

def rank : Operator → Nat
  | scan .sequential => 0
  | scan .index => 1
  | scan .indexOnly => 2
  | scan .bitmap => 3
  | join .nestedLoop => 4
  | join .hash => 5
  | join .sortMerge => 6
  | join .indexNestedLoop => 7
  | join .blockNestedLoop => 8
  | join .indexMerge => 9
  | join .merge => 10
  | join .index => 11

theorem rank_inj {a b : Operator} : a.rank = b.rank ↔ a = b := by
  constructor
  · intro h
    rcases a with (_ | _ | _ | _) | (_ | _ | _ | _ | _ | _ | _ | _) <;>
      rcases b with (_ | _ | _ | _) | (_ | _ | _ | _ | _ | _ | _ | _) <;> first | rfl | exact absurd h (by decide)
  · rintro rfl; rfl

instance : Ord Operator := ⟨compareOn rank⟩

instance : TransOrd Operator := inferInstanceAs (TransCmp (compareOn rank))

instance : LawfulEqOrd Operator where
  eq_of_compare h := rank_inj.1 (LawfulEqOrd.eq_of_compare (α := Nat) h)

def ofName? (s : String) : Option Operator :=
  match Text.trim s with
  | "SequentialScan" | "SeqScan" | "Seq Scan" => some (scan .sequential)
  | "IndexScan" | "IdxScan" | "Index Scan" => some (scan .index)
  | "IndexOnlyScan" | "Index Only Scan" => some (scan .indexOnly)
  | "BitmapScan" | "Bitmap Heap Scan" => some (scan .bitmap)
  | "NestedLoopJoin" | "NestLoop" | "Nested Loop" | "NLJ" => some (join .nestedLoop)
  | "HashJoin" | "Hash Join" => some (join .hash)
  | "SortMergeJoin" | "Merge Join" => some (join .sortMerge)
  | "IndexNestedLoopJoin" => some (join .indexNestedLoop)
  | "BlockNestedLoopJoin" | "BNL" => some (join .blockNestedLoop)
  | "IndexMergeJoin" => some (join .indexMerge)
  | "MergeJoin" => some (join .merge)
  | "IndexJoin" => some (join .index)
  | _ => none

end Operator

namespace Setting

def ofWord? (s : String) : Option Setting :=
  match Text.lowerAscii (Text.trim s) with
  | "enabled" | "on" | "true" => some enabled
  | "disabled" | "off" | "false" => some disabled
  | "default" => some default
  | _ => none

end Setting

end OptimizerHints
