import OptimizerHints.Operator
import OptimizerHints.Parameters
import OptimizerHints.Query

namespace OptimizerHints

inductive Dialect where
  | postgres
  | mysql
  deriving DecidableEq, Repr

namespace Dialect

def name : Dialect → String
  | postgres => "postgres"
  | mysql => "mysql"

def normalize (s : String) : String := Text.lowerAscii (Text.trim s)

def ofName? (s : String) : Option Dialect :=
  match normalize s with
  | "postgres" | "postgresql" | "pg" => some postgres
  | "mysql" => some mysql
  | _ => none

def separator : Dialect → String
  | postgres => " "
  | mysql => ", "

def operatorHint? : Dialect → Operator → Option String
  | postgres, .scan .sequential => some "SeqScan"
  | postgres, .scan .index => some "IndexScan"
  | postgres, .scan .indexOnly => some "IndexOnlyScan"
  | postgres, .scan .bitmap => some "BitmapScan"
  | postgres, .join .nestedLoop => some "NestLoop"
  | postgres, .join .hash => some "HashJoin"
  | postgres, .join .sortMerge => some "MergeJoin"
  | mysql, .join .blockNestedLoop => some "BNL"
  | mysql, .join .indexMerge => some "INDEX_MERGE"
  | mysql, .join .index => some "INDEX"
  | mysql, .join .merge => some "MERGE"
  | mysql, .join .hash => some "HASH_JOIN"
  | mysql, .scan .index => some "INDEX_SCAN"
  | _, _ => none

def switch? : Dialect → Operator → Option String
  | postgres, .scan .sequential => some "enable_seqscan"
  | postgres, .scan .index => some "enable_indexscan"
  | postgres, .scan .indexOnly => some "enable_indexonlyscan"
  | postgres, .scan .bitmap => some "enable_bitmapscan"
  | postgres, .join .nestedLoop => some "enable_nestloop"
  | postgres, .join .hash => some "enable_hashjoin"
  | postgres, .join .sortMerge => some "enable_mergejoin"
  | mysql, .join .indexMerge => some "index_merge"
  | mysql, .join .blockNestedLoop => some "block_nested_loop"
  | mysql, .join .hash => some "hash_join"
  | _, _ => none

def settingValue : Dialect → Setting → String
  | postgres, .enabled => "'on'"
  | postgres, .disabled => "'off'"
  | postgres, .default => "DEFAULT"
  | mysql, .enabled => "on"
  | mysql, .disabled => "off"
  | mysql, .default => "default"

def settingStatement? (d : Dialect) (op : Operator) (s : Setting) : Option String :=
  (d.switch? op).map fun switch =>
    match d with
    | postgres => "SET " ++ switch ++ " = " ++ d.settingValue s ++ ";"
    | mysql => "SET optimizer_switch='" ++ switch ++ "=" ++ d.settingValue s ++ "';"

def tableOrder (d : Dialect) (ts : List TableRef) : String :=
  let ids := d.separator.intercalate (ts.map TableRef.identifier)
  match d with
  | postgres => "Leading(" ++ ids ++ ")"
  | mysql => "JOIN_ORDER(" ++ ids ++ ")"

def indexHint? (d : Dialect) (t : Option TableRef) (names : List String) : Option String :=
  let list := d.separator.intercalate names
  match d, t with
  | postgres, some t => some ("IndexScan(" ++ t.identifier ++ " " ++ list ++ ")")
  | postgres, none => none
  | mysql, some t => some ("FORCE_INDEX(" ++ t.identifier ++ " " ++ list ++ ")")
  | mysql, none => some ("FORCE_INDEX(" ++ list ++ ")")

def rowsHint? (d : Dialect) (ts : TableSet) (n : Nat) : Option String :=
  match d with
  | postgres => some ("Rows(" ++ ts.joinIdentifiers " " ++ " #" ++ toString n ++ ")")
  | mysql => none

def supports : Dialect → HintKind → Bool
  | postgres, _ => true
  | mysql, .joinOrder | mysql, .index => true
  | mysql, .joinDirection | mysql, .cardinality => false

def explainText (d : Dialect) (e : Explain) : String :=
  match d, e.format with
  | postgres, _ => e.render
  | mysql, some format => "EXPLAIN FORMAT = " ++ format
  | mysql, none => if e.analyze then "EXPLAIN ANALYZE" else "EXPLAIN"

def format (d : Dialect) (q : Query) : String := q.renderWith d.explainText

end Dialect

end OptimizerHints
