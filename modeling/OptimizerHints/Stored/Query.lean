import OptimizerHints.Query
import OptimizerHints.Stored.Fields

namespace OptimizerHints

open Stored

namespace TableRef

def stored (t : TableRef) : Document :=
  .ofFields [("full_name", .text t.name), ("alias", optional .text t.aliasName), ("schema", optional .text t.schema)]

def ofStored? (d : Document) : Option TableRef := do
  match ← fields ["full_name", "alias", "schema"] d with
  | [name, aliasName, schema] =>
    return ⟨← name.required Document.asText?, ← aliasName.orElse none (nullable Document.asText?),
      ← schema.orElse none (nullable Document.asText?)⟩
  | _ => none

end TableRef

namespace TableSet

def stored (ts : TableSet) : Document := .list (ts.toList.map TableRef.stored)

def ofStored? (d : Document) : Option TableSet := (listOf TableRef.ofStored? d).map .ofList

end TableSet

namespace Column

def stored (c : Column) : Document := .ofFields [("name", .text c.name), ("table", optional TableRef.stored c.table)]

def ofStored? (d : Document) : Option Column := do
  match ← fields ["name", "table"] d with
  | [name, table] =>
    return ⟨← name.required Document.asText?, ← table.orElse none (nullable TableRef.ofStored?)⟩
  | _ => none

end Column

namespace Filter

def stored (f : Filter) : Document :=
  .ofFields [("text", .text f.text), ("columns", .list (f.columns.map Column.stored))]

def ofStored? (d : Document) : Option Filter := do
  match ← fields ["text", "columns"] d with
  | [text, columns] =>
    return ⟨← text.required Document.asText?, ← columns.orElse [] (listOf Column.ofStored?)⟩
  | _ => none

end Filter

namespace HintClause

def stored (c : HintClause) : Document :=
  .ofFields [("preparatory_statements", .text c.preparation), ("query_hints", .text c.hints)]

def ofStored? (d : Document) : Option HintClause := do
  match ← fields ["preparatory_statements", "query_hints"] d with
  | [preparation, hints] =>
    return ⟨← preparation.required Document.asText?, ← hints.required Document.asText?⟩
  | _ => none

end HintClause

namespace Explain

def stored (e : Explain) : Document :=
  .ofFields [("analyze", .flag e.analyze), ("format", optional .text e.format)]

def ofStored? (d : Document) : Option Explain := do
  match ← fields ["analyze", "format"] d with
  | [analyze, format] =>
    return ⟨← analyze.required Document.asFlag?, ← format.orElse none (nullable Document.asText?)⟩
  | _ => none

end Explain

namespace Query

def stored? (q : Query) : Option Document := do
  let filters ← emptyMapForm q.filters.entries
  return .ofFields [("hint", optional HintClause.stored q.hint), ("explain", optional Explain.stored q.explain),
    ("select", .text q.select), ("from", .list (q.sources.map TableRef.stored)),
    ("where_clause", optional .text q.condition), ("tail", optional .text q.tail), ("filters", filters)]

def ofStored? (d : Document) : Option Query := do
  match ← fields ["hint", "explain", "select", "from", "where_clause", "tail", "filters"] d with
  | [hint, explain, select, sources, condition, tail, filters] =>
    let hint ← hint.orElse none (nullable HintClause.ofStored?)
    let explain ← explain.orElse none (nullable Explain.ofStored?)
    let select ← select.required Document.asText?
    let sources ← sources.required (listOf TableRef.ofStored?)
    let condition ← condition.orElse none (nullable Document.asText?)
    let tail ← tail.orElse none (nullable Document.asText?)
    filters.orElse () emptyMap
    return { hint, explain, select, sources, condition, tail }
  | _ => none

end Query

end OptimizerHints
