import OptimizerHints.Config
import OptimizerHints.Hint.Dialect
import OptimizerHints.Json.Reader
import OptimizerHints.Stored.Query
import OptimizerHints.Synopsis.Node

namespace OptimizerHints

open Stored

def Dialect.ofStored? : Document → Option Dialect := constant ([postgres, mysql].map fun d => (d.name, d))

namespace Identifier

def stored (i : Identifier) : Document :=
  .ofFields [("tables", TableSet.stored i.tables), ("filter", optional Filter.stored i.filter)]

def ofStored? (d : Document) : Option Identifier := do
  match ← fields ["tables", "filter"] d with
  | [tables, filter] =>
    return ⟨← tables.required TableSet.ofStored?, ← filter.nullableIn (nullable Filter.ofStored?)⟩
  | _ => none

end Identifier

namespace SynopsisConfig

def stored (c : SynopsisConfig) : Document :=
  .ofFields [("gamma", .real c.gamma), ("filter_aware", .flag c.filterAware)]

def ofStored? (d : Document) : Option SynopsisConfig := do
  match ← fields ["gamma", "filter_aware"] d with
  | [gamma, filterAware] => return ⟨← gamma.required Document.asReal?, ← filterAware.required Document.asFlag?⟩
  | _ => none

end SynopsisConfig

namespace Config

def stored (c : Config) : Document := .ofFields [("dialect", .text c.dialect), ("tonic", c.synopsis.stored)]

def ofStored? (d : Document) : Option Config := do
  match ← fields ["dialect", "tonic"] d with
  | [dialect, synopsis] =>
    return ⟨← dialect.required Document.asText?, ← synopsis.orElse {} SynopsisConfig.ofStored?⟩
  | _ => none

def ofJson (s : String) : Except ConfigError Config :=
  match (Json.parse? s).bind ofStored? with
  | none => .error .text
  | some c => do
    c.synopsis.validate
    return c

end Config

end OptimizerHints
