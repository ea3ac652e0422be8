import OptimizerHints.Document
import OptimizerHints.Hint.Compilation
import OptimizerHints.JoinTree.Loading
import OptimizerHints.Synopsis

/-! Choosing operators by a synopsis that learns from the plans of a database. -/

namespace OptimizerHints

inductive PlanRequest where
  | estimate (query : Query)
  | analyze (query : Query)
  deriving DecidableEq

inductive SelectionError where
  | config (error : ConfigError)
  | synopsis (error : SynopsisError)
  | notAnalyzed
  | backend (text : String)
  | plan (error : PlanError)
  | hint (error : HintError)
  deriving DecidableEq

def SelectionError.message : SelectionError → String
  | config error => "invalid synopsis configuration: " ++ error.message
  | synopsis error => error.message
  | notAnalyzed => "feedback requires an ANALYZE plan, got an estimated plan"
  | backend text => "database backend error: " ++ text
  | plan error => error.message
  | hint error => error.message

abbrev HintProvider := Hint.Request → Query → Except HintError Query

/-- A database, whose answers may depend on all that was asked before, and what it was asked so far. It may bring a
hint provider of its own. -/
structure Backend where
  dialect : Dialect
  provider : HintProvider := Hint.compile dialect
  answer : List PlanRequest → PlanRequest → Except String Plan
  asked : List PlanRequest := []

def Backend.ask (b : Backend) (r : PlanRequest) : Except SelectionError Plan × Backend :=
  ((b.answer b.asked r).mapError .backend, { b with asked := b.asked ++ [r] })

structure Selection where
  synopsis : Synopsis
  backend : Backend

namespace Selection

def create (config : SynopsisConfig) (backend : Backend) : Except SelectionError Selection := do
  return ⟨← (Synopsis.create config).mapError .config, backend⟩

def withPlan {α : Type} (s : Selection) (r : PlanRequest)
    (next : Selection → Plan → Except SelectionError α × Selection) : Except SelectionError α × Selection :=
  let (reply, backend) := s.backend.ask r
  let s := { s with backend }
  match reply with
  | .ok p => next s p
  | .error e => (.error e, s)

def learn (s : Selection) (q : Query) (p : Plan) : Except SelectionError Unit × Selection :=
  let (r, synopsis) := s.synopsis.integrate q p
  (r.mapError .synopsis, { s with synopsis })

def integrate (s : Selection) (q : Query) (p : Option Plan) : Except SelectionError Unit × Selection :=
  match p with
  | some p => s.learn q p
  | none => s.withPlan (.estimate q) fun s p => s.learn q p

def forcedQuery (provider : HintProvider) (q : Query) (executed : Plan) : Except SelectionError Query := do
  if !executed.isAnalyzed then throw .notAnalyzed
  let tree ← (JoinTree.ofPlan executed).mapError .plan
  let operators ← tree.operators.mapError .plan
  (provider { tree := some tree, operators := some operators } { q with explain := none }).mapError .hint

def incorporate (s : Selection) (q : Query) (executed : Plan) : Except SelectionError Unit × Selection :=
  match forcedQuery s.backend.provider q executed with
  | .ok forced => s.withPlan (.estimate forced) fun s p => s.learn q p
  | .error e => (.error e, s)

def simulate (s : Selection) (q : Query) : Except SelectionError Unit × Selection :=
  s.withPlan (.analyze q) fun s p => s.incorporate q p

def select (s : Selection) (q : Query) (t : Option JoinTree) : Except SelectionError Assignment × Selection :=
  match t.filter fun t => !t.isEmpty with
  | some t => ((s.synopsis.recommend q t).mapError .plan, s)
  | none => s.withPlan (.estimate q) fun s p =>
    (((JoinTree.ofPlan p).bind fun t => s.synopsis.recommend q t.logical).mapError .plan, s)

def describe (s : Selection) : Document :=
  .ofFields [("name", .text "tonic"), ("filter_aware", .flag s.synopsis.config.filterAware),
    ("gamma", .real s.synopsis.config.gamma)]

end Selection

end OptimizerHints
