import OptimizerHints.Config
import OptimizerHints.Synopsis.Report

/-! A synopsis of executed plans: what their joins cost with which operators, and what to recommend from that. -/

namespace OptimizerHints

structure Synopsis where
  config : SynopsisConfig
  root : Node Float := .empty

namespace Synopsis

def create (config : SynopsisConfig) : Except ConfigError Synopsis := do
  config.validate
  return { config }

def integrate (s : Synopsis) (q : Query) (p : Plan) : Except SynopsisError Unit × Synopsis :=
  match p.joinSequence with
  | .error e => (.error (.plan e), s)
  | .ok js =>
    let (r, root) := s.root.integrate s.config.gamma (.ofQuery s.config.filterAware q) js
    (r, { s with root })

def recommend (s : Synopsis) (q : Query) (t : JoinTree) : Except PlanError Assignment := do
  let view := View.ofQuery s.config.filterAware q
  (s.root.adviseAll view t.visits (← t.operators)).mapError Interrupted.error

def inspect (s : Synopsis) : String := s.root.inspect

end Synopsis

end OptimizerHints
