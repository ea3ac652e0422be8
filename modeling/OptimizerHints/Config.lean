import OptimizerHints.Decimal.Format
import OptimizerHints.Decimal.Reading
import OptimizerHints.Text.Blank

namespace OptimizerHints

inductive ConfigError where
  | gamma (value : Float)
  | text
  deriving DecidableEq

def ConfigError.message : ConfigError → String
  | gamma value => "Invalid configuration: gamma must lie in (0, 1], got " ++ Decimal.display value
  | text => "Invalid configuration"

structure SynopsisConfig where
  gamma : Float := 0.8
  filterAware : Bool := false
  deriving DecidableEq

def SynopsisConfig.validate (c : SynopsisConfig) : Except ConfigError Unit :=
  if c.gamma.isNaN || c.gamma ≤ 0 || c.gamma > 1 then .error (.gamma c.gamma) else .ok ()

structure Config where
  dialect : String := "postgres"
  synopsis : SynopsisConfig := {}
  deriving DecidableEq

namespace Config

def ofEnvironment (dialect gamma filterAware : Option String) : Config where
  dialect :=
    match dialect.map Text.trim with
    | none | some "" => "postgres"
    | some s => Text.lowerAscii s
  synopsis :=
    { gamma := (gamma.bind Decimal.read?).getD 0.8
      filterAware :=
        match filterAware with
        | some "true" => true
        | _ => false }

end Config

end OptimizerHints
