/-! A value as a text document holds it, whatever the notation it was written in. -/

namespace OptimizerHints

/-- A document's value. Fields keep their order and their repetitions. `flawed` stands where the notation is
well formed but denotes nothing: half a surrogate pair, a number out of range, nesting beyond the limit. -/
inductive Document where
  | null
  | flag (value : Bool)
  | whole (value : Int)
  | real (value : Float)
  | text (value : String)
  | list (items : List Document)
  | record (fields : List (Document × Document))
  | flawed
  deriving Inhabited

namespace Document

mutual

def isSound : Document → Bool
  | flawed => false
  | list items => allSound items
  | record fields => fieldsSound fields
  | _ => true

def allSound : List Document → Bool
  | [] => true
  | d :: ds => d.isSound && allSound ds

def fieldsSound : List (Document × Document) → Bool
  | [] => true
  | (k, d) :: fs => k.isSound && d.isSound && fieldsSound fs

end

def asText? : Document → Option String
  | text s => some s
  | _ => none

def asList? : Document → Option (List Document)
  | list items => some items
  | _ => none

def asFlag? : Document → Option Bool
  | flag b => some b
  | _ => none

def asCount? : Document → Option Nat
  | whole n => if 0 ≤ n then some n.toNat else none
  | _ => none

def asReal? : Document → Option Float
  | whole n => some (Float.ofInt n)
  | real x => some x
  | _ => none

def isRecord : Document → Bool
  | record _ => true
  | _ => false

def field? (d : Document) (name : String) : Option Document :=
  match d with
  | record fields => (fields.reverse.find? fun f => f.1.asText? == some name).map Prod.snd
  | _ => none

def ofFields (fields : List (String × Document)) : Document := record (fields.map fun f => (text f.1, f.2))

end Document

end OptimizerHints
