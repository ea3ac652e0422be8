import OptimizerHints.Decimal.Format
import OptimizerHints.Document

namespace OptimizerHints.Json

def hexChar (n : Nat) : Char := Char.ofNat (if n < 10 then 48 + n else 87 + n)

def escape (c : Char) : List Char :=
  match c with
  | '"' => ['\\', '"']
  | '\\' => ['\\', '\\']
  | '\n' => ['\\', 'n']
  | '\r' => ['\\', 'r']
  | '\t' => ['\\', 't']
  | '\x08' => ['\\', 'b']
  | '\x0c' => ['\\', 'f']
  | c => if c.toNat < 32 then ['\\', 'u', '0', '0', hexChar (c.toNat / 16), hexChar (c.toNat % 16)] else [c]

def quote (s : String) : String := String.ofList ('"' :: (s.toList.flatMap escape ++ ['"']))

def number (x : Float) : String := if x.isFinite then Decimal.stored.write x else "null"

mutual

def render : Document → String
  | .null | .flawed => "null"
  | .flag true => "true"
  | .flag false => "false"
  | .whole n => toString n
  | .real x => number x
  | .text s => quote s
  | .list items => "[" ++ ",".intercalate (renderAll items) ++ "]"
  | .record fields => "\x7b" ++ ",".intercalate (renderFields fields) ++ "\x7d"

def renderAll : List Document → List String
  | [] => []
  | d :: ds => render d :: renderAll ds

def renderFields : List (Document × Document) → List String
  | [] => []
  | (k, d) :: fs => (render k ++ ":" ++ render d) :: renderFields fs

end

end OptimizerHints.Json
