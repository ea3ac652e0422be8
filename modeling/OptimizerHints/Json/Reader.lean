import OptimizerHints.Decimal.Reading
import OptimizerHints.Document

/-! Reading JSON text: the notation is checked strictly, and what is well written but denotes no value is flawed. -/

namespace OptimizerHints.Json

def isSpace (c : Char) : Bool := c = ' ' || c = '\n' || c = '\t' || c = '\r'

def skipSpace (cs : List Char) : List Char := cs.dropWhile isSpace

def hexDigit? (c : Char) : Option Nat :=
  if c.isDigit then some (c.toNat - 48)
  else if 'a' ≤ c ∧ c ≤ 'f' then some (c.toNat - 87)
  else if 'A' ≤ c ∧ c ≤ 'F' then some (c.toNat - 55)
  else none

inductive Piece where
  | char (c : Char)
  | unit (n : Nat)

def simpleEscape? : Char → Option Char
  | '"' => some '"'
  | '\\' => some '\\'
  | '/' => some '/'
  | 'b' => some '\x08'
  | 'f' => some '\x0c'
  | 'n' => some '\n'
  | 'r' => some '\r'
  | 't' => some '\t'
  | _ => none

def takePieces : List Char → Option (List Piece × List Char)
  | '"' :: cs => some ([], cs)
  | '\\' :: 'u' :: a :: b :: c :: d :: cs => do
    let n := 4096 * (← hexDigit? a) + 256 * (← hexDigit? b) + 16 * (← hexDigit? c) + (← hexDigit? d)
    let (ps, rest) ← takePieces cs
    some (.unit n :: ps, rest)
  | '\\' :: c :: cs => do
    let e ← simpleEscape? c
    let (ps, rest) ← takePieces cs
    some (.char e :: ps, rest)
  | c :: cs => do
    if c.toNat < 32 then none
    else
      let (ps, rest) ← takePieces cs
      some (.char c :: ps, rest)
  | [] => none

def joinPieces : List Piece → Option (List Char)
  | [] => some []
  | .char c :: ps => (joinPieces ps).map (c :: ·)
  | .unit h :: ps =>
    if h < 0xD800 ∨ 0xDFFF < h then (joinPieces ps).map (Char.ofNat h :: ·)
    -- half a surrogate pair is no character
    else match ps with
      | .unit l :: ps =>
        if h < 0xDC00 ∧ 0xDC00 ≤ l ∧ l ≤ 0xDFFF then
          (joinPieces ps).map (Char.ofNat (0x10000 + (h - 0xD800) * 0x400 + (l - 0xDC00)) :: ·)
        else none
      | _ => none

def textOf (ps : List Piece) : Document :=
  match joinPieces ps with
  | some cs => .text (String.ofList cs)
  | none => .flawed

def significandBound : Nat := UInt64.size - 1

def countDigits (n : Nat) : List Char → Nat × List Char
  | [] => (n, [])
  | c :: cs =>
    if c.isDigit then
      let m := 10 * n + (c.toNat - 48)
      if m ≤ significandBound then countDigits m cs else (n, c :: cs)
    else (n, c :: cs)

def takeExponent? (cs : List Char) : Option (Option Int × List Char) :=
  match cs with
  | c :: rest =>
    if c = 'e' ∨ c = 'E' then
      let (negative, rest) := Decimal.takeSign rest
      let ds := rest.takeWhile Char.isDigit
      let n : Int := Decimal.natOfDigits ds
      if ds.isEmpty then none else some (some (if negative then -n else n), rest.dropWhile Char.isDigit)
    else some (none, cs)
  | [] => some (none, [])

def realOf (negative : Bool) (significand : Nat) (exponent : Int) : Document :=
  match Decimal.scale? significand exponent with
  | some x => .real (if negative then -x else x)
  | none => .flawed

/-- The value of a number without fraction and exponent: a double where 64 bits do not hold it, and for `-0`. -/
def wholeOf (negative : Bool) (significand : Nat) : Document :=
  if negative then
    if significand = 0 ∨ Nat.pow 2 63 < significand then .real (-(Float.ofNat significand))
    else .whole (-(significand : Int))
  else .whole significand

def takeNumber? (negative : Bool) (cs : List Char) : Option (Document × List Char) := do
  let (significand, rest) ← match cs with
    | '0' :: c :: rest => if c.isDigit then none else some (0, c :: rest)
    | c :: _ => if c.isDigit then some (countDigits 0 cs) else none
    | [] => none
  -- digits that the significand has no room for count as places
  let dropped := rest.takeWhile Char.isDigit
  let rest := rest.dropWhile Char.isDigit
  match rest with
  | '.' :: fraction =>
    let digits := fraction.takeWhile Char.isDigit
    if digits.isEmpty then none
    else
      let (significand, uncounted) := countDigits significand digits
      let places : Int := (dropped.length : Int) - (digits.length - uncounted.length : Nat)
      let (e, rest) ← takeExponent? (fraction.dropWhile Char.isDigit)
      some (realOf negative significand (places + e.getD 0), rest)
  | _ =>
    let (e, rest) ← takeExponent? rest
    if e.isNone && dropped.isEmpty then some (wholeOf negative significand, rest)
    else some (realOf negative significand (dropped.length + e.getD 0), rest)

def dropWord? : List Char → List Char → Option (List Char)
  | [], cs => some cs
  | w :: ws, c :: cs => if w = c then dropWord? ws cs else none
  | _ :: _, [] => none

def depthLimit : Nat := 127

mutual

def takeValue? : Nat → Nat → List Char → Option (Document × List Char)
  | 0, _, _ => none
  | fuel + 1, depth, cs =>
    match skipSpace cs with
    | 'n' :: rest => (dropWord? ['u', 'l', 'l'] rest).map fun r => (.null, r)
    | 't' :: rest => (dropWord? ['r', 'u', 'e'] rest).map fun r => (.flag true, r)
    | 'f' :: rest => (dropWord? ['a', 'l', 's', 'e'] rest).map fun r => (.flag false, r)
    | '"' :: rest => (takePieces rest).map fun (ps, r) => (textOf ps, r)
    | '-' :: rest => takeNumber? true rest
    | '[' :: rest =>
      let found := match skipSpace rest with
        | ']' :: r => some ([], r)
        | _ => takeItems? fuel (depth + 1) rest
      found.map fun (items, r) => (if depth < depthLimit then .list items else .flawed, r)
    | '\x7b' :: rest =>
      let found := match skipSpace rest with
        | '\x7d' :: r => some ([], r)
        | _ => takeFields? fuel (depth + 1) rest
      found.map fun (fields, r) => (if depth < depthLimit then .record fields else .flawed, r)
    | rest => takeNumber? false rest

def takeItems? : Nat → Nat → List Char → Option (List Document × List Char)
  | 0, _, _ => none
  | fuel + 1, depth, cs => do
    let (item, rest) ← takeValue? fuel depth cs
    match skipSpace rest with
    | ']' :: rest => some ([item], rest)
    | ',' :: rest =>
      let (items, rest) ← takeItems? fuel depth rest
      some (item :: items, rest)
    | _ => none

def takeFields? : Nat → Nat → List Char → Option (List (Document × Document) × List Char)
  | 0, _, _ => none
  | fuel + 1, depth, cs =>
    match skipSpace cs with
    | '"' :: rest => do
      let (name, rest) ← takePieces rest
      match skipSpace rest with
      | ':' :: rest =>
        let (value, rest) ← takeValue? fuel depth rest
        match skipSpace rest with
        | '\x7d' :: rest => some ([(textOf name, value)], rest)
        | ',' :: rest =>
          let (fields, rest) ← takeFields? fuel depth rest
          some ((textOf name, value) :: fields, rest)
        | _ => none
      | _ => none
    | _ => none

end

def parse? (s : String) : Option Document := do
  let cs := s.toList
  let (value, rest) ← takeValue? (2 * cs.length + 2) 0 cs
  if (skipSpace rest).isEmpty then some value else none

def read? (s : String) : Option Document := do
  let value ← parse? s
  if value.isSound then some value else none

end OptimizerHints.Json
