import OptimizerHints.Json.Reader

/-! The tokens of YAML text: indentation becomes brackets, and a key is marked where its colon shows that it is one.
Anchors, tags, directives and block scalars are not part of plan documents and count as errors. -/

namespace OptimizerHints.Yaml

inductive Token where
  | documentStart
  | documentEnd
  | blockSequenceStart
  | blockMappingStart
  | blockEnd
  | flowSequenceStart
  | flowSequenceEnd
  | flowMappingStart
  | flowMappingEnd
  | blockEntry
  | flowEntry
  | key
  | value
  | scalar (text : String) (plain : Bool)
  deriving DecidableEq, Repr

structure Place where
  index : Nat
  line : Nat
  column : Nat
  deriving DecidableEq, Repr

namespace Place

def next (p : Place) (n : Nat) : Place := ⟨p.index + n, p.line, p.column + n⟩

def newline (p : Place) (n : Nat) : Place := ⟨p.index + n, p.line + 1, 0⟩

end Place

def isAllowed (c : Char) : Bool :=
  let n := c.toNat
  n == 9 || n == 10 || n == 13 || (0x20 ≤ n && n ≤ 0x7E) || n == 0x85 || (0xA0 ≤ n && n ≤ 0xFFFD) ||
    0x10000 ≤ n

def isBreak (c : Char) : Bool := c == '\n' || c == '\r' || c == '\x85' || c == '\u2028' || c == '\u2029'

def isGap (c : Char) : Bool := c == ' ' || c == '\t'

def breakChar (c : Char) : Char := if c == '\u2028' || c == '\u2029' then c else '\n'

def atGap (cs : List Char) : Bool := cs.head?.all fun c => isGap c || isBreak c

def atMarker (p : Place) (cs : List Char) : Bool :=
  p.column == 0 && (['-', '-', '-'].isPrefixOf cs || ['.', '.', '.'].isPrefixOf cs) && atGap (cs.drop 3)

/-- Blanks and line breaks that wait for what follows them in a scalar. Blanks count up to the first break, after
it only breaks do; the first break may have been escaped. -/
structure Gap where
  blanks : List Char := []
  breaks : Option (Option Char × List Char) := none

namespace Gap

def addBlank (g : Gap) (c : Char) : Gap := if g.breaks.isSome then g else { g with blanks := c :: g.blanks }

def addBreak (g : Gap) (c : Char) : Gap :=
  match g.breaks with
  | none => ⟨[], some (some (breakChar c), [])⟩
  | some (first, more) => ⟨[], some (first, breakChar c :: more)⟩

def escaped : Gap := ⟨[], some (none, [])⟩

def join (g : Gap) (read : List Char) : List Char :=
  -- one line break becomes a blank, and of several the first is dropped
  match g.breaks with
  | none => g.blanks ++ read
  | some (some '\n', []) => ' ' :: read
  | some (some '\n', more) => more ++ read
  | some (first, more) => more ++ first.toList ++ read

def isEmpty (g : Gap) : Bool := g.blanks.isEmpty && g.breaks.isNone

end Gap

structure Scanned where
  text : List Char
  beforeBreak : Bool
  place : Place
  rest : List Char

def flowIndicators : List Char := [',', '[', ']', '\x7b', '\x7d']

def scanPlain (inFlow : Bool) (indent : Int) (read : List Char) (gap : Gap) (p : Place) :
    List Char → Option Scanned
  | [] => some ⟨read.reverse, gap.breaks.isSome, p, []⟩
  | '\r' :: '\n' :: cs => scanPlain inFlow indent read (gap.addBreak '\n') (p.newline 2) cs
  | c :: cs =>
    if isBreak c then scanPlain inFlow indent read (gap.addBreak c) (p.newline 1) cs
    else if isGap c then
      if gap.breaks.isSome && c == '\t' && decide ((p.column : Int) < indent) then none
      else scanPlain inFlow indent read (gap.addBlank c) (p.next 1) cs
    else
      let ended := some ⟨read.reverse, gap.breaks.isSome, p, c :: cs⟩
      if !gap.isEmpty && (!inFlow && decide ((p.column : Int) < indent) || atMarker p (c :: cs) || c == '#') then ended
      else if c == ':' && atGap cs then ended
      else if inFlow && flowIndicators.contains c then ended
      else if inFlow && c == ':' && cs.head?.any (fun d => d == '?' || flowIndicators.contains d) then none
      else scanPlain inFlow indent (c :: gap.join read) {} (p.next 1) cs

def escapes : List (Char × Char) :=
  [('0', '\x00'), ('a', '\x07'), ('b', '\x08'), ('t', '\t'), ('\t', '\t'), ('n', '\n'), ('v', '\x0b'), ('f', '\x0c'),
    ('r', '\r'), ('e', '\x1b'), (' ', ' '), ('"', '"'), ('/', '/'), ('\\', '\\'), ('N', '\u0085'), ('_', '\u00a0'),
    ('L', '\u2028'), ('P', '\u2029')]

def hexChar? (ds : List Char) : Option Char := do
  let n ← ds.foldlM (fun n d => do return 16 * n + (← Json.hexDigit? d)) 0
  if n < 0xD800 ∨ (0xDFFF < n ∧ n ≤ 0x10FFFF) then some (Char.ofNat n) else none

def scanSingle (read : List Char) (gap : Gap) (p : Place) : List Char → Option Scanned
  | [] => none
  | '\'' :: '\'' :: cs => scanSingle ('\'' :: gap.join read) {} (p.next 2) cs
  | '\'' :: cs => some ⟨(gap.join read).reverse, false, p.next 1, cs⟩
  | '\r' :: '\n' :: cs => scanSingle read (gap.addBreak '\n') (p.newline 2) cs
  | c :: cs =>
    if atMarker p (c :: cs) then none
    else if isBreak c then scanSingle read (gap.addBreak c) (p.newline 1) cs
    else if isGap c then scanSingle read (gap.addBlank c) (p.next 1) cs
    else scanSingle (c :: gap.join read) {} (p.next 1) cs

def scanDouble (read : List Char) (gap : Gap) (p : Place) : List Char → Option Scanned
  | [] => none
  | '"' :: cs => some ⟨(gap.join read).reverse, false, p.next 1, cs⟩
  | '\\' :: '\r' :: '\n' :: cs => scanDouble (gap.join read) .escaped ((p.next 1).newline 2) cs
  | '\\' :: 'x' :: a :: b :: cs => do
    let c ← hexChar? [a, b]
    scanDouble (c :: gap.join read) {} (p.next 4) cs
  | '\\' :: 'u' :: a :: b :: c :: d :: cs => do
    let c ← hexChar? [a, b, c, d]
    scanDouble (c :: gap.join read) {} (p.next 6) cs
  | '\\' :: 'U' :: a :: b :: c :: d :: e :: f :: g :: h :: cs => do
    let c ← hexChar? [a, b, c, d, e, f, g, h]
    scanDouble (c :: gap.join read) {} (p.next 10) cs
  | '\\' :: c :: cs =>
    if isBreak c then scanDouble (gap.join read) .escaped ((p.next 1).newline 1) cs
    else do
      let e ← escapes.find? fun e => e.1 == c
      scanDouble (e.2 :: gap.join read) {} (p.next 2) cs
  | '\r' :: '\n' :: cs => scanDouble read (gap.addBreak '\n') (p.newline 2) cs
  | c :: cs =>
    if atMarker p (c :: cs) then none
    else if isBreak c then scanDouble read (gap.addBreak c) (p.newline 1) cs
    else if isGap c then scanDouble read (gap.addBlank c) (p.next 1) cs
    else scanDouble (c :: gap.join read) {} (p.next 1) cs

structure PendingKey where
  required : Bool
  position : Nat
  place : Place

/-- What is known at a position of the text. Tokens and indentations stand last first; there is one pending key for
the block and for each pair of brackets around the position. -/
structure Lexer where
  rest : List Char
  place : Place
  tokens : List Token
  keyAllowed : Bool
  pending : Option PendingKey
  outer : List (Option PendingKey)
  indent : Int
  indents : List Int

namespace Lexer

def inFlow (l : Lexer) : Bool := !l.outer.isEmpty

def emit (l : Lexer) (t : Token) : Lexer := { l with tokens := t :: l.tokens }

def emitAt (l : Lexer) (position : Nat) (t : Token) : Lexer :=
  { l with tokens := l.tokens.insertIdx (l.tokens.length - position) t }

def skip (l : Lexer) (n : Nat) : Lexer := { l with rest := l.rest.drop n, place := l.place.next n }

def skipGap (inFlow keyAllowed inComment : Bool) (p : Place) : List Char → Bool × Place × List Char
  | [] => (keyAllowed, p, [])
  | '\r' :: '\n' :: cs => skipGap inFlow (keyAllowed || !inFlow) false (p.newline 2) cs
  | c :: cs =>
    if isBreak c then skipGap inFlow (keyAllowed || !inFlow) false (p.newline 1) cs
    else if inComment || c == ' ' || (c == '\t' && (inFlow || !keyAllowed)) || (c == '\ufeff' && p.column == 0) then
      skipGap inFlow keyAllowed inComment (p.next 1) cs
    else if c == '#' then skipGap inFlow keyAllowed true (p.next 1) cs
    else (keyAllowed, p, c :: cs)

def isStale (l : Lexer) (k : PendingKey) : Bool :=
  decide (k.place.line < l.place.line) || decide (k.place.index + 1024 < l.place.index)

def dropStale (l : Lexer) : Option PendingKey → Option (Option PendingKey)
  | none => some none
  | some k => if l.isStale k then (if k.required then none else some none) else some (some k)

def dropStaleKeys (l : Lexer) : Option Lexer := do
  return { l with pending := ← l.dropStale l.pending, outer := ← l.outer.mapM l.dropStale }

def dropKey (l : Lexer) : Option Lexer :=
  if l.pending.any PendingKey.required then none else some { l with pending := none }

def expectKey (l : Lexer) : Option Lexer :=
  if l.keyAllowed then do
    let l ← l.dropKey
    return { l with pending := some ⟨!l.inFlow && l.indent == l.place.column, l.tokens.length, l.place⟩ }
  else some l

def closeBlocks (column : Int) (tokens : List Token) : Int → List Int → List Token × Int × List Int
  | indent, [] => (tokens, indent, [])
  | indent, i :: is =>
    if column < indent then closeBlocks column (.blockEnd :: tokens) i is else (tokens, indent, i :: is)

def unroll (l : Lexer) (column : Int) : Lexer :=
  if l.inFlow then l
  else
    let (tokens, indent, indents) := closeBlocks column l.tokens l.indent l.indents
    { l with tokens, indent, indents }

def roll (l : Lexer) (column position : Nat) (t : Token) : Lexer :=
  if l.inFlow || decide ((column : Int) ≤ l.indent) then l
  else { l.emitAt position t with indent := column, indents := l.indent :: l.indents }

def marker (l : Lexer) (t : Token) : Option Lexer := do
  let l ← (l.unroll (-1)).dropKey
  return ({ l with keyAllowed := false }.skip 3).emit t

def openFlow (l : Lexer) (t : Token) : Option Lexer := do
  let l ← l.expectKey
  return ({ l with pending := none, outer := l.pending :: l.outer, keyAllowed := true }.skip 1).emit t

def closeFlow (l : Lexer) (t : Token) : Option Lexer := do
  let l ← l.dropKey
  let l := match l.outer with
    | k :: outer => { l with pending := k, outer }
    | [] => l
  return ({ l with keyAllowed := false }.skip 1).emit t

def flowEntry (l : Lexer) : Option Lexer := do
  let l ← l.dropKey
  return ({ l with keyAllowed := true }.skip 1).emit .flowEntry

def blockEntry (l : Lexer) : Option Lexer := do
  let l ← if l.inFlow then some l
    else if l.keyAllowed then some (l.roll l.place.column l.tokens.length .blockSequenceStart)
    else none
  let l ← l.dropKey
  return ({ l with keyAllowed := true }.skip 1).emit .blockEntry

def explicitKey (l : Lexer) : Option Lexer := do
  let l ← if l.inFlow then some l
    else if l.keyAllowed then some (l.roll l.place.column l.tokens.length .blockMappingStart)
    else none
  let l ← l.dropKey
  return ({ l with keyAllowed := !l.inFlow }.skip 1).emit .key

def value (l : Lexer) : Option Lexer := do
  let l ← match l.pending with
    | some k =>
      let l := (l.emitAt k.position .key).roll k.place.column k.position .blockMappingStart
      some { l with pending := none, keyAllowed := false }
    | none =>
      if l.inFlow then some { l with keyAllowed := false }
      else if l.keyAllowed then
        some { l.roll l.place.column l.tokens.length .blockMappingStart with keyAllowed := true }
      else none
  return (l.skip 1).emit .value

def scalar (l : Lexer) (plain : Bool) (scan : Lexer → Option Scanned) : Option Lexer := do
  let l ← l.expectKey
  let s ← scan l
  let token := Token.scalar (String.ofList s.text) plain
  return { l with rest := s.rest, place := s.place, keyAllowed := s.beforeBreak }.emit token

def indicators : List Char :=
  ['-', '?', ':', ',', '[', ']', '\x7b', '\x7d', '#', '&', '*', '!', '|', '>', '\'', '"', '%', '@', '\x60', '\t']

def startsScalar (l : Lexer) (c : Char) (cs : List Char) : Bool :=
  !indicators.contains c || (c == '-' && !(cs.head?.any isGap)) || (!l.inFlow && (c == '?' || c == ':') && !atGap cs)

def step (l : Lexer) (c : Char) (cs : List Char) : Option Lexer :=
  if l.place.column == 0 && c == '%' then none
  else if atMarker l.place (c :: cs) then l.marker (if c == '-' then .documentStart else .documentEnd)
  else match c with
    | '[' => l.openFlow .flowSequenceStart
    | '\x7b' => l.openFlow .flowMappingStart
    | ']' => l.closeFlow .flowSequenceEnd
    | '\x7d' => l.closeFlow .flowMappingEnd
    | ',' => l.flowEntry
    | '\'' => l.scalar false fun l => scanSingle [] {} (l.place.next 1) cs
    | '"' => l.scalar false fun l => scanDouble [] {} (l.place.next 1) cs
    | _ =>
      if c == '-' && atGap cs then l.blockEntry
      else if c == '?' && (l.inFlow || atGap cs) then l.explicitKey
      else if c == ':' && (l.inFlow || atGap cs) then l.value
      else if l.startsScalar c cs then l.scalar true fun l => scanPlain l.inFlow (l.indent + 1) [] {} l.place l.rest
      else none

def run : Nat → Lexer → Option (List Token)
  | fuel, l => do
    let (keyAllowed, place, rest) := skipGap l.inFlow l.keyAllowed false l.place l.rest
    let l ← { l with keyAllowed, place, rest }.dropStaleKeys
    match rest, fuel with
    | [], _ =>
      let l ← ({ l with place := ⟨place.index, place.line + 1, 0⟩ }.unroll (-1)).dropKey
      return l.tokens.reverse
    | c :: cs, fuel + 1 => run fuel (← (l.unroll place.column).step c cs)
    | _ :: _, 0 => none

end Lexer

def tokens? (s : String) : Option (List Token) :=
  let cs := s.toList
  if cs.all isAllowed then Lexer.run cs.length ⟨cs, ⟨0, 0, 0⟩, [], true, none, [], -1, []⟩ else none

end OptimizerHints.Yaml
