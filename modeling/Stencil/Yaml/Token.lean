/-
# Tokens of a YAML text

Cuts a text into tokens. Where a block collection begins and ends follows from
the columns of its entries. A colon may make a key of what was read before it
on its line, so the places where such a key may have begun are remembered. What
comes before a fault is kept: it may be faulty too, and then counts first.

Key definitions: `Token`, `Scan`, `Token.scan`.
-/
import Stencil.Yaml.Scalar

namespace Stencil
namespace Yaml

inductive Token where
  | documentStart
  | documentEnd
  | sequenceStart
  | mappingStart
  /-- A block collection ends. -/
  | blockEnd
  | openBracket
  | closeBracket
  | openBrace
  | closeBrace
  | comma
  /-- An entry of a block sequence begins. -/
  | entry
  | key
  | value
  /-- A tag with this name. -/
  | tag (name : List Char)
  /-- A name for the node that follows. -/
  | anchor (name : List Char)
  /-- The node of a name stands here. -/
  | alias (name : List Char)
  | scalar (text : List Char) (isPlain : Bool)
deriving DecidableEq

/-- A place where a key may have begun. -/
structure KeyPlace where
  /-- The number of tokens before it. -/
  token : Nat
  /-- Whether nothing but a key can stand here. -/
  isRequired : Bool
  index : Nat
  line : Nat
  column : Nat

/-- The tokens read so far, and what decides about those that follow. -/
structure Scanner where
  cursor : Cursor
  tokens : List Token := []
  /-- For every open block collection the column after which its entries begin. -/
  margins : List Nat := []
  /-- The number of brackets that are open. -/
  brackets : Nat := 0
  allowsKey : Bool := true
  /-- For each number of open brackets the place where a key may have begun. -/
  places : List (Nat × KeyPlace) := []

namespace Scanner

def margin (s : Scanner) : Nat := s.margins.headD 0

def inFlow (s : Scanner) : Bool := s.brackets != 0

/-- Adds a token of `n` characters. -/
def emit (s : Scanner) (t : Token) (n : Nat) : Scanner :=
  { s with tokens := s.tokens ++ [t], cursor := s.cursor.forward n }

/-- Ends the block collections whose entries begin right of a place. -/
def unwind (margin : Nat) (s : Scanner) : Scanner :=
  if s.inFlow then s
  else
    let closed := s.margins.takeWhile (margin < ·)
    { s with
      tokens := s.tokens ++ closed.map fun _ => .blockEnd
      margins := s.margins.drop closed.length }

/-- The place where a key may have begun between the open brackets. -/
def place? (s : Scanner) : Option KeyPlace := s.places.lookup s.brackets

/-- Forgets the place where a key may have begun; `none` if a key had to stand there. -/
def forgetPlace (s : Scanner) : Option Scanner :=
  if (s.place?.map KeyPlace.isRequired).getD false then none
  else some { s with places := s.places.filter fun p => p.1 != s.brackets }

/-- Remembers that a key may begin here. -/
def markPlace (s : Scanner) : Option Scanner :=
  if s.allowsKey then do
    let c := s.cursor
    let isRequired := !s.inFlow && s.margin == c.column + 1
    let s ← s.forgetPlace
    return { s with
      places := (s.brackets, ⟨s.tokens.length, isRequired, c.index, c.line, c.column⟩) :: s.places }
  else some s

/-- Whether a place is too far back for a key that ends here. -/
def isOld (s : Scanner) (p : KeyPlace) : Bool :=
  p.line != s.cursor.line || decide (1024 < s.cursor.index - p.index)

/-- Forgets the places that are too far back; `none` if a key had to stand there. -/
def forgetOld (s : Scanner) : Option Scanner :=
  if s.places.any fun p => s.isOld p.2 && p.2.isRequired then none
  else some { s with places := s.places.filter fun p => !s.isOld p.2 }

/-- Puts tokens in after the first `n`. -/
def insertAt (n : Nat) (new tokens : List Token) : List Token := tokens.take n ++ new ++ tokens.drop n

/-- Opens a block collection for entries at a column, if that is further right. -/
def openBlock (column place : Nat) (t : Token) (s : Scanner) : Scanner :=
  if s.margin ≤ column then
    { s with margins := (column + 1) :: s.margins, tokens := insertAt place [t] s.tokens }
  else s

/-- Goes to the next token, over spaces, comments and line breaks. -/
def skipGap : (fuel : Nat) → Scanner → Scanner
  | 0, s => s
  | fuel + 1, s =>
    let c := s.cursor.skip (· == ' ')
    let c := if c.peek == '#' then c.skip (!isBreak ·) else c
    match c.lineBreak? with
    | some (_, c) => skipGap fuel { s with cursor := c, allowsKey := s.allowsKey || !s.inFlow }
    | none => { s with cursor := c }

/-! ### Reading one token -/

def readMarker (t : Token) (s : Scanner) : Option Scanner := do
  let s ← (s.unwind 0).forgetPlace
  return { s with allowsKey := false }.emit t 3

def openFlow (t : Token) (s : Scanner) : Option Scanner := do
  let s ← s.markPlace
  return { s with brackets := s.brackets + 1, allowsKey := true }.emit t 1

def closeFlow (t : Token) (s : Scanner) : Option Scanner := do
  let s ← s.forgetPlace
  if s.brackets == 0 then none
  return { s with brackets := s.brackets - 1, allowsKey := false }.emit t 1

def readComma (s : Scanner) : Option Scanner := do
  let s ← s.forgetPlace
  return { s with allowsKey := true }.emit .comma 1

def readEntry (s : Scanner) : Option Scanner := do
  if !s.inFlow && !s.allowsKey then none
  let s := if s.inFlow then s else s.openBlock s.cursor.column s.tokens.length .sequenceStart
  let s ← s.forgetPlace
  return { s with allowsKey := true }.emit .entry 1

def readKey (s : Scanner) : Option Scanner := do
  if !s.inFlow && !s.allowsKey then none
  let s := if s.inFlow then s else s.openBlock s.cursor.column s.tokens.length .mappingStart
  let s ← s.forgetPlace
  return { s with allowsKey := !s.inFlow }.emit .key 1

def readValue (s : Scanner) : Option Scanner := do
  match s.place? with
  | some p =>
    let s := { s with
      places := s.places.filter fun p => p.1 != s.brackets
      tokens := insertAt p.token [.key] s.tokens
      allowsKey := false }
    let s := if s.inFlow then s else s.openBlock p.column p.token .mappingStart
    return s.emit .value 1
  | none =>
    if !s.inFlow && !s.allowsKey then none
    let s := if s.inFlow then s else s.openBlock s.cursor.column s.tokens.length .mappingStart
    let s ← { s with allowsKey := !s.inFlow }.forgetPlace
    return s.emit .value 1

/-- A character of a tag's name. -/
def isTagChar (c : Char) : Bool := c.isAlphanum || "-;/?:@&=+$,_.!~*()[]%'".toList.contains c

/-- Reads a tag of the standard kind. -/
def readTag (s : Scanner) : Option Scanner := do
  let s ← s.markPlace
  if s.cursor.peek 1 != '!' then none
  let (name, c) := (s.cursor.forward 2).takeWhile isTagChar
  if name.isEmpty || !(c.peek == ' ' || endsLine c.peek) then none
  return { s with allowsKey := false, cursor := c }.emit (.tag name) 0

/-- A character of a node's name. -/
def isNameChar (c : Char) : Bool := c.isAlphanum || c == '-' || c == '_'

/-- Whether a character may follow a node's name. -/
def endsName (c : Char) : Bool := isGap c || "?:,]\x7d%@".toList.contains c || c.toNat == 96

/-- Reads a node's name. -/
def readName (t : List Char → Token) (s : Scanner) : Option Scanner := do
  let s ← s.markPlace
  let (name, c) := s.cursor.next.takeWhile isNameChar
  if name.isEmpty || !endsName c.peek then none
  return { s with allowsKey := false, cursor := c }.emit (t name) 0

def readBlock (isFolded : Bool) (s : Scanner) : Option Scanner := do
  let s ← { s with allowsKey := true }.forgetPlace
  let (text, c) ← block isFolded s.margin s.cursor.next
  return { s with cursor := c }.emit (.scalar text false) 0

def readQuoted (isDouble : Bool) (s : Scanner) : Except Fault Scanner := do
  let s ← orMalformed s.markPlace
  let (text, c) ← quoted isDouble (s.cursor.rest.length + 1) [] s.cursor.next
  return { s with allowsKey := false, cursor := c }.emit (.scalar text false) 0

def readPlain (s : Scanner) : Option Scanner := do
  let s ← s.markPlace
  let (text, crossed, c) := plain s.inFlow s.margin (s.cursor.rest.length + 1) [] [] false s.cursor
  return { s with allowsKey := crossed, cursor := c }.emit (.scalar text true) 0

/-- Whether a plain scalar can begin here. -/
def beginsPlain (s : Scanner) : Bool :=
  let c := s.cursor.peek
  !(isGap c || "-?:,[]\x7b\x7d#&*!|>'\"%@".toList.contains c || c.toNat == 96) ||
    (!isGap (s.cursor.peek 1) && (c == '-' || (!s.inFlow && (c == '?' || c == ':'))))

/-- Reads the token that begins here, unless that is a quoted scalar. -/
def readUnquoted (s : Scanner) : Option Scanner :=
  let c := s.cursor
  let beforeGap := isGap (c.peek 1)
  let atMargin := c.column == 0
  match c.peek with
  | '[' => s.openFlow .openBracket
  | '{' => s.openFlow .openBrace
  | ']' => s.closeFlow .closeBracket
  | '}' => s.closeFlow .closeBrace
  | ',' => s.readComma
  | '!' => s.readTag
  | '&' => s.readName .anchor
  | '*' => s.readName .alias
  | x =>
    if x == '%' && atMargin then none
    else if atMargin && c.hasTriple '-' then s.readMarker .documentStart
    else if atMargin && c.hasTriple '.' then s.readMarker .documentEnd
    else if x == '-' && beforeGap then s.readEntry
    else if x == '?' && (s.inFlow || beforeGap) then s.readKey
    else if x == ':' && (s.inFlow || beforeGap) then s.readValue
    else if (x == '|' || x == '>') && !s.inFlow then s.readBlock (x == '>')
    else if s.beginsPlain then s.readPlain
    else none

/-- Reads the token that begins here. -/
def readToken (s : Scanner) : Except Fault Scanner :=
  match s.cursor.peek with
  | '\'' => s.readQuoted false
  | '"' => s.readQuoted true
  | _ => orMalformed s.readUnquoted

end Scanner

/-- The tokens of a text, as far as they can be read. -/
structure Scan where
  tokens : List Token
  /-- Why no more tokens can be read. -/
  fault? : Option Fault := none
  /-- The numbers of the tokens that may yet turn out to be keys. -/
  undecided : List Nat := []

namespace Scanner

/-- What is read before a fault. -/
def halt (s : Scanner) (f : Fault) : Scan where
  tokens := s.tokens
  fault? := some f
  undecided := (s.places.filter fun p => !s.isOld p.2).map fun p => p.2.token

/-- Reads the next tokens; none at the end. -/
def step (s : Scanner) : Except Fault (Option Scanner) := do
  let s ← orMalformed (s.skipGap (s.cursor.rest.length + 1)).forgetOld
  if s.cursor.isAtEnd then return none
  return some (← (s.unwind (s.cursor.column + 1)).readToken)

/-- Reads all tokens. -/
def run : (fuel : Nat) → Scanner → Scan
  | 0, s => s.halt .malformed
  | fuel + 1, s =>
    match s.step with
    | .error f => s.halt f
    | .ok (some next) => run fuel next
    | .ok none =>
      match (s.unwind 0).forgetPlace with
      | some s => { tokens := s.tokens }
      | none => s.halt .malformed

end Scanner

/-- The tokens of a text. -/
def Token.scan (text : List Char) : Scan :=
  let start : Cursor := { rest := if text.head? == some '\uFEFF' then text.tail else text }
  Scanner.run (text.length + 2) { cursor := start }

end Yaml
end Stencil
