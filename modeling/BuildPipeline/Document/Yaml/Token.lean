import BuildPipeline.Document.Yaml.Block
import BuildPipeline.Document.Yaml.Plain
import BuildPipeline.Document.Yaml.Quotation
import BuildPipeline.Document.Yaml.Tag

namespace BuildPipeline.Document.Yaml

/-- The pieces of a document.  A block collection opens where its first entry begins
further right than what is around it, and closes where something begins further left. -/
inductive Token where
  | directive (directive : Directive)
  | documentStart
  | documentEnd
  | blockSequence
  | blockMapping
  | blockEnd
  | openList
  | closeList
  | openMapping
  | closeMapping
  | comma
  | dash
  | key
  | value
  | alias (name : String)
  | anchor (name : String)
  | tag (tag : Tag)
  | scalar (content : String) (isPlain : Bool)
deriving DecidableEq, Repr

namespace Token

/-- A place that turns out to be a key if a colon follows on the same line, not too far
away.  It has to be one if it stands at the column of a block collection. -/
structure KeyPlace where
  position : Nat
  isRequired : Bool
  index : Nat
  line : Nat
  column : Nat

/-- What has been read so far, latest token first.  There is one possible key for the text
outside of all brackets and one for each bracket that is open, innermost first. -/
structure Reading where
  cursor : Cursor
  tokens : List Token := []
  count : Nat := 0
  indent : Int := -1
  indents : List Int := []
  keyAllowed : Bool := true
  place : Option KeyPlace := none
  outer : List (Option KeyPlace) := []

def keyReach : Nat := 1024

namespace Reading

def bracketed (reading : Reading) : Bool :=
  !reading.outer.isEmpty

def emit (reading : Reading) (token : Token) : Reading :=
  { reading with tokens := token :: reading.tokens, count := reading.count + 1 }

/-- A token is put where the key that it opens begins. -/
def insert (reading : Reading) (position : Nat) (token : Token) : Reading :=
  let later := reading.count - position
  { reading with
    tokens := reading.tokens.take later ++ token :: reading.tokens.drop later
    count := reading.count + 1 }

def refresh (cursor : Cursor) : Option KeyPlace → Except Fault (Option KeyPlace)
  | none => .ok none
  | some place =>
      if place.line = cursor.line ∧ cursor.index ≤ place.index + keyReach then
        .ok (some place)
      else if place.isRequired then .error .malformed
      else .ok none

def refreshPlaces (reading : Reading) : Except Fault Reading := do
  let place ← refresh reading.cursor reading.place
  let outer ← reading.outer.mapM (refresh reading.cursor)
  return { reading with place, outer }

def dropPlace (reading : Reading) : Except Fault Reading :=
  match reading.place with
  | some place =>
      if place.isRequired then .error .malformed else .ok { reading with place := none }
  | none => .ok reading

def markPlace (reading : Reading) : Except Fault Reading := do
  if reading.keyAllowed then
    let reading ← reading.dropPlace
    let cursor := reading.cursor
    return { reading with
      place := some
        { position := reading.count
          isRequired := !reading.bracketed && reading.indent == Int.ofNat cursor.column
          index := cursor.index, line := cursor.line, column := cursor.column } }
  else return reading

def closeBlocksIn (column : Int) : List Int → Reading → Reading
  | [], reading => reading
  | outer :: indents, reading =>
      if column < reading.indent then
        closeBlocksIn column indents
          { reading.emit .blockEnd with indent := outer, indents }
      else reading

def closeBlocks (reading : Reading) (column : Int) : Reading :=
  if reading.bracketed then reading else closeBlocksIn column reading.indents reading

def deepens (reading : Reading) (column : Nat) : Bool :=
  reading.indent < Int.ofNat column

def openBlock (reading : Reading) (column : Nat) : Reading :=
  { reading with indent := Int.ofNat column, indents := reading.indent :: reading.indents }

/-- Blanks, comments and line ends before the next token.  Outside of brackets a key may
begin a line. -/
def skipIdle : Nat → Reading → Reading
  | 0, reading => reading
  | fuel + 1, reading =>
      let cursor := reading.cursor.spaces
      let cursor := if cursor.peek = some '#' then cursor.toLineEnd.2 else cursor
      match cursor.lineEnd? with
      | some (_, after) =>
          skipIdle fuel
            { reading with
              cursor := after
              keyAllowed := reading.keyAllowed || !reading.bracketed }
      | none => { reading with cursor }

def moveTo (reading : Reading) (cursor : Cursor) : Reading :=
  { reading with cursor }

def single (reading : Reading) (token : Token) : Reading :=
  (reading.moveTo reading.cursor.next).emit token

def outside (reading : Reading) : Except Fault Reading := do
  let reading ← (reading.closeBlocks (-1)).dropPlace
  return { reading with keyAllowed := false }

def directive (reading : Reading) : Except Fault Reading := do
  let reading ← reading.outside
  let (found, after) ← Directive.read reading.cursor
  return (reading.moveTo after).emit (.directive found)

def mark (reading : Reading) (token : Token) : Except Fault Reading := do
  let reading ← reading.outside
  return (reading.moveTo (reading.cursor.skip 3)).emit token

def openBracket (reading : Reading) (token : Token) : Except Fault Reading := do
  let reading ← reading.markPlace
  return { reading.single token with
    keyAllowed := true, place := none, outer := reading.place :: reading.outer }

def closeBracket (reading : Reading) (token : Token) : Except Fault Reading := do
  let reading ← reading.dropPlace
  match reading.outer with
  | [] => .error .malformed
  | place :: outer => return { reading.single token with keyAllowed := false, place, outer }

def comma (reading : Reading) : Except Fault Reading := do
  let reading ← reading.dropPlace
  return { reading.single .comma with keyAllowed := true }

def blockEntry (reading : Reading) (collection : Token) : Except Fault Reading :=
  if reading.bracketed then .ok reading
  else if !reading.keyAllowed then .error .malformed
  else if reading.deepens reading.cursor.column then
    .ok ((reading.openBlock reading.cursor.column).emit collection)
  else .ok reading

def dash (reading : Reading) : Except Fault Reading := do
  let reading ← (← reading.blockEntry .blockSequence).dropPlace
  return { reading.single .dash with keyAllowed := true }

def explicitKey (reading : Reading) : Except Fault Reading := do
  let reading ← (← reading.blockEntry .blockMapping).dropPlace
  return { reading.single .key with keyAllowed := !reading.bracketed }

def value (reading : Reading) : Except Fault Reading := do
  match reading.place with
  | some place =>
      let reading :=
        ({ reading with place := none, keyAllowed := false }).insert place.position .key
      let reading :=
        if !reading.bracketed && reading.deepens place.column then
          (reading.openBlock place.column).insert place.position .blockMapping
        else reading
      return reading.single .value
  | none =>
      let reading ← reading.blockEntry .blockMapping
      return { reading.single .value with keyAllowed := !reading.bracketed }

def content (reading : Reading) (read : Cursor → Except Fault (Token × Cursor)) :
    Except Fault Reading := do
  let reading ← reading.markPlace
  let (token, after) ← read reading.cursor
  return { (reading.moveTo after).emit token with keyAllowed := false }

def quoted (quote : Char) (cursor : Cursor) : Except Fault (Token × Cursor) := do
  let (content, after) ← Quotation.read quote cursor
  return (.scalar (String.ofList content) false, after)

def named (token : String → Token) (cursor : Cursor) : Except Fault (Token × Cursor) := do
  let (name, after) ← cursor.anchor
  return (token name, after)

def tagged (cursor : Cursor) : Except Fault (Token × Cursor) := do
  let (found, after) ← cursor.tag
  return (.tag found, after)

def block (reading : Reading) (folded : Bool) : Except Fault Reading := do
  let reading ← reading.dropPlace
  let (content, after) ← Block.read folded reading.indent reading.cursor
  return { (reading.moveTo after).emit
           (.scalar (String.ofList content) false) with keyAllowed := true }

def plain (reading : Reading) : Except Fault Reading := do
  let reading ← reading.markPlace
  let (content, crosses, after) :=
    Plain.read reading.bracketed reading.indent reading.cursor
  return { (reading.moveTo after).emit (.scalar (String.ofList content) true) with
    keyAllowed := crosses }

def token (reading : Reading) (c : Char) : Except Fault Reading :=
  let cursor := reading.cursor
  let alone := reading.bracketed || endsWord (cursor.peekAt 1)
  if c = '%' ∧ cursor.column = 0 then reading.directive
  else if cursor.column = 0 ∧ cursor.atMark '-' then reading.mark .documentStart
  else if cursor.column = 0 ∧ cursor.atMark '.' then reading.mark .documentEnd
  else if c = '[' then reading.openBracket .openList
  else if c = '\x7b' then reading.openBracket .openMapping
  else if c = ']' then reading.closeBracket .closeList
  else if c = '\x7d' then reading.closeBracket .closeMapping
  else if c = ',' then reading.comma
  else if c = '-' ∧ endsWord (cursor.peekAt 1) then reading.dash
  else if c = '?' ∧ alone then reading.explicitKey
  else if c = ':' ∧ alone then reading.value
  else if c = '*' then reading.content (named .alias)
  else if c = '&' then reading.content (named .anchor)
  else if c = '!' then reading.content tagged
  else if c = '|' ∧ !reading.bracketed then reading.block false
  else if c = '>' ∧ !reading.bracketed then reading.block true
  else if c = Text.Quoted.single ∨ c = Text.Quoted.double then reading.content (quoted c)
  else if Plain.begins reading.bracketed cursor then reading.plain
  else .error .malformed

def step (reading : Reading) : Except Fault (Reading × Bool) := do
  let reading ← (skipIdle reading.cursor.fuel reading).refreshPlaces
  let reading := reading.closeBlocks (Int.ofNat reading.cursor.column)
  match reading.cursor.peek with
  | none => return (← reading.outside, true)
  | some c =>
      let reading ← reading.token c
      return (← reading.refreshPlaces, false)

/-- How many tokens are certain: those before the first place that may still turn out to
be a key. -/
def certain (reading : Reading) : Nat :=
  (reading.place :: reading.outer).foldl
    (fun least place => place.elim least fun place => min least place.position)
    reading.count

end Reading

end Token

/-- The tokens of a text, in order.  Where a text cannot be read to its end, there is a
fault after the tokens that are certain before it. -/
structure Tokens where
  certain : List Token
  fault : Option Fault := none

namespace Tokens

def broken (reading : Token.Reading) (fault : Fault) : Tokens :=
  { certain := (reading.tokens.drop (reading.count - reading.certain)).reverse,
    fault := some fault }

def read : Nat → Token.Reading → Tokens
  | 0, reading => broken reading .malformed
  | fuel + 1, reading =>
      match reading.step with
      | .error fault => broken reading fault
      | .ok (reading, true) => { certain := reading.tokens.reverse }
      | .ok (reading, false) => read fuel reading

def ofText (text : String) : Tokens :=
  let cursor := Cursor.ofText text
  read cursor.fuel { cursor }

end Tokens

end BuildPipeline.Document.Yaml
