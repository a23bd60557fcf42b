import BuildPipeline.Document.Value

namespace BuildPipeline.Document.Yaml

/-- Why a text is no document: it breaks the rules of the format, it names a value that
does not exist, such as the thirteenth month, or it asks of a value what that cannot do. -/
inductive Fault where
  | malformed
  | noSuchValue (message : String)
  | misuse (misuse : Misuse)
deriving DecidableEq, Repr

/-- A line ends at a line feed, a next line mark, or a line or paragraph separator.  The
questions about the next character take `none` for the end of the text. -/
def isBreak (c : Char) : Bool :=
  c == '\n' || c.toNat == 0x85 || c.toNat == 0x2028 || c.toNat == 0x2029

def endsLine : Option Char → Bool
  | none => true
  | some c => isBreak c

def endsField : Option Char → Bool
  | none => true
  | some c => c == ' ' || isBreak c

def endsWord : Option Char → Bool
  | none => true
  | some c => c == ' ' || c == '\t' || isBreak c

def isGap : Option Char → Bool
  | none => false
  | some c => c == ' ' || c == '\t'

def byteOrderMark : Char := Char.ofNat 0xfeff

/-- A place in a text: what is still to be read, and where that is.  A byte order mark
takes no column. -/
structure Cursor where
  rest : List Char
  index : Nat := 0
  line : Nat := 0
  column : Nat := 0

namespace Cursor

def ofText (text : String) : Cursor :=
  match text.toList with
  | [] => { rest := [] }
  | c :: rest => if c = byteOrderMark then { rest, index := 1 } else { rest := c :: rest }

def peek (cursor : Cursor) : Option Char :=
  cursor.rest.head?

def peekAt (cursor : Cursor) (ahead : Nat) : Option Char :=
  cursor.rest[ahead]?

def next (cursor : Cursor) : Cursor :=
  match cursor.rest with
  | [] => cursor
  | c :: rest =>
      if isBreak c then
        { rest, index := cursor.index + 1, line := cursor.line + 1, column := 0 }
      else
        { rest, index := cursor.index + 1, line := cursor.line
          column := if c = byteOrderMark then cursor.column else cursor.column + 1 }

def skip : Nat → Cursor → Cursor
  | 0, cursor => cursor
  | count + 1, cursor => skip count cursor.next

def span (keep : Char → Bool) (cursor : Cursor) : List Char × Cursor :=
  let run := cursor.rest.takeWhile keep
  (run, cursor.skip run.length)

def pass (keep : Char → Bool) (cursor : Cursor) : Cursor :=
  (cursor.span keep).2

def spaces (cursor : Cursor) : Cursor :=
  cursor.pass (· == ' ')

def toLineEnd (cursor : Cursor) : List Char × Cursor :=
  cursor.span fun c => !isBreak c

/-- The end of a line, with what it stands for inside a text: a separator stays itself,
and any other end is a line feed. -/
def lineEnd? (cursor : Cursor) : Option (Char × Cursor) :=
  match cursor.peek with
  | some c =>
      if isBreak c then
        some (if c.toNat = 0x2028 ∨ c.toNat = 0x2029 then c else '\n', cursor.next)
      else none
  | none => none

def afterLineEnd (cursor : Cursor) : Cursor :=
  match cursor.lineEnd? with
  | some (_, after) => after
  | none => cursor

def idleLine (cursor : Cursor) : Except Fault Cursor :=
  let cursor := cursor.spaces
  let cursor := if cursor.peek = some '#' then cursor.toLineEnd.2 else cursor
  if endsLine cursor.peek then .ok cursor.afterLineEnd else .error .malformed

/-- Three dashes or three points alone are a mark between documents. -/
def atMark (mark : Char) (cursor : Cursor) : Bool :=
  [mark, mark, mark].isPrefixOf cursor.rest && endsWord (cursor.peekAt 3)

def atAnyMark (cursor : Cursor) : Bool :=
  cursor.atMark '-' || cursor.atMark '.'

/-- The lines with nothing on them that come next, where no more than `column` spaces are
skipped on each. -/
def toColumn (column : Nat) (cursor : Cursor) : Cursor :=
  cursor.skip (min (column - cursor.column) (cursor.rest.takeWhile (· == ' ')).length)

def emptyLines (column : Nat) : Nat → List Char → Cursor → List Char × Cursor
  | 0, ends, cursor => (ends, cursor)
  | fuel + 1, ends, cursor =>
      let cursor := cursor.toColumn column
      match cursor.lineEnd? with
      | some (c, after) => emptyLines column fuel (ends ++ [c]) after
      | none => (ends, cursor)

def fuel (cursor : Cursor) : Nat :=
  cursor.rest.length + 1

end Cursor

end BuildPipeline.Document.Yaml
