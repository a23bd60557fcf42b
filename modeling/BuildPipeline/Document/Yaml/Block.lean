import BuildPipeline.Document.Yaml.Cursor

namespace BuildPipeline.Document.Yaml

/-! A block text: a mark, how to treat the last line ends and how far to indent, then the
lines.  A folded one joins lines that do not begin with a gap. -/

inductive Tail where
  | clip
  | strip
  | keep
deriving DecidableEq, Repr

namespace Block

def tail? : Option Char → Option Tail
  | some '+' => some .keep
  | some '-' => some .strip
  | _ => none

def step? : Option Char → Option Nat
  | some c => if '0' ≤ c ∧ c ≤ '9' then some (c.toNat - '0'.toNat) else none
  | none => none

def header (cursor : Cursor) : Except Fault (Tail × Option Nat × Cursor) :=
  let (tail, step, after) :=
    match tail? cursor.peek, step? cursor.peek with
    | some tail, _ =>
        match step? cursor.next.peek with
        | some step => (tail, some step, cursor.next.next)
        | none => (tail, none, cursor.next)
    | none, some step =>
        match tail? cursor.next.peek with
        | some tail => (tail, some step, cursor.next.next)
        | none => (.clip, some step, cursor.next)
    | none, none => (.clip, none, cursor)
  if step = some 0 then .error .malformed
  else if endsField after.peek then .ok (tail, step, after)
  else .error .malformed

def leading : Nat → List Char → Nat → Cursor → List Char × Nat × Cursor
  | 0, ends, widest, cursor => (ends, widest, cursor)
  | fuel + 1, ends, widest, cursor =>
      if cursor.peek = some ' ' then leading fuel ends
        (max widest cursor.next.column) cursor.next
      else
        match cursor.lineEnd? with
        | some (c, after) => leading fuel (ends ++ [c]) widest after
        | none => (ends, widest, cursor)

structure Lines where
  content : List Char := []
  lastEnd : List Char := []
  after : List Char := []
  cursor : Cursor

def atLine (column : Nat) (cursor : Cursor) : Bool :=
  cursor.column == column && !cursor.rest.isEmpty

def joint (folded leadsPlain : Bool) (lineEnd empty : List Char) (next : Option Char) :
    List Char :=
  if folded && lineEnd == ['\n'] && leadsPlain && !isGap next then
    if empty.isEmpty then [' '] else []
  else lineEnd

def lines (folded : Bool) (column : Nat) : Nat → List Char → List Char → Cursor → Lines
  | 0, content, empty, cursor => { content, after := empty, cursor }
  | fuel + 1, content, empty, cursor =>
      if atLine column cursor then
        let leadsPlain := !isGap cursor.peek
        let (line, atEnd) := cursor.toLineEnd
        let lineEnd := (atEnd.lineEnd?.map (·.1)).toList
        let (more, next) := Cursor.emptyLines column cursor.fuel [] atEnd.afterLineEnd
        let content := content ++ empty ++ line
        if atLine column next then
          lines folded column fuel
            (content ++ joint folded leadsPlain lineEnd more next.peek) more next
        else { content, lastEnd := lineEnd, after := more, cursor := next }
      else { content, after := empty, cursor }

def ending (tail : Tail) (lines : Lines) : List Char :=
  match tail with
  | .clip => lines.lastEnd
  | .strip => []
  | .keep => lines.lastEnd ++ lines.after

/-- The whole text, where `indent` is the column of the collection around it. -/
def read (folded : Bool) (indent : Int) (cursor : Cursor) :
    Except Fault (List Char × Cursor) := do
  let (tail, step, after) ← header cursor.next
  let start ← after.idleLine
  let least := (max 1 (indent + 1)).toNat
  let (empty, column, start) :=
    match step with
    | none =>
        let (empty, widest, start) := leading start.fuel [] 0 start
        (empty, max least widest, start)
    | some step =>
        let column := least + step - 1
        let (empty, start) := Cursor.emptyLines column start.fuel [] start
        (empty, column, start)
  let lines := lines folded column start.fuel [] empty start
  return (lines.content ++ ending tail lines, lines.cursor)

end Block

end BuildPipeline.Document.Yaml
