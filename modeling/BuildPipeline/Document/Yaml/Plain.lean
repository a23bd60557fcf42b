import BuildPipeline.Document.Yaml.Cursor

namespace BuildPipeline.Document.Yaml

/-! A text without quotes.  It ends before a comment, before a colon that ends a key, and
inside brackets before a bracket, a comma or a question mark. -/

namespace Plain

def inList (text : String) (c : Char) : Bool :=
  text.toList.contains c

def bracketMarks : String := ",[]\x7b\x7d"

def stops (bracketed : Bool) (c : Char) (after : Option Char) : Bool :=
  endsWord (some c)
    || (c == ':' && (endsWord after || (bracketed && after.any (inList bracketMarks))))
    || (bracketed && (c == '?' || inList bracketMarks c))

def length (bracketed : Bool) : List Char → Nat
  | [] => 0
  | c :: rest => if stops bracketed c rest.head? then 0 else length bracketed rest + 1

/-- The characters that begin no text without quotes, except that a dash, and outside of
brackets a question mark and a colon, may do so before another character. -/
def indicators : String := "-?:,[]\x7b\x7d#&*!|>'\"%@" ++ String.singleton (Char.ofNat 0x60)

def begins (bracketed : Bool) (cursor : Cursor) : Bool :=
  match cursor.peek with
  | none => false
  | some c =>
      !(endsWord (some c) || inList indicators c)
        || (!endsWord (cursor.peekAt 1)
          && (c == '-' || (!bracketed && (c == '?' || c == ':'))))

/-- The gap after a word: what it stands for if the text goes on, whether it holds a line
end, and the place after it.  A mark between documents ends the text. -/
structure Gap where
  content : List Char
  crosses : Bool
  cursor : Cursor

def emptyLines : Nat → List Char → Cursor → Option (List Char) × Cursor
  | 0, ends, cursor => (some ends, cursor)
  | fuel + 1, ends, cursor =>
      if cursor.peek = some ' ' then emptyLines fuel ends cursor.next
      else
        match cursor.lineEnd? with
        | some (c, after) =>
            if after.atAnyMark then (none, after) else emptyLines fuel (ends ++ [c]) after
        | none => (some ends, cursor)

def gap (cursor : Cursor) : Gap :=
  let (blank, after) := cursor.span (· == ' ')
  match after.lineEnd? with
  | none => ⟨blank, false, after⟩
  | some (c, next) =>
      if next.atAnyMark then ⟨[], true, next⟩
      else
        match emptyLines next.fuel [] next with
        | (none, next) => ⟨[], true, next⟩
        | (some ends, next) =>
            let first := if c != '\n' then [c] else if ends.isEmpty then [' '] else []
            ⟨first ++ ends, true, next⟩

def words (bracketed : Bool) (indent : Nat) :
    Nat → List Char → Gap → List Char × Bool × Cursor
  | 0, read, before => (read, before.crosses, before.cursor)
  | fuel + 1, read, before =>
      let cursor := before.cursor
      let count := length bracketed cursor.rest
      if cursor.peek = some '#' ∨ count = 0 then (read, before.crosses, cursor)
      else
        let read := read ++ before.content ++ cursor.rest.take count
        let after := gap (cursor.skip count)
        if after.content.isEmpty || (!bracketed && after.cursor.column < indent) then
          (read, after.crosses, after.cursor)
        else words bracketed indent fuel read after

def read (bracketed : Bool) (indent : Int) (cursor : Cursor) : List Char × Bool × Cursor :=
  words bracketed (indent + 1).toNat cursor.fuel [] ⟨[], false, cursor⟩

end Plain

end BuildPipeline.Document.Yaml
