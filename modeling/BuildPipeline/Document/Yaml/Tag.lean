import BuildPipeline.Decimal.Whole
import BuildPipeline.Document.Json.Reader
import BuildPipeline.Document.Yaml.Cursor

namespace BuildPipeline.Document.Yaml

def isNameChar (c : Char) : Bool :=
  c.isAlphanum || c == '-' || c == '_'

def isTagChar (c : Char) : Bool :=
  c.isAlphanum || "-;/?:@&=+$,_.!~*'()[]".toList.contains c

def endsName : Option Char → Bool
  | none => true
  | some c => endsWord (some c)
      || ("?:,]\x7d%@" ++ String.singleton (Char.ofNat 0x60)).toList.contains c

/-- A tag is a handle, which stands for the beginning of a name, and the rest of the name.
One without a handle is whole. -/
structure Tag where
  handle : Option String
  suffix : String
deriving DecidableEq, Repr

namespace Tag

def core (name : String) : String :=
  "tag:yaml.org,2002:" ++ name

def usualHandles : List (String × String) :=
  [("!", "!"), ("!!", core "")]

def bare : Tag := ⟨none, "!"⟩

def name? (handles : List (String × String)) (tag : Tag) : Option String :=
  match tag.handle with
  | none => some tag.suffix
  | some handle => (handles.lookup handle).map (· ++ tag.suffix)

end Tag

namespace Cursor

def name (cursor : Cursor) : Except Fault (String × Cursor) :=
  match cursor.span isNameChar with
  | ([], _) => .error .malformed
  | (name, after) => .ok (String.ofList name, after)

def anchor (cursor : Cursor) : Except Fault (String × Cursor) := do
  let (name, after) ← cursor.next.name
  if endsName after.peek then return (name, after) else .error .malformed

/-- Bytes that are named one after the other, each by a percent sign and two hexadecimal
digits, are the characters that they encode. -/
def escapedBytes? : List Char → Option (List UInt8)
  | '%' :: high :: low :: rest => do
      let high ← Json.hexDigit? high
      let low ← Json.hexDigit? low
      let bytes ← escapedBytes? rest
      return UInt8.ofNat (16 * high + low) :: bytes
  | '%' :: _ => none
  | _ => some []

def escapedText? (bytes : List UInt8) : Option (List Char) :=
  (String.fromUTF8? ⟨bytes.toArray⟩).map String.toList

def tagParts : Nat → List Char → Cursor → Except Fault (List Char × Cursor)
  | 0, read, cursor => .ok (read, cursor)
  | fuel + 1, read, cursor =>
      let (part, after) := cursor.span isTagChar
      if after.peek = some '%' then
        match escapedBytes? after.rest with
        | none => .error .malformed
        | some bytes =>
            match escapedText? bytes with
            | none => .error .malformed
            | some text =>
                tagParts fuel (read ++ part ++ text) (after.skip (3 * bytes.length))
      else .ok (read ++ part, after)

def tagText (cursor : Cursor) : Except Fault (String × Cursor) := do
  let (text, after) ← tagParts cursor.fuel [] cursor
  if text.isEmpty then throw .malformed
  return (String.ofList text, after)

def handle (cursor : Cursor) : Except Fault (String × Cursor) :=
  if cursor.peek != some '!' then .error .malformed
  else if cursor.peekAt 1 = some ' ' then .ok ("!", cursor.next)
  else
    let (name, after) := cursor.next.span isNameChar
    if after.peek = some '!' then .ok ("!" ++ String.ofList name ++ "!", after.next)
    else .error .malformed

def tag (cursor : Cursor) : Except Fault (Tag × Cursor) := do
  let (tag, after) ←
    if cursor.peekAt 1 = some '<' then do
      let (suffix, after) ← (cursor.skip 2).tagText
      if after.peek = some '>' then pure (⟨none, suffix⟩, after.next) else throw .malformed
    else if endsWord (cursor.peekAt 1) then pure (Tag.bare, cursor.next)
    else do
      let rest := (cursor.next.span fun c => !(c == ' ' || isBreak c)).1
      let (handle, after) ← if rest.contains '!' then cursor.handle
      else pure ("!", cursor.next)
      let (suffix, after) ← after.tagText
      pure (⟨some handle, suffix⟩, after)
  if endsField after.peek then return (tag, after) else throw .malformed

end Cursor

inductive Directive where
  | version (major : Nat)
  | shorthand (name start : String)
  | other
deriving DecidableEq, Repr

namespace Directive

def number (cursor : Cursor) : Except Fault (Nat × Cursor) :=
  match cursor.span Char.isDigit with
  | ([], _) => .error .malformed
  | (digits, after) =>
      match Decimal.readWhole 10 (String.ofList digits) with
      | .ok n => .ok (n.toNat, after)
      | .error unread => .error (.noSuchValue (unread.message 10 ""))

def content (name : String) (cursor : Cursor) : Except Fault (Directive × Cursor) := do
  match name with
  | "YAML" =>
      let (major, after) ← number cursor.spaces
      if after.peek != some '.' then throw .malformed
      let (_, after) ← number after.next
      if endsField after.peek then return (.version major, after) else throw .malformed
  | "TAG" =>
      let (handle, after) ← cursor.spaces.handle
      if after.peek != some ' ' then throw .malformed
      let (start, after) ← after.spaces.tagText
      if endsField after.peek then return (.shorthand handle start, after)
      else throw .malformed
  | _ => return (.other, cursor.toLineEnd.2)

def read (cursor : Cursor) : Except Fault (Directive × Cursor) := do
  let (name, after) ← cursor.next.name
  if !endsField after.peek then throw .malformed
  let (directive, after) ← content name after
  let after ← after.idleLine
  return (directive, after)

end Directive

end BuildPipeline.Document.Yaml
