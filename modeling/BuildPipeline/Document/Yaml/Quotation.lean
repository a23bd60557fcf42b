import BuildPipeline.Document.Json.Reader
import BuildPipeline.Document.Yaml.Cursor

namespace BuildPipeline.Document.Yaml

/-! A text between quotes.  Between single quotes only the quote itself is written twice;
between double quotes a backslash names a character.  A line end inside either one is a
space, unless empty lines follow it. -/

namespace Quotation

open BuildPipeline.Text.Quoted (single double backslash)

def named? : Char → Option Char
  | '0' => some (Char.ofNat 0x00)
  | 'a' => some (Char.ofNat 0x07)
  | 'b' => some (Char.ofNat 0x08)
  | 't' => some '\t'
  | '\t' => some '\t'
  | 'n' => some '\n'
  | 'v' => some (Char.ofNat 0x0b)
  | 'f' => some (Char.ofNat 0x0c)
  | 'r' => some '\r'
  | 'e' => some (Char.ofNat 0x1b)
  | ' ' => some ' '
  | '/' => some '/'
  | 'N' => some (Char.ofNat 0x85)
  | '_' => some (Char.ofNat 0xa0)
  | 'L' => some (Char.ofNat 0x2028)
  | 'P' => some (Char.ofNat 0x2029)
  | c => if c = double ∨ c = backslash then some c else none

def codeWidth? : Char → Option Nat
  | 'x' => some 2
  | 'u' => some 4
  | 'U' => some 8
  | _ => none

def code? (width : Nat) (text : List Char) : Option Nat :=
  let digits := text.take width
  if digits.length < width then none
  else digits.foldlM (fun code c => (Json.hexDigit? c).map (16 * code + ·)) 0

def pair? (width code : Nat) (text : List Char) : Option Char :=
  match text with
  | c :: 'u' :: rest => do
      let low ← code? 4 rest
      if width = 4 ∧ c = backslash ∧ Json.isHighUnit code ∧ Json.isLowUnit low then
        some (Char.ofNat (0x10000 + (code - 0xd800) * 0x400 + (low - 0xdc00)))
      else none
  | _ => none

def coded (width : Nat) (cursor : Cursor) : Except Fault (List Char × Cursor) :=
  match code? width cursor.rest with
  | none => .error .malformed
  | some code =>
      let after := cursor.skip width
      if 0x80000000 ≤ code then .error (.misuse .overflow)
      else if 0x110000 ≤ code then .error (.noSuchValue "chr() arg not in range(0x110000)")
      else
        match pair? width code after.rest with
        | some c => .ok ([c], after.skip 6)
        | none => .ok ([Json.unitChar code], after)

def emptyLines : Nat → List Char → Cursor → Except Fault (List Char × Cursor)
  | 0, _, _ => .error .malformed
  | fuel + 1, ends, cursor =>
      if cursor.atAnyMark then .error .malformed
      else
        let cursor := cursor.pass fun c => c == ' ' || c == '\t'
        match cursor.lineEnd? with
        | some (c, after) => emptyLines fuel (ends ++ [c]) after
        | none => .ok (ends, cursor)

def escaped (cursor : Cursor) : Except Fault (List Char × Cursor) :=
  match cursor.peek with
  | none => .error .malformed
  | some c =>
      match named? c, codeWidth? c with
      | some plain, _ => .ok ([plain], cursor.next)
      | none, some width => coded width cursor.next
      | none, none =>
          if isBreak c then emptyLines cursor.fuel [] cursor.next else .error .malformed

def word (quote : Char) : Nat → List Char → Cursor → Except Fault (List Char × Cursor)
  | 0, _, _ => .error .malformed
  | fuel + 1, read, cursor =>
      match cursor.peek with
      | none => .ok (read, cursor)
      | some c =>
          if endsWord (some c) then .ok (read, cursor)
          else if c = quote then
            if quote = single ∧ cursor.peekAt 1 = some single then
              word quote fuel (read ++ [single]) (cursor.skip 2)
            else .ok (read, cursor)
          else if quote = double ∧ c = backslash then
            match escaped cursor.next with
            | .ok (plain, after) => word quote fuel (read ++ plain) after
            | .error fault => .error fault
          else word quote fuel (read ++ [c]) cursor.next

def gap (cursor : Cursor) : Except Fault (List Char × Cursor) :=
  let (blank, after) := cursor.span fun c => c == ' ' || c == '\t'
  match after.peek, after.lineEnd? with
  | none, _ => .error .malformed
  | some _, none => .ok (blank, after)
  | some _, some (c, next) => do
      let (ends, next) ← emptyLines next.fuel [] next
      let first := if c != '\n' then [c] else if ends.isEmpty then [' '] else []
      return (first ++ ends, next)

def inside (quote : Char) : Nat → List Char → Cursor → Except Fault (List Char × Cursor)
  | 0, _, _ => .error .malformed
  | fuel + 1, read, cursor => do
      let (part, cursor) ← word quote cursor.fuel [] cursor
      if cursor.peek = some quote then return (read ++ part, cursor.next)
      else
        let (blank, cursor) ← gap cursor
        inside quote fuel (read ++ part ++ blank) cursor

def read (quote : Char) (cursor : Cursor) : Except Fault (List Char × Cursor) :=
  inside quote cursor.fuel [] cursor.next

end Quotation

end BuildPipeline.Document.Yaml
