import BuildPipeline.Text.PrintableTable

namespace BuildPipeline.Text

def hexDigits (width code : Nat) : List Char :=
  let digits := Nat.toDigits 16 code
  List.replicate (width - digits.length) '0' ++ digits

namespace Printable

def isPrintable (c : Char) : Bool :=
  ranges.any (fun range => range.1 ≤ c.toNat && c.toNat ≤ range.2)

end Printable

/-! A quoted text stands between single quotes, or between double quotes if it holds a
single quote and no double quote.  The quote used, the backslash and what is not printable
are escaped. -/

namespace Quoted

def single : Char := Char.ofNat 39
def double : Char := Char.ofNat 34
def backslash : Char := Char.ofNat 92

def quoteFor (text : List Char) : Char :=
  if text.contains single && !text.contains double then double else single

def escape (quote c : Char) : List Char :=
  if c = quote ∨ c = backslash then [backslash, c]
  else if c = '\n' then [backslash, 'n']
  else if c = '\r' then [backslash, 'r']
  else if c = '\t' then [backslash, 't']
  else if Printable.isPrintable c then [c]
  else if c.toNat < 0x100 then backslash :: 'x' :: hexDigits 2 c.toNat
  else if c.toNat < 0x10000 then backslash :: 'u' :: hexDigits 4 c.toNat
  else backslash :: 'U' :: hexDigits 8 c.toNat

def encode (text : List Char) : List Char :=
  let quote := quoteFor text
  quote :: text.flatMap (escape quote) ++ [quote]

end Quoted

def quoted (text : String) : String :=
  String.ofList (Quoted.encode text.toList)

/-! Bytes are quoted in the same way, after a mark; each byte outside of ASCII is
escaped. -/

namespace Quoted

def byteChar (byte : UInt8) : Char := Char.ofNat byte.toNat

def escapeByte (quote : Char) (byte : UInt8) : List Char :=
  if byte.toNat < 0x80 then escape quote (byteChar byte)
  else backslash :: 'x' :: hexDigits 2 byte.toNat

end Quoted

def quotedBytes (bytes : List UInt8) : String :=
  let quote := Quoted.quoteFor (bytes.map Quoted.byteChar)
  String.ofList ('b' :: quote :: bytes.flatMap (Quoted.escapeByte quote) ++ [quote])

end BuildPipeline.Text
