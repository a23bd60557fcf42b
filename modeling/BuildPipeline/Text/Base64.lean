namespace BuildPipeline.Text

/-! Bytes as text.  Each letter stands for six bits, and the last group of four is filled
up with marks. -/

namespace Base64

def letters : List Char :=
  "ABCDEFGHIJKLMNOPQRSTUVWXYZabcdefghijklmnopqrstuvwxyz0123456789+/".toList

def fill : Char := '='

def letter (bits : Nat) : Char :=
  letters.getD bits fill

def bitsOf? (c : Char) : Option Nat :=
  letters.idxOf? c

def encode : List UInt8 → List Char
  | [] => []
  | [a] =>
      let n := a.toNat * 16
      [letter (n / 64), letter (n % 64), fill, fill]
  | [a, b] =>
      let n := (a.toNat * 256 + b.toNat) * 4
      [letter (n / 4096), letter (n / 64 % 64), letter (n % 64), fill]
  | a :: b :: c :: rest =>
      let n := (a.toNat * 256 + b.toNat) * 256 + c.toNat
      letter (n / 262144) :: letter (n / 4096 % 64) :: letter (n / 64 % 64)
        :: letter (n % 64) :: encode rest

/-- Reading skips what is no letter.  `count` letters of the group have been read, `rest`
is what they leave over of the bytes so far, and `fills` is how many marks stand after
them; the marks that complete a group end the text. -/
def decodeFrom (count rest fills : Nat) : List Char → Option (List UInt8)
  | [] => if count = 0 then some [] else none
  | c :: text =>
      if c = fill then
        if count < 2 then decodeFrom count rest fills text
        else if 4 ≤ count + fills + 1 then some []
        else decodeFrom count rest (fills + 1) text
      else
        match bitsOf? c with
        | none => decodeFrom count rest fills text
        | some bits =>
            match count with
            | 0 => decodeFrom 1 bits 0 text
            | 1 =>
                (decodeFrom 2 (bits % 16) 0 text).map
                (UInt8.ofNat (rest * 4 + bits / 16) :: ·)
            | 2 =>
                (decodeFrom 3 (bits % 4) 0 text).map
                (UInt8.ofNat (rest * 16 + bits / 4) :: ·)
            | _ => (decodeFrom 0 0 0 text).map (UInt8.ofNat (rest * 64 + bits) :: ·)

def decode? (text : List Char) : Option (List UInt8) :=
  decodeFrom 0 0 0 text

example : encode [104, 105] = ['a', 'G', 'k', '='] := by decide

example : decode? ['a', 'G', '\n', 'k', '='] = some [104, 105] := by decide

example : decode? ['a', 'G', 'k'] = none := by decide

end Base64

end BuildPipeline.Text
