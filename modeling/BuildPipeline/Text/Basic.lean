namespace BuildPipeline.Text

/-! Cutting a text at a separator.  `cutAt` stops at the first one, `piecesAt` at every
one. -/

def cutAt (sep : Char) : List Char → List Char × Option (List Char)
  | [] => ([], none)
  | c :: rest =>
      if c = sep then ([], some rest)
      else ((c :: (cutAt sep rest).1), (cutAt sep rest).2)

def piecesAt (sep : Char) : List Char → List (List Char)
  | [] => [[]]
  | c :: rest =>
      if c = sep then [] :: piecesAt sep rest
      else
        match piecesAt sep rest with
        | [] => [[c]]
        | piece :: others => (c :: piece) :: others

def cut (sep : Char) (text : String) : String × Option String :=
  let (before, after) := cutAt sep text.toList
  (String.ofList before, after.map String.ofList)

def pieces (sep : Char) (text : String) : List String :=
  (piecesAt sep text.toList).map String.ofList

@[simp] theorem cutAt_self (sep : Char) (rest : List Char) :
    cutAt sep (sep :: rest) = ([], some rest) := by
  simp [cutAt]

theorem cutAt_cons_of_ne {sep c : Char} (h : c ≠ sep) (rest : List Char) :
    cutAt sep (c :: rest) = (c :: (cutAt sep rest).1, (cutAt sep rest).2) := by
  simp [cutAt, h]

def occursIn (part : List Char) : List Char → Bool
  | [] => part.isEmpty
  | c :: rest => part.isPrefixOf (c :: rest) || occursIn part rest

def replaceFirstIn (old new : List Char) : List Char → List Char
  | [] => if old.isEmpty then new else []
  | c :: rest =>
      if old.isPrefixOf (c :: rest) then new ++ (c :: rest).drop old.length
      else c :: replaceFirstIn old new rest

def contains (part whole : String) : Bool :=
  occursIn part.toList whole.toList

def replaceFirst (old new whole : String) : String :=
  String.ofList (replaceFirstIn old.toList new.toList whole.toList)

def startsWith (start whole : String) : Bool :=
  start.toList.isPrefixOf whole.toList

def trimEndIn (drop : Char → Bool) (text : List Char) : List Char :=
  (text.reverse.dropWhile drop).reverse

def trimIn (drop : Char → Bool) (text : List Char) : List Char :=
  trimEndIn drop (text.dropWhile drop)

def trimEnd (drop : Char → Bool) (text : String) : String :=
  String.ofList (trimEndIn drop text.toList)

def trim (drop : Char → Bool) (text : String) : String :=
  String.ofList (trimIn drop text.toList)

def first (count : Nat) (text : String) : String :=
  String.ofList (text.toList.take count)

def sort (texts : List String) : List String :=
  texts.mergeSort (fun a b => decide (a ≤ b))

def sortByKey (entries : List (String × α)) : List (String × α) :=
  entries.mergeSort (fun a b => decide (a.1 ≤ b.1))

theorem sort_perm (texts : List String) : (sort texts).Perm texts :=
  List.mergeSort_perm texts _

def padded (width n : Nat) : String :=
  let digits := Nat.toDigits 10 n
  String.ofList (List.replicate (width - digits.length) '0' ++ digits)

def commaSeparated (texts : List String) : String :=
  String.intercalate ", " texts

end BuildPipeline.Text
