import BuildPipeline.Text.Basic

namespace BuildPipeline.CommandLine

structure OptionName where
  long : String
  letter : Option Char := none
  takesValue : Bool := true

structure Arguments where
  positional : List String := []
  options : List (String × String) := []
deriving DecidableEq, Repr

namespace Arguments

def give (option : OptionName) (value : String) (arguments : Arguments) : Arguments :=
  { arguments with options := arguments.options ++ [(option.long, value)] }

def place (word : String) (arguments : Arguments) : Arguments :=
  { arguments with positional := arguments.positional ++ [word] }

/-- Letters in a row are options of their own, up to one that takes a value: what is left
of the word is that value, or else the next word.  The result says whether the next word
was used. -/
def letters (known : List OptionName) (next : Option String) :
    List Char → Arguments → Option (Arguments × Bool)
  | [], arguments => some (arguments, false)
  | letter :: rest, arguments =>
      match known.find? fun option => option.letter == some letter with
      | none => none
      | some option =>
          if !option.takesValue then letters known next rest (arguments.give option "")
          else if !rest.isEmpty then
            some (arguments.give option (String.ofList rest), false)
          else next.map fun value => (arguments.give option value, true)

def long (known : List OptionName) (next : Option String) (word : String)
    (arguments : Arguments) :
    Option (Arguments × Bool) :=
  let (name, value) := Text.cut '=' word
  match known.find? (fun option => option.long == name), value with
  | none, _ => none
  | some option, some value =>
      if option.takesValue then some (arguments.give option value, false) else none
  | some option, none =>
      if option.takesValue then next.map fun value => (arguments.give option value, true)
      else some (arguments.give option "", false)

/-- Options and other words may be mixed; after two dashes every word is taken as it is. -/
def read (known : List OptionName) : List String → Arguments → Option Arguments
  | [], arguments => some arguments
  | word :: rest, arguments =>
      match word.toList with
      | ['-', '-'] =>
          some (rest.foldl (fun arguments word => arguments.place word) arguments)
      | '-' :: '-' :: _ => more (long known rest.head? word arguments) rest
      | '-' :: first :: others =>
          more (letters known rest.head? (first :: others) arguments) rest
      | _ => read known rest (arguments.place word)
where
  more (taken : Option (Arguments × Bool)) (rest : List String) : Option Arguments :=
    match taken, rest with
    | none, _ => none
    | some (arguments, true), _ :: rest => read known rest arguments
    | some (arguments, _), rest => read known rest arguments

def has (arguments : Arguments) (name : String) : Bool :=
  arguments.options.any fun option => option.1 == name

def all (arguments : Arguments) (name : String) : List String :=
  (arguments.options.filter fun option => option.1 == name).map (·.2)

/-- Of several values for one option the last one counts. -/
def last? (arguments : Arguments) (name : String) : Option String :=
  (arguments.all name).getLast?

end Arguments

end BuildPipeline.CommandLine
