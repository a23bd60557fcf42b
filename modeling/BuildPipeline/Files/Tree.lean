import BuildPipeline.Document.Yaml.Building
import BuildPipeline.Error.Failure
import BuildPipeline.Table
import BuildPipeline.Text.Basic

namespace BuildPipeline

open Document

inductive Path.Start where
  | current
  | top
  | elsewhere
deriving DecidableEq, Repr

/-- A path is a start and the names on the way from there; two points lead one directory
up. -/
structure Path where
  start : Path.Start := .current
  names : List String := []
deriving DecidableEq, Repr

namespace Path

def up : String := ".."

/-- Slashes in a row count as one, and a name of one point leads nowhere. -/
def namesIn (text : String) : List String :=
  (Text.pieces '/' text).filter fun name => name != "" && name != "."

def ofText (top text : String) : Path :=
  if (text = top ∧ top ≠ "") ∨ Text.startsWith (top ++ "/") text then
    ⟨.top, namesIn (String.ofList (text.toList.drop top.length))⟩
  else if Text.startsWith "/" text then ⟨.elsewhere, namesIn text⟩
  else ⟨.current, namesIn text⟩

def isBroken (name : String) : Bool :=
  name.toList.contains (Char.ofNat 0)

def hasBrokenName (path : Path) : Bool :=
  path.names.any isBroken

def joined (names : List String) : String :=
  String.intercalate "/" names

def text (top : String) (path : Path) : String :=
  match path.start with
  | .current => if path.names.isEmpty then "." else joined path.names
  | .top => if path.names.isEmpty && top != "" then top else top ++ "/" ++ joined path.names
  | .elsewhere => "/" ++ joined path.names

def under (directory path : Path) : Path :=
  match path.start with
  | .current => { directory with names := directory.names ++ path.names }
  | _ => path

end Path

/-- A tree of directories and files.  Each is known by the names on the way from the top,
which is always there. -/
structure Files where
  top : String
  current : List String := []
  directories : List (List String) := []
  contents : List (List String × String) := []

namespace Files

def isDirectory (files : Files) (place : List String) : Bool :=
  place.isEmpty || files.directories.contains place

def content? (files : Files) (place : List String) : Option String :=
  files.contents.lookup place

inductive Obstacle where
  | missing
  | blocked
deriving DecidableEq, Repr

/-- The place that a path leads to when each step is taken in the tree, and when the names
alone count.  The last name on the way need not be there. -/
def walk (files : Files) : List String → List String → Except Obstacle (List String)
  | place, [] => .ok place
  | place, name :: rest =>
      if files.isDirectory place then
        if name = Path.up then
          if place = [] then .error .missing else walk files place.dropLast rest
        else walk files (place ++ [name]) rest
      else if (files.content? place).isSome then .error .blocked
      else .error .missing

def shorten : List String → List String → Option (List String)
  | place, [] => some place
  | place, name :: rest =>
      if name = Path.up then if place = [] then none else shorten place.dropLast rest
      else shorten (place ++ [name]) rest

def start? (files : Files) : Path.Start → Option (List String)
  | .current => some files.current
  | .top => some []
  | .elsewhere => none

def find? (files : Files) (path : Path) : Option (List String) := do
  (files.walk (← files.start? path.start) path.names).toOption

def resolve? (files : Files) (path : Path) : Option (List String) := do
  shorten (← files.start? path.start) path.names

/-! Reading a text: every line ends with a line feed, whatever ended it in the file. -/

def plainEnds : List Char → List Char
  | [] => []
  | '\r' :: '\n' :: rest => '\n' :: plainEnds rest
  | '\r' :: rest => '\n' :: plainEnds rest
  | c :: rest => c :: plainEnds rest

def read? (files : Files) (path : Path) : Option String := do
  let content ← files.content? (← files.find? path)
  return String.ofList (plainEnds content.toList)

def doesExist (files : Files) (path : Path) : Bool :=
  match files.find? path with
  | some place => files.isDirectory place || (files.content? place).isSome
  | none => false

def ancestors : List String → List (List String)
  | [] => []
  | name :: rest => (ancestors rest).map (name :: ·) ++ [[]]

def wayTo (place : List String) : List (List String) :=
  place :: ancestors place

/-- Directories are made with all that are missing above them, unless a file is in the
way. -/
def makeDirectory? (files : Files) (place : List String) : Option Files :=
  let way := wayTo place
  if way.any fun above => (files.content? above).isSome then none
  else
    some
      { files with
        directories :=
          files.directories ++ way.filter fun above => !files.isDirectory above }

def put? (files : Files) (place : List String) (content : String) : Option Files := do
  let files ← files.makeDirectory? place.dropLast
  if files.isDirectory place then none
  else
    some
      { files with
        contents :=
          (place, content) :: files.contents.filter fun entry => entry.1 != place }

def write? (files : Files) (path : Path) (content : String) : Option Files := do
  files.put? (← files.resolve? path) content

def makeAll (directories : List Path) (contents : List (Path × String)) (files : Files) :
    Files :=
  let made := directories.foldl
    (fun files path => ((files.resolve? path).bind files.makeDirectory?).getD files) files
  contents.foldl (fun files entry => (files.write? entry.1 entry.2).getD files) made

/-- Making a directory along a path in the tree, where `names` lead from a place.  One
that is there already will do, and where a step is missing the way to it is made first. -/
def makeStep (files : Files) (start names : List String) : Except Obstacle Files := do
  let place ← files.walk start names
  if files.isDirectory place then return files
  else if (files.content? place).isSome then throw .blocked
  else return { files with directories := files.directories ++ [place] }

def makeWay (start : List String) : List String → Files → Except Obstacle Unit × Files
  | [], files => (.ok (), files)
  | name :: before, files =>
      let names := (name :: before).reverse
      match files.makeStep start names with
      | .ok files => (.ok (), files)
      | .error .blocked => (.error .blocked, files)
      | .error .missing =>
          match makeWay start before files with
          | (.error obstacle, files) => (.error obstacle, files)
          | (.ok _, files) =>
              match files.makeStep start names with
              | .ok files => (.ok (), files)
              | .error obstacle => (.error obstacle, files)

/-! Putting a text into a file, whose directory is made if it is missing.  Where that
fails, some of the way may have been made. -/

inductive Refusal where
  | unwritable
  | brokenDirectory
  | brokenName
deriving DecidableEq, Repr

def fillIn (files : Files) (start names : List String) (content : String) :
    Except Refusal Unit × Files :=
  match files.walk start names with
  | .error _ => (.error .unwritable, files)
  | .ok place =>
      if files.isDirectory place then (.error .unwritable, files)
      else
        (.ok (),
          { files with
            contents :=
              (place, content) :: files.contents.filter fun entry => entry.1 != place })

def save (files : Files) (path : Path) (content : String) : Except Refusal Unit × Files :=
  match files.start? path.start, path.names.reverse with
  | some start, name :: before =>
      if before.any Path.isBroken then (.error .brokenDirectory, files)
      else
        match makeWay start before files with
        | (.error _, files) => (.error .unwritable, files)
        | (.ok _, files) =>
            if Path.isBroken name then (.error .brokenName, files)
            else files.fillIn start path.names content
  | _, _ => (.error .unwritable, files)

def brokenName : Failure :=
  .value "embedded null byte"

def brokenDirectory : Failure :=
  .value "mkdir: embedded null character in path"

def brokenStart : Failure :=
  .value "lstat: embedded null character in path"

/-! The text and the document that a file holds.  `unreadable` is the failure where there
is no such file, or where it holds no document. -/

def text (files : Files) (path : Path) (unreadable : Failure) : Except Failure String :=
  if path.hasBrokenName then .error brokenName
  else
    match files.read? path with
    | some text => .ok text
    | none => .error unreadable

def ofFault (unreadable : Failure) : Yaml.Fault → Failure
  | .malformed => unreadable
  | .noSuchValue message => .value message
  | .misuse misuse => .misuse misuse

def document (files : Files) (path : Path) (unreadable : Failure) :
    Except Failure Value := do
  let text ← files.text path unreadable
  (Yaml.read text).mapError (ofFault unreadable)

end Files

end BuildPipeline
