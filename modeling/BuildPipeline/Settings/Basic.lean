import BuildPipeline.Decimal.Whole
import BuildPipeline.Document.Yaml.Writer
import BuildPipeline.Error.Failure
import BuildPipeline.Files.Tree
import BuildPipeline.Text.Case
import BuildPipeline.Text.Lines

namespace BuildPipeline

open Document

namespace Repository

def settingsDirectory : String := ".cigraph"

def historyDirectory : String := ".git"

def isRoot (files : Files) (place : List String) : Bool :=
  files.isDirectory (place ++ [settingsDirectory])
    && files.isDirectory (place ++ [historyDirectory])

def root? (files : Files) (start : Path) : Except Failure (Option (List String)) :=
  if start.hasBrokenName then .error Files.brokenStart
  else .ok ((files.resolve? start).bind fun place =>
    (Files.wayTo place).find? (isRoot files))

def settingsPath (root : List String) : Path :=
  ⟨.top, root ++ [settingsDirectory, "config"]⟩

def settingsPath? (files : Files) (start : Path) : Except Failure (Option Path) :=
  (root? files start).map fun root => root.map settingsPath

end Repository

namespace Settings

/-! A setting used as a number.  Flags count as zero and one, texts and bytes are read,
and a double used as a whole number loses its fraction. -/

def character (byte : UInt8) : Char :=
  if byte.toNat < 0x80 then Text.Quoted.byteChar byte else Char.ofNat 0xfffd

def characters (bytes : List UInt8) : String :=
  String.ofList (bytes.map character)

def readWhole (content : String) (shown : String) : Except Failure Int :=
  (Decimal.readWhole 10 content).mapError fun unread => .value (unread.message 10 shown)

def readReal (content : String) (shown : String) : Except Failure Float :=
  match Decimal.readFloat? content with
  | some x => .ok x
  | none => .error (.value ("could not convert string to float: " ++ shown))

def whole : Value → Except Failure Int
  | .bool flag => .ok (if flag then 1 else 0)
  | .int number => .ok number
  | .float x =>
      match Decimal.truncate? x with
      | some number => .ok number
      | none =>
          if x.isNaN then .error (.value "cannot convert float NaN to integer")
          else .error (.misuse .overflow)
  | .string content => readWhole content (Text.quoted content)
  | .bytes content => readWhole (characters content) (Text.quotedBytes content)
  | _ => .error (.misuse .wrongType)

def real : Value → Except Failure Float
  | .bool flag => .ok (if flag then 1.0 else 0.0)
  | .int number =>
      let x := Decimal.toFloat (number < 0) number.natAbs 0
      if x.isInf then .error (.misuse .overflow) else .ok x
  | .float x => .ok x
  | .string content => readReal content (Text.quoted content)
  | .bytes content => readReal (characters content) (Text.quotedBytes content)
  | _ => .error (.misuse .wrongType)

end Settings

/-- The settings of whoever runs a pipeline.  They are read and written in one file;
layered settings fall back on the global file for what that one leaves out. -/
structure Settings where
  path : Path
  globalPath : Path
  isLayered : Bool := true
  own : Entries := []
  inherited : Entries := []

namespace Settings

/-! A file that holds nothing, or nothing but an empty value, has no entries. -/

def unloaded (files : Files) (path : Path) : Failure :=
  .runtime ("Failed to load config from " ++ path.text files.top
    ++ ": not a readable document")

def entriesOf (files : Files) (path : Path) (document : Value) : Except Failure Entries :=
  if !document.isTrue then .ok []
  else
    match document.bare with
    | .mapping entries => .ok entries
    | _ => .error (.runtime ("Config at " ++ path.text files.top ++ " must be a mapping"))

def readEntries (files : Files) (path : Path) : Except Failure Entries := do
  entriesOf files path (← files.document path (unloaded files path))

def entriesAt (files : Files) (path : Path) : Except Failure Entries :=
  if files.doesExist path then readEntries files path else .ok []

/-! Reading both files anew.  If one of them cannot be read, what was read before it
counts. -/

def fallsBack (settings : Settings) : Bool :=
  settings.isLayered && settings.path != settings.globalPath

def load (files : Files) (settings : Settings) : Except Failure Unit × Settings :=
  match entriesAt files settings.path with
  | .error failure => (.error failure, settings)
  | .ok own =>
      let alone := { settings with own, inherited := [] }
      if settings.fallsBack then
        match entriesAt files settings.globalPath with
        | .error failure => (.error failure, alone)
        | .ok inherited => (.ok (), { alone with inherited })
      else (.ok (), alone)

def ofFiles (files : Files) (path globalPath : Path) (isLayered : Bool) :
    Except Failure Settings :=
  let (outcome, settings) := load files { path, globalPath, isLayered }
  outcome.map fun _ => settings

/-- The settings that apply at a directory: layered ones inside a repository, else the
global ones. -/
def ofDirectory (files : Files) (globalPath start : Path) : Except Failure Settings := do
  match ← Repository.settingsPath? files start with
  | some path => ofFiles files path globalPath true
  | none => ofFiles files globalPath globalPath false

def get? (settings : Settings) (key : Value) : Option Value :=
  Entries.get? settings.own key <|> Entries.get? settings.inherited key

def get (settings : Settings) (key : String) (default : Value := .null) : Value :=
  (settings.get? (.string key)).getD default

def set (settings : Settings) (key : String) (value : Value) : Settings :=
  { settings with own := Entries.put settings.own (.string key) value }

/-! Saving the settings of the first file.  A number that cannot be written leaves it
empty. -/

def unsaved (files : Files) (path : Path) : Files.Refusal → Failure
  | .unwritable =>
      .runtime ("Failed to save config to " ++ path.text files.top
        ++ ": not a writable file")
  | .brokenDirectory => Files.brokenDirectory
  | .brokenName => Files.brokenName

def save (files : Files) (settings : Settings) : Except Failure Unit × Files :=
  let written := (Value.mapping settings.own).written
  let content := if written.isOk then Yaml.write settings.own else ""
  match files.save settings.path content with
  | (.error refusal, files) => (.error (unsaved files settings.path refusal), files)
  | (.ok _, files) => (written.map fun _ => (), files)

def usualParallelism : Int := 4

def parallelism (settings : Settings) : Except Failure Int :=
  whole (settings.get "parallelism" (.int usualParallelism))

def timeout (settings : Settings) : Except Failure (Option Float) :=
  let value := settings.get "timeout"
  if value.isTrue then (real value).map some else .ok none

def refusals : List String :=
  ["0", "false", "no", "off"]

def verifiesTls (settings : Settings) : Bool :=
  match settings.get "verify_tls" (.bool true) with
  | .string content => !refusals.contains (Text.lower (Text.trimBlank content))
  | value => value.isTrue

def clusterUrl (settings : Settings) : Value :=
  settings.get "cluster_url"

def reportUrl (settings : Settings) : Value :=
  settings.get "report_url"

def tokenFile (settings : Settings) : Value :=
  settings.get "token_file"

/-- A setting as the program understands it: three have a form of their own. -/
def understood (settings : Settings) : String → Except Failure Value
  | "parallelism" => settings.parallelism.map .int
  | "timeout" => settings.timeout.map fun seconds => Value.ofOption (seconds.map .float)
  | "verify_tls" => .ok (.bool settings.verifiesTls)
  | key => .ok (settings.get key)

/-! The token that the cluster asks for stands in a file of its own.  A path into the home
directory of a user leads out of the tree; the user has to be one that a system knows. -/

def knownUsers : List String :=
  ["", "root", "daemon", "bin", "sys", "sync", "games", "man", "lp", "mail", "news",
   "uucp", "proxy", "www-data", "backup", "list", "irc", "_apt", "nobody"]

def homePath (user : String) (names : List String) : Except Failure Path :=
  if Path.isBroken user then .error Files.brokenName
  else if knownUsers.contains user then .ok ⟨.elsewhere, names⟩
  else .error (.runtime "Could not determine home directory.")

def tokenPath (files : Files) (text : String) : Except Failure Path :=
  let path := Path.ofText files.top text
  match path.start, path.names.map String.toList with
  | .current, ('~' :: user) :: _ => homePath (String.ofList user) path.names
  | _, _ => .ok path

def untold (text : String) : Failure :=
  .configuration ("Failed to read token from " ++ text ++ ": not a readable file")

def token (files : Files) (settings : Settings) : Except Failure (Option String) := do
  let file := settings.tokenFile
  if !file.isTrue then return none
  match file with
  | .string text =>
      let path ← tokenPath files text
      let content ← files.text path (untold text)
      return some (Text.trimBlank content)
  | _ => throw (.misuse .wrongType)

end Settings

end BuildPipeline
