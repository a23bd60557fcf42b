import BuildPipeline.Cluster.Api
import BuildPipeline.CommandLine.Program

namespace BuildPipeline.CommandLine

open Document

/-! The program: it takes a picture of the files that a command may look at, answers the
command on that picture, and writes back what has changed. -/

inductive Sight where
  | nothing
  | directory
  | file (content : String)

def look (text : String) : IO Sight := do
  try
    return .file (← IO.FS.readFile text)
  catch error =>
    match error with
    | .inappropriateType .. => return .directory
    | _ => return .nothing

def see (files : Files) (place : List String) : IO Files := do
  match ← look (Path.text files.top ⟨.top, place⟩) with
  | .nothing => return files
  | .directory => return (files.makeDirectory? place).getD files
  | .file content => return (files.put? place content).getD files

def placesOn (files : Files) (path : Path) : List (List String) :=
  (List.range (path.names.length + 1)).filterMap fun count =>
    files.resolve? { path with names := path.names.take count }

def seePath (files : Files) (path : Path) : IO Files :=
  (placesOn files path).foldlM see files

def repositoryPaths (files : Files) : List Path :=
  (Files.wayTo files.current).flatMap fun place =>
    [⟨.top, place ++ [Repository.historyDirectory]⟩, Repository.settingsPath place]

def documentPaths (files : Files) : Command → List Path
  | .promotedTags path _ => [Path.ofText files.top path]
  | .graph path _ _ => [Path.ofText files.top path]
  | .run request => [Path.ofText files.top request.path]
  | _ => []

def tokenPaths (surroundings : Surroundings) : List Path :=
  match surroundings.settings with
  | .ok settings =>
      match settings.tokenFile with
      | .string text => (Settings.tokenPath surroundings.files text).toOption.toList
      | _ => []
  | .error _ => []

def surroundings (command : Command) : IO Surroundings := do
  let current := Path.namesIn (← IO.currentDir).toString
  let home := Path.namesIn ((← IO.getEnv "HOME").getD "")
  let globalPath : Path := ⟨.top, home ++ [".cigraph.yaml"]⟩
  let files : Files := { top := "", current }
  let files ← (globalPath :: repositoryPaths files ++ documentPaths files command).foldlM
      seePath files
  let exported ← ["JOB_NAME", "BUILD_ID"].filterMapM fun name => do
    return (← IO.getEnv name).map (name, ·)
  let known : Surroundings := { files, globalPath, exported }
  return { known with files := ← (tokenPaths known).foldlM seePath files }

def writeBack (before after : Files) : IO Unit := do
  for (place, content) in after.contents do
    if before.content? place != some content then
      IO.FS.createDirAll (Path.text after.top ⟨.top, place.dropLast⟩)
      IO.FS.writeFile (Path.text after.top ⟨.top, place⟩) content

def report (before : Files) (outcome : Outcome) : IO UInt32 := do
  if let some files := outcome.files then writeBack before files
  for line in outcome.lines do
    if line.isError then IO.eprintln line.text else IO.println line.text
  return UInt32.ofNat outcome.exitCode

/-- No requests leave this program: each one is answered as one that was lost on the way. -/
def unconnected : Transport Unit where
  send request world :=
    (.lost ("no connection for " ++ request.method ++ " " ++ request.path), world)
  pause _ _ world := (false, world)

def provider (connection : Connection) : Provider (ApiWorld Unit) where
  client :=
    ({ Api.ofUrl connection.url.text with
        token := connection.token, verify := .bool connection.verify }).client
          unconnected true
  cancelled _ := false
  patience := 1

def answer (surroundings : Surroundings) : Command → Outcome
  | .run request =>
      match (surroundings.launch request).2 with
      | .error outcome => outcome
      | .ok launch => (launch.perform (provider launch.connection) { transport := () }).1
  | command => (surroundings.answer? command).getD .misused

end BuildPipeline.CommandLine

open BuildPipeline.CommandLine in
def main (words : List String) : IO UInt32 := do
  match Command.ofWords? words with
  | none => return UInt32.ofNat failedExit
  | some command =>
      let known ← surroundings command
      report known.files (answer known command)
