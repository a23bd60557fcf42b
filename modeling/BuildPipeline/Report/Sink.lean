import BuildPipeline.Document.Json.Writer
import BuildPipeline.Execution.Environment
import BuildPipeline.Table
import BuildPipeline.Text.Case
import BuildPipeline.Text.Lines

namespace BuildPipeline

open Document

namespace Event

def kind : Event → String
  | .pipelineStart _ => "pipeline_start"
  | .stepStart _ => "step_start"
  | .failure _ _ => "error"
  | .stepEnd _ _ => "step_end"
  | .pipelineEnd _ => "pipeline_end"

def scope? : Event → Option String
  | .stepStart name | .stepEnd name _ => some name
  | .failure scope _ => some scope
  | _ => none

end Event

/-- A service that collects the outcomes of runs.  Every event but the start of a step is
posted to the path of its kind. -/
structure Sink where
  baseUrl : String
  headers : List (String × String) := [("Content-Type", "application/json")]
  timeout : Value := .float 10.0
  paths : List (String × String) := []

structure Post where
  url : String
  event : String
  payload : Value
  headers : List (String × String)
  timeout : Value

namespace Post

def body (post : Post) : String :=
  Json.write Json.spaced
    (.object [("event", .string post.event), ("payload", post.payload)])

end Post

namespace Sink

/-- Settings that are absent or empty leave the usual ones in place. -/
def ofSettings (baseUrl : String) (headers : List (String × String)) (timeout : Value)
    (paths : List (String × String)) : Sink :=
  let usual : Sink := { baseUrl := Text.trimEnd (· == '/') baseUrl }
  { usual with
    headers := if headers.isEmpty then usual.headers else headers
    timeout := timeout.orElse usual.timeout
    paths }

def payload? : Event → Option Value
  | .pipelineStart names => some (.object [("steps", Value.texts names)])
  | .stepStart _ => none
  | .failure scope error =>
      some (.object [("scope", .string scope), ("error", .string error.message)])
  | .stepEnd _ result => some result.document
  | .pipelineEnd result => some result.document

/-- An address without blanks around, without angle brackets, and without the mark
`URL:`. -/
def unwrap (address : String) : String :=
  let bare := Text.trimBlank address
  let inner :=
    match bare.toList with
    | '<' :: rest =>
        if rest.getLast? = some '>' then Text.trimBlank
          (String.ofList rest.dropLast) else bare
    | _ => bare
  if Text.startsWith "URL:" inner then Text.trimBlank (String.ofList (inner.toList.drop 4))
  else inner

/-- An address has a scheme if a colon follows at least one character, none of them a
slash. -/
def hasScheme (address : String) : Bool :=
  let (scheme, rest) := Text.cut ':' address
  rest.isSome && scheme != "" && !Text.contains "/" scheme

def withoutFragment (address : String) : String :=
  let (fragment, rest) := Text.cutAt '#' address.toList.reverse
  match rest with
  | some before => if fragment.isEmpty then address else String.ofList before.reverse
  | none => address

/-- Of two headers whose names differ in case alone the later one counts. -/
def sentHeaders (headers : List (String × String)) : List (String × String) :=
  Table.ofPairs (headers.map fun header => (Text.lower header.1, header.2))

def path (sink : Sink) (kind : String) : String :=
  (Table.get? sink.paths kind).getD ("/" ++ kind)

def request (sink : Sink) (event : Event) (payload : Value) : Except Failure Post :=
  let address := unwrap (sink.baseUrl ++ sink.path event.kind)
  if hasScheme (withoutFragment address) then
    pure
      { url := address, event := event.kind, payload
        headers := sentHeaders sink.headers, timeout := sink.timeout }
  else .error (.value ("unknown url type: " ++ Text.quoted address))

def post? (sink : Sink) (event : Event) : Option (Except Failure Post) :=
  (payload? event).map (sink.request event)

end Sink

end BuildPipeline
