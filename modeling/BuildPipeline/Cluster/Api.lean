import BuildPipeline.Cluster.Client
import BuildPipeline.Document.Json.Reader

namespace BuildPipeline

open Document

variable {σ : Type}

/-! Requests to the server of a cluster, and what comes of one: a response, a failure of
the connection, or a failure that no repetition would mend. -/

structure ApiRequest where
  method : String
  path : String
  body : Option Value := none

inductive ApiReply where
  | response (status : Int) (body : String)
  | lost (message : String)
  | refused (failure : Failure)

/-- What carries requests.  `pause` waits; on behalf of a run it says whether the run is
cancelled by then, and otherwise it is never cut short. -/
structure Transport (σ : Type) where
  send : ApiRequest → σ → ApiReply × σ
  pause : Bool → Float → σ → Bool × σ

/-- A server, and how patient its client is: the number of repetitions of a failed
request, the first delay, the longest delay, and the time between two looks at a pod, in
seconds. -/
structure Api where
  baseUrl : String
  token : Option String := none
  verify : Value := .bool true
  retries : Int := 5
  backoff : Float := 0.5
  maxBackoff : Float := 10.0
  pollInterval : Float := 5.0

/-- The server's state, with every object that was created through the client. -/
structure ApiWorld (σ : Type) where
  transport : σ
  created : List Value := []

namespace Api

def ofUrl (url : String) : Api :=
  { baseUrl := Text.trimEnd (· == '/') url }

def authorization? (api : Api) : Option String :=
  (api.token.filter (· ≠ "")).map ("Bearer " ++ ·)

def url (api : Api) (request : ApiRequest) : String :=
  api.baseUrl ++ request.path

def resources : List (String × String × String) :=
  [("Pod", "/api/v1", "pods"), ("Secret", "/api/v1", "secrets"),
    ("ImageStream", "/apis/image.openshift.io/v1", "imagestreams")]

def resource (kind : Value) : Except Failure (String × String) :=
  if kind.isKey then
    match resources.find? fun entry => kind.sameKey (.string entry.1) with
    | some (_, root, plural) => .ok (root, plural)
    | none => .error (.cluster ("unsupported kind " ++ kind.quoted) none)
  else .error (.misuse .wrongType)

def path (kind : Value) (project name : String) : Except Failure String := do
  let (root, plural) ← resource kind
  return root ++ "/namespaces/" ++ project ++ "/" ++ plural
    ++ (if name = "" then "" else "/" ++ name)

/-- The delays double from one repetition to the next, up to the longest.  They can be
doubled for as long as a double holds the power of two, whether or not the longest delay
is reached. -/
def doublingLimit : Nat := 1024

def delay (api : Api) (repetition : Nat) : Float :=
  let doubled := api.backoff * Float.ofNat (Nat.pow 2 repetition)
  if doubled < api.maxBackoff then doubled else api.maxBackoff

def unreadable : Json.Fault → Failure
  | .undecodable => .misuse .undecodable
  | .tooLong count => .value ((Decimal.Unread.tooLong count).message 10 "")
  | .tooDeep => .misuse .tooDeep

/-! The message of an unsuccessful response: the one in its body, or the start of the
body.  Only a body with too many brackets inside each other has none. -/

def excerptLimit : Nat := 200

def bodyMessage? (body : String) : Option Value :=
  match Json.read body with
  | .ok (.mapping entries) =>
      (Entries.get? entries (.string "message")).filter Value.isTrue
  | _ => none

def isTooDeep (body : String) : Bool :=
  match Json.read body with
  | .error .tooDeep => true
  | _ => false

def errorText (status : Int) (body : String) : String :=
  toString status ++ ": "
    ++ (match bodyMessage? body with
        | some message => message.text
        | none => Text.first excerptLimit body)

/-- What a reply means for the attempt of that number: an answer, a failure, or one more
attempt. -/
inductive Verdict where
  | answer (value : Value)
  | failure (failure : Failure)
  | again (message : String)

def judgeResponse (patientWithMissing : Bool) (attempt : Nat) (status : Int)
    (body : String) : Verdict :=
  if status < 400 then
    match Json.read body with
    | .ok value => .answer value
    | .error fault => .failure (unreadable fault)
  else if isTooDeep body then .failure (.misuse .tooDeep)
  else
    let message := errorText status body
    if status = 404 then
      if patientWithMissing then .again message
      else .failure (.notFound message (some status))
    else if status = 409 then .failure (.alreadyExists message (some status) (0 < attempt))
    else if status = 429 ∨ 500 ≤ status then .again message
    else .failure (.cluster message (some status))

def judge (patientWithMissing : Bool) (attempt : Nat) : ApiReply → Verdict
  | .response status body => judgeResponse patientWithMissing attempt status body
  | .lost message => .again message
  | .refused failure => .failure failure

def exhausted (api : Api) (request : ApiRequest) (last : String) : Failure :=
  .transient
    (request.method ++ " " ++ request.path ++ " failed after " ++ toString (api.retries + 1)
      ++ " attempts: " ++ last) none

def backoffCancelled : Failure :=
  .cancelled "cancelled while backing off from the cluster API"

def pauseBefore (api : Api) (transport : Transport σ) (heeds : Bool) (attempt : Nat)
    (world : σ) : Except Failure Unit × σ :=
  match attempt with
  | 0 => (.ok (), world)
  | repetition + 1 =>
      if repetition < doublingLimit then
        match transport.pause heeds (api.delay repetition) world with
        | (true, world) => (.error backoffCancelled, world)
        | (false, world) => (.ok (), world)
      else (.error (.misuse .overflow), world)

def attempts (api : Api) (transport : Transport σ) (heeds patientWithMissing : Bool)
    (request : ApiRequest) : Nat → Nat → String → σ → Except Failure Value × σ
  | 0, _, last, world => (.error (api.exhausted request last), world)
  | left + 1, attempt, _, world =>
      match api.pauseBefore transport heeds attempt world with
      | (.error failure, world) => (.error failure, world)
      | (.ok _, world) =>
          match transport.send request world with
          | (reply, world) =>
              match judge patientWithMissing attempt reply with
              | .answer value => (.ok value, world)
              | .failure failure => (.error failure, world)
              | .again message =>
                  attempts api transport heeds patientWithMissing request left (attempt + 1)
                    message world

def perform (api : Api) (transport : Transport σ) (heeds patientWithMissing : Bool)
    (request : ApiRequest) (world : σ) : Except Failure Value × σ :=
  api.attempts transport heeds patientWithMissing request (api.retries + 1).toNat 0 "" world

/-- Reading an object is repeated while it is missing, for a cluster converges slowly. -/
def get (api : Api) (transport : Transport σ) (heeds : Bool) (object : ObjectName)
    (world : ApiWorld σ) : Except Failure Value × ApiWorld σ :=
  match path (.string object.kind) object.project object.name with
  | .error failure => (.error failure, world)
  | .ok path =>
      let (outcome, transport) :=
        api.perform transport heeds true { method := "GET", path } world.transport
      (outcome, { world with transport })

def creationPath (object : Value) : Except Failure String := do
  let metadata ← asked (object.field "metadata")
  let kind ← asked (object.subscript "kind")
  let project ← asked ((metadata.orElse (.mapping [])).subscript "namespace")
  path kind project.text ""

/-- A conflict met on a repetition may come from an attempt whose answer was lost, so the
object counts as created. -/
def isOwnConflict : Failure → Bool
  | .alreadyExists _ _ afterRetry => afterRetry
  | _ => false

def create (api : Api) (transport : Transport σ) (heeds : Bool) (object : Value)
    (world : ApiWorld σ) : Except Failure Value × ApiWorld σ :=
  match creationPath object with
  | .error failure => (.error failure, world)
  | .ok path =>
      let request : ApiRequest := { method := "POST", path, body := some object }
      match api.perform transport heeds false request world.transport with
      | (.ok value, transport) =>
          (.ok value, { transport, created := world.created ++ [value] })
      | (.error failure, transport) =>
          let created :=
            if isOwnConflict failure then world.created ++ [object] else world.created
          (.error failure, { transport, created })

def client (api : Api) (transport : Transport σ) (heeds : Bool) :
    ClusterClient (ApiWorld σ) where
  get inRun object world :=
    let (outcome, world) := api.get transport (heeds && inRun) object world
    (outcome.mapError Error.ofFailure, world)
  create object world :=
    let (outcome, world) := api.create transport heeds object world
    (outcome.mapError Error.ofFailure, world)
  pause world :=
    let (cancelled, transport) := transport.pause heeds api.pollInterval world.transport
    (cancelled, { world with transport })

end Api

end BuildPipeline
