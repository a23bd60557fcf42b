import BuildPipeline.Cluster.Memory
import BuildPipeline.Cluster.Pod
import BuildPipeline.Proofs.Cluster.Journal

namespace BuildPipeline

open Document

variable {σ : Type} {held : σ → ObjectName → Prop}

/-- An attempt by which an object of a name comes into being. -/
def Attempt.Stores (held : σ → ObjectName → Prop) (name : ObjectName)
    (attempt : Attempt σ) : Prop :=
  ¬ held attempt.before name ∧ held attempt.after name

instance (name : ObjectName) (attempt : Attempt σ) [∀ world, Decidable (held world name)] :
    Decidable (attempt.Stores held name) :=
  inferInstanceAs (Decidable (_ ∧ _))

def creation (object : Value) (path : String) : ApiRequest where
  method := "POST"
  path := path
  body := some object

/-- A server that holds objects.  It answers a creation with the object, with a conflict
if the object is there already, or in another way; its answer may be lost, or not be
readable. -/
structure Transport.Keeps (transport : Transport σ) (held : σ → ObjectName → Prop)
    (object : Value) (name : ObjectName) : Prop where
  answers : ∀ request world refusal, (transport.send request world).1 ≠ .refused refusal
  shows : ∀ {path world value},
    (transport.send (creation object path) world).1.received? = some value →
      MemoryCluster.nameOf value = .ok name
  conflicts : ∀ {path world},
    (transport.send (creation object path) world).1.isConflict = true → held world name

/-- A creation that says that the object is there now: it returns it, or it fails for a
conflict. -/
def confirms : Except Error Value → Bool
  | .ok _ => true
  | .error error => error.head.isConflict

namespace Api

namespace Call

variable {api : Api} {transport : Transport σ} {patient : Bool} {request : ApiRequest}
  {first allowed : Nat} {attempts : List (Attempt σ)} {outcome : Except Failure Value}

theorem confirms_iff
    (call : Call api transport patient request first allowed attempts outcome)
    (answered : ∀ attempt ∈ attempts, ∀ refusal, attempt.reply ≠ .refused refusal) :
    confirms (outcome.mapError Error.ofFailure) = true
      ↔ ∃ last, attempts.getLast? = some last ∧ last.reply.tells = true := by
  have untold : ∀ {last}, Retries transport patient request attempts →
      attempts.getLast? = some last → last.reply.tells = false := fun retries last =>
    ApiReply.untold_of_not_settles (retries _ (List.mem_of_getLast? last)).2.not_settles
  cases call with
  | exhausted message retries =>
      constructor
      · rintro ⟨⟩
      · rintro ⟨last, final, tells⟩
        rw [untold retries final] at tells
        cases tells
  | interrupted interrupts retries =>
      constructor
      · cases interrupts <;> rintro ⟨⟩
      · rintro ⟨last, final, tells⟩
        rw [untold retries final] at tells
        cases tells
  | @decided before final _ retries fewer own decides =>
      rw [List.getLast?_concat]
      have judged := ApiReply.judged patient (first + before.length) final.reply
      cases outcome with
      | ok value =>
          have received := ApiReply.received?_of_answer (Verdict.eq_answer decides)
          simp [confirms, Except.mapError, ApiReply.tells, received]
      | error failure =>
          rw [Verdict.eq_failure decides] at judged
          cases judged with
          | conflict message conflict =>
              simp [confirms, Except.mapError, Error.ofFailure, Failure.isConflict,
                ApiReply.tells, conflict]
          | failed untold _ other =>
              simp [confirms, Except.mapError, Error.ofFailure, other, untold]
          | refused refused => exact absurd refused (answered final (by simp) failure)

/-- A conflict is told of by the last attempt, and counts as the client's own after any
other attempt. -/
theorem conflict_last {failure : Failure}
    (call : Call api transport patient request 0 allowed attempts (.error failure))
    (answered : ∀ attempt ∈ attempts, ∀ refusal, attempt.reply ≠ .refused refusal)
    (conflict : failure.isConflict = true) :
    ∃ before final, attempts = before ++ [final] ∧ final.IsOf transport request
      ∧ final.reply.isConflict = true
      ∧ isOwnConflict failure = decide (0 < before.length) := by
  cases call with
  | exhausted => cases conflict
  | interrupted interrupts => cases interrupts <;> cases conflict
  | @decided before final _ retries fewer own decides =>
      have judged := ApiReply.judged patient (0 + before.length) final.reply
      rw [Verdict.eq_failure decides] at judged
      cases judged with
      | conflict message told =>
          refine ⟨before, final, rfl, own, told, ?_⟩
          rw [Nat.zero_add]
          rfl
      | failed _ _ other =>
          rw [other] at conflict
          cases conflict
      | refused refused => exact absurd refused (answered final (by simp) failure)

end Call

theorem not_isOwnConflict {failure : Failure} (other : failure.isConflict = false) :
    isOwnConflict failure = false := by
  cases failure with
  | alreadyExists => cases other
  | _ => rfl

def newlyListed (object : Value) : Except Failure Value → List Value
  | .ok value => [value]
  | .error failure => if isOwnConflict failure then [object] else []

theorem create_eq (api : Api) (transport : Transport σ) (heeds : Bool) {object : Value}
    {path : String} (found : creationPath object = .ok path) (world : ApiWorld σ) :
    api.create transport heeds object world =
      ((api.perform transport heeds false (creation object path) world.transport).1,
        { transport := (api.perform transport heeds false
          (creation object path) world.transport).2
          created := world.created ++ newlyListed object
            (api.perform transport heeds false
              (creation object path) world.transport).1 }) := by
  have request : ({ method := "POST", path, body := some object } : ApiRequest)
      = creation object path := rfl
  rw [create, found]
  dsimp only
  rw [request]
  rcases api.perform transport heeds false (creation object path) world.transport
    with ⟨failure | value, after⟩
  · cases own : isOwnConflict failure <;> simp [newlyListed, own]
  · rfl

section

variable {api : Api} {transport : Transport σ} {object : Value} {name : ObjectName}
  {path : String} {allowed : Nat} {attempts : List (Attempt σ)}
  {outcome : Except Failure Value}

theorem Call.answered {patient : Bool} {first : Nat}
    (keeps : transport.Keeps held object name) {request : ApiRequest}
    (call : Call api transport patient request first allowed attempts outcome) :
    ∀ attempt ∈ attempts, ∀ refusal, attempt.reply ≠ .refused refusal := by
  intro attempt member refusal
  rw [(call.own attempt member).reply_eq]
  exact keeps.answers request attempt.before refusal

/-- What a creation adds is an object of that name if the creation confirms it, provided
that the object came into being meanwhile. -/
theorem Call.lists_iff (named : MemoryCluster.nameOf object = .ok name)
    (keeps : transport.Keeps held object name)
    (call : Call api transport false (creation object path) 0 allowed attempts outcome)
    (stored : ∃ attempt ∈ attempts, attempt.Stores held name) :
    (∃ entry ∈ newlyListed object outcome, MemoryCluster.nameOf entry = .ok name)
      ↔ confirms (outcome.mapError Error.ofFailure) = true := by
  cases outcome with
  | ok value =>
      obtain ⟨before, final, rfl, _, received⟩ := call.received_of_ok
      rw [(call.own final (by simp)).reply_eq] at received
      simp [newlyListed, confirms, Except.mapError, keeps.shows received]
  | error failure =>
      cases conflict : failure.isConflict with
      | false =>
          simp [newlyListed, confirms, Except.mapError, Error.ofFailure,
            not_isOwnConflict, conflict]
      | true =>
          obtain ⟨before, final, rfl, own, told, after⟩ :=
            call.conflict_last (call.answered keeps) conflict
          -- the attempt that met the conflict is not the one by which the object came
          -- into being
          have earlier : 0 < before.length := by
            obtain ⟨attempt, member, absent, _⟩ := stored
            rcases List.mem_append.mp member with first | last
            · exact List.length_pos_of_mem first
            · rw [List.mem_singleton.mp last] at absent
              rw [own.reply_eq] at told
              exact absurd (keeps.conflicts told) absent
          simp [newlyListed, confirms, Except.mapError, Error.ofFailure, conflict, after,
            earlier, named]

end

/-- An object that comes into being by a creation is listed exactly if the creation
confirms it, and that is, if the last reply tells of it. -/
theorem create_lists_iff (api : Api) (transport : Transport σ) (heeds : Bool)
    {object : Value} {name : ObjectName} (start : ApiWorld σ) {outcome : Except Error Value}
    {stand : ApiWorld (Journal σ)} (named : MemoryCluster.nameOf object = .ok name)
    (keeps : transport.Keeps held object name)
    (ran : (api.client transport.journaled heeds).create object start.journaled =
      (outcome, stand))
    (stored : ∃ attempt ∈ stand.attempts, attempt.Stores held name) :
    (api.client transport heeds).create object start = (outcome, stand.plain)
      ∧ ((∃ entry ∈ stand.created, MemoryCluster.nameOf entry = .ok name)
          ↔ (∃ entry ∈ start.created, MemoryCluster.nameOf entry = .ok name)
              ∨ confirms outcome = true)
      ∧ (confirms outcome = true
          ↔ ∃ last, stand.attempts.getLast? = some last ∧ last.reply.tells = true) := by
  constructor
  · have shown := (api.shows_journaled transport heeds).create object start.journaled
    rw [ran] at shown
    exact shown
  · cases found : creationPath object with
    | error failure =>
        simp only [client, create, found] at ran
        cases ran
        obtain ⟨attempt, member, _⟩ := stored
        cases member
    | ok path =>
        simp only [client, api.create_eq transport.journaled heeds found] at ran
        cases ran
        obtain ⟨made, written, call⟩ :=
          api.call_attempts transport heeds false (creation object path)
          (api.retries + 1).toNat 0 "" start.journaled.transport
        change _ = [] ++ made at written
        rw [List.nil_append] at written
        simp only [ApiWorld.attempts, perform] at stored ⊢
        rw [written] at stored ⊢
        refine ⟨?_, call.confirms_iff (call.answered keeps)⟩
        have listed := call.lists_iff named keeps stored
        simp only [List.mem_append, or_and_right, exists_or, listed]
        rfl

end Api

/-- A server that holds the objects that it is asked for, and gives the same answer to
each of them. -/
def storing (reply : ApiReply) : Transport (List ObjectName) where
  send request names :=
    match request.body.map MemoryCluster.nameOf with
    | some (.ok name) =>
        if name ∈ names then (.response 409 "exists already", names)
        else (reply, name :: names)
    | _ => (.response 400 "no name", names)
  pause _ _ names := (false, names)

theorem storing_keeps {reply : ApiReply} {object : Value} {name : ObjectName}
    (named : MemoryCluster.nameOf object = .ok name)
    (shows : ∀ value, reply.received? = some value → MemoryCluster.nameOf value = .ok name)
    (other : reply.isConflict = false) (answered : ∀ refusal, reply ≠ .refused refusal) :
    (storing reply).Keeps (fun names name => name ∈ names) object name where
  answers request names refusal := by
    unfold storing
    dsimp only
    split
    · split
      · simp
      · exact answered refusal
    · simp
  shows {path names value} received := by
    simp only [storing, creation, Option.map_some, named] at received
    split at received
    · cases received
    · exact shows value received
  conflicts {path names} conflict := by
    simp only [storing, creation, Option.map_some, named] at conflict
    split at conflict
    · assumption
    · rw [other] at conflict
      cases conflict

def pullSecret : Value :=
  .object [("kind", .string "Secret"),
    ("metadata", .object [("namespace", .string "ci"), ("name", .string "pull-secret")])]

def pullSecretName : ObjectName :=
  ⟨"Secret", "ci", "pull-secret"⟩

def secretCreation (reply : ApiReply) :
    Except Error Value × ApiWorld (Journal (List ObjectName)) :=
  ((Api.ofUrl "https://cluster").client (storing reply).journaled true).create pullSecret
    (ApiWorld.journaled { transport := [] })

theorem lostAnswer_lists :
    ∃ entry ∈ (secretCreation (.lost "timed out")).2.created,
      MemoryCluster.nameOf entry = .ok pullSecretName := by
  have keeps : (storing (.lost "timed out")).Keeps
      (fun names name => name ∈ names) pullSecret pullSecretName :=
    storing_keeps rfl (by rintro value ⟨⟩) rfl (by rintro refusal ⟨⟩)
  exact ((Api.ofUrl "https://cluster").create_lists_iff (storing (.lost "timed out")) true
    { transport := [] } rfl keeps (Prod.eta (secretCreation (.lost "timed out"))).symm
    (by decide +kernel)).2.1.mpr (.inr (by decide +kernel))

/-- The object is there, but its creation was answered with a body that cannot be read. -/
theorem garbledAnswer_unlisted :
    (∃ attempt ∈ (secretCreation (.response 201 "created")).2.attempts,
        attempt.Stores (fun names name => name ∈ names) pullSecretName)
      ∧ ¬ ∃ entry ∈ (secretCreation (.response 201 "created")).2.created,
          MemoryCluster.nameOf entry = .ok pullSecretName := by
  have unlisted : (secretCreation (.response 201 "created")).2.created = [] :=
    List.isEmpty_iff.mp (by decide +kernel)
  refine ⟨by decide +kernel, ?_⟩
  rintro ⟨entry, member, _⟩
  rw [unlisted] at member
  cases member

end BuildPipeline
