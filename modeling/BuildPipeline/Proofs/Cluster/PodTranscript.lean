import BuildPipeline.Cluster.Pod
import BuildPipeline.Proofs.Cluster.Journal
import BuildPipeline.Proofs.Cluster.Settling
import BuildPipeline.Proofs.Document.Shape
import BuildPipeline.Rehearsal.Exchange

namespace BuildPipeline

open Document

variable {σ : Type}

/-- A reply, or the loss of one, that shows a pod if it is one of success. -/
def ApiReply.meetsPods : ApiReply → Bool
  | .refused _ => false
  | reply => reply.received?.all Value.isPod

namespace Attempt

/-- An attempt whose reply shows a pod, if it is one of success. -/
def MeetsPods (attempt : Attempt σ) : Prop :=
  attempt.reply.meetsPods = true

instance (attempt : Attempt σ) : Decidable attempt.MeetsPods :=
  inferInstanceAs (Decidable (_ = _))

theorem MeetsPods.ne_refused {attempt : Attempt σ} (met : attempt.MeetsPods)
    (refusal : Failure) :
    attempt.reply ≠ .refused refusal := by
  intro refused
  rw [MeetsPods, refused] at met
  cases met

theorem MeetsPods.isPod {attempt : Attempt σ} {pod : Value} (met : attempt.MeetsPods)
    (received : attempt.reply.received? = some pod) : pod.isPod = true := by
  unfold MeetsPods ApiReply.meetsPods at met
  split at met
  · cases met
  · rwa [received] at met

def phase? (attempt : Attempt σ) : Option PodPhase :=
  attempt.reply.received?.bind fun pod => (PodPhase.ofPod pod).toOption

def IsTerminal (attempt : Attempt σ) : Prop :=
  attempt.phase? = some .succeeded ∨ attempt.phase? = some .failed

theorem phase?_of_received {attempt : Attempt σ} {pod : Value} {phase : PodPhase}
    (received : attempt.reply.received? = some pod)
    (shown : PodPhase.ofPod pod = .ok phase) :
    attempt.phase? = some phase := by
  simp [phase?, received, shown, Except.toOption]

theorem not_isTerminal_of_unreceived {attempt : Attempt σ}
    (unreceived : attempt.reply.received? = none) : ¬ attempt.IsTerminal := by
  simp [IsTerminal, phase?, unreceived]

theorem not_isTerminal_of_unfinished {attempt : Attempt σ}
    (shown : attempt.phase? = some .unfinished) : ¬ attempt.IsTerminal := by
  simp [IsTerminal, shown]

end Attempt

def lastReceived? (attempts : List (Attempt σ)) : Option Value :=
  (attempts.filterMap (·.reply.received?)).getLast?

def lastPhase? (attempts : List (Attempt σ)) : Option PodPhase :=
  (lastReceived? attempts).bind fun pod => (PodPhase.ofPod pod).toOption

theorem lastReceived?_snoc {before : List (Attempt σ)} {final : Attempt σ} {pod : Value}
    (received : final.reply.received? = some pod) :
    lastReceived? (before ++ [final]) = some pod := by
  simp [lastReceived?, received]

theorem lastPhase?_ne_of_unsettled {attempts : List (Attempt σ)} {phase : PodPhase}
    (unsettled : ∀ attempt ∈ attempts, attempt.phase? ≠ some phase) :
    lastPhase? attempts ≠ some phase := by
  intro last
  obtain ⟨pod, seen, shown⟩ := Option.bind_eq_some_iff.mp last
  obtain ⟨attempt, member, received⟩ := List.mem_filterMap.mp (List.mem_of_getLast? seen)
  apply unsettled attempt member
  rw [Attempt.phase?, received]
  exact shown

theorem Failure.isPodFailure_of_isCancellation {failure : Failure}
    (cancelled : failure.isCancellation = true) : failure.isPodFailure = false := by
  cases failure with
  | podFailed => cases cancelled
  | _ => rfl

/-- How a run of a pod ends: with the first attempt that shows the pod at an end, or for
another reason while none does. -/
inductive PodRun : List (Attempt σ) → Except Error Value → Prop where
  | succeeded {before : List (Attempt σ)} {final : Attempt σ} {pod : Value}
      (running : ∀ attempt ∈ before, ¬ attempt.IsTerminal)
      (received : final.reply.received? = some pod)
      (shown : PodPhase.ofPod pod = .ok .succeeded) :
      PodRun (before ++ [final]) (.ok pod)
  | failed {before : List (Attempt σ)} {final : Attempt σ} {pod : Value} {error : Error}
      (running : ∀ attempt ∈ before, ¬ attempt.IsTerminal)
      (received : final.reply.received? = some pod)
      (shown : PodPhase.ofPod pod = .ok .failed)
      (told : error.head.isPodFailure = true) :
      PodRun (before ++ [final]) (.error error)
  | broken {attempts : List (Attempt σ)} {error : Error}
      (running : ∀ attempt ∈ attempts, ¬ attempt.IsTerminal)
      (untold : error.head.isPodFailure = false) :
      PodRun attempts (.error error)

namespace PodRun

variable {attempts : List (Attempt σ)} {outcome : Except Error Value}

theorem after {earlier : List (Attempt σ)}
    (running : ∀ attempt ∈ earlier, ¬ attempt.IsTerminal) (run : PodRun attempts outcome) :
    PodRun (earlier ++ attempts) outcome := by
  cases run with
  | succeeded later received shown =>
      rw [← List.append_assoc]
      exact .succeeded (List.forall_mem_append.mpr ⟨running, later⟩) received shown
  | failed later received shown told =>
      rw [← List.append_assoc]
      exact .failed (List.forall_mem_append.mpr ⟨running, later⟩) received shown told
  | broken later untold =>
      exact .broken (List.forall_mem_append.mpr ⟨running, later⟩) untold

theorem running_before_last (run : PodRun attempts outcome) :
    ∀ attempt ∈ attempts.dropLast, ¬ attempt.IsTerminal := by
  cases run with
  | succeeded running | failed running =>
      rw [List.dropLast_concat]
      exact running
  | broken running =>
      exact fun attempt member => running attempt (List.mem_of_mem_dropLast member)

theorem returned {pod : Value} (run : PodRun attempts (.ok pod)) :
    lastReceived? attempts = some pod ∧ lastPhase? attempts = some .succeeded := by
  cases run with
  | succeeded running received shown =>
      refine ⟨lastReceived?_snoc received, ?_⟩
      rw [lastPhase?, lastReceived?_snoc received, Option.bind_some, shown]
      rfl

theorem failed_iff (run : PodRun attempts outcome) :
    (∃ error, outcome = .error error ∧ error.head.isPodFailure = true)
      ↔ lastPhase? attempts = some .failed := by
  cases run with
  | succeeded running received shown =>
      rw [lastPhase?, lastReceived?_snoc received, Option.bind_some, shown]
      simp [Except.toOption]
  | failed running received shown told =>
      rw [lastPhase?, lastReceived?_snoc received, Option.bind_some, shown]
      simp [Except.toOption, told]
  | broken running untold =>
      have unfailed := lastPhase?_ne_of_unsettled fun attempt member shown =>
        running attempt member (.inr shown)
      simp [untold, unfailed]

theorem running_of_cancelled {error : Error} (run : PodRun attempts (.error error))
    (cancelled : error.head.isCancellation = true) :
    ∀ attempt ∈ attempts, ¬ attempt.IsTerminal := by
  cases run with
  | failed running received shown told =>
      rw [Failure.isPodFailure_of_isCancellation cancelled] at told
      cases told
  | broken running => exact running

end PodRun

inductive Brings : List (Attempt σ) → Except Error Value → Prop where
  | value {before : List (Attempt σ)} {final : Attempt σ} {value : Value}
      (unreceived : ∀ attempt ∈ before, attempt.reply.received? = none)
      (received : final.reply.received? = some value) :
      Brings (before ++ [final]) (.ok value)
  | nothing {attempts : List (Attempt σ)} {error : Error}
      (unreceived : ∀ attempt ∈ attempts, attempt.reply.received? = none)
      (untold : (∀ attempt ∈ attempts, attempt.MeetsPods) →
        error.head.isPodFailure = false) :
      Brings attempts (.error error)

namespace Brings

variable {attempts : List (Attempt σ)} {pod : Value}

theorem isPod (brings : Brings attempts (.ok pod))
    (met : ∀ attempt ∈ attempts, attempt.MeetsPods) :
    pod.isPod = true := by
  cases brings with
  | value unreceived received => exact (met _ (by simp)).isPod received

theorem unsettled {before : List (Attempt σ)}
    (unreceived : ∀ attempt ∈ before, attempt.reply.received? = none) :
    ∀ attempt ∈ before, ¬ attempt.IsTerminal :=
  fun attempt member => Attempt.not_isTerminal_of_unreceived (unreceived attempt member)

theorem succeeded (brings : Brings attempts (.ok pod))
    (shown : PodPhase.ofPod pod = .ok .succeeded) :
    PodRun attempts (.ok pod) := by
  cases brings with
  | value unreceived received => exact .succeeded (unsettled unreceived) received shown

theorem failed {error : Error} (brings : Brings attempts (.ok pod))
    (shown : PodPhase.ofPod pod = .ok .failed) (told : error.head.isPodFailure = true) :
    PodRun attempts (.error error) := by
  cases brings with
  | value unreceived received => exact .failed (unsettled unreceived) received shown told

theorem running (brings : Brings attempts (.ok pod))
    (shown : PodPhase.ofPod pod = .ok .unfinished) :
    ∀ attempt ∈ attempts, ¬ attempt.IsTerminal := by
  cases brings with
  | value unreceived received =>
      have last :=
        Attempt.not_isTerminal_of_unfinished (Attempt.phase?_of_received received shown)
      exact List.forall_mem_append.mpr ⟨unsettled unreceived, by simpa using last⟩

theorem broken {error : Error} (brings : Brings attempts (.error error))
    (met : ∀ attempt ∈ attempts, attempt.MeetsPods) : PodRun attempts (.error error) := by
  cases brings with
  | nothing unreceived untold => exact .broken (unsettled unreceived) (untold met)

end Brings

theorem Failure.isPodFailure_of_isOfServer {failure : Failure}
    (ofServer : failure.isOfServer = true) :
    failure.isPodFailure = false := by
  cases failure with
  | podFailed => cases ofServer
  | _ => rfl

theorem Api.Call.brings {api : Api} {transport : Transport σ} {patient : Bool}
    {request : ApiRequest} {first allowed : Nat} {attempts : List (Attempt σ)}
    {outcome : Except Failure Value}
    (call : Call api transport patient request first allowed attempts outcome) :
    Brings attempts (outcome.mapError Error.ofFailure) := by
  cases outcome with
  | ok value =>
      obtain ⟨before, final, rfl, unreceived, received⟩ := call.received_of_ok
      exact .value unreceived received
  | error failure =>
      apply Brings.nothing call.received_of_error
      intro met
      exact Failure.isPodFailure_of_isOfServer
        (call.isOfServer fun attempt member => (met attempt member).ne_refused)

namespace Api

variable (api : Api) (transport : Transport σ) (heeds : Bool)

theorem get_brings (inRun : Bool) (object : ObjectName) (world : ApiWorld (Journal σ)) :
    ∃ looks,
      ((api.client transport.journaled heeds).get inRun object world).2.attempts
          = world.attempts ++ looks
        ∧ (∀ look ∈ looks, look.request.method = "GET")
        ∧ Brings looks ((api.client transport.journaled heeds).get inRun
            object world).1 := by
  simp only [client, get]
  split
  · rename_i failure wrong
    refine ⟨[], (List.append_nil _).symm, by simp, .nothing (by simp) fun _ => ?_⟩
    exact Failure.isPodFailure_of_isOfServer (isOfServer_of_path wrong)
  · rename_i path _
    obtain ⟨made, written, call⟩ := api.call_attempts transport (heeds && inRun) true
      { method := "GET", path } (api.retries + 1).toNat 0 "" world.transport
    refine ⟨made, written, fun look member => ?_, call.brings⟩
    rw [(call.own look member).request_eq]

theorem create_brings (object : Value) (world : ApiWorld (Journal σ)) :
    ∃ posts,
      ((api.client transport.journaled heeds).create object world).2.attempts
          = world.attempts ++ posts
        ∧ (∀ post ∈ posts, post.request.method = "POST" ∧ post.request.body = some object)
        ∧ posts.length ≤ (api.retries + 1).toNat
        ∧ (∀ post ∈ posts.dropLast, ¬ post.reply.Settles)
        ∧ Brings posts ((api.client transport.journaled heeds).create object world).1 := by
  simp only [client, create]
  split
  · rename_i failure wrong
    refine ⟨[], (List.append_nil _).symm, by simp, Nat.zero_le _, by simp,
      .nothing (by simp) fun _ => ?_⟩
    exact Failure.isPodFailure_of_isOfServer (isOfServer_of_creationPath wrong)
  · rename_i path _
    obtain ⟨made, written, call⟩ := api.call_attempts transport heeds false
      { method := "POST", path, body := some object }
      (api.retries + 1).toNat 0 "" world.transport
    have own : ∀ post ∈ made, post.request.method = "POST"
        ∧ post.request.body = some object :=
      fun post member => by simp [(call.own post member).request_eq]
    have brings := call.brings
    dsimp only [perform]
    split <;> rename_i performed <;> rw [performed] at written brings
    · exact ⟨made, written, own, call.length_le, call.unsettled, brings⟩
    · exact ⟨made, written, own, call.length_le, call.unsettled, brings⟩

theorem looked_brings {inRun : Bool} {object : ObjectName}
    {world looked : ApiWorld (Journal σ)} {answer : Except Error Value}
    (looking : (api.client transport.journaled heeds).get inRun object world =
      (answer, looked)) :
    ∃ looks, looked.attempts = world.attempts ++ looks
      ∧ (∀ look ∈ looks, look.request.method = "GET") ∧ Brings looks answer := by
  have got := api.get_brings transport heeds inRun object world
  rwa [looking] at got

theorem attempts_pause (world : ApiWorld (Journal σ)) :
    ((api.client transport.journaled heeds).pause world).2.attempts = world.attempts := rfl

def LooksOn (attempts : List (Attempt σ)) (world last : ApiWorld (Journal σ))
    (outcome : Except Error Value) : Prop :=
  ∃ looks, last.attempts = world.attempts ++ looks
    ∧ (∀ look ∈ looks, look.request.method = "GET")
    ∧ ((∀ attempt ∈ attempts ++ looks, attempt.MeetsPods) →
      PodRun (attempts ++ looks) outcome)

theorem LooksOn.still {attempts : List (Attempt σ)} {world last : ApiWorld (Journal σ)}
    {outcome : Except Error Value} (kept : last.attempts = world.attempts)
    (run : (∀ attempt ∈ attempts, attempt.MeetsPods) → PodRun attempts outcome) :
    LooksOn attempts world last outcome := by
  refine ⟨[], by simpa using kept, by simp, fun met => ?_⟩
  rw [List.append_nil] at met ⊢
  exact run met

theorem attempts_paused {world paused : ApiWorld (Journal σ)} {stopped : Bool}
    (pausing : (api.client transport.journaled heeds).pause world = (stopped, paused)) :
    paused.attempts = world.attempts := by
  have kept := api.attempts_pause transport heeds world
  rwa [pausing] at kept

theorem looksOn_of_settling {attempts : List (Attempt σ)} {project name current : Value}
    {world last : ApiWorld (Journal σ)} {outcome : Except Error Value}
    (settling : (api.client transport.journaled heeds).Settling project name current
      world outcome last)
    (brings : Brings attempts (.ok current)) : LooksOn attempts world last outcome := by
  induction settling generalizing attempts with
  | succeeded shown => exact .still rfl fun _ => brings.succeeded shown
  | failed shown told =>
      refine .still rfl fun met => brings.failed shown ?_
      obtain ⟨name, exitCode, message, readable⟩ :=
        PodFailure.ofPod_of_isPod (brings.isPod met)
      rw [readable] at told
      cases told
      rfl
  | misread unread =>
      refine .still rfl fun met => ?_
      obtain ⟨phase, shown⟩ := PodPhase.ofPod_of_isPod (brings.isPod met)
      obtain ⟨name, exitCode, message, told⟩ := PodFailure.ofPod_of_isPod (brings.isPod met)
      rw [shown, told] at unread
      simp at unread
  | impatient shown => exact .still rfl fun _ => .broken (brings.running shown) rfl
  | cancelled shown pausing =>
      exact .still (api.attempts_paused transport heeds pausing) fun _ =>
        .broken (brings.running shown) rfl
  | lost shown pausing looking =>
      obtain ⟨looks, written, own, later⟩ := api.looked_brings transport heeds looking
      rw [api.attempts_paused transport heeds pausing] at written
      refine ⟨looks, written, own, fun met => ?_⟩
      exact (later.broken (List.forall_mem_append.mp met).2).after (brings.running shown)
  | again shown pausing looking _ ih =>
      obtain ⟨looks, written, own, later⟩ := api.looked_brings transport heeds looking
      rw [api.attempts_paused transport heeds pausing] at written
      obtain ⟨rest, more, ownRest, ran⟩ := ih later
      refine ⟨looks ++ rest, ?_, List.forall_mem_append.mpr ⟨own, ownRest⟩, fun met => ?_⟩
      · rw [more, written, List.append_assoc]
      · exact (ran (List.forall_mem_append.mp met).2).after (brings.running shown)

theorem settle_looksOn {attempts : List (Attempt σ)} {current : Value}
    (project name : Value) (patience : Nat) (world : ApiWorld (Journal σ))
    (brings : Brings attempts (.ok current)) :
    LooksOn attempts world
      ((api.client transport.journaled heeds).settle project name patience current world).2
      ((api.client transport.journaled heeds).settle project name patience
        current world).1 :=
  api.looksOn_of_settling transport heeds
    (ClusterClient.settling _ project name patience current world) brings

theorem runPod_run (patience : Nat) (pod : Value) (world : ApiWorld (Journal σ)) :
    ∃ posts looks,
      ((api.client transport.journaled heeds).runPod patience pod world).2.attempts
          = world.attempts ++ (posts ++ looks)
        ∧ (∀ post ∈ posts, post.request.method = "POST" ∧ post.request.body = some pod)
        ∧ posts.length ≤ (api.retries + 1).toNat
        ∧ (∀ post ∈ posts.dropLast, ¬ post.reply.Settles)
        ∧ (∀ look ∈ looks, look.request.method = "GET")
        ∧ ((∀ attempt ∈ posts ++ looks, attempt.MeetsPods) →
            PodRun (posts ++ looks)
              ((api.client transport.journaled heeds).runPod patience pod world).1) := by
  unfold ClusterClient.runPod
  split
  · exact ⟨[], [], by simp, by simp, Nat.zero_le _, by simp, by simp,
      fun _ => .broken (by simp) rfl⟩
  · rename_i project name _
    obtain ⟨posts, written, own, few, unsettled, brings⟩ :=
      api.create_brings transport heeds pod world
    split <;> rename_i creating <;> rw [creating] at written brings
    · rename_i current created
      obtain ⟨looks, more, ownLooks, ran⟩ :=
        api.settle_looksOn transport heeds project name patience created brings
      refine ⟨posts, looks, ?_, own, few, unsettled, ownLooks, ran⟩
      rw [more, written, List.append_assoc]
    · rename_i error created
      split
      · -- A creation that met a conflict received nothing, so no attempt of it shows an
        -- end.
        have running : (∀ attempt ∈ posts, attempt.MeetsPods) →
            ∀ post ∈ posts, ¬ post.IsTerminal :=
          fun met => by
            cases brings with
            | nothing unreceived => exact Brings.unsettled unreceived
        dsimp only at written
        split
        · rename_i looking
          obtain ⟨looks, more, ownLooks, later⟩ := api.looked_brings transport heeds looking
          rw [written, List.append_assoc] at more
          refine ⟨posts, looks, more, own, few, unsettled, ownLooks, fun met => ?_⟩
          obtain ⟨posted, looked⟩ := List.forall_mem_append.mp met
          exact (later.broken looked).after (running posted)
        · rename_i current looked looking
          obtain ⟨looks, more, ownLooks, later⟩ := api.looked_brings transport heeds looking
          rw [written, List.append_assoc] at more
          obtain ⟨rest, evenMore, ownRest, ran⟩ :=
            api.settle_looksOn transport heeds project name patience looked later
          refine ⟨posts, looks ++ rest, ?_, own, few, unsettled,
            List.forall_mem_append.mpr ⟨ownLooks, ownRest⟩, fun met => ?_⟩
          · rw [evenMore, more]
            simp
          · obtain ⟨posted, looked⟩ := List.forall_mem_append.mp met
            exact (ran looked).after (running posted)
      · refine ⟨posts, [], by simpa using written, own, few,
          unsettled, by simp, fun met => ?_⟩
        rw [List.append_nil] at met ⊢
        exact brings.broken met

end Api

/-- How the requests of a run and its end belong together. -/
structure PodTranscript (api : Api) (pod : Value) (attempts : List (Attempt σ))
    (outcome : Except Error Value) : Prop where
  asks : ∃ posts looks, attempts = posts ++ looks
    ∧ (∀ post ∈ posts, post.request.method = "POST" ∧ post.request.body = some pod)
    ∧ (∀ look ∈ looks, look.request.method = "GET")
    ∧ (posts.length : Int) ≤ api.retries + 1
    ∧ ∀ post ∈ posts.dropLast, ¬ post.reply.Settles
  rests : ∀ attempt ∈ attempts.dropLast, ¬ attempt.IsTerminal
  returns : ∀ value, outcome = .ok value →
    lastReceived? attempts = some value ∧ lastPhase? attempts = some .succeeded
  fails : (∃ error, outcome = .error error ∧ error.head.isPodFailure = true)
    ↔ lastPhase? attempts = some .failed
  cancels : ∀ error, outcome = .error error → error.head.isCancellation = true →
    ∀ attempt ∈ attempts, ¬ attempt.IsTerminal

/-- The requests of a run of a pod, whatever comes of each of them and whenever the run is
cancelled. -/
theorem Api.runPod_transcript (api : Api) (transport : Transport σ) (heeds : Bool)
    (patience : Nat) (pod : Value) (start : ApiWorld σ) {outcome : Except Error Value}
    {stand : ApiWorld (Journal σ)} (retries : 0 ≤ api.retries)
    (ran : (api.client transport.journaled heeds).runPod patience pod start.journaled =
      (outcome, stand))
    (met : ∀ attempt ∈ stand.attempts, attempt.MeetsPods) :
    (api.client transport heeds).runPod patience pod start = (outcome, stand.plain)
      ∧ PodTranscript api pod stand.attempts outcome := by
  constructor
  · have shown := (api.shows_journaled transport heeds).runPod patience pod start.journaled
    rw [ran] at shown
    exact shown
  · obtain ⟨posts, looks, written, own, few, unsettled, ownLooks, run⟩ :=
      api.runPod_run transport heeds patience pod start.journaled
    rw [ran] at written run
    change stand.attempts = [] ++ (posts ++ looks) at written
    rw [List.nil_append] at written
    rw [written] at met ⊢
    have run := run met
    refine ⟨⟨posts, looks, rfl, own, ownLooks, by omega, unsettled⟩,
      run.running_before_last, ?_,
      run.failed_iff, ?_⟩
    · rintro value rfl
      exact run.returned
    · rintro error rfl cancelled
      exact run.running_of_cancelled cancelled

/-- The answer to the creation of a pod is lost; the second attempt meets the pod, which
still runs when it is looked at first. -/
def cliPod : Value :=
  Pod.document { name := "cli", project := "ci", image := "builder", command := ["make"] }

def cliBody (phase : String) : String :=
  "\x7b\"metadata\":\x7b\"name\":\"cli\"\x7d,\"status\":\x7b\"phase\":\"" ++ phase
    ++ "\"\x7d\x7d"

def lostCreation : ApiWorld Exchange where
  transport :=
    { entries := [⟨.lost "connection reset", false⟩, ⟨.response 409 "exists", false⟩,
        ⟨.response 200 (cliBody "Running"), false⟩,
        ⟨.response 200 (cliBody "Succeeded"), false⟩] }

def cliRun : Except Error Value × ApiWorld (Journal Exchange) :=
  ((Api.ofUrl "https://cluster").client Exchange.transport.journaled true).runPod 4 cliPod
    lostCreation.journaled

theorem lostCreation_transcript :
    PodTranscript (Api.ofUrl "https://cluster") cliPod cliRun.2.attempts cliRun.1
      ∧ cliRun.2.attempts.map (·.request.method) = ["POST", "POST", "GET", "GET"]
      ∧ lastPhase? cliRun.2.attempts = some .succeeded := by
  refine ⟨?_, by decide +kernel, by decide +kernel⟩
  exact (Api.runPod_transcript (Api.ofUrl "https://cluster") Exchange.transport true 4
    cliPod lostCreation
    (by decide) (Prod.eta cliRun).symm (by decide +kernel)).2

end BuildPipeline
