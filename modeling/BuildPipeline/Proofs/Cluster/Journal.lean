import BuildPipeline.Proofs.Cluster.Reply
import Mathlib.Data.List.Infix

namespace BuildPipeline

open Document

variable {σ τ : Type}

/-- One attempt of a call: what is asked, what comes back, and the server before and
after. -/
structure Attempt (σ : Type) where
  request : ApiRequest
  reply : ApiReply
  before : σ
  after : σ

namespace Attempt

def made (transport : Transport σ) (request : ApiRequest) (before : σ) : Attempt σ where
  request := request
  reply := (transport.send request before).1
  before := before
  after := (transport.send request before).2

def IsOf (transport : Transport σ) (request : ApiRequest) (attempt : Attempt σ) : Prop :=
  attempt = made transport request attempt.before

variable {transport : Transport σ} {request : ApiRequest} {attempt : Attempt σ}

theorem IsOf.request_eq (own : attempt.IsOf transport request) :
    attempt.request = request := by
  rw [own]
  rfl

theorem IsOf.reply_eq (own : attempt.IsOf transport request) :
    attempt.reply = (transport.send request attempt.before).1 := congrArg Attempt.reply own

end Attempt

structure Journal (σ : Type) where
  server : σ
  attempts : List (Attempt σ) := []

namespace Journal

def entered (journal : Journal σ) (attempt : Attempt σ) : Journal σ where
  server := attempt.after
  attempts := journal.attempts ++ [attempt]

def moved (journal : Journal σ) (server : σ) : Journal σ :=
  { journal with server }

end Journal

def Transport.journaled (transport : Transport σ) : Transport (Journal σ) where
  send request journal :=
    let attempt := Attempt.made transport request journal.server
    (attempt.reply, journal.entered attempt)
  pause heeds seconds journal :=
    (transport.pause heeds seconds journal.server).map id journal.moved

namespace ApiWorld

def journaled (world : ApiWorld σ) : ApiWorld (Journal σ) where
  transport := { server := world.transport }
  created := world.created

def plain (world : ApiWorld (Journal σ)) : ApiWorld σ where
  transport := world.transport.server
  created := world.created

def attempts (world : ApiWorld (Journal σ)) : List (Attempt σ) :=
  world.transport.attempts

end ApiWorld

/-- A client that looks like another one through a part of its world. -/
structure ClusterClient.Shows (client : ClusterClient τ) (plain : ClusterClient σ)
    (view : τ → σ) : Prop where
  get : ∀ inRun object world,
    plain.get inRun object (view world) = (client.get inRun object world).map id view
  create : ∀ object world, plain.create object (view world) =
    (client.create object world).map id view
  pause : ∀ world, plain.pause (view world) = (client.pause world).map id view

namespace ClusterClient.Shows

variable {client : ClusterClient τ} {plain : ClusterClient σ} {view : τ → σ}

theorem settle (shows : client.Shows plain view) (project pod : Value) (patience : Nat)
    (current : Value) (world : τ) :
    plain.settle project pod patience current (view world)
      = (client.settle project pod patience current world).map id view := by
  induction patience generalizing current world with
  | zero =>
      unfold ClusterClient.settle
      split
      · rfl
      · rfl
      · split <;> rfl
      · rfl
  | succ patience ih =>
      unfold ClusterClient.settle
      split
      · rfl
      · rfl
      · split <;> rfl
      · simp only [shows.pause]
        rcases client.pause world with ⟨_ | _, paused⟩
        · simp only [Prod.map_apply, id_eq, shows.get]
          rcases client.get true ⟨"Pod", project.text, nameText pod⟩ paused
            with ⟨_ | found, looked⟩
          · rfl
          · exact ih found looked
        · rfl

theorem runPod (shows : client.Shows plain view) (patience : Nat) (pod : Value)
    (world : τ) :
    plain.runPod patience pod (view world) =
      (client.runPod patience pod world).map id view := by
  unfold ClusterClient.runPod
  split
  · rfl
  · rename_i project name _
    simp only [shows.create]
    rcases client.create pod world with ⟨error | current, created⟩
    · simp only [Prod.map_apply, id_eq]
      split
      · simp only [shows.get]
        rcases client.get true ⟨"Pod", project.text, nameText name⟩ created
          with ⟨_ | found, looked⟩
        · rfl
        · exact shows.settle _ _ _ _ _
      · rfl
    · exact shows.settle _ _ _ _ _

end ClusterClient.Shows

namespace Api

/-- What gives a call up while it waits for its next attempt: the run is cancelled, or the
delay has been doubled beyond all numbers. -/
inductive Interrupts : Failure → Prop where
  | cancelled : Interrupts backoffCancelled
  | overflow : Interrupts (.misuse .overflow)

/-- The call of a request: all attempts but the last are due another one.  It is given up
when no more attempts are allowed or the wait for one is interrupted, and otherwise
decided by its last attempt. Attempts are numbered, the first of them from the given
number on. -/
def Retries (transport : Transport σ) (patient : Bool) (request : ApiRequest)
    (attempts : List (Attempt σ)) : Prop :=
  ∀ attempt ∈ attempts, attempt.IsOf transport request ∧ attempt.reply.IsRetried patient

def Verdict.Decides : Verdict → Except Failure Value → Prop
  | .answer value, outcome => outcome = .ok value
  | .failure cause, outcome => outcome = .error cause
  | .again _, _ => False

theorem Verdict.eq_answer {verdict : Verdict} {value : Value}
    (decides : verdict.Decides (.ok value)) :
    verdict = .answer value := by
  cases verdict with
  | answer found =>
      cases decides
      rfl
  | failure | again => cases decides

theorem Verdict.eq_failure {verdict : Verdict} {failure : Failure}
    (decides : verdict.Decides (.error failure)) : verdict = .failure failure := by
  cases verdict with
  | failure cause =>
      cases decides
      rfl
  | answer | again => cases decides

inductive Call (api : Api) (transport : Transport σ) (patient : Bool) (request : ApiRequest)
    (first allowed : Nat) : List (Attempt σ) → Except Failure Value → Prop where
  | exhausted {attempts : List (Attempt σ)} (message : String)
      (retries : Retries transport patient request attempts)
      (all : attempts.length = allowed) :
      Call api transport patient request first allowed attempts
        (.error (api.exhausted request message))
  | interrupted {attempts : List (Attempt σ)} {cause : Failure}
      (interrupts : Interrupts cause)
      (retries : Retries transport patient request attempts)
      (fewer : attempts.length < allowed) :
      Call api transport patient request first allowed attempts (.error cause)
  | decided {attempts : List (Attempt σ)} {final : Attempt σ}
      {outcome : Except Failure Value}
      (retries : Retries transport patient request attempts)
      (fewer : attempts.length < allowed)
      (own : final.IsOf transport request)
      (decides : (judge patient (first + attempts.length) final.reply).Decides outcome) :
      Call api transport patient request first allowed (attempts ++ [final]) outcome

namespace Call

variable {api : Api} {transport : Transport σ} {patient : Bool} {request : ApiRequest}
  {first allowed : Nat} {attempts : List (Attempt σ)} {outcome : Except Failure Value}

theorem cons {attempt : Attempt σ} (own : attempt.IsOf transport request)
    (retried : attempt.reply.IsRetried patient)
    (call : Call api transport patient request (first + 1) allowed attempts outcome) :
    Call api transport patient request first (allowed + 1)
      (attempt :: attempts) outcome := by
  cases call with
  | exhausted message retries all =>
      exact .exhausted message (List.forall_mem_cons.mpr ⟨⟨own, retried⟩, retries⟩)
        (congrArg (· + 1) all)
  | interrupted interrupts retries fewer =>
      exact .interrupted interrupts (List.forall_mem_cons.mpr ⟨⟨own, retried⟩, retries⟩)
        (Nat.succ_lt_succ fewer)
  | decided retries fewer last decides =>
      rw [← List.cons_append]
      refine .decided (List.forall_mem_cons.mpr ⟨⟨own, retried⟩, retries⟩)
        (Nat.succ_lt_succ fewer)
        last ?_
      rwa [List.length_cons, Nat.add_comm _ 1, ← Nat.add_assoc]

theorem own (call : Call api transport patient request first allowed attempts outcome) :
    ∀ attempt ∈ attempts, attempt.IsOf transport request := by
  cases call with
  | exhausted _ retries | interrupted _ retries =>
      exact fun attempt member => (retries attempt member).1
  | decided retries _ last =>
      intro attempt member
      rcases List.mem_append.mp member with earlier | final
      · exact (retries attempt earlier).1
      · exact List.mem_singleton.mp final ▸ last

theorem length_le
    (call : Call api transport patient request first allowed attempts outcome) :
    attempts.length ≤ allowed := by
  cases call with
  | exhausted _ _ all => exact Nat.le_of_eq all
  | interrupted _ _ fewer => exact Nat.le_of_lt fewer
  | decided _ fewer =>
      rw [List.length_append]
      exact fewer

/-- An attempt that settles a creation is the last one. -/
theorem unsettled
    (call : Call api transport patient request first allowed attempts outcome) :
    ∀ attempt ∈ attempts.dropLast, ¬ attempt.reply.Settles := by
  cases call with
  | exhausted _ retries | interrupted _ retries =>
      exact fun attempt member =>
        (retries attempt (List.mem_of_mem_dropLast member)).2.not_settles
  | decided retries =>
      rw [List.dropLast_concat]
      exact fun attempt member => (retries attempt member).2.not_settles

theorem received_of_ok {value : Value}
    (call : Call api transport patient request first allowed attempts (.ok value)) :
    ∃ before final, attempts = before ++ [final]
      ∧ (∀ attempt ∈ before, attempt.reply.received? = none)
      ∧ final.reply.received? = some value := by
  cases call with
  | @decided before final _ retries _ _ decides =>
      refine ⟨before, final, rfl, fun attempt member => ?_, ?_⟩
      · exact ApiReply.received?_of_not_settles (retries attempt member).2.not_settles
      · exact ApiReply.received?_of_answer (Verdict.eq_answer decides)

theorem received_of_error {failure : Failure}
    (call : Call api transport patient request first allowed attempts (.error failure)) :
    ∀ attempt ∈ attempts, attempt.reply.received? = none := by
  have unreceived : ∀ {earlier : List (Attempt σ)},
      Retries transport patient request earlier →
      ∀ attempt ∈ earlier, attempt.reply.received? = none :=
    fun retries attempt member =>
      ApiReply.received?_of_not_settles (retries attempt member).2.not_settles
  cases call with
  | exhausted _ retries | interrupted _ retries => exact unreceived retries
  | @decided before final _ retries _ _ decides =>
      intro attempt member
      rcases List.mem_append.mp member with earlier | last
      · exact unreceived retries attempt earlier
      · rw [List.mem_singleton.mp last]
        exact ApiReply.received?_of_failure (Verdict.eq_failure decides)

theorem isOfServer {failure : Failure}
    (call : Call api transport patient request first allowed attempts (.error failure))
    (answered : ∀ attempt ∈ attempts, ∀ refusal, attempt.reply ≠ .refused refusal) :
    failure.isOfServer = true := by
  cases call with
  | exhausted => rfl
  | interrupted interrupts => cases interrupts <;> rfl
  | decided _ _ _ decides =>
      exact ApiReply.isOfServer_of_judge (answered _ (by simp)) (Verdict.eq_failure decides)

end Call

variable (api : Api) (transport : Transport σ) (heeds patient : Bool) (request : ApiRequest)

theorem pauseBefore_journaled (number : Nat) (journal : Journal σ) :
    api.pauseBefore transport.journaled heeds number journal =
      (api.pauseBefore transport heeds number journal.server).map id journal.moved := by
  cases number with
  | zero => rfl
  | succ repetition =>
      simp only [pauseBefore, Transport.journaled]
      split
      · rcases transport.pause heeds (api.delay repetition) journal.server
          with ⟨_ | _, _⟩ <;> rfl
      · rfl

theorem interrupts_of_pauseBefore {number : Nat} {world paused : σ} {cause : Failure}
    (waited : api.pauseBefore transport heeds number world = (.error cause, paused)) :
    Interrupts cause := by
  cases number with
  | zero => cases waited
  | succ repetition =>
      rw [pauseBefore] at waited
      split at waited
      · split at waited <;> cases waited
        exact .cancelled
      · cases waited
        exact .overflow

theorem attempts_succ (allowed number : Nat) (last : String) (journal : Journal σ) :
    api.attempts transport.journaled heeds patient request
      (allowed + 1) number last journal =
      match api.pauseBefore transport heeds number journal.server with
      | (.error cause, paused) => (.error cause, journal.moved paused)
      | (.ok _, paused) =>
          let attempt := Attempt.made transport request paused
          match judge patient number attempt.reply with
          | .answer value => (.ok value, journal.entered attempt)
          | .failure failure => (.error failure, journal.entered attempt)
          | .again message =>
              api.attempts transport.journaled heeds patient request allowed
                (number + 1) message (journal.entered attempt) := by
  rw [attempts, pauseBefore_journaled]
  rcases api.pauseBefore transport heeds number journal.server with ⟨_ | _, paused⟩ <;> rfl

theorem attempts_server (allowed number : Nat) (last : String) (journal : Journal σ) :
    api.attempts transport heeds patient request allowed number last journal.server =
      (api.attempts transport.journaled heeds patient request allowed number last
        journal).map id (·.server) := by
  induction allowed generalizing number last journal with
  | zero => rfl
  | succ allowed ih =>
      rw [attempts, attempts_succ]
      rcases api.pauseBefore transport heeds number journal.server with ⟨_ | _, paused⟩
      · rfl
      · change (match judge patient number
          (Attempt.made transport request paused).reply with
          | .answer value => _ | .failure failure => _ | .again message => _) = _
        dsimp only
        cases judge patient number (Attempt.made transport request paused).reply with
        | answer | failure => rfl
        | again message => exact ih _ _ (journal.entered (.made transport request paused))

theorem call_attempts (allowed number : Nat) (last : String) (journal : Journal σ) :
    ∃ made,
      (api.attempts transport.journaled heeds patient request allowed number last
        journal).2.attempts
          = journal.attempts ++ made
        ∧ Call api transport patient request number allowed made
            (api.attempts transport.journaled heeds patient request allowed number last
              journal).1 := by
  induction allowed generalizing number last journal with
  | zero => exact ⟨[], (List.append_nil _).symm, .exhausted last (by simp [Retries]) rfl⟩
  | succ allowed ih =>
      rw [attempts_succ]
      rcases waited : api.pauseBefore transport heeds number journal.server
        with ⟨cause | _, paused⟩
      · exact ⟨[], (List.append_nil _).symm,
          .interrupted (api.interrupts_of_pauseBefore transport heeds waited)
            (by simp [Retries]) (Nat.succ_pos _)⟩
      · have decided : ∀ {verdict outcome},
            judge patient number (Attempt.made transport request paused).reply = verdict →
            verdict.Decides outcome →
            Call api transport patient request number (allowed + 1)
              [.made transport request paused] outcome := by
          rintro _ outcome rfl decides
          rw [← List.nil_append [Attempt.made transport request paused]]
          exact .decided (by simp [Retries]) (Nat.succ_pos _) rfl decides
        dsimp only
        cases judged :
          judge patient number (Attempt.made transport request paused).reply with
        | answer value => exact ⟨_, rfl, decided judged rfl⟩
        | failure cause => exact ⟨_, rfl, decided judged rfl⟩
        | again message =>
            obtain ⟨made, written, call⟩ :=
              ih (number + 1) message (journal.entered (.made transport request paused))
            refine ⟨.made transport request paused :: made, ?_,
              call.cons rfl ⟨number, message, judged⟩⟩
            exact written.trans (List.append_assoc _ _ _)

/-- A client whose calls are written down does what it does anyway. -/
theorem shows_journaled :
    (api.client transport.journaled heeds).Shows
      (api.client transport heeds) ApiWorld.plain where
  get inRun object world := by
    simp only [client, get]
    split
    · rfl
    · rename_i path _
      have same :=
        api.attempts_server transport (heeds && inRun) true { method := "GET", path }
        (api.retries + 1).toNat 0 "" world.transport
      simp only [perform, ApiWorld.plain] at same ⊢
      rw [same]
      rfl
  create object world := by
    simp only [client, create]
    split
    · rfl
    · rename_i path _
      have same := api.attempts_server transport heeds false
        { method := "POST", path, body := some object }
        (api.retries + 1).toNat 0 "" world.transport
      simp only [perform, ApiWorld.plain] at same ⊢
      rw [same]
      rcases api.attempts transport.journaled heeds false
        _ _ _ _ _ with ⟨_ | _, after⟩ <;> rfl
  pause world := rfl

end Api

end BuildPipeline
