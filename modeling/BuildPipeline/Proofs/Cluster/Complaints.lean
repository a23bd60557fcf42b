import BuildPipeline.Proofs.Cluster.Journal
import BuildPipeline.Proofs.Cluster.Settling
import BuildPipeline.Proofs.Parameter.Lack

namespace BuildPipeline

open Document

variable {σ : Type}

/-- A client none of whose calls is refused for want of a parameter. -/
structure ClusterClient.Supplied (client : ClusterClient σ) : Prop where
  get : ∀ inRun object world, Answer.Supplied (client.get inRun object world).1
  create : ∀ pod world, Answer.Supplied (client.create pod world).1

theorem PodFailure.plain_of_ofPod {pod : Value} {failure : Failure}
    (told : ofPod pod = .ok failure) : failure.isMissingParameter = false := by
  have containers : ∀ (name message : Value) (items : List Value),
      ofContainers name message items = .ok failure →
        failure.isMissingParameter = false := by
    intro name message items
    induction items with
    | nil =>
        intro told
        cases told
        rfl
    | cons container rest ih =>
        intro told
        obtain ⟨ending, _, told⟩ := Answer.bind_eq_ok.mp told
        obtain ⟨code, _, told⟩ := Answer.bind_eq_ok.mp told
        split at told
        · obtain ⟨_, _, told⟩ := Answer.bind_eq_ok.mp told
          obtain ⟨_, _, told⟩ := Answer.bind_eq_ok.mp told
          cases told
          rfl
        · exact ih told
  obtain ⟨metadata, _, told⟩ := Answer.bind_eq_ok.mp told
  obtain ⟨name, _, told⟩ := Answer.bind_eq_ok.mp told
  obtain ⟨status, _, told⟩ := Answer.bind_eq_ok.mp told
  obtain ⟨message, _, told⟩ := Answer.bind_eq_ok.mp told
  obtain ⟨listed, _, told⟩ := Answer.bind_eq_ok.mp told
  obtain ⟨items, _, told⟩ := Answer.bind_eq_ok.mp told
  exact containers name message items told

namespace ClusterClient.Supplied

variable {client : ClusterClient σ}

theorem looked (supplied : client.Supplied) {inRun : Bool} {object : ObjectName}
    {world next : σ} {answer : Except Error Value}
    (looking : client.get inRun object world = (answer, next)) :
    Answer.Supplied answer := by
  have got := supplied.get inRun object world
  rwa [looking] at got

theorem settling (supplied : client.Supplied) {project name current : Value}
    {world last : σ} {outcome : Except Error Value}
    (settling : client.Settling project name current world outcome last) :
    Answer.Supplied outcome := by
  induction settling with
  | succeeded => exact trivial
  | failed _ told =>
      exact (Error.lacksParameter_ofFailure _).trans (PodFailure.plain_of_ofPod told)
  | misread | impatient | cancelled => exact rfl
  | lost _ _ looking => exact supplied.looked looking
  | again _ _ _ _ ih => exact ih

theorem settle (supplied : client.Supplied) (project name : Value) (patience : Nat)
    (current : Value) (world : σ) :
    Answer.Supplied (client.settle project name patience current world).1 :=
  supplied.settling (client.settling project name patience current world)

theorem runPod (supplied : client.Supplied) (patience : Nat) (pod : Value) (world : σ) :
    Answer.Supplied (client.runPod patience pod world).1 := by
  unfold ClusterClient.runPod
  split
  · exact rfl
  · rename_i project name _
    have created := supplied.create pod world
    split <;> rename_i creating <;> rw [creating] at created
    · exact supplied.settle _ _ _ _ _
    · split
      · split <;> rename_i looking
        · exact supplied.looked looking
        · exact supplied.settle _ _ _ _ _
      · exact created

end ClusterClient.Supplied

namespace Api

/-- A connection that breaks for whatever reason but a missing parameter. -/
def Plain (transport : Transport σ) : Prop :=
  ∀ request world failure, (transport.send request world).1 = .refused failure →
    failure.isMissingParameter = false

theorem plain_of_isOfServer {failure : Failure} (ofServer : failure.isOfServer = true) :
    failure.isMissingParameter = false := by
  cases failure with
  | missingParameter => cases ofServer
  | _ => rfl

theorem plain_judge {patient : Bool} {attempt : Nat} {reply : ApiReply} {failure : Failure}
    (plain : ∀ failure, reply = .refused failure → failure.isMissingParameter = false)
    (judged : judge patient attempt reply = .failure failure) :
    failure.isMissingParameter = false := by
  have means := ApiReply.judged patient attempt reply
  rw [judged] at means
  cases means with
  | conflict => rfl
  | failed _ ofServer => exact plain_of_isOfServer ofServer
  | refused refused => exact plain failure refused

theorem plain_attempts (api : Api) {transport : Transport σ} (plain : Plain transport)
    (heeds patient : Bool) (request : ApiRequest) (left attempt : Nat) (last : String)
    (world : σ) :
    Answer.Plain (api.attempts transport heeds patient request left attempt
      last world).1 := by
  induction left generalizing attempt last world with
  | zero => exact rfl
  | succ left ih =>
      unfold attempts
      split
      · rename_i waited
        cases api.interrupts_of_pauseBefore transport heeds waited <;> rfl
      · rename_i world' _
        split
        rename_i reply next sending
        have refusals : ∀ failure, reply = .refused failure →
            failure.isMissingParameter = false := by
          intro failure refused
          refine plain request world' failure ?_
          rw [sending, refused]
        split
        · exact trivial
        · rename_i judged
          exact plain_judge refusals judged
        · exact ih _ _ _

theorem plain_path (kind : Value) (project name : String) :
    Answer.Plain (path kind project name) := by
  cases found : path kind project name with
  | ok => exact trivial
  | error => exact plain_of_isOfServer (isOfServer_of_path found)

theorem plain_creationPath (object : Value) : Answer.Plain (creationPath object) := by
  cases found : creationPath object with
  | ok => exact trivial
  | error => exact plain_of_isOfServer (isOfServer_of_creationPath found)

/-- The client of a server complains of the server and the connection only. -/
theorem supplied_client (api : Api) {transport : Transport σ} (plain : Plain transport)
    (heeds : Bool) : (api.client transport heeds).Supplied where
  get inRun object world := by
    refine Answer.Plain.mapError ?_
    have found := plain_path (.string object.kind) object.project object.name
    split <;> rename_i eq
    · rwa [eq] at found
    · exact api.plain_attempts plain _ _ _ _ _ _ _
  create object world := by
    refine Answer.Plain.mapError ?_
    have found := plain_creationPath object
    split <;> rename_i eq
    · rwa [eq] at found
    · rename_i path
      have performed := api.plain_attempts plain heeds false
        { method := "POST", path, body := some object }
        (api.retries + 1).toNat 0 "" world.transport
      dsimp only [perform]
      split <;> rename_i eq
      · exact trivial
      · rwa [eq] at performed

end Api

end BuildPipeline
