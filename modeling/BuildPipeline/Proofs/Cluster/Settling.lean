import BuildPipeline.Cluster.Client

namespace BuildPipeline

open Document

variable {σ : Type}

namespace ClusterClient

/-- How a wait goes on from a pod that was just seen, and how it ends. -/
inductive Settling (client : ClusterClient σ) (project name : Value) :
    Value → σ → Except Error Value → σ → Prop where
  | succeeded {current : Value} {world : σ} (shown : PodPhase.ofPod current =
    .ok .succeeded) :
      Settling client project name current world (.ok current) world
  | failed {current : Value} {world : σ} {failure : Failure}
      (shown : PodPhase.ofPod current = .ok .failed)
      (told : PodFailure.ofPod current = .ok failure) :
      Settling client project name current world (.error (Error.ofFailure failure)) world
  | misread {current : Value} {world : σ} {fault : Misuse}
      (unread : PodPhase.ofPod current = .error fault
        ∨ PodPhase.ofPod current = .ok .failed ∧ PodFailure.ofPod current = .error fault) :
      Settling client project name current world
        (.error (Error.ofFailure (.misuse fault))) world
  | impatient {current : Value} {world : σ} (shown : PodPhase.ofPod current =
    .ok .unfinished) :
      Settling client project name current world
        (.error (Error.ofFailure (.runtime "poll limit"))) world
  | cancelled {current : Value} {world paused : σ}
      (shown : PodPhase.ofPod current = .ok .unfinished)
      (pausing : client.pause world = (true, paused)) :
      Settling client project name current world
        (.error (Error.ofFailure (waitingCancelled project name))) paused
  | lost {current : Value} {world paused looked : σ} {error : Error}
      (shown : PodPhase.ofPod current = .ok .unfinished)
      (pausing : client.pause world = (false, paused))
      (looking : client.get true ⟨"Pod", project.text, nameText name⟩ paused =
        (.error error, looked)) :
      Settling client project name current world (.error error) looked
  | again {current found : Value} {world paused looked last : σ}
      {outcome : Except Error Value}
      (shown : PodPhase.ofPod current = .ok .unfinished)
      (pausing : client.pause world = (false, paused))
      (looking : client.get true ⟨"Pod", project.text, nameText name⟩ paused =
        (.ok found, looked))
      (later : Settling client project name found looked outcome last) :
      Settling client project name current world outcome last

theorem Settling.succeeded_of_ok {client : ClusterClient σ}
    {project name current pod : Value} {world last : σ} {outcome : Except Error Value}
    (settling : client.Settling project name current world outcome last)
    (returned : outcome = .ok pod) : PodPhase.ofPod pod = .ok .succeeded := by
  induction settling with
  | succeeded shown =>
      cases returned
      exact shown
  | again _ _ _ _ ih => exact ih returned
  | failed | misread | impatient | cancelled | lost => cases returned

variable (client : ClusterClient σ) (project name : Value)

theorem settling_of_ended (patience : Nat) {current : Value} (world : σ)
    (ended : PodPhase.ofPod current ≠ .ok .unfinished) :
    client.Settling project name current world
      (client.settle project name patience current world).1
      (client.settle project name patience current world).2 := by
  unfold settle
  cases shown : PodPhase.ofPod current with
  | error fault => exact .misread (.inl shown)
  | ok phase =>
      cases phase with
      | succeeded => exact .succeeded shown
      | unfinished => exact absurd shown ended
      | failed =>
          cases told : PodFailure.ofPod current with
          | ok failure => exact .failed shown told
          | error fault => exact .misread (.inr ⟨shown, told⟩)

theorem settling (patience : Nat) (current : Value) (world : σ) :
    client.Settling project name current world
      (client.settle project name patience current world).1
      (client.settle project name patience current world).2 := by
  induction patience generalizing current world with
  | zero =>
      by_cases shown : PodPhase.ofPod current = .ok .unfinished
      · unfold settle
        rw [shown]
        exact .impatient shown
      · exact client.settling_of_ended project name 0 world shown
  | succ patience ih =>
      by_cases shown : PodPhase.ofPod current = .ok .unfinished
      · unfold settle
        rw [shown]
        rcases pausing : client.pause world with ⟨_ | _, paused⟩
        · rcases looking : client.get true ⟨"Pod", project.text, nameText name⟩ paused with
            ⟨error | found, looked⟩
          · simp only [looking]
            exact .lost shown pausing looking
          · simp only [looking]
            exact .again shown pausing looking (ih found looked)
        · exact .cancelled shown pausing
      · exact client.settling_of_ended project name (patience + 1) world shown

end ClusterClient

end BuildPipeline
