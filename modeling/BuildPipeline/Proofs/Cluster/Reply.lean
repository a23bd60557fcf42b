import BuildPipeline.Cluster.Api
import BuildPipeline.Proofs.Answer

namespace BuildPipeline

open Document

/-- Failures of the calls to a server: of the server itself, of what it sent, or of
waiting for it. -/
def Failure.isOfServer : Failure → Bool
  | .cluster _ _ | .notFound _ _ | .alreadyExists _ _ _ | .transient _ _ => true
  | .cancelled _ | .value _ | .misuse _ => true
  | _ => false

def Failure.isConflict : Failure → Bool
  | .alreadyExists _ _ _ => true
  | _ => false

namespace ApiReply

def received? : ApiReply → Option Value
  | .response status body => if status < 400 then (Json.read body).toOption else none
  | _ => none

def isConflict : ApiReply → Bool
  | .response status body => status == 409 && !Api.isTooDeep body
  | _ => false

def tells (reply : ApiReply) : Bool :=
  reply.received?.isSome || reply.isConflict

/-- A reply that settles a creation, whatever its body says. -/
def Settles : ApiReply → Prop
  | .response status _ => status < 400 ∨ status = 409
  | _ => False

def IsRetried (patient : Bool) (reply : ApiReply) : Prop :=
  ∃ number message, Api.judge patient number reply = .again message

inductive Judged (number : Nat) (reply : ApiReply) : Api.Verdict → Prop where
  | shown {value : Value} (received : reply.received? = some value) :
      Judged number reply (.answer value)
  | conflict (message : String) (conflict : reply.isConflict = true) :
      Judged number reply (.failure (.alreadyExists message (some 409) (0 < number)))
  | failed {failure : Failure} (untold : reply.tells = false)
      (ofServer : failure.isOfServer = true)
      (other : failure.isConflict = false) : Judged number reply (.failure failure)
  | refused {failure : Failure} (refused : reply = .refused failure) :
      Judged number reply (.failure failure)
  | again (message : String) (unsettled : ¬ reply.Settles) :
      Judged number reply (.again message)

theorem judged_success {status : Int} (success : status < 400) (body : String)
    (patient : Bool) (number : Nat) :
    Judged number (.response status body)
      (Api.judge patient number (.response status body)) := by
  have received : received? (.response status body) = (Json.read body).toOption :=
    if_pos success
  rw [Api.judge, Api.judgeResponse, if_pos success]
  cases read : Json.read body with
  | ok value =>
      rw [read] at received
      exact .shown received
  | error fault =>
      rw [read] at received
      have untold : tells (.response status body) = false := by
        have other : status ≠ 409 := by omega
        simp [tells, received, Except.toOption, isConflict, other]
      apply Judged.failed untold
      · cases fault <;> rfl
      · cases fault <;> rfl

theorem judged (patient : Bool) (number : Nat) (reply : ApiReply) :
    Judged number reply (Api.judge patient number reply) := by
  cases reply with
  | lost message => exact .again message id
  | refused failure => exact .refused rfl
  | response status body =>
      by_cases success : status < 400
      · exact judged_success success body patient number
      · have unreceived : received? (.response status body) = none := if_neg success
        have untold : status ≠ 409 → tells (.response status body) = false := by
          intro other
          simp [tells, unreceived, isConflict, other]
        have unsettled : status ≠ 409 → ¬ Settles (.response status body) :=
          fun other settled => settled.elim success other
        rw [Api.judge, Api.judgeResponse, if_neg success]
        split
        · rename_i deep
          refine .failed ?_ rfl rfl
          simp [tells, unreceived, isConflict, deep]
        · rename_i readable
          dsimp only
          split
          · rename_i missing
            split
            · exact .again _ (unsettled (by omega))
            · exact .failed (untold (by omega)) rfl rfl
          · split
            · rename_i conflict
              subst conflict
              exact .conflict _ (by simpa [isConflict] using readable)
            · rename_i other
              split
              · exact .again _ (unsettled other)
              · exact .failed (untold other) rfl rfl

variable {patient : Bool} {number : Nat} {reply : ApiReply}

theorem unreceived_of_isConflict (conflict : reply.isConflict = true) :
    reply.received? = none := by
  cases reply with
  | response status body =>
      simp only [isConflict, Bool.and_eq_true, beq_iff_eq] at conflict
      apply if_neg
      omega
  | lost | refused => rfl

theorem received?_of_not_settles (unsettled : ¬ reply.Settles) :
    reply.received? = none := by
  cases reply with
  | response status body => exact if_neg fun success => unsettled (.inl success)
  | lost message => rfl
  | refused failure => rfl

theorem untold_of_not_settles (unsettled : ¬ reply.Settles) : reply.tells = false := by
  cases reply with
  | response status body =>
      have other : status ≠ 409 := fun conflict => unsettled (.inr conflict)
      simp [tells, received?_of_not_settles unsettled, isConflict, other]
  | lost message => rfl
  | refused failure => rfl

theorem received?_of_answer {value : Value}
    (answered : Api.judge patient number reply = .answer value) :
    reply.received? = some value := by
  have judged := judged patient number reply
  rw [answered] at judged
  cases judged with
  | shown received => exact received

theorem received?_of_failure {failure : Failure}
    (failed : Api.judge patient number reply = .failure failure) :
    reply.received? = none := by
  have judged := judged patient number reply
  rw [failed] at judged
  cases judged with
  | conflict message conflict => exact unreceived_of_isConflict conflict
  | failed untold => simpa [tells] using (Bool.or_eq_false_iff.mp untold).1
  | refused refused =>
      rw [refused]
      rfl

theorem IsRetried.not_settles (retried : reply.IsRetried patient) : ¬ reply.Settles := by
  obtain ⟨number, message, again⟩ := retried
  have judged := judged patient number reply
  rw [again] at judged
  cases judged with
  | again _ unsettled => exact unsettled

theorem isOfServer_of_judge {failure : Failure}
    (answered : ∀ refusal, reply ≠ .refused refusal)
    (failed : Api.judge patient number reply = .failure failure) :
    failure.isOfServer = true := by
  have judged := judged patient number reply
  rw [failed] at judged
  cases judged with
  | conflict => rfl
  | failed _ ofServer => exact ofServer
  | refused refused => exact absurd refused (answered failure)

end ApiReply

namespace Api

theorem isOfServer_of_path {kind : Value} {project name : String} {failure : Failure}
    (wrong : path kind project name = .error failure) : failure.isOfServer = true := by
  unfold path resource at wrong
  split at wrong
  · split at wrong <;> cases wrong
    rfl
  · cases wrong
    rfl

theorem isOfServer_of_creationPath {object : Value} {failure : Failure}
    (wrong : creationPath object = .error failure) : failure.isOfServer = true := by
  have asks : ∀ (answer : Except Misuse Value),
      Answer.Yields (fun _ => True) (fun failure => failure.isOfServer = true)
        (asked answer) := by
    intro answer
    cases answer with
    | ok => exact trivial
    | error => exact rfl
  have yields : Answer.Yields (fun _ => True) (fun failure => failure.isOfServer = true)
      (creationPath object) := by
    refine (asks _).bind fun metadata _ _ => ?_
    refine (asks _).bind fun kind _ _ => ?_
    refine (asks _).bind fun project _ _ => ?_
    cases found : path kind project.text "" with
    | ok => exact trivial
    | error => exact isOfServer_of_path found
  rwa [wrong] at yields

end Api

end BuildPipeline
