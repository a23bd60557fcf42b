import BuildPipeline.Proofs.Cluster.Journal

namespace BuildPipeline

open Document

namespace Document.Json

theorem valueIn_brackets (depth extra : Nat) (rest : List Char) :
    valueIn (2 * depth + 1 + extra) depth (List.replicate (depth + 1) '[' ++ rest) =
      .error .tooDeep := by
  induction depth with
  | zero =>
      rw [show 2 * 0 + 1 + extra = extra + 1 by omega]
      simp [valueIn]
  | succ depth ih =>
      have inner : skipSpace (List.replicate (depth + 1) '[' ++ rest) =
          List.replicate (depth + 1) '[' ++ rest := by
        simp [skipSpace, List.replicate_succ]
      rw [show 2 * (depth + 1) + 1 + extra = 2 * depth + 1 + extra + 1 + 1 by omega,
        List.replicate_succ, List.cons_append, valueIn, if_neg (Nat.succ_ne_zero depth),
        inner]
      simp only [List.replicate_succ, List.cons_append, Nat.add_sub_cancel] at ih ⊢
      split
      · rename_i closed
        simp at closed
      · rw [itemsIn, ih]

theorem read_brackets (rest : List Char) :
    read (String.ofList (List.replicate (depthLimit + 1) '[' ++ rest)) =
      .error .tooDeep := by
  have body : skipSpace (List.replicate (depthLimit + 1) '[' ++ rest) =
      List.replicate (depthLimit + 1) '[' ++ rest := by
    simp [skipSpace, List.replicate_succ]
  have fuel : 2 * (List.replicate (depthLimit + 1) '[' ++ rest).length + 2 =
      2 * depthLimit + 1 + (2 * rest.length + 3) := by
    simp only [List.length_append, List.length_replicate]
    omega
  rw [read, String.toList_ofList]
  dsimp only
  rw [body, fuel, valueIn_brackets]
  rfl

end Document.Json

theorem Api.isTooDeep_brackets (rest : List Char) :
    isTooDeep (String.ofList (List.replicate (Json.depthLimit + 1) '[' ++ rest)) =
      true := by
  rw [isTooDeep, Json.read_brackets]

/-- What each attempt of a call meets, the first of them with the number zero: the reply
to it, and whether the run is found cancelled in the wait before it. -/
structure ApiScript where
  replies : Nat → ApiReply
  cancelled : Nat → Bool := fun _ => false

/-- What a call has to do with its server, in order. -/
inductive Dealing where
  | sent (request : ApiRequest)
  | paused (seconds : Float)

namespace Dealing

def isSent : Dealing → Bool
  | .sent _ => true
  | .paused _ => false

def requests (dealings : List Dealing) : Nat :=
  dealings.countP isSent

def pauses (dealings : List Dealing) : Nat :=
  dealings.countP (!·.isSent)

end Dealing

namespace ApiScript

def transport (script : ApiScript) : Transport (List Dealing) where
  send request dealings :=
    (script.replies (Dealing.requests dealings), dealings ++ [.sent request])
  pause heeds seconds dealings :=
    (heeds && script.cancelled (Dealing.requests dealings), dealings ++ [.paused seconds])

def cuts (script : ApiScript) (heeds : Bool) : Nat → Bool
  | 0 => false
  | number + 1 => heeds && script.cancelled (number + 1)

end ApiScript

/-- A reply that has a message, in a body with too many brackets inside each other to look
for it. -/
def ApiReply.overwhelms : ApiReply → Bool
  | .response status body => decide (400 ≤ status) && Api.isTooDeep body
  | _ => false

namespace Api

/-- What is prescribed for a reply: it decides the call, in one way or another, or delays
it. -/
inductive Decisive (patient : Bool) (number : Nat) :
    ApiReply → Except Failure Value → Prop where
  | answered {status : Int} {body : String} {value : Value} (success : status < 400)
      (readable : Json.read body = .ok value) :
      Decisive patient number (.response status body) (.ok value)
  | garbled {status : Int} {body : String} {fault : Json.Fault} (success : status < 400)
      (broken : Json.read body = .error fault) :
      Decisive patient number (.response status body) (.error (unreadable fault))
  | missing {body : String} (impatient : patient = false) :
      Decisive patient number (.response 404 body)
        (.error (.notFound (errorText 404 body) (some 404)))
  | conflict {body : String} :
      Decisive patient number (.response 409 body)
        (.error (.alreadyExists (errorText 409 body) (some 409) (0 < number)))
  | rejected {status : Int} {body : String} (low : 400 ≤ status) (high : status < 500)
      (other : status ≠ 404 ∧ status ≠ 409 ∧ status ≠ 429) :
      Decisive patient number (.response status body)
        (.error (.cluster (errorText status body) (some status)))

inductive Delaying (patient : Bool) : ApiReply → String → Prop where
  | lost {message : String} : Delaying patient (.lost message) message
  | missing {body : String} (patience : patient = true) :
      Delaying patient (.response 404 body) (errorText 404 body)
  | throttled {body : String} : Delaying patient (.response 429 body) (errorText 429 body)
  | failing {status : Int} {body : String} (high : 500 ≤ status) :
      Delaying patient (.response status body) (errorText status body)

section Replies

variable {patient : Bool} {number : Nat} {reply : ApiReply}

theorem decisive_or_delaying (patient : Bool) (number : Nat)
    (carried : ∀ cause, reply ≠ .refused cause) :
    (∃ outcome, Decisive patient number reply outcome)
      ∨ ∃ message, Delaying patient reply message := by
  cases reply with
  | lost message => exact .inr ⟨_, .lost⟩
  | refused cause => exact absurd rfl (carried cause)
  | response status body =>
      have kinds : status < 400 ∨ status = 404 ∨ status = 409 ∨ status = 429 ∨ 500 ≤ status
          ∨ 400 ≤ status ∧ status < 500 ∧ status ≠ 404 ∧ status ≠ 409
            ∧ status ≠ 429 := by omega
      rcases kinds with success | rfl | rfl | rfl | high | ⟨low, high, other⟩
      · cases read : Json.read body with
        | ok value => exact .inl ⟨_, .answered success read⟩
        | error fault => exact .inl ⟨_, .garbled success read⟩
      · cases patient with
        | false => exact .inl ⟨_, .missing rfl⟩
        | true => exact .inr ⟨_, .missing rfl⟩
      · exact .inl ⟨_, .conflict⟩
      · exact .inr ⟨_, .throttled⟩
      · exact .inr ⟨_, .failing high⟩
      · exact .inl ⟨_, .rejected low high other⟩

theorem Delaying.unique {message other : String} (first : Delaying patient reply message)
    (second : Delaying patient reply other) : message = other := by
  cases first <;> cases second <;> rfl

theorem Decisive.unique {outcome other : Except Failure Value}
    (first : Decisive patient number reply outcome)
    (second : Decisive patient number reply other) :
    outcome = other := by
  cases first with
  | answered success readable =>
      cases second with
      | answered _ readableToo => rw [Except.ok.inj (readable.symm.trans readableToo)]
      | garbled _ broken => cases readable.symm.trans broken
      | missing | conflict => omega
      | rejected low => omega
  | garbled success broken =>
      cases second with
      | answered _ readable => cases broken.symm.trans readable
      | garbled _ brokenToo => rw [Except.error.inj (broken.symm.trans brokenToo)]
      | missing | conflict => omega
      | rejected low => omega
  | missing =>
      cases second with
      | missing => rfl
      | answered | garbled | rejected => omega
  | conflict =>
      cases second with
      | conflict => rfl
      | answered | garbled | rejected => omega
  | rejected low high other =>
      cases second with
      | rejected => rfl
      | answered | garbled | missing | conflict => omega

theorem Decisive.not_delaying {outcome : Except Failure Value}
    (decisive : Decisive patient number reply outcome) (message : String) :
    ¬ Delaying patient reply message := by
  intro delaying
  cases delaying with
  | lost => cases decisive
  | missing patience =>
      cases decisive with
      | missing impatient => cases impatient.symm.trans patience
      | answered | garbled | rejected => omega
  | throttled => cases decisive <;> omega
  | failing => cases decisive <;> omega

theorem judge_of_overwhelms (overwhelms : reply.overwhelms = true) :
    judge patient number reply = .failure (.misuse .tooDeep) := by
  cases reply with
  | response status body =>
      simp only [ApiReply.overwhelms, Bool.and_eq_true, decide_eq_true_eq] at overwhelms
      rw [judge, judgeResponse, if_neg (by omega), if_pos overwhelms.2]
  | lost | refused => cases overwhelms

theorem shallow_of_bearable {status : Int} {body : String}
    (bearable : (ApiReply.response status body).overwhelms = false) (low : 400 ≤ status) :
    isTooDeep body = false := by
  simpa [ApiReply.overwhelms, low] using bearable

theorem judge_of_decisive {outcome : Except Failure Value}
    (decisive : Decisive patient number reply outcome)
    (bearable : reply.overwhelms = false) :
    (judge patient number reply).Decides outcome := by
  cases decisive with
  | answered success readable =>
      rw [judge, judgeResponse, if_pos success, readable]
      rfl
  | garbled success broken =>
      rw [judge, judgeResponse, if_pos success, broken]
      rfl
  | missing impatient =>
      have shallow := shallow_of_bearable bearable (by decide)
      simp [judge, judgeResponse, shallow, impatient, Verdict.Decides]
  | conflict =>
      have shallow := shallow_of_bearable bearable (by decide)
      simp [judge, judgeResponse, shallow, Verdict.Decides]
  | @rejected status body low high other =>
      have shallow := shallow_of_bearable bearable low
      have between : ¬ status < 400 ∧ ¬ 500 ≤ status := by omega
      simp [judge, judgeResponse, shallow, between, other, Verdict.Decides]

theorem judge_of_delaying {message : String} (delaying : Delaying patient reply message)
    (bearable : reply.overwhelms = false) :
    judge patient number reply = .again message := by
  cases delaying with
  | lost => rfl
  | missing patience =>
      have shallow := shallow_of_bearable bearable (by decide)
      simp [judge, judgeResponse, shallow, patience]
  | throttled =>
      have shallow := shallow_of_bearable bearable (by decide)
      simp [judge, judgeResponse, shallow]
  | @failing status body high =>
      have shallow := shallow_of_bearable bearable (by omega)
      have others : ¬ status < 400 ∧ status ≠ 404 ∧ status ≠ 409 := by omega
      simp [judge, judgeResponse, shallow, others, high]

theorem not_decisive_of_overwhelms {misuse : Misuse}
    (overwhelms : reply.overwhelms = true) :
    ¬ Decisive patient number reply (.error (.misuse misuse)) := by
  intro decisive
  generalize found : Except.error (Failure.misuse misuse) = outcome at decisive
  cases decisive with
  | garbled success =>
      simp only [ApiReply.overwhelms, Bool.and_eq_true, decide_eq_true_eq] at overwhelms
      omega
  | answered | missing | conflict | rejected => cases found

end Replies

def waits (api : Api) : Nat → List Dealing
  | 0 => []
  | repetition + 1 => [.paused (api.delay repetition)]

def tries (api : Api) (request : ApiRequest) (count : Nat) : List Dealing :=
  (List.range count).flatMap fun number => api.waits number ++ [.sent request]

section Tries

variable (api : Api) (request : ApiRequest) (count : Nat)

theorem tries_succ :
    api.tries request (count + 1) = api.tries request count ++ api.waits count
      ++ [.sent request] := by
  simp [tries, List.range_succ]

theorem requests_waits (dealings : List Dealing) :
    Dealing.requests (dealings ++ api.waits count) = Dealing.requests dealings := by
  cases count <;> simp [Dealing.requests, waits, Dealing.isSent]

@[simp] theorem requests_tries : Dealing.requests (api.tries request count) = count := by
  induction count with
  | zero => rfl
  | succ count ih =>
      rw [tries_succ, Dealing.requests, List.countP_append, ← Dealing.requests,
        requests_waits, ih]
      rfl

theorem pauses_waits (dealings : List Dealing) :
    Dealing.pauses (dealings ++ api.waits (count + 1)) = Dealing.pauses dealings + 1 := by
  simp [Dealing.pauses, waits, Dealing.isSent]

theorem pauses_tries : Dealing.pauses (api.tries request (count + 1)) = count := by
  induction count with
  | zero => rfl
  | succ count ih =>
      rw [tries_succ, Dealing.pauses, List.countP_append, ← Dealing.pauses,
        pauses_waits, ih]
      rfl

end Tries

variable {api : Api} {script : ApiScript} {heeds patient : Bool} {request : ApiRequest}

/-- A call that has come to the attempt of a number, or to its end there: all attempts
before were made, and each of them was due another one. -/
def Underway (script : ApiScript) (heeds patient : Bool) (number : Nat) : Prop :=
  ∀ earlier < number, script.cuts heeds earlier = false
    ∧ ∃ message, Delaying patient (script.replies earlier) message

/-- What is prescribed for a call: the first decisive reply decides it, unless the
attempts are used up or the run is found cancelled before. -/
inductive Prescribed (api : Api) (script : ApiScript) (heeds patient : Bool)
    (request : ApiRequest) :
    Except Failure Value → List Dealing → Prop where
  | decided {number : Nat} {outcome : Except Failure Value} (allowed : number ≤ api.retries)
      (underway : Underway script heeds patient number)
      (uncut : script.cuts heeds number = false)
      (decisive : Decisive patient number (script.replies number) outcome) :
      Prescribed api script heeds patient request outcome (api.tries request (number + 1))
  | exhausted {last : Nat} {message : String} (final : last = api.retries)
      (underway : Underway script heeds patient (last + 1))
      (delaying : Delaying patient (script.replies last) message) :
      Prescribed api script heeds patient request (.error (api.exhausted request message))
        (api.tries request (last + 1))
  | cancelled {number : Nat} (allowed : number ≤ api.retries)
      (underway : Underway script heeds patient number)
      (cut : script.cuts heeds number = true) :
      Prescribed api script heeds patient request (.error backoffCancelled)
        (api.tries request number ++ api.waits number)

theorem Underway.succ {number : Nat} (underway : Underway script heeds patient number)
    (uncut : script.cuts heeds number = false) {message : String}
    (delaying : Delaying patient (script.replies number) message) :
    Underway script heeds patient (number + 1) := by
  intro earlier before
  rcases Nat.lt_succ_iff_lt_or_eq.mp before with before | rfl
  · exact underway earlier before
  · exact ⟨uncut, message, delaying⟩

def Ends (script : ApiScript) (heeds patient : Bool) (number : Nat) : Prop :=
  script.cuts heeds number = true ∨ ∃ outcome,
    Decisive patient number (script.replies number) outcome

theorem Underway.le_of_ends {number other : Nat}
    (underway : Underway script heeds patient other)
    (ends : Ends script heeds patient number) : other ≤ number := by
  by_contra before
  obtain ⟨uncut, message, delaying⟩ := underway number (Nat.lt_of_not_le before)
  rcases ends with cut | ⟨outcome, decisive⟩
  · cases cut.symm.trans uncut
  · exact decisive.not_delaying message delaying

theorem Prescribed.unique {outcome other : Except Failure Value}
    {dealings others : List Dealing}
    (first : Prescribed api script heeds patient request outcome dealings)
    (second : Prescribed api script heeds patient request other others) :
    outcome = other ∧ dealings = others := by
  -- No call goes on past an attempt that ends it, so two courses end at the same one.
  cases first with
  | @decided number _ allowed underway uncut decisive =>
      have ends : Ends script heeds patient number := .inr ⟨_, decisive⟩
      cases second with
      | decided _ underwayToo _ decisiveToo =>
          obtain rfl := le_antisymm (underway.le_of_ends (.inr ⟨_, decisiveToo⟩))
            (underwayToo.le_of_ends ends)
          exact ⟨decisive.unique decisiveToo, rfl⟩
      | exhausted final underwayToo =>
          have := underwayToo.le_of_ends ends
          omega
      | cancelled _ underwayToo cut =>
          obtain rfl :=
            le_antisymm (underway.le_of_ends (.inl cut)) (underwayToo.le_of_ends ends)
          cases cut.symm.trans uncut
  | @exhausted last _ final underway delaying =>
      cases second with
      | decided allowed _ _ decisive =>
          have := underway.le_of_ends (.inr ⟨_, decisive⟩)
          omega
      | @exhausted lastToo _ finalToo _ delayingToo =>
          obtain rfl : last = lastToo := by omega
          rw [delaying.unique delayingToo]
          exact ⟨rfl, rfl⟩
      | cancelled allowed _ cut =>
          have := underway.le_of_ends (.inl cut)
          omega
  | @cancelled number allowed underway cut =>
      have ends : Ends script heeds patient number := .inl cut
      cases second with
      | decided _ underwayToo uncut decisive =>
          obtain rfl := le_antisymm (underway.le_of_ends (.inr ⟨_, decisive⟩))
            (underwayToo.le_of_ends ends)
          cases cut.symm.trans uncut
      | exhausted final underwayToo =>
          have := underwayToo.le_of_ends ends
          omega
      | cancelled _ underwayToo cutToo =>
          obtain rfl :=
            le_antisymm (underway.le_of_ends (.inl cutToo)) (underwayToo.le_of_ends ends)
          exact ⟨rfl, rfl⟩

theorem exists_prescribed (api : Api) (script : ApiScript) (heeds patient : Bool)
    (request : ApiRequest) (allows : 0 ≤ api.retries)
    (carried : ∀ number cause, script.replies number ≠ .refused cause) :
    ∃ outcome dealings, Prescribed api script heeds patient request outcome dealings := by
  have goes : ∀ number : Nat, number ≤ api.retries + 1 →
      Underway script heeds patient number
        ∨ ∃ outcome dealings, Prescribed api script heeds patient request
          outcome dealings := by
    intro number
    induction number with
    | zero => exact fun _ => .inl fun _ none => absurd none (Nat.not_lt_zero _)
    | succ number ih =>
        intro allowed
        refine (ih (by omega)).elim (fun underway => ?_) .inr
        cases cut : script.cuts heeds number with
        | true => exact .inr ⟨_, _, .cancelled (by omega) underway cut⟩
        | false =>
            rcases decisive_or_delaying patient number (carried number) with
              ⟨outcome, decisive⟩ | ⟨message, delaying⟩
            · exact .inr ⟨_, _, .decided (by omega) underway cut decisive⟩
            · exact .inl (underway.succ cut delaying)
  obtain ⟨last, final⟩ := Int.eq_ofNat_of_zero_le allows
  refine (goes (last + 1) (by omega)).elim (fun underway => ?_) id
  obtain ⟨-, message, delaying⟩ := underway last (Nat.lt_succ_self last)
  exact ⟨_, _, .exhausted final.symm underway delaying⟩

/-- What a call can bear: no reply overwhelms it, and its delays can be doubled. -/
def Bearable (script : ApiScript) (dealings : List Dealing) : Prop :=
  (∀ number < Dealing.requests dealings, (script.replies number).overwhelms = false)
    ∧ Dealing.pauses dealings ≤ doublingLimit

theorem bearable_tries_succ {number : Nat} :
    Bearable script (api.tries request (number + 1))
      ↔ Bearable script (api.tries request number ++ api.waits number)
        ∧ (script.replies number).overwhelms = false := by
  have paused : Dealing.pauses (api.tries request number ++ api.waits number) = number := by
    cases number with
    | zero => rfl
    | succ number => rw [pauses_waits, pauses_tries]
  rw [Bearable, Bearable, requests_waits, requests_tries, requests_tries,
    pauses_tries, paused, Nat.forall_lt_succ_right]
  tauto

theorem bearable_waits {number : Nat} :
    Bearable script (api.tries request number ++ api.waits number)
      ↔ Bearable script (api.tries request number) ∧ number ≤ doublingLimit := by
  rw [Bearable, Bearable, requests_waits]
  cases number with
  | zero => simp [waits]
  | succ number =>
      rw [pauses_waits, pauses_tries]
      exact ⟨fun bearable => ⟨⟨bearable.1, by omega⟩, bearable.2⟩,
        fun bearable => ⟨bearable.1.1, bearable.2⟩⟩

theorem pauseBefore_tries (api : Api) (script : ApiScript) (heeds : Bool)
    (request : ApiRequest) (number : Nat) :
    api.pauseBefore script.transport heeds number (api.tries request number) =
      if doublingLimit < number then (.error (.misuse .overflow), api.tries request number)
      else
        (if script.cuts heeds number then .error backoffCancelled else .ok (),
          api.tries request number ++ api.waits number) := by
  cases number with
  | zero => rfl
  | succ repetition =>
      rw [pauseBefore]
      by_cases within : repetition < doublingLimit
      · rw [if_pos within, if_neg (by omega)]
        simp only [ApiScript.transport, requests_tries, ApiScript.cuts]
        by_cases cut : (heeds && script.cancelled (repetition + 1)) = true
        · simp only [cut, if_true]
          rfl
        · simp only [Bool.not_eq_true] at cut
          simp only [cut, Bool.false_eq_true, if_false]
          rfl
      · rw [if_neg within, if_pos (by omega)]

theorem attempts_tries (api : Api) (script : ApiScript) (heeds patient : Bool)
    (request : ApiRequest) (left number : Nat) (last : String) :
    api.attempts script.transport heeds patient request (left + 1) number last
        (api.tries request number) =
      if doublingLimit < number then (.error (.misuse .overflow), api.tries request number)
      else if script.cuts heeds number then
        (.error backoffCancelled, api.tries request number ++ api.waits number)
      else
        match judge patient number (script.replies number) with
        | .answer value => (.ok value, api.tries request (number + 1))
        | .failure failure => (.error failure, api.tries request (number + 1))
        | .again message =>
            api.attempts script.transport heeds patient request left (number + 1) message
              (api.tries request (number + 1)) := by
  have sent : script.transport.send request (api.tries request number ++ api.waits number) =
      (script.replies number, api.tries request (number + 1)) := by
    simp only [ApiScript.transport, requests_waits, requests_tries, tries_succ]
  rw [attempts, pauseBefore_tries]
  by_cases beyond : doublingLimit < number
  · rw [if_pos beyond, if_pos beyond]
  · rw [if_neg beyond, if_neg beyond]
    by_cases cut : script.cuts heeds number = true
    · rw [if_pos cut, if_pos cut]
    · rw [if_neg cut, if_neg cut]
      cases judged : judge patient number (script.replies number) <;>
        simp only [sent, judged]

section Following

variable (api : Api) {number : Nat} (allowed : number ≤ api.retries + 1)
  (underway : Underway script heeds patient number)

include allowed underway

/-- A call that can bear all so far has come as far as prescribed, with the message of the
last attempt. Otherwise it has broken off. -/
theorem perform_of_underway (request : ApiRequest) :
    (Bearable script (api.tries request number)
        ∧ ∃ last, (∀ before, number = before + 1 →
            Delaying patient (script.replies before) last)
          ∧ api.perform script.transport heeds patient request [] =
              api.attempts script.transport heeds patient request
                ((api.retries + 1).toNat - number) number last (api.tries request number))
      ∨ ¬ Bearable script (api.tries request number)
        ∧ ∃ misuse made, made ≤ number
          ∧ api.perform script.transport heeds patient request [] =
              (.error (.misuse misuse), api.tries request made) := by
  induction number with
  | zero => exact .inl ⟨⟨by simp, by simp [tries, Dealing.pauses]⟩, "", nofun, rfl⟩
  | succ number ih =>
      obtain ⟨uncut, message, delaying⟩ := underway number (Nat.lt_succ_self number)
      rw [bearable_tries_succ, bearable_waits]
      rcases ih (by omega) fun earlier before =>
        underway earlier (Nat.lt_succ_of_lt before) with
        ⟨bearable, last, -, eq⟩ | ⟨unbearable, misuse, made, fewer, eq⟩
      · obtain ⟨left, more⟩ : ∃ left, (api.retries + 1).toNat - number = left + 1 :=
          ⟨(api.retries + 1).toNat - (number + 1), by omega⟩
        have rest : (api.retries + 1).toNat - (number + 1) = left := by omega
        rw [eq, more, attempts_tries, rest, uncut]
        -- The call may break off here at the delay, and after it at the message of the
        -- reply.
        by_cases beyond : doublingLimit < number
        · refine .inr ⟨fun bears => ?_, .overflow, number,
            Nat.le_succ number, if_pos beyond⟩
          exact absurd bears.1.2 (Nat.not_le_of_lt beyond)
        · rw [if_neg beyond]
          cases heavy : (script.replies number).overwhelms with
          | true =>
              refine .inr ⟨fun bears => (nomatch bears.2), .tooDeep,
                number + 1, le_refl _, ?_⟩
              rw [judge_of_overwhelms heavy]
              rfl
          | false =>
              refine .inl ⟨⟨⟨bearable, Nat.le_of_not_lt beyond⟩, rfl⟩, message, ?_, ?_⟩
              · rintro before ⟨⟩
                exact delaying
              · rw [judge_of_delaying delaying heavy]
                rfl
      · exact .inr ⟨fun bears => unbearable bears.1.1, misuse, made,
          Nat.le_succ_of_le fewer, eq⟩

end Following

theorem performs_decided_iff {number : Nat} {outcome : Except Failure Value}
    (allowed : number ≤ api.retries) (underway : Underway script heeds patient number)
    (uncut : script.cuts heeds number = false)
    (decisive : Decisive patient number (script.replies number) outcome) :
    api.perform script.transport heeds patient request [] =
      (outcome, api.tries request (number + 1))
      ↔ Bearable script (api.tries request (number + 1)) := by
  rw [bearable_tries_succ, bearable_waits]
  rcases perform_of_underway api (by omega) underway request with
    ⟨bearable, last, -, eq⟩ | ⟨unbearable, misuse, made, fewer, eq⟩
  · rw [eq, show (api.retries + 1).toNat - number =
      (api.retries.toNat - number) + 1 by omega, attempts_tries, uncut]
    by_cases beyond : doublingLimit < number
    · rw [if_pos beyond]
      refine iff_of_false (fun same => ?_) fun bears =>
        absurd bears.1.2 (Nat.not_le_of_lt beyond)
      have counted := congrArg Dealing.requests (congrArg Prod.snd same)
      simp at counted
    · rw [if_neg beyond]
      cases heavy : (script.replies number).overwhelms with
      | true =>
          rw [judge_of_overwhelms heavy]
          refine iff_of_false (fun same => ?_) fun bears => nomatch bears.2
          cases same
          exact not_decisive_of_overwhelms heavy decisive
      | false =>
          refine iff_of_true ?_ ⟨⟨bearable, Nat.le_of_not_lt beyond⟩, rfl⟩
          have decides := judge_of_decisive decisive heavy
          cases judged : judge patient number (script.replies number) with
          | answer | failure =>
              rw [judged] at decides
              cases decides
              rfl
          | again =>
              rw [judged] at decides
              cases decides
  · refine iff_of_false (fun same => ?_) fun bears => unbearable bears.1.1
    have counted := congrArg Dealing.requests (congrArg Prod.snd (eq.symm.trans same))
    simp only [requests_tries] at counted
    omega

theorem performs_exhausted_iff {last : Nat} {message : String} (final : last = api.retries)
    (underway : Underway script heeds patient (last + 1))
    (delaying : Delaying patient (script.replies last) message) :
    api.perform script.transport heeds patient request [] =
        (.error (api.exhausted request message), api.tries request (last + 1))
      ↔ Bearable script (api.tries request (last + 1)) := by
  rcases perform_of_underway api (by omega) underway request with
    ⟨bearable, known, said, eq⟩ | ⟨unbearable, misuse, made, fewer, eq⟩
  · rw [eq, show (api.retries + 1).toNat - (last + 1) = 0 by omega, attempts,
      delaying.unique (said last rfl)]
    exact iff_of_true rfl bearable
  · refine iff_of_false (fun same => ?_) unbearable
    cases eq.symm.trans same

theorem performs_cancelled_iff {number : Nat} (allowed : number ≤ api.retries)
    (underway : Underway script heeds patient number)
    (cut : script.cuts heeds number = true) :
    api.perform script.transport heeds patient request [] =
        (.error backoffCancelled, api.tries request number ++ api.waits number)
      ↔ Bearable script (api.tries request number ++ api.waits number) := by
  rw [bearable_waits]
  rcases perform_of_underway api (by omega) underway request with
    ⟨bearable, last, -, eq⟩ | ⟨unbearable, misuse, made, fewer, eq⟩
  · rw [eq, show (api.retries + 1).toNat - number =
      (api.retries.toNat - number) + 1 by omega, attempts_tries, cut]
    by_cases beyond : doublingLimit < number
    · rw [if_pos beyond]
      refine iff_of_false (fun same => ?_) fun bears =>
        absurd bears.2 (Nat.not_le_of_lt beyond)
      cases congrArg Prod.fst same
    · rw [if_neg beyond]
      exact iff_of_true rfl ⟨bearable, Nat.le_of_not_lt beyond⟩
  · refine iff_of_false (fun same => ?_) fun bears => unbearable bears.1
    cases congrArg Prod.fst (eq.symm.trans same)

/-- For every count of repetitions and whatever its attempts meet, one thing is prescribed
for a call: how it ends, and what it has to do with the server, request by request and
delay by delay.  The call does just that exactly if no reply on this way is too much for
it, that is a message cannot be looked for in a body with too many brackets inside each
other, and if no delay on this way has to be doubled more often than a double can be. -/
theorem performs_prescribed_iff (api : Api) (script : ApiScript) (heeds patient : Bool)
    (request : ApiRequest) (allows : 0 ≤ api.retries)
    (carried : ∀ number cause, script.replies number ≠ .refused cause) :
    ∃ outcome dealings, Prescribed api script heeds patient request outcome dealings
      ∧ (∀ other others, Prescribed api script heeds patient request other others →
          outcome = other ∧ dealings = others)
      ∧ (api.perform script.transport heeds patient request [] = (outcome, dealings)
          ↔ Bearable script dealings) := by
  obtain ⟨outcome, dealings, prescribed⟩ :=
    exists_prescribed api script heeds patient request allows carried
  refine ⟨outcome, dealings, prescribed, fun _ _ => prescribed.unique, ?_⟩
  cases prescribed with
  | decided allowed underway uncut decisive =>
      exact performs_decided_iff allowed underway uncut decisive
  | exhausted final underway delaying =>
      exact performs_exhausted_iff final underway delaying
  | cancelled allowed underway cut => exact performs_cancelled_iff allowed underway cut

def fetching : ApiRequest where
  method := "GET"
  path := "/api/v1/namespaces/ci/pods/cli"

def failingOnce (body : String) : ApiScript where
  replies
    | 0 => .response 503 body
    | _ => .response 200 "true"

theorem failingOnce_delays (body : String) :
    Prescribed (.ofUrl "https://cluster") (failingOnce body) true true fetching
      (.ok (.bool true)) ((Api.ofUrl "https://cluster").tries fetching 2) := by
  have underway : Underway (failingOnce body) true true 1 := by
    intro earlier before
    obtain rfl : earlier = 0 := by omega
    exact ⟨rfl, _, .failing (by decide)⟩
  exact .decided (by decide) underway rfl (.answered (by decide) (by rfl))

theorem failingOnce_performs :
    (Api.ofUrl "https://cluster").perform (failingOnce "").transport true true fetching [] =
      (.ok (.bool true), (Api.ofUrl "https://cluster").tries fetching 2) := by
  have carried : ∀ number cause, (failingOnce "").replies number ≠ .refused cause := by
    rintro (_ | _) cause ⟨⟩
  obtain ⟨outcome, dealings, _, unique, performs⟩ :=
    performs_prescribed_iff (.ofUrl "https://cluster")
    (failingOnce "") true true fetching (by decide) carried
  obtain ⟨rfl, rfl⟩ := unique _ _ (failingOnce_delays "")
  exact performs.mpr ⟨by decide +kernel, by decide +kernel⟩

theorem failingOnce_breaks {body : String} (deep : isTooDeep body = true) :
    (Api.ofUrl "https://cluster").perform (failingOnce body).transport true
      true fetching [] =
      (.error (.misuse .tooDeep), (Api.ofUrl "https://cluster").tries fetching 1) := by
  have overwhelms : (ApiReply.response 503 body).overwhelms = true := by
    simp [ApiReply.overwhelms, deep]
  refine (attempts_tries (.ofUrl "https://cluster") (failingOnce body) true true fetching
    5 0 "").trans ?_
  rw [if_neg (by decide), ApiScript.cuts, if_neg (by decide)]
  simp only [failingOnce, judge_of_overwhelms overwhelms]

def brackets : String :=
  String.ofList (List.replicate (Json.depthLimit + 1) '[')

/-- A response to be tried again for its status breaks the call off by the brackets in its
body. -/
theorem failingOnce_overwhelms :
    Prescribed (.ofUrl "https://cluster") (failingOnce brackets) true true fetching
      (.ok (.bool true)) ((Api.ofUrl "https://cluster").tries fetching 2)
      ∧ (Api.ofUrl "https://cluster").perform (failingOnce brackets).transport true
          true fetching [] =
          (.error (.misuse .tooDeep), (Api.ofUrl "https://cluster").tries fetching 1) := by
  have deep : isTooDeep brackets = true := by
    simpa [brackets] using isTooDeep_brackets []
  exact ⟨failingOnce_delays _, failingOnce_breaks deep⟩

end Api

end BuildPipeline
