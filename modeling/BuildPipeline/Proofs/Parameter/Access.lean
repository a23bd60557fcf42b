import BuildPipeline.Parameter.Resolution
import BuildPipeline.Proofs.Parameter.Declaration
import Mathlib.Data.List.Induction

namespace BuildPipeline

open Document

variable {ρ σ : Type}

/-- What a reader has got: its resolver was called and failed or returned, or was not
called. -/
inductive Reading where
  | failed (error : Error)
  | returned (value : Value)
  | recalled (value : Value)

namespace Reading

def of : Option Value → Except Error Value → Reading
  | some value, _ => .recalled value
  | none, .ok value => .returned value
  | none, .error error => .failed error

def answer : Reading → Except Error Value
  | .failed error => .error error
  | .returned value | .recalled value => .ok value

def isCall : Reading → Bool
  | .failed _ | .returned _ => true
  | .recalled _ => false

end Reading

/-- Accesses of a registry, each under one lock. -/
inductive Access (ρ : Type) where
  | declare (added : List (Declaration ρ))
  | succeed (producer : String)
  | has (name : String) (answer : Bool)
  | refuse (name : Value) (failure : Failure)
  | locate (name : String) (place : Nat)
  | read (name : String) (place : Nat) (resolver : ρ) (reading : Reading)

namespace Access

def added : Access ρ → List (Declaration ρ)
  | .declare added => added
  | _ => []

def called? : Access ρ → Option ρ
  | .read _ _ resolver reading => if reading.isCall then some resolver else none
  | _ => none

def readingAt? (place : Nat) : Access ρ → Option Reading
  | .read _ other _ reading => if other = place then some reading else none
  | _ => none

def answer? : Access ρ → Option (Except Error Value)
  | .refuse _ failure => some (.error (.ofFailure failure))
  | .read _ _ _ reading => some reading.answer
  | _ => none

def declarations (history : List (Access ρ)) : List (Declaration ρ) :=
  history.flatMap added

def readingsAt (place : Nat) (history : List (Access ρ)) : List Reading :=
  history.filterMap (readingAt? place)

theorem declarations_snoc (history : List (Access ρ)) (access : Access ρ) :
    declarations (history ++ [access]) = declarations history ++ access.added := by
  simp [declarations]

theorem readingsAt_snoc (place : Nat) (history : List (Access ρ)) (access : Access ρ) :
    readingsAt place (history ++ [access])
      = readingsAt place history ++ (access.readingAt? place).toList := by
  rw [readingsAt, List.filterMap_append, readingsAt]
  cases reading : access.readingAt? place <;> simp [reading]

end Access

def Declaration.Latest (name : String) (declarations : List (Declaration ρ)) (place : Nat)
    (declaration : Declaration ρ) : Prop :=
  ∃ before after, declarations = before ++ declaration :: after ∧ before.length = place
    ∧ declaration.name = name ∧ name ∉ after.map (·.name)

namespace Register

variable {register : Register ρ} {name : String} {place : Nat} {declaration : Declaration ρ}

theorem latest_of_findIn {declared : List (Declaration ρ)}
    (found : findIn name declared = some (place, declaration)) :
    Declaration.Latest name declared.reverse place declaration := by
  induction declared with
  | nil => cases found
  | cons newest older ih =>
      rw [findIn] at found
      rw [List.reverse_cons]
      split at found
      · rename_i same
        cases found
        exact ⟨older.reverse, [], rfl, List.length_reverse, same, by simp⟩
      · rename_i other
        obtain ⟨before, after, split, length, same, last⟩ := ih found
        refine ⟨before, after ++ [newest], by simp [split], length, same, ?_⟩
        rw [List.map_append, List.mem_append, not_or]
        exact ⟨last, fun newest => other (List.mem_singleton.mp newest).symm⟩

theorem findIn_append {newer older : List (Declaration ρ)}
    (others : name ∉ newer.map (·.name)) :
    findIn name (newer ++ older) = findIn name older := by
  induction newer with
  | nil => rfl
  | cons newest rest ih =>
      rw [List.map_cons, List.mem_cons, not_or] at others
      rw [List.cons_append, findIn, if_neg (Ne.symm others.1), ih others.2]

theorem locate_eq_ok {resolver : ρ}
    (located : register.locate name = .ok (place, resolver)) :
    ∃ declaration, register.find? name = some (place, declaration)
      ∧ declaration.producer ∈ register.succeeded ∧ resolver = declaration.resolver := by
  unfold locate at located
  split at located
  · cases located
  · rename_i here declaration found
    split at located
    · rename_i succeeded
      cases located
      exact ⟨declaration, found, by simpa using succeeded, rfl⟩
    · cases located

end Register

/-- What a reader takes from the lock of the registry to that of the declaration: a name
that can be read, with its declaration. -/
structure Ticket (ρ : Type) where
  name : String
  place : Nat
  resolver : ρ

def Register.ticket (register : Register ρ) : Value → Except Failure (Ticket ρ)
  | .string name => (register.locate name).map fun found => ⟨name, found.1, found.2⟩
  | name => .error (if name.isKey then .missingParameter name none else .misuse .wrongType)

theorem Register.ticket_eq_ok {register : Register ρ} {name : Value} {ticket : Ticket ρ}
    (located : register.ticket name = .ok ticket) :
    name = .string ticket.name
      ∧ ∃ declaration, register.find? ticket.name = some (ticket.place, declaration)
        ∧ declaration.producer ∈ register.succeeded
        ∧ ticket.resolver = declaration.resolver := by
  cases name with
  | string name =>
      rw [Register.ticket] at located
      cases found : register.locate name with
      | error failure =>
          rw [found] at located
          cases located
      | ok entry =>
          rw [found] at located
          cases located
          exact ⟨rfl, locate_eq_ok found⟩
  | _ => cases located

/-- A registry in use: what is declared and found, and which readers are between their
locks. -/
structure Usage (ρ σ : Type) where
  register : Register ρ := {}
  resolved : Resolved := []
  pending : List (Ticket ρ) := []
  world : σ

namespace Resolving

/-- What one access makes of the registry.  Nothing is assumed about which of several
possible accesses comes first, nor how long a reader waits between its two. -/
inductive Passes (resolving : Resolving ρ σ) : Usage ρ σ → Access ρ → Usage ρ σ → Prop
  | declare {usage} (producer : String) (provides : List (String × ρ)) :
      Passes resolving usage (.declare (usage.register.taken producer provides))
        { usage with register := (usage.register.declare producer provides).1 }
  | succeed {usage} (producer : String) :
      Passes resolving usage (.succeed producer)
        { usage with register := usage.register.markSucceeded producer }
  | has {usage} (name : String) : Passes resolving usage
      (.has name (usage.register.has name)) usage
  | refuse {usage name failure} (refused : usage.register.ticket name = .error failure) :
      Passes resolving usage (.refuse name failure) usage
  | locate {usage name ticket} (located : usage.register.ticket name = .ok ticket) :
      Passes resolving usage (.locate ticket.name ticket.place)
        { usage with pending := ticket :: usage.pending }
  | read {usage ticket outcome resolved world} {before after : List (Ticket ρ)}
      (waiting : usage.pending = before ++ ticket :: after)
      (found : resolving.valueAt usage.resolved ticket.place ticket.resolver usage.world
        = (outcome, resolved, world)) :
      Passes resolving usage
        (.read ticket.name ticket.place ticket.resolver
          (.of (usage.resolved.get? ticket.place) outcome))
        { usage with resolved, pending := before ++ after, world }

inductive Trace (resolving : Resolving ρ σ) (start : Usage ρ σ) :
    List (Access ρ) → Usage ρ σ → Prop
  | nil : Trace resolving start [] start
  | snoc {history access usage next} (trace : Trace resolving start history usage)
      (passes : resolving.Passes usage access next) :
      Trace resolving start (history ++ [access]) next

variable {resolving : Resolving ρ σ} {start usage next : Usage ρ σ}
  {history : List (Access ρ)} {access : Access ρ}

theorem Trace.of_snoc (trace : resolving.Trace start (history ++ [access]) usage) :
    ∃ between, resolving.Trace start history between
      ∧ resolving.Passes between access usage := by
  generalize whole : history ++ [access] = all at trace
  cases trace with
  | nil => simp at whole
  | snoc trace passes =>
      obtain ⟨rfl, same⟩ := List.append_inj' whole rfl
      cases same
      exact ⟨_, trace, passes⟩

theorem Trace.split {before after : List (Access ρ)}
    (trace : resolving.Trace start (before ++ access :: after) usage) :
    ∃ between next, resolving.Trace start before between
      ∧ resolving.Passes between access next := by
  induction after using List.reverseRecOn generalizing usage with
  | nil =>
      obtain ⟨between, earlier, passes⟩ := trace.of_snoc
      exact ⟨between, usage, earlier, passes⟩
  | append_singleton after last ih =>
      rw [← List.cons_append, ← List.append_assoc] at trace
      obtain ⟨_, earlier, _⟩ := trace.of_snoc
      exact ih earlier

end Resolving

def Ticket.Located (history : List (Access ρ)) (ticket : Ticket ρ) : Prop :=
  ∃ before after declaration, history = before ++ .locate ticket.name ticket.place :: after
    ∧ Declaration.Latest ticket.name (Access.declarations before) ticket.place declaration
    ∧ .succeed declaration.producer ∈ before ∧ ticket.resolver = declaration.resolver

theorem Ticket.Located.append {history : List (Access ρ)} {ticket : Ticket ρ}
    (located : ticket.Located history) (more : List (Access ρ)) :
    ticket.Located (history ++ more) := by
  obtain ⟨before, after, declaration, split, found⟩ := located
  exact ⟨before, after ++ more, declaration, by simp [split], found⟩

/-- The readings of one declaration: as long as there is no value its resolver is called
and fails, and once it has returned one, this is recalled. -/
inductive Settles : List Reading → Option Value → Prop
  | unfound (errors : List Error) : Settles (errors.map .failed) none
  | found (errors : List Error) (value : Value) (times : Nat) :
      Settles (errors.map .failed ++ .returned value :: List.replicate times
        (.recalled value)) (some value)

structure Usage.Sound (history : List (Access ρ)) (usage : Usage ρ σ) : Prop where
  declared : usage.register.declared = (Access.declarations history).reverse
  succeeded : ∀ producer ∈ usage.register.succeeded, .succeed producer ∈ history
  pending : ∀ ticket ∈ usage.pending, ticket.Located history
  settles : ∀ place, Settles (Access.readingsAt place history) (usage.resolved.get? place)

theorem Resolved.get?_put (resolved : Resolved) (place other : Nat) (value : Value) :
    (resolved.put place value).get? other
      = if place = other then some value else resolved.get? other := by
  unfold get? put
  by_cases here : place = other <;> simp [here]

namespace Resolving

variable {resolving : Resolving ρ σ} {resolved found : Resolved} {place : Nat}
  {resolver : ρ} {world later : σ} {outcome : Except Error Value}

theorem get?_valueAt_of_ne
    (read : resolving.valueAt resolved place resolver world = (outcome, found, later))
    {other : Nat} (ne : place ≠ other) : found.get? other = resolved.get? other := by
  unfold valueAt at read
  split at read
  · cases read
    rfl
  · split at read
    · cases read
      rw [Resolved.get?_put, if_neg ne]
    · cases read
      rfl

theorem settles_valueAt
    (read : resolving.valueAt resolved place resolver world = (outcome, found, later))
    {readings : List Reading} (settles : Settles readings (resolved.get? place)) :
    Settles (readings ++ [.of (resolved.get? place) outcome]) (found.get? place) := by
  unfold valueAt at read
  split at read
  · rename_i value known
    cases read
    rw [known] at settles ⊢
    cases settles with
    | found errors value times =>
        rw [List.append_assoc, List.cons_append, Reading.of, ← List.replicate_succ']
        exact .found errors value (times + 1)
  · rename_i unknown
    rw [unknown] at settles ⊢
    cases settles with
    | unfound errors =>
        split at read
        · rename_i value _ _
          cases read
          rw [Resolved.get?_put, if_pos rfl]
          exact .found errors value 0
        · rename_i error _ _
          cases read
          have one_more := Settles.unfound (errors ++ [error])
          rw [List.map_append, List.map_singleton] at one_more
          rw [unknown]
          exact one_more

variable {start usage next : Usage ρ σ} {history : List (Access ρ)} {access : Access ρ}

theorem Passes.sound (passes : resolving.Passes usage access next)
    (sound : usage.Sound history) : next.Sound (history ++ [access]) := by
  have kept : ∀ producer ∈ usage.register.succeeded, .succeed producer ∈
      history ++ [access] :=
    fun producer marked => List.mem_append_left _ (sound.succeeded producer marked)
  have waiting : ∀ ticket ∈ usage.pending, ticket.Located (history ++ [access]) :=
    fun ticket listed => (sound.pending ticket listed).append [access]
  -- Only a reading adds to the readings of a place, and only a declaration to what is
  -- declared.
  have settled : (∀ place, access.readingAt? place = none) → ∀ place,
      Settles (Access.readingsAt place (history ++ [access]))
        (usage.resolved.get? place) := by
    intro silent place
    rw [Access.readingsAt_snoc, silent, Option.toList_none, List.append_nil]
    exact sound.settles place
  have declared : access.added = [] →
      usage.register.declared = (Access.declarations (history ++ [access])).reverse := by
    intro none
    rw [Access.declarations_snoc, none, List.append_nil]
    exact sound.declared
  cases passes with
  | declare producer provides =>
      refine ⟨?_, ?_, waiting, settled fun _ => rfl⟩
      · rw [Register.declare_fst, Access.declarations_snoc, List.reverse_append]
        exact congrArg _ sound.declared
      · rw [Register.declare_fst]
        exact kept
  | succeed producer =>
      refine ⟨declared rfl, fun marked among => ?_, waiting, settled fun _ => rfl⟩
      rcases List.mem_cons.mp among with rfl | before
      · exact List.mem_append_right _ (List.mem_singleton_self _)
      · exact kept marked before
  | has name => exact ⟨declared rfl, kept, waiting, settled fun _ => rfl⟩
  | refuse refused => exact ⟨declared rfl, kept, waiting, settled fun _ => rfl⟩
  | locate located =>
      refine ⟨declared rfl, kept, fun ticket among => ?_, settled fun _ => rfl⟩
      rcases List.mem_cons.mp among with rfl | before
      · obtain ⟨_, declaration, found, succeeded, same⟩ := Register.ticket_eq_ok located
        have latest := Register.latest_of_findIn found
        rw [sound.declared, List.reverse_reverse] at latest
        exact ⟨history, [], declaration, rfl, latest, sound.succeeded _ succeeded, same⟩
      · exact waiting ticket before
  | @read ticket outcome resolved world before after pending found =>
      refine ⟨declared rfl, kept, fun other among => waiting other ?_, fun place => ?_⟩
      · rw [pending]
        exact (List.sublist_cons_self ticket after).append_left before |>.subset among
      · rw [Access.readingsAt_snoc]
        by_cases here : ticket.place = place
        · subst here
          have reading := settles_valueAt found (sound.settles ticket.place)
          simpa [Access.readingAt?] using reading
        · rw [get?_valueAt_of_ne found here]
          simpa [Access.readingAt?, here] using sound.settles place

theorem sound_fresh (world : σ) : ({ world } : Usage ρ σ).Sound [] :=
  ⟨rfl, by simp, by simp, fun _ => .unfound []⟩

theorem Trace.sound {world : σ} (trace : resolving.Trace { world } history usage) :
    usage.Sound history := by
  induction trace with
  | nil => exact sound_fresh world
  | snoc _ passes sound => exact passes.sound sound

theorem Trace.located {world : σ} {before after : List (Access ρ)} {name : String}
    {place : Nat} {resolver : ρ} {reading : Reading}
    (trace : resolving.Trace { world }
      (before ++ .read name place resolver reading :: after) usage) :
    Ticket.Located before ⟨name, place, resolver⟩ := by
  obtain ⟨reached, _, earlier, passes⟩ := trace.split
  cases passes with
  | read waiting _ => exact earlier.sound.pending _ (waiting ▸ by simp)

theorem Trace.findIn_of_locate {world : σ} {before between after : List (Access ρ)}
    {name : String} {place : Nat}
    (trace : resolving.Trace { world } (before ++ between ++ after) usage)
    (undeclared : name ∉ (Access.declarations between).map (·.name))
    (located : .locate name place ∈ between) :
    (Register.findIn name (Access.declarations before).reverse).map (·.1) = some place := by
  obtain ⟨earlier, later, rfl⟩ := List.append_of_mem located
  rw [List.append_assoc, List.append_assoc, List.cons_append, ← List.append_assoc] at trace
  obtain ⟨reached, _, come, passes⟩ := trace.split
  -- What was declared since has other names, so that the look-up passes it by.
  have others : name ∉ (Access.declarations earlier).reverse.map (·.name) := by
    intro among
    simp only [List.map_reverse, List.mem_reverse] at among
    refine undeclared ?_
    simp only [Access.declarations, List.flatMap_append, List.map_append]
    exact List.mem_append_left _ among
  cases passes with
  | locate taken =>
      obtain ⟨_, declaration, found, _⟩ := Register.ticket_eq_ok taken
      rw [Register.find?, come.sound.declared, Access.declarations, List.flatMap_append,
        List.reverse_append] at found
      rw [Access.declarations, ← Register.findIn_append others, Access.declarations, found]
      rfl

end Resolving

/-- The discipline of a history.  The readings of a declaration settle; each reader
located its declaration, as the latest of its name, after the producer was marked; and
between two declarations of a name it is located at one place. -/
structure Access.Disciplined (history : List (Access ρ)) : Prop where
  settles : ∀ place, ∃ value?, Settles (readingsAt place history) value?
  located : ∀ before name place resolver reading after,
    history = before ++ .read name place resolver reading :: after →
      Ticket.Located before ⟨name, place, resolver⟩
  stays : ∀ before between after name,
    history = before ++ between ++ after → name ∉ (declarations between).map (·.name) →
      ∀ place other, .locate name place ∈ between →
        .locate name other ∈ between → place = other

theorem Resolving.Trace.disciplined {resolving : Resolving ρ σ} {world : σ}
    {usage : Usage ρ σ} {history : List (Access ρ)}
    (trace : resolving.Trace { world } history usage) :
    Access.Disciplined history := by
  refine ⟨fun place => ⟨_, trace.sound.settles place⟩, ?_, ?_⟩
  · rintro before name place resolver reading after rfl
    exact trace.located
  · rintro before between after name rfl undeclared place other first second
    have same := (trace.findIn_of_locate undeclared first).symm.trans
      (trace.findIn_of_locate undeclared second)
    exact Option.some.inj same

end BuildPipeline
