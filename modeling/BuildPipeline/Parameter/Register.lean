import BuildPipeline.Error.Failure

namespace BuildPipeline

open Document

variable {ρ : Type}

structure Declaration (ρ : Type) where
  name : String
  producer : String
  resolver : ρ

/-- Which parameters the steps of a run provide, the latest declaration first, and which
steps have succeeded.  A parameter can be read only when its producer has. -/
structure Register (ρ : Type) where
  declared : List (Declaration ρ) := []
  succeeded : List String := []

namespace Register

/-- The latest declaration of a name, with its place in the order of declaration.  Places
are counted from the oldest, so a later declaration does not move them. -/
def findIn (name : String) : List (Declaration ρ) → Option (Nat × Declaration ρ)
  | [] => none
  | declaration :: older =>
      if declaration.name = name then some (older.length, declaration)
      else findIn name older

def find? (register : Register ρ) (name : String) : Option (Nat × Declaration ρ) :=
  findIn name register.declared

def conflict (name first second : String) : Failure :=
  .configuration ("parameter " ++ Text.quoted name ++ " is provided by both "
    ++ Text.quoted first ++ " and " ++ Text.quoted second)

/-! Declaring parameters one after another.  A name that another step provides stops the
declaration; what was declared before it stays. -/

def declare (register : Register ρ) (producer : String) :
    List (String × ρ) → Register ρ × Option Failure
  | [] => (register, none)
  | (name, resolver) :: rest =>
      let extended :=
        { register with declared := ⟨name, producer, resolver⟩ :: register.declared }
      match register.find? name with
      | none => declare extended producer rest
      | some (_, existing) =>
          if existing.producer = producer then declare extended producer rest
          else (register, some (conflict name existing.producer producer))

def markSucceeded (register : Register ρ) (producer : String) : Register ρ :=
  { register with succeeded := producer :: register.succeeded }

def has (register : Register ρ) (name : String) : Bool :=
  match register.find? name with
  | some (_, declaration) => register.succeeded.contains declaration.producer
  | none => false

/-- The declaration to read a name from, or why it cannot be read. -/
def locate (register : Register ρ) (name : String) : Except Failure (Nat × ρ) :=
  match register.find? name with
  | none => .error (.missingParameter (.string name) none)
  | some (place, declaration) =>
      if register.succeeded.contains declaration.producer then
        .ok (place, declaration.resolver)
      else .error (.missingParameter (.string name) (some declaration.producer))

def names (register : Register ρ) : List String :=
  Text.sort (register.declared.map (·.name)).eraseDups

@[simp] theorem declared_markSucceeded (register : Register ρ) (producer : String) :
    (register.markSucceeded producer).declared = register.declared := rfl

theorem locate_of_has {register : Register ρ} {name : String}
    (h : register.has name = true) :
    ∃ found, register.locate name = .ok found := by
  unfold has at h
  unfold locate
  split at h
  · rename_i place declaration found
    exact ⟨(place, declaration.resolver), by
      rw [found]; simp [List.contains_eq_mem] at h ⊢; simp [h]⟩
  · exact absurd h (by simp)

end Register

end BuildPipeline
