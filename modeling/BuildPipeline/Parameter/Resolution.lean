import BuildPipeline.Error.Chain
import BuildPipeline.Parameter.Register
import BuildPipeline.Table

namespace BuildPipeline

open Document

variable {ρ σ : Type}

abbrev Resolved := List (Nat × Value)

namespace Resolved

def get? (resolved : Resolved) (place : Nat) : Option Value :=
  (resolved.find? fun entry => entry.1 == place).map (·.2)

def put (resolved : Resolved) (place : Nat) (value : Value) : Resolved :=
  (place, value) :: resolved

end Resolved

structure Resolving (ρ σ : Type) where
  resolve : ρ → σ → Except Error Value × σ

/-! Finding a value once: a value that was found before is returned as it is, and a
resolver that fails leaves nothing behind, so that the next reader asks it again. -/

namespace Resolving

def valueAt (resolving : Resolving ρ σ) (resolved : Resolved) (place : Nat) (resolver : ρ)
    (world : σ) : Except Error Value × Resolved × σ :=
  match resolved.get? place with
  | some value => (.ok value, resolved, world)
  | none =>
      match resolving.resolve resolver world with
      | (.ok value, world) => (.ok value, resolved.put place value, world)
      | (.error error, world) => (.error error, resolved, world)

def get (resolving : Resolving ρ σ) (register : Register ρ) (resolved : Resolved)
    (name : String) (world : σ) : Except Error Value × Resolved × σ :=
  match register.locate name with
  | .error failure => (.error failure, resolved, world)
  | .ok (place, resolver) => resolving.valueAt resolved place resolver world

/-- Reading several parameters in turn, up to the first that cannot be read.  A name that
is no text is the name of no parameter. -/
def getNamed (resolving : Resolving ρ σ) (register : Register ρ) (resolved : Resolved)
    (name : Value) (world : σ) : Except Error Value × Resolved × σ :=
  match name with
  | .string name => resolving.get register resolved name world
  | name =>
      let failure := if name.isKey then .missingParameter name none else .misuse .wrongType
      (.error (.ofFailure failure), resolved, world)

def environmentFrom (resolving : Resolving ρ σ) (register : Register ρ) :
    List (String × Value) → Resolved → List Value → σ →
      Except Error (List (String × Value)) × Resolved × σ
  | values, resolved, [], world => (.ok values, resolved, world)
  | values, resolved, name :: rest, world =>
      match resolving.getNamed register resolved name world with
      | (.error error, resolved, world) => (.error error, resolved, world)
      | (.ok value, resolved, world) =>
          environmentFrom resolving register (Table.put values name.text value)
            resolved rest world

def environment (resolving : Resolving ρ σ) (register : Register ρ) (resolved : Resolved)
    (names : List Value) (world : σ) :
    Except Error (List (String × Value)) × Resolved × σ :=
  resolving.environmentFrom register [] resolved names world

end Resolving

end BuildPipeline
