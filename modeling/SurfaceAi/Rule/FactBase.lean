import SurfaceAi.Rule.Value
import Mathlib.Data.List.AList

/-! The fact base: a finite map from keys to values with their provenance, and
the registered mapping from graph paths to flat keys. The elapsed time, SQL text
and top-k of a fact source are read by no modelled function and are left out. -/

namespace SurfaceAi.Rules

inductive FactSourceKind where
  | direct | graphPath | vectorSearch | computed | default
  deriving DecidableEq, Repr

structure FactSource where
  kind : FactSourceKind
  description : String
  deriving DecidableEq, Repr

/-- `FactBase::Entry`. -/
structure Entry (D : Type) where
  value : Value D
  source : FactSource

structure FactBase (D : Type) where
  entries : AList (fun _ : String => Entry D)
  pathMappings : AList (fun _ : String => String)

namespace FactBase

variable {D : Type}

def empty : FactBase D := ⟨∅, ∅⟩

def set (fb : FactBase D) (key : String) (value : Value D) (source : FactSource) : FactBase D :=
  { fb with entries := fb.entries.insert key ⟨value, source⟩ }

def get (fb : FactBase D) (key : String) : Option (Value D) :=
  (fb.entries.lookup key).map Entry.value

/-- `emplace` keeps the mapping registered first. -/
def addPathMapping (fb : FactBase D) (graphPath flatKey : String) : FactBase D :=
  match fb.pathMappings.lookup graphPath with
  | some _ => fb
  | none => { fb with pathMappings := fb.pathMappings.insert graphPath flatKey }

def resolvePath (fb : FactBase D) (graphPath : String) : Option String :=
  fb.pathMappings.lookup graphPath

@[simp] theorem get_empty (key : String) : (empty : FactBase D).get key = none := rfl

@[simp] theorem get_set_self (fb : FactBase D) (key : String) (v : Value D) (s : FactSource) :
    (fb.set key v s).get key = some v := by
  simp [get, set]

theorem get_set_ne (fb : FactBase D) {key other : String} (h : other ≠ key) (v : Value D)
    (s : FactSource) : (fb.set key v s).get other = fb.get other := by
  simp [get, set, AList.lookup_insert_ne h]

theorem get_set (fb : FactBase D) (key other : String) (v : Value D) (s : FactSource) :
    (fb.set key v s).get other = if other = key then some v else fb.get other := by
  split_ifs with h
  · rw [h, get_set_self]
  · exact get_set_ne fb h v s

@[simp] theorem resolvePath_set (fb : FactBase D) (key path : String) (v : Value D)
    (s : FactSource) : (fb.set key v s).resolvePath path = fb.resolvePath path := rfl

end FactBase

end SurfaceAi.Rules
