/-
  What can go wrong, and the codes by which a program learns of it.

  Memory reports why a mapping could not be made.  A system call reports one of seven codes;
  every cause below it has exactly one code.
-/
import Exokernel.Perm

namespace Exokernel

/-- Why an operation on an address space fails. -/
inductive MappingError where
  /-- No frame is left for a page or a page table, or a frame has no room for one more
    reference. -/
  | outOfMemory
  /-- The address is not the start of a page. -/
  | misaligned
  /-- Nothing is mapped at the address. -/
  | notMapped
  /-- The frame is not in use. -/
  | invalidFrame
  /-- The address space does not exist. -/
  | noSuchSpace
  deriving DecidableEq

namespace MappingError

/-- The text of an error. -/
def message : MappingError → String
  | .outOfMemory => "out of memory for pages or page tables"
  | .misaligned => "address not properly aligned"
  | .notMapped => "virtual address not mapped"
  | .invalidFrame => "frame is not allocated"
  | .noSuchSpace => "no such address space"

/-- Every error. -/
def all : List MappingError := [.outOfMemory, .misaligned, .notMapped, .invalidFrame, .noSuchSpace]

end MappingError

/-- Why a system call fails. -/
inductive CallError where
  /-- A problem without a cause of its own. -/
  | unspecified
  /-- The environment does not exist, or the caller has no say over it. -/
  | badEnv
  /-- An argument is not acceptable. -/
  | invalid
  /-- No physical memory is left. -/
  | noMemory
  /-- No slot for an environment is left. -/
  | noFreeEnv
  /-- The caller passed a bad pointer and is destroyed. -/
  | fault
  /-- The receiver can never be ready. -/
  | notReceiving
  deriving DecidableEq

namespace CallError

/-- The negative code that the caller finds in its return register. -/
def code : CallError → Int32
  | .unspecified => -1
  | .badEnv => -2
  | .invalid => -3
  | .noMemory => -4
  | .noFreeEnv => -5
  | .fault => -6
  | .notReceiving => -7

/-- The text of an error. -/
def message : CallError → String
  | .unspecified => "unspecified error"
  | .badEnv => "bad environment"
  | .invalid => "invalid parameter"
  | .noMemory => "out of memory"
  | .noFreeEnv => "out of environments"
  | .fault => "segmentation fault"
  | .notReceiving => "env is not recving"

/-- Every error. -/
def all : List CallError :=
  [.unspecified, .badEnv, .invalid, .noMemory, .noFreeEnv, .fault, .notReceiving]

end CallError

/-- How a system call reports a failed mapping. -/
def MappingError.toCallError : MappingError → CallError
  | .outOfMemory => .noMemory
  | .misaligned | .notMapped | .invalidFrame => .invalid
  | .noSuchSpace => .badEnv

/-- How a system call reports a refused permission. -/
def Perm.Refusal.toCallError : Perm.Refusal → CallError
  | .notAllowed | .widening => .invalid

/-! ## Checks

  A check looks at the state and yields what it found or the error to report. -/

/-- The outcome of a check. -/
abbrev Check (α : Type) : Type := Except CallError α

namespace Check

/-- Go on only if the condition holds. -/
def require (condition : Bool) (e : CallError) : Check Unit :=
  if condition then .ok () else .error e

/-- Go on only if there is a value. -/
def present {α : Type} (value : Option α) (e : CallError) : Check α :=
  match value with
  | some a => .ok a
  | none => .error e

/-- The outcome of a memory operation. -/
def ofMapping {α : Type} : Except MappingError α → Check α
  | .ok a => .ok a
  | .error e => .error e.toCallError

/-- The outcome of a permission rule. -/
def ofRights {α : Type} : Except Perm.Refusal α → Check α
  | .ok a => .ok a
  | .error e => .error e.toCallError

end Check

end Exokernel
