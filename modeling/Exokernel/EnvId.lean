/-
  Environment ids.

  An id names one occupancy of a slot of the environment table: the slot is in the low 12 bits,
  a generation in the bits above.  Each time a slot is occupied again its generation goes up,
  so an id that was kept beyond the end of its environment names nothing.

  Generations run from 1 to `0x7ffff` and start over.  They never reach the sign bit, so an
  id is positive as a signed word and cannot be taken for an error code.
-/
import Exokernel.Text.Hex

namespace Exokernel

/-- How many slots an id can tell apart. -/
abbrev maxEnvs : Nat := 4096

/-- The first generation number that no id has. -/
abbrev generationEnd : Nat := 0x80000

/-- The id of an environment. -/
structure EnvId where
  raw : UInt32 := 0
  deriving DecidableEq, Inhabited

namespace EnvId

/-- The id that no environment has.  As an argument it means the caller, as a parent it marks
  an environment that the system itself created. -/
def none : EnvId := ⟨0⟩

/-- Is this the id that no environment has? -/
def isNone (i : EnvId) : Bool := i.raw == 0

/-- The slot in the id. -/
def slot (i : EnvId) : Nat := i.raw.toNat % maxEnvs

/-- The generation in the id. -/
def generation (i : EnvId) : Nat := i.raw.toNat / maxEnvs

/-- The id of the given generation of a slot. -/
def ofParts (generation slot : Nat) : EnvId := ⟨UInt32.ofNat (generation * maxEnvs + slot)⟩

/-- The generation after `g`. -/
def nextGeneration (g : Nat) : Nat := if g + 1 < generationEnd then g + 1 else 1

/-- The id for the next occupancy of `slot`, whose last one had the id `last`. -/
def next (last : EnvId) (slot : Nat) : EnvId := ofParts (nextGeneration last.generation) slot

/-- The id as a result of a system call. -/
def toResult (i : EnvId) : Int32 := i.raw.toInt32

/-- The written form of an id: eight hexadecimal digits. -/
def text (i : EnvId) : String := Text.hexPadded 8 i.raw.toNat

/-- The written form that names the kind of number. -/
def describe (i : EnvId) : String := "EnvId(" ++ i.text ++ ")"

/-! ## Slot and generation -/

theorem nextGeneration_pos (g : Nat) : 0 < nextGeneration g := by
  unfold nextGeneration
  split <;> omega

theorem nextGeneration_lt (g : Nat) : nextGeneration g < generationEnd := by
  unfold nextGeneration
  split
  · assumption
  · decide

theorem toNat_ofParts {g s : Nat} (hg : g < generationEnd) (hs : s < maxEnvs) :
    (ofParts g s).raw.toNat = g * maxEnvs + s := by
  simp only [ofParts, UInt32.toNat_ofNat']
  simp only [generationEnd, maxEnvs] at *
  omega

/-- The next id of a slot leads back to that slot. -/
theorem slot_next (last : EnvId) {s : Nat} (hs : s < maxEnvs) : (last.next s).slot = s := by
  simp only [slot, next, toNat_ofParts (nextGeneration_lt _) hs]
  simp only [maxEnvs] at *
  omega

end EnvId

end Exokernel
