/-
  What is fixed when the kernel is brought up.
-/
import Exokernel.Address
import Exokernel.EnvId

namespace Exokernel

/-- The settings of a kernel. -/
structure Config where
  /-- How many environments there can be. -/
  capacity : Nat := 1024
  /-- Where the heap of a new environment starts. -/
  heapBase : VirtAddr := .ofNat 0x10000000
  /-- The page that the kernel shares with programs that ask for it. -/
  kernelPage : Option Frame := none

/-- Why settings are refused. -/
inductive ConfigError where
  | capacityNotPowerOfTwo
  | capacityTooLarge
  | heapBaseInvalid
  deriving DecidableEq

/-- The text of a refusal. -/
def ConfigError.message : ConfigError → String
  | .capacityNotPowerOfTwo => "environment capacity must be a power of two"
  | .capacityTooLarge => "environment capacity exceeds " ++ toString maxEnvs
  | .heapBaseInvalid => "heap base must be a page-aligned user address"

namespace Config

/-- Is the number a power of two? -/
def isPowerOfTwo (n : Nat) : Bool := 1 <<< n.log2 == n

/-- Accept settings: a capacity that is a power of two and that ids can tell apart, and a heap
  that starts at a user page. -/
def validate (c : Config) : Except ConfigError Unit :=
  if !isPowerOfTwo c.capacity then .error .capacityNotPowerOfTwo
  else if maxEnvs < c.capacity then .error .capacityTooLarge
  else if !c.heapBase.isUserPage then .error .heapBaseInvalid
  else .ok ()

end Config

end Exokernel
