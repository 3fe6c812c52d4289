/-
  What is done to a kernel.

  A kernel is brought up over memory from which it may have reserved pages for itself; one of
  them may be the page that it shares.  From then on four things are done to it, in any order and
  with any arguments: an environment is created from outside, one is started from outside, the
  registers of the running environment are saved, and the running environment makes a call.
-/
import Exokernel.Kernel.Call

namespace Exokernel

/-- The most frames that have addresses of 32 bits. -/
def maxFrames : Nat := (0x100000000 - Memory.frameBase.toNat) / pageSize

/-- Memory without spaces, from which the pages `pins` were reserved. -/
inductive Memory.Reserved : Memory → List Frame → Prop where
  | fresh (n : Nat) (h : n ≤ maxFrames) : Reserved (.ofSize n) []
  | reserve {m m' : Memory} {pins : List Frame} {f : Frame} :
    Reserved m pins → m.reserve = .ok (m', f) → Reserved m' (f :: pins)

/-- What can happen to a kernel. -/
inductive Action where
  /-- An environment is created from outside. -/
  | create (parent : EnvId) (entry stack : UInt32)
  /-- An environment is started from outside. -/
  | run (id : EnvId)
  /-- The registers of the running environment are saved. -/
  | capture (r : Registers)
  /-- The running environment makes a call. -/
  | call (number : UInt32) (args : Args)

namespace Kernel

/-- The kernel after an action, and what goes on.  An action that fails changes nothing. -/
def act (k : Kernel) : Action → Kernel × Option Resumption
  | .create parent entry stack =>
    match k.createEnv parent entry stack with
    | .ok (k, _) => (k, none)
    | .error _ => (k, none)
  | .run id =>
    match k.run id with
    | .ok (k, r) => (k, some r)
    | .error _ => (k, none)
  | .capture r => (k.capture r, none)
  | .call number args => k.call number args

/-- The kernel after a series of actions. -/
def after (k : Kernel) (actions : List Action) : Kernel :=
  actions.foldl (fun k a => (k.act a).1) k

end Kernel

end Exokernel
