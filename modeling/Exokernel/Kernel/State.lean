/-
  The state of the kernel, and how an environment goes on.

  Everything that system calls change is in one record.  A call is a function from the record
  to the record, so calls happen one at a time and nothing is seen half done.

  Whoever decides on the result of a suspended call stores it as `pending` in the record of the
  environment that made it: the call itself when it finishes at once, a sender that ends a wait,
  a parent that forks.  `resume` moves it to the return register, and only `resume` does.
-/
import Exokernel.Config
import Exokernel.Console
import Exokernel.EnvTable
import Exokernel.Event

namespace Exokernel

/-- What goes on next: an environment and the registers to restore. -/
structure Resumption where
  env : EnvId
  registers : Registers
  deriving DecidableEq

/-- The state of the kernel. -/
structure Kernel where
  config : Config
  envs : EnvTable
  memory : Memory
  console : Console := {}
  /-- The slot of the environment that runs, or ran last. -/
  current : Option Nat := none
  /-- What happened since the log was last cleared, the newest event first. -/
  log : List Event := []

namespace Kernel

/-- A kernel without environments. -/
def boot (config : Config) (memory : Memory) (console : Console := {}) :
    Except ConfigError Kernel :=
  match config.validate with
  | .error e => .error e
  | .ok () => .ok { config, memory, console, envs := .ofCapacity config.capacity }

/-- The record in a slot. -/
def env (k : Kernel) (slot : Nat) : Env := k.envs.get slot

/-- The kernel with one record changed. -/
def updateEnv (k : Kernel) (slot : Nat) (change : Env → Env) : Kernel :=
  { k with envs := k.envs.update slot change }

theorem env_updateEnv (k : Kernel) (slot other : Nat) (change : Env → Env)
    (h : other < k.envs.capacity) :
    (k.updateEnv slot change).env other =
      if slot = other then change (k.env other) else k.env other :=
  k.envs.get_update slot other change h

/-- Record an event. -/
def note (k : Kernel) (e : Event) : Kernel := { k with log := e :: k.log }

/-- The events so far, the oldest first. -/
def events (k : Kernel) : List Event := k.log.reverse

/-- Forget the events so far. -/
def clearLog (k : Kernel) : Kernel := { k with log := [] }

/-! ## The caller -/

/-- The slot of the environment that makes the call. -/
def caller (k : Kernel) : Check Nat :=
  match k.current with
  | some slot => if (k.env slot).isLive then .ok slot else .error .badEnv
  | none => .error .badEnv

/-- The id of the environment that runs. -/
def currentId (k : Kernel) : Option EnvId :=
  match k.caller with
  | .ok slot => some (k.env slot).id
  | .error _ => none

/-- Which environments a call may name. -/
inductive Reach where
  /-- The caller and the environments that it created. -/
  | owned
  /-- Every live environment. -/
  | any
  deriving DecidableEq

/-- The slot of the environment that a call names by `id`.  The id zero names the caller. -/
def target (k : Kernel) (id : EnvId) (reach : Reach) : Check Nat := do
  let cur ← k.caller
  if id.isNone then
    return cur
  else
    let slot ← Check.present (k.envs.resolve id) .badEnv
    Check.require
      (reach = .any || slot = cur || (k.env slot).parent = (k.env cur).id) .badEnv
    return slot

/-- The address space of the environment in a slot. -/
def spaceOf (k : Kernel) (slot : Nat) : Check SpaceId :=
  Check.present (k.env slot).space .badEnv

/-- Put the space of an environment in force, if it has one. -/
def activate (k : Kernel) (space : Option SpaceId) : Kernel :=
  match space with
  | some s => { k with memory := k.memory.activate s }
  | none => k

/-! ## Going on -/

/-- Let the environment in a slot go on. -/
def resume (k : Kernel) (slot : Nat) : Kernel × Resumption :=
  let e := (k.env slot).resumed
  let k := (k.updateEnv slot fun _ => e).activate e.space
  ({ k with current := some slot }, ⟨e.id, e.registers⟩)

/-- Let the next environment go on that can run, if there is one. -/
def reschedule (k : Kernel) : Kernel × Option Resumption :=
  match k.envs.pickNext k.current with
  | some slot =>
    let (k, r) := k.resume slot
    (k, some r)
  | none => ({ k.note .idle with current := none }, none)

/-! ## From outside -/

/-- Take a slot and an empty space for a new environment, which cannot run yet. -/
def allocEnv (k : Kernel) (parent : EnvId) : Check (Kernel × Nat) := do
  let slot ← Check.present k.envs.findFree .noFreeEnv
  let (memory, space) ← Check.ofMapping k.memory.createSpace
  let envs := (k.envs.occupy slot parent space).update slot fun e =>
    { e with heapBreak := k.config.heapBase }
  return ({ k with memory, envs }, slot)

/-- Create an environment that can run, with registers as a program finds them at its start. -/
def createEnv (k : Kernel) (parent : EnvId) (entry stack : UInt32) : Check (Kernel × EnvId) := do
  let (k, slot) ← k.allocEnv parent
  let k := k.updateEnv slot fun e =>
    { e with registers := .newUser entry stack, status := .runnable }
  let id := (k.env slot).id
  return (k.note (.created parent id), id)

/-- Make the environment with the given id go on. -/
def run (k : Kernel) (id : EnvId) : Check (Kernel × Resumption) := do
  let slot ← Check.present (k.envs.resolve id) .badEnv
  return k.resume slot

/-- Save the registers with which the running environment entered the kernel. -/
def capture (k : Kernel) (r : Registers) : Kernel :=
  match k.current with
  | some slot =>
    if (k.env slot).isLive then k.updateEnv slot fun e => { e with registers := r } else k
  | none => k

end Kernel

end Exokernel
