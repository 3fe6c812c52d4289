/-
  What programs do between their calls.

  A program reads and writes the memory that its space maps, and the kernel takes no part in it.
  An operation is an action on the kernel or such an access, and every operation has an answer:
  all that whoever asked for it learns from it, errors included.

  `afterAll` and `observe` are a history of operations seen from two sides: the state that is
  left, and what was to be seen on the way.

  Meanwhile somebody may sit at the console.  A `Happening` is an operation, or bytes that are
  typed, or output that is taken away.

  `Reachable` are the states to which all this leads, whatever is at the console when the kernel
  is brought up.  They are what a law about the kernel speaks of; the reserved pages are part of
  the statement, because references to them are held by nobody's page table.
-/
import Exokernel.Kernel.History

namespace Exokernel

/-- What can be done to a kernel and to the memory of those who live in it. -/
inductive Operation where
  | act (a : Action)
  /-- Bytes are read through the space of an environment. -/
  | load (id : EnvId) (va : VirtAddr) (len : Nat)
  /-- Bytes are written through the space of an environment. -/
  | store (id : EnvId) (va : VirtAddr) (bytes : Array UInt8)

/-- What an operation yields. -/
inductive Answer where
  | created (result : Check EnvId)
  | started (result : Check Resumption)
  | saved
  | called (next : Option Resumption)
  /-- The bytes read and what stopped the read, if the environment exists. -/
  | loaded (reading : Option Memory.Reading)
  /-- What stopped the write, if the environment exists. -/
  | stored (stopped : Option (Option MappingError))

/-- What goes on after the operation. -/
def Answer.next : Answer → Option Resumption
  | .started (.ok r) => some r
  | .called next => next
  | _ => none

namespace Kernel

/-- The space of the live environment with the given id. -/
def spaceNamed (k : Kernel) (id : EnvId) : Option SpaceId :=
  (k.envs.lookup id).bind fun e => e.space

/-- What an action yields. -/
def answer (k : Kernel) : Action → Answer
  | .create parent entry stack => .created ((k.createEnv parent entry stack).map Prod.snd)
  | .run id => .started ((k.run id).map Prod.snd)
  | .capture _ => .saved
  | .call number args => .called (k.call number args).2

/-- The kernel after an operation, and what the operation yields. -/
def operate (k : Kernel) : Operation → Kernel × Answer
  | .act a => ((k.act a).1, k.answer a)
  | .load id va len =>
    (k, .loaded ((k.spaceNamed id).map fun s => k.memory.readBytes s va len))
  | .store id va bytes =>
    match k.spaceNamed id with
    | none => (k, .stored none)
    | some s =>
      let (memory, stopped) := k.memory.writeBytes s va bytes
      ({ k with memory }, .stored (some stopped))

/-- The kernel after a series of operations. -/
def afterAll (k : Kernel) (operations : List Operation) : Kernel :=
  operations.foldl (fun k op => (k.operate op).1) k

/-- What is to be seen in the course of a series of operations: each answer, and what the console
  has been given until then. -/
def observe (k : Kernel) : List Operation → List (Answer × Array UInt8)
  | [] => []
  | op :: rest =>
    ((k.operate op).2, (k.operate op).1.console.output) :: (k.operate op).1.observe rest

/-- What goes on after an action is part of what it yields. -/
theorem next_answer (k : Kernel) (a : Action) : (k.answer a).next = (k.act a).2 := by
  cases a with
  | create parent entry stack =>
    simp only [answer, act, Answer.next]
    cases k.createEnv parent entry stack <;> rfl
  | run id =>
    simp only [answer, act]
    cases k.run id <;> rfl
  | capture r => rfl
  | call number args => rfl

end Kernel

/-! ## At the console -/

/-- What happens to a kernel and at its console. -/
inductive Happening where
  | operation (op : Operation)
  | typed (bytes : Array UInt8)
  /-- The output is taken away. -/
  | drained

/-- An action on the kernel. -/
abbrev Happening.act (a : Action) : Happening := .operation (.act a)

/-- A program writes bytes into its memory. -/
abbrev Happening.store (id : EnvId) (va : VirtAddr) (bytes : Array UInt8) : Happening :=
  .operation (.store id va bytes)

namespace Kernel

/-- The kernel after something happened. -/
def happen (k : Kernel) : Happening → Kernel
  | .operation op => (k.operate op).1
  | .typed bytes => { k with console := k.console.push bytes }
  | .drained => { k with console := k.console.drain }

/-- The kernel after all that happened, in this order. -/
def attended (k : Kernel) (past : List Happening) : Kernel := past.foldl happen k

/-! ## States that are reached -/

/-- A kernel just brought up, over memory from which the pages `pins` were reserved. -/
structure Booted (k : Kernel) (pins : List Frame) : Prop where
  reserved : k.memory.Reserved pins
  boot : Kernel.boot k.config k.memory k.console = .ok k
  /-- The shared page, if there is one, is a reserved one. -/
  kernelPage : ∀ f, k.config.kernelPage = some f → f ∈ pins

/-- A state to which some history leads, with the pages `pins` reserved before it began. -/
inductive Reachable (pins : List Frame) : Kernel → Prop where
  | booted {k : Kernel} : k.Booted pins → Reachable pins k
  | happen {k : Kernel} (h : Happening) : Reachable pins k → Reachable pins (k.happen h)

variable {pins : List Frame} {k : Kernel}

theorem Reachable.act (h : Reachable pins k) (a : Action) : Reachable pins (k.act a).1 :=
  h.happen (.act a)

theorem Reachable.after (h : Reachable pins k) (actions : List Action) :
    Reachable pins (k.after actions) := by
  induction actions generalizing k with
  | nil => exact h
  | cons a rest ih => exact ih (h.act a)

theorem Reachable.afterAll (h : Reachable pins k) (operations : List Operation) :
    Reachable pins (k.afterAll operations) := by
  induction operations generalizing k with
  | nil => exact h
  | cons op rest ih => exact ih (h.happen (.operation op))

theorem Reachable.attended (h : Reachable pins k) (past : List Happening) :
    Reachable pins (k.attended past) := by
  induction past generalizing k with
  | nil => exact h
  | cons x rest ih => exact ih (h.happen x)

end Kernel

end Exokernel
