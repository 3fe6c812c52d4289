/-
  Environments.

  An environment is what other systems call a process: registers, an address space, a heap, and
  what it is doing in the exchange of messages.

  A message is one word and at most one page.  A receiver waits with `receiving` set.  A sender
  whose target does not wait parks the message on its own record and blocks; the message stays
  there until the target receives it or ends.
-/
import Exokernel.EnvId
import Exokernel.Memory
import Exokernel.Registers

namespace Exokernel

/-! ## Messages -/

/-- A page offered with a parked message.  The offer holds no reference to the frame: whether
  the sender still maps it is looked up again when the message is taken. -/
structure OfferedPage where
  /-- Where the sender maps the page. -/
  va : VirtAddr
  /-- The frame that was mapped there when the message was parked. -/
  frame : Frame
  /-- The permission that the receiver gets. -/
  perm : Perm
  deriving DecidableEq

/-- A message that waits for its target to receive. -/
structure ParkedSend where
  target : EnvId
  value : UInt32
  page : Option OfferedPage
  deriving DecidableEq

/-- What an environment is doing in the exchange of messages. -/
structure Mailbox where
  /-- Is the environment blocked until a message arrives? -/
  receiving : Bool := false
  /-- Where it wants a page; without an address it takes none. -/
  dest : Option VirtAddr := none
  /-- Who sent the last message. -/
  sender : EnvId := .none
  /-- The word of the last message. -/
  value : UInt32 := 0
  /-- The permission of the page that came with it, empty if none did. -/
  perm : Perm := .empty
  /-- The message that it is blocked on sending. -/
  parked : Option ParkedSend := none
  deriving DecidableEq, Inhabited

/-- The mailbox after a message has come in. -/
def Mailbox.deliver (b : Mailbox) (sender : EnvId) (value : UInt32) (perm : Perm) : Mailbox :=
  { b with receiving := false, sender, value, perm }

/-! ## Records -/

/-- The state of a slot of the environment table. -/
inductive Status where
  /-- The slot is unused. -/
  | free
  /-- The environment is being taken down. -/
  | dying
  /-- The environment can run. -/
  | runnable
  /-- The environment is blocked or has not been started. -/
  | notRunnable
  deriving DecidableEq, Inhabited

/-- The status that a program names by a word. -/
def Status.ofWord? (w : UInt32) : Option Status :=
  if w = 0 then some .free
  else if w = 1 then some .dying
  else if w = 2 then some .runnable
  else if w = 4 then some .notRunnable
  else none

/-- The record of one slot. -/
structure Env where
  id : EnvId := .none
  parent : EnvId := .none
  status : Status := .free
  space : Option SpaceId := none
  registers : Registers := {}
  heapBreak : VirtAddr := {}
  /-- Where page faults are to be handled. -/
  upcall : Option VirtAddr := none
  /-- The result that the interrupted system call will have.  Without one the registers are
    restored as they are. -/
  pending : Option Int32 := none
  mailbox : Mailbox := {}
  /-- How many times the environment was resumed.  The count wraps at 2 ^ 32, as in a release build;
    a build that checks for overflow would panic on that turn instead. -/
  runs : UInt32 := 0
  deriving DecidableEq, Inhabited

namespace Env

/-- Does the record stand for an environment that exists? -/
def isLive (e : Env) : Bool :=
  match e.status with
  | .free | .dying => false
  | .runnable | .notRunnable => true

/-- Has the environment parked a message for `target`? -/
def sendsTo (e : Env) (target : EnvId) : Bool :=
  match e.mailbox.parked with
  | some send => decide (send.target = target)
  | none => false

/-- The environment woken from its parked send, which has the given result. -/
def wakeSender (e : Env) (result : Int32) : Env :=
  { e with
    mailbox := { e.mailbox with parked := none }
    status := .runnable
    pending := some result }

/-- The environment as it goes on: the pending result is in its return register. -/
def resumed (e : Env) : Env :=
  { e with
    registers := match e.pending with
      | some value => e.registers.setResult value
      | none => e.registers
    pending := none
    runs := e.runs + 1 }

end Env

end Exokernel
