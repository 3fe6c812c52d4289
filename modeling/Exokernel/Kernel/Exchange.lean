/-
  The exchange of messages.

  Sender and receiver meet: who comes second completes the transfer.  A send to an environment
  that waits is done at once; any other send is parked and blocks the sender.  A receive takes
  the parked message of the first sender, by slot, or blocks.

  An offered page is checked before anything changes, and looked up again when a parked message
  is taken, so a receiver never gets a frame that the sender does not map any more.
-/
import Exokernel.Kernel.Reply

namespace Exokernel.Kernel

/-- What the environment in a slot offers with the page at `va`.  An address beyond the user
  mappings offers nothing. -/
def offer (k : Kernel) (slot : Nat) (va : VirtAddr) (permWord : UInt32) :
    Check (Option OfferedPage) :=
  if va.isUser then do
    Check.require va.isAligned .invalid
    let perm ← Check.ofRights (Perm.request permWord)
    let s ← k.spaceOf slot
    let (frame, sourcePerm) ← Check.present (k.memory.lookup s va) .invalid
    Check.ofRights (perm.narrow sourcePerm)
    return some { va, frame, perm }
  else
    return none

/-- Does the environment in a slot still map the offered frame where it did? -/
def stillMaps (k : Kernel) (slot : Nat) (page : OfferedPage) : Bool :=
  match (k.env slot).space.bind fun s => k.memory.lookup s page.va with
  | some (frame, _) => decide (frame = page.frame)
  | none => false

/-- Map an offered page where the receiver wants it.  The permission is that of the page, or
  empty if there is no page or no place for it. -/
def placePage (k : Kernel) (receiver : Nat) (page : Option OfferedPage)
    (dest : Option VirtAddr) : Check (Memory × Perm) :=
  match page, dest with
  | some page, some va => do
    let s ← k.spaceOf receiver
    let memory ← Check.ofMapping (k.memory.insert s page.frame va page.perm)
    return (memory, page.perm)
  | _, _ => return (k.memory, .empty)

/-- Hand a message over and let the receiver run. -/
def transfer (k : Kernel) (sender receiver : Nat) (value : UInt32)
    (page : Option OfferedPage) (dest : Option VirtAddr) : Check Kernel := do
  let origin := (k.env sender).id
  let (memory, perm) ← k.placePage receiver page dest
  let k := { k with memory }.updateEnv receiver fun e =>
    { e with
      mailbox := e.mailbox.deliver origin value perm
      status := .runnable
      pending := some 0 }
  return k.note (.delivered origin value (k.env receiver).id perm)

/-- Send a word, and offer the page at `va`. -/
def send (k : Kernel) (id : EnvId) (value : UInt32) (va : VirtAddr) (permWord : UInt32) :
    Check (Kernel × Flow) := do
  let cur ← k.caller
  let target ← k.target id .any
  Check.require (target ≠ cur) .notReceiving
  let page ← k.offer cur va permWord
  let mailbox := (k.env target).mailbox
  if mailbox.receiving then
    let k ← k.transfer cur target value page mailbox.dest
    return (k, .answer 0)
  else
    let parked : ParkedSend := { target := (k.env target).id, value, page }
    let k := k.updateEnv cur fun e =>
      { e with mailbox := { e.mailbox with parked := some parked }, status := .notRunnable }
    return (k.note (.sendParked (k.env cur).id parked.target), .reschedule)

/-- Where a receiver wants a page: an address beyond the user mappings means nowhere. -/
def destination (va : VirtAddr) : Check (Option VirtAddr) :=
  if va.isUser then do
    Check.require va.isAligned .invalid
    return some va
  else
    return none

/-- The first environment, by slot, with a message parked for `target`, and the message. -/
def firstParked (k : Kernel) (target : EnvId) : Option (Nat × ParkedSend) :=
  match k.envs.sendersTo target with
  | [] => none
  | slot :: _ => (k.env slot).mailbox.parked.map fun send => (slot, send)

/-- Receive a message, with a page at `va`. -/
def receive (k : Kernel) (va : VirtAddr) : Check (Kernel × Flow) := do
  let cur ← k.caller
  let dest ← destination va
  let me := (k.env cur).id
  match k.firstParked me with
  | some (sender, send) =>
    let page := send.page.filter fun page => k.stillMaps sender page
    let k ← k.transfer sender cur send.value page dest
    let k := k.updateEnv cur fun e => { e with mailbox := { e.mailbox with dest } }
    let k := k.updateEnv sender fun e => e.wakeSender 0
    return (k, .answer 0)
  | none =>
    let k := k.updateEnv cur fun e =>
      { e with mailbox := { e.mailbox with dest, receiving := true }, status := .notRunnable }
    return (k.note (.waiting me), .reschedule)

end Exokernel.Kernel
