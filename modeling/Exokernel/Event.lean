/-
  The event log.

  The kernel records what it did as events.  Each event has a level and a line of text; nothing
  in the kernel depends on what was recorded.
-/
import Exokernel.EnvId
import Exokernel.Error
import Exokernel.Address

namespace Exokernel

/-- How much an event matters. -/
inductive Level where
  | debug
  | info
  | warn
  deriving DecidableEq

/-- The written form of a level. -/
def Level.text : Level → String
  | .debug => "DEBUG"
  | .info => "INFO"
  | .warn => "WARN"

/-- Something that happened in the kernel. -/
inductive Event where
  /-- An environment was created at boot. -/
  | created (parent id : EnvId)
  /-- No environment can run. -/
  | idle
  /-- The number of a system call means nothing. -/
  | unknownCall (number : UInt32)
  /-- A system call failed. -/
  | callFailed (number : UInt32) (error : CallError)
  /-- An environment passed a bad pointer. -/
  | badPointer (id : EnvId) (va : VirtAddr)
  /-- An environment ends itself. -/
  | exiting (id : EnvId)
  /-- An environment ends another one. -/
  | destroying (caller target : EnvId)
  /-- A parked message is given up because its target ended. -/
  | sendAborted (sender target : EnvId)
  /-- The slot of an environment is free again. -/
  | freed (id : EnvId)
  /-- An environment created a child. -/
  | forked (parent child : EnvId)
  /-- An environment took over the image that a child had prepared. -/
  | execCommitted (caller image : EnvId)
  /-- A fresh page was mapped. -/
  | pageAllocated (id : EnvId) (va : VirtAddr) (perm : Perm)
  /-- A page was shared. -/
  | pageMapped (source : EnvId) (sourceVa : VirtAddr) (dest : EnvId) (destVa : VirtAddr)
  /-- A heap would have grown beyond the user part of its space. -/
  | heapOutOfRange (id : EnvId) (heapBreak : VirtAddr) (increment : UInt32)
  /-- A heap could not grow. -/
  | heapFailed (id : EnvId) (va : VirtAddr) (error : CallError)
  /-- A heap grew. -/
  | heapGrown (id : EnvId) (before after : VirtAddr)
  /-- A message was parked. -/
  | sendParked (sender target : EnvId)
  /-- An environment waits for a message. -/
  | waiting (id : EnvId)
  /-- A message was handed over. -/
  | delivered (sender : EnvId) (value : UInt32) (receiver : EnvId) (perm : Perm)

namespace Event

/-- How much the event matters. -/
def level : Event → Level
  | .created .. | .exiting .. | .destroying .. | .execCommitted .. => .info
  | .unknownCall .. | .badPointer .. | .heapOutOfRange .. | .heapFailed .. => .warn
  | .idle | .callFailed .. | .sendAborted .. | .freed .. | .forked .. | .pageAllocated ..
  | .pageMapped .. | .heapGrown .. | .sendParked .. | .waiting .. | .delivered .. => .debug

/-- An id in brackets, as it starts a line. -/
def tag (id : EnvId) : String := "[" ++ id.text ++ "]"

/-- What the event says. -/
def message : Event → String
  | .created parent id => tag parent ++ " new env " ++ id.text
  | .idle => "no runnable environments"
  | .unknownCall number => "[SYSCALL] Unknown syscall: " ++ toString number.toNat
  | .callFailed number error =>
    "[SYSCALL] " ++ toString number.toNat ++ " failed: " ++ error.message
  | .badPointer id va => tag id ++ " user_mem_check assertion failure for va " ++ va.text
  | .exiting id => tag id ++ " exiting gracefully"
  | .destroying caller target => tag caller ++ " destroying " ++ target.text
  | .sendAborted sender target => tag sender ++ " send to " ++ target.text ++ " aborted"
  | .freed id => tag id ++ " freed"
  | .forked parent child => tag parent ++ " exofork " ++ child.text
  | .execCommitted caller image => tag caller ++ " exec commit from " ++ image.text
  | .pageAllocated id va perm => tag id ++ " page_alloc " ++ va.text ++ " " ++ perm.describe
  | .pageMapped source sourceVa dest destVa =>
    tag source ++ " page_map " ++ sourceVa.text ++ " -> " ++ tag dest ++ " " ++ destVa.text
  | .heapOutOfRange id heapBreak increment =>
    tag id ++ " sbrk out of range: break " ++ heapBreak.text ++ " inc 0x"
      ++ Text.hex increment.toNat
  | .heapFailed id va error => tag id ++ " sbrk failed at " ++ va.text ++ ": " ++ error.message
  | .heapGrown id before after => tag id ++ " sbrk " ++ before.text ++ " -> " ++ after.text
  | .sendParked sender target => tag sender ++ " send to " ++ target.text ++ " queued"
  | .waiting id => tag id ++ " waiting to receive"
  | .delivered sender value receiver perm =>
    tag sender ++ " ipc " ++ toString value.toNat ++ " -> " ++ receiver.text ++ " perm "
      ++ perm.describe

/-- The line that records the event. -/
def line (e : Event) : String := e.level.text ++ " " ++ e.message

end Event

end Exokernel
