/-
  Saved registers.

  Whenever the kernel is entered it saves the registers of the environment that was running,
  and it restores them when that environment goes on.  Registers that a program supplies are
  put into user mode before they can ever be restored: user segments, interrupts on, no I/O
  privilege.

  In memory the registers are 17 little-endian words in the order of the fields below.  A
  16-bit selector takes a whole word, of which the high half is padding.
-/

namespace Exokernel

/-- The registers of a suspended environment, in their order in memory. -/
structure Registers where
  edi : UInt32 := 0
  esi : UInt32 := 0
  ebp : UInt32 := 0
  /-- Saved, but never restored. -/
  oesp : UInt32 := 0
  ebx : UInt32 := 0
  edx : UInt32 := 0
  ecx : UInt32 := 0
  /-- Number of the system call on entry, its result on exit. -/
  eax : UInt32 := 0
  es : UInt16 := 0
  ds : UInt16 := 0
  trapno : UInt32 := 0
  err : UInt32 := 0
  eip : UInt32 := 0
  cs : UInt16 := 0
  eflags : UInt32 := 0
  esp : UInt32 := 0
  ss : UInt16 := 0
  deriving DecidableEq, Inhabited

namespace Registers

/-- The selector of the user's code segment, with user privilege. -/
def userCode : UInt16 := 0x1B

/-- The selector of the user's data segment, with user privilege. -/
def userData : UInt16 := 0x23

/-- The flag that lets interrupts in. -/
def interruptFlag : UInt32 := 0x200

/-- The bits that hold the I/O privilege level. -/
def ioPrivilege : UInt32 := 0x3000

/-- Force every register that bears on protection to its user-mode value. -/
def sanitize (r : Registers) : Registers :=
  { r with
    es := userData
    ds := userData
    ss := userData
    cs := userCode
    eflags := (r.eflags ||| interruptFlag) &&& ~~~ ioPrivilege }

/-- The registers of a program that starts at `entry` with its stack at `stack`. -/
def newUser (entry stack : UInt32) : Registers :=
  sanitize { eip := entry, esp := stack }

/-- Load the result of a system call. -/
def setResult (r : Registers) (value : Int32) : Registers := { r with eax := value.toUInt32 }

/-- The result of a system call that the registers hold. -/
def result (r : Registers) : Int32 := r.eax.toInt32

/-! ## Words -/

/-- How many words the registers take in memory. -/
abbrev wordCount : Nat := 17

/-- The registers as words. -/
def words (r : Registers) : Vector UInt32 wordCount :=
  #v[r.edi, r.esi, r.ebp, r.oesp, r.ebx, r.edx, r.ecx, r.eax, r.es.toUInt32, r.ds.toUInt32,
    r.trapno, r.err, r.eip, r.cs.toUInt32, r.eflags, r.esp, r.ss.toUInt32]

/-- The registers that the words are; a selector takes the low half of its word. -/
def ofWords (w : Vector UInt32 wordCount) : Registers where
  edi := w[0]
  esi := w[1]
  ebp := w[2]
  oesp := w[3]
  ebx := w[4]
  edx := w[5]
  ecx := w[6]
  eax := w[7]
  es := w[8].toUInt16
  ds := w[9].toUInt16
  trapno := w[10]
  err := w[11]
  eip := w[12]
  cs := w[13].toUInt16
  eflags := w[14]
  esp := w[15]
  ss := w[16].toUInt16

theorem ofWords_words (r : Registers) : ofWords r.words = r := by
  simp [ofWords, words]

/-! ## Bytes -/

/-- How many bytes the registers take in memory. -/
abbrev byteCount : Nat := 68

/-- Byte number `k` of a little-endian word. -/
def byteOf (w : UInt32) (k : Nat) : UInt8 := UInt8.ofNat (w.toNat >>> (8 * k))

/-- The word whose little-endian bytes are `a`, `b`, `c` and `d`. -/
def wordOf (a b c d : UInt8) : UInt32 :=
  UInt32.ofNat (a.toNat + 0x100 * b.toNat + 0x10000 * c.toNat + 0x1000000 * d.toNat)

theorem wordIndex_lt (i : Fin byteCount) : i.val / 4 < wordCount := by
  have h : i.val < 68 := i.isLt
  show i.val / 4 < 17
  omega

theorem byteIndex_lt (i : Fin wordCount) (k : Fin 4) : 4 * i.val + k.val < byteCount := by
  have h : i.val < 17 := i.isLt
  show 4 * i.val + k.val < 68
  omega

/-- The registers as they lie in memory. -/
def encode (r : Registers) : Vector UInt8 byteCount :=
  Vector.ofFn fun i => byteOf (r.words.get ⟨i.val / 4, wordIndex_lt i⟩) (i.val % 4)

/-- The word number `i` among the bytes. -/
def wordAt (b : Vector UInt8 byteCount) (i : Fin wordCount) : UInt32 :=
  let byte (k : Fin 4) : UInt8 := b.get ⟨4 * i.val + k.val, byteIndex_lt i k⟩
  wordOf (byte 0) (byte 1) (byte 2) (byte 3)

/-- The registers that lie in memory as the given bytes. -/
def decode (b : Vector UInt8 byteCount) : Registers := ofWords (Vector.ofFn (wordAt b))

/-- The registers in an array of bytes, if it has the right length. -/
def ofBytes? (bytes : Array UInt8) : Option Registers :=
  if h : bytes.size = byteCount then some (decode ⟨bytes, h⟩) else none

end Registers

end Exokernel
