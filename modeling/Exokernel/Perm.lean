/-
  Permission bits of a mapping.

  A permission is a word of flags.  A system call passes such a word unchecked; two rules turn
  it into a permission that a mapping may have:

    * the allow-list: a request must ask for a present user page, and for nothing outside the
      bits that `Perm.requestable` has;
    * narrowing: a page that is shared may not be writable where its source is not.
-/
import Exokernel.Text.Hex

namespace Exokernel

/-- A set of permission bits, unknown bits included. -/
structure Perm where
  bits : UInt32 := 0
  deriving DecidableEq, Inhabited

namespace Perm

/-! ## Flags -/

def present : Perm := ⟨0x001⟩
def writable : Perm := ⟨0x002⟩
def user : Perm := ⟨0x004⟩
def writeThrough : Perm := ⟨0x008⟩
def cacheDisable : Perm := ⟨0x010⟩
def accessed : Perm := ⟨0x020⟩
def dirty : Perm := ⟨0x040⟩
def largePage : Perm := ⟨0x080⟩
def global : Perm := ⟨0x100⟩

/-- The three bits that are left to software. -/
def avail : Perm := ⟨0xE00⟩

/-- No bit at all. -/
def empty : Perm := ⟨0⟩

/-- A present page that the user can read. -/
def userRead : Perm := ⟨0x005⟩

/-- A present page that the user can read and write. -/
def userWrite : Perm := ⟨0x007⟩

/-- All that a system call may ask for. -/
def requestable : Perm := ⟨0xE07⟩

/-- The bits that an entry of a page table has room for. -/
def known : Perm := ⟨0xFFF⟩

/-- Does `p` have every bit of `q`? -/
def contains (p q : Perm) : Bool := p.bits &&& q.bits == q.bits

/-- The bits of either. -/
def union (p q : Perm) : Perm := ⟨p.bits ||| q.bits⟩

/-- The bits of `p` that `q` has, too. -/
def inter (p q : Perm) : Perm := ⟨p.bits &&& q.bits⟩

/-- The bits of `p` that `q` lacks. -/
def diff (p q : Perm) : Perm := ⟨p.bits &&& ~~~ q.bits⟩

/-- The known bits of `p`. -/
def truncate (p : Perm) : Perm := p.inter known

/-! ## Rights -/

/-- Why a requested permission is refused. -/
inductive Refusal where
  /-- The request misses a required bit or has one off the allow-list. -/
  | notAllowed
  /-- The request is for a writable page and the source is not writable. -/
  | widening
  deriving DecidableEq

/-- The text of a refusal. -/
def Refusal.message : Refusal → String
  | .notAllowed => "permission bits not allowed"
  | .widening => "permission exceeds source mapping"

/-- The permission that a system call asks for with the word `raw`. -/
def request (raw : UInt32) : Except Refusal Perm :=
  let p : Perm := ⟨raw⟩
  if p.contains userRead && requestable.contains p then .ok p else .error .notAllowed

/-- A page mapped with `source` may be shared with the permission `p` unless that adds the
  right to write. -/
def narrow (p source : Perm) : Except Refusal Unit :=
  if p.contains writable && !source.contains writable then .error .widening else .ok ()

/-! ## Written form -/

/-- The flags with their names, in the order in which they are written. -/
def names : List (Perm × String) :=
  [(present, "PRESENT"), (writable, "WRITABLE"), (user, "USER"),
    (writeThrough, "WRITE_THROUGH"), (cacheDisable, "CACHE_DISABLE"), (accessed, "ACCESSED"),
    (dirty, "DIRTY"), (largePage, "PAGE_SIZE"), (global, "GLOBAL"), (avail, "AVAIL")]

/-- The names of the flags that `p` has in full; bits that no such flag covers follow as one
  hexadecimal number. -/
def parts (p : Perm) : List String :=
  let shown := names.filter (fun flag => p.contains flag.1)
  let rest := shown.foldl (fun r flag => r.diff flag.1) p
  shown.map (·.2) ++ (if rest = empty then [] else ["0x" ++ Text.hex rest.bits.toNat])

/-- The written form of a permission. -/
def describe (p : Perm) : String :=
  "Perm(" ++ (if p = empty then "0x0" else " | ".intercalate p.parts) ++ ")"

end Perm

end Exokernel
