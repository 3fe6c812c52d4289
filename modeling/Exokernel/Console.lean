/-
  The console: bytes that wait to be read, and bytes written so far.
-/

namespace Exokernel

/-- Input in the order of arrival and output in the order of writing. -/
structure Console where
  input : List UInt8 := []
  output : Array UInt8 := #[]

namespace Console

/-- Queue input. -/
def push (c : Console) (bytes : Array UInt8) : Console :=
  { c with input := c.input ++ bytes.toList }

/-- The next byte of input, if one is waiting, and the console without it. -/
def read (c : Console) : Option UInt8 × Console :=
  match c.input with
  | [] => (none, c)
  | b :: rest => (some b, { c with input := rest })

/-- Write bytes. -/
def write (c : Console) (bytes : Array UInt8) : Console :=
  { c with output := c.output ++ bytes }

@[simp] theorem output_write (c : Console) (bytes : Array UInt8) :
    (c.write bytes).output = c.output ++ bytes := rfl

@[simp] theorem input_write (c : Console) (bytes : Array UInt8) :
    (c.write bytes).input = c.input := rfl

/-- Write text in UTF-8. -/
def writeText (c : Console) (text : String) : Console := c.write text.toUTF8.data

/-- The console with its output taken away. -/
def drain (c : Console) : Console := { c with output := #[] }

end Console

end Exokernel
