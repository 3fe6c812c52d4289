/-
  What a pool of frames has been through.

  A history is the list of demands that were made on a pool, each with its answer, since the pool
  was new.  Handles come from outside and may name anything: a frame in use, a free one, one that
  the pool does not manage, or no frame at all.  A demand that the pool refuses for good has no
  answer, and the history ends there.

  The counts of a frame are read off the history alone.  They go back to when the frame was last
  handed out, since whatever was done with it before was done for somebody else.
-/
import Exokernel.FramePool

namespace Exokernel.FramePool

/-- What can be asked of a pool. -/
inductive Demand where
  | alloc
  | free (f : Frame)
  | retain (f : Frame)
  | release (f : Frame)
  | write (f : Frame) (off : Nat) (bytes : Array UInt8)
  deriving DecidableEq

/-- The frame that a demand names. -/
def Demand.handle? : Demand → Option Frame
  | .alloc => none
  | .free f | .retain f | .release f | .write f _ _ => some f

/-- What a pool answers. -/
inductive Answer where
  /-- The frame that is handed out, if one is free. -/
  | frame (f : Option Frame)
  /-- The frame was given back. -/
  | done
  /-- Was there an effect?  When a reference is dropped: did that make the frame free? -/
  | flag (b : Bool)
  deriving DecidableEq

/-- The pool after a demand, and the answer. -/
def serve (p : FramePool) : Demand → Except Misuse (FramePool × Answer)
  | .alloc =>
    match p.alloc? with
    | some (p', f) => .ok (p', .frame (some f))
    | none => .ok (p, .frame none)
  | .free f =>
    match p.free f with
    | .ok p' => .ok (p', .done)
    | .error misuse => .error misuse
  | .retain f =>
    match p.retain? f with
    | some p' => .ok (p', .flag true)
    | none => .ok (p, .flag false)
  | .release f => .ok ((p.release f).1, .flag (p.release f).2)
  | .write f off bytes =>
    match p.write? f off bytes with
    | some p' => .ok (p', .flag true)
    | none => .ok (p, .flag false)

/-- A demand that was answered. -/
structure Exchange where
  demand : Demand
  answer : Answer
  deriving DecidableEq

/-- The frame that an exchange is about. -/
def Exchange.about (e : Exchange) : Option Frame :=
  match e.answer with
  | .frame f => f
  | .done | .flag _ => e.demand.handle?

/-- The pool `p` is what a new one of `n` frames has become; `past` tells how, the latest exchange
  first. -/
inductive Served (base : PhysAddr) (n : Nat) : (past : List Exchange) → (p : FramePool) → Prop
  | start : Served base n [] (ofSize base n)
  | serve {past : List Exchange} {p p' : FramePool} {d : Demand} {a : Answer}
      (before : Served base n past p) (answered : p.serve d = .ok (p', a)) :
      Served base n (⟨d, a⟩ :: past) p'

/-! ## Counting -/

/-- The exchange in which a frame is handed out. -/
def handedOut (f : Frame) : Exchange := ⟨.alloc, .frame (some f)⟩

/-- What has happened since the frame was last handed out. -/
def since (f : Frame) (past : List Exchange) : List Exchange :=
  past.takeWhile fun e => e ≠ handedOut f

/-- How many references to the frame were taken since then. -/
def retained (f : Frame) (past : List Exchange) : Nat :=
  (since f past).count ⟨.retain f, .flag true⟩

/-- How many references to the frame were dropped since then, leaving it in use. -/
def dropped (f : Frame) (past : List Exchange) : Nat :=
  (since f past).count ⟨.release f, .flag false⟩

end Exokernel.FramePool
