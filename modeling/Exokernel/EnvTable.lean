/-
  The environment table.

  The table has a fixed number of slots.  A slot whose environment has ended keeps the last id,
  so that the next environment there gets a new one.

  `get` reads every slot number, those beyond the table as free slots, and `update` changes one
  record; everything else is said with these two.
-/
import Exokernel.Env

namespace Exokernel

/-- The records of all slots. -/
structure EnvTable where
  slots : Array Env

namespace EnvTable

/-- A table of `n` free slots. -/
def ofCapacity (n : Nat) : EnvTable := ⟨Array.replicate n {}⟩

/-- How many slots there are. -/
def capacity (t : EnvTable) : Nat := t.slots.size

/-- The record of a slot. -/
def get (t : EnvTable) (slot : Nat) : Env := t.slots.getD slot {}

/-- The table with one record changed. -/
def update (t : EnvTable) (slot : Nat) (change : Env → Env) : EnvTable :=
  ⟨t.slots.modify slot change⟩

@[simp] theorem capacity_update (t : EnvTable) (slot : Nat) (change : Env → Env) :
    (t.update slot change).capacity = t.capacity := by
  simp [capacity, update]

theorem get_update (t : EnvTable) (slot other : Nat) (change : Env → Env)
    (h : other < t.capacity) :
    (t.update slot change).get other =
      if slot = other then change (t.get other) else t.get other := by
  have h' : other < t.slots.size := h
  simp only [get, update, Array.getD_eq_getD_getElem?, Array.getElem?_modify]
  by_cases hs : slot = other <;> simp [hs, h']

/-- A number beyond the table reads as a free slot. -/
theorem get_of_le (t : EnvTable) {slot : Nat} (h : t.capacity ≤ slot) : t.get slot = {} := by
  have h' : t.slots.size ≤ slot := h
  simp [get, Array.getD_eq_getD_getElem?, h']

/-! ## Finding slots -/

/-- The slot of the live environment with the given id. -/
def resolve (t : EnvTable) (id : EnvId) : Option Nat :=
  if (t.get id.slot).isLive && decide ((t.get id.slot).id = id) then some id.slot else none

theorem resolve_eq_some_iff {t : EnvTable} {id : EnvId} {slot : Nat} :
    t.resolve id = some slot ↔ id.slot = slot ∧ (t.get slot).isLive ∧ (t.get slot).id = id := by
  simp only [resolve, Option.ite_none_right_eq_some, Bool.and_eq_true, decide_eq_true_eq,
    Option.some.injEq]
  constructor
  · rintro ⟨⟨hl, hi⟩, rfl⟩
    exact ⟨rfl, hl, hi⟩
  · rintro ⟨rfl, hl, hi⟩
    exact ⟨⟨hl, hi⟩, rfl⟩

/-- The live environment with the given id. -/
def lookup (t : EnvTable) (id : EnvId) : Option Env := (t.resolve id).map t.get

/-- The first free slot. -/
def findFree (t : EnvTable) : Option Nat :=
  t.slots.findIdx? fun e => decide (e.status = .free)

/-- The slots of live environments, in order. -/
def live (t : EnvTable) : List Nat :=
  (List.range t.capacity).filter fun slot => (t.get slot).isLive

/-- How many environments are live. -/
def liveCount (t : EnvTable) : Nat := t.slots.countP (·.isLive)

/-- The slots of the live environments with a message parked for `target`, in order. -/
def sendersTo (t : EnvTable) (target : EnvId) : List Nat :=
  t.live.filter fun slot => (t.get slot).sendsTo target

/-- The records of two different slots. -/
def pair? (t : EnvTable) (a b : Nat) : Option (Env × Env) :=
  if a = b then none else some (t.get a, t.get b)

/-! ## Occupying slots -/

/-- Put a new environment into a free slot: a record with a new id and nothing else but its
  parent and its space. -/
def occupy (t : EnvTable) (slot : Nat) (parent : EnvId) (space : SpaceId) : EnvTable :=
  t.update slot fun old =>
    { id := old.id.next slot, parent, status := .notRunnable, space := some space }

/-- Clear a slot; only the id stays. -/
def vacate (t : EnvTable) (slot : Nat) : EnvTable :=
  t.update slot fun old => { id := old.id }

/-! ## Round robin -/

/-- The first of the next `n` slots from `slot` on, around the end of the table, whose
  environment can run. -/
def scan (t : EnvTable) : (n : Nat) → (slot : Nat) → Option Nat
  | 0, _ => none
  | n + 1, slot =>
    if (t.get slot).status = .runnable then some slot
    else t.scan n ((slot + 1) % t.capacity)

/-- Who runs next: the first environment that can run in the slots after `last`, with `last`
  itself tried at the end.  Without a last slot the search starts at slot 0. -/
def pickNext (t : EnvTable) (last : Option Nat) : Option Nat :=
  let start := match last with
    | some slot => slot + 1
    | none => 0
  t.scan t.capacity (start % t.capacity)

end EnvTable

end Exokernel
