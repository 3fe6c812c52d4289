/-
  Ids name occupancies.

  An id says where an environment lives and how often somebody has moved in there, counted up to
  the number of generations.  Two environments that live at the same time differ in the slot; two
  that live in the same slot one after the other differ in the count, unless a whole round of
  generations lies between them.

  The count is made by an observer who looks at nothing but who is live (`fillings`).  The kernel
  counts in the record of the slot, which an end leaves with its last id.  Every action either
  fills a slot and takes the next id there or leaves the id alone (`id_act`), so both counts agree
  after any history.
-/
import Exokernel.Proofs.Strokes

namespace Exokernel

namespace EnvId

/-- After how many occupancies the ids of a slot start over. -/
abbrev period : Nat := generationEnd - 1

/-- The id of the `n`-th occupancy of a slot, counted from one.  A slot that was never occupied
  has the id of nobody. -/
def nth (slot : Nat) : Nat → EnvId
  | 0 => .none
  | n + 1 => .ofParts (n % period + 1) slot

variable {slot : Nat}

theorem toNat_nth (h : slot < maxEnvs) (n : Nat) :
    (nth slot (n + 1)).raw.toNat = (n % period + 1) * maxEnvs + slot := by
  refine toNat_ofParts ?_ h
  have hlt : n % period < period := Nat.mod_lt _ (by decide)
  simp only [period, generationEnd] at hlt ⊢
  omega

/-- The next id of a slot is that of its next occupancy. -/
theorem next_nth (h : slot < maxEnvs) (n : Nat) : (nth slot n).next slot = nth slot (n + 1) := by
  have hgeneration : nextGeneration (nth slot n).generation = n % period + 1 := by
    cases n with
    | zero =>
      show nextGeneration EnvId.none.generation = 0 % period + 1
      decide
    | succ n =>
      have hlast : (nth slot (n + 1)).generation = n % period + 1 := by
        rw [generation, toNat_nth h]
        simp only [maxEnvs] at h ⊢
        omega
      rw [hlast, nextGeneration]
      simp only [period, generationEnd]
      split <;> omega
  rw [next, hgeneration]
  rfl

/-- Two occupancies of a slot have one id if whole rounds of generations lie between them. -/
theorem nth_add_eq_iff (h : slot < maxEnvs) (n m : Nat) :
    nth slot (n + 1 + m) = nth slot (n + 1) ↔ period ∣ m := by
  rw [show n + 1 + m = n + m + 1 by omega]
  have hraw : nth slot (n + m + 1) = nth slot (n + 1) ↔
      (nth slot (n + m + 1)).raw.toNat = (nth slot (n + 1)).raw.toNat :=
    ⟨fun heq => by rw [heq], fun heq => congrArg mk (UInt32.toNat_inj.1 heq)⟩
  rw [hraw, toNat_nth h, toNat_nth h]
  simp only [period, generationEnd, maxEnvs]
  omega

theorem slot_nth (h : slot < maxEnvs) (n : Nat) : (nth slot (n + 1)).slot = slot := by
  rw [EnvId.slot, toNat_nth h]
  simp only [maxEnvs] at h ⊢
  omega

/-- An id with a generation stays below the sign bit and above zero. -/
theorem toResult_ofParts_pos {g : Nat} (hpos : 0 < g) (hg : g < generationEnd)
    (h : slot < maxEnvs) : 0 < (ofParts g slot).toResult := by
  have hraw := toNat_ofParts hg h
  simp only [maxEnvs, generationEnd] at h hg hraw
  have hint : (ofParts g slot).toResult.toInt = (ofParts g slot).raw.toNat := by
    rw [toResult, Int32.toInt, UInt32.toBitVec_toInt32]
    refine BitVec.toInt_eq_toNat_of_lt ?_
    rw [UInt32.toNat_toBitVec, hraw]
    omega
  rw [Int32.lt_iff_toInt_lt, hint, hraw]
  show (0 : Int) < _
  omega

theorem toResult_nth_pos (h : slot < maxEnvs) (n : Nat) : 0 < (nth slot (n + 1)).toResult := by
  have hlt : n % period < period := Nat.mod_lt _ (by decide)
  simp only [period, generationEnd] at hlt
  refine toResult_ofParts_pos (Nat.succ_pos _) ?_ h
  simp only [period, generationEnd]
  omega

theorem toResult_next_pos (last : EnvId) (h : slot < maxEnvs) : 0 < (last.next slot).toResult :=
  toResult_ofParts_pos (nextGeneration_pos _) (nextGeneration_lt _) h

end EnvId

namespace Kernel

variable {k : Kernel} {config : Config} {memory : Memory} {console : Console} {slot : Nat}

/-- The action puts somebody into a slot in which nobody was. -/
def fills (k : Kernel) (a : Action) (slot : Nat) : Bool :=
  !(k.env slot).isLive && ((k.act a).1.env slot).isLive

/-- How often a slot is filled in the course of a series of actions. -/
def fillings (k : Kernel) (slot : Nat) : List Action → Nat
  | [] => 0
  | a :: rest => (k.fills a slot).toNat + (k.act a).1.fillings slot rest

/-- From here on nobody has the id `i`, nobody is found by it, and no environment whose parent had
  it can be reached by the right of a parent. -/
structure Retired (k : Kernel) (i : EnvId) : Prop where
  unresolved : k.envs.resolve i = none
  nobody : ∀ e, (k.env e).isLive = true → (k.env e).id ≠ i
  orphaned : ∀ cur j e, k.caller = .ok cur → e ≠ cur → (k.env e).parent = i →
    k.target j .owned ≠ .ok e

/-- Ids as they are after a history that begins with nobody. -/
structure IdsNameOccupancies (k : Kernel) (history : List Action) : Prop where
  /-- The id of each occupancy is that of its number. -/
  numbered : ∀ slot n, k.fillings slot history = n + 1 →
    ((k.after history).env slot).id.raw.toNat = (n % 524287 + 1) * 4096 + slot
  apart : ∀ a b, ((k.after history).env a).isLive = true →
    ((k.after history).env b).isLive = true →
    ((k.after history).env a).id = ((k.after history).env b).id → a = b
  positive : ∀ slot, ((k.after history).env slot).isLive = true →
    0 < ((k.after history).env slot).id.toResult
  lowBits : ∀ slot, ((k.after history).env slot).isLive = true →
    ((k.after history).env slot).id.raw.toNat % 4096 = slot
  resolves : ∀ i slot, (k.after history).envs.resolve i = some slot ↔
    ((k.after history).env slot).isLive = true ∧ slot = i.raw.toNat % 4096 ∧
      i = .nth slot (k.fillings slot history)
  /-- The id of an environment that `a` has ended is found again when whole rounds have passed. -/
  stale : ∀ earlier a later slot, history = earlier ++ a :: later →
    ((k.after earlier).env slot).isLive = true →
    (((k.after earlier).act a).1.env slot).isLive = false →
    ∀ s, (k.after history).envs.resolve ((k.after earlier).env slot).id = some s ↔
      s = slot ∧ ((k.after history).env slot).isLive = true ∧
        524287 ∣ ((k.after earlier).act a).1.fillings slot later
  retired : ∀ earlier a later slot, history = earlier ++ a :: later →
    ((k.after earlier).env slot).isLive = true →
    (((k.after earlier).act a).1.env slot).isLive = false →
    ((k.after earlier).act a).1.fillings slot later < 524287 →
    (k.after history).Retired ((k.after earlier).env slot).id

/-! ## One action -/

/-- **The id of a slot goes on by one when the slot is filled, and only then.** -/
theorem id_act (k : Kernel) (a : Action) (slot : Nat) : ((k.act a).1.env slot).id =
    if k.fills a slot then (k.env slot).id.next slot else (k.env slot).id := by
  -- which registers are saved does not matter here
  have hcourse : Course (fun _ => True) k (k.act a).1 := act_course k a fun _ _ => trivial
  have hstays : ∀ k₁, k₁.env slot = k.env slot → Strokes (fun _ => True) k₁ (k.act a).1 →
      ((k.act a).1.env slot).id =
        if k.fills a slot then (k.env slot).id.next slot else (k.env slot).id := by
    intro k₁ henv hstrokes
    have hno : k.fills a slot = false := by
      unfold fills
      cases hl : ((k.act a).1.env slot).isLive with
      | false => exact Bool.and_false _
      | true => rw [show (k.env slot).isLive = true from henv ▸ hstrokes.isLive hl]; rfl
    rw [hno, hstrokes.id slot, henv]
    rfl
  generalize hk' : (k.act a).1 = k' at hcourse hstays
  cases hcourse with
  | strokes hstrokes => exact hstays k rfl hstrokes
  | @joins k₁ _ joined hjoins hstrokes hlive =>
    by_cases heq : slot = joined
    · subst heq
      have hyes : k.fills a slot = true := by
        rw [fills, hk', hjoins.unused, hlive]
        rfl
      rw [hyes, hstrokes.id slot, hjoins.id]
      rfl
    · exact hstays k₁ (hjoins.others slot heq) hstrokes

theorem capacity_act (k : Kernel) (a : Action) :
    (k.act a).1.envs.capacity = k.envs.capacity :=
  have hcourse : Course (fun _ => True) k (k.act a).1 := act_course k a fun _ _ => trivial
  hcourse.capacity

/-! ## A history -/

theorem after_append (k : Kernel) (earlier later : List Action) :
    k.after (earlier ++ later) = (k.after earlier).after later :=
  List.foldl_append

theorem capacity_after (history : List Action) (k : Kernel) :
    (k.after history).envs.capacity = k.envs.capacity := by
  induction history generalizing k with
  | nil => rfl
  | cons a rest ih => exact (ih _).trans (k.capacity_act a)

theorem fillings_append (earlier later : List Action) (k : Kernel) :
    k.fillings slot (earlier ++ later) =
      k.fillings slot earlier + (k.after earlier).fillings slot later := by
  induction earlier generalizing k with
  | nil => exact (Nat.zero_add _).symm
  | cons a rest ih =>
    show (k.fills a slot).toNat + (k.act a).1.fillings slot (rest ++ later) =
      (k.fills a slot).toNat + (k.act a).1.fillings slot rest +
        ((k.act a).1.after rest).fillings slot later
    rw [ih, Nat.add_assoc]

/-- The record of a slot keeps count. -/
theorem id_after (hs : slot < maxEnvs) (history : List Action) (k : Kernel) (n : Nat)
    (h : (k.env slot).id = .nth slot n) :
    ((k.after history).env slot).id = .nth slot (n + k.fillings slot history) := by
  induction history generalizing k n with
  | nil => exact h
  | cons a rest ih =>
    show (((k.act a).1.after rest).env slot).id =
      .nth slot (n + ((k.fills a slot).toNat + (k.act a).1.fillings slot rest))
    rw [← Nat.add_assoc]
    refine ih _ _ ?_
    rw [k.id_act a slot, h]
    cases k.fills a slot with
    | true => exact EnvId.next_nth hs n
    | false => rfl

/-- Nobody lives where nobody was and nobody has moved in. -/
theorem fillings_pos (history : List Action) (k : Kernel) (hdead : (k.env slot).isLive = false)
    (hl : ((k.after history).env slot).isLive = true) : 0 < k.fillings slot history := by
  induction history generalizing k with
  | nil => exact absurd (hdead.symm.trans hl) Bool.false_ne_true
  | cons a rest ih =>
    show 0 < (k.fills a slot).toNat + _
    cases hnow : ((k.act a).1.env slot).isLive with
    | true =>
      rw [fills, hdead, hnow]
      exact Nat.add_pos_left Nat.one_pos _
    | false => exact Nat.add_pos_right _ (ih _ hnow hl)

/-- Only slots of the table are filled. -/
theorem lt_capacity_of_fillings (history : List Action) (k : Kernel)
    (h : 0 < k.fillings slot history) : slot < k.envs.capacity := by
  induction history generalizing k with
  | nil => exact absurd h (Nat.lt_irrefl 0)
  | cons a rest ih =>
    cases hf : k.fills a slot with
    | true =>
      rw [fills, Bool.and_eq_true] at hf
      exact k.capacity_act a ▸ lt_capacity_of_isLive hf.2
    | false =>
      rw [fillings, hf, Bool.toNat_false, Nat.zero_add] at h
      exact k.capacity_act a ▸ ih _ h

/-! ## From the beginning -/

section Booted

variable (hboot : Kernel.boot config memory console = .ok k)

include hboot

theorem capacity_boot : k.envs.capacity ≤ maxEnvs := by
  obtain ⟨hk, hle⟩ := boot_eq_ok hboot
  rw [hk, EnvTable.capacity, EnvTable.ofCapacity, Array.size_replicate]
  exact hle

/-- After any history a slot has the id of its last occupancy. -/
theorem id_eq_nth (history : List Action) (hs : slot < maxEnvs) :
    ((k.after history).env slot).id = .nth slot (k.fillings slot history) := by
  have hnone : (k.env slot).id = .nth slot 0 := by
    rw [env_boot hboot]
    rfl
  rw [id_after hs history k 0 hnone, Nat.zero_add]

theorem slot_lt_of_isLive {history : List Action}
    (hl : ((k.after history).env slot).isLive = true) : slot < maxEnvs :=
  Nat.lt_of_lt_of_le (capacity_after history k ▸ lt_capacity_of_isLive hl) (capacity_boot hboot)

/-- A live environment has the id of some occupancy of its slot. -/
theorem occupancy_of_isLive {history : List Action}
    (hl : ((k.after history).env slot).isLive = true) :
    slot < maxEnvs ∧ ∃ n, k.fillings slot history = n + 1 ∧
      ((k.after history).env slot).id = .nth slot (n + 1) := by
  have hs := slot_lt_of_isLive hboot hl
  have hdead : (k.env slot).isLive = false := by
    rw [env_boot hboot]
    rfl
  obtain ⟨n, hn⟩ := Nat.exists_eq_add_one.2 (fillings_pos history k hdead hl)
  exact ⟨hs, n, hn, hn ▸ id_eq_nth hboot history hs⟩

theorem resolve_iff (history : List Action) (i : EnvId) (slot : Nat) :
    (k.after history).envs.resolve i = some slot ↔
      ((k.after history).env slot).isLive = true ∧ ((k.after history).env slot).id = i := by
  rw [EnvTable.resolve_eq_some_iff]
  refine ⟨fun h => h.2, fun ⟨hl, hid⟩ => ⟨?_, hl, hid⟩⟩
  obtain ⟨hs, n, -, hn⟩ := occupancy_of_isLive hboot hl
  rw [← hid, hn]
  exact EnvId.slot_nth hs n

/-- The id of one who has ended is had by whoever lives in the slot after whole rounds. -/
theorem id_again_iff {earlier later : List Action} {a : Action}
    (hl : ((k.after earlier).env slot).isLive = true)
    (hends : (((k.after earlier).act a).1.env slot).isLive = false) :
    ((k.after (earlier ++ a :: later)).env slot).id = ((k.after earlier).env slot).id ↔
      524287 ∣ ((k.after earlier).act a).1.fillings slot later := by
  obtain ⟨hs, n, hn, hid⟩ := occupancy_of_isLive hboot hl
  have hcount : k.fillings slot (earlier ++ a :: later) =
      n + 1 + ((k.after earlier).act a).1.fillings slot later := by
    -- the end itself fills nothing
    have hno : (k.after earlier).fills a slot = false := by
      rw [fills, hends, Bool.and_false]
    rw [fillings_append, hn, fillings, hno]
    exact congrArg _ (Nat.zero_add _)
  rw [id_eq_nth hboot _ hs, hid, hcount]
  exact EnvId.nth_add_eq_iff hs _ _

/-- Nobody else has that id either. -/
theorem slot_of_stale {earlier history : List Action} {e : Nat}
    (hl : ((k.after earlier).env slot).isLive = true)
    (hl' : ((k.after history).env e).isLive = true)
    (hid : ((k.after history).env e).id = ((k.after earlier).env slot).id) : e = slot := by
  obtain ⟨hs, n, -, hn⟩ := occupancy_of_isLive hboot hl
  obtain ⟨he, m, -, hm⟩ := occupancy_of_isLive hboot hl'
  rw [← EnvId.slot_nth he m, ← EnvId.slot_nth hs n, ← hm, ← hn, hid]

theorem retired_of_end {earlier later : List Action} {a : Action}
    (hl : ((k.after earlier).env slot).isLive = true)
    (hends : (((k.after earlier).act a).1.env slot).isLive = false)
    (hfew : ((k.after earlier).act a).1.fillings slot later < 524287) :
    (k.after (earlier ++ a :: later)).Retired ((k.after earlier).env slot).id := by
  have hnobody : ∀ e, ((k.after (earlier ++ a :: later)).env e).isLive = true →
      ((k.after (earlier ++ a :: later)).env e).id ≠ ((k.after earlier).env slot).id := by
    intro e he hid
    obtain rfl := slot_of_stale hboot hl he hid
    have hrounds := (id_again_iff hboot hl hends).1 hid
    have hpos : 0 < ((k.after earlier).act a).1.fillings e later := by
      refine fillings_pos later _ hends ?_
      rwa [after_append] at he
    exact absurd (Nat.le_of_dvd hpos hrounds) (Nat.not_le_of_lt hfew)
  refine ⟨?_, hnobody, fun cur j e hc hne hparent htarget => ?_⟩
  · rw [Option.eq_none_iff_forall_ne_some]
    intro s hs
    obtain ⟨he, hid⟩ := (resolve_iff hboot _ _ _).1 hs
    exact hnobody s he hid
  · rcases controls_of_target hc htarget with hself | hchild
    · exact hne hself
    · exact hnobody cur (caller_eq_ok.1 hc).2 (hchild.symm.trans hparent)

end Booted

/-- **Ids name occupancies.** -/
theorem ids_name_occupancies (h : Kernel.boot config memory console = .ok k)
    (history : List Action) : k.IdsNameOccupancies history where
  numbered slot n hn := by
    have hpos : 0 < k.fillings slot history := hn ▸ Nat.succ_pos n
    have hcap := lt_capacity_of_fillings history k hpos
    have hs := Nat.lt_of_lt_of_le hcap (capacity_boot h)
    rw [id_eq_nth h history hs, hn]
    exact EnvId.toNat_nth hs n
  apart a b ha hb hid := slot_of_stale h hb ha hid
  positive slot hl := by
    obtain ⟨hs, n, -, hid⟩ := occupancy_of_isLive h hl
    rw [hid]
    exact EnvId.toResult_nth_pos hs n
  lowBits slot hl := by
    obtain ⟨hs, n, -, hid⟩ := occupancy_of_isLive h hl
    rw [hid]
    exact EnvId.slot_nth hs n
  resolves i slot := by
    rw [resolve_iff h]
    constructor
    · rintro ⟨hl, rfl⟩
      obtain ⟨hs, n, hn, hid⟩ := occupancy_of_isLive h hl
      refine ⟨hl, ?_, hn ▸ hid⟩
      rw [hid]
      exact (EnvId.slot_nth hs n).symm
    · rintro ⟨hl, -, rfl⟩
      exact ⟨hl, id_eq_nth h history (slot_lt_of_isLive h hl)⟩
  stale earlier a later slot hhistory hl hends s := by
    subst hhistory
    rw [resolve_iff h]
    constructor
    · rintro ⟨hl', hid⟩
      obtain rfl := slot_of_stale h hl hl' hid
      exact ⟨rfl, hl', (id_again_iff h hl hends).1 hid⟩
    · rintro ⟨rfl, hl', hrounds⟩
      exact ⟨hl', (id_again_iff h hl hends).2 hrounds⟩
  retired earlier a later slot hhistory hl hends hfew := by
    subst hhistory
    exact retired_of_end h hl hends hfew

/-- A parent forks, ends its child and forks again. -/
def replaced : List Action :=
  [.create .none 0 0, .run ⟨4096⟩, .call 6 (.replicate 5 0), .call 3 (.replicate 5 4097),
    .call 6 (.replicate 5 0)]

theorem ids_name_occupancies_replaced : small.IdsNameOccupancies replaced :=
  ids_name_occupancies booted_small.boot replaced

/-- The second child is told apart from the first, in whose slot it lives. -/
example : small.fillings 1 replaced = 2 ∧ ((small.after replaced).env 1).id = ⟨8193⟩ ∧
    (small.after replaced).envs.resolve ⟨4097⟩ = none := by decide +kernel

end Kernel

end Exokernel
