/-
  Who runs, and where.

  Three things say who runs: the current slot, the space in force, and what the kernel hands out
  when somebody goes on.  They are written in different places, and between the parts of a call
  they disagree: the current slot may be that of a caller that is no more, and a caller that
  becomes another program has its new space in force before its old one ends.  At the end of a
  call they agree again, because every call ends with a turn, and a turn writes all three.

  That the space in force belongs to whoever runs rests on `Housed`: whoever goes on is live, and
  whoever is live has a live space that nobody else has.
-/
import Exokernel.Kernel.Operation
import Exokernel.Proofs.Turns

namespace Exokernel

namespace Kernel

variable {k k' : Kernel} {config : Config} {memory : Memory} {console : Console} {slot : Nat}
  {r : Resumption}

/-! ## What holds when somebody goes on, and when nobody does -/

/-- The environment in `slot` runs, in its own space and as `r` says. -/
structure InForce (k : Kernel) (r : Resumption) (slot : Nat) : Prop where
  current : k.current = some slot
  named : k.envs.resolve r.env = some slot
  caller : k.currentId = some r.env
  registers : (k.env slot).registers = r.registers
  pending : (k.env slot).pending = none
  space : ∃ s, (k.env slot).space = some s ∧ k.memory.active = some s ∧
    (k.memory.directory? s).isSome = true ∧ ∀ other, k.Holds other s → other = slot

/-- Nobody runs, and nobody could. -/
structure AtRest (k : Kernel) : Prop where
  current : k.current = none
  nobody : ∀ slot, (k.env slot).status ≠ .runnable

/-- The current slot and the space in force are those of somebody who is live, and they go together
  whenever somebody goes on next. -/
structure Coherent (k : Kernel) : Prop where
  current : ∀ slot, k.current = some slot → (k.env slot).isLive = true
  active : ∀ s, k.memory.active = some s → (k.memory.directory? s).isSome = true
  started : ∀ id k' r, k.run id = .ok (k', r) → ∃ slot, k'.InForce r slot
  called : ∀ number args r, (k.call number args).2 = some r →
    ∃ slot, (k.call number args).1.InForce r slot
  rests : ∀ number args, (k.call number args).2 = none → (k.call number args).1.AtRest

/-- A turn writes all that says who runs. -/
theorem GoesOn.inForce {e : Env} (h : GoesOn slot e k' (some r)) (hl : e.isLive = true)
    (hk : k'.Housed) : k'.InForce r slot := by
  have hrecord : k'.env slot = e.resumed := h.record
  obtain rfl : r = ⟨e.id, e.resumed.registers⟩ := Option.some.inj h.next
  have hlive : (k'.env slot).isLive = true := by
    rw [hrecord]
    exact hl
  have hid : (k'.env slot).id = e.id := by
    rw [hrecord]
    rfl
  obtain ⟨s, hs, hd⟩ := hk.space slot hlive
  refine ⟨h.current, ?_, ?_, congrArg Env.registers hrecord, congrArg Env.pending hrecord, s, hs,
    ?_, hd, fun other hother => hk.apart other slot s hother ⟨hlive, hs⟩⟩
  · show k'.envs.resolve e.id = some slot
    rw [← hid]
    exact hk.resolve_id hlive
  · rw [currentId, caller_eq_ok.2 ⟨h.current, hlive⟩]
    exact congrArg some hid
  · rw [hrecord] at hs
    exact h.active s hs

theorem Settled.inForce {out : Kernel × Option Resumption} (h : Settled out) (hk : out.1.Housed)
    (hr : out.2 = some r) : ∃ slot, out.1.InForce r slot := by
  obtain ⟨slot, e, hl, hgo⟩ := h r hr
  exact ⟨slot, hgo.inForce hl hk⟩

theorem reschedule_rests (h : k.reschedule.2 = none) : k.reschedule.1.AtRest := by
  unfold reschedule at h ⊢
  split at h
  · cases h
  · rename_i hnone
    exact ⟨rfl, fun slot => EnvTable.pickNext_eq_none hnone slot⟩

/-- Nobody goes on after a call only if nobody can. -/
theorem call_rests {number : UInt32} {args : Args} (h : (k.call number args).2 = none) :
    (k.call number args).1.AtRest := by
  unfold call at h ⊢
  split at h
  · exact reschedule_rests h
  simp only at h ⊢
  split at h
  · -- a caller that is still there goes on, unless it gives way
    cases hflow : (k.dispatch number args).2 with
    | answer value =>
      rw [hflow] at h
      cases h
    | resume =>
      rw [hflow] at h
      cases h
    | reschedule =>
      rw [hflow] at h
      rename_i hcaller
      rw [if_pos hcaller]
      exact reschedule_rests h
  · rename_i hgone
    rw [if_neg hgone]
    exact reschedule_rests h

/-! ## The current slot -/

/-- The current slot, if there is one, is that of somebody who is live. -/
def CurrentLives (k : Kernel) : Prop := ∀ slot, k.current = some slot → (k.env slot).isLive = true

/-- Whoever goes on is live and current, whoever ran before. -/
theorem Settled.currentLives {out : Kernel × Option Resumption} (h : Settled out)
    (hr : out.2 = some r) : out.1.CurrentLives := by
  intro slot hslot
  obtain ⟨slot', e, hl, hgo⟩ := h r hr
  obtain rfl : slot' = slot := Option.some.inj (hgo.current.symm.trans hslot)
  rw [hgo.record]
  exact hl

theorem currentLives_act (hk : k.CurrentLives) (a : Action) : (k.act a).1.CurrentLives := by
  cases hnext : (k.act a).2 with
  | some r => exact (settled_act k a).currentLives hnext
  | none =>
    cases a with
    | create parent entry stack =>
      rcases k.act_create parent entry stack with
        hact | ⟨k', joined, hact, hdead, -, hothers, hcurrent⟩ <;> rw [hact]
      · exact hk
      · intro slot hslot
        have hl := hk slot (hcurrent.symm.trans hslot)
        show (k'.env slot).isLive = true
        rw [hothers slot (ne_of_isLive hl hdead)]
        exact hl
    | run id =>
      cases hr : k.envs.resolve id with
      | none =>
        rw [act_run_of_none hr]
        exact hk
      | some slot =>
        rw [act_run hr] at hnext
        cases hnext
    | capture registers =>
      obtain ⟨hcurrent, -⟩ := Turns.capture_quiet k registers
      intro slot hslot
      show ((k.capture registers).env slot).isLive = true
      rw [(Turns.capture k registers).isLive]
      exact hk slot (hcurrent.symm.trans hslot)
    | call number args =>
      have hnobody : (k.call number args).1.current = none := (call_rests hnext).current
      intro slot hslot
      cases hnobody.symm.trans hslot

/-! ## Histories -/

theorem housed_operate (hk : k.Housed) (op : Operation) : (k.operate op).1.Housed :=
  have hmoves : Moves [] k (k.operate op).1 := operate_moves hk op
  moves_housed hmoves hk

theorem CurrentLives.aside (hk : k.CurrentLives) (h : k.Aside k') : k'.CurrentLives := by
  intro slot hslot
  rw [h.env]
  exact hk slot (h.current.symm.trans hslot)

theorem currentLives_operate (hk : k.CurrentLives) (op : Operation) :
    (k.operate op).1.CurrentLives := by
  rcases k.operate_cases op with ⟨a, rfl⟩ | haside
  · exact currentLives_act hk a
  · exact hk.aside haside

theorem housed_afterAll (history : List Operation) (k : Kernel) (hk : k.Housed) :
    (k.afterAll history).Housed := by
  induction history generalizing k with
  | nil => exact hk
  | cons op rest ih => exact ih _ (housed_operate hk op)

theorem currentLives_afterAll (history : List Operation) (k : Kernel) (hk : k.CurrentLives) :
    (k.afterAll history).CurrentLives := by
  induction history generalizing k with
  | nil => exact hk
  | cons op rest ih => exact ih _ (currentLives_operate hk op)

/-- **Who runs and in which space go together**, after any history. -/
theorem coherent_afterAll (hboot : Kernel.boot config memory console = .ok k)
    (hvacant : memory.Vacant) (history : List Operation) : (k.afterAll history).Coherent := by
  have hk : (k.afterAll history).Housed := housed_afterAll history k (housed_boot hboot hvacant)
  have hnobody : k.CurrentLives := by
    intro slot hslot
    rw [(boot_eq_ok hboot).1] at hslot
    cases hslot
  have hafter : ∀ a, ((k.afterAll history).act a).1.Housed := fun a => housed_operate hk (.act a)
  refine ⟨currentLives_afterAll history k hnobody, hk.active, fun id k' r hrun => ?_,
    fun number args r hr => (settled_call _ number args).inForce (hafter (.call number args)) hr,
    fun number args hnone => call_rests hnone⟩
  have hact : (k.afterAll history).act (.run id) = (k', some r) := by
    simp only [act, hrun]
  have hhoused := hafter (.run id)
  have hsettled := settled_act (k.afterAll history) (.run id)
  rw [hact] at hhoused hsettled
  exact hsettled.inForce hhoused rfl

/-- A parent forks and becomes its child. -/
def adopting : List Operation :=
  [.act (.create .none 0 0), .act (.run ⟨4096⟩), .act (.call 6 (.replicate 5 0)),
    .act (.call 10 (.replicate 5 4097))]

theorem coherent_afterAll_adopting : (small.afterAll adopting).Coherent :=
  coherent_afterAll booted_small.boot ⟨rfl, rfl⟩ adopting

/-- The parent goes on in the space that was the child's, and its own is gone. -/
example : (small.afterAll adopting).current = some 0 ∧
    (small.afterAll adopting).memory.active = some ⟨1⟩ ∧
    (small.afterAll adopting).memory.directory? ⟨0⟩ = none := by decide +kernel

end Kernel

end Exokernel
