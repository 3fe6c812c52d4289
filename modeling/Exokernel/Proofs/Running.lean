/-
  Whoever goes on after a call can run, but for one case.

  A call that gives way lets the scheduler choose, and the scheduler chooses somebody who can run.
  All other calls let their caller go on, and nobody looks at its status.  The status is right all
  the same as long as calls that take it away from their caller give way, and those that block do.

  The one that does not is the call that sets a status.  A program may set its own, and one that
  stops itself gets its result and goes on although it cannot run.
-/
import Exokernel.Proofs.Imprints

namespace Exokernel.Kernel

variable {k k' : Kernel} {config : Config} {memory : Memory} {console : Console} {r : Request}
  {slot cur e : Nat} {number : UInt32} {args : Args} {next : Option Resumption}
  {resumption : Resumption}

/-- Is there an environment with the given id that can run? -/
def CanRun (k : Kernel) (id : EnvId) : Prop :=
  ∃ slot, k.envs.resolve id = some slot ∧ (k.env slot).status = .runnable

/-- Does the caller take from itself that it can run? -/
def StopsItself (k : Kernel) : Request → Prop
  | .setStatus id word =>
    ∃ cur, k.caller = .ok cur ∧ k.target id .owned = .ok cur ∧
      Status.ofWord? word = some .notRunnable
  | _ => False

/-- A caller that could run and does not give way can run after its request, or stops itself. -/
theorem runnable_or_stops (hc : k.caller = .ok e) (hstatus : (k.env e).status = .runnable)
    (hl : ((k.perform r).kernel.env e).isLive = true)
    (hflow : (k.perform r).flow ≠ .reschedule) :
    ((k.perform r).kernel.env e).status = .runnable ∨ k.StopsItself r := by
  cases perform_imprint (caller_eq_ok.1 hc).2 r with
  | ended dead => exact absurd (dead.symm.trans hl) Bool.false_ne_true
  | kept steady => exact Or.inl (steady.status.trans hstatus)
  | setStatus request target named lives record =>
    subst request
    rcases lives with rfl | rfl
    · exact Or.inl (congrArg Env.status record)
    · exact Or.inr ⟨e, hc, target, named⟩
  | loaded _ _ _ record => exact Or.inl ((congrArg Env.status record).trans hstatus)
  | adopts _ _ _ status =>
    rcases status with hsame | hrunnable
    · exact Or.inl (hsame.trans hstatus)
    · exact Or.inl hrunnable
  | blocks _ blocked => exact absurd (flow_of_result blocked) hflow
  | served _ status => exact Or.inl status

/-- A turn does not change who can run. -/
theorem GoesOn.canRun {e₀ : Env} (hk : k'.Indexed) (h : GoesOn slot e₀ k' (some resumption))
    (hstatus : e₀.status = .runnable) : k'.CanRun resumption.env := by
  refine ⟨slot, h.named hk (Env.isLive_iff.2 (Or.inl hstatus)), ?_⟩
  rw [h.record]
  exact hstatus

theorem Indexed.call (hk : k.Indexed) (number : UInt32) (args : Args) :
    (k.call number args).1.Indexed :=
  hk.operate (.act (.call number args))

/-- Whoever the scheduler chooses can run. -/
theorem reschedule_runnable (h : k.reschedule.2 = some resumption) :
    ∃ slot, (k.env slot).status = .runnable ∧
      GoesOn slot (k.env slot) k.reschedule.1 (some resumption) := by
  unfold reschedule at h ⊢
  split at h
  · rename_i slot hpick
    have hstatus : (k.env slot).status = .runnable := EnvTable.pickNext_spec hpick
    have hgoes := resume_goesOn (k := k) (Env.isLive_iff.2 (Or.inl hstatus))
    exact ⟨slot, hstatus, h ▸ hgoes⟩
  · cases h

/-- Whoever goes on after a call of somebody who could run can run, unless the caller stops
  itself. -/
theorem canRun_or_stops (hk : k.Indexed)
    (hrun : ∀ slot, k.current = some slot → (k.env slot).status = .runnable)
    (hnext : (k.call number args).2 = some resumption) :
    (k.call number args).1.CanRun resumption.env ∨ k.StopsItself (.ofWords number args) := by
  have hk' := hk.call number args
  cases hcur : k.current with
  | none =>
    have hcall : k.call number args = k.reschedule := by rw [call, hcur]
    rw [hcall] at hnext hk' ⊢
    obtain ⟨slot, hstatus, hgoes⟩ := reschedule_runnable hnext
    exact Or.inl (hgoes.canRun hk' hstatus)
  | some cur =>
    have hstatus := hrun cur hcur
    have hc : k.caller = .ok cur :=
      caller_eq_ok.2 ⟨hcur, Env.isLive_iff.2 (Or.inl hstatus)⟩
    obtain ⟨slot, e₀, hl, hgoes⟩ := settled_call k number args resumption hnext
    -- the record of whoever goes on was already live when the request was done
    have hlive : ((k.perform (.ofWords number args)).kernel.env slot).isLive = true := by
      rw [← (Turns.call hcur number args).isLive, hgoes.record]
      exact hl
    have hturn := call_turn hk hcur (fun _ => (caller_eq_ok.1 hc).2) hlive
    rw [hnext] at hturn
    cases hturn with
    | passed _ passed => exact absurd hgoes.current passed.current
    | picked _ status goes => exact Or.inl (goes.canRun hk' status)
    | resumes caller flow goes =>
      subst caller
      have hflow : (k.perform (.ofWords number args)).flow ≠ .reschedule := by
        intro hgives
        cases flow.symm.trans hgives
      exact (runnable_or_stops hc hstatus hlive hflow).imp_left (goes.canRun hk' ·)
    | answered caller flow goes =>
      subst caller
      have hflow : (k.perform (.ofWords number args)).flow ≠ .reschedule := by
        intro hgives
        cases flow.symm.trans hgives
      exact (runnable_or_stops hc hstatus hlive hflow).imp_left (goes.canRun hk' ·)

/-- A caller that stops itself goes on with the result of a call that succeeded. -/
theorem StopsItself.goesOn (h : k.StopsItself (.ofWords number args)) (hk : k.Indexed) :
    ∃ cur, k.caller = .ok cur ∧
      ((k.call number args).1.env cur).status = .notRunnable ∧
      (k.call number args).1.envs.resolve (k.env cur).id = some cur ∧
      Returns (k.call number args).2 (k.env cur).id 0 := by
  unfold StopsItself at h
  split at h
  · rename_i id word hreq
    obtain ⟨cur, hc, ht, hword⟩ := h
    have hl := (caller_eq_ok.1 hc).2
    have hdone : k.perform (.ofWords number args) =
        ⟨k.updateEnv cur fun e => { e with status := .notRunnable }, .ok (.answer 0)⟩ := by
      simp only [hreq, perform, setStatus, ht, hword]
      rfl
    have hrecord : (k.perform (.ofWords number args)).kernel.env cur =
        { k.env cur with status := .notRunnable } := by
      rw [hdone]
      exact env_updateEnv_self _ hl
    have hflow : (k.perform (.ofWords number args)).flow = .answer 0 :=
      flow_of_result (by rw [hdone])
    have hgoes := (call_answered hk hc (by rw [hrecord]; rfl) hflow).1
    rw [hrecord] at hgoes
    have hreturns := hgoes.returns rfl
    have hnext := hgoes.next
    rw [hnext] at hgoes
    have hnamed := hgoes.named (hk.call number args) rfl
    exact ⟨cur, hc, congrArg Env.status hgoes.record, hnamed, hreturns⟩
  · exact h.elim

/-- **Somebody goes on after a call who cannot run exactly if the caller stops itself**, when
  whoever made the call could run. -/
theorem stopped_goes_on_iff (hboot : Kernel.boot config memory console = .ok k)
    (history : List Operation) (hrun : ∀ slot, (k.afterAll history).current = some slot →
      ((k.afterAll history).env slot).status = .runnable) (number : UInt32) (args : Args) :
    (∃ resumption, ((k.afterAll history).call number args).2 = some resumption ∧
        ¬ ((k.afterAll history).call number args).1.CanRun resumption.env) ↔
      (k.afterAll history).StopsItself (.ofWords number args) := by
  have hk : (k.afterAll history).Indexed := (indexed_boot hboot).afterAll history
  constructor
  · rintro ⟨resumption, hnext, hcannot⟩
    exact (canRun_or_stops hk hrun hnext).resolve_left hcannot
  · intro hstops
    obtain ⟨cur, -, hstatus, hnamed, registers, hnext, -⟩ := hstops.goesOn hk
    refine ⟨_, hnext, ?_⟩
    rintro ⟨slot, hslot, hrunnable⟩
    obtain rfl : cur = slot := Option.some.inj (hnamed.symm.trans hslot)
    exact nomatch hstatus.symm.trans hrunnable

/-- One environment, which runs. -/
def alone : List Operation := [.act (.create .none 0 0), .act (.run ⟨4096⟩)]

theorem runnable_alone (slot : Nat) (h : (small.afterAll alone).current = some slot) :
    ((small.afterAll alone).env slot).status = .runnable := by
  have hcurrent : (small.afterAll alone).current = some 0 := by decide +kernel
  obtain rfl : 0 = slot := Option.some.inj (hcurrent.symm.trans h)
  decide +kernel

/-- The arguments with which the running environment stops itself. -/
def stopSelf : Args := #v[0, 4, 0, 0, 0]

theorem stopped_goes_on_iff_alone :
    (∃ resumption, ((small.afterAll alone).call 7 stopSelf).2 = some resumption ∧
        ¬ ((small.afterAll alone).call 7 stopSelf).1.CanRun resumption.env) ↔
      (small.afterAll alone).StopsItself (.ofWords 7 stopSelf) :=
  stopped_goes_on_iff booted_small.boot alone runnable_alone 7 stopSelf

/-- The running environment stops itself and goes on, although it cannot run and nobody else is
  there. -/
theorem alone_stopped :
    (small.afterAll alone).current = some 0 ∧
      ((small.afterAll alone).env 0).status = .runnable ∧
      ∃ resumption, ((small.afterAll alone).call 7 stopSelf).2 = some resumption ∧
        ((small.afterAll alone).call 7 stopSelf).1.envs.resolve resumption.env = some 0 ∧
        (((small.afterAll alone).call 7 stopSelf).1.env 0).status = .notRunnable := by
  refine ⟨by decide +kernel, by decide +kernel, ?_⟩
  exact ⟨⟨⟨4096⟩, .newUser 0 0⟩, by decide +kernel, by decide +kernel, by decide +kernel⟩

end Exokernel.Kernel
