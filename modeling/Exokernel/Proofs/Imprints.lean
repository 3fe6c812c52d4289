/-
  What a request leaves of how an environment goes on.

  How an environment goes on is in three fields of its record.  The registers and the pending result
  are what it finds, and the status says whether it is picked at all. `Imprint` lists what a request
  can make of these three, for everybody who is live, the caller included.

  Like the strokes of a course, and unlike a fate, an imprint rests on no invariant: nothing is
  asked of memory, nor of the messages that are parked.  What is proved from here holds for kernels
  over any memory, whatever programs have written there.
-/
import Exokernel.Proofs.Strokes
import Exokernel.Proofs.Waiting

namespace Exokernel.Kernel

variable {k k' k₁ : Kernel} {r : Request} {reply : Reply} {flow : Flow} {cur e slot : Nat}

/-- What the request `r`, answered by `reply`, makes of the live environment in `e`. -/
inductive Imprint (k : Kernel) (r : Request) (reply : Reply) (e : Nat) : Prop where
  | ended (dead : (reply.kernel.env e).isLive = false)
  /-- Nothing happens to it, but that a caller may get a pending result. -/
  | kept (steady : (k.env e).Steady (reply.kernel.env e))
      (registers : (reply.kernel.env e).registers = (k.env e).registers)
      (pending : k.caller ≠ .ok e → (reply.kernel.env e).pending = (k.env e).pending)
  /-- It is started or stopped. -/
  | setStatus {id : EnvId} {word : UInt32} {status : Status} (request : r = .setStatus id word)
      (target : k.target id .owned = .ok e) (named : Status.ofWord? word = some status)
      (lives : status = .runnable ∨ status = .notRunnable)
      (record : reply.kernel.env e = { k.env e with status })
  /-- It gets registers from the caller's memory, and keeps its pending result. -/
  | loaded {id : EnvId} {va : VirtAddr} {registers : Registers} (request : r = .setRegisters id va)
      (target : k.target id .owned = .ok e) (answer : reply.result = .ok (.answer 0))
      (record : reply.kernel.env e = { k.env e with registers := registers.sanitize })
  /-- It becomes its child. -/
  | adopts {id : EnvId} (request : r = .execCommit id) (caller : k.caller = .ok e)
      (resume : reply.result = .ok .resume)
      (status : (reply.kernel.env e).status = (k.env e).status ∨
        (reply.kernel.env e).status = .runnable)
  /-- It makes a call that blocks. -/
  | blocks (caller : k.caller = .ok e) (blocked : reply.result = .ok .reschedule)
      (registers : (reply.kernel.env e).registers = (k.env e).registers)
  /-- A wait is over, its own or that of somebody who has a message for it. -/
  | served (waited : (k.env e).isBlocked = true ∨ k.caller = .ok e)
      (status : (reply.kernel.env e).status = .runnable)
      (registers : (reply.kernel.env e).registers = (k.env e).registers)

/-! ## Imprints that requests share -/

theorem Imprint.of_same (h : reply.kernel.env e = k.env e) : Imprint k r reply e := by
  refine .kept ?_ ?_ fun _ => ?_ <;> rw [h]
  exact .refl _

theorem imprint_ofCheck {c : Check (Kernel × Flow)}
    (h : ∀ k' flow, c = .ok (k', flow) → Imprint k r ⟨k', .ok flow⟩ e) :
    Imprint k r (Reply.ofCheck k c) e := by
  cases c with
  | ok out => exact h out.1 out.2 rfl
  | error _ => exact .of_same rfl

/-- A record is written.  It is left to show what that makes of its own environment. -/
theorem imprint_update {change : Env → Env} (hl : (k.env slot).isLive = true)
    (hrec : reply.kernel.env e = (k.updateEnv slot change).env e)
    (self : reply.kernel.env slot = change (k.env slot) → Imprint k r reply slot) :
    Imprint k r reply e := by
  rw [env_updateEnv_eq change hl] at hrec
  split at hrec
  · rename_i heq
    subst heq
    exact self hrec
  · exact .of_same hrec

/-- A record is written in fields that do not matter here, or the caller gets a pending result. -/
theorem imprint_write {change : Env → Env} (hl : (k.env slot).isLive = true)
    (hrec : reply.kernel.env e = (k.updateEnv slot change).env e)
    (steady : (k.env slot).Steady (change (k.env slot)))
    (registers : (change (k.env slot)).registers = (k.env slot).registers)
    (pending : k.caller ≠ .ok slot → (change (k.env slot)).pending = (k.env slot).pending) :
    Imprint k r reply e := by
  refine imprint_update hl hrec fun record => .kept ?_ ?_ fun hne => ?_ <;> rw [record]
  · exact steady
  · exact registers
  · exact pending hne

theorem isBlocked_of_sendsTo {e : Env} {id : EnvId} (h : e.sendsTo id = true) :
    e.isBlocked = true := by
  obtain ⟨send, hparked, -⟩ := Env.sendsTo_iff.1 h
  rw [Env.isBlocked, hparked]
  exact Bool.or_true _

/-- Somebody ends. -/
theorem imprint_end (k₁ : Kernel) (hl : (k₁.env slot).isLive = true)
    (hkernel : reply.kernel = k₁.destroy slot) (hsame : k₁.env e = k.env e) :
    Imprint k r reply e := by
  have hend := env_destroy hl e
  rw [← hkernel, hsame] at hend
  by_cases heq : e = slot
  · subst heq
    rw [afterEnd_self] at hend
    exact .ended (by rw [hend]; rfl)
  rw [afterEnd_of_ne heq] at hend
  split at hend
  · rename_i hsends
    have hblocked := isBlocked_of_sendsTo (Bool.and_eq_true_iff.1 hsends).2
    exact .served (Or.inl hblocked) (congrArg Env.status hend)
      ((congrArg Env.registers hend).trans rfl)
  · exact .of_same hend

theorem badPointer_imprint (hc : k.caller = .ok cur) (fault : VirtAddr) :
    Imprint k r (k.badPointer cur fault) e :=
  imprint_end (k.note _) (caller_eq_ok.1 hc).2 rfl rfl

/-! ## Request by request -/

section Requests

variable {id : EnvId} {va : VirtAddr} {word : UInt32}

theorem yield_imprint (h : k.yield = .ok (k', flow)) : Imprint k r ⟨k', .ok flow⟩ e := by
  obtain ⟨cur, hc, rfl, -⟩ := yield_eq_ok h
  exact imprint_write (caller_eq_ok.1 hc).2 rfl ⟨rfl, rfl, rfl⟩ rfl fun hne => absurd hc hne

theorem fork_imprint (hl : (k.env e).isLive = true) (h : k.fork = .ok (k', flow)) :
    Imprint k r ⟨k', .ok flow⟩ e := by
  obtain ⟨cur, k₁, slot, event, -, ha, rfl, -⟩ := fork_eq_ok h
  obtain ⟨s, -, -, hdead, -, hothers, -⟩ := allocEnv_spec ha
  have hne := ne_of_isLive hl hdead
  exact .of_same ((env_updateEnv_of_ne _ hne).trans (hothers e hne))

theorem setStatus_imprint (h : k.setStatus id word = .ok (k', flow)) :
    Imprint k (.setStatus id word) ⟨k', .ok flow⟩ e := by
  obtain ⟨slot, status, ht, hnamed, hlives, rfl, -⟩ := setStatus_eq_ok h
  exact imprint_update (isLive_of_target ht) rfl fun record =>
    .setStatus rfl ht hnamed hlives record

theorem setRegisters_imprint (k : Kernel) (id : EnvId) (va : VirtAddr) (e : Nat) :
    Imprint k (.setRegisters id va) (k.setRegisters id va) e := by
  rcases k.setRegisters_cases id va with
    ⟨err, heq⟩ | ⟨cur, fault, hc, heq⟩ | ⟨slot, registers, ht, heq⟩ <;> rw [heq]
  · exact .of_same rfl
  · exact badPointer_imprint hc fault
  · exact imprint_update (isLive_of_target ht) rfl fun record => .loaded rfl ht rfl record

theorem setUpcall_imprint (h : k.setUpcall id va = .ok (k', flow)) :
    Imprint k r ⟨k', .ok flow⟩ e := by
  obtain ⟨slot, upcall, ht, rfl, -⟩ := setUpcall_eq_ok h
  exact imprint_write (isLive_of_target ht) rfl ⟨rfl, rfl, rfl⟩ rfl fun _ => rfl

theorem destroyEnv_imprint (h : k.destroyEnv id = .ok (k', flow)) :
    Imprint k r ⟨k', .ok flow⟩ e := by
  obtain ⟨slot, event, ht, rfl, -⟩ := destroyEnv_eq_ok h
  exact imprint_end (k.note event) (isLive_of_target ht) rfl rfl

theorem execCommit_imprint (h : k.execCommit id = .ok (k', flow)) :
    Imprint k (.execCommit id) ⟨k', .ok flow⟩ e := by
  obtain ⟨cur, slot, event, hc, ht, hne, rfl, rfl⟩ := execCommit_eq_ok h
  have hls := isLive_of_target ht
  obtain ⟨hcur, hslot, hothers⟩ := env_swapped hne (caller_eq_ok.1 hc).2 hls event
  have hlive : ((k.swapped cur slot event).env slot).isLive = true := by
    rw [hslot]
    exact hls
  have hend := env_destroy hlive e
  by_cases hes : e = slot
  · subst hes
    rw [afterEnd_self] at hend
    exact .ended (by rw [hend]; rfl)
  by_cases hec : e = cur
  · subst hec
    -- the caller may have had a message parked for the child that it becomes
    rw [afterEnd_of_ne hes, hcur] at hend
    refine .adopts rfl hc rfl ?_
    split at hend
    · exact Or.inr (congrArg Env.status hend)
    · exact Or.inl ((congrArg Env.status hend).trans rfl)
  · exact imprint_end (k.swapped cur slot event) hlive rfl (hothers e hec hes)

theorem growHeap_imprint (k : Kernel) (increment : UInt32) (e : Nat) :
    Imprint k r (k.growHeap increment) e := by
  rcases k.growHeap_cases increment with ⟨err, heq⟩ | ⟨cur, hc, hcases⟩
  · rw [heq]
    exact .of_same rfl
  have hl := (caller_eq_ok.1 hc).2
  rcases hcases with ⟨event, heq⟩ |
    ⟨s, n, m, -, -, ⟨after, event, value, heq⟩ | ⟨mapped, event, err, heq⟩⟩ <;> rw [heq]
  · exact imprint_end (k.note event) hl rfl rfl
  · exact @imprint_write k _ _ e cur (fun e => { e with heapBreak := after }) hl rfl
      ⟨rfl, rfl, rfl⟩ rfl fun _ => rfl
  · exact .of_same rfl

theorem send_imprint {value : UInt32} (h : k.send id value va word = .ok (k', flow)) :
    Imprint k r ⟨k', .ok flow⟩ e := by
  obtain ⟨cur, target, page, hc, ht, -, -, hcases⟩ := send_eq_ok h
  rcases hcases with ⟨hwaits, htransfer, -⟩ | ⟨-, ⟨event, rfl⟩, rfl⟩
  · obtain ⟨perm, -, hrecord, hothers⟩ :=
      transfer_spec (EnvTable.resolve_eq_some_iff.1 ht).2.1 htransfer
    by_cases heq : e = target
    · subst heq
      have hblocked : (k.env e).isBlocked = true := by
        rw [Env.isBlocked, hwaits]
        exact Bool.true_or _
      exact .served (Or.inl hblocked) (congrArg Env.status hrecord)
        ((congrArg Env.registers hrecord).trans rfl)
    · exact .of_same (hothers e heq)
  · exact imprint_update (caller_eq_ok.1 hc).2 rfl fun record =>
      .blocks hc rfl ((congrArg Env.registers record).trans rfl)

theorem receive_imprint (h : k.receive va = .ok (k', flow)) : Imprint k r ⟨k', .ok flow⟩ e := by
  obtain ⟨cur, dest, hc, -, hcases⟩ := receive_eq_ok h
  have hl := (caller_eq_ok.1 hc).2
  rcases hcases with ⟨sender, send, k₁, hf, htransfer, rfl, -⟩ | ⟨-, ⟨event, rfl⟩, rfl⟩
  · obtain ⟨hls, hparked, -⟩ := firstParked_eq_some hf
    obtain ⟨perm, -, hrecord, hothers⟩ := transfer_spec hl htransfer
    let change : Env → Env := fun e => { e with mailbox := { e.mailbox with dest } }
    have hl₁ : (k₁.env cur).isLive = true := by
      rw [hrecord]
      rfl
    have hsender : ((k₁.updateEnv cur change).env sender).isLive = true ∧
        ((k₁.updateEnv cur change).env sender).registers = (k.env sender).registers := by
      rw [env_updateEnv_eq change hl₁]
      split
      · rename_i heq
        rw [hrecord, heq]
        exact ⟨rfl, rfl⟩
      · rename_i hne
        rw [hothers sender hne]
        exact ⟨hls, rfl⟩
    have hrec := env_updateEnv_eq (fun e => e.wakeSender 0) hsender.1 e
    split at hrec
    · -- without more about messages, the sender could be the caller itself
      rename_i heq
      subst heq
      have hblocked : (k.env e).isBlocked = true := by
        rw [Env.isBlocked, hparked]
        exact Bool.or_true _
      exact .served (Or.inl hblocked) (congrArg Env.status hrec)
        ((congrArg Env.registers hrec).trans hsender.2)
    · rw [env_updateEnv_eq change hl₁] at hrec
      split at hrec
      · rename_i heq
        subst heq
        rw [hrecord] at hrec
        exact .served (Or.inr hc) (congrArg Env.status hrec)
          ((congrArg Env.registers hrec).trans rfl)
      · rename_i hne
        exact .of_same (hrec.trans (hothers e hne))
  · exact imprint_update hl rfl fun record =>
      .blocks hc rfl ((congrArg Env.registers record).trans rfl)

end Requests

/-- **Every request leaves one of these imprints** on everybody who is live. -/
theorem perform_imprint (hl : (k.env e).isLive = true) (r : Request) :
    Imprint k r (k.perform r) e := by
  cases r with
  | putBytes va len =>
    show Imprint k _ (k.putBytes va len) e
    rcases k.putBytes_cases va len with ⟨err, heq⟩ | ⟨cur, fault, hc, heq⟩ | ⟨console, heq⟩ <;>
      rw [heq]
    · exact .of_same rfl
    · exact badPointer_imprint hc fault
    · exact .of_same rfl
  | getByte =>
    obtain ⟨console, hfst⟩ := k.getByte_fst
    have hsame : k.getByte.1.env e = k.env e := by
      rw [hfst]
      rfl
    exact .of_same hsame
  | ownId =>
    refine imprint_ofCheck fun k' flow hok => .of_same ?_
    rw [ownId_eq_ok hok]
  | destroyEnv id => exact imprint_ofCheck fun _ _ => destroyEnv_imprint
  | mapKernelPage phys va =>
    refine imprint_ofCheck fun k' flow hok => .of_same ?_
    obtain ⟨cur, frame, s, memory, -, -, -, -, -, -, rfl, -⟩ := mapKernelPage_eq_ok hok
    rfl
  | yield => exact imprint_ofCheck fun _ _ => yield_imprint
  | fork => exact imprint_ofCheck fun _ _ => fork_imprint hl
  | setStatus id status => exact imprint_ofCheck fun _ _ => setStatus_imprint
  | setRegisters id va => exact setRegisters_imprint k id va e
  | setUpcall id va => exact imprint_ofCheck fun _ _ => setUpcall_imprint
  | execCommit id => exact imprint_ofCheck fun _ _ => execCommit_imprint
  | pageAlloc id va word =>
    show Imprint k _ (k.pageAlloc id va word) e
    rcases k.pageAlloc_cases id va word with
      ⟨err, heq⟩ | ⟨slot, s, perm, memory, -, ⟨err, -, heq⟩ | ⟨-, event, heq⟩⟩ <;> rw [heq] <;>
        exact .of_same rfl
  | pageMap source sourceVa dest destVa perm =>
    refine imprint_ofCheck fun k' flow hok => .of_same ?_
    obtain ⟨src, dst, asked, srcSpace, dstSpace, frame, sourcePerm, memory, event, -, -, -, -, -,
      -, -, -, -, -, rfl, -⟩ := pageMap_eq_ok hok
    rfl
  | pageUnmap id va =>
    refine imprint_ofCheck fun k' flow hok => .of_same ?_
    obtain ⟨slot, s, -, -, -, rfl, -⟩ := pageUnmap_eq_ok hok
    rfl
  | send id value va word => exact imprint_ofCheck fun _ _ => send_imprint
  | receive va => exact imprint_ofCheck fun _ _ => receive_imprint
  | growHeap increment => exact growHeap_imprint k increment e
  | unknown number => exact .of_same rfl

/-! ## The turn that ends a call -/

variable {next : Option Resumption}

/-- Whoever goes on is named by its id. -/
theorem GoesOn.named {e₀ : Env} {resumption : Resumption} (hk : k'.Indexed)
    (h : GoesOn slot e₀ k' (some resumption))
    (hl : e₀.isLive = true) : k'.envs.resolve resumption.env = some slot := by
  obtain rfl : resumption = ⟨e₀.id, e₀.resumed.registers⟩ := Option.some.inj h.next
  have hlive : (k'.env slot).isLive = true := by
    rw [h.record]
    exact hl
  have hid : (k'.env slot).id = e₀.id := by
    rw [h.record]
    rfl
  exact EnvTable.resolve_eq_some_iff.2 ⟨hid ▸ hk.number slot hlive, hlive, hid⟩

/-- Every call ends with a turn, whatever memory is like. -/
theorem call_turn {number : UInt32} {args : Args} (hk : k.Indexed) (hcur : k.current = some cur)
    (hlc : e = cur → (k.env cur).isLive = true)
    (hl : ((k.perform (.ofWords number args)).kernel.env e).isLive = true) :
    Turn (k.perform (.ofWords number args)) cur e (k.call number args).1
      (k.call number args).2 := by
  have hrec := env_dispatch k number args
  refine turn_of_dispatch hcur (fun slot hslot => ?_) (fun heq => ?_) hl
  · rw [hrec] at hslot ⊢
    exact (hk.perform _).number slot hslot
  · -- the caller is still the one that made the call
    subst heq
    refine EnvTable.resolve_eq_some_iff.2 ⟨hk.number e (hlc rfl), ?_, ?_⟩
    · exact (congrArg Env.isLive (hrec e)).trans hl
    · exact (congrArg Env.id (hrec e)).trans (id_perform (hlc rfl) _)

/-- By a call that is answered its caller goes on, and nobody else does. -/
theorem call_answered {number : UInt32} {args : Args} {value : Int32} (hk : k.Indexed)
    (hc : k.caller = .ok cur)
    (hl : ((k.perform (.ofWords number args)).kernel.env cur).isLive = true)
    (hflow : (k.perform (.ofWords number args)).flow = .answer value) :
    GoesOn cur { (k.perform (.ofWords number args)).kernel.env cur with pending := some value }
        (k.call number args).1 (k.call number args).2 ∧
      ∀ e, e ≠ cur → ((k.perform (.ofWords number args)).kernel.env e).isLive = true →
        Passed e ((k.perform (.ofWords number args)).kernel.env e) (k.call number args).1
          (k.call number args).2 := by
  obtain ⟨hcur, hlc⟩ := caller_eq_ok.1 hc
  have hgoes := (call_turn hk hcur (fun _ => hlc) hl).answers hflow
  refine ⟨hgoes, fun e hne he => ?_⟩
  have hturn := call_turn hk hcur (fun heq => absurd heq hne) he
  rcases hturn.others hne with hpassed | ⟨-, hother⟩
  · exact hpassed
  · exact absurd (Option.some.inj (hother.current.symm.trans hgoes.current)) hne

end Exokernel.Kernel
