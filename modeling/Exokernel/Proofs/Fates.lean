/-
  What a request makes of an environment.

  Of everything that happens to an environment while somebody makes a call, few things matter to
  the exchange of messages.  `Fate` lists them, each with the request that does it and with what
  is known of the state before.  Everything else leaves a record `Steady`: the same environment
  with the same mailbox, as able to run as it was.

  The list is complete for the caller as for everybody else, and for empty slots.  It is the
  only place where the calls are gone through one by one for the sake of messages.
-/
import Exokernel.Proofs.Turns

namespace Exokernel

/-- From `e` to `e'`, an environment keeps its place in the exchange of messages. -/
structure Env.Steady (e e' : Env) : Prop where
  id : e'.id = e.id
  status : e'.status = e.status
  mailbox : e'.mailbox = e.mailbox

theorem Env.Steady.refl (e : Env) : e.Steady e := ⟨rfl, rfl, rfl⟩

theorem Env.Steady.isLive {e e' : Env} (h : e.Steady e') : e'.isLive = e.isLive := by
  unfold Env.isLive
  rw [h.status]

/-- From `e` to `e'`, an environment is woken from its parked send, which has the given result. -/
structure Env.Woken (e e' : Env) (result : Int32) : Prop where
  id : e'.id = e.id
  status : e'.status = .runnable
  pending : e'.pending = some result
  mailbox : e'.mailbox = { e.mailbox with parked := none }

theorem Env.woken_wakeSender (e : Env) (result : Int32) : e.Woken (e.wakeSender result) result :=
  ⟨rfl, rfl, rfl, rfl⟩

namespace Kernel

variable {pins : List Frame} {k k' : Kernel} {r : Request} {reply : Reply} {cur e slot : Nat}

/-- How a caller can lose the target of its own parked message: it ends the target, or it becomes
  the target. -/
inductive GivesUp (r : Request) (result : Check Flow) : Prop where
  | destroys {id : EnvId} (request : r = .destroyEnv id) (answer : result = .ok (.answer 0))
  | becomes {id : EnvId} (request : r = .execCommit id) (resume : result = .ok .resume)

/-- The record of a receiver that took a parked message and wanted its page at `dest`. -/
def took (e : Env) (origin : EnvId) (value : UInt32) (perm : Perm) (dest : Option VirtAddr) : Env :=
  { received e origin value perm with
    mailbox := { e.mailbox.deliver origin value perm with dest } }

/-- What the request `r`, answered by `reply`, makes of the environment in `e`. -/
inductive Fate (k : Kernel) (r : Request) (reply : Reply) (e : Nat) : Prop where
  | kept (steady : (k.env e).Steady (reply.kernel.env e))
      (pending : k.caller ≠ .ok e → (reply.kernel.env e).pending = (k.env e).pending)
  /-- It is started or stopped. -/
  | setStatus {id : EnvId} {word : UInt32} {status : Status} (request : r = .setStatus id word)
      (target : k.target id .owned = .ok e) (named : Status.ofWord? word = some status)
      (lives : status = .runnable ∨ status = .notRunnable)
      (record : reply.kernel.env e = { k.env e with status })
  /-- The caller sends to it while it waits. -/
  | delivered {cur : Nat} {id : EnvId} {value : UInt32} {va : VirtAddr} {word : UInt32}
      {perm : Perm} (request : r = .send id value va word) (caller : k.caller = .ok cur)
      (target : k.envs.resolve id = some e) (waits : (k.env e).mailbox.receiving = true)
      (answer : reply.result = .ok (.answer 0))
      (record : reply.kernel.env e = received (k.env e) (k.env cur).id value perm)
  /-- It parks a message. -/
  | parks {id : EnvId} {value : UInt32} {va : VirtAddr} {word : UInt32} {send : ParkedSend}
      (request : r = .send id value va word) (caller : k.caller = .ok e)
      (blocks : reply.result = .ok .reschedule)
      (record : reply.kernel.env e = parking (k.env e) send)
  /-- It begins to wait for a message. -/
  | waits {va : VirtAddr} {dest : Option VirtAddr} (request : r = .receive va)
      (caller : k.caller = .ok e) (blocks : reply.result = .ok .reschedule)
      (record : reply.kernel.env e = waiting (k.env e) dest)
  /-- It receives a parked message. -/
  | takes {va : VirtAddr} {dest : Option VirtAddr} {sender : Nat} {send : ParkedSend} {perm : Perm}
      (request : r = .receive va) (caller : k.caller = .ok e)
      (first : k.firstParked (k.env e).id = some (sender, send))
      (answer : reply.result = .ok (.answer 0))
      (record : reply.kernel.env e = took (k.env e) (k.env sender).id send.value perm dest)
  /-- The caller receives the message that it had parked. -/
  | taken {cur : Nat} {va : VirtAddr} {send : ParkedSend} (request : r = .receive va)
      (caller : k.caller = .ok cur) (first : k.firstParked (k.env cur).id = some (e, send))
      (answer : reply.result = .ok (.answer 0))
      (woken : (k.env e).Woken (reply.kernel.env e) 0)
  /-- The target of its message ends. -/
  | orphaned (lives : (k.env e).isLive = true) (gone : Orphaned k reply.kernel e)
      (givesUp : k.caller = .ok e → GivesUp r reply.result)
      (woken : (k.env e).Woken (reply.kernel.env e) CallError.badEnv.code)
  | ended (dead : (reply.kernel.env e).isLive = false)
  /-- It gets the slot, which nobody had. -/
  | joins (unused : (k.env e).isLive = false) (mailbox : (reply.kernel.env e).mailbox = {})

/-! ## Fates that requests share -/

theorem Fate.of_same (h : reply.kernel.env e = k.env e) : Fate k r reply e := by
  refine .kept ?_ fun _ => ?_ <;> rw [h]
  exact .refl _

theorem fate_ofCheck {c : Check (Kernel × Flow)}
    (h : ∀ k' flow, c = .ok (k', flow) → Fate k r ⟨k', .ok flow⟩ e) :
    Fate k r (Reply.ofCheck k c) e := by
  cases c with
  | ok out => exact h out.1 out.2 rfl
  | error _ => exact .of_same rfl

/-- A record is written and keeps its place. -/
theorem fate_write {change : Env → Env} (hl : (k.env slot).isLive = true)
    (hrec : reply.kernel.env e = (k.updateEnv slot change).env e)
    (steady : (k.env slot).Steady (change (k.env slot)))
    (pending : k.caller ≠ .ok slot → (change (k.env slot)).pending = (k.env slot).pending) :
    Fate k r reply e := by
  rw [env_updateEnv_eq change hl] at hrec
  split at hrec
  · rename_i heq
    subst heq
    refine .kept ?_ fun hne => ?_ <;> rw [hrec]
    · exact steady
    · exact pending hne
  · exact .of_same hrec

/-- An environment ends, perhaps after records were written that keep their place. -/
theorem fate_end (k₁ : Kernel) (hmet : k.Met)
    (hl : (k₁.env slot).isLive = true) (hnumber : (k₁.env slot).id.slot = slot)
    (hkernel : reply.kernel = k₁.destroy slot) (steady : (k.env e).Steady (k₁.env e))
    (pending : k.caller ≠ .ok e → (k₁.env e).pending = (k.env e).pending)
    (givesUp : e ≠ slot → k.caller = .ok e → GivesUp r reply.result) : Fate k r reply e := by
  have hend := env_destroy hl e
  rw [← hkernel] at hend
  by_cases heq : e = slot
  · subst heq
    rw [afterEnd_self] at hend
    exact .ended (by rw [hend]; rfl)
  rw [afterEnd_of_ne heq] at hend
  split at hend
  · rename_i hsends
    obtain ⟨hlive, hsends⟩ := Bool.and_eq_true_iff.1 hsends
    obtain ⟨send, hp, ht⟩ := Env.sendsTo_iff.1 hsends
    rw [steady.mailbox] at hp
    rw [steady.isLive] at hlive
    obtain ⟨-, b, hb, -⟩ := hmet e hlive send hp
    refine .orphaned hlive ⟨send, b, hp, hb, ?_⟩ (givesUp heq) ?_
    · rw [hkernel, ht]
      exact resolve_destroy hl hnumber
    · rw [hend]
      exact ⟨steady.id, rfl, rfl, congrArg (fun m : Mailbox => { m with parked := none })
        steady.mailbox⟩
  · refine .kept ?_ fun hne => ?_ <;> rw [hend]
    · exact steady
    · exact pending hne

/-- The same when nothing was written before. -/
theorem fate_end_now (hk : k.Sound pins) (hmet : k.Met)
    (hl : (k.env slot).isLive = true) {event : Event}
    (hkernel : reply.kernel = (k.note event).destroy slot)
    (givesUp : e ≠ slot → k.caller = .ok e → GivesUp r reply.result) : Fate k r reply e :=
  fate_end (k.note event) hmet hl (hk.number slot hl) hkernel (.refl _) (fun _ => rfl)
    givesUp

/-- A bad pointer ends nobody but the caller. -/
theorem badPointer_fate (hk : k.Sound pins) (hmet : k.Met)
    (hc : k.caller = .ok cur) (fault : VirtAddr) : Fate k r (k.badPointer cur fault) e := by
  refine fate_end_now hk hmet (caller_eq_ok.1 hc).2 rfl fun hne hce => ?_
  exact absurd (Except.ok.inj (hce.symm.trans hc)) hne

/-! ## Request by request -/

section Requests

variable {flow : Flow} {id : EnvId} {va : VirtAddr} {word : UInt32}

theorem yield_fate (h : k.yield = .ok (k', flow)) : Fate k r ⟨k', .ok flow⟩ e := by
  obtain ⟨cur, hc, rfl, -⟩ := yield_eq_ok h
  exact fate_write (caller_eq_ok.1 hc).2 rfl ⟨rfl, rfl, rfl⟩ fun hne => absurd hc hne

theorem fork_fate (h : k.fork = .ok (k', flow)) : Fate k r ⟨k', .ok flow⟩ e := by
  obtain ⟨cur, k₁, slot, event, -, ha, rfl, -⟩ := fork_eq_ok h
  obtain ⟨s, -, -, hdead, hnew, hothers, -⟩ := allocEnv_spec ha
  have hl := isLive_of_allocEnv ha
  by_cases heq : e = slot
  · subst heq
    refine .joins hdead ?_
    rw [env_note, env_updateEnv_self _ hl, hnew]
    rfl
  · exact .of_same ((env_updateEnv_of_ne _ heq).trans (hothers e heq))

theorem setStatus_fate (h : k.setStatus id word = .ok (k', flow)) :
    Fate k (.setStatus id word) ⟨k', .ok flow⟩ e := by
  obtain ⟨slot, status, ht, hnamed, hlives, rfl, -⟩ := setStatus_eq_ok h
  have hrec := env_updateEnv_eq (fun e => { e with status }) (isLive_of_target ht) e
  split at hrec
  · rename_i heq
    subst heq
    exact .setStatus rfl ht hnamed hlives hrec
  · exact .of_same hrec

theorem setRegisters_fate (hk : k.Sound pins) (hmet : k.Met) :
    Fate k r (k.setRegisters id va) e := by
  rcases k.setRegisters_cases id va with
    ⟨err, heq⟩ | ⟨cur, fault, hc, heq⟩ | ⟨slot, registers, ht, heq⟩ <;> rw [heq]
  · exact .of_same rfl
  · exact badPointer_fate hk hmet hc fault
  · exact fate_write (isLive_of_target ht) rfl ⟨rfl, rfl, rfl⟩ fun _ => rfl

theorem setUpcall_fate (h : k.setUpcall id va = .ok (k', flow)) :
    Fate k r ⟨k', .ok flow⟩ e := by
  obtain ⟨slot, upcall, ht, rfl, -⟩ := setUpcall_eq_ok h
  exact fate_write (isLive_of_target ht) rfl ⟨rfl, rfl, rfl⟩ fun _ => rfl

theorem destroyEnv_fate (hk : k.Sound pins) (hmet : k.Met)
    (h : k.destroyEnv id = .ok (k', flow)) : Fate k (.destroyEnv id) ⟨k', .ok flow⟩ e := by
  obtain ⟨slot, event, ht, rfl, rfl⟩ := destroyEnv_eq_ok h
  exact fate_end_now hk hmet (isLive_of_target ht) rfl fun _ _ => .destroys rfl rfl

theorem execCommit_fate (hk : k.Sound pins) (hmet : k.Met)
    (h : k.execCommit id = .ok (k', flow)) : Fate k (.execCommit id) ⟨k', .ok flow⟩ e := by
  obtain ⟨cur, slot, event, hc, ht, hne, rfl, rfl⟩ := execCommit_eq_ok h
  have hls := isLive_of_target ht
  obtain ⟨hcur, hslot, hothers⟩ := env_swapped hne (caller_eq_ok.1 hc).2 hls event
  refine fate_end (k.swapped cur slot event) hmet (by rw [hslot]; exact hls)
    (by rw [hslot]; exact hk.number slot hls) rfl ?_ (fun hnot => ?_) fun _ _ => .becomes rfl rfl
  · by_cases hec : e = cur
    · subst hec
      rw [hcur]
      exact ⟨rfl, rfl, rfl⟩
    by_cases hes : e = slot
    · subst hes
      rw [hslot]
      exact ⟨rfl, rfl, rfl⟩
    · rw [hothers e hec hes]
      exact .refl _
  · have hec : e ≠ cur := by
      rintro rfl
      exact hnot hc
    by_cases hes : e = slot
    · subst hes
      rw [hslot]
    · rw [hothers e hec hes]

theorem growHeap_fate (hk : k.Sound pins) (hmet : k.Met)
    (increment : UInt32) : Fate k r (k.growHeap increment) e := by
  rcases k.growHeap_cases increment with ⟨err, heq⟩ | ⟨cur, hc, hcases⟩
  · rw [heq]
    exact .of_same rfl
  have hl := (caller_eq_ok.1 hc).2
  rcases hcases with ⟨event, heq⟩ |
    ⟨s, n, m, -, -, ⟨after, event, value, heq⟩ | ⟨mapped, event, err, heq⟩⟩ <;> rw [heq]
  · refine fate_end_now hk hmet hl rfl fun hne hce => ?_
    exact absurd (Except.ok.inj (hce.symm.trans hc)) hne
  · exact @fate_write _ _ _ _ cur (fun e => { e with heapBreak := after }) hl rfl ⟨rfl, rfl, rfl⟩
      fun _ => rfl
  · exact .of_same rfl

theorem send_fate {value : UInt32} (h : k.send id value va word = .ok (k', flow)) :
    Fate k (.send id value va word) ⟨k', .ok flow⟩ e := by
  obtain ⟨cur, target, page, hc, ht, -, -, hcases⟩ := send_eq_ok h
  rcases hcases with ⟨hwaits, htransfer, rfl⟩ | ⟨-, ⟨event, rfl⟩, rfl⟩
  · obtain ⟨perm, -, hrecord, hothers⟩ :=
      transfer_spec (EnvTable.resolve_eq_some_iff.1 ht).2.1 htransfer
    by_cases heq : e = target
    · subst heq
      exact .delivered rfl hc ht hwaits rfl hrecord
    · exact .of_same (hothers e heq)
  · have hrec := env_updateEnv_eq (fun e =>
      parking e { target := (k.env target).id, value, page }) (caller_eq_ok.1 hc).2 e
    split at hrec
    · rename_i heq
      subst heq
      exact .parks rfl hc rfl hrec
    · exact .of_same hrec

/-- A receive that finds a parked message places its page, and writes the records of receiver and
  sender. -/
theorem receive_records {sender : Nat} {send : ParkedSend} (hmet : k.Met)
    (h : k.receive va = .ok (k', flow)) (hc : k.caller = .ok cur)
    (hf : k.firstParked (k.env cur).id = some (sender, send)) :
    flow = .answer 0 ∧ sender ≠ cur ∧ ∃ perm dest, destination va = .ok dest ∧
      k.placePage cur (send.page.filter fun page => k.stillMaps sender page) dest =
        .ok (k'.memory, perm) ∧
      k'.env cur = took (k.env cur) (k.env sender).id send.value perm dest ∧
      k'.env sender = (k.env sender).wakeSender 0 ∧
      ∀ x, x ≠ cur → x ≠ sender → k'.env x = k.env x := by
  obtain ⟨cur', dest, hc', hd, hcases⟩ := receive_eq_ok h
  obtain rfl : cur = cur' := by simpa [hc] using hc'
  rcases hcases with ⟨sender', send', k₁, hf', htransfer, rfl, hflow⟩ | ⟨hnone, -⟩
  swap
  · rw [hf] at hnone
    cases hnone
  obtain ⟨rfl, rfl⟩ := Prod.mk.inj (Option.some.inj (hf.symm.trans hf'))
  obtain ⟨perm, hplace, hrecord, hothers⟩ := transfer_spec (caller_eq_ok.1 hc).2 htransfer
  obtain ⟨hls, hparked, htarget⟩ := firstParked_eq_some hf
  -- nobody has a message parked for itself
  have hne : cur ≠ sender := by
    rintro rfl
    exact (hmet cur hls send hparked).1 htarget
  have hsender : k₁.env sender = k.env sender := hothers sender hne.symm
  obtain ⟨hcur, hsend, hrest⟩ := env_updateEnv_two hne
    (show (k₁.env cur).isLive = true by rw [hrecord]; rfl) (by rw [hsender]; exact hls)
    (f := fun e => { e with mailbox := { e.mailbox with dest } })
    (g := fun e => e.wakeSender 0)
  refine ⟨hflow, hne.symm, perm, dest, hd, hplace, hcur.trans ?_, hsend.trans ?_,
    fun x hxc hxs => (hrest x hxc hxs).trans (hothers x hxc)⟩
  · rw [hrecord]
    rfl
  · rw [hsender]

theorem receive_fate (hmet : k.Met) (h : k.receive va = .ok (k', flow)) :
    Fate k (.receive va) ⟨k', .ok flow⟩ e := by
  obtain ⟨cur, dest, hc, -, hcases⟩ := receive_eq_ok h
  rcases hcases with ⟨sender, send, -, hf, -⟩ | ⟨-, ⟨event, rfl⟩, rfl⟩
  · obtain ⟨rfl, -, perm, dest, -, -, hcur, hsender, hrest⟩ := receive_records hmet h hc hf
    by_cases hec : e = cur
    · subst hec
      exact .takes rfl hc hf rfl hcur
    by_cases hes : e = sender
    · subst hes
      refine .taken rfl hc hf rfl ?_
      rw [hsender]
      exact Env.woken_wakeSender _ _
    · exact .of_same (hrest e hec hes)
  · have hrec := env_updateEnv_eq (fun e => waiting e dest) (caller_eq_ok.1 hc).2 e
    split at hrec
    · rename_i heq
      subst heq
      exact .waits rfl hc rfl hrec
    · exact .of_same hrec

end Requests

/-- **Every request gives every slot one of these fates.** -/
theorem perform_fate (hk : k.Sound pins) (hmet : k.Met) (r : Request) (e : Nat) :
    Fate k r (k.perform r) e := by
  cases r with
  | putBytes va len =>
    show Fate k _ (k.putBytes va len) e
    rcases k.putBytes_cases va len with ⟨err, heq⟩ | ⟨cur, fault, hc, heq⟩ | ⟨console, heq⟩ <;>
      rw [heq]
    · exact .of_same rfl
    · exact badPointer_fate hk hmet hc fault
    · exact .of_same rfl
  | getByte =>
    obtain ⟨console, hfst⟩ := k.getByte_fst
    have hsame : k.getByte.1.env e = k.env e := by
      rw [hfst]
      rfl
    exact .of_same hsame
  | ownId =>
    refine fate_ofCheck fun k' flow hok => .of_same ?_
    rw [ownId_eq_ok hok]
  | destroyEnv id => exact fate_ofCheck fun _ _ => destroyEnv_fate hk hmet
  | mapKernelPage phys va =>
    refine fate_ofCheck fun k' flow hok => .of_same ?_
    obtain ⟨cur, frame, s, memory, -, -, -, -, -, -, rfl, -⟩ := mapKernelPage_eq_ok hok
    rfl
  | yield => exact fate_ofCheck fun _ _ => yield_fate
  | fork => exact fate_ofCheck fun _ _ => fork_fate
  | setStatus id status => exact fate_ofCheck fun _ _ => setStatus_fate
  | setRegisters id va => exact setRegisters_fate hk hmet
  | setUpcall id va => exact fate_ofCheck fun _ _ => setUpcall_fate
  | execCommit id => exact fate_ofCheck fun _ _ => execCommit_fate hk hmet
  | pageAlloc id va word =>
    show Fate k _ (k.pageAlloc id va word) e
    rcases k.pageAlloc_cases id va word with
      ⟨err, heq⟩ | ⟨slot, s, perm, memory, -, ⟨err, -, heq⟩ | ⟨-, event, heq⟩⟩ <;> rw [heq] <;>
        exact .of_same rfl
  | pageMap source sourceVa dest destVa perm =>
    refine fate_ofCheck fun k' flow hok => .of_same ?_
    obtain ⟨src, dst, asked, srcSpace, dstSpace, frame, sourcePerm, memory, event, -, -, -, -, -,
      -, -, -, -, -, rfl, -⟩ := pageMap_eq_ok hok
    rfl
  | pageUnmap id va =>
    refine fate_ofCheck fun k' flow hok => .of_same ?_
    obtain ⟨slot, s, -, -, -, rfl, -⟩ := pageUnmap_eq_ok hok
    rfl
  | send id value va word => exact fate_ofCheck fun _ _ => send_fate
  | receive va => exact fate_ofCheck fun _ _ => receive_fate hmet
  | growHeap increment => exact growHeap_fate hk hmet increment
  | unknown number => exact .of_same rfl

end Kernel

end Exokernel
