/-
  What each call did if it did something.

  A call checks first and acts afterwards.  For each call there is one statement here that lists
  what the checks found and what the kernel is afterwards.  All other proofs about calls start
  from these statements and none unfolds a call again.
-/
import Exokernel.Proofs.Slots

namespace Exokernel

/-! ## Checks -/

namespace Check

variable {α β : Type}

@[simp] theorem bind_eq_ok {x : Check α} {f : α → Check β} {b : β} :
    x >>= f = .ok b ↔ ∃ a, x = .ok a ∧ f a = .ok b := by
  cases x <;> simp [bind, Except.bind]

/-- A check that passed leaves the rest of a computation. -/
theorem ok_bind (a : α) (f : α → Check β) : ((.ok a : Check α) >>= f) = f a := rfl

@[simp] theorem pure_eq_ok {a b : α} : (pure a : Check α) = .ok b ↔ a = b := by
  simp [pure, Except.pure]

@[simp] theorem require_eq_ok {c : Bool} {e : CallError} {u : Unit} :
    require c e = .ok u ↔ c = true := by
  cases c <;> simp [require]

@[simp] theorem present_eq_ok {v : Option α} {e : CallError} {a : α} :
    present v e = .ok a ↔ v = some a := by
  cases v <;> simp [present]

@[simp] theorem ofMapping_eq_ok {x : Except MappingError α} {a : α} :
    ofMapping x = .ok a ↔ x = .ok a := by
  cases x <;> simp [ofMapping]

@[simp] theorem ofRights_eq_ok {x : Except Perm.Refusal α} {a : α} :
    ofRights x = .ok a ↔ x = .ok a := by
  cases x <;> simp [ofRights]

end Check

/-- A permission that passes the allow-list. -/
def Perm.Requestable (p : Perm) : Prop := Perm.request p.bits = .ok p

theorem Perm.requestable_of_request {raw : UInt32} {p : Perm} (h : Perm.request raw = .ok p) :
    p.Requestable := by
  have hp : p = ⟨raw⟩ := by
    simp only [Perm.request] at h
    split at h
    · exact (Except.ok.inj h).symm
    · cases h
  subst hp
  exact h

/-- The allow-list has no bit beyond the twelve that an entry has room for. -/
theorem Perm.Requestable.bits_lt {p : Perm} (h : p.Requestable) : p.bits.toNat < 4096 := by
  simp only [Requestable, request] at h
  split at h
  · rename_i hc
    simp only [Bool.and_eq_true, contains, beq_iff_eq] at hc
    have hle : (requestable.bits &&& p.bits).toNat ≤ requestable.bits.toNat := by
      rw [UInt32.toNat_and]
      exact Nat.and_le_left
    rw [hc.2] at hle
    exact Nat.lt_of_le_of_lt hle (by decide)
  · cases h

namespace Kernel

variable {k k' : Kernel} {flow : Flow}

theorem caller_eq_ok {slot : Nat} :
    k.caller = .ok slot ↔ k.current = some slot ∧ (k.env slot).isLive = true := by
  unfold caller
  cases k.current with
  | none => simp
  | some s =>
    by_cases hl : (k.env s).isLive = true
    · simp only [if_pos hl, Except.ok.injEq, Option.some.injEq]
      exact ⟨fun h => ⟨h, h ▸ hl⟩, fun h => h.1⟩
    · simp only [if_neg hl, Option.some.injEq]
      exact ⟨fun h => (by cases h), fun h => absurd (h.1 ▸ h.2) hl⟩

/-- The environment in `cur` may act on the one in `slot`: it is itself or its child. -/
def Controls (k : Kernel) (cur slot : Nat) : Prop :=
  slot = cur ∨ (k.env slot).parent = (k.env cur).id

theorem target_eq_ok {id : EnvId} {reach : Reach} {slot : Nat} :
    k.target id reach = .ok slot ↔ ∃ cur, k.caller = .ok cur ∧
      (id.isNone = true ∧ slot = cur ∨ id.isNone = false ∧ k.envs.resolve id = some slot ∧
        (reach = .any ∨ k.Controls cur slot)) := by
  unfold target Controls
  simp only [Check.bind_eq_ok]
  refine exists_congr fun cur => and_congr_right fun _ => ?_
  by_cases hn : id.isNone = true
  · simp only [hn, if_true, Check.pure_eq_ok, true_and, Bool.true_eq_false, false_and, or_false]
    exact eq_comm
  · simp only [hn, Bool.false_eq_true, if_false, Check.bind_eq_ok, Check.present_eq_ok,
      Check.require_eq_ok, Check.pure_eq_ok, false_and, false_or, Bool.or_eq_true,
      decide_eq_true_eq, exists_const, or_assoc]
    constructor
    · rintro ⟨s, hs, hr, rfl⟩
      exact ⟨trivial, hs, hr⟩
    · rintro ⟨-, hs, hr⟩
      exact ⟨slot, hs, hr, rfl⟩

/-- Whom a call names is live. -/
theorem isLive_of_target {id : EnvId} {reach : Reach} {slot : Nat}
    (h : k.target id reach = .ok slot) : (k.env slot).isLive = true := by
  obtain ⟨cur, hc, ⟨-, rfl⟩ | ⟨-, hr, -⟩⟩ := target_eq_ok.1 h
  · exact (caller_eq_ok.1 hc).2
  · exact (EnvTable.resolve_eq_some_iff.1 hr).2.1

theorem controls_of_target {id : EnvId} {cur slot : Nat} (hc : k.caller = .ok cur)
    (h : k.target id .owned = .ok slot) : k.Controls cur slot := by
  obtain ⟨cur', hc', ⟨-, rfl⟩ | ⟨-, -, hr⟩⟩ := target_eq_ok.1 h
  · obtain rfl : cur = slot := by simpa [hc] using hc'
    exact Or.inl rfl
  · obtain rfl : cur = cur' := by simpa [hc] using hc'
    rcases hr with hr | hr
    · cases hr
    · exact hr

/-- A target of a call was found by a caller. -/
theorem caller_of_target {id : EnvId} {reach : Reach} {slot : Nat}
    (h : k.target id reach = .ok slot) : ∃ cur, k.caller = .ok cur :=
  let ⟨cur, hc, _⟩ := target_eq_ok.1 h
  ⟨cur, hc⟩

/-! ## New environments -/

theorem allocEnv_eq_ok {parent : EnvId} {slot : Nat} (h : k.allocEnv parent = .ok (k', slot)) :
    ∃ memory space, k.envs.findFree = some slot ∧ k.memory.createSpace = .ok (memory, space) ∧
      k' = { k with
        memory
        envs := (k.envs.occupy slot parent space).update slot fun e =>
          { e with heapBreak := k.config.heapBase } } := by
  simp only [allocEnv, Check.bind_eq_ok, Check.present_eq_ok, Check.ofMapping_eq_ok,
    Check.pure_eq_ok, Prod.mk.injEq] at h
  obtain ⟨s, hs, ⟨memory, space⟩, hm, rfl, rfl⟩ := h
  exact ⟨memory, space, hs, hm, rfl⟩

theorem createEnv_eq_ok {parent id : EnvId} {entry stack : UInt32}
    (h : k.createEnv parent entry stack = .ok (k', id)) :
    ∃ k₁ slot event, k.allocEnv parent = .ok (k₁, slot) ∧
      k' = (k₁.updateEnv slot fun e =>
        { e with registers := .newUser entry stack, status := .runnable }).note event := by
  simp only [createEnv, Check.bind_eq_ok, Check.pure_eq_ok, Prod.mk.injEq] at h
  obtain ⟨⟨k₁, slot⟩, ha, rfl, -⟩ := h
  exact ⟨k₁, slot, _, ha, rfl⟩

theorem run_eq_ok {id : EnvId} {resumption : Resumption} (h : k.run id = .ok (k', resumption)) :
    ∃ slot, k.envs.resolve id = some slot ∧ k.resume slot = (k', resumption) := by
  simp only [run, Check.bind_eq_ok, Check.present_eq_ok, Check.pure_eq_ok] at h
  exact h

theorem ownId_eq_ok (h : k.ownId = .ok (k', flow)) : k' = k := by
  simp only [ownId, Check.bind_eq_ok, Check.pure_eq_ok, Prod.mk.injEq] at h
  obtain ⟨_, -, rfl, -⟩ := h
  rfl

theorem fork_eq_ok (h : k.fork = .ok (k', flow)) :
    ∃ cur k₁ slot event, k.caller = .ok cur ∧
      k.allocEnv (k.env cur).id = .ok (k₁, slot) ∧
      k' = (k₁.updateEnv slot fun child =>
        { child with
          registers := (k.env cur).registers
          heapBreak := (k.env cur).heapBreak
          pending := some 0 }).note event ∧
      flow = .answer (k'.env slot).id.toResult := by
  simp only [fork, Check.bind_eq_ok, Check.pure_eq_ok, Prod.mk.injEq] at h
  obtain ⟨cur, hc, ⟨k₁, slot⟩, ha, rfl, rfl⟩ := h
  exact ⟨cur, k₁, slot, _, hc, ha, rfl, rfl⟩

/-! ## Calls on records -/

theorem yield_eq_ok (h : k.yield = .ok (k', flow)) :
    ∃ cur, k.caller = .ok cur ∧ k' = k.updateEnv cur (fun e => { e with pending := some 0 }) ∧
      flow = .reschedule := by
  simp only [yield, Check.bind_eq_ok, Check.pure_eq_ok, Prod.mk.injEq] at h
  obtain ⟨cur, hc, rfl, rfl⟩ := h
  exact ⟨cur, hc, rfl, rfl⟩

theorem destroyEnv_eq_ok {id : EnvId} (h : k.destroyEnv id = .ok (k', flow)) :
    ∃ slot event, k.target id .owned = .ok slot ∧ k' = (k.note event).destroy slot ∧
      flow = .answer 0 := by
  simp only [destroyEnv, Check.bind_eq_ok, Check.pure_eq_ok, Prod.mk.injEq] at h
  obtain ⟨slot, ht, cur, -, rfl, rfl⟩ := h
  exact ⟨slot, _, ht, rfl, rfl⟩

theorem setStatus_eq_ok {id : EnvId} {word : UInt32} (h : k.setStatus id word = .ok (k', flow)) :
    ∃ slot status, k.target id .owned = .ok slot ∧ Status.ofWord? word = some status ∧
      (status = .runnable ∨ status = .notRunnable) ∧
      k' = k.updateEnv slot (fun e => { e with status }) ∧ flow = .answer 0 := by
  simp only [setStatus, Check.bind_eq_ok, Check.present_eq_ok, Check.pure_eq_ok, Prod.mk.injEq,
    Option.filter_eq_some_iff, Bool.or_eq_true, decide_eq_true_eq] at h
  obtain ⟨slot, ht, status, ⟨hw, hs⟩, rfl, rfl⟩ := h
  exact ⟨slot, status, ht, hw, hs, rfl, rfl⟩

theorem setUpcall_eq_ok {id : EnvId} {va : VirtAddr} (h : k.setUpcall id va = .ok (k', flow)) :
    ∃ slot upcall, k.target id .owned = .ok slot ∧
      k' = k.updateEnv slot (fun e => { e with upcall }) ∧ flow = .answer 0 := by
  simp only [setUpcall, Check.bind_eq_ok, Check.pure_eq_ok, Prod.mk.injEq] at h
  obtain ⟨slot, ht, rfl, rfl⟩ := h
  exact ⟨slot, _, ht, rfl, rfl⟩

/-- Setting registers refuses and changes nothing, or destroys the caller for its pointer, or stores
  sanitized registers. -/
theorem setRegisters_cases (k : Kernel) (id : EnvId) (va : VirtAddr) :
    (∃ e, k.setRegisters id va = .refuse k e) ∨
    (∃ cur fault, k.caller = .ok cur ∧ k.setRegisters id va = k.badPointer cur fault) ∨
    ∃ (slot : Nat) (registers : Registers), k.target id .owned = .ok slot ∧ k.setRegisters id va =
      ⟨k.updateEnv slot fun e => { e with registers := registers.sanitize }, .ok (.answer 0)⟩ := by
  unfold setRegisters
  split
  · rename_i e _
    exact Or.inl ⟨e, rfl⟩
  rename_i cur hc
  split
  · rename_i fault _
    exact Or.inr (Or.inl ⟨cur, fault, hc, rfl⟩)
  · unfold Reply.ofCheck
    split
    · rename_i k' flow hok
      simp only [Check.bind_eq_ok, Check.present_eq_ok, Check.pure_eq_ok, Prod.mk.injEq] at hok
      obtain ⟨slot, ht, bytes, -, registers, -, rfl, rfl⟩ := hok
      exact Or.inr (Or.inr ⟨slot, registers, ht, rfl⟩)
    · rename_i e _
      exact Or.inl ⟨e, rfl⟩

/-- The record of a caller that takes over an image. -/
def adopted (caller image : Env) : Env :=
  { caller with
    registers := image.registers
    upcall := image.upcall
    heapBreak := image.heapBreak
    space := image.space
    pending := none }

/-- The kernel when the caller in `cur` has taken over the image in `slot`, which is left with the
  space that the caller had and has yet to end. -/
def swapped (k : Kernel) (cur slot : Nat) (event : Event) : Kernel :=
  (((k.updateEnv cur fun e => adopted e (k.env slot)).updateEnv slot fun e =>
    { e with space := (k.env cur).space }).activate (k.env slot).space).note event

theorem execCommit_eq_ok {id : EnvId} (h : k.execCommit id = .ok (k', flow)) :
    ∃ cur slot event, k.caller = .ok cur ∧ k.target id .owned = .ok slot ∧ cur ≠ slot ∧
      k' = (k.swapped cur slot event).destroy slot ∧ flow = .resume := by
  simp only [execCommit, Check.bind_eq_ok, Check.present_eq_ok, Check.pure_eq_ok, Prod.mk.injEq,
    EnvTable.pair?, Option.ite_none_left_eq_some, Option.some.injEq] at h
  obtain ⟨cur, hc, slot, ht, ⟨caller, image⟩, ⟨hne, hpair⟩, rfl, rfl⟩ := h
  obtain ⟨rfl, rfl⟩ := Prod.mk.inj hpair
  exact ⟨cur, slot, _, hc, ht, hne, rfl, rfl⟩

/-! ## Calls on mappings -/

theorem spaceOf_eq_ok {slot : Nat} {s : SpaceId} :
    k.spaceOf slot = .ok s ↔ (k.env slot).space = some s := Check.present_eq_ok

theorem pageTarget_eq_ok {id : EnvId} {va : VirtAddr} {word : UInt32} {slot : Nat} {s : SpaceId}
    {perm : Perm} (h : k.pageTarget id va word = .ok (slot, s, perm)) :
    k.target id .owned = .ok slot ∧ va.isUserPage = true ∧ Perm.request word = .ok perm ∧
      (k.env slot).space = some s := by
  simp only [pageTarget, spaceOf_eq_ok, Check.bind_eq_ok, Check.require_eq_ok,
    Check.ofRights_eq_ok, Check.pure_eq_ok, Prod.mk.injEq, exists_const] at h
  obtain ⟨slot, ht, hva, perm, hp, s, hs, rfl, rfl, rfl⟩ := h
  exact ⟨ht, hva, hp, hs⟩

/-- Allocating a page refuses, or goes to memory, which keeps nothing of a page that it cannot map,
  or maps it. -/
theorem pageAlloc_cases (k : Kernel) (id : EnvId) (va : VirtAddr) (word : UInt32) :
    (∃ e, k.pageAlloc id va word = .refuse k e) ∨
    ∃ slot s perm memory, k.pageTarget id va word = .ok (slot, s, perm) ∧
      ((∃ e, k.memory.mapFresh s va perm = (memory, some e) ∧
          k.pageAlloc id va word = ⟨{ k with memory }, .error e.toCallError⟩) ∨
        k.memory.mapFresh s va perm = (memory, none) ∧ ∃ event,
          k.pageAlloc id va word = ⟨{ k with memory }.note event, .ok (.answer 0)⟩) := by
  unfold pageAlloc
  split
  · rename_i e _
    exact Or.inl ⟨e, rfl⟩
  · rename_i slot s perm ht
    refine Or.inr ⟨slot, s, perm, (k.memory.mapFresh s va perm).1, ht, ?_⟩
    split
    · rename_i memory e heq
      rw [heq]
      exact Or.inl ⟨e, rfl, rfl⟩
    · rename_i memory heq
      rw [heq]
      exact Or.inr ⟨rfl, _, rfl⟩

theorem pageMap_eq_ok {source dest : EnvId} {sourceVa destVa : VirtAddr} {word : UInt32}
    (h : k.pageMap source sourceVa dest destVa word = .ok (k', flow)) :
    ∃ src dst perm srcSpace dstSpace frame sourcePerm memory event,
      k.target source .owned = .ok src ∧ k.target dest .owned = .ok dst ∧
      sourceVa.isUserPage = true ∧ destVa.isUserPage = true ∧
      Perm.request word = .ok perm ∧ (k.env src).space = some srcSpace ∧
      k.memory.lookup srcSpace sourceVa = some (frame, sourcePerm) ∧
      perm.narrow sourcePerm = .ok () ∧ (k.env dst).space = some dstSpace ∧
      k.memory.insert dstSpace frame destVa perm = .ok memory ∧
      k' = { k with memory }.note event ∧ flow = .answer 0 := by
  simp only [pageMap, spaceOf_eq_ok, Check.bind_eq_ok, Check.require_eq_ok, Check.present_eq_ok,
    Check.ofRights_eq_ok, Check.ofMapping_eq_ok, Check.pure_eq_ok, Prod.mk.injEq, exists_const,
    Bool.and_eq_true] at h
  obtain ⟨src, hsrc, dst, hdst, ⟨hsva, hdva⟩, perm, hp, srcSpace, hss, ⟨frame, sourcePerm⟩, hl, _,
    hn, dstSpace, hds, memory, hi, rfl, rfl⟩ := h
  exact ⟨src, dst, perm, srcSpace, dstSpace, frame, sourcePerm, memory, _, hsrc, hdst, hsva, hdva,
    hp, hss, hl, hn, hds, hi, rfl, rfl⟩

theorem pageUnmap_eq_ok {id : EnvId} {va : VirtAddr} (h : k.pageUnmap id va = .ok (k', flow)) :
    ∃ slot s, k.target id .owned = .ok slot ∧ va.isUserPage = true ∧
      (k.env slot).space = some s ∧ k' = { k with memory := k.memory.remove s va } ∧
      flow = .answer 0 := by
  simp only [pageUnmap, spaceOf_eq_ok, Check.bind_eq_ok, Check.require_eq_ok, Check.pure_eq_ok,
    Prod.mk.injEq, exists_const] at h
  obtain ⟨slot, ht, hva, s, hs, rfl, rfl⟩ := h
  exact ⟨slot, s, ht, hva, hs, rfl, rfl⟩

theorem mapKernelPage_eq_ok {phys : PhysAddr} {va : VirtAddr}
    (h : k.mapKernelPage phys va = .ok (k', flow)) :
    ∃ cur frame s memory, k.caller = .ok cur ∧ k.config.kernelPage = some frame ∧
      frame.addr = phys ∧ va.isUserPage = true ∧ (k.env cur).space = some s ∧
      k.memory.insert s frame va .userWrite = .ok memory ∧ k' = { k with memory } ∧
      flow = .answer 0 := by
  simp only [mapKernelPage, spaceOf_eq_ok, Check.bind_eq_ok, Check.require_eq_ok,
    Check.present_eq_ok, Check.ofMapping_eq_ok, Check.pure_eq_ok, Prod.mk.injEq, exists_const,
    Option.filter_eq_some_iff, decide_eq_true_eq] at h
  obtain ⟨cur, hc, frame, ⟨hk, hf⟩, hva, s, hs, memory, hi, rfl, rfl⟩ := h
  exact ⟨cur, frame, s, memory, hc, hk, hf, hva, hs, hi, rfl, rfl⟩

/-- A heap that can be ends where it began or above, and below the ceiling. -/
theorem heapEnd?_eq_some {before after : VirtAddr} {increment : UInt32}
    (h : heapEnd? before increment = some after) :
    before.toNat ≤ after.toNat ∧ after.toNat < userTop := by
  obtain ⟨hsum, huser⟩ := Option.filter_eq_some_iff.1 h
  obtain ⟨n, -, hadd⟩ := Option.bind_eq_some_iff.1 hsum
  obtain ⟨hfits, hsome⟩ := Option.ite_none_right_eq_some.1 hadd
  obtain rfl := Option.some.inj hsome
  refine ⟨?_, of_decide_eq_true huser⟩
  rw [VirtAddr.toNat_ofNat hfits]
  exact Nat.le_add_right _ _

/-- A heap that cannot be is fatal. -/
theorem growHeap_of_none {cur : Nat} {increment : UInt32} (hc : k.caller = .ok cur)
    (h : heapEnd? (k.env cur).heapBreak increment = none) :
    ∃ event, k.growHeap increment = ⟨(k.note event).destroy cur, .ok .reschedule⟩ := by
  unfold growHeap
  simp only [hc, h]
  exact ⟨_, rfl⟩

/-- Without a space there is nothing to map. -/
theorem growHeap_of_spaceless {cur : Nat} {increment : UInt32} {after : VirtAddr}
    (hc : k.caller = .ok cur) (hs : (k.env cur).space = none)
    (h : heapEnd? (k.env cur).heapBreak increment = some after) :
    ∃ e, k.growHeap increment = .refuse k e := by
  have hno : k.spaceOf cur = .error .badEnv := by
    unfold spaceOf
    rw [hs]
    rfl
  unfold growHeap
  simp only [hc, h, hno]
  exact ⟨_, rfl⟩

/-- A heap that can be gets its pages and the break moves, or finds a page that cannot be mapped and
  the pages before it are unmapped. -/
theorem growHeap_of_some {cur : Nat} {s : SpaceId} {increment : UInt32} {after : VirtAddr}
    (hc : k.caller = .ok cur) (hs : (k.env cur).space = some s)
    (h : heapEnd? (k.env cur).heapBreak increment = some after) :
    ∃ n m, n = (after.toNat - (k.env cur).heapBreak.toNat) / pageSize ∧
      ((∃ event,
          Memory.mapPages s .userWrite n (k.env cur).heapBreak k.memory = (m, none) ∧
          k.growHeap increment =
            ⟨({ k with memory := m }.updateEnv cur fun e => { e with heapBreak := after }).note
              event, .ok (.answer (UInt32.ofNat after.toNat).toInt32)⟩) ∨
        ∃ fault e mapped,
          Memory.mapPages s .userWrite n (k.env cur).heapBreak k.memory = (m, some (fault, e)) ∧
          mapped = (fault.toNat - (k.env cur).heapBreak.toNat) / pageSize ∧
          k.growHeap increment =
            ⟨{ k with memory := Memory.removePages s mapped (k.env cur).heapBreak m }.note
              (.heapFailed (k.env cur).id fault e.toCallError), .error e.toCallError⟩) := by
  refine ⟨_, (Memory.mapPages s .userWrite
    ((after.toNat - (k.env cur).heapBreak.toNat) / pageSize) (k.env cur).heapBreak k.memory).1,
    rfl, ?_⟩
  unfold growHeap
  simp only [hc, h, spaceOf_eq_ok.2 hs]
  split
  · rename_i memory heq
    rw [heq]
    exact Or.inl ⟨_, rfl, rfl⟩
  · rename_i memory va e heq
    rw [heq]
    exact Or.inr ⟨va, e, _, rfl, rfl, rfl⟩

/-- Growing the heap of a caller destroys it, or maps pages below the ceiling and moves the break,
  or finds a page that cannot be mapped and unmaps the pages before it. -/
theorem growHeap_of_caller {cur : Nat} {s : SpaceId} (hc : k.caller = .ok cur)
    (hs : (k.env cur).space = some s) (increment : UInt32) :
    (∃ event, k.growHeap increment = ⟨(k.note event).destroy cur, .ok .reschedule⟩) ∨
    ∃ n m, (k.env cur).heapBreak.toNat + n * pageSize ≤ userTop ∧
      ((∃ after event value,
          Memory.mapPages s .userWrite n (k.env cur).heapBreak k.memory = (m, none) ∧
          k.growHeap increment =
            ⟨({ k with memory := m }.updateEnv cur fun e => { e with heapBreak := after }).note
              event, .ok (.answer value)⟩) ∨
        ∃ fault e mapped,
          Memory.mapPages s .userWrite n (k.env cur).heapBreak k.memory = (m, some (fault, e)) ∧
          mapped = (fault.toNat - (k.env cur).heapBreak.toNat) / pageSize ∧
          k.growHeap increment =
            ⟨{ k with memory := Memory.removePages s mapped (k.env cur).heapBreak m }.note
              (.heapFailed (k.env cur).id fault e.toCallError), .error e.toCallError⟩) := by
  cases h : heapEnd? (k.env cur).heapBreak increment with
  | none => exact Or.inl (growHeap_of_none hc h)
  | some after =>
    obtain ⟨hle, hlt⟩ := heapEnd?_eq_some h
    obtain ⟨n, m, rfl, hcases⟩ := growHeap_of_some hc hs h
    refine Or.inr ⟨_, m, ?_, hcases.imp_left fun ⟨event, hm, heq⟩ => ⟨after, event, _, hm, heq⟩⟩
    simp only [pageSize]
    omega

/-- Growing a heap refuses, or destroys the caller, or maps pages and moves the break, or maps
  pages and unmaps them again. -/
theorem growHeap_cases (k : Kernel) (increment : UInt32) :
    (∃ e, k.growHeap increment = .refuse k e) ∨
    ∃ cur, k.caller = .ok cur ∧
      ((∃ event, k.growHeap increment =
          ⟨(k.note event).destroy cur, .ok .reschedule⟩) ∨
        ∃ s n m, (k.env cur).space = some s ∧
          m = (Memory.mapPages s .userWrite n (k.env cur).heapBreak k.memory).1 ∧
          ((∃ after event value, k.growHeap increment =
              ⟨({ k with memory := m }.updateEnv cur fun e => { e with heapBreak := after }).note
                event, .ok (.answer value)⟩) ∨
            ∃ mapped event e, k.growHeap increment =
              ⟨{ k with memory := Memory.removePages s mapped (k.env cur).heapBreak m }.note
                event, .error e⟩)) := by
  cases hc : k.caller with
  | error e => exact Or.inl ⟨e, by simp only [growHeap, hc]⟩
  | ok cur =>
    cases hend : heapEnd? (k.env cur).heapBreak increment with
    | none => exact Or.inr ⟨cur, rfl, Or.inl (growHeap_of_none hc hend)⟩
    | some after =>
      cases hs : (k.env cur).space with
      | none => exact Or.inl (growHeap_of_spaceless hc hs hend)
      | some s =>
        obtain ⟨n, m, -, hcases⟩ := growHeap_of_some hc hs hend
        refine Or.inr ⟨cur, rfl, Or.inr ⟨s, n, m, hs, ?_, ?_⟩⟩
        · rcases hcases with ⟨event, hm, -⟩ | ⟨fault, e, mapped, hm, -⟩ <;> rw [hm]
        · rcases hcases with ⟨event, -, heq⟩ | ⟨fault, e, mapped, -, -, heq⟩
          · exact Or.inl ⟨after, event, _, heq⟩
          · exact Or.inr ⟨mapped, _, _, heq⟩

/-! ## The exchange of messages -/

theorem offer_eq_ok {slot : Nat} {va : VirtAddr} {word : UInt32} {page : Option OfferedPage}
    (h : k.offer slot va word = .ok page) :
    va.isUser = false ∧ page = none ∨
      ∃ perm s frame sourcePerm, va.isUserPage = true ∧ Perm.request word = .ok perm ∧
        (k.env slot).space = some s ∧ k.memory.lookup s va = some (frame, sourcePerm) ∧
        perm.narrow sourcePerm = .ok () ∧ page = some { va, frame, perm } := by
  unfold offer at h
  split at h
  · rename_i huser
    simp only [spaceOf_eq_ok, Check.bind_eq_ok, Check.require_eq_ok, Check.present_eq_ok,
      Check.ofRights_eq_ok, Check.pure_eq_ok, exists_const] at h
    obtain ⟨halign, perm, hp, s, hs, ⟨frame, sourcePerm⟩, hl, _, hn, rfl⟩ := h
    have hva : va.isUserPage = true := by rw [VirtAddr.isUserPage, huser, halign, Bool.and_self]
    exact Or.inr ⟨perm, s, frame, sourcePerm, hva, hp, hs, hl, hn, rfl⟩
  · rename_i hbeyond
    exact Or.inl ⟨Bool.eq_false_iff.2 hbeyond, (Check.pure_eq_ok.1 h).symm⟩

/-- A page is placed when there is one and a place for it. -/
theorem placePage_eq_ok {receiver : Nat} {page : Option OfferedPage} {dest : Option VirtAddr}
    {memory : Memory} {perm : Perm} (h : k.placePage receiver page dest = .ok (memory, perm)) :
    ((page = none ∨ dest = none) ∧ memory = k.memory ∧ perm = .empty) ∨
    ∃ offered va s, page = some offered ∧ dest = some va ∧ (k.env receiver).space = some s ∧
      k.memory.insert s offered.frame va offered.perm = .ok memory ∧ perm = offered.perm := by
  unfold placePage at h
  split at h
  · rename_i offered va
    simp only [spaceOf_eq_ok, Check.bind_eq_ok, Check.ofMapping_eq_ok, Check.pure_eq_ok,
      Prod.mk.injEq] at h
    obtain ⟨s, hs, m, hi, rfl, rfl⟩ := h
    exact Or.inr ⟨offered, va, s, rfl, rfl, hs, hi, rfl⟩
  · rename_i hno
    obtain ⟨rfl, rfl⟩ := Prod.mk.inj (Check.pure_eq_ok.1 h)
    refine Or.inl ⟨?_, rfl, rfl⟩
    cases page with
    | none => exact Or.inl rfl
    | some p =>
      cases dest with
      | none => exact Or.inr rfl
      | some d => exact absurd rfl (hno p d rfl)

/-- The record of a receiver that got a message. -/
def received (e : Env) (origin : EnvId) (value : UInt32) (perm : Perm) : Env :=
  { e with mailbox := e.mailbox.deliver origin value perm, status := .runnable, pending := some 0 }

theorem transfer_eq_ok {sender receiver : Nat} {value : UInt32} {page : Option OfferedPage}
    {dest : Option VirtAddr} (h : k.transfer sender receiver value page dest = .ok k') :
    ∃ memory perm event, k.placePage receiver page dest = .ok (memory, perm) ∧
      k' = ({ k with memory }.updateEnv receiver fun e =>
        received e (k.env sender).id value perm).note event := by
  simp only [transfer, Check.bind_eq_ok, Check.pure_eq_ok] at h
  obtain ⟨⟨memory, perm⟩, hp, rfl⟩ := h
  exact ⟨memory, perm, _, hp, rfl⟩

/-- A transfer writes the record of the receiver and may map a page there. -/
theorem transfer_spec {sender receiver : Nat} {value : UInt32} {page : Option OfferedPage}
    {dest : Option VirtAddr} (hl : (k.env receiver).isLive = true)
    (h : k.transfer sender receiver value page dest = .ok k') :
    ∃ perm, k.placePage receiver page dest = .ok (k'.memory, perm) ∧
      k'.env receiver = received (k.env receiver) (k.env sender).id value perm ∧
      ∀ e, e ≠ receiver → k'.env e = k.env e := by
  obtain ⟨memory, perm, event, hplace, rfl⟩ := transfer_eq_ok h
  exact ⟨perm, hplace, k.envs.get_update_self _ (lt_capacity_of_isLive hl),
    fun e he => k.envs.get_update_of_ne _ he⟩

/-- The record of a sender that waits for its target. -/
def parking (e : Env) (send : ParkedSend) : Env :=
  { e with mailbox := { e.mailbox with parked := some send }, status := .notRunnable }

/-- A send is handed over to a target that waits, and parked for any other. -/
theorem send_eq_ok {id : EnvId} {value : UInt32} {va : VirtAddr} {word : UInt32}
    (h : k.send id value va word = .ok (k', flow)) :
    ∃ cur target page, k.caller = .ok cur ∧ k.envs.resolve id = some target ∧ target ≠ cur ∧
      k.offer cur va word = .ok page ∧
      ((k.env target).mailbox.receiving = true ∧
          k.transfer cur target value page (k.env target).mailbox.dest = .ok k' ∧
          flow = .answer 0 ∨
        (k.env target).mailbox.receiving = false ∧ (∃ event,
          k' = (k.updateEnv cur fun e =>
            parking e { target := (k.env target).id, value, page }).note event) ∧
          flow = .reschedule) := by
  simp only [send, Check.bind_eq_ok, Check.require_eq_ok, decide_eq_true_eq, exists_const] at h
  obtain ⟨cur, hc, target, ht, hne, page, hp, hrest⟩ := h
  have hresolve : k.envs.resolve id = some target := by
    obtain ⟨cur', hc', ⟨-, rfl⟩ | ⟨-, hr, -⟩⟩ := target_eq_ok.1 ht
    · obtain rfl : cur = target := by simpa [hc] using hc'
      exact absurd rfl hne
    · exact hr
  refine ⟨cur, target, page, hc, hresolve, hne, hp, ?_⟩
  split at hrest
  · rename_i hr
    simp only [Check.bind_eq_ok, Check.pure_eq_ok, Prod.mk.injEq] at hrest
    obtain ⟨k₁, hk, rfl, rfl⟩ := hrest
    exact Or.inl ⟨hr, hk, rfl⟩
  · rename_i hr
    simp only [Check.pure_eq_ok, Prod.mk.injEq] at hrest
    obtain ⟨rfl, rfl⟩ := hrest
    exact Or.inr ⟨by simpa using hr, ⟨_, rfl⟩, rfl⟩

/-- The first sender is one, and there is none only if nobody has a message for the target. -/
theorem firstParked_eq_some {target : EnvId} {sender : Nat} {parked : ParkedSend}
    (h : k.firstParked target = some (sender, parked)) :
    (k.env sender).isLive = true ∧ (k.env sender).mailbox.parked = some parked ∧
      parked.target = target := by
  unfold firstParked at h
  split at h
  · cases h
  rename_i slot rest hl
  have hm : slot ∈ k.envs.sendersTo target := hl ▸ List.mem_cons_self
  obtain ⟨hlive, hs⟩ := EnvTable.mem_sendersTo_iff.1 hm
  obtain ⟨send, hp, ht⟩ := Env.sendsTo_iff.1 hs
  have hp' : (k.env slot).mailbox.parked = some send := hp
  rw [hp'] at h
  obtain ⟨rfl, rfl⟩ := Prod.mk.inj (Option.some.inj h)
  exact ⟨hlive, hp, ht⟩

theorem firstParked_eq_none {target : EnvId} (h : k.firstParked target = none) (slot : Nat)
    (hl : (k.env slot).isLive = true) : (k.env slot).sendsTo target = false := by
  unfold firstParked at h
  split at h
  · rename_i hnil
    refine Bool.eq_false_iff.2 fun hs => ?_
    have hm : slot ∈ k.envs.sendersTo target := EnvTable.mem_sendersTo_iff.2 ⟨hl, hs⟩
    rw [hnil] at hm
    exact List.not_mem_nil hm
  · rename_i slot' rest hl'
    have hm : slot' ∈ k.envs.sendersTo target := hl' ▸ List.mem_cons_self
    obtain ⟨send, hp, -⟩ := Env.sendsTo_iff.1 (EnvTable.mem_sendersTo_iff.1 hm).2
    have hp' : (k.env slot').mailbox.parked = some send := hp
    rw [hp'] at h
    cases h

/-- The record of a receiver that waits for a message. -/
def waiting (e : Env) (dest : Option VirtAddr) : Env :=
  { e with mailbox := { e.mailbox with dest, receiving := true }, status := .notRunnable }

/-- A receive takes the first parked message, or waits. -/
theorem receive_eq_ok {va : VirtAddr} (h : k.receive va = .ok (k', flow)) :
    ∃ cur dest, k.caller = .ok cur ∧ destination va = .ok dest ∧
      ((∃ sender send k₁, k.firstParked (k.env cur).id = some (sender, send) ∧
          k.transfer sender cur send.value
            (send.page.filter fun page => k.stillMaps sender page) dest = .ok k₁ ∧
          k' = ((k₁.updateEnv cur fun e =>
            { e with mailbox := { e.mailbox with dest } }).updateEnv sender
              fun e => e.wakeSender 0) ∧
          flow = .answer 0) ∨
        k.firstParked (k.env cur).id = none ∧
          (∃ event, k' = (k.updateEnv cur fun e => waiting e dest).note event) ∧
          flow = .reschedule) := by
  simp only [receive, Check.bind_eq_ok] at h
  obtain ⟨cur, hc, dest, hd, hrest⟩ := h
  refine ⟨cur, dest, hc, hd, ?_⟩
  split at hrest
  · rename_i sender send hf
    simp only [Check.bind_eq_ok, Check.pure_eq_ok, Prod.mk.injEq] at hrest
    obtain ⟨k₁, hk, rfl, rfl⟩ := hrest
    exact Or.inl ⟨sender, send, k₁, hf, hk, rfl, rfl⟩
  · rename_i hf
    simp only [Check.pure_eq_ok, Prod.mk.injEq] at hrest
    obtain ⟨rfl, rfl⟩ := hrest
    exact Or.inr ⟨hf, ⟨_, rfl⟩, rfl⟩

/-! ## The terminal -/

/-- Writing refuses, or destroys the caller for its pointer, or changes the console. -/
theorem putBytes_cases (k : Kernel) (va : VirtAddr) (len : Nat) :
    (∃ e, k.putBytes va len = .refuse k e) ∨
    (∃ cur fault, k.caller = .ok cur ∧ k.putBytes va len = k.badPointer cur fault) ∨
    ∃ console, k.putBytes va len = ⟨{ k with console }, .ok (.answer 0)⟩ := by
  unfold putBytes
  split
  · rename_i e _
    exact Or.inl ⟨e, rfl⟩
  rename_i cur hc
  split
  · rename_i fault _
    exact Or.inr (Or.inl ⟨cur, fault, hc, rfl⟩)
  split
  · rename_i e _
    exact Or.inl ⟨e, rfl⟩
  · exact Or.inr (Or.inr ⟨_, rfl⟩)

theorem getByte_fst (k : Kernel) : ∃ console, k.getByte.1 = { k with console } := by
  unfold getByte
  split <;> exact ⟨_, rfl⟩

end Kernel

end Exokernel
