/-
  Nothing leaks through memory that is used again.

  Take two kernels that differ at most in what is left in their free frames, and do the same to
  both: any actions, and any reads and writes of programs.  Nobody can tell which of the two it
  is: every answer and every byte on the console is the same, and what differs in the end is again
  at most what is left in free frames.

  For a call there is little to show beyond what memory does by itself.  A call looks at records,
  at the console and at the settings, which are equal, and at memory through questions whose
  answers are equal; so both kernels take the same branch, and what they do to memory keeps it in
  agreement.  `Mirrors` carries that through a call, the events on the way included.
-/
import Exokernel.Kernel.Operation
import Exokernel.Proofs.Residue
import Exokernel.Proofs.Steps

namespace Exokernel.Kernel

/-- Kernels that differ at most in what is left in free frames.  The log is a record for the
  reader, not a part of the state: nothing looks at it. -/
structure Agrees (k k' : Kernel) : Prop where
  config : k'.config = k.config
  envs : k'.envs = k.envs
  console : k'.console = k.console
  current : k'.current = k.current
  memory : k.memory.Agrees k'.memory

/-- Kernels that agree, and have logged the same since their logs were `old` and `old'`. -/
structure Mirrors (old old' : List Event) (k k' : Kernel) : Prop extends k.Agrees k' where
  log : ∃ events, k.log = events ++ old ∧ k'.log = events ++ old'

/-- Replies with the same result that come with kernels that mirror each other. -/
structure SameReply (old old' : List Event) (r r' : Reply) : Prop where
  kernel : Mirrors old old' r.kernel r'.kernel
  result : r'.result = r.result

variable {k k' : Kernel} {old old' : List Event}

/-! ## What a call looks at -/

namespace Agrees

theorem env (h : k.Agrees k') (slot : Nat) : k'.env slot = k.env slot :=
  congrArg (EnvTable.get · slot) h.envs

theorem caller (h : k.Agrees k') : k'.caller = k.caller := by
  simp only [Kernel.caller, h.current, h.env]

theorem target (h : k.Agrees k') (id : EnvId) (reach : Reach) :
    k'.target id reach = k.target id reach := by
  simp only [Kernel.target, h.caller, h.envs, h.env]

theorem spaceOf (h : k.Agrees k') (slot : Nat) : k'.spaceOf slot = k.spaceOf slot := by
  simp only [Kernel.spaceOf, h.env]

theorem userRange (h : k.Agrees k') (slot : Nat) (va : VirtAddr) (len : Nat) (access : Access) :
    k'.userRange slot va len access = k.userRange slot va len access := by
  unfold Kernel.userRange
  rw [h.env]
  cases (k.env slot).space with
  | none => rfl
  | some s => exact h.memory.checkRange s va len access

theorem copyIn (h : k.Agrees k') (slot : Nat) (range : UserRange) :
    k'.copyIn slot range = k.copyIn slot range := by
  simp only [Kernel.copyIn, h.spaceOf, h.memory.copyIn]

theorem pageTarget (h : k.Agrees k') (id : EnvId) (va : VirtAddr) (word : UInt32) :
    k'.pageTarget id va word = k.pageTarget id va word := by
  simp only [Kernel.pageTarget, h.target, h.spaceOf]

theorem offer (h : k.Agrees k') (slot : Nat) (va : VirtAddr) (word : UInt32) :
    k'.offer slot va word = k.offer slot va word := by
  simp only [Kernel.offer, h.spaceOf, h.memory.lookup]

theorem stillMaps (h : k.Agrees k') (slot : Nat) (page : OfferedPage) :
    k'.stillMaps slot page = k.stillMaps slot page := by
  simp only [Kernel.stillMaps, h.env, h.memory.lookup]

theorem firstParked (h : k.Agrees k') (id : EnvId) : k'.firstParked id = k.firstParked id := by
  simp only [Kernel.firstParked, h.envs, h.env]

theorem spaceNamed (h : k.Agrees k') (id : EnvId) : k'.spaceNamed id = k.spaceNamed id := by
  simp only [Kernel.spaceNamed, h.envs]

end Agrees

/-! ## What calls are made of -/

namespace Mirrors

theorem note (h : Mirrors old old' k k') (event : Event) :
    Mirrors old old' (k.note event) (k'.note event) := by
  obtain ⟨events, hlog, hlog'⟩ := h.log
  refine { h with log := ⟨event :: events, ?_, ?_⟩ }
  · exact congrArg (event :: ·) hlog
  · exact congrArg (event :: ·) hlog'

theorem withMemory (h : Mirrors old old' k k') {m m' : Memory} (hm : m.Agrees m') :
    Mirrors old old' { k with memory := m } { k' with memory := m' } :=
  { h with memory := hm }

theorem updateEnv (h : Mirrors old old' k k') (slot : Nat) (change : Env → Env) :
    Mirrors old old' (k.updateEnv slot change) (k'.updateEnv slot change) :=
  { h with envs := congrArg (EnvTable.update · slot change) h.envs }

theorem activate (h : Mirrors old old' k k') (space : Option SpaceId) :
    Mirrors old old' (k.activate space) (k'.activate space) := by
  cases space with
  | none => exact h
  | some s => exact h.withMemory (h.memory.activate s)

theorem resume (h : Mirrors old old' k k') (slot : Nat) :
    Alongside (Mirrors old old') (k.resume slot) (k'.resume slot) := by
  unfold Kernel.resume
  simp only [h.env]
  have hresumed := (h.updateEnv slot fun _ => (k.env slot).resumed).activate (k.env slot).space
  exact ⟨{ hresumed with current := rfl }, rfl⟩

theorem reschedule (h : Mirrors old old' k k') :
    Alongside (Mirrors old old') k.reschedule k'.reschedule := by
  unfold Kernel.reschedule
  rw [h.envs, h.current]
  cases k.envs.pickNext k.current with
  | none => exact ⟨{ h.note .idle with current := rfl }, rfl⟩
  | some slot =>
    have hresumed := h.resume slot
    exact ⟨hresumed.state, congrArg some hresumed.result⟩

theorem proceed (h : Mirrors old old' k k') (slot : Nat) (flow : Flow) :
    Alongside (Mirrors old old') (k.proceed slot flow) (k'.proceed slot flow) := by
  cases flow with
  | answer value =>
    have hresumed := (h.updateEnv slot fun e => { e with pending := some value }).resume slot
    exact ⟨hresumed.state, congrArg some hresumed.result⟩
  | resume =>
    have hresumed := h.resume slot
    exact ⟨hresumed.state, congrArg some hresumed.result⟩
  | reschedule => exact h.reschedule

theorem abortSends (target : EnvId) (senders : List Nat) (h : Mirrors old old' k k') :
    Mirrors old old' (senders.foldl (fun k sender => k.abortSend target sender) k)
      (senders.foldl (fun k sender => k.abortSend target sender) k') := by
  induction senders generalizing k k' with
  | nil => exact h
  | cons sender rest ih =>
    refine ih ?_
    show Mirrors old old' (k.abortSend target sender) (k'.abortSend target sender)
    unfold Kernel.abortSend
    rw [h.env]
    exact (h.updateEnv sender _).note _

theorem vacate (h : Mirrors old old' k k') (slot : Nat) :
    Mirrors old old' (k.vacate slot) (k'.vacate slot) := by
  unfold Kernel.vacate
  rw [h.env]
  refine { h with envs := congrArg (EnvTable.vacate · slot) h.envs, memory := ?_ }
  cases (k.env slot).space with
  | none => exact h.memory
  | some s => exact h.memory.destroySpace s

theorem destroy (h : Mirrors old old' k k') (slot : Nat) :
    Mirrors old old' (k.destroy slot) (k'.destroy slot) := by
  unfold Kernel.destroy
  have hdying := h.updateEnv slot fun e => { e with status := .dying }
  simp only [h.env, hdying.envs]
  exact ((hdying.abortSends _ _).vacate slot).note _

theorem allocEnv (h : Mirrors old old' k k') (parent : EnvId) :
    SameOutcome (Alongside (Mirrors old old')) (k.allocEnv parent) (k'.allocEnv parent) := by
  unfold Kernel.allocEnv
  rw [h.envs, h.config]
  refine .bind_same _ fun slot => ?_
  rcases h.memory.createSpace.cases with ⟨e, hx, hx'⟩ | ⟨m, m', space, hx, hx', hm⟩ <;>
    rw [hx, hx']
  · exact .error _
  · exact .ok ⟨{ h.withMemory hm with config := rfl, envs := rfl }, rfl⟩

theorem createEnv (h : Mirrors old old' k k') (parent : EnvId) (entry stack : UInt32) :
    SameOutcome (Alongside (Mirrors old old')) (k.createEnv parent entry stack)
      (k'.createEnv parent entry stack) := by
  refine (h.allocEnv parent).bind ?_
  rintro ⟨k₁, _⟩ ⟨k₁', slot⟩ ⟨hk, rfl⟩
  have hnew := hk.updateEnv slot fun e =>
    { e with registers := .newUser entry stack, status := .runnable }
  simp only [hnew.env]
  exact .ok ⟨hnew.note _, rfl⟩

theorem run (h : Mirrors old old' k k') (id : EnvId) :
    SameOutcome (Alongside (Mirrors old old')) (k.run id) (k'.run id) := by
  unfold Kernel.run
  rw [h.envs]
  exact .bind_same _ fun slot => .ok (h.resume slot)

theorem capture (h : Mirrors old old' k k') (r : Registers) :
    Mirrors old old' (k.capture r) (k'.capture r) := by
  unfold Kernel.capture
  rw [h.current]
  cases k.current with
  | none => exact h
  | some slot =>
    simp only [h.env]
    split
    · exact h.updateEnv slot _
    · exact h

/-! ## Calls that fail as a whole -/

theorem ofCheck (h : Mirrors old old' k k') {c c' : Check (Kernel × Flow)}
    (hc : SameOutcome (Alongside (Mirrors old old')) c c') :
    SameReply old old' (.ofCheck k c) (.ofCheck k' c') := by
  rcases hc.cases with ⟨e, rfl, rfl⟩ | ⟨k₁, k₁', flow, rfl, rfl, hk⟩
  · exact ⟨h, rfl⟩
  · exact ⟨hk, rfl⟩

/-- Both map a page, or neither does. -/
theorem ofInsert (h : Mirrors old old' k k') (s : SpaceId) (f : Frame) (va : VirtAddr)
    (perm : Perm) : SameOutcome Memory.Agrees (Check.ofMapping (k.memory.insert s f va perm))
      (Check.ofMapping (k'.memory.insert s f va perm)) := by
  have hinserted := h.memory.insert s f va perm
  generalize k.memory.insert s f va perm = inserted at hinserted
  generalize k'.memory.insert s f va perm = inserted' at hinserted
  cases hinserted with
  | error e => exact .error _
  | ok hm => exact .ok hm

theorem ownId (h : Mirrors old old' k k') :
    SameOutcome (Alongside (Mirrors old old')) k.ownId k'.ownId := by
  simp only [Kernel.ownId, h.caller, h.env]
  exact .bind_same _ fun cur => .ok ⟨h, rfl⟩

theorem yield (h : Mirrors old old' k k') :
    SameOutcome (Alongside (Mirrors old old')) k.yield k'.yield := by
  simp only [Kernel.yield, h.caller]
  exact .bind_same _ fun cur => .ok ⟨h.updateEnv cur _, rfl⟩

theorem destroyEnv (h : Mirrors old old' k k') (id : EnvId) :
    SameOutcome (Alongside (Mirrors old old')) (k.destroyEnv id) (k'.destroyEnv id) := by
  simp only [Kernel.destroyEnv, h.target, h.caller, h.env]
  exact .bind_same _ fun slot => .bind_same _ fun cur => .ok ⟨(h.note _).destroy slot, rfl⟩

theorem fork (h : Mirrors old old' k k') :
    SameOutcome (Alongside (Mirrors old old')) k.fork k'.fork := by
  simp only [Kernel.fork, h.caller, h.env]
  refine .bind_same _ fun cur => (h.allocEnv _).bind ?_
  rintro ⟨k₁, _⟩ ⟨k₁', slot⟩ ⟨hk, rfl⟩
  have hchild := hk.updateEnv slot fun child =>
    { child with
      registers := (k.env cur).registers
      heapBreak := (k.env cur).heapBreak
      pending := some 0 }
  simp only [hchild.env]
  exact .ok ⟨hchild.note _, rfl⟩

theorem setStatus (h : Mirrors old old' k k') (id : EnvId) (word : UInt32) :
    SameOutcome (Alongside (Mirrors old old')) (k.setStatus id word) (k'.setStatus id word) := by
  simp only [Kernel.setStatus, h.target]
  exact .bind_same _ fun slot => .bind_same _ fun status => .ok ⟨h.updateEnv slot _, rfl⟩

theorem setUpcall (h : Mirrors old old' k k') (id : EnvId) (va : VirtAddr) :
    SameOutcome (Alongside (Mirrors old old')) (k.setUpcall id va) (k'.setUpcall id va) := by
  simp only [Kernel.setUpcall, h.target]
  exact .bind_same _ fun slot => .ok ⟨h.updateEnv slot _, rfl⟩

theorem execCommit (h : Mirrors old old' k k') (id : EnvId) :
    SameOutcome (Alongside (Mirrors old old')) (k.execCommit id) (k'.execCommit id) := by
  simp only [Kernel.execCommit, h.caller, h.target, h.envs]
  refine .bind_same _ fun cur => .bind_same _ fun slot => .bind_same _ fun pair => ?_
  obtain ⟨caller, image⟩ := pair
  have hswapped := (h.updateEnv cur fun e =>
    { e with
      registers := image.registers
      upcall := image.upcall
      heapBreak := image.heapBreak
      space := image.space
      pending := none }).updateEnv slot fun e => { e with space := caller.space }
  exact .ok ⟨((hswapped.activate image.space).note _).destroy slot, rfl⟩

theorem mapKernelPage (h : Mirrors old old' k k') (phys : PhysAddr) (va : VirtAddr) :
    SameOutcome (Alongside (Mirrors old old')) (k.mapKernelPage phys va)
      (k'.mapKernelPage phys va) := by
  simp only [Kernel.mapKernelPage, h.caller, h.config, h.spaceOf]
  exact .bind_same _ fun cur => .bind_same _ fun frame => .bind_same _ fun _ =>
    .bind_same _ fun s => (h.ofInsert s frame va .userWrite).bind fun m m' hm =>
      .ok ⟨{ h.withMemory hm with config := rfl }, rfl⟩

theorem pageMap (h : Mirrors old old' k k') (source : EnvId) (sourceVa : VirtAddr)
    (dest : EnvId) (destVa : VirtAddr) (word : UInt32) :
    SameOutcome (Alongside (Mirrors old old')) (k.pageMap source sourceVa dest destVa word)
      (k'.pageMap source sourceVa dest destVa word) := by
  simp only [Kernel.pageMap, h.target, h.spaceOf, h.memory.lookup, h.env]
  exact .bind_same _ fun src => .bind_same _ fun dst => .bind_same _ fun _ =>
    .bind_same _ fun perm => .bind_same _ fun srcSpace => .bind_same _ fun found =>
      .bind_same _ fun _ => .bind_same _ fun dstSpace =>
        (h.ofInsert dstSpace found.1 destVa perm).bind fun m m' hm =>
          .ok ⟨(h.withMemory hm).note _, rfl⟩

theorem pageUnmap (h : Mirrors old old' k k') (id : EnvId) (va : VirtAddr) :
    SameOutcome (Alongside (Mirrors old old')) (k.pageUnmap id va) (k'.pageUnmap id va) := by
  simp only [Kernel.pageUnmap, h.target, h.spaceOf]
  exact .bind_same _ fun slot => .bind_same _ fun _ => .bind_same _ fun s =>
    .ok ⟨h.withMemory (h.memory.remove s va), rfl⟩

theorem placePage (h : Mirrors old old' k k') (receiver : Nat) (page : Option OfferedPage)
    (dest : Option VirtAddr) : SameOutcome (Alongside Memory.Agrees)
      (k.placePage receiver page dest) (k'.placePage receiver page dest) := by
  unfold Kernel.placePage
  rw [h.spaceOf]
  split
  · exact .bind_same _ fun s => (h.ofInsert s _ _ _).bind fun m m' hm => .ok ⟨hm, rfl⟩
  · exact .ok ⟨h.memory, rfl⟩

theorem transfer (h : Mirrors old old' k k') (sender receiver : Nat) (value : UInt32)
    (page : Option OfferedPage) (dest : Option VirtAddr) :
    SameOutcome (Mirrors old old') (k.transfer sender receiver value page dest)
      (k'.transfer sender receiver value page dest) := by
  simp only [Kernel.transfer, h.env]
  refine (h.placePage receiver page dest).bind ?_
  rintro ⟨m, _⟩ ⟨m', perm⟩ ⟨hm, rfl⟩
  have hdelivered := (h.withMemory hm).updateEnv receiver fun e =>
    { e with
      mailbox := e.mailbox.deliver (k.env sender).id value perm
      status := .runnable
      pending := some 0 }
  simp only [hdelivered.env]
  exact .ok (hdelivered.note _)

theorem send (h : Mirrors old old' k k') (id : EnvId) (value : UInt32) (va : VirtAddr)
    (word : UInt32) : SameOutcome (Alongside (Mirrors old old')) (k.send id value va word)
      (k'.send id value va word) := by
  simp only [Kernel.send, h.caller, h.target, h.offer, h.env]
  refine .bind_same _ fun cur => .bind_same _ fun target => .bind_same _ fun _ =>
    .bind_same _ fun page => ?_
  split
  · exact (h.transfer cur target value page _).bind fun k₁ k₁' hk => .ok ⟨hk, rfl⟩
  · have hparked := h.updateEnv cur fun e =>
      { e with
        mailbox := { e.mailbox with
          parked := some { target := (k.env target).id, value, page } }
        status := .notRunnable }
    simp only [hparked.env]
    exact .ok ⟨hparked.note _, rfl⟩

theorem receive (h : Mirrors old old' k k') (va : VirtAddr) :
    SameOutcome (Alongside (Mirrors old old')) (k.receive va) (k'.receive va) := by
  simp only [Kernel.receive, h.caller, h.env, h.firstParked, h.stillMaps]
  refine .bind_same _ fun cur => .bind_same _ fun dest => ?_
  split
  · exact (h.transfer _ cur _ _ dest).bind fun k₁ k₁' hk =>
      .ok ⟨(hk.updateEnv cur _).updateEnv _ _, rfl⟩
  · exact .ok ⟨(h.updateEnv cur _).note _, rfl⟩

/-! ## Calls that may leave something behind -/

theorem badPointer (h : Mirrors old old' k k') (slot : Nat) (fault : VirtAddr) :
    SameReply old old' (k.badPointer slot fault) (k'.badPointer slot fault) := by
  unfold Kernel.badPointer
  rw [h.env]
  exact ⟨(h.note _).destroy slot, rfl⟩

theorem putBytes (h : Mirrors old old' k k') (va : VirtAddr) (len : Nat) :
    SameReply old old' (k.putBytes va len) (k'.putBytes va len) := by
  unfold Kernel.putBytes
  simp only [h.caller, h.userRange, h.copyIn, h.console]
  split
  · exact ⟨h, rfl⟩
  split
  · exact h.badPointer _ _
  split
  · exact ⟨h, rfl⟩
  · exact ⟨{ h with console := rfl }, rfl⟩

theorem setRegisters (h : Mirrors old old' k k') (id : EnvId) (va : VirtAddr) :
    SameReply old old' (k.setRegisters id va) (k'.setRegisters id va) := by
  unfold Kernel.setRegisters
  simp only [h.caller, h.userRange, h.target, h.copyIn]
  split
  · exact ⟨h, rfl⟩
  split
  · exact h.badPointer _ _
  · exact h.ofCheck (.bind_same _ fun slot => .bind_same _ fun bytes => .bind_same _ fun r =>
      .ok ⟨h.updateEnv slot _, rfl⟩)

theorem pageAlloc (h : Mirrors old old' k k') (id : EnvId) (va : VirtAddr) (word : UInt32) :
    SameReply old old' (k.pageAlloc id va word) (k'.pageAlloc id va word) := by
  unfold Kernel.pageAlloc
  simp only [h.pageTarget, h.env]
  split
  · exact ⟨h, rfl⟩
  · rename_i slot s perm _
    obtain ⟨m, m', stopped, hx, hx', hm⟩ := (h.memory.mapFresh s va perm).cases
    rw [hx, hx']
    cases stopped with
    | some e => exact ⟨h.withMemory hm, rfl⟩
    | none => exact ⟨(h.withMemory hm).note _, rfl⟩

theorem growHeap (h : Mirrors old old' k k') (increment : UInt32) :
    SameReply old old' (k.growHeap increment) (k'.growHeap increment) := by
  unfold Kernel.growHeap
  simp only [h.caller, h.spaceOf, h.env]
  split
  · exact ⟨h, rfl⟩
  rename_i cur _
  split
  · exact ⟨(h.note _).destroy cur, rfl⟩
  rename_i after _
  split
  · exact ⟨h, rfl⟩
  · rename_i s _
    obtain ⟨m, m', stopped, hx, hx', hm⟩ := (h.memory.mapPages s .userWrite
      ((after.toNat - (k.env cur).heapBreak.toNat) / pageSize) (k.env cur).heapBreak).cases
    rw [hx, hx']
    cases stopped with
    | none => exact ⟨((h.withMemory hm).updateEnv cur _).note _, rfl⟩
    | some stop => exact ⟨(h.withMemory (hm.removePages s _ _)).note _, rfl⟩

theorem getByte (h : Mirrors old old' k k') :
    Alongside (Mirrors old old') k.getByte k'.getByte := by
  unfold Kernel.getByte
  rw [h.console]
  split
  · exact ⟨{ h with console := rfl }, rfl⟩
  · exact ⟨{ h with console := rfl }, rfl⟩

/-- **Both kernels give the same reply to every request.** -/
theorem perform (h : Mirrors old old' k k') (r : Request) :
    SameReply old old' (k.perform r) (k'.perform r) := by
  cases r with
  | putBytes va len => exact h.putBytes va len
  | getByte => exact h.ofCheck (.ok h.getByte)
  | ownId => exact h.ofCheck h.ownId
  | destroyEnv id => exact h.ofCheck (h.destroyEnv id)
  | mapKernelPage phys va => exact h.ofCheck (h.mapKernelPage phys va)
  | yield => exact h.ofCheck h.yield
  | fork => exact h.ofCheck h.fork
  | setStatus id status => exact h.ofCheck (h.setStatus id status)
  | setRegisters id va => exact h.setRegisters id va
  | setUpcall id va => exact h.ofCheck (h.setUpcall id va)
  | execCommit id => exact h.ofCheck (h.execCommit id)
  | pageAlloc id va perm => exact h.pageAlloc id va perm
  | pageMap source sourceVa dest destVa perm =>
    exact h.ofCheck (h.pageMap source sourceVa dest destVa perm)
  | pageUnmap id va => exact h.ofCheck (h.pageUnmap id va)
  | send id value va perm => exact h.ofCheck (h.send id value va perm)
  | receive va => exact h.ofCheck (h.receive va)
  | growHeap increment => exact h.growHeap increment
  | unknown number => exact ⟨h.note _, rfl⟩

/-! ## Operations -/

theorem dispatch (h : Mirrors old old' k k') (number : UInt32) (args : Args) :
    Alongside (Mirrors old old') (k.dispatch number args) (k'.dispatch number args) := by
  unfold Kernel.dispatch
  obtain ⟨hk, hresult⟩ := h.perform (.ofWords number args)
  simp only [hresult]
  split
  · exact ⟨hk, rfl⟩
  · exact ⟨hk.note _, rfl⟩

theorem call (h : Mirrors old old' k k') (number : UInt32) (args : Args) :
    Alongside (Mirrors old old') (k.call number args) (k'.call number args) := by
  unfold Kernel.call
  rw [h.current]
  cases k.current with
  | none => exact h.reschedule
  | some slot =>
    obtain ⟨k₁, k₁', flow, hx, hx', hk⟩ := (h.dispatch number args).cases
    simp only [h.env, hx, hx', hk.envs]
    split
    · exact hk.proceed slot flow
    · exact hk.reschedule

theorem act (h : Mirrors old old' k k') (a : Action) :
    Mirrors old old' (k.act a).1 (k'.act a).1 ∧ k'.answer a = k.answer a := by
  cases a with
  | create parent entry stack =>
    simp only [Kernel.act, Kernel.answer]
    rcases (h.createEnv parent entry stack).cases with
      ⟨e, hx, hx'⟩ | ⟨k₁, k₁', id, hx, hx', hk⟩ <;> rw [hx, hx']
    · exact ⟨h, rfl⟩
    · exact ⟨hk, rfl⟩
  | run id =>
    simp only [Kernel.act, Kernel.answer]
    rcases (h.run id).cases with ⟨e, hx, hx'⟩ | ⟨k₁, k₁', r, hx, hx', hk⟩ <;> rw [hx, hx']
    · exact ⟨h, rfl⟩
    · exact ⟨hk, rfl⟩
  | capture r => exact ⟨h.capture r, rfl⟩
  | call number args =>
    have hcall := h.call number args
    exact ⟨hcall.state, congrArg Answer.called hcall.result⟩

/-- **One operation**: the answer is the same, and the kernels keep mirroring each other. -/
theorem operate (h : Mirrors old old' k k') (op : Operation) :
    Alongside (Mirrors old old') (k.operate op) (k'.operate op) := by
  cases op with
  | act a =>
    obtain ⟨hk, hanswer⟩ := h.act a
    exact ⟨hk, hanswer⟩
  | load id va len =>
    refine ⟨h, ?_⟩
    simp only [Kernel.operate, h.spaceNamed, h.memory.readBytes]
  | store id va bytes =>
    simp only [Kernel.operate, h.spaceNamed]
    cases k.spaceNamed id with
    | none => exact ⟨h, rfl⟩
    | some s =>
      have hwritten := h.memory.writeBytes s va bytes
      exact ⟨h.withMemory hwritten.state, congrArg (Answer.stored ∘ some) hwritten.result⟩

theorem operations (ops : List Operation) (h : Mirrors old old' k k') :
    k'.observe ops = k.observe ops ∧ Mirrors old old' (k.afterAll ops) (k'.afterAll ops) := by
  induction ops generalizing k k' with
  | nil => exact ⟨rfl, h⟩
  | cons op rest ih =>
    obtain ⟨hk, hanswer⟩ := h.operate op
    obtain ⟨hobserved, hfinal⟩ := ih hk
    refine ⟨?_, hfinal⟩
    simp only [observe, hobserved, hanswer, hk.console]

end Mirrors

/-- **Nobody can tell what is left in free frames.**  The same operations on kernels that differ
  at most in that have the same answers and the same output, log the same, and lead to kernels
  that differ at most in that. -/
theorem residue_unobservable (h : k.Agrees k') (ops : List Operation) :
    k'.observe ops = k.observe ops ∧ (k.afterAll ops).Agrees (k'.afterAll ops) ∧
      ∃ events, (k.afterAll ops).log = events ++ k.log ∧
        (k'.afterAll ops).log = events ++ k'.log := by
  have hstart : Mirrors k.log k'.log k k' := { h with log := ⟨[], rfl, rfl⟩ }
  obtain ⟨hobserved, hfinal⟩ := hstart.operations ops
  exact ⟨hobserved, hfinal.toAgrees, hfinal.log⟩

/-- The kernel with something left in frame number `i`. -/
def haunted (k : Kernel) (i : Nat) (page : Page) : Kernel :=
  { k with memory := { k.memory with
    pool := k.memory.pool.update i fun c => { c with page } } }

theorem agrees_haunted {i : Nat} (hfree : (k.memory.pool.cell i).inUse = false) (page : Page) :
    k.Agrees (k.haunted i page) :=
  ⟨rfl, rfl, rfl, rfl, .scribbled hfree, rfl, rfl⟩

/-- A program takes a page and looks at it in both ways it can.  Its page is frame number 1. -/
def peeking : List Operation :=
  [.act (.create .none 0 0), .act (.run ⟨4096⟩), .act (.call 11 #v[0, 0x900000, 7, 0, 0]),
    .load ⟨4096⟩ ⟨0x900000⟩ 4096, .act (.call 0 #v[0x900000, 4096, 0, 0, 0])]

theorem residue_unobservable_peeking :
    (small.haunted 1 (.replicate 4096 0x5A)).observe peeking = small.observe peeking ∧
      (small.afterAll peeking).Agrees
        ((small.haunted 1 (.replicate 4096 0x5A)).afterAll peeking) ∧
      ∃ events, (small.afterAll peeking).log = events ++ small.log ∧
        ((small.haunted 1 (.replicate 4096 0x5A)).afterAll peeking).log = events ++ small.log :=
  residue_unobservable (agrees_haunted rfl _) peeking

end Exokernel.Kernel
