/-
  What actions write into records, whatever memory is like.

  Two things about a record need no invariant at all: under which id it stands, and where its
  registers come from.  An id is only written when a slot is filled.  Registers are copied from
  another live environment, put into user mode, or saved from outside; on the way to the program
  they get a result, which is one register and not one that bears on protection.

  `Stroke` lists the writes: a live record is written that keeps its id, or an environment ends.
  `Joins` is the one write that brings somebody to life.  Every action is a series of strokes, and
  at most one newcomer comes before them.  Nothing is asked of memory, so what is proved from here
  holds for kernels over any memory.
-/
import Exokernel.Kernel.Operation
import Exokernel.Proofs.Turns

namespace Exokernel.Kernel

variable {saved : Registers → Prop} {k k' k'' k₁ : Kernel} {flow : Flow} {cur slot e : Nat}
  {f : Env → Env}

/-- Registers that a record can get: those of a live environment with any result, registers put into
  user mode, and what is saved from outside. -/
inductive Supplied (saved : Registers → Prop) (k : Kernel) : Registers → Prop where
  | held {slot : Nat} (live : (k.env slot).isLive = true) (result : UInt32) :
      Supplied saved k { (k.env slot).registers with eax := result }
  | sanitized (r : Registers) : Supplied saved k r.sanitize
  | saved {r : Registers} (admitted : saved r) : Supplied saved k r

/-- One write to the table that brings nobody to life. -/
inductive Stroke (saved : Registers → Prop) (k : Kernel) : Kernel → Prop where
  | quiet {k' : Kernel} (envs : k'.envs = k.envs) : Stroke saved k k'
  /-- A record is written and stays that of the same environment. -/
  | write {slot : Nat} {change : Env → Env} (live : (k.env slot).isLive = true)
      (id : (change (k.env slot)).id = (k.env slot).id)
      (lives : (change (k.env slot)).isLive = true)
      (registers : Supplied saved k (change (k.env slot)).registers) :
      Stroke saved k (k.updateEnv slot change)
  /-- An environment ends. -/
  | clear {slot : Nat} (live : (k.env slot).isLive = true) : Stroke saved k (k.destroy slot)

/-- A series of strokes. -/
abbrev Strokes (saved : Registers → Prop) : Kernel → Kernel → Prop :=
  Relation.ReflTransGen (Stroke saved)

/-- From `k` to `k'`, a slot in which nobody was gets an environment. -/
structure Joins (saved : Registers → Prop) (k : Kernel) (slot : Nat) (k' : Kernel) : Prop where
  unused : (k.env slot).isLive = false
  live : (k'.env slot).isLive = true
  id : (k'.env slot).id = (k.env slot).id.next slot
  registers : Supplied saved k (k'.env slot).registers
  others : ∀ e, e ≠ slot → k'.env e = k.env e
  capacity : k'.envs.capacity = k.envs.capacity

/-- What an action does to the table: strokes, perhaps after somebody has joined to stay. -/
inductive Course (saved : Registers → Prop) (k : Kernel) : Kernel → Prop where
  | strokes {k' : Kernel} (strokes : Strokes saved k k') : Course saved k k'
  | joins {k₁ k' : Kernel} {slot : Nat} (joins : Joins saved k slot k₁)
      (strokes : Strokes saved k₁ k') (live : (k'.env slot).isLive = true) : Course saved k k'

/-! ## What a stroke leaves -/

theorem Supplied.of_live (live : (k.env slot).isLive = true) :
    Supplied saved k (k.env slot).registers :=
  .held live (k.env slot).registers.eax

theorem Stroke.id (h : Stroke saved k k') (e : Nat) : (k'.env e).id = (k.env e).id := by
  cases h with
  | quiet envs => exact congrArg (fun t : EnvTable => (t.get e).id) envs
  | write live id =>
    rw [env_updateEnv_eq _ live]
    split
    · rename_i heq
      rw [heq]
      exact id
    · rfl
  | @clear slot live =>
    rw [env_destroy live]
    unfold afterEnd
    split
    · rename_i heq
      rw [heq]
    · split <;> rfl

/-- Strokes bring nobody to life. -/
theorem Stroke.isLive (h : Stroke saved k k') (hl : (k'.env e).isLive = true) :
    (k.env e).isLive = true := by
  cases h with
  | quiet envs =>
    rw [show k'.env e = k.env e from congrArg (EnvTable.get · e) envs] at hl
    exact hl
  | write live => exact isLive_of_updateEnv live hl
  | clear live =>
    rw [env_destroy live] at hl
    exact (isLive_of_afterEnd hl).2

theorem Stroke.capacity (h : Stroke saved k k') : k'.envs.capacity = k.envs.capacity := by
  cases h with
  | quiet envs => rw [envs]
  | write => exact capacity_updateEnv _
  | clear => exact capacity_destroy

theorem Strokes.id (h : Strokes saved k k') (e : Nat) : (k'.env e).id = (k.env e).id := by
  induction h with
  | refl => rfl
  | tail _ hlast ih => exact (hlast.id e).trans ih

theorem Strokes.isLive (h : Strokes saved k k') (hl : (k'.env e).isLive = true) :
    (k.env e).isLive = true := by
  induction h with
  | refl => exact hl
  | tail _ hlast ih => exact ih (hlast.isLive hl)

theorem Course.capacity (h : Course saved k k') : k'.envs.capacity = k.envs.capacity := by
  have hstrokes : ∀ {k k' : Kernel}, Strokes saved k k' → k'.envs.capacity = k.envs.capacity := by
    intro k k' h
    induction h with
    | refl => rfl
    | tail _ hlast ih => exact hlast.capacity.trans ih
  cases h with
  | strokes h => exact hstrokes h
  | joins hj h => exact (hstrokes h).trans hj.capacity

/-! ## Strokes that calls share -/

theorem Strokes.quiet (h : Strokes saved k k') (envs : k''.envs = k'.envs) : Strokes saved k k'' :=
  h.tail (.quiet envs)

theorem Strokes.activate (h : Strokes saved k k') (space : Option SpaceId) :
    Strokes saved k (k'.activate space) := by
  cases space <;> exact h.quiet rfl

/-- A record is written and keeps its id, its status and its registers. -/
theorem Strokes.write (h : Strokes saved k k') (hl : (k'.env slot).isLive = true)
    (id : (f (k'.env slot)).id = (k'.env slot).id)
    (lives : (f (k'.env slot)).isLive = true)
    (registers : (f (k'.env slot)).registers = (k'.env slot).registers) :
    Strokes saved k (k'.updateEnv slot f) :=
  h.tail (.write hl id lives (registers ▸ .of_live hl))

/-- Whoever is live stays so when a live record is written. -/
theorem isLive_updateEnv (hl : (k.env e).isLive = true)
    (lives : (k.env slot).isLive = true → (f (k.env slot)).isLive = true) :
    ((k.updateEnv slot f).env e).isLive = true := by
  by_cases heq : e = slot
  · subst heq
    rw [env_updateEnv_self _ hl]
    exact lives hl
  · rwa [env_updateEnv_of_ne _ heq]

theorem resume_strokes (hl : (k.env slot).isLive = true) : Strokes saved k (k.resume slot).1 := by
  have hrecord : Strokes saved k (k.updateEnv slot fun _ => (k.env slot).resumed) := by
    refine .single (.write hl rfl hl ?_)
    -- the only register that a pending result touches is the one for results
    unfold Env.resumed
    dsimp only
    split
    · exact .held hl _
    · exact .of_live hl
  exact (hrecord.activate (k.env slot).space).quiet rfl

theorem reschedule_strokes (k : Kernel) : Strokes saved k k.reschedule.1 := by
  unfold reschedule
  split
  · rename_i slot hs
    exact resume_strokes (isLive_of_pickNext hs)
  · exact .single (.quiet rfl)

theorem proceed_strokes (hl : (k.env slot).isLive = true) (flow : Flow) :
    Strokes saved k (k.proceed slot flow).1 := by
  cases flow with
  | answer value =>
    have hanswer : Strokes saved k
        (k.updateEnv slot fun e => { e with pending := some value }) :=
      Strokes.write .refl hl rfl hl rfl
    exact hanswer.trans (resume_strokes (isLive_updateEnv hl fun hl => hl))
  | resume => exact resume_strokes hl
  | reschedule => exact reschedule_strokes k

/-! ## Request by request -/

section Requests

variable {id : EnvId} {va : VirtAddr} {word : UInt32}

theorem note_clear_strokes (hl : (k.env slot).isLive = true) (event : Event) :
    Strokes saved k ((k.note event).destroy slot) :=
  have hnote : Strokes saved k (k.note event) := .single (.quiet rfl)
  hnote.tail (.clear hl)

theorem badPointer_strokes (hc : k.caller = .ok cur) (fault : VirtAddr) :
    Strokes saved k (k.badPointer cur fault).kernel :=
  note_clear_strokes (caller_eq_ok.1 hc).2 _

theorem setRegisters_strokes (k : Kernel) (id : EnvId) (va : VirtAddr) :
    Strokes saved k (k.setRegisters id va).kernel := by
  rcases k.setRegisters_cases id va with
    ⟨e, he⟩ | ⟨cur, fault, hc, he⟩ | ⟨slot, registers, ht, he⟩ <;> rw [he]
  · exact .refl
  · exact badPointer_strokes hc fault
  · have hl := isLive_of_target ht
    exact .single (.write hl rfl hl (.sanitized registers))

theorem setStatus_strokes (h : k.setStatus id word = .ok (k', flow)) : Strokes saved k k' := by
  obtain ⟨slot, status, ht, -, hs, rfl, -⟩ := setStatus_eq_ok h
  have hlives : ({ k.env slot with status } : Env).isLive = true := Env.isLive_iff.2 hs
  exact Strokes.write .refl (isLive_of_target ht) rfl hlives rfl

theorem execCommit_strokes (h : k.execCommit id = .ok (k', flow)) : Strokes saved k k' := by
  obtain ⟨cur, slot, event, hc, ht, hne, rfl, -⟩ := execCommit_eq_ok h
  have hlc := (caller_eq_ok.1 hc).2
  have hls := isLive_of_target ht
  -- the caller gets the registers of the image, which is live like the caller
  have hadopt : Strokes saved k (k.updateEnv cur fun e => adopted e (k.env slot)) :=
    .single (.write hlc rfl hlc (Supplied.of_live hls))
  have himage : ((k.updateEnv cur fun e => adopted e (k.env slot)).env slot).isLive = true :=
    isLive_updateEnv hls fun hl => hl
  have hswap := hadopt.write (f := fun e => { e with space := (k.env cur).space })
    himage rfl himage rfl
  have hdone : Strokes saved k (Kernel.note _ event) :=
    (hswap.activate (k.env slot).space).quiet rfl
  refine hdone.tail (.clear ?_)
  rw [env_note, show ∀ k : Kernel, (k.activate _).env slot = k.env slot from fun k =>
    congrArg (EnvTable.get · slot) (memory_activate k _).2.2]
  exact isLive_updateEnv himage fun hl => hl

theorem growHeap_strokes (k : Kernel) (increment : UInt32) :
    Strokes saved k (k.growHeap increment).kernel := by
  rcases k.growHeap_cases increment with ⟨e, he⟩ | ⟨cur, hc, hcases⟩
  · rw [he]
    exact .refl
  have hl := (caller_eq_ok.1 hc).2
  rcases hcases with ⟨event, he⟩ |
    ⟨s, n, m, -, -, ⟨after, event, value, he⟩ | ⟨mapped, event, e, he⟩⟩ <;> rw [he]
  · exact note_clear_strokes hl event
  · have hmap : Strokes saved k { k with memory := m } := .single (.quiet rfl)
    exact (hmap.write (f := fun e => { e with heapBreak := after }) hl rfl hl rfl).quiet rfl
  · exact .single (.quiet rfl)

/-- The receiver of a message is live afterwards, whatever it was before. -/
theorem transfer_strokes {sender receiver : Nat} {value : UInt32} {page : Option OfferedPage}
    {dest : Option VirtAddr} (hl : (k.env receiver).isLive = true)
    (h : k.transfer sender receiver value page dest = .ok k') :
    Strokes saved k k' ∧ ∀ e, (k.env e).isLive = true → (k'.env e).isLive = true := by
  obtain ⟨memory, perm, event, -, rfl⟩ := transfer_eq_ok h
  have hplace : Strokes saved k { k with memory } := .single (.quiet rfl)
  exact ⟨(hplace.write (f := fun e => received e (k.env sender).id value perm) hl rfl rfl
    rfl).quiet rfl, fun e he => isLive_updateEnv (k := { k with memory }) he fun _ => rfl⟩

theorem send_strokes {value : UInt32} (h : k.send id value va word = .ok (k', flow)) :
    Strokes saved k k' := by
  obtain ⟨cur, target, page, hc, hresolve, -, -, hcases⟩ := send_eq_ok h
  rcases hcases with ⟨-, htransfer, -⟩ | ⟨-, ⟨event, rfl⟩, -⟩
  · exact (transfer_strokes (EnvTable.resolve_eq_some_iff.1 hresolve).2.1 htransfer).1
  · exact (Strokes.write .refl (caller_eq_ok.1 hc).2 rfl rfl rfl).quiet rfl

theorem receive_strokes (h : k.receive va = .ok (k', flow)) : Strokes saved k k' := by
  obtain ⟨cur, dest, hc, -, hcases⟩ := receive_eq_ok h
  have hl := (caller_eq_ok.1 hc).2
  rcases hcases with ⟨sender, send, k₁, hf, htransfer, rfl, -⟩ | ⟨-, ⟨event, rfl⟩, -⟩
  · obtain ⟨hls, -, -⟩ := firstParked_eq_some hf
    obtain ⟨hhand, hkeeps⟩ : Strokes saved k k₁ ∧ _ := transfer_strokes hl htransfer
    have hdest := hhand.write (f := fun e => { e with mailbox := { e.mailbox with dest } })
      (hkeeps cur hl) rfl (hkeeps cur hl) rfl
    exact hdest.write (isLive_updateEnv (hkeeps sender hls) fun hl => hl) rfl rfl rfl
  · exact (Strokes.write .refl hl rfl rfl rfl).quiet rfl

/-- A newcomer whose record is completed at once. -/
theorem joins_of_allocEnv {parent : EnvId} (ha : k.allocEnv parent = .ok (k₁, slot))
    (id : ∀ e : Env, (f e).id = e.id)
    (lives : ∀ e : Env, e.isLive = true → (f e).isLive = true)
    (registers : Supplied saved k (f (k₁.env slot)).registers) :
    Joins saved k slot (k₁.updateEnv slot f) := by
  obtain ⟨s, -, -, hdead, hnew, hothers, hcap, -, -⟩ := allocEnv_spec ha
  have hl := isLive_of_allocEnv ha
  have hrecord := env_updateEnv_self f hl
  exact {
    unused := hdead
    live := by
      rw [hrecord]
      exact lives _ hl
    id := by
      rw [hrecord, id, hnew]
      rfl
    registers := hrecord ▸ registers
    others := fun e he => (env_updateEnv_of_ne _ he).trans (hothers e he)
    capacity := (capacity_updateEnv _).trans hcap }

theorem fork_joins (h : k.fork = .ok (k', flow)) :
    ∃ slot k₁, Joins saved k slot k₁ ∧ k'.envs = k₁.envs := by
  obtain ⟨cur, k₁, slot, event, hc, ha, rfl, -⟩ := fork_eq_ok h
  have hj : Joins saved k slot (k₁.updateEnv slot fun child =>
      { child with
        registers := (k.env cur).registers
        heapBreak := (k.env cur).heapBreak
        pending := some 0 }) :=
    joins_of_allocEnv ha (fun _ => rfl) (fun _ hl => hl) (.of_live (caller_eq_ok.1 hc).2)
  exact ⟨slot, _, hj, rfl⟩

end Requests

theorem Course.refl : Course saved k k := .strokes .refl

theorem Course.quiet (envs : k'.envs = k.envs) : Course saved k k' :=
  .strokes (.single (.quiet envs))

/-- Strokes that end nobody come last. -/
theorem Course.trans (h : Course saved k k') (hs : Strokes saved k' k'')
    (lives : ∀ e, (k'.env e).isLive = true → (k''.env e).isLive = true) : Course saved k k'' := by
  cases h with
  | strokes h => exact .strokes (h.trans hs)
  | joins hj h hl => exact .joins hj (h.trans hs) (lives _ hl)

theorem course_ofCheck {c : Check (Kernel × Flow)}
    (h : ∀ k' flow, c = .ok (k', flow) → Course saved k k') :
    Course saved k (Reply.ofCheck k c).kernel := by
  cases c with
  | ok out => exact h out.1 out.2 rfl
  | error _ => exact .refl

/-- **Every request takes such a course.** -/
theorem perform_course (k : Kernel) (r : Request) : Course saved k (k.perform r).kernel := by
  cases r with
  | putBytes va len =>
    show Course saved k (k.putBytes va len).kernel
    rcases k.putBytes_cases va len with ⟨e, he⟩ | ⟨cur, fault, hc, he⟩ | ⟨console, he⟩ <;> rw [he]
    · exact .refl
    · exact .strokes (badPointer_strokes hc fault)
    · exact .quiet rfl
  | getByte =>
    obtain ⟨console, hfst⟩ := k.getByte_fst
    show Course saved k k.getByte.1
    rw [hfst]
    exact .quiet rfl
  | ownId =>
    refine course_ofCheck fun k' flow hok => ?_
    rw [ownId_eq_ok hok]
    exact .refl
  | destroyEnv id =>
    refine course_ofCheck fun k' flow hok => ?_
    obtain ⟨slot, event, ht, rfl, -⟩ := destroyEnv_eq_ok hok
    exact .strokes (note_clear_strokes (isLive_of_target ht) event)
  | mapKernelPage phys va =>
    refine course_ofCheck fun k' flow hok => ?_
    obtain ⟨cur, frame, s, memory, -, -, -, -, -, -, rfl, -⟩ := mapKernelPage_eq_ok hok
    exact .quiet rfl
  | yield =>
    refine course_ofCheck fun k' flow hok => ?_
    obtain ⟨cur, hc, rfl, -⟩ := yield_eq_ok hok
    have hl := (caller_eq_ok.1 hc).2
    exact .strokes (Strokes.write .refl hl rfl hl rfl)
  | fork =>
    refine course_ofCheck fun k' flow hok => ?_
    obtain ⟨slot, k₁, hj, henvs⟩ : ∃ slot k₁, Joins saved k slot k₁ ∧ _ := fork_joins hok
    refine .joins hj (.single (.quiet henvs)) ?_
    rw [show k'.env slot = k₁.env slot from congrArg (EnvTable.get · slot) henvs]
    exact hj.live
  | setStatus id status => exact course_ofCheck fun _ _ hok => .strokes (setStatus_strokes hok)
  | setRegisters id va => exact .strokes (setRegisters_strokes k id va)
  | setUpcall id va =>
    refine course_ofCheck fun k' flow hok => ?_
    obtain ⟨slot, upcall, ht, rfl, -⟩ := setUpcall_eq_ok hok
    have hl := isLive_of_target ht
    exact .strokes (Strokes.write .refl hl rfl hl rfl)
  | execCommit id => exact course_ofCheck fun _ _ hok => .strokes (execCommit_strokes hok)
  | pageAlloc id va word =>
    show Course saved k (k.pageAlloc id va word).kernel
    rcases k.pageAlloc_cases id va word with
      ⟨e, he⟩ | ⟨slot, s, perm, memory, -, ⟨e, -, he⟩ | ⟨-, event, he⟩⟩ <;> rw [he]
    · exact .refl
    · exact .quiet rfl
    · exact .quiet rfl
  | pageMap source sourceVa dest destVa perm =>
    refine course_ofCheck fun k' flow hok => ?_
    obtain ⟨src, dst, asked, srcSpace, dstSpace, frame, sourcePerm, memory, event, -, -, -, -, -,
      -, -, -, -, -, rfl, -⟩ := pageMap_eq_ok hok
    exact .quiet rfl
  | pageUnmap id va =>
    refine course_ofCheck fun k' flow hok => ?_
    obtain ⟨slot, s, -, -, -, rfl, -⟩ := pageUnmap_eq_ok hok
    exact .quiet rfl
  | send id value va word => exact course_ofCheck fun _ _ hok => .strokes (send_strokes hok)
  | receive va => exact course_ofCheck fun _ _ hok => .strokes (receive_strokes hok)
  | growHeap increment => exact .strokes (growHeap_strokes k increment)
  | unknown number => exact .quiet rfl

/-! ## Actions -/

theorem call_course (k : Kernel) (number : UInt32) (args : Args) :
    Course saved k (k.call number args).1 := by
  cases hcur : k.current with
  | none =>
    rw [call, hcur]
    exact .strokes (reschedule_strokes k)
  | some slot =>
    -- a turn is a series of strokes, too, and nobody ends by it
    refine (perform_course k (.ofWords number args)).trans ?_ fun e he =>
      ((Turns.call hcur number args).isLive e).trans he
    obtain ⟨log, hlog⟩ := k.dispatch_fst number args
    have hquiet : Strokes saved (k.perform (.ofWords number args)).kernel
        (k.dispatch number args).1 := by
      rw [hlog]
      exact .single (.quiet rfl)
    rw [call, hcur]
    simp only
    split
    · rename_i hr
      exact hquiet.trans (proceed_strokes (EnvTable.resolve_eq_some_iff.1 hr).2.1 _)
    · exact hquiet.trans (reschedule_strokes _)

/-- **Every action takes such a course**, if only admitted registers are saved. -/
theorem act_course (k : Kernel) (a : Action) (h : ∀ r, a = .capture r → saved r) :
    Course saved k (k.act a).1 := by
  cases a with
  | create parent entry stack =>
    unfold act
    simp only
    split
    · rename_i k' id hok
      obtain ⟨k₁, slot, event, ha, rfl⟩ := createEnv_eq_ok hok
      have hj : Joins saved k slot _ := joins_of_allocEnv ha
        (f := fun e => { e with registers := .newUser entry stack, status := .runnable })
        (fun _ => rfl) (fun _ _ => rfl) (.sanitized _)
      exact .joins hj (.single (.quiet rfl)) hj.live
    · exact .refl
  | run id =>
    cases hr : k.envs.resolve id with
    | none =>
      rw [act_run_of_none hr]
      exact .refl
    | some slot =>
      rw [act_run hr]
      exact .strokes (resume_strokes (EnvTable.resolve_eq_some_iff.1 hr).2.1)
  | capture registers =>
    show Course saved k (k.capture registers)
    unfold capture
    split
    · split
      · rename_i slot _ hl
        exact .strokes (.single (.write hl rfl hl (.saved (h registers rfl))))
      · exact .refl
    · exact .refl
  | call number args => exact call_course k number args

/-- Programs that read and write memory leave the table alone. -/
theorem envs_operate (k : Kernel) (op : Operation) (h : ∀ a, op ≠ .act a) :
    (k.operate op).1.envs = k.envs := by
  rcases k.operate_cases op with ⟨a, ha⟩ | haside
  · exact absurd ha (h a)
  · exact haside.envs

theorem operate_course (k : Kernel) (op : Operation)
    (h : ∀ r, op = .act (.capture r) → saved r) : Course saved k (k.operate op).1 := by
  rcases k.operate_cases op with ⟨a, rfl⟩ | haside
  · exact act_course k a fun r ha => h r (congrArg Operation.act ha)
  · exact .quiet haside.envs

/-! ## Ids tell slots -/

/-- **Ids are written only when somebody joins.**  What is true of the ids of all who live stays
  true if it is true of the next id of every slot. -/
theorem Course.ids {p : Nat → EnvId → Prop} (h : Course saved k k')
    (hcap : k.envs.capacity ≤ maxEnvs)
    (hnext : ∀ slot (last : EnvId), slot < maxEnvs → p slot (last.next slot))
    (hk : ∀ e, (k.env e).isLive = true → p e (k.env e).id) (e : Nat)
    (hl : (k'.env e).isLive = true) : p e (k'.env e).id := by
  cases h with
  | strokes hs =>
    rw [hs.id e]
    exact hk e (hs.isLive hl)
  | @joins k₁ _ slot hj hs =>
    rw [hs.id e]
    have hl₁ := hs.isLive hl
    by_cases heq : e = slot
    · subst heq
      have hslot : e < k.envs.capacity := hj.capacity ▸ lt_capacity_of_isLive hl₁
      rw [hj.id]
      exact hnext e _ (Nat.lt_of_lt_of_le hslot hcap)
    · rw [hj.others e heq] at hl₁ ⊢
      exact hk e hl₁

/-- Live environments are found where their ids say, and ids can say every slot. -/
structure Indexed (k : Kernel) : Prop where
  number : k.Numbered
  capacity : k.envs.capacity ≤ maxEnvs

theorem Course.indexed (h : Course saved k k') (hk : k.Indexed) : k'.Indexed where
  number := h.ids (p := fun slot i => i.slot = slot) hk.capacity
    (fun _ last hs => last.slot_next hs) hk.number
  capacity := by
    rw [h.capacity]
    exact hk.capacity

/-- Whoever is live keeps its id. -/
theorem Course.id (h : Course saved k k') (hl : (k.env e).isLive = true) :
    (k'.env e).id = (k.env e).id := by
  cases h with
  | strokes h => exact h.id e
  | joins hj h => rw [h.id e, hj.others e (ne_of_isLive hl hj.unused)]

theorem Indexed.perform (hk : k.Indexed) (r : Request) : (k.perform r).kernel.Indexed :=
  have hcourse : Course (fun _ => True) k (k.perform r).kernel := perform_course k r
  hcourse.indexed hk

theorem id_perform (hl : (k.env e).isLive = true) (r : Request) :
    ((k.perform r).kernel.env e).id = (k.env e).id :=
  have hcourse : Course (fun _ => True) k (k.perform r).kernel := perform_course k r
  hcourse.id hl

theorem Indexed.operate (hk : k.Indexed) (op : Operation) : (k.operate op).1.Indexed :=
  have hcourse : Course (fun _ => True) k (k.operate op).1 := operate_course k op fun _ _ => trivial
  hcourse.indexed hk

theorem Indexed.afterAll (history : List Operation) {k : Kernel} (hk : k.Indexed) :
    (k.afterAll history).Indexed := by
  induction history generalizing k with
  | nil => exact hk
  | cons op rest ih => exact ih (hk.operate op)

theorem indexed_boot {config : Config} {memory : Memory} {console : Console}
    (h : Kernel.boot config memory console = .ok k) : k.Indexed := by
  obtain ⟨hk, hcap⟩ := boot_eq_ok h
  refine ⟨fun e hl => ?_, ?_⟩
  · rw [env_boot h] at hl
    cases hl
  · rw [hk, EnvTable.capacity, EnvTable.ofCapacity, Array.size_replicate]
    exact hcap

end Exokernel.Kernel
