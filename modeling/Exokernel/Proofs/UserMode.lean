/-
  Nobody gets out of user mode.

  Whether code runs with privilege is decided by registers: the selectors of its segments, the
  flag that lets interrupts in, and the level that grants access to ports.  When an environment
  goes on, its saved registers are loaded as they are.  So the law is one about records: the
  registers of everybody who is live are those of user mode.

  The records of unused slots are all zero, which is not user mode, but nothing is ever copied
  from them.  What a record can get is listed by `Supplied`, and what programs write into memory
  has no part in it except through `sanitize`.
-/
import Exokernel.Proofs.Strokes

namespace Exokernel

namespace Registers

/-- The registers give no privilege, and interrupts get through. -/
structure UserMode (r : Registers) : Prop where
  cs : r.cs = 0x1B
  ds : r.ds = 0x23
  es : r.es = 0x23
  ss : r.ss = 0x23
  interrupts : r.eflags &&& 0x200 = 0x200
  noPrivilege : r.eflags &&& 0x3000 = 0

/-- What is put into a mask is in it. -/
theorem or_and_mask (flags mask : UInt32) : (flags ||| mask) &&& mask = mask := by
  rw [← UInt32.toBitVec_inj]
  ext i
  simp only [UInt32.toBitVec_and, UInt32.toBitVec_or, BitVec.getElem_and, BitVec.getElem_or]
  cases mask.toBitVec[i] <;> simp

theorem userMode_sanitize (r : Registers) : r.sanitize.UserMode where
  cs := rfl
  ds := rfl
  es := rfl
  ss := rfl
  interrupts := by
    -- the flag is no part of the level that is cleared after it is set
    show (r.eflags ||| 0x200) &&& ~~~0x3000 &&& 0x200 = 0x200
    rw [UInt32.and_assoc, show (~~~0x3000 &&& 0x200 : UInt32) = 0x200 by decide]
    exact or_and_mask r.eflags 0x200
  noPrivilege := by
    show (r.eflags ||| 0x200) &&& ~~~0x3000 &&& 0x3000 = 0
    rw [UInt32.and_assoc, show (~~~0x3000 &&& 0x3000 : UInt32) = 0 by decide]
    exact UInt32.and_zero

/-- A result does not bear on protection. -/
theorem UserMode.withResult {r : Registers} (h : r.UserMode) (eax : UInt32) :
    { r with eax }.UserMode :=
  ⟨h.cs, h.ds, h.es, h.ss, h.interrupts, h.noPrivilege⟩

end Registers

namespace Kernel

variable {k k' : Kernel} {config : Config} {memory : Memory} {console : Console} {slot : Nat}
  {r : Registers}

/-- Everybody who is live has registers of user mode. -/
def Unprivileged (k : Kernel) : Prop :=
  ∀ slot, (k.env slot).isLive = true → (k.env slot).registers.UserMode

/-- Nobody is privileged or becomes so by whatever comes next, as long as programs enter the
  kernel from user mode. -/
structure StaysUnprivileged (k : Kernel) : Prop where
  records : k.Unprivileged
  operations : ∀ op r, (∀ saved, op = .act (.capture saved) → saved.UserMode) →
    (k.operate op).2.next = some r → r.registers.UserMode
  entries : ∀ number args saved r, saved.UserMode →
    (k.enter number args saved).2 = some r → r.registers.UserMode
  traps : ∀ saved r, saved.UserMode → (k.trap saved).2 = some r → r.registers.UserMode

/-! ## What a record can get -/

theorem Supplied.userMode (h : Supplied Registers.UserMode k r) (hk : k.Unprivileged) :
    r.UserMode := by
  cases h with
  | held live result => exact (hk _ live).withResult result
  | sanitized r => exact r.userMode_sanitize
  | saved admitted => exact admitted

theorem Stroke.unprivileged (h : Stroke Registers.UserMode k k') (hk : k.Unprivileged) :
    k'.Unprivileged := by
  intro e hl
  cases h with
  | quiet envs =>
    rw [show k'.env e = k.env e from congrArg (EnvTable.get · e) envs] at hl ⊢
    exact hk e hl
  | write live id lives registers =>
    rw [env_updateEnv_eq _ live] at hl ⊢
    split
    · exact registers.userMode hk
    · rename_i hne
      rw [if_neg hne] at hl
      exact hk e hl
  | clear live =>
    rw [env_destroy live] at hl ⊢
    obtain ⟨hne, he⟩ := isLive_of_afterEnd hl
    have hregisters := hk e he
    -- a woken sender keeps its registers; the result is only pending
    unfold afterEnd
    rw [if_neg hne]
    split
    · exact hregisters
    · exact hregisters

theorem Strokes.unprivileged (h : Strokes Registers.UserMode k k') (hk : k.Unprivileged) :
    k'.Unprivileged := by
  induction h with
  | refl => exact hk
  | tail _ hlast ih => exact hlast.unprivileged ih

theorem Joins.unprivileged (h : Joins Registers.UserMode k slot k') (hk : k.Unprivileged) :
    k'.Unprivileged := by
  intro e hl
  by_cases heq : e = slot
  · subst heq
    exact h.registers.userMode hk
  · rw [h.others e heq] at hl ⊢
    exact hk e hl

theorem Course.unprivileged (h : Course Registers.UserMode k k') (hk : k.Unprivileged) :
    k'.Unprivileged := by
  cases h with
  | strokes h => exact h.unprivileged hk
  | joins hj h => exact h.unprivileged (hj.unprivileged hk)

/-! ## Histories -/

theorem unprivileged_boot (h : Kernel.boot config memory console = .ok k) : k.Unprivileged := by
  intro slot hl
  rw [env_boot h] at hl
  cases hl

theorem unprivileged_act (hk : k.Unprivileged) {a : Action}
    (ha : ∀ saved, a = .capture saved → saved.UserMode) : (k.act a).1.Unprivileged :=
  (act_course k a ha).unprivileged hk

theorem unprivileged_operate (hk : k.Unprivileged) {op : Operation}
    (hop : ∀ saved, op = .act (.capture saved) → saved.UserMode) :
    (k.operate op).1.Unprivileged :=
  (operate_course k op hop).unprivileged hk

theorem unprivileged_afterAll (history : List Operation) (k : Kernel) (hk : k.Unprivileged)
    (h : ∀ saved, .act (.capture saved) ∈ history → saved.UserMode) :
    (k.afterAll history).Unprivileged := by
  induction history generalizing k with
  | nil => exact hk
  | cons op rest ih =>
    refine ih _ (unprivileged_operate hk fun saved hop => h saved ?_) fun saved hmem =>
      h saved (List.mem_cons_of_mem _ hmem)
    exact hop ▸ List.mem_cons_self

/-- Whoever goes on does so with the registers of its record. -/
theorem Settled.userMode {out : Kernel × Option Resumption} {next : Resumption} (h : Settled out)
    (hk : out.1.Unprivileged) (hnext : out.2 = some next) : next.registers.UserMode := by
  obtain ⟨slot, hl, -, hregisters⟩ := h.record hnext
  exact hregisters ▸ hk slot hl

theorem userMode_act (hk : k.Unprivileged) {a : Action} {next : Resumption}
    (ha : ∀ saved, a = .capture saved → saved.UserMode) (hnext : (k.act a).2 = some next) :
    next.registers.UserMode :=
  (settled_act k a).userMode (unprivileged_act hk ha) hnext

theorem userMode_enter (hk : k.Unprivileged) {number : UInt32} {args : Args} {saved : Registers}
    {next : Resumption} (hsaved : saved.UserMode)
    (hnext : (k.enter number args saved).2 = some next) : next.registers.UserMode := by
  have hcaptured : (k.act (.capture saved)).1.Unprivileged :=
    unprivileged_act hk fun _ hsame => Action.capture.inj hsame ▸ hsaved
  exact userMode_act hcaptured (fun _ hsame => Action.noConfusion hsame)
    (show ((k.act (.capture saved)).1.act (.call number args)).2 = some next from hnext)

/-- **Nobody gets out of user mode.** -/
theorem stays_unprivileged (hboot : Kernel.boot config memory console = .ok k)
    (history : List Operation) (h : ∀ saved, .act (.capture saved) ∈ history → saved.UserMode) :
    (k.afterAll history).StaysUnprivileged := by
  have hk := unprivileged_afterAll history k (unprivileged_boot hboot) h
  refine ⟨hk, fun op next hop hnext => ?_, fun number args saved next hsaved hnext =>
    userMode_enter hk hsaved hnext, fun saved next hsaved hnext =>
    userMode_enter hk hsaved hnext⟩
  cases op with
  | act a =>
    refine userMode_act hk (fun saved ha => hop saved (congrArg Operation.act ha)) ?_
    rw [← next_answer]
    exact hnext
  | load id va len => cases hnext
  | store id va bytes =>
    unfold operate at hnext
    simp only at hnext
    split at hnext <;> cases hnext

/-- A program fills a page of its own with ones and asks for them as its registers. -/
def forging : List Operation :=
  [.act (.create .none 0 0), .act (.run ⟨4096⟩), .act (.call 11 #v[0, 0xB00000, 7, 0, 0]),
    .store ⟨4096⟩ ⟨0xB00000⟩ (.replicate 68 0xFF), .act (.capture (.newUser 0x20 0x1000)),
    .act (.call 8 #v[0, 0xB00000, 0, 0, 0])]

theorem stays_unprivileged_forging : (small.afterAll forging).StaysUnprivileged := by
  refine stays_unprivileged booted_small.boot forging fun saved hmem => ?_
  simp only [forging, List.mem_cons, Operation.act.injEq, Action.capture.injEq, reduceCtorEq,
    List.not_mem_nil, false_or, or_false] at hmem
  subst hmem
  exact Registers.userMode_sanitize _

end Kernel

end Exokernel
