/-
  Where a suspended call goes on.

  Registers are saved when the kernel is entered, and from then on they lie in the record of the
  caller until it is its turn.  Meanwhile others may run, for as long as they like.  Everything
  that they can do to the record is in the imprint of their calls, and only two of those imprints
  touch registers: that of a program that becomes its child, and that of registers that are
  loaded from somebody's memory.  `replaces` says which operations leave these two.

  So the record follows one rule from operation to operation, `Idled`, and the rule is handed on
  along a history until the turn comes.  Nothing is asked of memory, and programs may write there
  meanwhile.
-/
import Exokernel.Proofs.Imprints

namespace Exokernel

/-- From `e` to `e'`, an environment was passed over.  Its pending result stays, unless it is
  blocked. -/
structure Env.Idled (e e' : Env) : Prop where
  registers : e'.registers = e.registers
  blocked : e.isBlocked = false → e'.isBlocked = false
  pending : e.isBlocked = false → e'.pending = e.pending

namespace Env.Idled

variable {e e' e'' : Env}

theorem refl (e : Env) : e.Idled e := ⟨rfl, fun h => h, fun _ => rfl⟩

theorem trans (h : e.Idled e') (h' : e'.Idled e'') : e.Idled e'' where
  registers := h'.registers.trans h.registers
  blocked hb := h'.blocked (h.blocked hb)
  pending hb := (h'.pending (h.blocked hb)).trans (h.pending hb)

/-- Whoever is not blocked goes on as if it had not been passed over. -/
theorem resumed (h : e.Idled e') (hb : e.isBlocked = false) :
    e'.resumed.registers = e.resumed.registers := by
  unfold Env.resumed
  rw [h.registers, h.pending hb]

end Env.Idled

/-- A result is all that a turn adds to the registers. -/
theorem Env.registers_resumed (e : Env) :
    e.resumed.registers = { e.registers with eax := e.resumed.registers.eax } := by
  unfold resumed
  dsimp only
  split <;> rfl

namespace Kernel

variable {k k' : Kernel} {config : Config} {memory : Memory} {console : Console} {id : EnvId}
  {e : Nat} {e₀ : Env} {op : Operation} {ops : List Operation} {number : UInt32} {args : Args}
  {f registers : Registers} {next : Option Resumption}

/-! ## Histories until a turn -/

/-- The condition holds of every operation of a history. -/
def meanwhile (P : Kernel → Operation → Bool) : Kernel → List Operation → Bool
  | _, [] => true
  | k, op :: ops => P k op && meanwhile P (k.operate op).1 ops

/-- Does the operation give the environment in `e` other registers?  It does if `e` becomes its
  child by it, or if registers are loaded for `e`. -/
def replaces (k : Kernel) (e : Nat) : Operation → Bool
  | .act (.call number args) =>
    match Request.ofWords number args with
    | .execCommit id => decide (k.caller = .ok e) && (k.execCommit id).isOk
    | .setRegisters id va =>
      decide (k.target id .owned = .ok e) && (k.setRegisters id va).result.isOk
    | _ => false
  | _ => false

/-- Along a history the environment with the given id, in the slot `e`, is there until the last
  operation; it is not its turn before, and then it goes on with these registers. -/
inductive UntilTurn (id : EnvId) (e : Nat) : Kernel → List Operation → Registers → Prop where
  | now {k : Kernel} {op : Operation} {registers : Registers}
      (lives : k.envs.resolve id = some e)
      (goes : (k.operate op).2.next = some ⟨id, registers⟩) : UntilTurn id e k [op] registers
  | later {k : Kernel} {op : Operation} {ops : List Operation} {registers : Registers}
      (lives : k.envs.resolve id = some e)
      (passed : ∀ r, (k.operate op).2.next = some r → r.env ≠ id)
      (rest : UntilTurn id e (k.operate op).1 ops registers) :
      UntilTurn id e k (op :: ops) registers

theorem UntilTurn.lives (h : UntilTurn id e k ops registers) : k.envs.resolve id = some e := by
  cases h with
  | now lives => exact lives
  | later lives => exact lives

theorem settled_operate (k : Kernel) (op : Operation) :
    Settled ((k.operate op).1, (k.operate op).2.next) := by
  cases op with
  | act a =>
    show Settled ((k.act a).1, (k.answer a).next)
    rw [next_answer]
    exact settled_act k a
  | load id va len => exact settled_none _
  | store id va bytes =>
    unfold operate
    simp only
    split <;> exact settled_none _

/-- Whoever goes on does so in its own slot. -/
theorem goesOn_of_next (hk : k.Indexed) (lives : k.envs.resolve id = some e)
    (goes : (k.operate op).2.next = some ⟨id, registers⟩) :
    ∃ e₀, e₀.isLive = true ∧ GoesOn e e₀ (k.operate op).1 (some ⟨id, registers⟩) := by
  obtain ⟨slot, e₀, hl, hgoes⟩ := settled_operate k op _ goes
  have hnamed : (k.operate op).1.envs.resolve id = some slot := hgoes.named (hk.operate op) hl
  -- the id says which slot it is
  have hslot : e = slot :=
    (EnvTable.resolve_eq_some_iff.1 lives).1.symm.trans (EnvTable.resolve_eq_some_iff.1 hnamed).1
  rw [hslot]
  exact ⟨e₀, hl, hgoes⟩

/-- Whoever goes on is there. -/
theorem UntilTurn.stays (h : UntilTurn id e k (op :: ops) registers) (hk : k.Indexed) :
    (k.operate op).1.envs.resolve id = some e := by
  cases h with
  | later _ _ rest => exact rest.lives
  | now lives goes =>
    obtain ⟨e₀, hl, hgoes⟩ := goesOn_of_next hk lives goes
    exact hgoes.named (hk.operate op) hl

/-- After its turn has come nothing is pending for it any more. -/
theorem UntilTurn.spent (h : UntilTurn id e k ops registers) (hk : k.Indexed) :
    ((k.afterAll ops).env e).pending = none := by
  induction h with
  | now lives goes =>
    obtain ⟨e₀, -, hgoes⟩ := goesOn_of_next hk lives goes
    exact congrArg Env.pending hgoes.record
  | @later k op _ _ _ _ _ ih => exact ih (hk.operate op)

/-- After an operation by which somebody is passed over or goes on, it is at the end of such a
  history, or further along it. -/
theorem UntilTurn.turn (h : UntilTurn id e k (op :: ops) registers) (hk : k.Indexed)
    (hturn : Passed e e₀ (k.operate op).1 (k.operate op).2.next ∨
      GoesOn e e₀ (k.operate op).1 (k.operate op).2.next) :
    registers = e₀.resumed.registers ∨ UntilTurn id e (k.operate op).1 ops registers ∧
      (k.operate op).1.env e = e₀ ∧ (k.operate op).1.current ≠ some e := by
  have hid : ((k.operate op).1.env e).id = id := (EnvTable.resolve_eq_some_iff.1 (h.stays hk)).2.2
  cases h with
  | now lives goes =>
    rcases hturn with hpassed | hgoes
    · rw [hpassed.record] at hid
      exact absurd hid.symm (hpassed.next _ goes)
    · have hsame := Option.some.inj (goes.symm.trans hgoes.next)
      exact Or.inl (congrArg Resumption.registers hsame)
  | later lives passed rest =>
    rcases hturn with hpassed | hgoes
    · exact Or.inr ⟨rest, hpassed.record, hpassed.current⟩
    · rw [hgoes.record] at hid
      exact absurd hid (passed _ hgoes.next)

/-! ## What one operation leaves -/

/-- An imprint that replaces no registers. -/
theorem Imprint.registers_eq
    (h : Imprint k (.ofWords number args) (k.perform (.ofWords number args)) e)
    (hl : ((k.perform (.ofWords number args)).kernel.env e).isLive = true)
    (hquiet : k.replaces e (.act (.call number args)) = false) :
    ((k.perform (.ofWords number args)).kernel.env e).registers = (k.env e).registers := by
  cases h with
  | ended dead => exact absurd (dead.symm.trans hl) Bool.false_ne_true
  | kept _ registers => exact registers
  | setStatus _ _ _ _ record => rw [record]
  | loaded request target answer =>
    rw [request] at answer
    have hok : (k.setRegisters _ _).result.isOk = true := congrArg Except.isOk answer
    simp only [replaces, request, target, hok, decide_true, Bool.and_self] at hquiet
    cases hquiet
  | @adopts child request caller resume =>
    rw [request] at resume
    have hok : (k.execCommit child).isOk = true := by
      rw [ofCheck_eq_ok resume]
      rfl
    simp only [replaces, request, caller, hok, decide_true, Bool.and_self] at hquiet
    cases hquiet
  | blocks _ _ registers => exact registers
  | served _ _ registers => exact registers

/-- What somebody else's request leaves of whoever is still there. -/
theorem Imprint.idled
    (h : Imprint k (.ofWords number args) (k.perform (.ofWords number args)) e)
    (hl : ((k.perform (.ofWords number args)).kernel.env e).isLive = true)
    (hquiet : k.replaces e (.act (.call number args)) = false) (hc : k.caller ≠ .ok e) :
    (k.env e).Idled ((k.perform (.ofWords number args)).kernel.env e) := by
  have hregisters := h.registers_eq hl hquiet
  cases h with
  | ended dead => exact absurd (dead.symm.trans hl) Bool.false_ne_true
  | kept steady _ pending =>
    exact ⟨hregisters, (Env.isBlocked_congr steady.mailbox).trans, fun _ => pending hc⟩
  | setStatus _ _ _ _ record =>
    rw [record]
    exact ⟨rfl, fun hb => hb, fun _ => rfl⟩
  | loaded _ _ _ record =>
    refine ⟨hregisters, ?_, ?_⟩ <;> rw [record]
    · exact fun hb => hb
    · exact fun _ => rfl
  | adopts _ caller => exact absurd caller hc
  | blocks caller => exact absurd caller hc
  | served waited =>
    have hblocked : (k.env e).isBlocked ≠ false := by
      rw [waited.resolve_right hc]
      decide
    exact ⟨hregisters, fun hb => absurd hb hblocked, fun hb => absurd hb hblocked⟩

/-- The caller's own call leaves its registers, whether it goes on by it or not. -/
theorem call_own (hk : k.Indexed) (hc : k.caller = .ok e)
    (hl : ((k.call number args).1.env e).isLive = true)
    (hquiet : k.replaces e (.act (.call number args)) = false) :
    ∃ e₀, e₀.registers = (k.env e).registers ∧
      (Passed e e₀ (k.call number args).1 (k.call number args).2 ∨
        GoesOn e e₀ (k.call number args).1 (k.call number args).2) := by
  obtain ⟨hcur, hlive⟩ := caller_eq_ok.1 hc
  rw [(Turns.call hcur number args).isLive] at hl
  have hregisters := (perform_imprint hlive _).registers_eq hl hquiet
  cases call_turn hk hcur (fun _ => hlive) hl with
  | passed _ passed => exact ⟨_, hregisters, Or.inl passed⟩
  | picked _ _ goes => exact ⟨_, hregisters, Or.inr goes⟩
  | resumes _ _ goes => exact ⟨_, hregisters, Or.inr goes⟩
  | @answered value _ _ goes =>
    let answered := { (k.perform (.ofWords number args)).kernel.env e with pending := some value }
    exact ⟨answered, hregisters, Or.inr goes⟩

/-- An operation that is no call does nothing to an environment that does not run, or starts it. -/
theorem operate_others (hk : k.Numbered) (hl : (k.env e).isLive = true)
    (hcur : k.current ≠ some e) (hcall : ∀ number args, op ≠ .act (.call number args)) :
    Passed e (k.env e) (k.operate op).1 (k.operate op).2.next ∨
      GoesOn e (k.env e) (k.operate op).1 (k.operate op).2.next := by
  cases op with
  | act a =>
    show Passed e _ (k.act a).1 (k.answer a).next ∨ GoesOn e _ (k.act a).1 (k.answer a).next
    rw [next_answer]
    have hno : ∀ number args, a ≠ .call number args := fun number args ha =>
      hcall number args (congrArg Operation.act ha)
    exact (act_others hk hl hcur hno).imp_right And.right
  | load id va len => exact Or.inl (passed_of_unmoved hcur rfl rfl)
  | store id va bytes =>
    left
    unfold operate
    simp only
    split <;> exact passed_of_unmoved hcur rfl rfl

/-- **Whoever does not run keeps its registers**, whatever others do, and perhaps it is its turn. -/
theorem operate_idled (hk : k.Indexed) (hl : (k.env e).isLive = true)
    (hl' : ((k.operate op).1.env e).isLive = true) (hcur : k.current ≠ some e)
    (hquiet : k.replaces e op = false) :
    ∃ e₀, (k.env e).Idled e₀ ∧ (Passed e e₀ (k.operate op).1 (k.operate op).2.next ∨
      GoesOn e e₀ (k.operate op).1 (k.operate op).2.next) := by
  by_cases hcall : ∃ number args, op = .act (.call number args)
  swap
  · have hno : ∀ number args, op ≠ .act (.call number args) := fun number args hop =>
      hcall ⟨number, args, hop⟩
    exact ⟨k.env e, .refl _, operate_others hk.number hl hcur hno⟩
  obtain ⟨number, args, rfl⟩ := hcall
  show ∃ e₀, _ ∧ (Passed e e₀ (k.call number args).1 (k.call number args).2 ∨
    GoesOn e e₀ (k.call number args).1 (k.call number args).2)
  cases hrun : k.current with
  | none =>
    have hcall : k.call number args = k.reschedule := by rw [call, hrun]
    rw [hcall]
    exact ⟨k.env e, .refl _, (reschedule_turn hk.number hl).imp_right And.right⟩
  | some cur =>
    have hne : e ≠ cur := by
      rintro rfl
      exact hcur hrun
    have hlive : ((k.perform (.ofWords number args)).kernel.env e).isLive = true := by
      rw [← (Turns.call hrun number args).isLive]
      exact hl'
    have hidled := (perform_imprint hl _).idled hlive hquiet (caller_ne hcur)
    have hturn := (call_turn hk hrun (fun heq => absurd heq hne) hlive).others hne
    exact ⟨_, hidled, hturn.imp_right And.right⟩

/-! ## What a history leaves -/

/-- **At its next turn an environment goes on as it was left**, if it does not run and nothing
  replaces its registers. -/
theorem UntilTurn.resumed (h : UntilTurn id e k ops registers) (hk : k.Indexed)
    (hcur : k.current ≠ some e)
    (hquiet : meanwhile (fun k op => !k.replaces e op) k ops = true) :
    ∃ e₀, (k.env e).Idled e₀ ∧ registers = e₀.resumed.registers := by
  induction ops generalizing k with
  | nil => cases h
  | cons op ops ih =>
    obtain ⟨hnow, hrest⟩ := Bool.and_eq_true_iff.1 hquiet
    have hl : (k.env e).isLive = true := (EnvTable.resolve_eq_some_iff.1 h.lives).2.1
    have hl' : ((k.operate op).1.env e).isLive = true :=
      (EnvTable.resolve_eq_some_iff.1 (h.stays hk)).2.1
    obtain ⟨e₀, hidled, hturn⟩ := operate_idled hk hl hl' hcur ((Bool.not_eq_true' _).mp hnow)
    rcases h.turn hk hturn with hgoes | ⟨hlater, henv, hcur'⟩
    · exact ⟨e₀, hidled, hgoes⟩
    · obtain ⟨e₁, hidled', hgoes⟩ := ih hlater (hk.operate op) hcur' hrest
      exact ⟨e₁, hidled.trans (henv ▸ hidled'), hgoes⟩

/-! ## Entering the kernel -/

/-- To enter the kernel is to have the registers saved and to make a call. -/
def entering (number : UInt32) (args : Args) (f : Registers) : List Operation :=
  [.act (.capture f), .act (.call number args)]

example (k : Kernel) (number : UInt32) (args : Args) (f : Registers) :
    k.afterAll (entering number args f) = (k.enter number args f).1 := rfl

/-- The registers of whoever runs are saved in its own record. -/
theorem capture_own (hc : k.caller = .ok e) (f : Registers) :
    (k.capture f).caller = .ok e ∧ ((k.capture f).env e).registers = f := by
  obtain ⟨hcur, hl⟩ := caller_eq_ok.1 hc
  have hcapture : k.capture f = k.updateEnv e fun e => { e with registers := f } := by
    simp only [capture, hcur, hl, if_true]
  have hrecord := env_updateEnv_self (fun e => { e with registers := f }) hl
  rw [hcapture, hrecord]
  refine ⟨caller_eq_ok.2 ⟨hcur, ?_⟩, rfl⟩
  rw [hrecord]
  exact hl

/-- **A suspended call goes on exactly where it was made.**  Whoever enters the kernel with the
  registers `f` has them at its next turn, the result apart, if nothing replaces them. -/
theorem resumes_where_entered (hboot : Kernel.boot config memory console = .ok k)
    (past future : List Operation) (hcur : (k.afterAll past).current = some e)
    (hnext : UntilTurn id e (k.afterAll past) (entering number args f ++ future) registers)
    (hquiet : meanwhile (fun k op => !k.replaces e op) (k.afterAll past)
      (entering number args f ++ future) = true) :
    registers = { f with eax := registers.eax } := by
  have hk : (k.afterAll past).Indexed := (indexed_boot hboot).afterAll past
  have hc : (k.afterAll past).caller = .ok e :=
    caller_eq_ok.2 ⟨hcur, (EnvTable.resolve_eq_some_iff.1 hnext.lives).2.1⟩
  generalize k.afterAll past = k at *
  obtain ⟨hc', hsaved⟩ := capture_own hc f
  have hk' : (k.capture f).Indexed := hk.operate (.act (.capture f))
  -- nobody goes on when registers are saved
  have hrest : UntilTurn id e (k.capture f) (.act (.call number args) :: future) registers := by
    cases hnext with
    | later _ _ rest => exact rest
  obtain ⟨hnow, hlater⟩ : (!(k.capture f).replaces e (.act (.call number args))) = true ∧
      meanwhile (fun k op => !k.replaces e op) ((k.capture f).call number args).1 future = true :=
    Bool.and_eq_true_iff.1 (Bool.and_eq_true_iff.1 hquiet).2
  obtain ⟨e₀, hregisters, hturn⟩ := call_own hk' hc'
    (EnvTable.resolve_eq_some_iff.1 (hrest.stays hk')).2.1 ((Bool.not_eq_true' _).mp hnow)
  rw [hsaved] at hregisters
  rcases hrest.turn hk' hturn with hgoes | ⟨hafter, henv, hcur'⟩
  · rw [hgoes, ← hregisters]
    exact e₀.registers_resumed
  · obtain ⟨e₁, hidled, hgoes⟩ := hafter.resumed (hk'.operate _) hcur' hlater
    have hkept : e₁.registers = f := by rw [hidled.registers, henv, hregisters]
    rw [hgoes, ← hkept]
    exact e₁.registers_resumed

/-- Registers with which the first of two environments enters the kernel to receive a word. -/
def onEntry : Registers :=
  { edi := 1, esi := 2, ebp := 3, ebx := 4, edx := 0xEEC00000, ecx := 5, eax := 15, eip := 0x800020
    eflags := 0x202, esp := 0xEEBFDFF0 }

/-- It receives, the second environment sends it a word and gives way. -/
def receiveInTurn : List Operation :=
  entering onEntry.eax #v[onEntry.edx, onEntry.ecx, onEntry.ebx, onEntry.edi, onEntry.esi]
    onEntry ++ [.act sendWord, .act giveWay]

theorem untilTurn_receiveInTurn :
    ∃ registers,
      UntilTurn ⟨4096⟩ 0 (small.afterAll (twoThere.map .act)) receiveInTurn registers := by
  refine ⟨{ onEntry with eax := 0 }, .later (by decide +kernel) (fun r hr => nomatch hr) ?_⟩
  refine .later (by decide +kernel) (passed_of_next ⟨4097⟩ (by decide +kernel) (by decide)) ?_
  refine .later (by decide +kernel) (passed_of_next ⟨4097⟩ (by decide +kernel) (by decide)) ?_
  exact .now (by decide +kernel) (by decide +kernel)

/-- The word comes while it is suspended, and it goes on where it was. -/
theorem resumes_where_entered_receiveInTurn :
    ∃ registers,
      UntilTurn ⟨4096⟩ 0 (small.afterAll (twoThere.map .act)) receiveInTurn registers ∧
        registers = { onEntry with eax := registers.eax } := by
  obtain ⟨registers, hnext⟩ := untilTurn_receiveInTurn
  exact ⟨registers, hnext, resumes_where_entered booted_small.boot _ _ (by decide +kernel) hnext
    (by decide +kernel)⟩

end Kernel

end Exokernel
