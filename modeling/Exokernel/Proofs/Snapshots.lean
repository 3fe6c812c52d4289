/-
  Registers that one environment loads for another.

  A parent that prepares a child puts the registers of the child into its own memory and has the
  kernel load them.  What is loaded is what lies there, put into user mode, and it stays until it
  is the turn of the child.

  But a record has a second place from which a register is restored.  A pending result goes into
  the return register when its environment goes on, and loading registers leaves it where it is.
  A child that was forked has one, and so has everybody who gave way.  For them the return
  register of what was loaded is lost.
-/
import Exokernel.Proofs.Resuming

namespace Exokernel

open Registers (byteCount decode)

@[simp] theorem Registers.result_sanitize (r : Registers) : r.sanitize.result = r.result := rfl

/-- A turn leaves the registers as they are exactly if no other result is pending. -/
theorem Env.registers_resumed_eq_iff (e : Env) : e.resumed.registers = e.registers ↔
    ∀ value, e.pending = some value → value = e.registers.result := by
  cases hp : e.pending with
  | none =>
    have hsame : e.resumed.registers = e.registers := by
      unfold resumed
      rw [hp]
    exact ⟨fun _ _ hvalue => (nomatch hvalue), fun _ => hsame⟩
  | some value =>
    have hset : e.resumed.registers = e.registers.setResult value := by
      unfold resumed
      rw [hp]
    rw [hset]
    constructor
    · intro hsame value' hvalue
      obtain rfl : value = value' := Option.some.inj hvalue
      have heax : value.toUInt32 = e.registers.eax := congrArg Registers.eax hsame
      rw [Registers.result, ← heax, Int32.toInt32_toUInt32]
    · intro h
      rw [h value rfl, Registers.setResult, Registers.result, UInt32.toUInt32_toInt32]

/-- The environment after registers were loaded for it. -/
def Env.load (e : Env) (r : Registers) : Env := { e with registers := r.sanitize }

theorem Env.isBlocked_load (e : Env) (r : Registers) : (e.load r).isBlocked = e.isBlocked :=
  isBlocked_congr rfl

/-- Loaded registers are what is found exactly if no other result is pending. -/
theorem Env.registers_load_eq_iff (e : Env) (r : Registers) :
    (e.load r).resumed.registers = r.sanitize ↔
      ∀ value, e.pending = some value → value = r.result := by
  rw [← Registers.result_sanitize]
  exact (e.load r).registers_resumed_eq_iff

namespace Kernel

variable {k : Kernel} {config : Config} {memory : Memory} {console : Console} {id : EnvId}
  {va : VirtAddr} {number : UInt32} {args : Args} {c e : Nat} {b : Vector UInt8 byteCount}
  {r : Registers}

/-- The environment in `c` may read the bytes at `va`, and `b` is what it reads there. -/
def Reads (k : Kernel) (c : Nat) (va : VirtAddr) (b : Vector UInt8 byteCount) : Prop :=
  ∃ s, (k.env c).space = some s ∧ (k.memory.checkRange s va byteCount .read).isOk = true ∧
    (k.memory.readBytes s va byteCount).complete = .ok b.toArray

/-- A range that passes the check is the one that was asked for. -/
theorem checkRange_of_isOk {m : Memory} {s : SpaceId} {len : Nat} {access : Access}
    (h : (m.checkRange s va len access).isOk = true) :
    m.checkRange s va len access = .ok ⟨va, len⟩ := by
  unfold Memory.checkRange at h ⊢
  split
  · rfl
  rename_i hlen
  rw [if_neg hlen] at h
  split
  · rename_i hstop
    rw [hstop] at h
    cases h
  · rename_i stop hstop
    rw [hstop] at h
    simp only at h ⊢
    split
    · rename_i fault hfault
      rw [hfault] at h
      cases h
    · rfl

theorem ofBytes_toArray (b : Vector UInt8 byteCount) :
    Registers.ofBytes? b.toArray = some (decode b) := by
  rw [Registers.ofBytes?, dif_pos b.size_toArray]

/-- What lies in the memory of the caller is loaded. -/
theorem setRegisters_of_reads (hc : k.caller = .ok c) (ht : k.target id .owned = .ok e)
    (hreads : k.Reads c va b) : k.setRegisters id va =
      ⟨k.updateEnv e fun e => e.load (decode b), .ok (.answer 0)⟩ := by
  obtain ⟨s, hs, hcheck, hread⟩ := hreads
  have hrange : k.userRange c va byteCount .read = .ok ⟨va, byteCount⟩ := by
    rw [userRange, hs]
    exact checkRange_of_isOk hcheck
  have hcopy : k.copyIn c ⟨va, byteCount⟩ = .ok b.toArray := by
    simp only [copyIn, spaceOf, Check.bind_eq_ok, Check.present_eq_ok]
    refine ⟨s, hs, ?_⟩
    rw [Memory.copyIn, hread]
    rfl
  simp only [setRegisters, hc, hrange]
  let loaded := k.updateEnv e fun e => e.load (decode b)
  refine (congrArg (Reply.ofCheck k) (?_ : _ = .ok (loaded, .answer 0))).trans rfl
  simp only [Check.bind_eq_ok, Check.present_eq_ok, Check.pure_eq_ok]
  exact ⟨e, ht, b.toArray, hcopy, decode b, ofBytes_toArray b, rfl⟩

/-- Whoever has registers loaded for somebody else goes on, and the other does not. -/
theorem call_loads (hk : k.Indexed) (hreq : Request.ofWords number args = .setRegisters id va)
    (hc : k.caller = .ok c) (ht : k.target id .owned = .ok e) (hne : e ≠ c)
    (hloads : k.setRegisters id va =
      ⟨k.updateEnv e fun e => e.load r, .ok (.answer 0)⟩) :
    Returns (k.call number args).2 (k.env c).id 0 ∧
      (k.call number args).1.env e = (k.env e).load r ∧
      (k.call number args).1.current ≠ some e := by
  have hlc := (caller_eq_ok.1 hc).2
  have hle := isLive_of_target ht
  have hdone : k.perform (.ofWords number args) =
      ⟨k.updateEnv e fun e => e.load r, .ok (.answer 0)⟩ := by
    rw [hreq]
    exact hloads
  have hcaller : (k.perform (.ofWords number args)).kernel.env c = k.env c := by
    rw [hdone]
    exact env_updateEnv_of_ne _ (Ne.symm hne)
  have htarget : (k.perform (.ofWords number args)).kernel.env e =
      (k.env e).load r := by
    rw [hdone]
    exact env_updateEnv_self (fun e => e.load r) hle
  have hflow : (k.perform (.ofWords number args)).flow = .answer 0 :=
    flow_of_result (by rw [hdone])
  obtain ⟨hgoes, hothers⟩ := call_answered hk hc (by rw [hcaller]; exact hlc) hflow
  rw [hcaller] at hgoes
  have hpassed := hothers e hne (by rw [htarget]; exact hle)
  exact ⟨hgoes.returns rfl, hpassed.record.trans htarget, hpassed.current⟩

/-- **Loaded registers are what their environment goes on with**, but for a result that is still
  pending.  The call succeeds, and at the next turn of its target, which is not blocked, all
  registers are those that were loaded exactly if nothing else is pending for it. -/
theorem loaded_until_turn (hboot : Kernel.boot config memory console = .ok k)
    (past : List Operation) (hreq : Request.ofWords number args = .setRegisters id va)
    (hc : (k.afterAll past).caller = .ok c) (ht : (k.afterAll past).target id .owned = .ok e)
    (hne : e ≠ c) (hblocked : ((k.afterAll past).env e).isBlocked = false)
    (hreads : (k.afterAll past).Reads c va b) :
    Returns ((k.afterAll past).call number args).2 ((k.afterAll past).env c).id 0 ∧
      ∀ future registers,
        UntilTurn ((k.afterAll past).env e).id e ((k.afterAll past).call number args).1 future
          registers →
        meanwhile (fun k op => !k.replaces e op) ((k.afterAll past).call number args).1 future =
          true →
        registers =
            (((k.afterAll past).env e).load (decode b)).resumed.registers ∧
          (registers = (decode b).sanitize ↔
            ∀ value, ((k.afterAll past).env e).pending = some value →
              value = (decode b).result) := by
  have hk : (k.afterAll past).Indexed := (indexed_boot hboot).afterAll past
  generalize k.afterAll past = k at *
  obtain ⟨hreturns, hrecord, hcur⟩ := call_loads hk hreq hc ht hne
    (setRegisters_of_reads hc ht hreads)
  refine ⟨hreturns, fun future registers hnext hquiet => ?_⟩
  obtain ⟨e₀, hidled, hgoes⟩ := hnext.resumed (hk.operate (.act (.call number args))) hcur hquiet
  rw [hrecord] at hidled
  have hsame := hgoes.trans (hidled.resumed (((k.env e).isBlocked_load (decode b)).trans hblocked))
  refine ⟨hsame, ?_⟩
  rw [hsame]
  exact (k.env e).registers_load_eq_iff (decode b)

/-! ## Two children -/

/-- Where a parent puts the registers of its child. -/
def imageVa : UInt32 := 0x900000

/-- A zeroed page is mapped there. -/
def prepareImage : Action := .call 11 #v[0, imageVa, 7, 0, 0]

/-- The arguments with which registers are loaded for the given child. -/
def loadImage (child : UInt32) : Args := #v[child, imageVa, 0, 0, 0]

/-- What lies there. -/
def image : Vector UInt8 byteCount := .replicate byteCount 0

theorem request_loadImage (child : UInt32) :
    Request.ofWords 8 (loadImage child) =
      .setRegisters ⟨child⟩ (Request.virt imageVa) := rfl

/-- The second environment is a child of the first, which runs and has prepared an image. -/
def newChild : List Operation :=
  [.act (.create .none 0 0), .act (.create ⟨4096⟩ 0x800020 0xEEBFE000), .act (.run ⟨4096⟩),
    .act prepareImage]

theorem reads_newChild : (small.afterAll newChild).Reads 0 (Request.virt imageVa) image :=
  ⟨⟨0⟩, by decide +kernel, by decide +kernel, by decide +kernel⟩

/-- The parent loads the image for its child and gives way. -/
theorem untilTurn_newChild :
    ∃ registers, UntilTurn ⟨4097⟩ 1 ((small.afterAll newChild).call 8 (loadImage 4097)).1
      [.act giveWay] registers :=
  ⟨(decode image).sanitize, .now (by decide +kernel) (by decide +kernel)⟩

/-- Nothing is pending for the child, and it goes on with all that was loaded. -/
theorem loaded_until_turn_newChild :
    Returns ((small.afterAll newChild).call 8 (loadImage 4097)).2 ⟨4096⟩ 0 ∧
      ∃ registers, UntilTurn ⟨4097⟩ 1 ((small.afterAll newChild).call 8 (loadImage 4097)).1
        [.act giveWay] registers ∧ registers = (decode image).sanitize := by
  have hids : ((small.afterAll newChild).env 0).id = ⟨4096⟩ ∧
      ((small.afterAll newChild).env 1).id = ⟨4097⟩ := by decide +kernel
  have hpending : ((small.afterAll newChild).env 1).pending = none := by decide +kernel
  obtain ⟨registers, hnext⟩ := untilTurn_newChild
  obtain ⟨hreturns, hturn⟩ := loaded_until_turn booted_small.boot newChild
    (request_loadImage 4097) (by decide +kernel) (e := 1) (by decide +kernel) (by decide)
    (by decide +kernel) reads_newChild
  rw [hids.1, hids.2] at *
  obtain ⟨-, hiff⟩ := hturn _ registers hnext (by decide +kernel)
  rw [hpending] at hiff
  exact ⟨hreturns, registers, hnext, hiff.2 nofun⟩

/-- The second environment is a child that the first has forked and started.  It was blocked on a
  word to the third, which has ended, and has not gone on since. -/
def orphanedChild : List Operation :=
  childStarted.map .act ++
    [.act (.create .none 0 0), .act (.call 14 #v[4098, 7, 0xEEC00000, 0, 0]),
      .act (.call 3 (.replicate 5 0)), .act prepareImage]

/-- The parent loads the image for this child and gives way, and the child goes on with the result
  of its message in place of the register that was loaded. -/
theorem orphanedChild_loses_result :
    (small.afterAll orphanedChild).caller = .ok 0 ∧
      (small.afterAll orphanedChild).target ⟨4097⟩ .owned = .ok 1 ∧
      ((small.afterAll orphanedChild).env 1).isBlocked = false ∧
      (small.afterAll orphanedChild).Reads 0 (Request.virt imageVa) image ∧
      ((small.afterAll orphanedChild).perform (.ofWords 8 (loadImage 4097))).result =
        .ok (.answer 0) ∧
      UntilTurn ⟨4097⟩ 1 ((small.afterAll orphanedChild).call 8 (loadImage 4097)).1 [.act giveWay]
        { (decode image).sanitize with eax := CallError.badEnv.code.toUInt32 } ∧
      (decode image).sanitize.eax ≠ CallError.badEnv.code.toUInt32 := by
  refine ⟨by decide +kernel, by decide +kernel, by decide +kernel, ?_, by decide +kernel,
    .now (by decide +kernel) (by decide +kernel), by decide +kernel⟩
  exact ⟨⟨0⟩, by decide +kernel, by decide +kernel, by decide +kernel⟩

end Kernel

end Exokernel
