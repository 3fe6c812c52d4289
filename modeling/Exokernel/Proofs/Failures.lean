/-
  Failed calls.

  A call that fails with anything but a bad pointer leaves the kernel as it was; its caller alone
  notices, and all that it notices is the code of the error.  The heap is the exception that is
  left out here, for its pages are mapped one by one.

  For most calls there is nothing to show: an error comes without a new kernel.  Allocating a
  page is different.  By the time the page turns out not to fit, a frame was taken, zeroed and
  given back.  The contents of that free frame are lost, and `FramePool.Alike` says that this is
  the only trace.
-/
import Exokernel.Proofs.Conservation
import Exokernel.Proofs.Turns

namespace Exokernel

/-! ## Traces in memory -/

/-- The pools `p` and `p'` differ at most in what is left behind in free frames. -/
structure FramePool.Alike (p p' : FramePool) : Prop where
  extent : p'.extent = p.extent
  misuse : p'.misuse = p.misuse
  freeCount : p'.freeCount = p.freeCount
  refCount : ∀ f, p'.refCount f = p.refCount f
  isAllocated : ∀ f, p'.isAllocated f = p.isAllocated f
  page? : ∀ f, p'.page? f = p.page? f

namespace FramePool

theorem Alike.refl (p : FramePool) : p.Alike p :=
  ⟨rfl, rfl, rfl, fun _ => rfl, fun _ => rfl, fun _ => rfl⟩

/-- As many frames are free as before when the same ones are in use. -/
theorem freeCount_congr {p p' : FramePool} (h : p.Sound) (h' : p'.Sound)
    (extent : p'.extent = p.extent) (isAllocated : ∀ f, p'.isAllocated f = p.isAllocated f) :
    p'.freeCount = p.freeCount := by
  obtain ⟨hbase, hsize⟩ := Prod.mk.inj extent
  have hallocated : p'.allocated = p.allocated := by
    unfold allocated frames frameAt
    rw [hbase, hsize]
    exact List.filter_congr fun f _ => isAllocated f
  have hcount := freeCount_add_allocated h
  have hcount' := freeCount_add_allocated h'
  rw [hallocated, hsize] at hcount'
  omega

/-- Rewriting the record of a free frame leaves a pool that is alike, if the frame stays free and
  its count stays. -/
theorem Rewrites.alike {p p' : FramePool} {f : Frame} {c d : Cell} (h : p.Rewrites p' f d)
    (hs : p.Sound) (hs' : p'.Sound) (hc : p.cell? f = some c) (free : c.inUse = false)
    (free' : d.inUse = false) (refs : d.refs = c.refs) : p.Alike p' := by
  have hd : p'.cell? f = some d := by rw [h.cell f, if_pos rfl]
  have hother : ∀ g, g ≠ f → p'.cell? g = p.cell? g := fun g hg => by rw [h.cell g, if_neg hg]
  have hunmanaged : ∀ {q : FramePool} {g : Frame}, q.cell? g = none → q.refCount g = 0 := by
    intro q g hq
    have hi : q.index? g = none := Option.map_eq_none_iff.1 hq
    simp only [refCount, hi]
  have hisAllocated : ∀ g, p'.isAllocated g = p.isAllocated g := by
    intro g
    rw [Bool.eq_iff_iff, isAllocated_iff, isAllocated_iff]
    by_cases hg : g = f
    · subst hg
      simp only [hd, hc, Option.some.injEq, exists_eq_left', free, free']
    · rw [hother g hg]
  refine ⟨h.extent, h.misuse, freeCount_congr hs hs' h.extent hisAllocated, fun g => ?_,
    hisAllocated, fun g => ?_⟩
  · by_cases hg : g = f
    · subst hg
      rw [refCount_of_cell? hd, refCount_of_cell? hc, refs]
    · have hsame := hother g hg
      cases hpg : p.cell? g with
      | none => rw [hunmanaged hpg, hunmanaged (hsame.trans hpg)]
      | some b => rw [refCount_of_cell? hpg, refCount_of_cell? (hsame.trans hpg)]
  · rw [page?_eq, page?_eq]
    by_cases hg : g = f
    · subst hg
      simp only [hd, hc, Option.filter_some, free, free', Bool.false_eq_true, if_false,
        Option.map_none]
    · rw [hother g hg]

end FramePool

namespace Memory

/-- The memories `m` and `m'` differ at most in what is left behind in free frames. -/
structure Alike (m m' : Memory) : Prop where
  pool : m.pool.Alike m'.pool
  spaces : m'.spaces = m.spaces
  active : m'.active = m.active

theorem Alike.refl (m : Memory) : m.Alike m := ⟨.refl _, rfl, rfl⟩

/-- **A page that cannot be mapped leaves no trace** but in the free frame that was tried. -/
theorem mapFresh_failed {m m' : Memory} {pins : List Frame} {s : SpaceId} {va : VirtAddr}
    {perm : Perm} {e : MappingError} (h : m.Balanced pins [])
    (hf : m.mapFresh s va perm = (m', some e)) : m.Alike m' := by
  unfold mapFresh allocPage at hf
  cases ha : m.pool.alloc? with
  | none =>
    simp only [ha, Prod.mk.injEq] at hf
    obtain ⟨rfl, -⟩ := hf
    exact .refl m
  | some taken =>
    obtain ⟨pool, f⟩ := taken
    obtain ⟨hs, hw, c, hc, hfree⟩ := FramePool.alloc?_spec h.accounts.sound ha
    have hcell : pool.cell? f = some { inUse := true } := by rw [hw.cell f, if_pos rfl]
    simp only [ha] at hf
    split at hf
    · obtain ⟨rfl, -⟩ := Prod.mk.inj hf
      rw [freePage_fresh hcell]
      obtain ⟨hs', hw'⟩ := FramePool.reclaim_spec hs hcell rfl rfl
      -- a frame that was free had no references, and it has none when it is free again
      have hrefs : c.refs = 0 := by
        obtain ⟨hheld, -⟩ := h.accounts.not_mem_of_free ⟨c, hc, hfree⟩
        obtain ⟨hcount, -⟩ := h.accounts.counted f c hc
        rw [List.count_eq_zero.2 hheld] at hcount
        exact UInt16.toNat_inj.1 hcount
      exact ⟨(hw.trans hw').alike h.accounts.sound hs' hc hfree rfl hrefs.symm, rfl, rfl⟩
    · cases hf

end Memory

/-- The record of an environment that goes on with the given result. -/
def Env.answered (e : Env) (value : Int32) : Env :=
  { e with
    registers := { e.registers with eax := value.toUInt32 }
    pending := none
    runs := e.runs + 1 }

namespace EnvTable

/-- A table is known by its records. -/
theorem ext_get {t t' : EnvTable} (hcap : t'.capacity = t.capacity)
    (hget : ∀ slot, t'.get slot = t.get slot) : t' = t := by
  have hslots : t'.slots = t.slots := by
    refine Array.ext hcap fun i hi hi' => ?_
    have h := hget i
    simpa only [get, Array.getD_eq_getD_getElem?, Array.getElem?_eq_getElem hi,
      Array.getElem?_eq_getElem hi', Option.getD_some] using h
  cases t
  cases t'
  exact congrArg EnvTable.mk hslots

end EnvTable

namespace Kernel

variable {pins : List Frame} {k k' : Kernel} {cur : Nat} {e : CallError}

/-! ## What a failed call leaves -/

/-- From `k` to `k'`, nothing happens but for the log and what is left behind in free frames. -/
structure Unchanged (k k' : Kernel) : Prop where
  envs : k'.envs = k.envs
  memory : k.memory.Alike k'.memory
  console : k'.console = k.console
  config : k'.config = k.config
  current : k'.current = k.current

theorem Unchanged.refl (k : Kernel) : k.Unchanged k := ⟨rfl, .refl _, rfl, rfl, rfl⟩

theorem envs_answer (k : Kernel) (slot : Nat) (value : Int32) :
    (k.proceed slot (.answer value)).1.envs = k.envs.update slot fun e => e.answered value := by
  let answered := k.updateEnv slot fun e => { e with pending := some value }
  have henvs : (k.proceed slot (.answer value)).1.envs =
      answered.envs.update slot fun _ => (answered.env slot).resumed :=
    (memory_activate _ _).2.2
  have hcap : answered.envs.capacity = k.envs.capacity := EnvTable.capacity_update _ _ _
  rw [henvs]
  refine EnvTable.ext_get (by simp [answered, updateEnv]) fun e => ?_
  by_cases he : e = slot
  · subst he
    rcases Nat.lt_or_ge e k.envs.capacity with hlt | hge
    · rw [EnvTable.get_update_self _ _ (by rw [hcap]; exact hlt), EnvTable.get_update_self _ _ hlt,
        env, show answered.envs.get e = _ from EnvTable.get_update_self _ _ hlt]
      rfl
    · rw [EnvTable.get_of_le _ (by rw [EnvTable.capacity_update, hcap]; exact hge),
        EnvTable.get_of_le _ (by rw [EnvTable.capacity_update]; exact hge)]
  · rw [EnvTable.get_update_of_ne _ _ he, EnvTable.get_update_of_ne _ _ he]
    exact EnvTable.get_update_of_ne _ _ he

/-- From `k` to `k'`, the environment in `cur` is answered with `code`, and all else is as it
  was. -/
structure OnlyAnswered (k k' : Kernel) (cur : Nat) (code : Int32) (next : Option Resumption) :
    Prop where
  envs : k'.envs = k.envs.update cur fun e => e.answered code
  spaces : k'.memory.spaces = k.memory.spaces
  lookup : ∀ s va, k'.memory.lookup s va = k.memory.lookup s va
  isAllocated : ∀ f, k'.memory.pool.isAllocated f = k.memory.pool.isAllocated f
  refCount : ∀ f, k'.memory.pool.refCount f = k.memory.pool.refCount f
  freeCount : k'.memory.pool.freeCount = k.memory.pool.freeCount
  /-- The contents of every frame in use. -/
  page? : ∀ f, k'.memory.pool.page? f = k.memory.pool.page? f
  console : k'.console = k.console
  current : k'.current = some cur
  active : ∃ s, (k.env cur).space = some s ∧ (k.memory.directory? s).isSome = true ∧
    k'.memory.active = some s
  next : next = some ⟨(k.env cur).id, { (k.env cur).registers with eax := code.toUInt32 }⟩

/-- A caller whose request failed and changed nothing is answered, and nothing else happens. -/
theorem onlyAnswered_of_unchanged (hk : k.Sound pins) (hc : k.caller = .ok cur) {number : UInt32}
    {args : Args} (herror : (k.perform (.ofWords number args)).result = .error e)
    (hquiet : k.Unchanged (k.perform (.ofWords number args)).kernel) :
    OnlyAnswered k (k.call number args).1 cur e.code (k.call number args).2 := by
  have hl := (caller_eq_ok.1 hc).2
  have hsame : (k.perform (.ofWords number args)).kernel.env cur = k.env cur :=
    congrArg (EnvTable.get · cur) hquiet.envs
  have hl' : ((k.perform (.ofWords number args)).kernel.env cur).isLive = true := by
    rw [hsame]
    exact hl
  have hflow : (k.perform (.ofWords number args)).flow = .answer e.code := by
    unfold Reply.flow
    rw [herror]
  have hgo := call_answers hk hc hl' hflow
  have hturns := Turns.call (caller_eq_ok.1 hc).1 number args
  obtain ⟨log, hlog⟩ := k.dispatch_fst number args
  have hcall := call_eq_proceed hk hc hl'
  rw [hflow] at hcall
  obtain ⟨s, hs, hd⟩ := hk.space cur hl
  have hspaces : (k.call number args).1.memory.spaces = k.memory.spaces :=
    hturns.spaces.trans hquiet.memory.spaces
  have halike := hquiet.memory.pool
  rw [← hturns.pool] at halike
  refine ⟨?_, hspaces, fun r va => ?_, halike.isAllocated, halike.refCount, halike.freeCount,
    halike.page?, hturns.console.trans hquiet.console, hgo.current, ⟨s, hs, hd, ?_⟩, ?_⟩
  · rw [hcall, envs_answer, hlog, ← hquiet.envs]
  · unfold Memory.lookup Memory.directory?
    rw [hspaces]
  · exact hgo.active s (by rw [← hs, hsame])
  · rw [hgo.next, hsame]
    rfl

end Kernel

end Exokernel
