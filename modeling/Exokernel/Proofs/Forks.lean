/-
  A fork is seen once by each side.

  The call has one caller, and two who find its result.  The parent goes on at once, with the id of
  its child.  The child does not run yet, and nothing is in its registers that the parent did not
  have when it entered the kernel: they are copied before the parent has a result.  The zero that
  the child is to find lies beside them in its record, as a pending result.

  There it stays, whatever is done to the child and around it, until it is the child's turn
  (`UntilTurn.resumed`): the child is not blocked, so nobody has a result to write there.  A turn
  takes the pending result away, and so neither side finds it a second time.
-/
import Exokernel.Proofs.Coherence
import Exokernel.Proofs.Entries
import Exokernel.Proofs.Ids
import Exokernel.Proofs.Resuming
import Exokernel.Proofs.Running

namespace Exokernel

namespace Memory

variable {m m' : Memory} {s : SpaceId} {f : Frame}

/-- From `m` to `m'`, the space `s` comes into being with nothing in it. -/
structure Blank (m m' : Memory) (s : SpaceId) : Prop where
  unused : m.directory? s = none
  directory : ∃ f, m'.directory? s = some (.empty f)
  unmapped : ∀ va, m'.lookup s va = none

theorem Numbers.blank (h : m.Numbers m' s f) : m.Blank m' s :=
  ⟨h.unused, ⟨f, h.added⟩, h.lookup_eq_none⟩

/-- Which space is in force makes no difference, neither before nor after. -/
theorem Blank.of_same {m₀ m'' : Memory} (h : m.Blank m' s) (hbefore : m₀.Same m)
    (hafter : m'.Same m'') : m₀.Blank m'' s where
  unused := by
    rw [← hbefore.directory?]
    exact h.unused
  directory := by
    rw [hafter.directory?]
    exact h.directory
  unmapped va := (hafter.lookup s va).trans (h.unmapped va)

end Memory

namespace Kernel

variable {k k₁ k' : Kernel} {config : Config} {memory : Memory} {console : Console}
  {number : UInt32} {args : Args} {cur child e : Nat} {flow : Flow} {f registers : Registers}
  {id : EnvId} {value : Int32} {ops : List Operation} {next : Option Resumption}

/-! ## What the call does -/

/-- What a request for a child leaves. -/
theorem fork_child (hk : k.Housed) (hc : k.caller = .ok cur) (h : k.fork = .ok (k', flow)) :
    ∃ child s, child < k.envs.capacity ∧ (k.env child).isLive = false ∧
      k'.env child = { k.newcomer (k.env cur).id child s with
        registers := (k.env cur).registers
        heapBreak := (k.env cur).heapBreak
        pending := some 0 } ∧
      (∀ e, e ≠ child → k'.env e = k.env e) ∧ k.memory.Blank k'.memory s ∧
      flow = .answer (k'.env child).id.toResult := by
  obtain ⟨cur', k₁, child, event, hc', ha, rfl, rfl⟩ := fork_eq_ok h
  obtain rfl : cur = cur' := Except.ok.inj (hc.symm.trans hc')
  obtain ⟨s, hm, hlt, hdead, hnew, hothers, -⟩ := allocEnv_spec ha
  obtain ⟨-, g, -, -, hnumbers⟩ := Memory.createSpace_numbers hk.spaces_lt hm
  refine ⟨child, s, hlt, hdead, ?_, fun e hne => ?_, hnumbers.blank, rfl⟩
  · rw [env_note, env_updateEnv_self _ (isLive_of_allocEnv ha), hnew]
  · exact (env_updateEnv_of_ne _ hne).trans (hothers e hne)

/-- A pending result is found at the next turn, and then nothing is pending any more. -/
theorem UntilTurn.finds (h : UntilTurn id e k ops registers) (hk : k.Indexed)
    (hcur : k.current ≠ some e) (hblocked : (k.env e).isBlocked = false)
    (hpending : (k.env e).pending = some value)
    (hquiet : meanwhile (fun k op => !k.replaces e op) k ops = true) :
    registers = (k.env e).registers.setResult value ∧
      ((k.afterAll ops).env e).pending = none := by
  obtain ⟨e₀, hidled, hgoes⟩ := h.resumed hk hcur hquiet
  refine ⟨?_, h.spent hk⟩
  rw [hgoes, hidled.resumed hblocked, Env.resumed, hpending]

/-! ## The law -/

/-- From `k` to `k'` the environment in `cur`, which entered the kernel with the registers `f`, has
  forked the one in `child`, and `next` goes on. -/
structure Forked (k k' : Kernel) (next : Option Resumption) (cur child : Nat) (f : Registers) :
    Prop where
  /-- The child moves in where nobody was, and is found by an id by which nobody was found. -/
  vacant : (k.env child).isLive = false
  unnamed : k.envs.resolve (k'.env child).id = none
  named : k'.envs.resolve (k'.env child).id = some child
  positive : 0 < (k'.env child).id.toResult
  /-- The parent goes on with this id, and nothing is pending for it then. -/
  parent : next = some ⟨(k.env cur).id, { f with eax := (k'.env child).id.raw }⟩
  answered : (k'.env cur).pending = none
  /-- The child cannot run yet, and has an empty space. -/
  record : ∃ s, k'.env child =
      { id := (k'.env child).id, parent := (k.env cur).id, status := .notRunnable, space := some s
        registers := f, heapBreak := (k.env cur).heapBreak, upcall := none, pending := some 0
        mailbox := {}, runs := 0 } ∧
    k.memory.Blank k'.memory s
  /-- At its first turn it goes on with zero, unless its registers are replaced before, and nothing
    is pending for it then. -/
  later : ∀ (future : List Operation) (registers : Registers),
    UntilTurn (k'.env child).id child k' future registers →
    meanwhile (fun k op => !k.replaces child op) k' future = true →
      registers = { f with eax := 0 } ∧ ((k'.afterAll future).env child).pending = none

/-- Saving the registers before the call does nothing else. -/
theorem Forked.of_turns (h : k₁.Forked k' next cur child f) (ht : k.Turns k₁) :
    k.Forked k' next cur child f where
  vacant := (ht.isLive child).symm.trans h.vacant
  unnamed := (ht.resolve _).symm.trans h.unnamed
  named := h.named
  positive := h.positive
  parent := (ht.record cur).id ▸ h.parent
  answered := h.answered
  record := by
    obtain ⟨s, hrecord, hblank⟩ := h.record
    rw [(ht.record cur).id, (ht.record cur).heapBreak] at hrecord
    exact ⟨s, hrecord, hblank.of_same ht.same (.refl _)⟩
  later := h.later

/-- What an environment leaves that forks with the registers in its record. -/
theorem Housed.forked (hk : k.Housed) (hc : k.caller = .ok cur)
    (hreq : Request.ofWords number args = .fork)
    (hok : (k.perform (.ofWords number args)).result = .ok flow) :
    ∃ child, k.Forked (k.call number args).1 (k.call number args).2 cur child
      (k.env cur).registers := by
  have hi : k.Indexed := ⟨hk.number, hk.capacity⟩
  have hi' := hi.call number args
  obtain ⟨hcur, hlc⟩ := caller_eq_ok.1 hc
  have hturns := Turns.call hcur number args
  have hfork : k.fork = .ok ((k.perform (.ofWords number args)).kernel, flow) := by
    rw [hreq] at hok ⊢
    exact ofCheck_eq_ok hok
  obtain ⟨child, s, hlt, hdead, hnew, hothers, hblank, rfl⟩ := fork_child hk hc hfork
  have hne : cur ≠ child := ne_of_isLive hlc hdead
  have hsame := hothers cur hne
  -- the parent goes on, and the child does not
  obtain ⟨hgoes, hpassed⟩ := call_answered hi hc (by rw [hsame]; exact hlc) (flow_of_result hok)
  have hchild := hpassed child hne.symm (by rw [hnew]; rfl)
  rw [hsame, ← hchild.record] at hgoes
  have hrecord := hchild.record.trans hnew
  have hid : ((k.call number args).1.env child).id = (k.env child).id.next child := by
    rw [hrecord]
    rfl
  have hlive : ((k.call number args).1.env child).isLive = true := by
    rw [hrecord]
    rfl
  have hnamed := hi'.number.resolve_id hlive
  refine ⟨child, hdead, ?_, hnamed, ?_, ?_, congrArg Env.pending hgoes.record, ⟨s, ?_, ?_⟩, ?_⟩
  · -- whoever were found by that id would be in the slot of the child
    rw [Option.eq_none_iff_forall_ne_some]
    intro e he
    obtain ⟨hslot, hl, -⟩ := EnvTable.resolve_eq_some_iff.1 he
    obtain rfl : child = e := (EnvTable.resolve_eq_some_iff.1 hnamed).1.symm.trans hslot
    exact Bool.false_ne_true (hdead.symm.trans hl)
  · rw [hid]
    exact EnvId.toResult_next_pos _ (Nat.lt_of_lt_of_le hlt hk.capacity)
  · have hraw : ((k.call number args).1.env child).id.toResult.toUInt32 =
        ((k.call number args).1.env child).id.raw := UInt32.toUInt32_toInt32 _
    rw [← hraw]
    exact hgoes.next
  · rw [hid]
    exact hrecord
  · exact hblank.of_same (.refl _) hturns.same
  · intro future registers hnext hquiet
    have hfinds := hnext.finds hi' hchild.current (by rw [hrecord]; rfl) (by rw [hrecord]) hquiet
    rw [hrecord] at hfinds
    exact hfinds

/-- **A fork is seen once by each side**, whatever happened before and whatever happens then. -/
theorem fork_seen_once (hboot : Kernel.boot config memory console = .ok k) (hvacant : memory.Vacant)
    (past : List Operation) (f : Registers) (hc : (k.afterAll past).caller = .ok cur)
    (hreq : Request.ofWords number args = .fork)
    (hok : (((k.afterAll past).capture f).perform (.ofWords number args)).result = .ok flow) :
    ∃ child, (k.afterAll past).Forked ((k.afterAll past).enter number args f).1
      ((k.afterAll past).enter number args f).2 cur child f := by
  have hk : (k.afterAll past).Housed := housed_afterAll past k (housed_boot hboot hvacant)
  generalize k.afterAll past = k at *
  obtain ⟨hc', hsaved⟩ := capture_own hc f
  have hk' : (k.capture f).Housed := housed_operate hk (.act (.capture f))
  obtain ⟨child, hforked⟩ := hk'.forked hc' hreq hok
  rw [hsaved] at hforked
  exact ⟨child, hforked.of_turns (Turns.capture k f)⟩

/-- The parent starts its child, maps a page for it and sends it a word.  The child does not
  receive, so the parent blocks and it is the turn of the child. -/
def bringUp : List Operation :=
  [.act rouseChild, .act (.call 11 #v[4097, 0xA00000, 7, 0, 0]),
    .act (.call 14 #v[4097, 5, 0xEEC00000, 0, 0])]

theorem untilTurn_bringUp :
    UntilTurn ⟨4097⟩ 1 ((small.afterAll alone).enter 6 (.replicate 5 0) onEntry).1 bringUp
      { onEntry with eax := 0 } := by
  refine .later (by decide +kernel) (passed_of_next ⟨4096⟩ (by decide +kernel) (by decide)) ?_
  refine .later (by decide +kernel) (passed_of_next ⟨4096⟩ (by decide +kernel) (by decide)) ?_
  exact .now (by decide +kernel) (by decide +kernel)

/-- The parent forks, and the child finds zero when the word is already waiting for it. -/
theorem fork_seen_once_alone :
    (∃ child, (small.afterAll alone).Forked
      ((small.afterAll alone).enter 6 (.replicate 5 0) onEntry).1
      ((small.afterAll alone).enter 6 (.replicate 5 0) onEntry).2 0 child onEntry) ∧
    UntilTurn ⟨4097⟩ 1 ((small.afterAll alone).enter 6 (.replicate 5 0) onEntry).1 bringUp
      { onEntry with eax := 0 } := by
  have hc : (small.afterAll alone).caller = .ok 0 := by decide +kernel
  have hok : (((small.afterAll alone).capture onEntry).perform
      (.ofWords 6 (.replicate 5 0))).result = .ok (.answer 4097) := by decide +kernel
  exact ⟨fork_seen_once booted_small.boot ⟨rfl, rfl⟩ alone onEntry hc rfl hok, untilTurn_bringUp⟩

end Kernel

end Exokernel
