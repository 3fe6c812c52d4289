/-
  Becoming another program.

  A parent prepares a child and then becomes it: it goes on with the registers, the heap, the
  handler of faults and the space of the child, and is still itself to everybody else.  The child
  ends, and with it the space that the parent had.  Two records trade places, one space is put in
  force and another is torn down, and none of this is seen half done: either all of it happens, or
  the call is refused and nothing happens.  Messages of others are not lost on the way.  A message
  that the child itself had parked ends with it, also if it was for the parent.

  What the end of a space does to the counts of frames is read off the list of references: the
  references of the space are gone, and for a frame that is mapped and holds no table these are
  its mappings there.
-/
import Exokernel.Proofs.Entries
import Exokernel.Proofs.Failures
import Exokernel.Proofs.Orders

namespace Exokernel

/-! ## A space that ends -/

/-- A frame that holds no table of the directory counts as none. -/
theorem Directory.tablesIn_eq_zero {d : Directory} {f : Frame}
    (h : ∀ va t, d.table? va = some t → t.frame ≠ f) : d.tablesIn f = 0 := by
  refine List.countP_eq_zero.2 fun o ho hf => ?_
  obtain ⟨t, rfl, hframe⟩ := Option.map_eq_some_iff.1 (beq_iff_eq.1 hf)
  obtain ⟨i, hi, hget⟩ := List.mem_iff_getElem.1 ho
  rw [Vector.length_toList] at hi
  rw [Vector.getElem_toList] at hget
  exact h (.ofIndices ⟨i, hi⟩ 0) t ((d.table?_ofIndices ⟨i, hi⟩ 0).trans hget) hframe

namespace Memory

variable {m m' : Memory} {s : SpaceId} {d : Directory} {f : Frame}

theorem spaces_destroySpace (hd : m.directory? s = some d) :
    (m.destroySpace s).spaces = (m.setDirectory s none).spaces := by
  unfold destroySpace
  rw [hd]

theorem liveSpaces_destroySpace (hd : m.directory? s = some d) :
    (m.destroySpace s).liveSpaces + 1 = m.liveSpaces := by
  obtain ⟨hi, hget⟩ := List.getElem?_eq_some_iff.1 (directory?_eq_some_iff.1 hd)
  have hset : (m.setDirectory s none).spaces.toList = m.spaces.toList.set s.number.toNat none :=
    Array.toList_setIfInBounds
  have hpos : 0 < m.spaces.toList.countP (·.isSome) :=
    List.countP_pos_iff.2 ⟨some d, hget ▸ List.getElem_mem hi, rfl⟩
  rw [liveSpaces, liveSpaces, spaces_destroySpace hd, ← Array.countP_toList, ← Array.countP_toList,
    hset, List.countP_set hi, hget]
  simp only [Option.isSome_some, if_true, Option.isSome_none, Bool.false_eq_true, if_false]
  omega

/-- **The end of a space** takes its mappings from a frame that holds neither its directory nor one
  of its tables. -/
theorem uses_destroySpace (hd : m.directory? s = some d) (hf : ¬ m.StructuralIn s f) :
    (m.destroySpace s).uses f + d.mappingsOf f = m.uses f := by
  obtain ⟨rest, hp, hset, -⟩ := references_setDirectory hd
  have hafter : (m.destroySpace s).references.count f = rest.count f := by
    unfold references
    rw [spaces_destroySpace hd]
    exact (hset none).count_eq f
  have hroot : d.frame ≠ f := fun hframe =>
    hf (Or.inl (by rw [root?, hd, Option.map_some, hframe]))
  have htables : d.tablesIn f = 0 := Directory.tablesIn_eq_zero fun va t ht hframe =>
    hf (Or.inr ⟨va, by rw [table?, hd, Option.bind_some, ht, Option.map_some, hframe]⟩)
  have hheld : d.references.count f = d.mappingsOf f := by
    rw [d.count_references, htables, if_neg hroot]
    rfl
  rw [← count_references, ← count_references, hafter, hp.count_eq f, List.count_append, hheld]
  exact Nat.add_comm _ _

theorem Same.uses (h : m.Same m') (f : Frame) : m'.uses f = m.uses f := by
  rw [← count_references, ← count_references, references, references, h.spaces]

end Memory

namespace Kernel

variable {pins : List Frame} {k k' : Kernel} {cur image e : Nat} {id : EnvId} {args : Args}

/-- **The count of a frame** is the number of its uses, whether the pool manages it or not. -/
theorem Sound.refCount_eq (hk : k.Sound pins) (f : Frame) :
    (k.memory.pool.refCount f).toNat = k.memory.uses f + pins.count f := by
  cases hm : k.memory.pool.manages f with
  | true => exact hk.counted hm
  | false =>
    have hfree : ¬ k.memory.pool.isAllocated f = true := fun hf =>
      Bool.false_ne_true (hm.symm.trans (FramePool.manages_of_isAllocated hf))
    rw [hk.isAllocated_iff f, Nat.not_lt, Nat.le_zero] at hfree
    rw [hfree, FramePool.refCount, FramePool.index?, hm]
    rfl

/-- The environment in `cur` has become the one that was in `image`. -/
structure Committed (k : Kernel) (cur image : Nat) (k' : Kernel) (next : Option Resumption) :
    Prop where
  /-- It goes on at once under its own id, with the registers of the image. -/
  next : next = some ⟨(k.env cur).id, (k.env image).registers⟩
  current : k'.current = some cur
  registers : (k'.env cur).registers = (k.env image).registers
  heapBreak : (k'.env cur).heapBreak = (k.env image).heapBreak
  upcall : (k'.env cur).upcall = (k.env image).upcall
  mapped : ∀ va, k'.mapped cur va = k.mapped image va
  pending : (k'.env cur).pending = none
  id : (k'.env cur).id = (k.env cur).id
  parent : (k'.env cur).parent = (k.env cur).parent
  status : (k'.env cur).status = (k.env cur).status
  mailbox : (k'.env cur).mailbox = (k.env cur).mailbox
  /-- The space in force is the one that it has taken over. -/
  active : ∃ s, (k.env image).space = some s ∧ (k'.env cur).space = some s ∧
    k'.memory.active = some s
  ended : k'.envs.resolve (k.env image).id = none
  liveSpaces : k'.memory.liveSpaces + 1 = k.memory.liveSpaces
  /-- A frame loses the mappings that it had in the space that it had before. -/
  counts : ∀ s d f, (k.env cur).space = some s → k.memory.directory? s = some d →
    ¬ k.memory.Structural f →
    (k'.memory.pool.refCount f).toNat + d.mappingsOf f = (k.memory.pool.refCount f).toNat
  /-- Whoever waited for the image finds that its send failed. -/
  woken : ∀ e, (k.env e).isLive = true → (k.env e).sendsTo (k.env image).id = true →
    (k'.env e).status = .runnable ∧ (k'.env e).pending = some CallError.badEnv.code ∧
      (k'.env e).mailbox.parked = none
  /-- Messages for the one that has become the image wait on, but for the image's own. -/
  waiting : ∀ e send, e ≠ image → (k.env e).isLive = true →
    (k.env e).mailbox.parked = some send → send.target = (k.env cur).id → k'.env e = k.env e
  /-- Whatever the image had parked ends with it. -/
  silenced : (k'.env image).isLive = false ∧ (k'.env image).mailbox.parked = none
  /-- All others notice nothing. -/
  others : ∀ e, e ≠ cur → e ≠ image → (k.env e).isLive = true →
    (k.env e).sendsTo (k.env image).id = false →
    k'.env e = k.env e ∧ ∀ va, k'.mapped e va = k.mapped e va

/-! ## The call that succeeds -/

theorem execCommit_ok (h : Reachable pins k) (hc : k.caller = .ok cur)
    (hr : k.envs.resolve id = some image) (hne : image ≠ cur)
    (hparent : (k.env image).parent = (k.env cur).id) :
    ∃ event, k.execCommit id = .ok ((k.swapped cur image event).destroy image, .resume) := by
  obtain ⟨-, hli, hid⟩ := EnvTable.resolve_eq_some_iff.1 hr
  have hnone : id.isNone = false := hid ▸ h.isNone_eq_false image hli
  have ht : k.target id .owned = .ok image :=
    target_eq_ok.2 ⟨cur, hc, Or.inr ⟨hnone, hr, Or.inr (Or.inr hparent)⟩⟩
  have hpair : k.envs.pair? cur image = some (k.env cur, k.env image) := if_neg hne.symm
  refine ⟨.execCommitted (k.env cur).id (k.env image).id, ?_⟩
  unfold execCommit
  rw [hc, Check.ok_bind, ht, Check.ok_bind, hpair]
  rfl

section Records

variable (hk : k.Sound pins) (hlc : (k.env cur).isLive = true) (hli : (k.env image).isLive = true)
  (hne : image ≠ cur) (hquiet : (k.env cur).sendsTo (k.env image).id = false)

include hlc hli hne

/-- The image that is about to end is live, and has the id that it had. -/
theorem image_swapped (event : Event) :
    ((k.swapped cur image event).env image).isLive = true ∧
      ((k.swapped cur image event).env image).id = (k.env image).id := by
  obtain ⟨-, himage, -⟩ := env_swapped hne.symm hlc hli event
  rw [himage]
  exact ⟨hli, rfl⟩

include hquiet in
theorem env_committed_self (event : Event) :
    ((k.swapped cur image event).destroy image).env cur = adopted (k.env cur) (k.env image) := by
  obtain ⟨hl, hid⟩ := image_swapped hlc hli hne event
  obtain ⟨hcur, -, -⟩ := env_swapped hne.symm hlc hli event
  have hno : ¬ ((adopted (k.env cur) (k.env image)).isLive &&
      (adopted (k.env cur) (k.env image)).sendsTo (k.env image).id) = true := by
    rw [show (adopted (k.env cur) (k.env image)).sendsTo (k.env image).id = false from hquiet,
      Bool.and_false]
    exact Bool.false_ne_true
  rw [env_destroy hl, afterEnd_of_ne hne.symm, hcur, hid, if_neg hno]

theorem env_committed_of_ne (event : Event) (hec : e ≠ cur) (hei : e ≠ image) :
    ((k.swapped cur image event).destroy image).env e =
      if (k.env e).isLive && (k.env e).sendsTo (k.env image).id then
        (k.env e).wakeSender CallError.badEnv.code
      else k.env e := by
  obtain ⟨hl, hid⟩ := image_swapped hlc hli hne event
  obtain ⟨-, -, hothers⟩ := env_swapped hne.symm hlc hli event
  rw [env_destroy hl, afterEnd_of_ne hei, hothers e hec hei, hid]

/-- The space that ends is the one that the caller had. -/
theorem memory_committed (event : Event) {s : SpaceId} (hs : (k.env cur).space = some s) :
    (k.memory.destroySpace s).Same ((k.swapped cur image event).destroy image).memory := by
  obtain ⟨hl, -⟩ := image_swapped hlc hli hne event
  obtain ⟨-, himage, -⟩ := env_swapped hne.symm hlc hli event
  have hspace : ((k.swapped cur image event).env image).space = some s := by
    rw [himage]
    exact hs
  rw [memory_destroy hl hspace]
  exact (k.same_swapped cur image event).destroySpace s

include hk in
theorem resolve_committed (event : Event) :
    ((k.swapped cur image event).destroy image).envs.resolve (k.env image).id = none := by
  obtain ⟨hl, hid⟩ := image_swapped hlc hli hne event
  have hgone := resolve_destroy hl (by rw [hid]; exact hk.number image hli)
  rwa [hid] at hgone

end Records

/-- A caller that goes on leaves everybody else as the call left them. -/
theorem env_call_of_resume (hk : k.Sound pins) (hc : k.caller = .ok cur) {number : UInt32}
    (hl : ((k.perform (.ofWords number args)).kernel.env cur).isLive = true)
    (hflow : (k.perform (.ofWords number args)).flow = .resume) (he : e ≠ cur) :
    (k.call number args).1.env e = (k.perform (.ofWords number args)).kernel.env e := by
  have hl' : ((k.dispatch number args).1.env cur).isLive = true := by
    rw [env_dispatch]
    exact hl
  rw [call_eq_proceed hk hc hl, hflow, ← env_dispatch]
  exact (env_resume hl' e).trans (if_neg he)

/-- What becoming the image does: one record goes on with the image's, one space ends, and the
  image with it. -/
structure Adopts (k : Kernel) (cur image : Nat) (k' : Kernel) (next : Option Resumption) :
    Prop where
  goesOn : GoesOn cur (adopted (k.env cur) (k.env image)) k' next
  vacated : k'.env image = { id := (k.env image).id }
  others : ∀ e, e ≠ cur → e ≠ image → k'.env e =
    if (k.env e).isLive && (k.env e).sendsTo (k.env image).id then
      (k.env e).wakeSender CallError.badEnv.code
    else k.env e
  ended : k'.envs.resolve (k.env image).id = none
  memory : ∀ s, (k.env cur).space = some s → (k.memory.destroySpace s).Same k'.memory

theorem adopts_of_call (h : Reachable pins k) (hc : k.caller = .ok cur) {number : UInt32}
    (hreq : Request.ofWords number args = .execCommit id) (hr : k.envs.resolve id = some image)
    (hne : image ≠ cur) (hparent : (k.env image).parent = (k.env cur).id)
    (hquiet : (k.env cur).sendsTo (k.env image).id = false) :
    Adopts k cur image (k.call number args).1 (k.call number args).2 := by
  have hk := h.sound
  obtain ⟨hcur, hlc⟩ := caller_eq_ok.1 hc
  have hli := (EnvTable.resolve_eq_some_iff.1 hr).2.1
  obtain ⟨event, hok⟩ := execCommit_ok h hc hr hne hparent
  have hperform : k.perform (.ofWords number args) =
      ⟨(k.swapped cur image event).destroy image, .ok .resume⟩ := by
    rw [hreq, perform, hok]
    rfl
  have hself := env_committed_self hlc hli hne hquiet event
  have hl : ((k.perform (.ofWords number args)).kernel.env cur).isLive = true := by
    rw [hperform, hself]
    exact hlc
  have hflow : (k.perform (.ofWords number args)).flow = .resume := by rw [hperform]; rfl
  have hothers : ∀ e, e ≠ cur →
      (k.call number args).1.env e = ((k.swapped cur image event).destroy image).env e := by
    intro e hec
    rw [env_call_of_resume hk hc hl hflow hec, hperform]
  have hgo := call_resumes hk hc hl hflow
  have hturns := Turns.call hcur number args
  rw [hperform] at hgo hturns
  rw [hself] at hgo
  obtain ⟨hlive, hid⟩ := image_swapped hlc hli hne event
  exact {
    goesOn := hgo
    vacated := by rw [hothers image hne, env_destroy hlive, afterEnd_self, hid]
    others := fun e hec hei =>
      (hothers e hec).trans (env_committed_of_ne hlc hli hne event hec hei)
    ended := (hturns.resolve _).trans (resolve_committed hk hlc hli hne event)
    memory := fun s hs => (memory_committed hlc hli hne event hs).trans hturns.same }

namespace Adopts

variable {next : Option Resumption} (a : Adopts k cur image k' next)

include a

/-- Whoever does not wait for the image is as before. -/
theorem kept (hec : e ≠ cur) (hei : e ≠ image)
    (hno : (k.env e).sendsTo (k.env image).id = false) : k'.env e = k.env e := by
  rw [a.others e hec hei, hno, Bool.and_false]
  exact if_neg Bool.false_ne_true

/-- Every space but the one that ends is as before. -/
theorem lookup (hk : k.Sound pins) {s r : SpaceId} (hs : (k.env cur).space = some s) (hrs : r ≠ s)
    (va : VirtAddr) : k'.memory.lookup r va = k.memory.lookup r va := by
  obtain ⟨-, hclosed⟩ := Memory.destroySpace_spec hk.balanced s
  rw [(a.memory s hs).lookup, Memory.lookup, Memory.lookup, hclosed.others r hrs]

theorem counts (hk : k.Sound pins) (hk' : k'.Sound pins) {s : SpaceId} {d : Directory} {f : Frame}
    (hs : (k.env cur).space = some s) (hd : k.memory.directory? s = some d)
    (hf : ¬ k.memory.Structural f) :
    (k'.memory.pool.refCount f).toNat + d.mappingsOf f = (k.memory.pool.refCount f).toNat := by
  have hapart : ¬ k.memory.StructuralIn s f := fun h => hf (Memory.structural_iff.2 ⟨s, h⟩)
  rw [hk'.refCount_eq, hk.refCount_eq, (a.memory s hs).uses, ← Memory.uses_destroySpace hd hapart]
  omega

theorem woken (hm : k.Met) (hquiet : (k.env cur).sendsTo (k.env image).id = false)
    (hl : (k.env e).isLive = true) (hsends : (k.env e).sendsTo (k.env image).id = true) :
    k'.env e = (k.env e).wakeSender CallError.badEnv.code := by
  obtain ⟨send, hparked, htarget⟩ := Env.sendsTo_iff.1 hsends
  have hec : e ≠ cur := by
    rintro rfl
    exact Bool.false_ne_true (hquiet.symm.trans hsends)
  -- nobody has a message parked for itself
  have hei : e ≠ image := by
    rintro rfl
    exact (hm e hl send hparked).1 htarget
  rw [a.others e hec hei, hl, hsends]
  rfl

theorem waiting (hk : k.Sound pins) (hm : k.Met) (hlc : (k.env cur).isLive = true)
    (hli : (k.env image).isLive = true) (hne : image ≠ cur) {send : ParkedSend} (hei : e ≠ image)
    (hl : (k.env e).isLive = true) (hparked : (k.env e).mailbox.parked = some send)
    (htarget : send.target = (k.env cur).id) : k'.env e = k.env e := by
  have hec : e ≠ cur := by
    rintro rfl
    exact (hm e hl send hparked).1 htarget
  refine a.kept hec hei (Bool.eq_false_iff.2 fun hsends => ?_)
  obtain ⟨send', hparked', htarget'⟩ := Env.sendsTo_iff.1 hsends
  obtain rfl := Option.some.inj (hparked.symm.trans hparked')
  exact hk.number.id_ne hli hlc hne (htarget'.symm.trans htarget).symm

theorem committed (hk : k.Sound pins) (hk' : k'.Sound pins) (hm : k.Met)
    (hlc : (k.env cur).isLive = true) (hli : (k.env image).isLive = true) (hne : image ≠ cur)
    (hquiet : (k.env cur).sendsTo (k.env image).id = false) : Committed k cur image k' next := by
  obtain ⟨s, hs, hds⟩ := hk.space cur hlc
  obtain ⟨t, ht, -⟩ := hk.space image hli
  obtain ⟨d, hd⟩ := Option.isSome_iff_exists.1 hds
  have hrecord := a.goesOn.record
  have hspace : (k'.env cur).space = some t := by rw [hrecord]; exact ht
  exact {
    next := a.goesOn.next
    current := a.goesOn.current
    registers := by rw [hrecord]; rfl
    heapBreak := by rw [hrecord]; rfl
    upcall := by rw [hrecord]; rfl
    mapped := fun va => by
      rw [mapped, mapped, hspace, ht, Option.bind_some, Option.bind_some]
      exact a.lookup hk hs (hk.space_ne hne ⟨hli, ht⟩ ⟨hlc, hs⟩) va
    pending := by rw [hrecord]; rfl
    id := by rw [hrecord]; rfl
    parent := by rw [hrecord]; rfl
    status := by rw [hrecord]; rfl
    mailbox := by rw [hrecord]; rfl
    active := ⟨t, ht, hspace, a.goesOn.active t ht⟩
    ended := a.ended
    liveSpaces := by
      rw [← Memory.liveSpaces_destroySpace hd, Memory.liveSpaces, Memory.liveSpaces,
        (a.memory s hs).spaces]
    counts := fun _ _ _ hs' hd' hf => a.counts hk hk' hs' hd' hf
    woken := by
      intro e hl hsends
      rw [a.woken hm hquiet hl hsends]
      exact ⟨rfl, rfl, rfl⟩
    waiting := fun _ _ hei hl hparked htarget => a.waiting hk hm hlc hli hne hei hl hparked htarget
    silenced := by
      rw [a.vacated]
      exact ⟨rfl, rfl⟩
    others := by
      intro e hec hei hl hno
      have hsame := a.kept hec hei hno
      refine ⟨hsame, fun va => ?_⟩
      obtain ⟨r, hr, -⟩ := hk.space e hl
      rw [mapped, mapped, hsame, hr, Option.bind_some, Option.bind_some]
      exact a.lookup hk hs (hk.space_ne hec ⟨hl, hr⟩ ⟨hlc, hs⟩) va }

end Adopts

/-! ## The call that is refused -/

/-- The id names a child of the caller. -/
def NamesChild (k : Kernel) (cur : Nat) (id : EnvId) : Prop :=
  ∃ image, k.envs.resolve id = some image ∧ image ≠ cur ∧
    (k.env image).parent = (k.env cur).id

/-- Why a caller cannot become what the id names: itself it is already, and everything else is none
  of its business. -/
def commitRefusal (k : Kernel) (cur : Nat) (id : EnvId) : CallError :=
  if id.isNone = true ∨ id = (k.env cur).id then .invalid else .badEnv

/-- Who names itself is found. -/
theorem target_self (hk : k.Sound pins) (hc : k.caller = .ok cur)
    (hself : id.isNone = true ∨ id = (k.env cur).id) : k.target id .owned = .ok cur := by
  refine target_eq_ok.2 ⟨cur, hc, ?_⟩
  cases hn : id.isNone with
  | true => exact Or.inl ⟨rfl, rfl⟩
  | false =>
    rcases hself with hnone | rfl
    · exact absurd (hn.symm.trans hnone) Bool.false_ne_true
    · exact Or.inr ⟨rfl, hk.resolve_id (caller_eq_ok.1 hc).2, Or.inr (Or.inl rfl)⟩

/-- Nobody but a child is found besides. -/
theorem target_foreign (hc : k.caller = .ok cur)
    (hself : ¬ (id.isNone = true ∨ id = (k.env cur).id)) (hnot : ¬ k.NamesChild cur id) :
    k.target id .owned = .error .badEnv := by
  unfold target
  rw [hc, Check.ok_bind, if_neg fun hn => hself (Or.inl hn)]
  cases hr : k.envs.resolve id with
  | none => rfl
  | some slot =>
    have hslot : slot ≠ cur := by
      rintro rfl
      exact hself (Or.inr (EnvTable.resolve_eq_some_iff.1 hr).2.2.symm)
    have hparent : (k.env slot).parent ≠ (k.env cur).id := fun hparent =>
      hnot ⟨slot, hr, hslot, hparent⟩
    show Check.require _ _ >>= _ = _
    simp only [reduceCtorEq, decide_false, hslot, hparent, Bool.or_false, Check.require]
    rfl

theorem execCommit_refused (hk : k.Sound pins) (hc : k.caller = .ok cur)
    (hnot : ¬ k.NamesChild cur id) : k.execCommit id = .error (k.commitRefusal cur id) := by
  unfold commitRefusal execCommit
  split
  · rename_i hself
    -- the caller is no image for itself
    rw [hc, Check.ok_bind, target_self hk hc hself, Check.ok_bind, EnvTable.pair?, if_pos rfl]
    rfl
  · rename_i hself
    rw [hc, Check.ok_bind, target_foreign hc hself hnot]
    rfl

/-! ## The law -/

/-- **Becoming a child is all or nothing.**  A caller that names a child of its own, and has no
  message parked for it, becomes it; a caller that names anything else is refused. -/
theorem commit_all_or_nothing (h : Reachable pins k) (hc : k.caller = .ok cur) {number : UInt32}
    (hreq : Request.ofWords number args = .execCommit id) :
    (∀ image, k.envs.resolve id = some image → image ≠ cur →
      (k.env image).parent = (k.env cur).id → (k.env cur).sendsTo id = false →
      Committed k cur image (k.call number args).1 (k.call number args).2) ∧
    (¬ k.NamesChild cur id →
      OnlyAnswered k (k.call number args).1 cur (k.commitRefusal cur id).code
        (k.call number args).2) := by
  constructor
  · intro image hr hne hparent hquiet
    obtain ⟨-, hli, hid⟩ := EnvTable.resolve_eq_some_iff.1 hr
    rw [← hid] at hquiet
    exact (adopts_of_call h hc hreq hr hne hparent hquiet).committed h.sound
      (h.act (.call number args)).sound h.met (caller_eq_ok.1 hc).2 hli hne hquiet
  · intro hnot
    have hrefused : k.perform (.ofWords number args) = .refuse k (k.commitRefusal cur id) := by
      rw [hreq, perform, execCommit_refused h.sound hc hnot]
      rfl
    refine onlyAnswered_of_unchanged h.sound hc (by rw [hrefused]; rfl) ?_
    rw [hrefused]
    exact .refl k

/-- The first environment has forked a child, to which the second has sent a word.  The third has
  sent one to the first, which is now to go on. -/
def prepared : Kernel :=
  small.after [.create .none 0 0, .create .none 0 0, .create .none 0 0, .run ⟨4096⟩,
    .call 6 (.replicate 5 0), .run ⟨4097⟩, .call 14 #v[4099, 7, 0xEEC00000, 0, 0], .run ⟨4098⟩,
    .call 14 #v[4096, 8, 0xEEC00000, 0, 0], .run ⟨4096⟩]

/-- It can become the child, and not the second, which is no child of its own. -/
theorem commit_all_or_nothing_prepared :
    Committed prepared 0 3 (prepared.call 10 #v[4099, 0, 0, 0, 0]).1
        (prepared.call 10 #v[4099, 0, 0, 0, 0]).2 ∧
      OnlyAnswered prepared (prepared.call 10 #v[4097, 0, 0, 0, 0]).1 0
        (prepared.commitRefusal 0 ⟨4097⟩).code (prepared.call 10 #v[4097, 0, 0, 0, 0]).2 := by
  have h : Reachable [] prepared := reachable_small _
  have hc : prepared.caller = .ok 0 := by decide +kernel
  have hnot : ¬ prepared.NamesChild 0 ⟨4097⟩ := by
    rintro ⟨image, hr, -, hparent⟩
    obtain rfl : 1 = image :=
      Option.some.inj ((by decide +kernel : prepared.envs.resolve ⟨4097⟩ = some 1).symm.trans hr)
    exact absurd hparent (by decide +kernel)
  exact ⟨(commit_all_or_nothing h hc rfl).1 3 (by decide +kernel) (by decide)
      (by decide +kernel) (by decide +kernel),
    (commit_all_or_nothing h hc rfl).2 hnot⟩

/-- A child is blocked on a word to its parent. -/
def courted : Kernel :=
  small.after [.create .none 0 0, .run ⟨4096⟩, .call 6 (.replicate 5 0), .run ⟨4097⟩,
    .call 14 #v[4096, 7, 0xEEC00000, 0, 0]]

/-- The parent becomes the child.  The word for it does not wait on, and it blocks when it receives
  what it would have found before. -/
theorem image_send_lost :
    courted.caller = .ok 0 ∧ courted.envs.resolve ⟨4097⟩ = some 1 ∧
      (courted.env 1).parent = (courted.env 0).id ∧ (courted.env 0).mailbox.parked = none ∧
      (courted.env 1).isLive = true ∧
      (courted.env 1).mailbox.parked = some { target := ⟨4096⟩, value := 7, page := none } ∧
      ((courted.call 10 #v[4097, 0, 0, 0, 0]).1.env 1).mailbox.parked = none ∧
      (courted.call 15 #v[0xEEC00000, 0, 0, 0, 0]).2.isSome = true ∧
      ((courted.call 10 #v[4097, 0, 0, 0, 0]).1.call 15 #v[0xEEC00000, 0, 0, 0, 0]).2 = none := by
  refine ⟨by decide +kernel, by decide +kernel, by decide +kernel, by decide +kernel,
    by decide +kernel, by decide +kernel, by decide +kernel, by decide +kernel, by decide +kernel⟩

end Kernel

end Exokernel
