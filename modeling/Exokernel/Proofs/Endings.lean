/-
  What is left of an environment.

  An environment ends because it was asked to, because it passed a bad pointer or asked for a heap
  that cannot be, or because it was an image that somebody has become.  Whatever the reason, the
  same follows: its id names nobody, whoever waited for it goes on, and each frame loses exactly
  the mappings that it had in the space that ended.

  That directories and tables become free needs one thing more than the books do.  The frame of a
  table loses one reference, and it is free only if there was no other.  There is none because no
  frame is a table and a mapped page at once, and because no two spaces share a table: new ones
  are put in frames that are free.  `Separate` says the latter, and all effects keep it.
-/
import Exokernel.Proofs.Commit
import Exokernel.Proofs.Mappings

namespace Exokernel

namespace Memory

variable {m m' : Memory} {pins : List Frame} {s : SpaceId} {f : Frame} {W : VirtAddr → Prop}

/-! ## Separate spaces -/

theorem Separate.of_same (h : m.Separate) (hs : m.Same m') : m'.Separate :=
  h.of_directories fun s _ hd => (hs.directory? s).symm.trans hd

theorem Refill.separate (hr : Refill s W m m') (h : m.Separate) (hb : m.Balanced pins [])
    (hsize : m.spaces.size < 0x100000000) : m'.Separate := by
  cases hr with
  | map _ _ _ mapped =>
    obtain ⟨f, hfresh⟩ := mapFresh_sets hb hsize mapped
    exact hfresh.sets.separate h hb
  | fail _ failed =>
    have halike := mapFresh_failed hb failed
    exact h.of_directories fun r _ hd => (halike.directory? r).symm.trans hd
  | unmap _ => exact (remove_sets hb s _).separate h hb

theorem Refills.separate (hr : Refills s W m m') (h : m.Separate) (hb : m.Balanced pins [])
    (hsize : m.spaces.size < 0x100000000) : m'.Separate :=
  Refills.invariant (I := Memory.Separate) hr hb hsize h
    fun _ _ hb hsize h hstep => hstep.separate h hb hsize

/-- **What a space was made of is free when it has ended.** -/
theorem free_of_structuralIn (hb : m.Balanced pins []) (hsize : m.spaces.size < 0x100000000)
    (hl : m.Legit pins) (hseparate : m.Separate) (hf : m.StructuralIn s f) :
    (m.destroySpace s).pool.isAllocated f = false := by
  obtain ⟨hb', hcloses⟩ := destroySpace_spec hb s
  have hstructural : m.Structural f := structural_iff.2 ⟨s, hf⟩
  have hback : ∀ r d, (m.destroySpace s).directory? r = some d →
      r ≠ s ∧ m.directory? r = some d := by
    intro r d hd
    rw [directory?_destroySpace] at hd
    split at hd
    · cases hd
    · exact ⟨‹_›, hd⟩
  refine Bool.eq_false_iff.2 fun hused => ?_
  rw [hb'.isAllocated_iff_maps (hcloses.size ▸ hsize)] at hused
  rcases hused with hkept | ⟨r, va, x, hx, rfl⟩ | hpin
  · -- it would be in two spaces
    obtain ⟨r, hr⟩ := structural_iff.1 hkept
    have hsame := hseparate r s f (hr.of_directory fun d hd => (hback r d hd).2) hf
    rw [hsame] at hr
    rcases hr with hr | ⟨va, hr⟩
    · rw [root?, hcloses.gone] at hr
      cases hr
    · rw [table?, hcloses.gone] at hr
      cases hr
  · -- it would be mapped
    obtain ⟨d, hd, hx⟩ := Option.bind_eq_some_iff.1 hx
    refine hl.apart r va x ?_ hstructural
    rw [find?, (hback r d hd).2, Option.bind_some, hx]
  · exact hl.reserved f hpin hstructural

end Memory

namespace Kernel

variable {pins : List Frame} {k k' : Kernel} {r : Request} {e slot : Nat}

theorem Effect.separate (he : Effect k r k') (hk : k.Sound pins) (h : k.memory.Separate) :
    k'.memory.Separate := by
  cases he with
  | keeps memory _ => exact h.of_same memory
  | opens memory _ => exact h.createSpace hk.balanced hk.spaces_lt memory
  | closes memory _ => exact (h.destroySpace _).of_same memory
  | adopts _ _ _ memory _ => exact (h.destroySpace _).of_same memory
  | inserts _ _ _ _ _ memory _ =>
    exact (Memory.insert_sets hk.balanced memory).separate h hk.balanced
  | refills memory _ => exact Memory.Refills.separate memory h hk.balanced hk.spaces_lt

/-- No two spaces share a directory or a table. -/
theorem Reachable.separate (h : Reachable pins k) : k.memory.Separate := by
  refine h.memory_invariant (I := Memory.Separate) (fun k₀ hb => ?_) ?_ ?_ ?_
  · have hdirectory := (vacant_of_reserved hb.reserved).directory?
    rintro r s f (hr | ⟨va, hr⟩)
    · rw [Memory.root?, hdirectory] at hr
      cases hr
    · rw [Memory.table?, hdirectory] at hr
      cases hr
  · exact fun _ _ hd hm => hm.of_directories hd
  · exact fun _ _ _ hk hm hc => hm.createSpace hk.balanced hk.spaces_lt hc
  · exact fun _ _ _ hr hm he => he.separate hr.sound hm

/-! ## On the way to an end -/

/-- **Nobody ends in another way.** -/
theorem ends_of_perform (h : k.Housed) (hl : (k.env e).isLive = true)
    (hdead : ((k.perform r).kernel.env e).isLive = false) :
    ∃ k₁, k.Ending k₁ e ∧ (k.perform r).kernel = k₁.destroy e := by
  generalize heq : (k.perform r).kernel = k' at hdead
  have houtcome : Outcome [] (k.Concerns r) k k' := heq ▸ h.outcome r
  cases houtcome with
  | edits hedits =>
    exact absurd (hdead.symm.trans (hedits.persists hl).live) Bool.false_ne_true
  | @ending k₁ gone hedits _ hend =>
    have hgone := hend.live
    by_cases hne : e = gone
    · subst hne
      exact ⟨k₁, hend, rfl⟩
    · -- another one ends, and this one survives
      have hlive := (Edits.persists hedits hl).live
      obtain ⟨hkept, -⟩ := @tuned_afterEnd (k₁.env gone).id gone e hne _ hlive
      rw [← env_destroy hgone] at hkept
      exact absurd (hdead.symm.trans hkept.live) Bool.false_ne_true

theorem Edits.met {P : Nat → Prop} (he : Edits pins P k k') (hk : k.Sound pins) (h : k.Met) :
    k'.Met := by
  induction he with
  | refl => exact h
  | tail hbefore hlast ih => exact hlast.met (Edits.sound hbefore hk) ih

/-- Memory is as it was when the end began. -/
theorem Ending.same (h : k.Ending k' slot) : k.memory.Same k'.memory := by
  cases h with
  | noted _ _ _ memory => exact memory ▸ .refl _
  | spent => exact k.same_swapped _ _ _

/-! ## The end -/

/-- From `k` to `k'`, the environment in `slot` ends, and its space `s` with the directory `d`. -/
structure Released (k : Kernel) (slot : Nat) (s : SpaceId) (d : Directory) (k' : Kernel) :
    Prop where
  unresolved : k'.envs.resolve (k.env slot).id = none
  /-- Nothing is left in the slot but the id. -/
  vacated : k'.env slot = { id := (k.env slot).id, status := .free }
  /-- Whoever had a message parked for it goes on, and finds that the send failed. -/
  woken : ∀ e send, (k.env e).isLive = true → (k.env e).mailbox.parked = some send →
    send.target = (k.env slot).id → k'.env e = { k.env e with
      mailbox := { (k.env e).mailbox with parked := none }
      status := .runnable
      pending := some CallError.badEnv.code }
  freed : ∀ e send, (k'.env e).isLive = true → (k'.env e).mailbox.parked = some send →
    send.target ≠ (k.env slot).id
  /-- All other records stay. -/
  others : ∀ e, e ≠ slot → ((k.env e).isLive && (k.env e).sendsTo (k.env slot).id) = false →
    k'.env e = k.env e
  /-- A page loses the mappings that it had in the space. -/
  counts : ∀ f, ¬ k.memory.StructuralIn s f →
    (k'.memory.pool.refCount f).toNat + d.mappingsOf f = (k.memory.pool.refCount f).toNat
  /-- What nobody refers to is free, and nothing else. -/
  used : ∀ f, k'.memory.pool.isAllocated f = true ↔ 0 < (k'.memory.pool.refCount f).toNat
  /-- The directory and the tables of the space are free. -/
  dismantled : ∀ f, k.memory.StructuralIn s f → k'.memory.pool.isAllocated f = false
  gone : k'.memory.directory? s = none
  lookup : ∀ r va, r ≠ s → k'.memory.lookup r va = k.memory.lookup r va
  active : k'.memory.active = if k.memory.active = some s then none else k.memory.active

theorem Sound.released (hk : k.Sound pins) (hmet : k.Met) (hlegit : k.memory.Legit pins)
    (hseparate : k.memory.Separate) (hl : (k.env slot).isLive = true) {s : SpaceId}
    {d : Directory} (hs : (k.env slot).space = some s) (hd : k.memory.directory? s = some d) :
    Released k slot s d (k.destroy slot) := by
  have hrecord := env_destroy hl
  have hmemory := memory_destroy hl hs
  have hk' := hk.destroy hl
  have hgone := resolve_destroy hl (hk.number slot hl)
  obtain ⟨-, hcloses⟩ := Memory.destroySpace_spec hk.balanced s
  exact {
    unresolved := hgone
    vacated := by rw [hrecord, afterEnd_self]
    woken := by
      intro e send hle hparked htarget
      -- nobody has a message parked for itself
      have hne : e ≠ slot := by
        rintro rfl
        exact (hmet e hle send hparked).1 htarget
      have hsends : (k.env e).sendsTo (k.env slot).id = true :=
        Env.sendsTo_iff.2 ⟨send, hparked, htarget⟩
      rw [hrecord, afterEnd_of_ne hne, hle, hsends]
      rfl
    freed := by
      intro e send hle hparked htarget
      obtain ⟨-, b, hb, -⟩ := hmet.destroy hl e hle send hparked
      rw [htarget, hgone] at hb
      cases hb
    others := fun e hne hno => by
      rw [hrecord, afterEnd_of_ne hne, hno]
      exact if_neg Bool.false_ne_true
    counts := by
      intro f hf
      rw [hk'.refCount_eq, hk.refCount_eq, hmemory, ← Memory.uses_destroySpace hd hf]
      omega
    used := fun f => by rw [hk'.isAllocated_iff, hk'.refCount_eq]
    dismantled := by
      intro f hf
      rw [hmemory]
      exact Memory.free_of_structuralIn hk.balanced hk.spaces_lt hlegit hseparate hf
    gone := by rw [hmemory, hcloses.gone]
    lookup := by
      intro r va hr
      rw [hmemory]
      exact Memory.lookup_congr (hcloses.others r hr) va
    active := by
      rw [hmemory, Memory.destroySpace, hd] }

/-- Whatever leads to an end, what has ended is released. -/
theorem Reachable.released (h : Reachable pins k) (hend : k.Ending k' slot) :
    ∃ s d, (k'.env slot).space = some s ∧ k'.memory.directory? s = some d ∧
      Released k' slot s d (k'.destroy slot) := by
  have hedits : Edits pins (fun _ => True) k k' := hend.edits
  have hl := hend.live
  have hk' := Edits.sound hedits h.sound
  obtain ⟨s, hs, hds⟩ := hk'.space slot hl
  obtain ⟨d, hd⟩ := Option.isSome_iff_exists.1 hds
  exact ⟨s, d, hs, hd, hk'.released (Edits.met hedits h.sound h.met) (h.legit.of_same hend.same)
    (h.separate.of_same hend.same) hl hs hd⟩

/-- **An end releases everything and strands nobody**, and no request ends anybody in another
  way. -/
theorem ending_releases (h : Reachable pins k) :
    (∀ k' slot, k.Ending k' slot → ∃ s d, (k'.env slot).space = some s ∧
      k'.memory.directory? s = some d ∧ Released k' slot s d (k'.destroy slot)) ∧
    ∀ r e, (k.env e).isLive = true → ((k.perform r).kernel.env e).isLive = false →
      ∃ k' s d, k.Ending k' e ∧ (k'.env e).space = some s ∧ k'.memory.directory? s = some d ∧
        Released k' e s d (k.perform r).kernel := by
  refine ⟨fun k' slot hend => h.released hend, fun r e hl hdead => ?_⟩
  obtain ⟨k', hend, hafter⟩ := ends_of_perform h.sound.toHoused hl hdead
  obtain ⟨s, d, hs, hd, hreleased⟩ := h.released hend
  exact ⟨k', s, d, hend, hs, hd, hafter ▸ hreleased⟩

/-- An environment that has written into a page that it maps twice is sent a word, and does not wait
  for one. -/
def wordUnread : List Happening :=
  mappedTwice ++ [.act (.create .none 0 0), .act (.run ⟨4097⟩),
    .act (.call 14 #v[4096, 43, 0xEEC00000, 0, 0])]

/-- It may end for any reason, and when it asks for its end it does end. -/
theorem ending_releases_wordUnread :
    ((small.attended wordUnread).env 0).isLive = true ∧
    ((small.attended wordUnread).env 1).sendsTo ⟨4096⟩ = true ∧
    (∃ s d, ((small.attended wordUnread).env 0).space = some s ∧
      (small.attended wordUnread).memory.directory? s = some d ∧
        Released (small.attended wordUnread) 0 s d ((small.attended wordUnread).destroy 0)) ∧
    ∃ k' s d, (small.attended wordUnread).Ending k' 0 ∧ (k'.env 0).space = some s ∧
      k'.memory.directory? s = some d ∧
        Released k' 0 s d ((small.attended wordUnread).perform (.destroyEnv ⟨0⟩)).kernel := by
  have hl : ((small.attended wordUnread).env 0).isLive = true := by decide +kernel
  have hreach : Reachable [] (small.attended wordUnread) :=
    (Reachable.booted booted_small).attended wordUnread
  obtain ⟨hreleases, hends⟩ := ending_releases hreach
  exact ⟨hl, by decide +kernel, hreleases _ _ (.noted hl rfl rfl rfl),
    hends (.destroyEnv ⟨0⟩) 0 hl (by decide +kernel)⟩

end Kernel

end Exokernel
