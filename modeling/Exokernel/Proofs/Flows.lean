/-
  Where frames can come from.

  An environment that maps a frame after a call, and did not map it anywhere before, got it in
  one of two ways.  Either nobody had the frame, or it came along one of the channels in
  `Channel`, with all that was checked there.  No other call, and no other argument, brings a
  frame that is in use into a page table.

  The interesting case is the heap.  When it grows it frees pages and takes fresh ones in the
  same call, so a page that it maps at the end may be in a frame that was in use at the
  beginning.  But then the environment had that frame before: nothing but its own mappings kept
  the frame in use.
-/
import Exokernel.Proofs.Mappings

namespace Exokernel

/-! ## What a space maps -/

namespace Memory

variable {m m' : Memory} {pins : List Frame} {r s : SpaceId} {va : VirtAddr} {f g : Frame}
  {perm : Perm}

/-- The space maps the frame somewhere. -/
def Shows (m : Memory) (s : SpaceId) (f : Frame) : Prop := ∃ va perm, m.lookup s va = some (f, perm)

theorem Shows.congr (h : m'.Shows s f) (hd : m'.directory? s = m.directory? s) : m.Shows s f := by
  obtain ⟨va, perm, hl⟩ := h
  exact ⟨va, perm, (lookup_congr hd va).symm.trans hl⟩

theorem Shows.isSome (h : m.Shows s f) : (m.directory? s).isSome = true := by
  obtain ⟨va, perm, hl⟩ := h
  obtain ⟨d, hd, -⟩ := frame_mem_of_lookup hl
  rw [hd]
  rfl

theorem Legit.shows_iff (h : m.Legit pins) :
    m.Shows s f ↔ ∃ va x, m.find? s va = some x ∧ x.frame = f := by
  unfold Shows
  simp only [h.lookup_eq, Option.map_eq_some_iff, Prod.mk.injEq]
  constructor
  · rintro ⟨va, perm, x, hx, hf, -⟩
    exact ⟨va, x, hx, hf⟩
  · rintro ⟨va, x, hx, hf⟩
    exact ⟨va, x.perm, x, hx, hf, rfl⟩

/-- A new space maps nothing, and the others what they did. -/
theorem Shows.of_createSpace (h : m'.Shows r f) (hb : m.Balanced pins [])
    (hsize : m.spaces.size < 0x100000000) (hc : m.createSpace = .ok (m', s)) :
    r ≠ s ∧ m.Shows r f := by
  obtain ⟨-, g, hopens⟩ := createSpace_spec hb hsize hc
  have hne : r ≠ s := by
    rintro rfl
    obtain ⟨va, perm, hl⟩ := h
    rw [hopens.toNumbers.lookup_eq_none] at hl
    cases hl
  exact ⟨hne, h.congr (hopens.others r hne)⟩

theorem Shows.of_destroySpace (h : (m.destroySpace s).Shows r f) (hb : m.Balanced pins []) :
    r ≠ s ∧ m.Shows r f := by
  obtain ⟨-, hclosed⟩ := destroySpace_spec hb s
  have hne : r ≠ s := by
    rintro rfl
    have hsome := h.isSome
    rw [hclosed.gone] at hsome
    cases hsome
  exact ⟨hne, h.congr (hclosed.others r hne)⟩

/-- One page is inserted: it is that one, or it was there. -/
theorem Shows.of_insert (h : m'.Shows r f) (hb : m.Balanced pins []) (hp : perm.Requestable)
    (hi : m.insert s g va perm = .ok m') : (r = s ∧ f = g) ∨ m.Shows r f := by
  obtain ⟨-, htouches, -⟩ := insert_spec hb (fun _ hg => absurd hg List.not_mem_nil) hp.bits_lt hi
  by_cases hr : r = s
  · obtain ⟨b, p, hl⟩ := h
    rw [hr, lookup_insert hb hp.bits_lt hi] at hl
    split at hl
    · exact Or.inl ⟨hr, (Prod.mk.inj (Option.some.inj hl)).1.symm⟩
    · exact Or.inr ⟨b, p, hr ▸ hl⟩
  · exact Or.inr (h.congr (htouches.others r hr))

/-- Fresh pages come and go: what is new was free. -/
theorem Shows.of_refills {W : VirtAddr → Prop} (h : m'.Shows r f) (hr : Refills s W m m')
    (hb : m.Balanced pins []) (hsize : m.spaces.size < 0x100000000) (hl : m.Legit pins) :
    m.pool.isAllocated f = false ∨ m.Shows r f := by
  obtain ⟨-, hredraws⟩ := Refills.redraws hr hb hsize
  have hl' : m'.Legit pins := Refills.legit hr hl hb hsize
  obtain ⟨b, x, hx, rfl⟩ := hl'.shows_iff.1 h
  by_cases hrs : r = s
  · subst hrs
    rcases hredraws.brought b x hx with hold | hloose
    · exact Or.inr (hl.shows_iff.2 ⟨b, x, hold, rfl⟩)
    · -- a frame in use that nothing else anchors was mapped in this very space
      cases hf : m.pool.isAllocated x.frame with
      | false => exact Or.inl rfl
      | true =>
        rcases anchored_or_mapped hb hsize hf with hanchored | ⟨b', y, -, hy, hyf⟩
        · exact absurd hanchored hloose
        · exact Or.inr (hl.shows_iff.2 ⟨b', y, hy, hyf⟩)
  · rw [hredraws.entry r b fun heq => absurd heq hrs] at hx
    exact Or.inr (hl.shows_iff.2 ⟨b, x, hx, rfl⟩)

end Memory

namespace Kernel

variable {pins : List Frame} {k k' : Kernel} {r : Request} {cur e : Nat} {s : SpaceId} {f : Frame}

/-! ## What an environment maps -/

theorem mapped_of_shows (hs : k.Holds e s) (hf : k.memory.Shows s f) :
    ∃ va perm, k.mapped e va = some (f, perm) := by
  obtain ⟨va, perm, hl⟩ := hf
  refine ⟨va, perm, ?_⟩
  rw [mapped, hs.2, Option.bind_some, hl]

/-- **An effect brings frames along channels.** Whoever maps a frame after it mapped the frame
  before, or the frame was free, or it came along a channel. -/
theorem Effect.flows (he : Effect k r k') (hk : k.Sound pins) (hl : k.memory.Legit pins)
    (hc : k.caller = .ok cur) (hs : k'.Holds e s) (hf : k'.memory.Shows s f) :
    k.memory.pool.isAllocated f = false ∨
      ((k.env e).isLive = true ∧ ∃ va perm, k.mapped e va = some (f, perm)) ∨
      (k.env e).isLive = true ∧ Channel k cur r e f := by
  have hold : k.Holds e s → k.memory.Shows s f →
      (k.env e).isLive = true ∧ ∃ va perm, k.mapped e va = some (f, perm) :=
    fun hs hf => ⟨hs.1, mapped_of_shows hs hf⟩
  cases he with
  | keeps memory holders =>
    exact Or.inr (Or.inl (hold (holders e s hs) (hf.congr (memory.directory? s))))
  | opens memory holders =>
    obtain ⟨hne, hbefore⟩ := hf.of_createSpace hk.balanced hk.spaces_lt memory
    rcases holders e s hs with hholds | ⟨-, heq⟩
    · exact Or.inr (Or.inl (hold hholds hbefore))
    · exact absurd heq hne
  | closes memory holders =>
    obtain ⟨-, hbefore⟩ := (hf.congr (memory.directory? s)).of_destroySpace hk.balanced
    exact Or.inr (Or.inl (hold (holders e s hs) hbefore))
  | adopts request caller target memory holders =>
    obtain rfl : cur = _ := Except.ok.inj (hc.symm.trans caller)
    obtain ⟨-, hbefore⟩ := (hf.congr (memory.directory? s)).of_destroySpace hk.balanced
    rcases holders e s hs with hholds | ⟨rfl, himage⟩
    · exact Or.inr (Or.inl (hold hholds hbefore))
    · obtain ⟨va, perm, hm⟩ := mapped_of_shows himage hbefore
      exact Or.inr (Or.inr ⟨(caller_eq_ok.1 hc).2, .adopted request rfl target hm⟩)
  | inserts caller holds channel _ allowed memory holders =>
    obtain rfl : cur = _ := Except.ok.inj (hc.symm.trans caller)
    have hholds := holders e s hs
    rcases hf.of_insert hk.balanced allowed memory with ⟨rfl, rfl⟩ | hbefore
    · -- a space has one holder, so the channel leads to this environment
      obtain rfl := hk.apart e _ s hholds holds
      exact Or.inr (Or.inr ⟨hholds.1, channel⟩)
    · exact Or.inr (Or.inl (hold hholds hbefore))
  | refills memory holders =>
    rcases hf.of_refills memory hk.balanced hk.spaces_lt hl with hfree | hbefore
    · exact Or.inl hfree
    · exact Or.inr (Or.inl (hold (holders e s hs) hbefore))

/-! ## The law -/

/-- The environment with the given id is live and maps the frame somewhere. -/
def Maps (k : Kernel) (id : EnvId) (f : Frame) : Prop :=
  ∃ slot va perm, k.envs.resolve id = some slot ∧ k.mapped slot va = some (f, perm)

/-- **Frames flow along channels.** An environment that maps a frame after a call and did not map
  it before got a frame that was free, or it got the frame along one of the channels. -/
theorem frames_flow {number : UInt32} {args : Args} {id : EnvId} {va : VirtAddr} {perm : Perm}
    (h : Reachable pins k) (hc : k.caller = .ok cur)
    (he : (k.call number args).1.envs.resolve id = some e)
    (hm : (k.call number args).1.mapped e va = some (f, perm)) (hnew : ¬ k.Maps id f) :
    k.memory.pool.isAllocated f = false ∨
      k.envs.resolve id = some e ∧ Channel k cur (.ofWords number args) e f := by
  have hk := h.sound
  have hcur := (caller_eq_ok.1 hc).1
  -- what goes on after the call does not matter here
  have hturns := Turns.call hcur number args
  rw [hturns.resolve] at he
  rw [hturns.mapped] at hm
  obtain ⟨hslot, hlive, hid⟩ := EnvTable.resolve_eq_some_iff.1 he
  obtain ⟨s, hs, hl⟩ := Option.bind_eq_some_iff.1 hm
  have hsame : (k.env e).isLive = true → k.envs.resolve id = some e := by
    intro hbefore
    have hpersists := (perform_outcome hk (.ofWords number args)).persists hbefore hlive
    exact EnvTable.resolve_eq_some_iff.2 ⟨hslot, hbefore, hpersists.id.symm.trans hid⟩
  have heffect := perform_effect hk h.placed (.ofWords number args)
  rcases heffect.flows hk h.legit hc ⟨hlive, hs⟩ ⟨va, perm, hl⟩ with
    hfree | ⟨hbefore, b, p, hmapped⟩ | ⟨hbefore, hchannel⟩
  · exact Or.inl hfree
  · exact absurd ⟨e, b, p, hsame hbefore, hmapped⟩ hnew
  · exact Or.inr ⟨hsame hbefore, hchannel⟩

/-- What an environment maps is among the references of its space. -/
theorem Maps.mem_references {id : EnvId} (h : k.Maps id f) : ∃ slot d,
    k.envs.resolve id = some slot ∧ (k.env slot).space.bind k.memory.directory? = some d ∧
      f ∈ d.references := by
  obtain ⟨slot, va, perm, hr, hm⟩ := h
  obtain ⟨s, hs, hl⟩ := Option.bind_eq_some_iff.1 hm
  obtain ⟨d, hd, hmem⟩ := Memory.frame_mem_of_lookup hl
  exact ⟨slot, d, hr, by rw [hs, Option.bind_some, hd], hmem⟩

/-- A parent has a page, and its child has none. -/
def unshared : Kernel :=
  small.after [.create .none 0 0, .run ⟨4096⟩, .call 6 (.replicate 5 0), takeFirstPage]

theorem not_maps_unshared : ¬ unshared.Maps ⟨4097⟩ ⟨⟨0x402000⟩⟩ := by
  have hempty : ((unshared.env 1).space.bind unshared.memory.directory?).map Directory.references =
      some [⟨⟨0x401000⟩⟩] := by decide +kernel
  intro hmaps
  obtain ⟨slot, d, hr, hd, hmem⟩ := hmaps.mem_references
  have hslot : unshared.envs.resolve ⟨4097⟩ = some 1 := by decide +kernel
  obtain rfl : slot = 1 := Option.some.inj (hr.symm.trans hslot)
  rw [hd, Option.map_some, Option.some.injEq] at hempty
  rw [hempty] at hmem
  revert hmem
  decide

/-- When the parent maps its page to the child, the page comes along a channel. -/
theorem frames_flow_unshared :
    ¬ unshared.Maps ⟨4097⟩ ⟨⟨0x402000⟩⟩ ∧
    (unshared.call 12 #v[0, 0x10000000, 4097, 0x20000000, 5]).1.mapped 1 ⟨0x20000000⟩ =
      some (⟨⟨0x402000⟩⟩, .userRead) ∧
    Channel unshared 0 (.ofWords 12 #v[0, 0x10000000, 4097, 0x20000000, 5]) 1 ⟨⟨0x402000⟩⟩ := by
  have hmapped : (unshared.call 12 #v[0, 0x10000000, 4097, 0x20000000, 5]).1.mapped 1
      ⟨0x20000000⟩ = some (⟨⟨0x402000⟩⟩, .userRead) := by decide +kernel
  have hlives : (unshared.call 12 #v[0, 0x10000000, 4097, 0x20000000, 5]).1.envs.resolve ⟨4097⟩ =
      some 1 := by decide +kernel
  have hcaller : unshared.caller = .ok 0 :=
    caller_eq_ok.2 ⟨by decide +kernel, by decide +kernel⟩
  refine ⟨not_maps_unshared, hmapped, ?_⟩
  rcases frames_flow (reachable_small _) hcaller hlives hmapped not_maps_unshared with
    hfree | ⟨-, hchannel⟩
  · -- the frame is not free
    exact absurd hfree (by decide +kernel)
  · exact hchannel

end Kernel

end Exokernel
