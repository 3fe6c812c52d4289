/-
  What a user can have mapped.

  A mapping is legitimate if it lies among the addresses of the user, with a permission off the
  allow-list, and if its frame is in use as an ordinary page.  That last point is the one that
  matters: a user who had a page table mapped could write mappings of its own.

  Frames go back and forth between tables and pages, so it has to be seen that the two never
  meet.  They do not because a table, a directory or a fresh page is always put in a frame that
  is free, while a frame that comes along a channel is mapped already or is reserved.  `Legit`
  says what holds of the three maps, and it is kept by setting one entry, hence by all effects.
-/
import Exokernel.Proofs.Channels

namespace Exokernel

/-! ## Permissions -/

namespace Perm

variable {p q r : Perm}

theorem requestable_iff :
    p.Requestable ↔ p.contains userRead = true ∧ requestable.contains p = true := by
  unfold Requestable request
  simp only
  rw [← Bool.and_eq_true_iff]
  constructor
  · intro h
    split at h
    · assumption
    · cases h
  · intro h
    rw [if_pos h]

theorem contains_trans (h : p.contains q = true) (h' : q.contains r = true) :
    p.contains r = true := by
  unfold contains at *
  rw [beq_iff_eq] at *
  calc p.bits &&& r.bits = p.bits &&& (q.bits &&& r.bits) := by rw [h']
    _ = p.bits &&& q.bits &&& r.bits := (UInt32.and_assoc _ _ _).symm
    _ = r.bits := by rw [h, h']

theorem union_of_contains (h : p.contains q = true) : p.union q = p := by
  unfold contains at h
  rw [beq_iff_eq] at h
  have hbits : p.bits ||| q.bits = p.bits := by
    rw [← h, ← UInt32.toNat_inj, UInt32.toNat_or, UInt32.toNat_and]
    refine Nat.eq_of_testBit_eq fun i => ?_
    rw [Nat.testBit_or, Nat.testBit_and]
    cases p.bits.toNat.testBit i <;> simp
  exact congrArg Perm.mk hbits

theorem Requestable.contains_present (h : p.Requestable) : p.contains present = true :=
  contains_trans (requestable_iff.1 h).1 (by decide)

theorem Requestable.contains_user (h : p.Requestable) : p.contains user = true :=
  contains_trans (requestable_iff.1 h).1 (by decide)

end Perm

/-- An entry has the permission that was asked for. -/
theorem PageEntry.perm_page_of_requestable {f : Frame} {perm : Perm} (hf : Fits f)
    (hp : perm.Requestable) : (page f.addr perm).perm = perm := by
  rw [perm_page hf hp.bits_lt, Perm.union_of_contains hp.contains_present]

theorem VirtAddr.pageStart_lt_userTop {va : VirtAddr} (h : va.isUser = true) :
    va.pageStart < userTop :=
  Nat.lt_of_le_of_lt va.pageStart_le (of_decide_eq_true h)

namespace Memory

variable {m m' : Memory} {pins : List Frame} {s : SpaceId} {va b : VirtAddr} {f : Frame}
  {perm : Perm} {e : Option PageEntry}

/-! ## The law of the maps -/

/-- All mappings are legitimate. -/
structure Legit (m : Memory) (pins : List Frame) : Prop where
  user : ∀ s va e, m.find? s va = some e → va.pageStart < userTop
  allowed : ∀ s va e, m.find? s va = some e → e.perm.Requestable
  /-- No directory and no table is mapped. -/
  apart : ∀ s va e, m.find? s va = some e → ¬ m.Structural e.frame
  /-- No directory and no table is in a reserved frame. -/
  reserved : ∀ f ∈ pins, ¬ m.Structural f

/-- What a space maps is read off its entries. -/
theorem Legit.lookup_eq (h : m.Legit pins) (s : SpaceId) (va : VirtAddr) :
    m.lookup s va = (m.find? s va).map fun e => (e.frame, e.perm) := by
  rw [lookup_eq_find?]
  cases he : m.find? s va with
  | none => rfl
  | some e =>
    have hvalid : e.isValid = true := (h.allowed s va e he).contains_present
    rw [Option.bind_some, if_pos hvalid, Option.map_some]

/-- Without new mappings all stays legitimate, if no directory and no table comes into a frame that
  is mapped or reserved. -/
theorem Legit.of_maps (h : m.Legit pins)
    (hfind : ∀ s va e, m'.find? s va = some e → m.find? s va = some e)
    (hstructural : ∀ f, m'.Structural f →
      m.Structural f ∨ (∀ s va e, m.find? s va = some e → e.frame ≠ f) ∧ f ∉ pins) :
    m'.Legit pins := by
  constructor
  · intro s va e he
    exact h.user s va e (hfind s va e he)
  · intro s va e he
    exact h.allowed s va e (hfind s va e he)
  · intro s va e he hf
    have hold := hfind s va e he
    rcases hstructural e.frame hf with hf | ⟨hnew, -⟩
    · exact h.apart s va e hold hf
    · exact hnew s va e hold rfl
  · intro f hf hs
    rcases hstructural f hs with hs | ⟨-, hnew⟩
    · exact h.reserved f hf hs
    · exact hnew hf

/-- What is left when some directories are gone is legitimate. -/
theorem Legit.of_directories (h : m.Legit pins)
    (hd : ∀ s d, m'.directory? s = some d → m.directory? s = some d) : m'.Legit pins := by
  refine h.of_maps ?_ ?_
  · intro s va e he
    obtain ⟨d, hds, he⟩ := Option.bind_eq_some_iff.1 he
    exact Option.bind_eq_some_iff.2 ⟨d, hd s d hds, he⟩
  · rintro f (⟨s, hs⟩ | ⟨s, va, hs⟩)
    · obtain ⟨d, hds, hf⟩ := Option.map_eq_some_iff.1 hs
      exact Or.inl (Or.inl ⟨s, Option.map_eq_some_iff.2 ⟨d, hd s d hds, hf⟩⟩)
    · obtain ⟨d, hds, hf⟩ := Option.bind_eq_some_iff.1 hs
      exact Or.inl (Or.inr ⟨s, va, Option.bind_eq_some_iff.2 ⟨d, hd s d hds, hf⟩⟩)

theorem Legit.of_same (h : m.Legit pins) (hs : m.Same m') : m'.Legit pins :=
  h.of_directories fun s _ hd => (hs.directory? s).symm.trans hd

theorem Legit.destroySpace (h : m.Legit pins) (hb : m.Balanced pins []) (s : SpaceId) :
    (m.destroySpace s).Legit pins := by
  obtain ⟨-, hclosed⟩ := destroySpace_spec hb s
  refine h.of_directories fun r _ hd => ?_
  by_cases hr : r = s
  · rw [hr, hclosed.gone] at hd
    cases hd
  · rw [← hclosed.others r hr]
    exact hd

/-- The directory of a new space is in a frame that nobody has mapped. -/
theorem Legit.createSpace (h : m.Legit pins) (hb : m.Balanced pins [])
    (hsize : m.spaces.size < 0x100000000) (hc : m.createSpace = .ok (m', s)) :
    m'.Legit pins := by
  obtain ⟨-, f, hopens, hfresh⟩ := createSpace_fresh hb hsize hc
  rw [List.mem_append, not_or] at hfresh
  obtain ⟨hunmapped, hpins⟩ := hfresh
  have hother : ∀ {r}, r ≠ s → m'.directory? r = m.directory? r := fun hr => hopens.others _ hr
  refine h.of_maps ?_ ?_
  · intro r va e he
    by_cases hr : r = s
    · rw [hr, hopens.toNumbers.find?_eq_none] at he
      cases he
    · rwa [find?_congr (hother hr)] at he
  · rintro g (⟨r, hg⟩ | ⟨r, va, hg⟩)
    · by_cases hr : r = s
      · -- the directory of the new space
        rw [hr, root?, hopens.added] at hg
        obtain rfl : f = g := Option.some.inj hg
        refine Or.inr ⟨fun q va e he hf => hunmapped ?_, hpins⟩
        exact (mem_references_iff hsize).2 (Or.inr ⟨q, va, e, he, hf⟩)
      · rw [root?_congr (hother hr)] at hg
        exact Or.inl (Or.inl ⟨r, hg⟩)
    · by_cases hr : r = s
      · -- it has no tables
        rw [hr, table?, hopens.added] at hg
        simp [Directory.table?, Directory.empty] at hg
      · rw [table?_congr (hother hr)] at hg
        exact Or.inl (Or.inr ⟨r, va, hg⟩)

/-- **Setting an entry** keeps mappings legitimate if the new one is. -/
theorem Sets.legit (hs : m.Sets m' s va e) (h : m.Legit pins) (hb : m.Balanced pins [])
    (hsize : m.spaces.size < 0x100000000)
    (hnew : ∀ x, e = some x →
      va.isUser = true ∧ x.perm.Requestable ∧ ¬ m'.Structural x.frame) : m'.Legit pins := by
  -- what was in use for something else becomes no table
  have hkept : ∀ g, m.pool.isAllocated g = true → ¬ m.Structural g → ¬ m'.Structural g := by
    intro g hg hold hnow
    exact hold ((hs.structural hg).1 hnow)
  have hcases : ∀ r b x, m'.find? r b = some x →
      (va.SamePage b ∧ e = some x) ∨ m.find? r b = some x := by
    intro r b x hx
    rw [hs.entry] at hx
    split at hx
    · rename_i hrb
      exact Or.inl ⟨hrb.2, hx⟩
    · exact Or.inr hx
  constructor
  · intro r b x hx
    rcases hcases r b x hx with ⟨hpage, he⟩ | hold
    · rw [← hpage.pageStart_eq]
      exact VirtAddr.pageStart_lt_userTop (hnew x he).1
    · exact h.user r b x hold
  · intro r b x hx
    rcases hcases r b x hx with ⟨-, he⟩ | hold
    · exact (hnew x he).2.1
    · exact h.allowed r b x hold
  · intro r b x hx
    rcases hcases r b x hx with ⟨-, he⟩ | hold
    · exact (hnew x he).2.2
    · refine hkept x.frame ?_ (h.apart r b x hold)
      exact (hb.isAllocated_iff_maps hsize).2 (Or.inr (Or.inl ⟨r, b, x, hold, rfl⟩))
  · intro g hg
    refine hkept g ?_ (h.reserved g hg)
    exact (hb.isAllocated_iff_maps hsize).2 (Or.inr (Or.inr hg))

/-- A frame that is neither a directory nor a table is mapped. -/
theorem Legit.insert (h : m.Legit pins) (hb : m.Balanced pins [])
    (hsize : m.spaces.size < 0x100000000) (hva : va.isUser = true) (hp : perm.Requestable)
    (hf : ¬ m.Structural f) (hi : m.insert s f va perm = .ok m') : m'.Legit pins := by
  have hused : m.pool.isAllocated f = true := (insert_eq_ok hi).2.1
  have hsets := insert_sets hb hi
  refine hsets.legit h hb hsize fun x hx => ?_
  obtain rfl := Option.some.inj hx
  have hfits := hb.fits_of_manages (FramePool.manages_of_isAllocated hused)
  rw [PageEntry.perm_page_of_requestable hfits hp, PageEntry.frame_page hfits hp.bits_lt,
    hsets.structural hused]
  exact ⟨hva, hp, hf⟩

theorem Refill.legit {W : VirtAddr → Prop} (hr : Refill s W m m') (h : m.Legit pins)
    (hb : m.Balanced pins []) (hsize : m.spaces.size < 0x100000000) : m'.Legit pins := by
  cases hr with
  | map user allowed _ mapped =>
    obtain ⟨f, hfresh⟩ := mapFresh_sets hb hsize mapped
    refine hfresh.sets.legit h hb hsize fun x hx => ?_
    obtain rfl := Option.some.inj hx
    rw [PageEntry.perm_page_of_requestable hfresh.fits allowed,
      PageEntry.frame_page hfresh.fits allowed.bits_lt]
    exact ⟨user, allowed, hfresh.loose⟩
  | fail _ failed =>
    have halike := mapFresh_failed hb failed
    exact h.of_directories fun r _ hd => (halike.directory? r).symm.trans hd
  | unmap _ => exact (remove_sets hb s _).legit h hb hsize fun x hx => by cases hx

/-- Fresh pages come and go: every one of them is legitimate. -/
theorem Refills.legit {W : VirtAddr → Prop} (hr : Refills s W m m') (h : m.Legit pins)
    (hb : m.Balanced pins []) (hsize : m.spaces.size < 0x100000000) : m'.Legit pins :=
  Refills.invariant (I := fun m => m.Legit pins) hr hb hsize h
    fun _ _ hb hsize h hstep => hstep.legit h hb hsize

end Memory

namespace Kernel

variable {pins : List Frame} {P : Nat → Prop} {k k' : Kernel} {r : Request} {cur e slot : Nat}
  {f : Frame}

/-! ## Along a channel -/

/-- What an environment maps is an entry of some space. -/
theorem find?_of_mapped {va : VirtAddr} {perm : Perm} (h : k.mapped slot va = some (f, perm)) :
    ∃ s x, k.memory.find? s va = some x ∧ x.frame = f := by
  obtain ⟨s, -, hl⟩ := Option.bind_eq_some_iff.1 h
  exact ⟨s, Memory.find?_of_lookup hl⟩

/-- No channel brings a directory or a table. -/
theorem Channel.not_structural (h : Channel k cur r e f) (hl : k.memory.Legit pins)
    (hpage : ∀ f, k.config.kernelPage = some f → f ∈ pins) : ¬ k.memory.Structural f := by
  have hmapped : ∀ {slot va perm}, k.mapped slot va = some (f, perm) →
      ¬ k.memory.Structural f := by
    intro slot va perm hm
    obtain ⟨s, x, hx, rfl⟩ := find?_of_mapped hm
    exact hl.apart s va x hx
  cases h with
  | kernelPage _ _ page => exact hl.reserved f (hpage f page)
  | shared _ _ _ _ _ mapped => exact hmapped mapped
  | sent _ _ _ _ mapped => exact hmapped mapped
  | received _ _ _ _ _ _ _ _ mapped => exact hmapped mapped
  | adopted _ _ _ mapped => exact hmapped mapped

/-- **Every effect keeps mappings legitimate.** -/
theorem Effect.legit (he : Effect k r k') (hk : k.Sound pins) (h : k.memory.Legit pins)
    (hpage : ∀ f, k.config.kernelPage = some f → f ∈ pins) : k'.memory.Legit pins := by
  cases he with
  | keeps memory _ => exact h.of_same memory
  | opens memory _ => exact h.createSpace hk.balanced hk.spaces_lt memory
  | closes memory _ => exact (h.destroySpace hk.balanced _).of_same memory
  | adopts _ _ _ memory _ => exact (h.destroySpace hk.balanced _).of_same memory
  | inserts _ _ channel user allowed memory _ =>
    exact h.insert hk.balanced hk.spaces_lt user allowed (channel.not_structural h hpage) memory
  | refills memory _ => exact Memory.Refills.legit memory h hk.balanced hk.spaces_lt

/-! ## In every reachable state -/

theorem Edit.config (he : Edit pins P k k') : k'.config = k.config := by
  cases he with
  | quiet config _ _ _ => exact config
  | tune => rfl
  | park => rfl
  | wait => rfl
  | remap => rfl
  | enlist alloc =>
    obtain ⟨s, -, -, -, -, -, -, hconfig, -⟩ := allocEnv_spec alloc
    exact hconfig
  | swap => rfl

theorem Move.config (hm : Move pins k k') : k'.config = k.config := by
  cases hm with
  | edit he => exact he.config
  | ending _ => exact config_destroy
  | store => rfl

/-- The page that the kernel shares stays the one that was reserved. -/
theorem Reachable.kernelPage (h : Reachable pins k) :
    ∀ f, k.config.kernelPage = some f → f ∈ pins := by
  refine @Reachable.invariant pins k (fun k => ∀ f, k.config.kernelPage = some f → f ∈ pins) h
    (fun k hb => hb.kernelPage) fun k k' _ hi hm => ?_
  rw [hm.config]
  exact hi

theorem Booted.legit (h : k.Booted pins) : k.memory.Legit pins := by
  have hdirectory := (vacant_of_reserved h.reserved).directory?
  have hstructural : ∀ f, ¬ k.memory.Structural f := by
    rintro f (⟨s, hs⟩ | ⟨s, va, hs⟩)
    · rw [Memory.root?, hdirectory] at hs
      cases hs
    · rw [Memory.table?, hdirectory] at hs
      cases hs
  have hfind : ∀ {s va x}, k.memory.find? s va = some x → False := by
    intro s va x hx
    rw [Memory.find?, hdirectory] at hx
    cases hx
  exact ⟨fun _ _ _ hx => (hfind hx).elim, fun _ _ _ hx => (hfind hx).elim,
    fun _ _ x _ => hstructural x.frame, fun f _ => hstructural f⟩

/-- Mappings are legitimate in every reachable state. -/
theorem Reachable.legit (h : Reachable pins k) : k.memory.Legit pins := by
  refine h.memory_invariant (I := fun m => m.Legit pins) ?_ ?_ ?_ ?_
  · exact fun _ hb => hb.legit
  · exact fun _ _ hd hl => hl.of_directories hd
  · exact fun _ _ _ hk hl hc => hl.createSpace hk.balanced hk.spaces_lt hc
  · exact fun _ _ _ hr hl he => he.legit hr.sound hl hr.kernelPage

/-! ## The law, entry by entry -/

/-- What is true of the entry `x` for the page `j` of the table `i` of a space. -/
structure Legitimate (k : Kernel) (i j : Fin tableSize) (x : PageEntry) : Prop where
  below : (i.val * tableSize + j.val) * pageSize < userTop
  present : x.perm.contains .present = true
  user : x.perm.contains .user = true
  allowed : Perm.requestable.contains x.perm = true
  allocated : k.memory.pool.isAllocated x.frame = true
  noDirectory : ∀ s d, k.memory.directory? s = some d → d.frame ≠ x.frame
  noTable : ∀ s d (n : Fin tableSize) t, k.memory.directory? s = some d →
    d.tables[n] = some t → t.frame ≠ x.frame

/-- **Mappings are legitimate.** In every reachable state this is true of all entries of all live
  spaces. -/
theorem mappings_legitimate {s : SpaceId} {d : Directory} {i j : Fin tableSize} {t : PageTable}
    {x : PageEntry} (h : Reachable pins k) (hd : k.memory.directory? s = some d)
    (ht : d.tables[i] = some t) (hx : t.entries[j] = some x) : k.Legitimate i j x := by
  have hlegit := h.legit
  have hfind : k.memory.find? s (.ofIndices i j) = some x := by
    rw [Memory.find?, hd, Option.bind_some, Directory.find?, (d.table?_ofIndices i j).trans ht,
      Option.bind_some, (t.find?_ofIndices i j).trans hx]
  have hperm := hlegit.allowed s _ x hfind
  have hapart := hlegit.apart s _ x hfind
  constructor
  · rw [← VirtAddr.pageStart_ofIndices]
    exact hlegit.user s _ x hfind
  · exact hperm.contains_present
  · exact hperm.contains_user
  · exact (Perm.requestable_iff.1 hperm).2
  · rw [h.sound.balanced.isAllocated_iff_maps h.sound.spaces_lt]
    exact Or.inr (Or.inl ⟨s, _, x, hfind, rfl⟩)
  · intro r d' hd' hf
    refine hapart (Or.inl ⟨r, ?_⟩)
    rw [Memory.root?, hd', Option.map_some, hf]
  · intro r d' n t' hd' ht' hf
    refine hapart (Or.inr ⟨r, .ofIndices n 0, ?_⟩)
    rw [Memory.table?, hd', Option.bind_some, (d'.table?_ofIndices n 0).trans ht',
      Option.map_some, hf]

/-- The current environment maps a fresh page where its heap begins. -/
def takeFirstPage : Action := .call 11 #v[0, 0x10000000, 7, 0, 0]

/-- An environment maps a fresh page and shares it with a child, which may only read it. -/
def sharing : List Action :=
  [.create .none 0 0, .run ⟨4096⟩, .call 6 (.replicate 5 0), takeFirstPage,
    .call 12 #v[0, 0x10000000, 4097, 0x20000000, 5]]

/-- The page of the child is legitimate. -/
theorem mappings_legitimate_sharing : ∃ d t x,
    (small.after sharing).memory.directory? ⟨1⟩ = some d ∧
      d.tables[(128 : Fin tableSize)] = some t ∧ t.entries[(0 : Fin tableSize)] = some x ∧
        (small.after sharing).Legitimate 128 0 x := by
  have hsome : (((small.after sharing).memory.directory? ⟨1⟩).bind fun d =>
      d.tables[(128 : Fin tableSize)].bind fun t => t.entries[(0 : Fin tableSize)]).isSome =
        true := by decide +kernel
  obtain ⟨x, hsome⟩ := Option.isSome_iff_exists.1 hsome
  obtain ⟨d, hd, hsome⟩ := Option.bind_eq_some_iff.1 hsome
  obtain ⟨t, ht, hx⟩ := Option.bind_eq_some_iff.1 hsome
  exact ⟨d, t, x, hd, ht, hx, mappings_legitimate (reachable_small sharing) hd ht hx⟩

/-- It is the page of the parent, and neither of the two tables. -/
example : (small.after sharing).mapped 0 ⟨0x10000000⟩ = some (⟨⟨0x402000⟩⟩, .userWrite) ∧
    (small.after sharing).mapped 1 ⟨0x20000000⟩ = some (⟨⟨0x402000⟩⟩, .userRead) := by
  decide +kernel

end Kernel

end Exokernel
