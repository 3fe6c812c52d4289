/-
  What is left in free frames.

  A frame that becomes free keeps its bytes until it is taken again, and taking it zeroes it.  Two
  memories agree if they differ at most in such leftovers.  Everything that memory can be asked
  has the same answer for both, and whatever is done to both leaves memories that agree.

  The relation is on the records of the frames, one by one, so nothing else about memory is asked:
  handles that name no frame, counts that are off and free frames with references are all the
  same in both.
-/
import Exokernel.Memory.UserRange
import Mathlib.Data.Option.Basic

namespace Exokernel

/-! ## Results side by side -/

section Results

variable {α α' β β' σ ε ρ : Type}

/-- The same result, beside states that are related. -/
structure Alongside (R : σ → σ → Prop) (x y : σ × ρ) : Prop where
  state : R x.1 y.1
  result : y.2 = x.2

/-- Both fail for the same reason, or both succeed with results that are related. -/
inductive SameOutcome (R : α → α' → Prop) : Except ε α → Except ε α' → Prop where
  | error (e : ε) : SameOutcome R (.error e) (.error e)
  | ok {a : α} {a' : α'} (related : R a a') : SameOutcome R (.ok a) (.ok a')

namespace SameOutcome

variable {R : α → α' → Prop} {S : β → β' → Prop}

theorem bind {x : Except ε α} {x' : Except ε α'} {f : α → Except ε β} {f' : α' → Except ε β'}
    (h : SameOutcome R x x') (hf : ∀ a a', R a a' → SameOutcome S (f a) (f' a')) :
    SameOutcome S (x >>= f) (x' >>= f') := by
  cases h with
  | error e => exact .error e
  | ok related => exact hf _ _ related

/-- Two computations that begin alike. -/
theorem bind_same {f : α → Except ε β} {f' : α → Except ε β'} (x : Except ε α)
    (hf : ∀ a, SameOutcome S (f a) (f' a)) : SameOutcome S (x >>= f) (x >>= f') := by
  cases x with
  | error e => exact .error e
  | ok a => exact hf a

/-- What has to be told apart: whether it failed, and what came out. -/
theorem cases {Q : σ → σ → Prop} {x x' : Except ε (σ × ρ)}
    (h : SameOutcome (Alongside Q) x x') :
    (∃ e, x = .error e ∧ x' = .error e) ∨
      ∃ a a' r, x = .ok (a, r) ∧ x' = .ok (a', r) ∧ Q a a' := by
  cases h with
  | error e => exact Or.inl ⟨e, rfl, rfl⟩
  | @ok a a' h => exact Or.inr ⟨a.1, a'.1, a.2, rfl, congrArg _ (Prod.ext rfl h.result), h.state⟩

end SameOutcome

theorem Alongside.cases {R : σ → σ → Prop} {x x' : σ × ρ} (h : Alongside R x x') :
    ∃ a a' r, x = (a, r) ∧ x' = (a', r) ∧ R a a' :=
  ⟨x.1, x'.1, x.2, rfl, Prod.ext rfl h.result, h.state⟩

/-- Nothing in both places, or the same result. -/
theorem alongside_cases {R : σ → σ → Prop} {x x' : Option (σ × ρ)}
    (h : Option.Rel (Alongside R) x x') :
    x = none ∧ x' = none ∨ ∃ a a' r, x = some (a, r) ∧ x' = some (a', r) ∧ R a a' := by
  cases h with
  | none => exact Or.inl ⟨rfl, rfl⟩
  | @some a a' h => exact Or.inr ⟨a.1, a'.1, a.2, rfl, congrArg _ (Prod.ext rfl h.result), h.state⟩

end Results

/-! ## Records -/

/-- Records that differ at most in a page that is not in use. -/
structure Cell.Agrees (c c' : Cell) : Prop where
  inUse : c'.inUse = c.inUse
  refs : c'.refs = c.refs
  page : c.inUse = true → c'.page = c.page

theorem Cell.Agrees.refl (c : Cell) : c.Agrees c := ⟨rfl, rfl, fun _ => rfl⟩

/-! ## The pool -/

/-- Pools that differ at most in the pages that are not in use. -/
structure FramePool.Agrees (p p' : FramePool) : Prop where
  base : p'.base = p.base
  size : p'.size = p.size
  freeCount : p'.freeCount = p.freeCount
  misuse : p'.misuse = p.misuse
  cell : ∀ i, (p.cell i).Agrees (p'.cell i)

namespace FramePool

variable {p p' : FramePool} {i : Nat} {change change' : Cell → Cell}

namespace Agrees

/-! ### What a pool is asked -/

theorem frameAt (h : p.Agrees p') (i : Nat) : p'.frameAt i = p.frameAt i := by
  unfold FramePool.frameAt
  rw [h.base]

theorem index? (h : p.Agrees p') (f : Frame) : p'.index? f = p.index? f := by
  unfold FramePool.index? manages distance
  rw [h.base, h.size]

theorem usedIndex? (h : p.Agrees p') (f : Frame) : p'.usedIndex? f = p.usedIndex? f := by
  unfold FramePool.usedIndex?
  rw [h.index? f]
  cases p.index? f with
  | none => rfl
  | some i => simp only [Option.filter_some, (h.cell i).inUse]

theorem isAllocated (h : p.Agrees p') (f : Frame) : p'.isAllocated f = p.isAllocated f :=
  congrArg Option.isSome (h.usedIndex? f)

theorem refCount (h : p.Agrees p') (f : Frame) : p'.refCount f = p.refCount f := by
  unfold FramePool.refCount
  rw [h.index? f]
  cases p.index? f with
  | none => rfl
  | some i => exact (h.cell i).refs

theorem canRetain (h : p.Agrees p') (f : Frame) : p'.canRetain f = p.canRetain f := by
  unfold FramePool.canRetain
  rw [h.usedIndex? f]
  cases p.usedIndex? f with
  | none => rfl
  | some i =>
    show decide ((p'.cell i).refs < maxRefs) = decide ((p.cell i).refs < maxRefs)
    rw [(h.cell i).refs]

/-- Only the contents of frames in use can be read. -/
theorem page? (h : p.Agrees p') (f : Frame) : p'.page? f = p.page? f := by
  unfold FramePool.page?
  rw [h.usedIndex? f]
  refine Option.map_congr fun i hi => ?_
  exact (h.cell i).page (Option.filter_eq_some_iff.1 hi).2

/-- The lowest free frame is the same one. -/
theorem firstFree? (h : p.Agrees p') : p'.firstFree? = p.firstFree? := by
  refine Option.ext fun i => ?_
  rw [firstFree?_eq_some_iff, firstFree?_eq_some_iff, h.size, (h.cell i).inUse]
  simp only [fun j => (h.cell j).inUse]

/-! ### What a pool is made to do -/

theorem update (h : p.Agrees p') (i : Nat)
    (hi : (change (p.cell i)).Agrees (change' (p'.cell i))) :
    (p.update i change).Agrees (p'.update i change') := by
  refine ⟨h.base, by rw [size_update, size_update, h.size], h.freeCount, h.misuse, fun j => ?_⟩
  by_cases hj : j < p.size
  · rw [cell_update p i j change hj, cell_update p' i j change' (h.size ▸ hj)]
    by_cases hij : i = j
    · subst hij
      rwa [if_pos rfl, if_pos rfl]
    · rw [if_neg hij, if_neg hij]
      exact h.cell j
  · have hle := Nat.le_of_not_lt hj
    rw [cell_of_le (by rwa [size_update]), cell_of_le (by rwa [size_update, h.size])]
    exact .refl _

/-- A frame that is taken is zeroed, so what it held plays no part. -/
theorem alloc? (h : p.Agrees p') : Option.Rel (Alongside Agrees) p.alloc? p'.alloc? := by
  unfold FramePool.alloc?
  rw [h.freeCount, h.firstFree?]
  split
  · exact .none
  cases p.firstFree? with
  | none => exact .none
  | some i =>
    have hzeroed : (p.update i fun _ => { inUse := true }).Agrees
        (p'.update i fun _ => { inUse := true }) := h.update i (.refl _)
    exact .some ⟨{ hzeroed with freeCount := rfl }, h.frameAt i⟩

theorem vacate (h : p.Agrees p') (i : Nat) : (p.vacate i).Agrees (p'.vacate i) := by
  have hfreed : (p.update i fun c => { c with inUse := false, refs := 0 }).Agrees
      (p'.update i fun c => { c with inUse := false, refs := 0 }) :=
    h.update i ⟨rfl, rfl, Bool.noConfusion⟩
  exact { hfreed with freeCount := congrArg (· + 1) h.freeCount }

theorem reclaim (h : p.Agrees p') (f : Frame) : (p.reclaim f).Agrees (p'.reclaim f) := by
  have hrefused : ∀ e : Misuse, { p with misuse := p.misuse.or (some e) }.Agrees
      { p' with misuse := p'.misuse.or (some e) } := fun e =>
    { h with misuse := congrArg (Option.or · (some e)) h.misuse }
  unfold FramePool.reclaim FramePool.free
  rw [h.index? f]
  cases p.index? f with
  | none => exact hrefused _
  | some i =>
    simp only [(h.cell i).inUse, (h.cell i).refs]
    cases (p.cell i).inUse with
    | false => exact hrefused _
    | true =>
      cases (p.cell i).refs != 0 with
      | true => exact hrefused _
      | false => exact h.vacate i

theorem retain? (h : p.Agrees p') (f : Frame) :
    Option.Rel Agrees (p.retain? f) (p'.retain? f) := by
  unfold FramePool.retain?
  rw [h.usedIndex? f]
  cases p.usedIndex? f with
  | none => exact .none
  | some i =>
    simp only [(h.cell i).refs]
    split
    · have hi := h.cell i
      exact .some (h.update i ⟨hi.inUse, congrArg (· + 1) hi.refs, hi.page⟩)
    · exact .none

theorem allocOwned? (h : p.Agrees p') :
    Option.Rel (Alongside Agrees) p.allocOwned? p'.allocOwned? := by
  unfold FramePool.allocOwned?
  rcases alongside_cases h.alloc? with ⟨hx, hx'⟩ | ⟨pool, pool', f, hx, hx', hpool⟩ <;>
    rw [hx, hx']
  · exact .none
  · refine .some ⟨?_, rfl⟩
    have hretained := hpool.retain? f
    show ((pool.retain? f).getD pool).Agrees ((pool'.retain? f).getD pool')
    generalize pool.retain? f = kept at hretained ⊢
    generalize pool'.retain? f = kept' at hretained ⊢
    cases hretained with
    | none => exact hpool
    | some hkept => exact hkept

theorem release (h : p.Agrees p') (f : Frame) :
    Alongside Agrees (p.release f) (p'.release f) := by
  unfold FramePool.release
  rw [h.usedIndex? f]
  cases p.usedIndex? f with
  | none => exact ⟨h, rfl⟩
  | some i =>
    have hi := h.cell i
    have hdropped : (p.update i Cell.drop).Agrees (p'.update i Cell.drop) := by
      refine h.update i ⟨hi.inUse, ?_, hi.page⟩
      show (Cell.drop _).refs = (Cell.drop _).refs
      unfold Cell.drop
      rw [hi.refs]
    simp only [(hdropped.cell i).refs]
    split
    · exact ⟨hdropped.reclaim f, rfl⟩
    · exact ⟨hdropped, rfl⟩

theorem releaseAll (fs : List Frame) (h : p.Agrees p') :
    (p.releaseAll fs).Agrees (p'.releaseAll fs) := by
  induction fs generalizing p p' with
  | nil => exact h
  | cons f rest ih => exact ih (h.release f).state

theorem write? (h : p.Agrees p') (f : Frame) (off : Nat) (bytes : Array UInt8) :
    Option.Rel Agrees (p.write? f off bytes) (p'.write? f off bytes) := by
  unfold FramePool.write?
  rw [h.usedIndex? f]
  cases p.usedIndex? f with
  | none => exact .none
  | some i =>
    have hi := h.cell i
    refine .some (h.update i ⟨hi.inUse, hi.refs, fun hused => ?_⟩)
    show (p'.cell i).page.write off bytes = (p.cell i).page.write off bytes
    rw [hi.page hused]

/-- Whatever is written into a frame that is not in use. -/
theorem scribbled {page : Page} (hfree : (p.cell i).inUse = false) :
    p.Agrees (p.update i fun c => { c with page }) := by
  refine ⟨rfl, size_update _ _ _, rfl, rfl, fun j => ?_⟩
  by_cases hj : j < p.size
  · rw [cell_update p i j _ hj]
    by_cases hij : i = j
    · subst hij
      rw [if_pos rfl]
      exact ⟨rfl, rfl, fun hused => absurd (hfree.symm.trans hused) Bool.false_ne_true⟩
    · rw [if_neg hij]
      exact .refl _
  · have hle := Nat.le_of_not_lt hj
    rw [cell_of_le hle, cell_of_le (by rwa [size_update])]
    exact .refl _

end Agrees

end FramePool

/-! ## Memory -/

/-- Memories that differ at most in what is left in free frames. -/
structure Memory.Agrees (m m' : Memory) : Prop where
  pool : m.pool.Agrees m'.pool
  spaces : m'.spaces = m.spaces
  active : m'.active = m.active

namespace Memory.Agrees

variable {m m' : Memory} {s : SpaceId} {va : VirtAddr}

/-! ### What memory is asked -/

theorem directory? (h : m.Agrees m') (s : SpaceId) : m'.directory? s = m.directory? s := by
  unfold Memory.directory?
  rw [h.spaces]

theorem lookup (h : m.Agrees m') (s : SpaceId) (va : VirtAddr) :
    m'.lookup s va = m.lookup s va := by
  unfold Memory.lookup
  rw [h.directory? s]

theorem pageAt (h : m.Agrees m') (s : SpaceId) (va : VirtAddr) :
    m'.pageAt s va = m.pageAt s va := by
  unfold Memory.pageAt
  rw [h.lookup s va]
  cases m.lookup s va with
  | none => rfl
  | some found => simp only [h.pool.page? found.1]

theorem readFrom (h : m.Agrees m') (len done : Nat) (bytes : Array UInt8) :
    m'.readFrom s va len done bytes = m.readFrom s va len done bytes := by
  fun_induction m.readFrom s va len done bytes with
  | case1 done bytes hlt hnone => rw [Memory.readFrom, if_pos hlt, hnone]
  | case2 done bytes hlt cur hcur e hpage =>
    rw [Memory.readFrom, if_pos hlt, hcur]
    simp only [h.pageAt s cur, hpage]
  | case3 done bytes hlt cur hcur f page hpage n ih =>
    rw [Memory.readFrom, if_pos hlt, hcur]
    simp only [h.pageAt s cur, hpage]
    exact ih
  | case4 done bytes hle => rw [Memory.readFrom, if_neg hle]

theorem readBytes (h : m.Agrees m') (s : SpaceId) (va : VirtAddr) (len : Nat) :
    m'.readBytes s va len = m.readBytes s va len :=
  h.readFrom len 0 #[]

theorem copyIn (h : m.Agrees m') (s : SpaceId) (range : UserRange) :
    m'.copyIn s range = m.copyIn s range :=
  congrArg Reading.complete (h.readBytes s range.va range.len)

theorem grants (h : m.Agrees m') (s : SpaceId) (need : Perm) (page : VirtAddr) :
    m'.grants s need page = m.grants s need page := by
  unfold Memory.grants
  rw [h.lookup s page]

theorem firstFault (h : m.Agrees m') (need : Perm) (n : Nat) (page : VirtAddr) :
    m'.firstFault s need va n page = m.firstFault s need va n page := by
  induction n generalizing page with
  | zero => rfl
  | succ n ih =>
    unfold Memory.firstFault
    rw [h.grants s need page, funext ih]

theorem checkRange (h : m.Agrees m') (s : SpaceId) (va : VirtAddr) (len : Nat)
    (access : Access) : m'.checkRange s va len access = m.checkRange s va len access := by
  unfold Memory.checkRange
  split
  · rfl
  cases (va.add? len).bind VirtAddr.alignUp? with
  | none => rfl
  | some stop => simp only [h.firstFault]

/-! ### What memory is made to do -/

theorem withPool (h : m.Agrees m') {pool pool' : FramePool} (hpool : pool.Agrees pool') :
    { m with pool }.Agrees { m' with pool := pool' } :=
  ⟨hpool, h.spaces, h.active⟩

theorem activate (h : m.Agrees m') (s : SpaceId) : (m.activate s).Agrees (m'.activate s) :=
  ⟨h.pool, h.spaces, rfl⟩

theorem setDirectory (h : m.Agrees m') (s : SpaceId) (d : Option Directory) :
    (m.setDirectory s d).Agrees (m'.setDirectory s d) :=
  ⟨h.pool, congrArg (Array.setIfInBounds · s.number.toNat d) h.spaces, h.active⟩

theorem allocPage (h : m.Agrees m') :
    SameOutcome (Alongside Agrees) m.allocPage m'.allocPage := by
  unfold Memory.allocPage
  rcases alongside_cases h.pool.alloc? with ⟨hx, hx'⟩ | ⟨pool, pool', f, hx, hx', hpool⟩ <;>
    rw [hx, hx']
  · exact .error _
  · exact .ok ⟨h.withPool hpool, rfl⟩

theorem freePage (h : m.Agrees m') (f : Frame) : (m.freePage f).Agrees (m'.freePage f) := by
  unfold Memory.freePage
  rw [h.pool.isAllocated f, h.pool.refCount f]
  split
  · exact h.withPool (h.pool.reclaim f)
  · exact h

theorem createSpace (h : m.Agrees m') :
    SameOutcome (Alongside Agrees) m.createSpace m'.createSpace := by
  unfold Memory.createSpace
  rcases alongside_cases h.pool.allocOwned? with
    ⟨hx, hx'⟩ | ⟨pool, pool', f, hx, hx', hpool⟩ <;> rw [hx, hx']
  · exact .error _
  · simp only [h.spaces]
    split
    · exact .ok ⟨⟨hpool, rfl, h.active⟩, rfl⟩
    · exact .ok ⟨⟨hpool, rfl, h.active⟩, rfl⟩

theorem destroySpace (h : m.Agrees m') (s : SpaceId) :
    (m.destroySpace s).Agrees (m'.destroySpace s) := by
  unfold Memory.destroySpace
  rw [h.directory? s]
  cases m.directory? s with
  | none => exact h
  | some d =>
    refine ⟨h.pool.releaseAll d.references, (h.setDirectory s none).spaces, ?_⟩
    show (if m'.active = some s then none else m'.active) = _
    rw [h.active]

theorem tableFor? {p p' : FramePool} (h : p.Agrees p') (d : Directory) (va : VirtAddr) :
    Option.Rel (Alongside FramePool.Agrees) (tableFor? p d va) (tableFor? p' d va) := by
  unfold Memory.tableFor?
  cases d.table? va with
  | some t => exact .some ⟨h, rfl⟩
  | none =>
    rcases alongside_cases h.allocOwned? with
      ⟨hx, hx'⟩ | ⟨pool, pool', f, hx, hx', hpool⟩ <;> rw [hx, hx']
    · exact .none
    · exact .some ⟨hpool, rfl⟩

/-- Mapping a page, from the table on. -/
theorem insert (h : m.Agrees m') (s : SpaceId) (f : Frame) (va : VirtAddr) (perm : Perm) :
    SameOutcome Agrees (m.insert s f va perm) (m'.insert s f va perm) := by
  unfold Memory.insert
  rw [h.pool.isAllocated f, h.pool.canRetain f, h.directory? s]
  split
  · exact .error _
  split
  · exact .error _
  split
  · exact .error _
  cases m.directory? s with
  | none => exact .error _
  | some d =>
    rcases alongside_cases (tableFor? h.pool d va) with
      ⟨hx, hx'⟩ | ⟨pool, pool', t, hx, hx', hpool⟩ <;> simp only [hx, hx']
    · exact .error _
    have hretained := hpool.retain? f
    generalize pool.retain? f = kept at hretained ⊢
    generalize pool'.retain? f = kept' at hretained ⊢
    cases hretained with
    | none => exact .error _
    | some hkept =>
      refine .ok ⟨?_, (h.setDirectory s _).spaces, h.active⟩
      simp only
      cases t.find? va with
      | none => exact hkept
      | some old => exact (hkept.release old.frame).state

theorem remove (h : m.Agrees m') (s : SpaceId) (va : VirtAddr) :
    (m.remove s va).Agrees (m'.remove s va) := by
  unfold Memory.remove
  rw [h.directory? s]
  cases m.directory? s with
  | none => exact h
  | some d =>
    simp only
    cases d.table? va with
    | none => exact h
    | some t =>
      simp only
      cases t.find? va with
      | none => exact h
      | some old => exact (h.setDirectory s _).withPool (h.pool.release old.frame).state

theorem mapFresh (h : m.Agrees m') (s : SpaceId) (va : VirtAddr) (perm : Perm) :
    Alongside Agrees (m.mapFresh s va perm) (m'.mapFresh s va perm) := by
  unfold Memory.mapFresh
  rcases h.allocPage.cases with ⟨e, hx, hx'⟩ | ⟨m₁, m₁', f, hx, hx', hm⟩ <;> rw [hx, hx']
  · exact ⟨h, rfl⟩
  have hplaced := hm.insert s f va perm
  simp only
  generalize m₁.insert s f va perm = placed at hplaced ⊢
  generalize m₁'.insert s f va perm = placed' at hplaced ⊢
  cases hplaced with
  | error e => exact ⟨hm.freePage f, rfl⟩
  | ok hm₂ => exact ⟨hm₂, rfl⟩

theorem removePages (h : m.Agrees m') (s : SpaceId) (n : Nat) (va : VirtAddr) :
    (removePages s n va m).Agrees (removePages s n va m') := by
  induction n generalizing va m m' with
  | zero => exact h
  | succ n ih => exact ih (h.remove s va) _

theorem mapPages (h : m.Agrees m') (s : SpaceId) (perm : Perm) (n : Nat) (va : VirtAddr) :
    Alongside Agrees (mapPages s perm n va m) (mapPages s perm n va m') := by
  induction n generalizing va m m' with
  | zero => exact ⟨h, rfl⟩
  | succ n ih =>
    unfold Memory.mapPages
    obtain ⟨m₁, m₁', stopped, hx, hx', hm⟩ := (h.mapFresh s va perm).cases
    rw [hx, hx']
    cases stopped with
    | some e => exact ⟨hm, rfl⟩
    | none => exact ih hm _

/-! ### What is written -/

theorem writeFrom (h : m.Agrees m') (data : Array UInt8) (done : Nat) :
    Alongside Agrees (m.writeFrom s va data done) (m'.writeFrom s va data done) := by
  fun_induction m.writeFrom s va data done generalizing m' with
  | case1 m done hlt hnone =>
    rw [Memory.writeFrom, if_pos hlt, hnone]
    exact ⟨h, rfl⟩
  | case2 m done hlt cur hcur e hpage =>
    rw [Memory.writeFrom, if_pos hlt, hcur]
    simp only [h.pageAt s cur, hpage]
    exact ⟨h, rfl⟩
  | case3 m done hlt cur hcur f page hpage n =>
    rename_i hnone
    rw [Memory.writeFrom, if_pos hlt, hcur]
    simp only [h.pageAt s cur, hpage]
    have hwritten := h.pool.write? f cur.offset (data.extract done (done + n))
    rw [hnone] at hwritten
    generalize m'.pool.write? f cur.offset _ = written' at hwritten ⊢
    cases hwritten
    exact ⟨h, rfl⟩
  | case4 m done hlt cur hcur f page hpage n pool hsome =>
    rename_i ih
    rw [Memory.writeFrom.eq_def m' s va data done, if_pos hlt, hcur]
    simp only [h.pageAt s cur, hpage]
    have hwritten := h.pool.write? f cur.offset (data.extract done (done + n))
    rw [hsome] at hwritten
    generalize m'.pool.write? f cur.offset _ = written' at hwritten ⊢
    cases hwritten with
    | some hpool => exact ih (h.withPool hpool)
  | case5 m done hle =>
    rw [Memory.writeFrom, if_neg hle]
    exact ⟨h, rfl⟩

theorem writeBytes (h : m.Agrees m') (s : SpaceId) (va : VirtAddr) (data : Array UInt8) :
    Alongside Agrees (m.writeBytes s va data) (m'.writeBytes s va data) :=
  h.writeFrom data 0

end Memory.Agrees

end Exokernel
