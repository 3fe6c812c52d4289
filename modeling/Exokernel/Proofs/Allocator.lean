/-
  The frame allocator, over every history.

  The counts that the pool keeps are compared with counts that are made from outside, by reading
  the history (`retained`, `dropped`).  Nothing in the pool records these, so the law says that
  saturation, frames that are freed and handed out again, and handles that name nothing never put
  the two out of step.

  `Effect` is the complete list of what an exchange can be, with what it leaves of the pool; each
  case is the contract of one operation (`serve_effect`).  `Tally` is the invariant.  Its step
  splits on `Effect`, and in each case only the frame that the exchange is about needs a thought:
  neither the record of another frame nor what is counted for it changes (`Tally.rewrite`).
-/
import Exokernel.FramePool.History
import Exokernel.Proofs.Counts
import Exokernel.Proofs.Stores

namespace Exokernel.FramePool

variable {p p' : FramePool} {f g : Frame} {c : Cell} {base : PhysAddr} {n : Nat}
  {past : List Exchange} {e : Exchange} {d : Demand} {a : Answer}

/-! ## Counting along a history -/

theorem since_cons (f : Frame) (e : Exchange) (past : List Exchange) :
    since f (e :: past) = if e = handedOut f then [] else e :: since f past := by
  unfold since
  rw [List.takeWhile_cons]
  by_cases h : e = handedOut f <;> simp [h]

/-- What is counted starts again when the frame is handed out. -/
theorem count_since_cons (f : Frame) (what e : Exchange) (past : List Exchange) :
    (since f (e :: past)).count what =
      if e = handedOut f then 0 else (since f past).count what + if e = what then 1 else 0 := by
  rw [since_cons]
  split
  · rfl
  · simp only [List.count_cons, beq_iff_eq]

theorem retained_cons (f : Frame) (e : Exchange) (past : List Exchange) :
    retained f (e :: past) =
      if e = handedOut f then 0
      else retained f past + if e = ⟨.retain f, .flag true⟩ then 1 else 0 :=
  count_since_cons f _ e past

theorem dropped_cons (f : Frame) (e : Exchange) (past : List Exchange) :
    dropped f (e :: past) =
      if e = handedOut f then 0
      else dropped f past + if e = ⟨.release f, .flag false⟩ then 1 else 0 :=
  count_since_cons f _ e past

/-- An exchange that is about another frame is not counted. -/
theorem counts_of_about_ne (past : List Exchange) (h : e.about ≠ some f) :
    retained f (e :: past) = retained f past ∧ dropped f (e :: past) = dropped f past := by
  have hne : ∀ e', e'.about = some f → e ≠ e' := by
    rintro e' habout rfl
    exact h habout
  rw [retained_cons, dropped_cons, if_neg (hne _ rfl), if_neg (hne _ rfl), if_neg (hne _ rfl),
    if_neg (hne _ rfl)]
  exact ⟨rfl, rfl⟩

/-! ## What an exchange can be -/

/-- From `p`, the exchange leads to `p'`: one constructor for each thing that can happen. -/
inductive Effect (p : FramePool) : Exchange → FramePool → Prop
  | allocated {p' : FramePool} {f : Frame} (idle : ∃ c, p.cell? f = some c ∧ c.inUse = false)
      (after : p.Rewrites p' f { inUse := true }) : Effect p ⟨.alloc, .frame (some f)⟩ p'
  | exhausted : Effect p ⟨.alloc, .frame none⟩ p
  | freed {p' : FramePool} {f : Frame} {c : Cell} (cell : p.cell? f = some c)
      (used : c.inUse = true) (after : p.Rewrites p' f { c with inUse := false, refs := 0 }) :
      Effect p ⟨.free f, .done⟩ p'
  | retained {p' : FramePool} {f : Frame} {c : Cell} (cell : p.cell? f = some c)
      (used : c.inUse = true) (room : c.refs < maxRefs)
      (after : p.Rewrites p' f { c with refs := c.refs + 1 }) :
      Effect p ⟨.retain f, .flag true⟩ p'
  | refused {f : Frame} : Effect p ⟨.retain f, .flag false⟩ p
  | released {p' : FramePool} {f : Frame} {c : Cell} (cell : p.cell? f = some c)
      (used : c.inUse = true) (after : p.Rewrites p' f { c with inUse := false, refs := 0 }) :
      Effect p ⟨.release f, .flag true⟩ p'
  | dropped {p' : FramePool} {f : Frame} {c : Cell} (cell : p.cell? f = some c)
      (used : c.inUse = true) (more : 1 < c.refs.toNat) (after : p.Rewrites p' f c.drop) :
      Effect p ⟨.release f, .flag false⟩ p'
  | ignored {f : Frame} (idle : p.isAllocated f = false) : Effect p ⟨.release f, .flag false⟩ p
  | written {p' : FramePool} {f : Frame} {off : Nat} {bytes : Array UInt8} {c : Cell}
      (cell : p.cell? f = some c) (used : c.inUse = true)
      (after : p.Rewrites p' f { c with page := c.page.write off bytes }) :
      Effect p ⟨.write f off bytes, .flag true⟩ p'
  | unwritten {f : Frame} {off : Nat} {bytes : Array UInt8} :
      Effect p ⟨.write f off bytes, .flag false⟩ p

/-- Giving back succeeds for a frame in use without references, and for no other. -/
theorem free_spec (h : p.free f = .ok p') :
    p' = p.reclaim f ∧ ∃ c, p.cell? f = some c ∧ c.inUse = true ∧ c.refs = 0 := by
  refine ⟨by rw [reclaim, h], ?_⟩
  unfold free at h
  split at h
  · cases h
  rename_i i hi
  split at h
  · cases h
  rename_i hused
  split at h
  · cases h
  rename_i hzero
  exact ⟨p.cell i, by rw [cell?, hi, Option.map_some], by simpa using hused, by simpa using hzero⟩

/-- Dropping a reference makes a frame free if the count was 0 or 1, and the answer says so. -/
theorem release_snd (hc : p.cell? f = some c) (hu : c.inUse = true) :
    (p.release f).2 = decide (c.refs.toNat ≤ 1) := by
  obtain ⟨i, hi, rfl⟩ := Option.map_eq_some_iff.1 hc
  rw [release_eq hi hu]
  split
  · rename_i hlast
    exact (decide_eq_true hlast).symm
  · rename_i hmore
    exact (decide_eq_false hmore).symm

/-- **Every exchange is one of these.** -/
theorem serve_effect (hs : p.Sound) (h : p.serve d = .ok (p', a)) :
    p'.Sound ∧ p.Effect ⟨d, a⟩ p' := by
  cases d with
  | alloc =>
    simp only [serve] at h
    split at h
    · rename_i q f hq
      obtain ⟨rfl, rfl⟩ := Prod.mk.inj (Except.ok.inj h)
      obtain ⟨hs', hw, hidle⟩ := alloc?_spec hs hq
      exact ⟨hs', .allocated hidle hw⟩
    · obtain ⟨rfl, rfl⟩ := Prod.mk.inj (Except.ok.inj h)
      exact ⟨hs, .exhausted⟩
  | free f =>
    simp only [serve] at h
    split at h
    · rename_i q hq
      obtain ⟨rfl, rfl⟩ := Prod.mk.inj (Except.ok.inj h)
      obtain ⟨rfl, c, hc, hu, hz⟩ := free_spec hq
      obtain ⟨hs', hw⟩ := reclaim_spec hs hc hu hz
      exact ⟨hs', .freed hc hu hw⟩
    · cases h
  | retain f =>
    simp only [serve] at h
    split at h
    · rename_i q hq
      obtain ⟨rfl, rfl⟩ := Prod.mk.inj (Except.ok.inj h)
      obtain ⟨c, hc, hu, hroom, hs', hw⟩ := retain?_spec hs hq
      exact ⟨hs', .retained hc hu hroom hw⟩
    · obtain ⟨rfl, rfl⟩ := Prod.mk.inj (Except.ok.inj h)
      exact ⟨hs, .refused⟩
  | release f =>
    obtain ⟨rfl, rfl⟩ := Prod.mk.inj (Except.ok.inj h)
    by_cases hused : p.isAllocated f = true
    · obtain ⟨c, hc, hu⟩ := isAllocated_iff.1 hused
      obtain ⟨hs', hw⟩ := release_spec hs hc hu
      rw [release_snd hc hu]
      by_cases hlast : c.refs.toNat ≤ 1
      · rw [if_pos hlast] at hw
        rw [decide_eq_true hlast]
        exact ⟨hs', .released hc hu hw⟩
      · rw [if_neg hlast] at hw
        rw [decide_eq_false hlast]
        exact ⟨hs', .dropped hc hu (by omega) hw⟩
    · have hidle : p.isAllocated f = false := Bool.eq_false_iff.2 hused
      rw [release_eq_of_not_allocated hidle]
      exact ⟨hs, .ignored hidle⟩
  | write f off bytes =>
    simp only [serve] at h
    split at h
    · rename_i q hq
      obtain ⟨rfl, rfl⟩ := Prod.mk.inj (Except.ok.inj h)
      obtain ⟨c, hc, hu, hs', hw⟩ := write?_spec hs hq
      exact ⟨hs', .written hc hu hw⟩
    · obtain ⟨rfl, rfl⟩ := Prod.mk.inj (Except.ok.inj h)
      exact ⟨hs, .unwritten⟩

/-- An exchange rewrites the record of the frame that it is about, or none. -/
theorem Effect.rewrites (h : p.Effect e p') :
    p' = p ∨ ∃ f c, e.about = some f ∧ p.Rewrites p' f c := by
  cases h with
  | exhausted | refused | ignored | unwritten => exact .inl rfl
  | allocated _ after | freed _ _ after | retained _ _ _ after | released _ _ after
  | dropped _ _ _ after | written _ _ after => exact .inr ⟨_, _, rfl, after⟩

/-- A handle whose frame is not in use has no effect. -/
theorem Effect.of_not_allocated (h : p.Effect ⟨d, a⟩ p') (hd : d.handle? = some f)
    (hidle : p.isAllocated f = false) : p' = p ∧ a = .flag false := by
  have hnot : ∀ c, p.cell? f = some c → c.inUse ≠ true := by
    intro c hc hu
    exact Bool.false_ne_true (hidle.symm.trans (isAllocated_iff.2 ⟨c, hc, hu⟩))
  cases h with
  | allocated | exhausted => cases hd
  | refused | ignored | unwritten => exact ⟨rfl, rfl⟩
  | freed cell used | retained cell used | released cell used | dropped cell used
  | written cell used =>
    obtain rfl := Option.some.inj hd
    exact absurd used (hnot _ cell)

/-! ## The counts stay in step -/

/-- The counts of the pool `p` of `n` frames are those of its history. -/
structure Tally (base : PhysAddr) (n : Nat) (past : List Exchange) (p : FramePool) : Prop where
  sound : p.Sound
  extent : p.extent = (base, n)
  spare : ∀ i, n ≤ i → p.inUse.get i = false
  clean : p.misuse = none
  idle : ∀ f c, p.cell? f = some c → c.inUse = false → c.refs = 0
  counted : ∀ f c, p.cell? f = some c → c.inUse = true →
    c.refs.toNat + dropped f past = retained f past

theorem tally_ofSize (haligned : base.toNat % pageSize = 0)
    (hfits : base.toNat + n * pageSize ≤ 0x10000000000000000) :
    Tally base n [] (ofSize base n) := by
  have hnew := accounts_ofSize haligned hfits
  have hzero : ∀ f c, (ofSize base n).cell? f = some c → c.refs.toNat = 0 := by
    intro f c hc
    rw [(hnew.counted f c hc).1]
    rfl
  exact
    { sound := hnew.sound
      extent := rfl
      spare := fun i _ => Bitmap.get_clear n i
      clean := rfl
      idle := fun f c hc _ => UInt16.toNat_inj.1 (hzero f c hc)
      counted := fun f c hc _ => hzero f c hc }

/-- One record changes: only its own frame needs a thought. -/
theorem Tally.rewrite (h : Tally base n past p) (hs : p'.Sound) (hw : p.Rewrites p' f c)
    (habout : e.about = some f) (hidle : c.inUse = false → c.refs = 0)
    (hcount : c.inUse = true →
      c.refs.toNat + dropped f (e :: past) = retained f (e :: past)) :
    Tally base n (e :: past) p' where
  sound := hs
  extent := hw.extent.trans h.extent
  spare i hi := by
    have hsize : p.size = n := congrArg Prod.snd h.extent
    rw [hw.spare i (hsize ▸ hi), h.spare i hi]
  clean := hw.misuse.trans h.clean
  idle g c' hc' hfree := by
    rw [hw.cell g] at hc'
    split at hc'
    · obtain rfl := Option.some.inj hc'
      exact hidle hfree
    · exact h.idle g c' hc' hfree
  counted g c' hc' hused := by
    rw [hw.cell g] at hc'
    split at hc'
    · rename_i hg
      obtain rfl := Option.some.inj hc'
      rw [hg]
      exact hcount hused
    · rename_i hg
      have hother : e.about ≠ some g := by
        rw [habout]
        exact fun heq => hg (Option.some.inj heq).symm
      obtain ⟨hr, hd⟩ := counts_of_about_ne past hother
      rw [hr, hd]
      exact h.counted g c' hc' hused

/-- Nothing changes, and nothing is counted for a frame in use. -/
theorem Tally.unchanged (h : Tally base n past p)
    (hcounts : ∀ g, p.isAllocated g = true →
      retained g (e :: past) = retained g past ∧ dropped g (e :: past) = dropped g past) :
    Tally base n (e :: past) p where
  sound := h.sound
  extent := h.extent
  spare := h.spare
  clean := h.clean
  idle := h.idle
  counted g c hc hused := by
    obtain ⟨hr, hd⟩ := hcounts g (isAllocated_iff.2 ⟨c, hc, hused⟩)
    rw [hr, hd]
    exact h.counted g c hc hused

theorem toNat_refs_add_one (h : c.refs < maxRefs) : (c.refs + 1).toNat = c.refs.toNat + 1 := by
  have hlt : c.refs.toNat < 65535 := UInt16.lt_iff_toNat_lt.1 h
  rw [UInt16.toNat_add, UInt16.toNat_one]
  omega

/-- **One exchange.** -/
theorem Tally.exchange (h : Tally base n past p) (hs : p'.Sound) (he : p.Effect e p') :
    Tally base n (e :: past) p' := by
  cases he with
  | allocated idle after =>
    refine h.rewrite hs after rfl (fun hfree => by cases hfree) fun _ => ?_
    simp [retained_cons, dropped_cons, handedOut]
  | exhausted => exact h.unchanged fun g _ => counts_of_about_ne _ (by nofun)
  | freed _ _ after => exact h.rewrite hs after rfl (fun _ => rfl) fun hused => by cases hused
  | @retained _ f c cell used room after =>
    refine h.rewrite hs after rfl (fun hfree => ?_) fun _ => ?_
    · exact absurd (hfree.symm.trans used) Bool.false_ne_true
    have hbefore := h.counted f c cell used
    have hone : (c.refs + 1).toNat = c.refs.toNat + 1 := toNat_refs_add_one room
    have hcounts : retained f (⟨.retain f, .flag true⟩ :: past) = retained f past + 1 ∧
        dropped f (⟨.retain f, .flag true⟩ :: past) = dropped f past := by
      simp [retained_cons, dropped_cons, handedOut]
    show (c.refs + 1).toNat + _ = _
    omega
  | @refused f =>
    refine h.unchanged fun g _ => ?_
    simp [retained_cons, dropped_cons, handedOut]
  | released _ _ after => exact h.rewrite hs after rfl (fun _ => rfl) fun hused => by cases hused
  | @dropped _ f c cell used more after =>
    refine h.rewrite hs after rfl (fun hfree => ?_) fun _ => ?_
    · exact absurd (hfree.symm.trans used) Bool.false_ne_true
    have hbefore := h.counted f c cell used
    have hone := drop_refs c
    have hcounts : retained f (⟨.release f, .flag false⟩ :: past) = retained f past ∧
        dropped f (⟨.release f, .flag false⟩ :: past) = dropped f past + 1 := by
      simp [retained_cons, dropped_cons, handedOut]
    omega
  | ignored idle =>
    refine h.unchanged fun g hused => counts_of_about_ne _ ?_
    intro habout
    obtain rfl := Option.some.inj habout
    exact absurd (idle.symm.trans hused) Bool.false_ne_true
  | @written _ f _ _ c cell _ after =>
    refine h.rewrite hs after rfl (h.idle f c cell) fun hused => ?_
    have hbefore := h.counted f c cell hused
    simpa [retained_cons, dropped_cons, handedOut] using hbefore
  | unwritten =>
    refine h.unchanged fun g _ => ?_
    simp [retained_cons, dropped_cons, handedOut]

/-- **The counts are those of the history**, whatever the history is. -/
theorem Served.tally (haligned : base.toNat % pageSize = 0)
    (hfits : base.toNat + n * pageSize ≤ 0x10000000000000000) (h : Served base n past p) :
    Tally base n past p := by
  induction h with
  | start => exact tally_ofSize haligned hfits
  | serve _ answered ih =>
    obtain ⟨hs, heffect⟩ := serve_effect ih.sound answered
    exact ih.exchange hs heffect

/-! ## Handing out and giving back -/

/-- What is handed out from `p`: a frame that was free, below every other, cleared and without
  references. -/
structure HandsOut (p p' : FramePool) (f : Frame) : Prop where
  managed : p.manages f = true
  idle : p.isAllocated f = false
  lowest : ∀ g, p.manages g = true → p.isAllocated g = false → f.addr.toNat ≤ g.addr.toNat
  used : p'.isAllocated f = true
  cleared : p'.page? f = some .zero
  unreferenced : p'.refCount f = 0

/-- The frames before the one that is found are in use. -/
theorem alloc?_index (h : p.alloc? = some (p', f)) :
    ∃ i, i < p.size ∧ f = p.frameAt i ∧ ∀ j, j < i → (p.cell j).inUse = true := by
  unfold alloc? at h
  split at h
  · cases h
  split at h
  · cases h
  rename_i i hi
  obtain ⟨-, rfl⟩ := Prod.mk.inj (Option.some.inj h)
  obtain ⟨hlt, -, hbefore⟩ := firstFree?_eq_some_iff.1 hi
  exact ⟨i, hlt, rfl, hbefore⟩

theorem alloc?_lowest (hs : p.Sound) (h : p.alloc? = some (p', f)) (hg : p.manages g = true)
    (hidle : p.isAllocated g = false) : f.addr.toNat ≤ g.addr.toNat := by
  obtain ⟨i, hi, rfl, hbefore⟩ := alloc?_index h
  obtain ⟨-, hfbase, hfi, -⟩ := index?_eq_some_iff.1 (index?_frameAt hs hi)
  obtain ⟨c, hc⟩ := manages_iff.1 hg
  obtain ⟨j, hj, rfl⟩ := Option.map_eq_some_iff.1 hc
  obtain ⟨hgaligned, hgbase, hgj, -⟩ := index?_eq_some_iff.1 hj
  have hij : i ≤ j := by
    rcases Nat.lt_or_ge j i with hlt | hge
    · have hused : p.isAllocated g = true := isAllocated_iff.2 ⟨p.cell j, hc, hbefore j hlt⟩
      exact absurd (hidle.symm.trans hused) Bool.false_ne_true
    · exact hge
  have hfaligned := (index?_eq_some_iff.1 (index?_frameAt hs hi)).1
  have haligned := hs.aligned
  simp only [pageSize] at *
  omega

theorem alloc?_handsOut (hs : p.Sound) (h : p.alloc? = some (p', f)) : p.HandsOut p' f := by
  obtain ⟨-, hw, hidle⟩ := alloc?_spec hs h
  have hcell : p'.cell? f = some { inUse := true } := by rw [hw.cell f, if_pos rfl]
  obtain ⟨c, hc, hfree⟩ := hidle
  exact
    { managed := manages_iff.2 ⟨c, hc⟩
      idle := isAllocated_eq_false ⟨c, hc, hfree⟩
      lowest := fun g hg hgidle => alloc?_lowest hs h hg hgidle
      used := isAllocated_iff.2 ⟨_, hcell, rfl⟩
      cleared := by rw [page?_eq, hcell]; rfl
      unreferenced := refCount_of_cell? hcell }

/-- Why the pool refuses for good to take a frame back. -/
inductive Refuses (p : FramePool) (f : Frame) : Misuse → Prop
  | unmanaged (outside : p.manages f = false) : Refuses p f (.unmanaged f)
  | alreadyFree (inside : p.manages f = true) (idle : p.isAllocated f = false) :
      Refuses p f (.alreadyFree f)
  | referenced (used : p.isAllocated f = true) (still : p.refCount f ≠ 0) :
      Refuses p f (.referenced (p.refCount f) f)

theorem isAllocated_of_index? {i : Nat} (hi : p.index? f = some i) :
    p.isAllocated f = (p.cell i).inUse := by
  rw [isAllocated, usedIndex?, hi, Option.filter_some]
  cases (p.cell i).inUse <;> rfl

/-- Giving back, told by what can be seen of the frame. -/
theorem free_of_index? {i : Nat} (hi : p.index? f = some i) :
    p.free f =
      if p.isAllocated f = false then .error (.alreadyFree f)
      else if p.refCount f ≠ 0 then .error (.referenced (p.refCount f) f)
      else .ok (p.vacate i) := by
  simp [free, hi, isAllocated_of_index? hi, refCount]

theorem free_eq_error_iff {misuse : Misuse} : p.free f = .error misuse ↔ p.Refuses f misuse := by
  cases hi : p.index? f with
  | none =>
    have hout : p.manages f = false := by
      rw [Bool.eq_false_iff]
      intro hin
      rw [index?, if_pos hin] at hi
      cases hi
    have hfree : p.free f = .error (.unmanaged f) := by simp only [free, hi]
    rw [hfree]
    constructor
    · intro h
      obtain rfl := Except.error.inj h
      exact .unmanaged hout
    · intro h
      cases h with
      | unmanaged => rfl
      | alreadyFree inside idle => exact absurd (hout.symm.trans inside) Bool.false_ne_true
      | referenced used still =>
        exact absurd (hout.symm.trans (manages_of_isAllocated used)) Bool.false_ne_true
  | some i =>
    have hin : p.manages f = true :=
      manages_iff.2 ⟨p.cell i, by rw [cell?, hi, Option.map_some]⟩
    rw [free_of_index? hi]
    constructor
    · intro h
      split at h
      · rename_i hidle
        obtain rfl := Except.error.inj h
        exact .alreadyFree hin hidle
      rename_i hnot
      split at h
      · rename_i hstill
        obtain rfl := Except.error.inj h
        exact .referenced ((Bool.eq_false_or_eq_true _).resolve_right hnot) hstill
      · cases h
    · intro h
      cases h with
      | unmanaged outside => exact absurd (outside.symm.trans hin) Bool.false_ne_true
      | alreadyFree inside idle => rw [if_pos idle]
      | referenced used still =>
        rw [if_neg fun hidle => Bool.false_ne_true (hidle.symm.trans used), if_pos still]

/-- A frame in use takes one more reference unless its count is at the limit. -/
theorem retain?_isSome_iff (hs : p.Sound) :
    (p.retain? f).isSome = true ↔ p.isAllocated f = true ∧ (p.refCount f).toNat < 65535 := by
  have hlimit : ∀ r : UInt16, r < maxRefs ↔ r.toNat < 65535 := fun r => UInt16.lt_iff_toNat_lt
  rw [Option.isSome_iff_exists]
  constructor
  · rintro ⟨p', h⟩
    obtain ⟨c, hc, hu, hroom, -⟩ := retain?_spec hs h
    rw [refCount_of_cell? hc]
    exact ⟨isAllocated_iff.2 ⟨c, hc, hu⟩, (hlimit _).1 hroom⟩
  · rintro ⟨hused, hroom⟩
    obtain ⟨c, hc, hu⟩ := isAllocated_iff.1 hused
    rw [refCount_of_cell? hc] at hroom
    exact retain?_isSome hc hu ((hlimit _).2 hroom)

/-- Dropping a reference makes a frame free exactly if its count was 0 or 1. -/
theorem release_frees (hs : p.Sound) (hused : p.isAllocated f = true) :
    ((p.release f).1.isAllocated f = false ↔ (p.refCount f).toNat ≤ 1) ∧
      ((p.release f).2 = true ↔ (p.refCount f).toNat ≤ 1) := by
  obtain ⟨c, hc, hu⟩ := isAllocated_iff.1 hused
  obtain ⟨-, hw⟩ := release_spec hs hc hu
  rw [refCount_of_cell? hc]
  refine ⟨?_, by rw [release_snd hc hu, decide_eq_true_eq]⟩
  by_cases hlast : c.refs.toNat ≤ 1
  · rw [if_pos hlast] at hw
    have hcell : (p.release f).1.cell? f = some { c with inUse := false, refs := 0 } := by
      rw [hw.cell f, if_pos rfl]
    exact iff_of_true (isAllocated_eq_false ⟨_, hcell, rfl⟩) hlast
  · rw [if_neg hlast] at hw
    refine iff_of_false (fun hidle => ?_) hlast
    have hstill : (p.release f).1.isAllocated f = true := by
      refine isAllocated_iff.2 ⟨c.drop, ?_, hu⟩
      rw [hw.cell f, if_pos rfl]
    exact absurd (hidle.symm.trans hstill) Bool.false_ne_true

/-! ## The law -/

theorem serve_eq_error_iff {misuse : Misuse} :
    p.serve d = .error misuse ↔ ∃ f, d = .free f ∧ p.Refuses f misuse := by
  constructor
  · intro h
    cases d with
    | free f =>
      simp only [serve] at h
      split at h
      · cases h
      · rename_i hq
        obtain rfl := Except.error.inj h
        exact ⟨f, rfl, free_eq_error_iff.1 hq⟩
    | alloc | retain _ | write _ _ _ =>
      simp only [serve] at h
      split at h <;> cases h
    | release _ => cases h
  · rintro ⟨f, rfl, hrefuses⟩
    simp only [serve, free_eq_error_iff.2 hrefuses]

/-- The books of a pool of `n` frames from `base` on, against its history. -/
structure Ledger (base : PhysAddr) (n : Nat) (past : List Exchange) (p : FramePool) : Prop where
  extent : p.extent = (base, n)
  free : p.freeCount + p.allocated.length = n
  idle : ∀ f, p.isAllocated f = false → p.refCount f = 0
  counted : ∀ f, p.isAllocated f = true →
    (p.refCount f).toNat + dropped f past = retained f past
  limit : ∀ f, (p.refCount f).toNat ≤ 65535
  /-- The bits that the last byte of the bitmap has to spare stay clear. -/
  spare : ∀ i, n ≤ i → p.inUse.get i = false
  /-- Dropping a reference has never gone wrong. -/
  clean : p.misuse = none

/-- What the pool does next, whatever is demanded. -/
structure Obeys (p : FramePool) : Prop where
  exhausted : p.alloc? = none ↔ p.freeCount = 0
  handsOut : ∀ p' f, p.alloc? = some (p', f) → p.HandsOut p' f
  retains : ∀ f, (p.retain? f).isSome = true ↔
    p.isAllocated f = true ∧ (p.refCount f).toNat < 65535
  frees : ∀ f, p.isAllocated f = true →
    ((p.release f).1.isAllocated f = false ↔ (p.refCount f).toNat ≤ 1) ∧
    ((p.release f).2 = true ↔ (p.refCount f).toNat ≤ 1)
  halts : ∀ d misuse, p.serve d = .error misuse ↔ ∃ f, d = .free f ∧ p.Refuses f misuse
  givesBack : ∀ f p', p.free f = .ok p' → p'.isAllocated f = false
  strays : ∀ d f p' a, d.handle? = some f → p.isAllocated f = false →
    p.serve d = .ok (p', a) → p' = p ∧ a = .flag false
  others : ∀ d p' a, p.serve d = .ok (p', a) →
    ∀ g, Exchange.about ⟨d, a⟩ ≠ some g → p'.cell? g = p.cell? g

theorem Tally.ledger (h : Tally base n past p) : p.Ledger base n past where
  extent := h.extent
  free := by
    rw [freeCount_add_allocated h.sound]
    exact congrArg Prod.snd h.extent
  idle f hidle := by
    unfold refCount
    split
    · rename_i i hi
      have hc : p.cell? f = some (p.cell i) := by rw [cell?, hi, Option.map_some]
      refine h.idle f _ hc (Bool.eq_false_iff.2 fun hu => ?_)
      exact absurd (hidle.symm.trans (isAllocated_iff.2 ⟨_, hc, hu⟩)) Bool.false_ne_true
    · rfl
  counted f hused := by
    obtain ⟨c, hc, hu⟩ := isAllocated_iff.1 hused
    rw [refCount_of_cell? hc]
    exact h.counted f c hc hu
  limit f := Nat.le_of_lt_succ (p.refCount f).toNat_lt
  spare := h.spare
  clean := h.clean

theorem Sound.obeys (hs : p.Sound) : p.Obeys where
  exhausted := by rw [alloc?_eq_none_iff_idle hs, hs.free]
  handsOut p' f h := alloc?_handsOut hs h
  retains f := retain?_isSome_iff hs
  frees f hused := release_frees hs hused
  halts d misuse := serve_eq_error_iff
  givesBack f p' h := by
    obtain ⟨rfl, c, hc, hu, hz⟩ := free_spec h
    obtain ⟨-, hw⟩ := reclaim_spec hs hc hu hz
    have hcell : (p.reclaim f).cell? f = some { c with inUse := false, refs := 0 } := by
      rw [hw.cell f, if_pos rfl]
    exact isAllocated_eq_false ⟨_, hcell, rfl⟩
  strays d f p' a hd hidle h := (serve_effect hs h).2.of_not_allocated hd hidle
  others d p' a h g hg := by
    obtain ⟨-, heffect⟩ := serve_effect hs h
    rcases heffect.rewrites with rfl | ⟨f, c, habout, hw⟩
    · rfl
    · rw [hw.cell g, if_neg]
      rintro rfl
      exact hg habout

/-- **The frame allocator keeps its books over every history**: of demands in any order, with
  handles that may name anything, up to the first that it refuses for good. -/
theorem pool_ledger (haligned : base.toNat % pageSize = 0)
    (hfits : base.toNat + pageSize * n ≤ 2 ^ 64 - 1) (h : Served base n past p) :
    p.Ledger base n past ∧ p.Obeys := by
  have htally : Tally base n past p := h.tally haligned (by rw [Nat.mul_comm]; omega)
  exact ⟨htally.ledger, htally.sound.obeys⟩

/-- Two frames from 1 MiB on. -/
def pair : FramePool := ofSize (.ofNat 0x100000) 2

/-- The pool with its first frame handed out, and references to it taken. -/
def pairTaken (refs : UInt16) : FramePool :=
  { pair with inUse := pair.inUse.set 0 true, refs := pair.refs.set 0 refs, freeCount := 1 }

theorem alloc?_pair : pair.alloc? = some (pairTaken 0, pair.frameAt 0) := by
  have hfirst : pair.firstFree? = some 0 := by decide
  unfold alloc?
  rw [hfirst]
  rfl

theorem serve_pair : pair.serve .alloc = .ok (pairTaken 0, .frame (some (pair.frameAt 0))) := by
  unfold serve
  rw [alloc?_pair]

theorem served_pair : Served (.ofNat 0x100000) 2
    [⟨.retain (pair.frameAt 0), .flag true⟩, handedOut (pair.frameAt 0)] (pairTaken 1) := by
  have hfirst : Served (.ofNat 0x100000) 2 [handedOut (pair.frameAt 0)] (pairTaken 0) :=
    .serve .start serve_pair
  exact hfirst.serve rfl

theorem pool_ledger_pair :
    (PhysAddr.ofNat 0x100000).toNat % pageSize = 0 ∧
    (PhysAddr.ofNat 0x100000).toNat + pageSize * 2 ≤ 2 ^ 64 - 1 ∧
    (pairTaken 1).Ledger (.ofNat 0x100000) 2
      [⟨.retain (pair.frameAt 0), .flag true⟩, handedOut (pair.frameAt 0)] ∧
    (pairTaken 1).Obeys :=
  ⟨by decide, by decide, pool_ledger (by decide) (by decide) served_pair⟩

end Exokernel.FramePool
