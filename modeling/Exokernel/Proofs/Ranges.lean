/-
  What the check of a range finds.

  The check goes from page to page.  A program counts in bytes: it passes a range and may use
  what lies in it, so the law is about bytes.  `Accessible` says of one byte what the check says
  of a page, and the two are joined where the range is cut at its ends.  All bytes of a page fare
  alike, since an entry maps a whole page and the limit is the start of a page.  The first page
  that fails fails from its start on, but the part of it before the range does not count; hence
  the higher of two addresses is reported, and it is the least that fails.

  The loop is written as a recursion on the number of pages in the range, and that number is
  no bound on the passes: a range may have 2⁵² pages.  `Scans` is the loop as it runs, with its
  passes counted.  It ends at the first page that is not granted, and no page from the limit on
  is, so every range is done with after the pages below the limit and one more.
-/
import Exokernel.Memory.UserRange
import Exokernel.Proofs.Breaks
import Exokernel.Proofs.Mappings

namespace Exokernel

/-! ## Addresses -/

namespace VirtAddr

theorem toNat_add? {a b : VirtAddr} {n : Nat} (h : a.add? n = some b) :
    b.toNat = a.toNat + n := by
  unfold add? at h
  rw [Option.ite_none_right_eq_some, Option.some.injEq] at h
  obtain ⟨hlt, rfl⟩ := h
  exact toNat_ofNat hlt

theorem toNat_alignDown (a : VirtAddr) : a.alignDown.toNat = pageFloor a.toNat :=
  toNat_ofNat (Nat.lt_of_le_of_lt (Nat.div_mul_le_self _ _) a.toNat_lt)

theorem alignDown_mod (a : VirtAddr) : a.alignDown.toNat % pageSize = 0 := by
  rw [toNat_alignDown]
  exact Nat.mul_mod_left _ _

theorem toNat_max (a b : VirtAddr) : (a.max b).toNat = Max.max a.toNat b.toNat := by
  unfold max
  split <;> omega

end VirtAddr

/-! ## Permissions -/

namespace Perm

theorem contains_union_left (p q : Perm) : (p.union q).contains p = true := by
  have hswap : p.union q = q.union p := congrArg Perm.mk (UInt32.or_comm _ _)
  rw [hswap]
  exact contains_union_right q p

/-- To have the bits of either is to have the bits of both. -/
theorem contains_union_iff {p q r : Perm} :
    p.contains (q.union r) = true ↔ p.contains q = true ∧ p.contains r = true := by
  constructor
  · intro h
    exact ⟨contains_trans h (contains_union_left q r),
      contains_trans h (contains_union_right q r)⟩
  · rintro ⟨hq, hr⟩
    unfold contains union at *
    rw [beq_iff_eq] at *
    calc p.bits &&& (q.bits ||| r.bits) = p.bits &&& q.bits ||| p.bits &&& r.bits := by
          rw [← UInt32.toNat_inj, UInt32.toNat_and, UInt32.toNat_or, UInt32.toNat_or,
            UInt32.toNat_and, UInt32.toNat_and, Nat.and_or_distrib_left]
      _ = q.bits ||| r.bits := by rw [hq, hr]

end Perm

/-- What an access needs, bit by bit. -/
theorem Access.contains_required_iff {p : Perm} {access : Access} :
    p.contains access.required = true ↔
      p.contains .present = true ∧ p.contains .user = true ∧
        (access = .write → p.contains .writable = true) := by
  have hread : Perm.userRead = Perm.present.union .user := by decide
  have hwrite : Perm.userWrite = Perm.present.union (Perm.user.union .writable) := by decide
  cases access with
  | read =>
    rw [Access.required, hread, Perm.contains_union_iff]
    constructor
    · rintro ⟨hp, hu⟩
      exact ⟨hp, hu, fun h => (nomatch h)⟩
    · rintro ⟨hp, hu, -⟩
      exact ⟨hp, hu⟩
  | write =>
    rw [Access.required, hwrite, Perm.contains_union_iff, Perm.contains_union_iff]
    constructor
    · rintro ⟨hp, hu, hw⟩
      exact ⟨hp, hu, fun _ => hw⟩
    · rintro ⟨hp, hu, hw⟩
      exact ⟨hp, hu, hw rfl⟩

namespace Memory

variable {m : Memory} {s : SpaceId} {va stop page fault : VirtAddr} {len n a : Nat}
  {access : Access} {need : Perm} {r : Option VirtAddr}

/-! ## Bytes and pages -/

/-- A program may access the byte at the address `a` of the space `s`. -/
def Accessible (m : Memory) (s : SpaceId) (access : Access) (a : Nat) : Prop :=
  a < userLimit ∧ ∃ f p, m.lookup s (.ofNat a) = some (f, p) ∧
    p.contains .present = true ∧ p.contains .user = true ∧
    (access = .write → p.contains .writable = true)

/-- The first byte of the `len` from `va` on that a program may not access. -/
structure FirstFault (m : Memory) (s : SpaceId) (access : Access) (va : VirtAddr) (len : Nat)
    (fault : VirtAddr) : Prop where
  from_start : va.toNat ≤ fault.toNat
  inside : fault.toNat < va.toNat + len
  fails : ¬ m.Accessible s access fault.toNat
  before : ∀ a, va.toNat ≤ a → a < fault.toNat → m.Accessible s access a

theorem userLimit_lt : userLimit < 0x100000000 := by decide

theorem userLimit_mod : userLimit % pageSize = 0 := by decide

theorem grants_eq_true_iff : m.grants s need page = true ↔
    page.toNat < userLimit ∧ ∃ f p, m.lookup s page = some (f, p) ∧ p.contains need = true := by
  unfold grants
  rw [Bool.and_eq_true, decide_eq_true_eq]
  refine and_congr_right fun _ => ?_
  cases m.lookup s page with
  | none => exact ⟨fun h => (nomatch h), fun ⟨_, _, h, _⟩ => (nomatch h)⟩
  | some x =>
    constructor
    · intro h
      exact ⟨x.1, x.2, rfl, h⟩
    · rintro ⟨f, p, hx, h⟩
      obtain rfl : x = (f, p) := Option.some.inj hx
      exact h

/-- **The bytes of a page fare as the page does.** -/
theorem accessible_iff_grants (haligned : page.toNat % pageSize = 0) (hge : page.toNat ≤ a)
    (hlt : a < page.toNat + pageSize) :
    m.Accessible s access a ↔ m.grants s access.required page = true := by
  rw [grants_eq_true_iff]
  have hlimit : a < userLimit ↔ page.toNat < userLimit := by
    have hmod := userLimit_mod
    simp only [pageSize] at *
    omega
  unfold Accessible
  rw [hlimit]
  refine and_congr_right fun hbelow => ?_
  -- Below the limit an address is a word, and its page is what the directory tells apart.
  have hword : (VirtAddr.ofNat a).toNat = a :=
    VirtAddr.toNat_ofNat (Nat.lt_trans (Nat.lt_trans (hlimit.2 hbelow) userLimit_lt) (by decide))
  have hsame : (VirtAddr.ofNat a).SamePage page := by
    have hsmall := userLimit_lt
    rw [VirtAddr.samePage_iff (by omega) (by omega), hword]
    simp only [pageSize] at *
    omega
  rw [lookup_of_samePage hsame]
  refine exists_congr fun f => exists_congr fun p => and_congr_right fun _ => ?_
  exact Access.contains_required_iff.symm

/-! ## The loop -/

/-- The loop of the check, from `page` on while that is below `stop`: it ends after `n` passes,
  with the address to report if a page is at fault. -/
inductive Scans (m : Memory) (s : SpaceId) (need : Perm) (va stop : VirtAddr) :
    VirtAddr → Nat → Option VirtAddr → Prop where
  | done {page : VirtAddr} (reached : stop.toNat ≤ page.toNat) :
      Scans m s need va stop page 0 none
  | fault {page : VirtAddr} (inside : page.toNat < stop.toNat)
      (refused : m.grants s need page = false) :
      Scans m s need va stop page 1 (some (page.max va))
  | edge {page : VirtAddr} (inside : page.toNat < stop.toNat)
      (granted : m.grants s need page = true) (last : page.add? pageSize = none) :
      Scans m s need va stop page 1 (some (page.max va))
  | next {page page' : VirtAddr} {n : Nat} {r : Option VirtAddr}
      (inside : page.toNat < stop.toNat) (granted : m.grants s need page = true)
      (step : page.add? pageSize = some page') (rest : Scans m s need va stop page' n r) :
      Scans m s need va stop page (n + 1) r

/-- The recursion on the number of pages runs as the loop does. -/
theorem scans_firstFault (m : Memory) (s : SpaceId) (need : Perm) (va : VirtAddr)
    {stop : VirtAddr} (k : Nat) {page : VirtAddr} (hk : page.toNat + k * pageSize = stop.toNat) :
    ∃ n, Scans m s need va stop page n (m.firstFault s need va k page) := by
  induction k generalizing page with
  | zero =>
    refine ⟨0, .done ?_⟩
    omega
  | succ k ih =>
    have hinside : page.toNat < stop.toNat := by
      simp only [pageSize] at hk
      omega
    unfold firstFault
    cases hgrants : m.grants s need page with
    | false => exact ⟨1, .fault hinside hgrants⟩
    | true =>
      rw [if_pos rfl]
      cases hstep : page.add? pageSize with
      | none => exact ⟨1, .edge hinside hgrants hstep⟩
      | some page' =>
        have hnext : page'.toNat + k * pageSize = stop.toNat := by
          have := VirtAddr.toNat_add? hstep
          simp only [pageSize] at *
          omega
        obtain ⟨n, hn⟩ := ih hnext
        exact ⟨n + 1, .next hinside hgrants hstep hn⟩

/-- What is found, and after how many passes, is determined. -/
theorem Scans.unique {n' : Nat} {r' : Option VirtAddr} (h : Scans m s need va stop page n r)
    (h' : Scans m s need va stop page n' r') : n = n' ∧ r = r' := by
  induction h generalizing n' r' with
  | done reached =>
    cases h' with
    | done => exact ⟨rfl, rfl⟩
    | fault inside | edge inside | next inside => exact absurd inside (Nat.not_lt.2 reached)
  | fault inside refused =>
    cases h' with
    | done reached => exact absurd inside (Nat.not_lt.2 reached)
    | fault => exact ⟨rfl, rfl⟩
    | edge _ granted | next _ granted => exact nomatch refused.symm.trans granted
  | edge inside granted last =>
    cases h' with
    | done reached => exact absurd inside (Nat.not_lt.2 reached)
    | fault _ refused => exact nomatch refused.symm.trans granted
    | edge => exact ⟨rfl, rfl⟩
    | next _ _ step => exact nomatch last.symm.trans step
  | next inside granted step _ ih =>
    cases h' with
    | done reached => exact absurd inside (Nat.not_lt.2 reached)
    | fault _ refused => exact nomatch refused.symm.trans granted
    | edge _ _ last => exact nomatch last.symm.trans step
    | next _ _ step' rest' =>
      obtain rfl := Option.some.inj (step.symm.trans step')
      obtain ⟨rfl, rfl⟩ := ih rest'
      exact ⟨rfl, rfl⟩

/-- **No page from the limit on is granted**, so the pages from `page` to the limit bound the
  passes, and one more. -/
theorem Scans.passes_le (h : Scans m s need va stop page n r)
    (haligned : page.toNat % pageSize = 0) : n ≤ (userLimit - page.toNat) / pageSize + 1 := by
  induction h with
  | done => exact Nat.zero_le _
  | fault => exact Nat.le_add_left 1 _
  | edge => exact Nat.le_add_left 1 _
  | next _ granted step _ ih =>
    have hnext := VirtAddr.toNat_add? step
    have hbelow := (grants_eq_true_iff.1 granted).1
    have hmod := userLimit_mod
    have hle := ih (by rw [hnext, Nat.add_mod_right, haligned])
    rw [hnext] at hle
    simp only [pageSize] at *
    omega

/-- What the loop has seen when it ends.  Without a fault all bytes up to `stop` are accessible;
  otherwise those are that lie before the page at fault, and that page is not. -/
theorem Scans.found (h : Scans m s access.required va stop page n r)
    (haligned : page.toNat % pageSize = 0) (hstop : stop.toNat % pageSize = 0) :
    match r with
    | none => ∀ a, page.toNat ≤ a → a < stop.toNat → m.Accessible s access a
    | some fault => ∃ p : VirtAddr, p.toNat % pageSize = 0 ∧ page.toNat ≤ p.toNat ∧
        p.toNat < stop.toNat ∧ fault = p.max va ∧ m.grants s access.required p = false ∧
        ∀ a, page.toNat ≤ a → a < p.toNat → m.Accessible s access a := by
  induction h with
  | done reached =>
    intro a hge hlt
    omega
  | @fault page inside refused =>
    refine ⟨page, haligned, Nat.le_refl _, inside, rfl, refused, ?_⟩
    intro a hge hlt
    omega
  | @edge page inside granted last =>
    -- The next page starts no later than `stop`, which is an address.
    have hword := stop.toNat_lt
    have hfits : page.toNat + pageSize < 0x10000000000000000 := by
      simp only [pageSize] at *
      omega
    unfold VirtAddr.add? at last
    rw [if_pos hfits] at last
    cases last
  | @next page page' n r inside granted step rest ih =>
    have hnext := VirtAddr.toNat_add? step
    have hhere : ∀ a, page.toNat ≤ a → a < page'.toNat → m.Accessible s access a := by
      intro a hge hlt
      exact (accessible_iff_grants haligned hge (hnext ▸ hlt)).2 granted
    have hrest := ih (by rw [hnext, Nat.add_mod_right, haligned])
    cases r with
    | none =>
      intro a hge hlt
      rcases Nat.lt_or_ge a page'.toNat with hlow | hhigh
      · exact hhere a hge hlow
      · exact hrest a hhigh hlt
    | some fault =>
      obtain ⟨p, hp, hge, hlt, hfault, hrefused, hbefore⟩ := hrest
      refine ⟨p, hp, by omega, hlt, hfault, hrefused, ?_⟩
      intro a hgea hlta
      rcases Nat.lt_or_ge a page'.toNat with hlow | hhigh
      · exact hhere a hgea hlow
      · exact hbefore a hhigh hlta

/-! ## Where a range ends -/

/-- The end of a range, rounded up to a page, if that is an address. -/
def rangeStop? (va : VirtAddr) (len : Nat) : Option VirtAddr :=
  (va.add? len).bind VirtAddr.alignUp?

/-- The end of a range is what numbers say, if it is a number of 64 bits. -/
theorem rangeStop?_eq_some_iff :
    rangeStop? va len = some stop ↔ stop.toNat = pageCeil (va.toNat + len) := by
  unfold rangeStop? VirtAddr.add? VirtAddr.alignUp? pageCeil?
  have hmod := pageCeil_mod (va.toNat + len)
  have hle := le_pageCeil (va.toNat + len)
  have hlt := pageCeil_lt (va.toNat + len)
  have hword := stop.toNat_lt
  constructor
  · intro h
    obtain ⟨e, he, hstop⟩ := Option.bind_eq_some_iff.1 h
    rw [Option.ite_none_right_eq_some, Option.some.injEq] at he
    obtain ⟨hfits, rfl⟩ := he
    rw [VirtAddr.toNat_ofNat hfits] at hstop
    obtain ⟨c, hc, rfl⟩ := Option.map_eq_some_iff.1 hstop
    rw [Option.ite_none_right_eq_some, Option.some.injEq] at hc
    obtain ⟨hround, rfl⟩ := hc
    exact VirtAddr.toNat_ofNat (Nat.lt_of_le_of_lt (Nat.div_mul_le_self _ _) hround)
  · intro h
    have hfits : va.toNat + len < 0x10000000000000000 := by omega
    have hround : va.toNat + len + (pageSize - 1) < 0x10000000000000000 := by
      simp only [pageSize] at *
      omega
    rw [if_pos hfits, Option.bind_some, VirtAddr.toNat_ofNat hfits, if_pos hround,
      Option.map_some, ← VirtAddr.ofNat_toNat stop, h]
    rfl

theorem rangeStop?_eq_none_iff :
    rangeStop? va len = none ↔ 0x10000000000000000 ≤ pageCeil (va.toNat + len) := by
  constructor
  · intro hnone
    by_contra hlt
    have hword := VirtAddr.toNat_ofNat (Nat.lt_of_not_le hlt)
    exact nomatch hnone.symm.trans (rangeStop?_eq_some_iff.2 hword)
  · intro hle
    refine Option.eq_none_iff_forall_ne_some.2 fun stop hsome => ?_
    have := rangeStop?_eq_some_iff.1 hsome
    have := stop.toNat_lt
    omega

/-- The pages of a range, from the one around its first byte to its end. -/
theorem rangePages (hstop : rangeStop? va len = some stop) :
    va.alignDown.toNat + (stop.toNat - va.alignDown.toNat) / pageSize * pageSize
      = stop.toNat := by
  have hround := rangeStop?_eq_some_iff.1 hstop
  have hle := le_pageCeil (va.toNat + len)
  have hmod := pageCeil_mod (va.toNat + len)
  rw [VirtAddr.toNat_alignDown, hround]
  unfold pageFloor
  simp only [pageSize] at *
  omega

/-- The result of the check is what its loop has found. -/
theorem checkRange_eq (hlen : len ≠ 0) (hstop : rangeStop? va len = some stop)
    (h : Scans m s access.required va stop va.alignDown n r) :
    m.checkRange s va len access = r.elim (.ok ⟨va, len⟩) .error := by
  obtain ⟨n', hrun⟩ := scans_firstFault m s access.required va _ (rangePages hstop)
  obtain ⟨-, rfl⟩ := h.unique hrun
  unfold checkRange
  rw [if_neg hlen]
  unfold rangeStop? at hstop
  rw [hstop]
  simp only
  split <;> rename_i hr <;> rw [hr] <;> rfl

/-- A range that ends too high has a byte above all that a program may name. -/
theorem exists_not_accessible (hlen : len ≠ 0)
    (hwrap : 0x10000000000000000 ≤ pageCeil (va.toNat + len)) :
    ∃ a, va.toNat ≤ a ∧ a < va.toNat + len ∧ ¬ m.Accessible s access a := by
  have hlt := pageCeil_lt (va.toNat + len)
  refine ⟨va.toNat + len - 1, by omega, by omega, ?_⟩
  rintro ⟨hbelow, -⟩
  have hsmall := userLimit_lt
  simp only [pageSize] at *
  omega

/-- **What the loop reports is the first byte of the range that is not accessible.** -/
theorem Scans.firstFault (h : Scans m s access.required va stop va.alignDown n (some fault))
    (hstop : rangeStop? va len = some stop) (hlen : len ≠ 0) :
    m.FirstFault s access va len fault := by
  have hround := rangeStop?_eq_some_iff.1 hstop
  have hlt := pageCeil_lt (va.toNat + len)
  have hmod := pageCeil_mod (va.toNat + len)
  have hdown := va.toNat_alignDown
  obtain ⟨p, haligned, hge, hinside, rfl, hrefused, hbefore⟩ :=
    h.found va.alignDown_mod (hround ▸ hmod)
  have hmax := p.toNat_max va
  unfold pageFloor at hdown
  -- The page at fault starts in the range, or it is the first one and the range starts in it.
  have hpage : p.toNat ≤ (p.max va).toNat ∧ (p.max va).toNat < p.toNat + pageSize := by
    simp only [pageSize] at *
    omega
  constructor
  · omega
  · simp only [pageSize] at *
    omega
  · rw [accessible_iff_grants haligned hpage.1 hpage.2, hrefused]
    exact Bool.false_ne_true
  · intro a hgea hlta
    refine hbefore a ?_ ?_
    · simp only [pageSize] at *
      omega
    · omega

/-- The ways in which a check can end. -/
inductive Verdict (m : Memory) (s : SpaceId) (va : VirtAddr) (len : Nat) (access : Access) :
    Except VirtAddr UserRange → Prop where
  | passes (good : len = 0 ∨ ∀ a, va.toNat ≤ a → a < va.toNat + len → m.Accessible s access a) :
      Verdict m s va len access (.ok ⟨va, len⟩)
  | wraps (some_byte : len ≠ 0) (high : 0x10000000000000000 ≤ pageCeil (va.toNat + len)) :
      Verdict m s va len access (.error va)
  | faults {fault : VirtAddr} (low : pageCeil (va.toNat + len) < 0x10000000000000000)
      (first : m.FirstFault s access va len fault) : Verdict m s va len access (.error fault)

theorem checkRange_verdict (m : Memory) (s : SpaceId) (va : VirtAddr) (len : Nat)
    (access : Access) : m.Verdict s va len access (m.checkRange s va len access) := by
  by_cases hlen : len = 0
  · have hempty : m.checkRange s va len access = .ok ⟨va, len⟩ := by
      unfold checkRange
      rw [if_pos hlen]
    rw [hempty]
    exact .passes (Or.inl hlen)
  cases hstop : rangeStop? va len with
  | none =>
    have hnone : m.checkRange s va len access = .error va := by
      unfold checkRange
      unfold rangeStop? at hstop
      rw [if_neg hlen, hstop]
    rw [hnone]
    exact .wraps hlen (rangeStop?_eq_none_iff.1 hstop)
  | some stop =>
    have hround := rangeStop?_eq_some_iff.1 hstop
    obtain ⟨n, hrun⟩ := scans_firstFault m s access.required va _ (rangePages hstop)
    rw [checkRange_eq hlen hstop hrun]
    cases hfound : m.firstFault s access.required va _ va.alignDown with
    | none =>
      rw [hfound] at hrun
      refine .passes (Or.inr ?_)
      intro a hge hlt
      have hdown := va.toNat_alignDown
      have hle := le_pageCeil (va.toNat + len)
      have hfloor : pageFloor va.toNat ≤ va.toNat := Nat.div_mul_le_self _ _
      have hall := hrun.found va.alignDown_mod (hround ▸ pageCeil_mod _)
      exact hall a (by omega) (by omega)
    | some fault =>
      rw [hfound] at hrun
      refine .faults ?_ (hrun.firstFault hstop hlen)
      rw [← hround]
      exact stop.toNat_lt

/-! ## The law -/

/-- What the check of a range finds, byte by byte. -/
structure Checked (m : Memory) (s : SpaceId) (va : VirtAddr) (len : Nat) (access : Access) :
    Prop where
  /-- A range passes if it is empty or all its bytes are accessible, and no other does. -/
  passes : m.checkRange s va len access = .ok ⟨va, len⟩ ↔
    len = 0 ∨ ∀ a, va.toNat ≤ a → a < va.toNat + len → m.Accessible s access a
  /-- What passes is the range that was asked for. -/
  range : ∀ r, m.checkRange s va len access = .ok r → r = ⟨va, len⟩
  /-- If the end of the range, rounded up, is an address, the least byte that fails is named. -/
  least : ∀ fault, m.checkRange s va len access = .error fault →
    pageCeil (va.toNat + len) ≤ 0xFFFFFFFFFFFFFFFF → m.FirstFault s access va len fault
  /-- Otherwise it is the start of the range that is named. -/
  wraps : ∀ fault, m.checkRange s va len access = .error fault →
    0xFFFFFFFFFFFFFFFF < pageCeil (va.toNat + len) → fault = va
  /-- The loop ends. -/
  ends : ∀ stop, rangeStop? va len = some stop →
    ∃ n r, Scans m s access.required va stop va.alignDown n r
  /-- It takes a pass for each page below the limit at most, and one more; the check returns what
    it has found. -/
  bounded : ∀ stop, rangeStop? va len = some stop → ∀ n r,
    Scans m s access.required va stop va.alignDown n r →
    n ≤ userLimit / pageSize + 1 ∧
      (len ≠ 0 → m.checkRange s va len access = r.elim (.ok ⟨va, len⟩) .error)

/-- **The check of a range accepts exactly the ranges that are accessible, and names the first
  address where one is not.** -/
theorem checkRange_checked (m : Memory) (s : SpaceId) (va : VirtAddr) (len : Nat)
    (access : Access) : m.Checked s va len access := by
  have hverdict := checkRange_verdict m s va len access
  constructor
  case passes =>
    generalize m.checkRange s va len access = result at hverdict
    cases hverdict with
    | passes good => exact ⟨fun _ => good, fun _ => rfl⟩
    | wraps hlen high =>
      refine ⟨fun h => (nomatch h), ?_⟩
      rintro (hzero | hall)
      · exact absurd hzero hlen
      · obtain ⟨a, hge, hlt, hfails⟩ := exists_not_accessible hlen high
        exact absurd (hall a hge hlt) hfails
    | faults _ first =>
      refine ⟨fun h => (nomatch h), ?_⟩
      rintro (rfl | hall)
      · exact absurd first.inside (Nat.not_lt.2 first.from_start)
      · exact absurd (hall _ first.from_start first.inside) first.fails
  case range =>
    intro r hr
    rw [hr] at hverdict
    cases hverdict
    rfl
  case least =>
    intro fault hfault hlow
    rw [hfault] at hverdict
    cases hverdict with
    | wraps _ high => omega
    | faults _ first => exact first
  case wraps =>
    intro fault hfault hhigh
    rw [hfault] at hverdict
    cases hverdict with
    | wraps => rfl
    | faults low _ => omega
  case ends =>
    intro stop hstop
    obtain ⟨n, hrun⟩ := scans_firstFault m s access.required va _ (rangePages hstop)
    exact ⟨n, _, hrun⟩
  case bounded =>
    intro stop hstop n r hrun
    refine ⟨?_, fun hlen => checkRange_eq hlen hstop hrun⟩
    calc n ≤ (userLimit - va.alignDown.toNat) / pageSize + 1 := hrun.passes_le va.alignDown_mod
      _ ≤ userLimit / pageSize + 1 :=
        Nat.succ_le_succ (Nat.div_le_div_right (Nat.sub_le _ _))

end Memory

end Exokernel
