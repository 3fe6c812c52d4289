/-
  Where heaps end.

  A heap grows by what a program asks for, rounded up to pages, in numbers that a program chooses
  freely.  It starts at an address that the settings fix, and it has to end below the ceiling of
  user mappings; a program that asks for more is destroyed, so no sum of increments gets past it.

  A break is written in few places.  A newcomer starts with that of the settings or that of its
  parent, a caller raises its own, and a caller that becomes its child goes on with the child's.
  `Stays` is the rule for everything else: whoever is live afterwards was there before, with the
  same break.  Nothing is asked of memory, so the law holds for kernels over any memory, whatever
  programs write there.
-/
import Exokernel.Proofs.Imprints

namespace Exokernel

/-! ## Rounding up -/

/-- The least multiple of the page size that is not below `n`. -/
def pageCeil (n : Nat) : Nat := pageFloor (n + (pageSize - 1))

theorem le_pageCeil (n : Nat) : n ≤ pageCeil n := by
  unfold pageCeil pageFloor
  simp only [pageSize]
  omega

theorem pageCeil_lt (n : Nat) : pageCeil n < n + pageSize := by
  unfold pageCeil pageFloor
  simp only [pageSize]
  omega

theorem pageCeil_mod (n : Nat) : pageCeil n % pageSize = 0 := Nat.mul_mod_left _ _

theorem pageCeil?_toNat (increment : UInt32) :
    pageCeil? increment.toNat = some (pageCeil increment.toNat) := by
  have hlt := increment.toNat_lt
  refine if_pos ?_
  simp only [pageSize]
  omega

/-- **A heap ends where the whole pages end that it is to grow by**, if that is below the
  ceiling. -/
theorem Kernel.heapEnd?_eq_some_iff {before after : VirtAddr} {increment : UInt32} :
    heapEnd? before increment = some after ↔
      after.toNat = before.toNat + pageCeil increment.toNat ∧ after.toNat < userTop := by
  unfold heapEnd?
  rw [pageCeil?_toNat, Option.bind_some, Option.filter_eq_some_iff, VirtAddr.add?,
    Option.ite_none_right_eq_some, VirtAddr.isUser, decide_eq_true_eq, Option.some.injEq]
  refine and_congr_left fun huser => ⟨?_, fun hsum => ?_⟩
  · rintro ⟨hfits, rfl⟩
    exact VirtAddr.toNat_ofNat hfits
  · have hfits : before.toNat + pageCeil increment.toNat < 0x10000000000000000 :=
      hsum ▸ after.toNat_lt
    exact ⟨hfits, by rw [← hsum, VirtAddr.ofNat_toNat]⟩

/-- A heap that cannot be would reach the ceiling, and any other can be. -/
theorem Kernel.heapEnd?_eq_none_iff {before : VirtAddr} {increment : UInt32} :
    heapEnd? before increment = none ↔
      userTop ≤ before.toNat + pageCeil increment.toNat := by
  constructor
  · intro hnone
    by_contra hlt
    have hsmall : before.toNat + pageCeil increment.toNat < userTop := Nat.lt_of_not_le hlt
    have hfits : before.toNat + pageCeil increment.toNat < 0x10000000000000000 :=
      Nat.lt_trans hsmall (by decide)
    have hsum := VirtAddr.toNat_ofNat hfits
    have hsome := heapEnd?_eq_some_iff.2 ⟨hsum, by rw [hsum]; exact hsmall⟩
    exact nomatch hnone.symm.trans hsome
  · intro hle
    refine Option.eq_none_iff_forall_ne_some.2 fun after hsome => ?_
    obtain ⟨hsum, hlt⟩ := heapEnd?_eq_some_iff.1 hsome
    exact absurd (hsum ▸ hlt) (Nat.not_lt_of_le hle)

/-! ## The law -/

/-- With these settings, a heap may end at `b`. -/
structure Config.Bounds (c : Config) (b : VirtAddr) : Prop where
  aligned : b.isAligned = true
  base : c.heapBase.toNat ≤ b.toNat
  ceiling : b.toNat < userTop

/-- A heap that is empty ends where settings that are accepted let it start. -/
theorem Config.bounds_heapBase {c : Config} (h : c.validate = .ok ()) : c.Bounds c.heapBase := by
  unfold validate at h
  split at h
  · cases h
  split at h
  · cases h
  split at h
  · cases h
  rename_i hbase
  simp only [Bool.not_eq_true, Bool.not_eq_false', VirtAddr.isUserPage, Bool.and_eq_true] at hbase
  exact ⟨hbase.2, Nat.le_refl _, of_decide_eq_true hbase.1⟩

/-- A heap may end where it may after it has grown by whole pages. -/
theorem Config.Bounds.grow {c : Config} {before after : VirtAddr} {increment : UInt32}
    (h : c.Bounds before)
    (hsum : after.toNat = before.toNat + pageCeil increment.toNat) (htop : after.toNat < userTop) :
    c.Bounds after := by
  have hbefore : before.toNat % pageSize = 0 := eq_of_beq h.aligned
  have hafter : after.toNat % pageSize = 0 := by
    rw [hsum, Nat.add_mod, hbefore, pageCeil_mod, Nat.zero_mod]
  exact ⟨beq_iff_eq.2 hafter, Nat.le_trans h.base (hsum ▸ Nat.le_add_right _ _), htop⟩

/-- Does the request move the break of its caller if it succeeds? -/
def Request.movesBreak : Request → Bool
  | .growHeap _ | .execCommit _ => true
  | _ => false

namespace Kernel

variable {k k' k'' k₁ : Kernel} {config : Config} {memory : Memory} {console : Console}
  {r : Request} {reply : Reply}
  {flow : Flow} {cur e slot : Nat} {b : VirtAddr}

/-- The request `r`, which had this result, leaves the environment in `e` with the break `b`. -/
inductive BreakMove (k : Kernel) (r : Request) (result : Check Flow) (e : Nat) (b : VirtAddr) :
    Prop where
  /-- The break stays; if it is the caller's and the request is one that moves it, that failed. -/
  | kept (same : b = (k.env e).heapBreak)
      (idle : k.caller = .ok e → r.movesBreak = true → ∃ error, result = .error error)
  /-- The environment grew its heap. -/
  | grown {increment : UInt32} {value : Int32} (request : r = .growHeap increment)
      (caller : k.caller = .ok e) (answer : result = .ok (.answer value))
      (rises : b.toNat = (k.env e).heapBreak.toNat + pageCeil increment.toNat)
      (below : b.toNat < userTop)
  /-- The environment became its child, which had this break. -/
  | adopted {id : EnvId} {image : Nat} (request : r = .execCommit id) (caller : k.caller = .ok e)
      (target : k.target id .owned = .ok image) (resume : result = .ok .resume)
      (copied : b = (k.env image).heapBreak)

/-- The heaps of all live environments end where they may, and each break moves only by calls that
  its environment makes: upwards, or to that of the child that it becomes. -/
structure BreaksLawful (k : Kernel) (config : Config) : Prop where
  bounded : ∀ e, (k.env e).isLive = true → config.Bounds (k.env e).heapBreak
  call : ∀ number args e, (k.env e).isLive = true →
    ((k.call number args).1.env e).isLive = true →
      BreakMove k (.ofWords number args) (k.perform (.ofWords number args)).result e
        ((k.call number args).1.env e).heapBreak
  others : ∀ op, (∀ number args, op ≠ .act (.call number args)) → ∀ e,
    (k.env e).isLive = true → ((k.operate op).1.env e).heapBreak = (k.env e).heapBreak

/-! ## Where breaks stay -/

/-- From `k` to `k'` nobody joins, and whoever is left has the break that it had. -/
structure Stays (k k' : Kernel) : Prop where
  config : k'.config = k.config
  lived : ∀ e, (k'.env e).isLive = true → (k.env e).isLive = true
  same : ∀ e, (k'.env e).isLive = true → (k'.env e).heapBreak = (k.env e).heapBreak

namespace Stays

theorem refl (k : Kernel) : k.Stays k := ⟨rfl, fun _ hl => hl, fun _ _ => rfl⟩

theorem trans (h : k.Stays k') (h' : k'.Stays k'') : k.Stays k'' where
  config := h'.config.trans h.config
  lived e hl := h.lived e (h'.lived e hl)
  same e hl := (h'.same e hl).trans (h.same e (h'.lived e hl))

/-- The table is not written. -/
theorem quiet (config : k'.config = k.config) (envs : k'.envs = k.envs) : k.Stays k' := by
  have henv : ∀ e, k'.env e = k.env e := fun e => congrArg (EnvTable.get · e) envs
  exact ⟨config, fun e hl => henv e ▸ hl, fun e _ => by rw [henv]⟩

theorem updateEnv {change : Env → Env} (hl : (k.env slot).isLive = true)
    (same : (change (k.env slot)).heapBreak = (k.env slot).heapBreak) :
    k.Stays (k.updateEnv slot change) := by
  refine ⟨rfl, fun e he => isLive_of_updateEnv hl he, fun e _ => ?_⟩
  rw [env_updateEnv_eq change hl]
  split
  · rename_i heq
    rw [heq]
    exact same
  · rfl

theorem destroy (hl : (k.env slot).isLive = true) : k.Stays (k.destroy slot) := by
  refine ⟨config_destroy, fun e he => ?_, fun e he => ?_⟩
  · rw [env_destroy hl] at he
    exact (isLive_of_afterEnd he).2
  · rw [env_destroy hl] at he ⊢
    rw [afterEnd_of_ne (isLive_of_afterEnd he).1]
    split <;> rfl

theorem note (h : k.Stays k') (event : Event) : k.Stays (k'.note event) :=
  h.trans (.quiet rfl rfl)

/-- Somebody ends, which is noted before. -/
theorem note_destroy (hl : (k.env slot).isLive = true) (event : Event) :
    k.Stays ((k.note event).destroy slot) :=
  ((refl k).note event).trans (destroy hl)

theorem turns (h : k.Turns k') : k.Stays k' where
  config := h.config
  lived e hl := (h.isLive e).symm.trans hl
  same e _ := (h.record e).heapBreak

theorem ofCheck {c : Check (Kernel × Flow)} (h : ∀ k' flow, c = .ok (k', flow) → k.Stays k') :
    k.Stays (Reply.ofCheck k c).kernel := by
  cases c with
  | ok out => exact h out.1 out.2 rfl
  | error _ => exact .refl k

theorem badPointer (hc : k.caller = .ok cur) (fault : VirtAddr) :
    k.Stays (k.badPointer cur fault).kernel :=
  note_destroy (caller_eq_ok.1 hc).2 _

/-- A message that is handed over wakes the receiver and maps a page. -/
theorem transfer {sender receiver : Nat} {value : UInt32} {page : Option OfferedPage}
    {dest : Option VirtAddr} (hl : (k.env receiver).isLive = true)
    (h : k.transfer sender receiver value page dest = .ok k') :
    k.Stays k' ∧ ∀ e, (k.env e).isLive = true → (k'.env e).isLive = true := by
  obtain ⟨memory, perm, event, -, rfl⟩ := transfer_eq_ok h
  have hmap : k.Stays { k with memory } := .quiet rfl rfl
  have hreceives : Stays { k with memory } ({ k with memory }.updateEnv receiver fun e =>
      received e (k.env sender).id value perm) := .updateEnv hl rfl
  exact ⟨(hmap.trans hreceives).note event,
    fun e he => isLive_updateEnv (k := { k with memory }) he fun _ => rfl⟩

end Stays

theorem send_stays {id : EnvId} {value word : UInt32} {va : VirtAddr}
    (h : k.send id value va word = .ok (k', flow)) : k.Stays k' := by
  obtain ⟨cur, target, page, hc, ht, -, -, hcases⟩ := send_eq_ok h
  rcases hcases with ⟨-, htransfer, -⟩ | ⟨-, ⟨event, rfl⟩, -⟩
  · exact (Stays.transfer (EnvTable.resolve_eq_some_iff.1 ht).2.1 htransfer).1
  · exact Stays.note (.updateEnv (caller_eq_ok.1 hc).2 rfl) event

theorem receive_stays {va : VirtAddr} (h : k.receive va = .ok (k', flow)) : k.Stays k' := by
  obtain ⟨cur, dest, hc, -, hcases⟩ := receive_eq_ok h
  have hl := (caller_eq_ok.1 hc).2
  rcases hcases with ⟨sender, send, k₁, hf, htransfer, rfl, -⟩ | ⟨-, ⟨event, rfl⟩, -⟩
  · obtain ⟨hls, -, -⟩ := firstParked_eq_some hf
    obtain ⟨hhanded, hkeeps⟩ := Stays.transfer hl htransfer
    have hdest : k₁.Stays (k₁.updateEnv cur fun e =>
        { e with mailbox := { e.mailbox with dest } }) := .updateEnv (hkeeps cur hl) rfl
    refine (hhanded.trans hdest).trans (.updateEnv ?_ rfl)
    exact isLive_updateEnv (hkeeps sender hls) fun hl => hl
  · exact Stays.note (.updateEnv hl rfl) event

/-- **Breaks stay** in every request but those that are about them. -/
theorem perform_stays (k : Kernel) (hr : r.movesBreak = false) (hfork : r ≠ .fork) :
    k.Stays (k.perform r).kernel := by
  cases r with
  | putBytes va len =>
    show k.Stays (k.putBytes va len).kernel
    rcases k.putBytes_cases va len with ⟨err, heq⟩ | ⟨cur, fault, hc, heq⟩ | ⟨console, heq⟩ <;>
      rw [heq]
    · exact .refl k
    · exact .badPointer hc fault
    · exact .quiet rfl rfl
  | getByte =>
    obtain ⟨console, hfst⟩ := k.getByte_fst
    show k.Stays k.getByte.1
    rw [hfst]
    exact .quiet rfl rfl
  | ownId =>
    refine .ofCheck fun k' flow hok => ?_
    rw [ownId_eq_ok hok]
    exact .refl k
  | destroyEnv id =>
    refine .ofCheck fun k' flow hok => ?_
    obtain ⟨slot, event, ht, rfl, -⟩ := destroyEnv_eq_ok hok
    exact .note_destroy (isLive_of_target ht) event
  | mapKernelPage phys va =>
    refine .ofCheck fun k' flow hok => ?_
    obtain ⟨cur, frame, s, memory, -, -, -, -, -, -, rfl, -⟩ := mapKernelPage_eq_ok hok
    exact .quiet rfl rfl
  | yield =>
    refine .ofCheck fun k' flow hok => ?_
    obtain ⟨cur, hc, rfl, -⟩ := yield_eq_ok hok
    exact .updateEnv (caller_eq_ok.1 hc).2 rfl
  | fork => exact absurd rfl hfork
  | setStatus id status =>
    refine .ofCheck fun k' flow hok => ?_
    obtain ⟨slot, status, ht, -, -, rfl, -⟩ := setStatus_eq_ok hok
    exact .updateEnv (isLive_of_target ht) rfl
  | setRegisters id va =>
    show k.Stays (k.setRegisters id va).kernel
    rcases k.setRegisters_cases id va with
      ⟨err, heq⟩ | ⟨cur, fault, hc, heq⟩ | ⟨slot, registers, ht, heq⟩ <;> rw [heq]
    · exact .refl k
    · exact .badPointer hc fault
    · exact .updateEnv (isLive_of_target ht) rfl
  | setUpcall id va =>
    refine .ofCheck fun k' flow hok => ?_
    obtain ⟨slot, upcall, ht, rfl, -⟩ := setUpcall_eq_ok hok
    exact .updateEnv (isLive_of_target ht) rfl
  | execCommit id => cases hr
  | pageAlloc id va word =>
    show k.Stays (k.pageAlloc id va word).kernel
    rcases k.pageAlloc_cases id va word with
      ⟨err, heq⟩ | ⟨slot, s, perm, memory, -, ⟨err, -, heq⟩ | ⟨-, event, heq⟩⟩ <;> rw [heq] <;>
        exact .quiet rfl rfl
  | pageMap source sourceVa dest destVa perm =>
    refine .ofCheck fun k' flow hok => ?_
    obtain ⟨src, dst, asked, srcSpace, dstSpace, frame, sourcePerm, memory, event, -, -, -, -, -,
      -, -, -, -, -, rfl, -⟩ := pageMap_eq_ok hok
    exact .quiet rfl rfl
  | pageUnmap id va =>
    refine .ofCheck fun k' flow hok => ?_
    obtain ⟨slot, s, -, -, -, rfl, -⟩ := pageUnmap_eq_ok hok
    exact .quiet rfl rfl
  | send id value va word => exact .ofCheck fun _ _ => send_stays
  | receive va => exact .ofCheck fun _ _ => receive_stays
  | growHeap increment => cases hr
  | unknown number => exact .quiet rfl rfl

/-! ## Where breaks move -/

/-- Growing a heap leaves all breaks where they are and fails or ends the caller, or it raises the
  caller's. -/
theorem growHeap_moves (k : Kernel) (increment : UInt32) :
    k.Stays (k.growHeap increment).kernel ∧
        (∀ e, k.caller = .ok e → ((k.growHeap increment).kernel.env e).isLive = true →
          ∃ error, (k.growHeap increment).result = .error error) ∨
      ∃ cur after m event value, k.caller = .ok cur ∧
        after.toNat = (k.env cur).heapBreak.toNat + pageCeil increment.toNat ∧
        after.toNat < userTop ∧ k.growHeap increment =
          ⟨({ k with memory := m }.updateEnv cur fun e => { e with heapBreak := after }).note
            event, .ok (.answer value)⟩ := by
  cases hc : k.caller with
  | error err =>
    have heq : k.growHeap increment = .refuse k err := by simp only [growHeap, hc]
    rw [heq]
    exact Or.inl ⟨.refl k, fun e he => by cases he⟩
  | ok cur =>
    cases hend : heapEnd? (k.env cur).heapBreak increment with
    | none =>
      obtain ⟨event, heq⟩ := growHeap_of_none hc hend
      rw [heq]
      have hl := (caller_eq_ok.1 hc).2
      refine Or.inl ⟨.note_destroy hl event, fun e he hlive => ?_⟩
      -- the caller is not there any more
      obtain rfl := Except.ok.inj he
      rw [env_destroy (k := k.note event) hl] at hlive
      exact absurd rfl (isLive_of_afterEnd hlive).1
    | some after =>
      cases hs : (k.env cur).space with
      | none =>
        obtain ⟨err, heq⟩ := growHeap_of_spaceless hc hs hend
        rw [heq]
        exact Or.inl ⟨.refl k, fun _ _ _ => ⟨err, rfl⟩⟩
      | some s =>
        obtain ⟨n, m, -, ⟨event, -, heq⟩ | ⟨fault, err, mapped, -, -, heq⟩⟩ :=
          growHeap_of_some hc hs hend
        · obtain ⟨hsum, hlt⟩ := heapEnd?_eq_some_iff.1 hend
          exact Or.inr ⟨cur, after, m, event, _, rfl, hsum, hlt, heq⟩
        · rw [heq]
          exact Or.inl ⟨.quiet rfl rfl, fun _ _ _ => ⟨_, rfl⟩⟩

/-- A caller that becomes its child has the child's break, and all others stay. -/
theorem execCommit_moves {id : EnvId} (h : k.execCommit id = .ok (k', flow)) :
    ∃ cur image, k.caller = .ok cur ∧ k.target id .owned = .ok image ∧ flow = .resume ∧
      k'.config = k.config ∧ ∀ e, (k'.env e).isLive = true → (k.env e).isLive = true ∧
        (k'.env e).heapBreak = (k.env (if e = cur then image else e)).heapBreak := by
  obtain ⟨cur, image, event, hc, ht, hne, rfl, rfl⟩ := execCommit_eq_ok h
  have hlc := (caller_eq_ok.1 hc).2
  have hli := isLive_of_target ht
  obtain ⟨hcur, himage, hothers⟩ := env_swapped hne hlc hli event
  have hl : ((k.swapped cur image event).env image).isLive = true := by
    rw [himage]
    exact hli
  have hend := Stays.destroy hl
  have hconfig : (k.swapped cur image event).config = k.config := by
    unfold swapped activate
    split <;> rfl
  refine ⟨cur, image, hc, ht, rfl, hend.config.trans hconfig, fun e he => ?_⟩
  rw [hend.same e he]
  have hlive := hend.lived e he
  by_cases heq : e = cur
  · subst heq
    rw [hcur, if_pos rfl]
    exact ⟨hlc, rfl⟩
  rw [if_neg heq]
  by_cases hei : e = image
  · subst hei
    rw [himage]
    exact ⟨hli, rfl⟩
  · rw [hothers e heq hei] at hlive ⊢
    exact ⟨hlive, rfl⟩

/-- A newcomer has the break that its parent has, and all others stay. -/
theorem fork_moves (h : k.fork = .ok (k', flow)) :
    ∃ cur slot, k.caller = .ok cur ∧ (k.env slot).isLive = false ∧ k'.config = k.config ∧
      (k'.env slot).heapBreak = (k.env cur).heapBreak ∧ ∀ e, e ≠ slot → k'.env e = k.env e := by
  obtain ⟨cur, k₁, slot, event, hc, ha, rfl, -⟩ := fork_eq_ok h
  obtain ⟨s, -, -, hdead, -, hothers, -, hconfig, -⟩ := allocEnv_spec ha
  refine ⟨cur, slot, hc, hdead, hconfig, ?_,
    fun e he => (env_updateEnv_of_ne _ he).trans (hothers e he)⟩
  have hl := isLive_of_allocEnv ha
  rw [env_note, env_updateEnv_self _ hl]

/-! ## Requests -/

/-- Whoever is live in `e` after a request was there before, or is a newcomer with the break of the
  caller. -/
inductive Origin (k : Kernel) (r : Request) (reply : Reply) (e : Nat) : Prop where
  | moved (lived : (k.env e).isLive = true)
      (move : BreakMove k r reply.result e (reply.kernel.env e).heapBreak)
  | joined {cur : Nat} (unused : (k.env e).isLive = false) (caller : k.caller = .ok cur)
      (copied : (reply.kernel.env e).heapBreak = (k.env cur).heapBreak)

/-- All breaks that are there after a request come from those before it. -/
structure Traced (k : Kernel) (r : Request) (reply : Reply) : Prop where
  config : reply.kernel.config = k.config
  origin : ∀ e, (reply.kernel.env e).isLive = true → Origin k r reply e

theorem Traced.of_stays (h : k.Stays reply.kernel)
    (idle : ∀ e, k.caller = .ok e → (reply.kernel.env e).isLive = true → r.movesBreak = true →
      ∃ error, reply.result = .error error) : Traced k r reply where
  config := h.config
  origin e hl := .moved (h.lived e hl) (.kept (h.same e hl) fun hc => idle e hc hl)

theorem Traced.ofCheck {c : Check (Kernel × Flow)}
    (h : ∀ k' flow, c = .ok (k', flow) → Traced k r ⟨k', .ok flow⟩) :
    Traced k r (Reply.ofCheck k c) := by
  cases c with
  | ok out => exact h out.1 out.2 rfl
  | error err => exact .of_stays (.refl k) fun _ _ _ _ => ⟨err, rfl⟩

theorem fork_traced (h : k.fork = .ok (k', flow)) : Traced k .fork ⟨k', .ok flow⟩ := by
  obtain ⟨cur, slot, hc, hdead, hconfig, hbreak, hothers⟩ := fork_moves h
  refine ⟨hconfig, fun e hl => ?_⟩
  by_cases he : e = slot
  · subst he
    exact .joined hdead hc hbreak
  · have hrec : k'.env e = k.env e := hothers e he
    exact .moved (hrec ▸ hl) (.kept (congrArg Env.heapBreak hrec) fun _ hmoves => nomatch hmoves)

theorem growHeap_traced (k : Kernel) (increment : UInt32) :
    Traced k (.growHeap increment) (k.growHeap increment) := by
  rcases k.growHeap_moves increment with
    ⟨hstays, hfails⟩ | ⟨cur, after, m, event, value, hc, hsum, hlt, heq⟩
  · exact .of_stays hstays fun e hcaller hl _ => hfails e hcaller hl
  rw [heq]
  have hlc := (caller_eq_ok.1 hc).2
  refine ⟨rfl, fun e hl => .moved (isLive_of_updateEnv (k := { k with memory := m }) hlc hl) ?_⟩
  have hrec := env_updateEnv_eq (k := { k with memory := m })
    (fun e => { e with heapBreak := after }) hlc e
  rw [env_note, hrec]
  split
  · rename_i he
    subst he
    exact .grown rfl hc rfl hsum hlt
  · rename_i hne
    exact .kept rfl fun hcaller => absurd (Except.ok.inj (hcaller.symm.trans hc)) hne

theorem execCommit_traced {id : EnvId} (h : k.execCommit id = .ok (k', flow)) :
    Traced k (.execCommit id) ⟨k', .ok flow⟩ := by
  obtain ⟨cur, image, hc, ht, rfl, hconfig, hbreaks⟩ := execCommit_moves h
  refine ⟨hconfig, fun e hl => ?_⟩
  obtain ⟨hlived, hbreak⟩ := hbreaks e hl
  refine .moved hlived ?_
  by_cases he : e = cur
  · subst he
    rw [if_pos rfl] at hbreak
    exact .adopted rfl hc ht rfl hbreak
  · rw [if_neg he] at hbreak
    exact .kept hbreak fun hcaller => absurd (Except.ok.inj (hcaller.symm.trans hc)) he

/-- **Where the breaks come from** that are there after a request. -/
theorem perform_traced (k : Kernel) (r : Request) : Traced k r (k.perform r) := by
  by_cases hr : r.movesBreak = false ∧ r ≠ .fork
  · exact .of_stays (perform_stays k hr.1 hr.2) fun _ _ _ hmoves =>
      nomatch hr.1.symm.trans hmoves
  cases r with
  | fork => exact .ofCheck fun _ _ => fork_traced
  | growHeap increment => exact growHeap_traced k increment
  | execCommit id => exact .ofCheck fun _ _ => execCommit_traced
  | _ => exact absurd ⟨rfl, by nofun⟩ hr

/-! ## Histories -/

/-- The kernel has these settings, and its heaps end where they may. -/
structure Bounded (config : Config) (k : Kernel) : Prop where
  settings : k.config = config
  bounds : ∀ e, (k.env e).isLive = true → config.Bounds (k.env e).heapBreak

theorem Bounded.stays (hk : Bounded config k) (h : k.Stays k') : Bounded config k' := by
  refine ⟨h.config.trans hk.settings, fun e he => ?_⟩
  rw [h.same e he]
  exact hk.bounds e (h.lived e he)

theorem BreakMove.bounds {result : Check Flow} (h : BreakMove k r result e b)
    (hk : Bounded config k) (hl : (k.env e).isLive = true) : config.Bounds b := by
  cases h with
  | kept same =>
    rw [same]
    exact hk.bounds e hl
  | grown _ _ _ rises below => exact (hk.bounds e hl).grow rises below
  | adopted _ _ target _ copied =>
    rw [copied]
    exact hk.bounds _ (isLive_of_target target)

theorem Bounded.perform (hk : Bounded config k) (r : Request) :
    Bounded config (k.perform r).kernel := by
  have htraced := perform_traced k r
  refine ⟨htraced.config.trans hk.settings, fun e he => ?_⟩
  cases htraced.origin e he with
  | joined _ caller copied =>
    rw [copied]
    exact hk.bounds _ (caller_eq_ok.1 caller).2
  | moved lived move => exact move.bounds hk lived

/-- A newcomer from outside has an empty heap. -/
theorem Bounded.createEnv {parent id : EnvId} {entry stack : UInt32} (hk : Bounded config k)
    (hbase : config.Bounds config.heapBase)
    (h : k.createEnv parent entry stack = .ok (k', id)) : Bounded config k' := by
  obtain ⟨k₁, slot, event, ha, rfl⟩ := createEnv_eq_ok h
  obtain ⟨s, -, -, hdead, hnew, hothers, -, hconfig, -⟩ := allocEnv_spec ha
  refine ⟨hconfig.trans hk.settings, fun e he => ?_⟩
  have hnewcomer := isLive_of_allocEnv ha
  rw [env_note, env_updateEnv_eq _ hnewcomer] at he ⊢
  split at he
  · rename_i heq
    rw [if_pos heq, hnew, newcomer, hk.settings]
    exact hbase
  · rename_i hne
    rw [if_neg hne]
    rw [hothers e hne] at he ⊢
    exact hk.bounds e he

theorem Bounded.act (hk : Bounded config k) (hbase : config.Bounds config.heapBase) (a : Action) :
    Bounded config (k.act a).1 := by
  cases a with
  | create parent entry stack =>
    unfold Kernel.act
    dsimp only
    split
    · rename_i k' id hok
      exact hk.createEnv hbase hok
    · exact hk
  | run id =>
    cases hr : k.envs.resolve id with
    | none =>
      rw [act_run_of_none hr]
      exact hk
    | some slot =>
      rw [act_run hr]
      exact hk.stays (.turns (.resume k slot))
  | capture registers => exact hk.stays (.turns (.capture k registers))
  | call number args =>
    cases hcur : k.current with
    | none => exact hk.stays (.turns (.call_of_none hcur number args))
    | some cur => exact (hk.perform _).stays (.turns (.call hcur number args))

theorem Bounded.operate (hk : Bounded config k) (hbase : config.Bounds config.heapBase)
    (op : Operation) : Bounded config (k.operate op).1 := by
  cases op with
  | act a => exact hk.act hbase a
  | load id va len => exact hk
  | store id va bytes =>
    unfold Kernel.operate
    dsimp only
    split
    · exact hk
    · exact hk.stays (.quiet rfl rfl)

theorem Bounded.afterAll (hbase : config.Bounds config.heapBase) (history : List Operation)
    (k : Kernel) (hk : Bounded config k) : Bounded config (k.afterAll history) := by
  induction history generalizing k with
  | nil => exact hk
  | cons op rest ih => exact ih _ (hk.operate hbase op)

theorem bounded_boot (h : Kernel.boot config memory console = .ok k) :
    Bounded config k ∧ config.Bounds config.heapBase := by
  have hvalid : config.validate = .ok () := by
    unfold boot at h
    split at h
    · cases h
    · rename_i hok
      exact hok
  refine ⟨⟨by rw [(boot_eq_ok h).1], fun e he => ?_⟩, Config.bounds_heapBase hvalid⟩
  rw [env_boot h] at he
  cases he

/-- A call moves a break as its request does; the turn that ends it does not. -/
theorem call_breakMove (number : UInt32) (args : Args) (hl : (k.env e).isLive = true)
    (hl' : ((k.call number args).1.env e).isLive = true) :
    BreakMove k (.ofWords number args) (k.perform (.ofWords number args)).result e
      ((k.call number args).1.env e).heapBreak := by
  cases hcur : k.current with
  | none =>
    have hturn : k.Stays (k.call number args).1 := .turns (.call_of_none hcur number args)
    refine .kept (hturn.same e hl') fun hc => ?_
    exact nomatch hcur.symm.trans (caller_eq_ok.1 hc).1
  | some cur =>
    have hturn : (k.perform (.ofWords number args)).kernel.Stays (k.call number args).1 :=
      .turns (.call hcur number args)
    rw [hturn.same e hl']
    cases (perform_traced k (.ofWords number args)).origin e (hturn.lived e hl') with
    | joined unused => exact nomatch hl.symm.trans unused
    | moved _ move => exact move

/-- What is no call leaves the breaks of those who are there. -/
theorem operate_heapBreak {op : Operation} (hno : ∀ number args, op ≠ .act (.call number args))
    (hl : (k.env e).isLive = true) :
    ((k.operate op).1.env e).heapBreak = (k.env e).heapBreak := by
  cases op with
  | act a =>
    rcases k.act_cases a e with ⟨number, args, rfl⟩ | hturned | ⟨hdead, -⟩
    · exact absurd rfl (hno number args)
    · exact hturned.heapBreak
    · exact nomatch hl.symm.trans hdead
  | load id va len => rfl
  | store id va bytes =>
    rw [show ∀ k' : Kernel, k'.envs = k.envs → k'.env e = k.env e from fun k' henvs =>
      congrArg (EnvTable.get · e) henvs]
    exact k.envs_operate _ (by nofun)

/-- **Heap breaks keep within their bounds** after any history, and move only by calls of their
  own. -/
theorem breaks_lawful (hboot : Kernel.boot config memory console = .ok k)
    (history : List Operation) : (k.afterAll history).BreaksLawful config where
  bounded :=
    have ⟨hk, hbase⟩ := bounded_boot hboot
    (Bounded.afterAll hbase history k hk).bounds
  call number args _ hl hl' := call_breakMove number args hl hl'
  others _ hno _ hl := operate_heapBreak hno hl

/-- A parent forks, grows its heap, and becomes its child, whose heap is still empty. -/
def lowered : List Operation :=
  [.act (.create .none 0 0), .act (.run ⟨4096⟩), .act (.call 6 (.replicate 5 0)),
    .act (.call 16 (.replicate 5 5000)), .act (.call 10 (.replicate 5 4097))]

theorem breaks_lawful_lowered : (small.afterAll lowered).BreaksLawful small.config :=
  breaks_lawful booted_small.boot lowered

/-- The heap grows by two pages, and falls back with the image. -/
example : ((small.afterAll (lowered.take 4)).env 0).heapBreak = .ofNat 0x10002000 ∧
    ((small.afterAll lowered).env 0).heapBreak = .ofNat 0x10000000 := by decide +kernel

end Kernel

end Exokernel
