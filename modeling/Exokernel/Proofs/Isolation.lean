/-
  What a call does to those whom it does not concern.

  A bystander is a live environment that is neither the caller nor a child of the caller.  No
  call changes what a bystander maps or what is stored there, with one exception that it asked
  for itself: a page that arrives where it waits for one.  Its record changes when a message is
  handed over, to it or from it, when the target of its message ends, and when it is its turn to
  go on.

  The argument has two parts.  Every elementary change spares all slots that it is not about;
  this rests on the invariant, for every space has one owner, and a frame in use is never handed
  out.  And the slots that a call is about are known from `Concerns`.
-/
import Exokernel.Proofs.Rendezvous

namespace Exokernel

/-! ## Spaces that are spared -/

/-- From `m` to `m'`, nothing happens to the space `s` and to what is stored in its frames. -/
structure Memory.Spares (m m' : Memory) (s : SpaceId) : Prop where
  directory : m'.directory? s = m.directory? s
  stored : ∀ d, m.directory? s = some d → ∀ f ∈ d.references, m'.pool.stored? f = m.pool.stored? f

namespace Memory.Spares

variable {m m' m'' : Memory} {r s : SpaceId}

theorem refl (m : Memory) (s : SpaceId) : m.Spares m s := ⟨rfl, fun _ _ _ _ => rfl⟩

theorem trans (h : m.Spares m' s) (h' : m'.Spares m'' s) : m.Spares m'' s where
  directory := h'.directory.trans h.directory
  stored d hd f hf :=
    (h'.stored d (h.directory.trans hd) f hf).trans (h.stored d hd f hf)

theorem of_eq (hp : m'.pool = m.pool) (hs : m'.spaces = m.spaces) : m.Spares m' s := by
  refine ⟨?_, fun d _ f _ => by rw [hp]⟩
  unfold directory?
  rw [hs]

theorem of_touches (h : m.Touches m' r) (hne : s ≠ r) : m.Spares m' s :=
  ⟨h.others s hne, h.stored s hne⟩

theorem lookup_eq (h : m.Spares m' s) (va : VirtAddr) : m'.lookup s va = m.lookup s va :=
  lookup_congr h.directory va

theorem stored_of_lookup (h : m.Spares m' s) {va : VirtAddr} {f : Frame} {perm : Perm}
    (hl : m.lookup s va = some (f, perm)) : m'.pool.stored? f = m.pool.stored? f := by
  obtain ⟨d, hd, hf⟩ := frame_mem_of_lookup hl
  exact h.stored d hd f hf

end Memory.Spares

/-- The same frames and the same mappings; another space may be in force. -/
structure Memory.Same (m m' : Memory) : Prop where
  pool : m'.pool = m.pool
  spaces : m'.spaces = m.spaces

namespace Memory.Same

variable {m m' m'' : Memory}

theorem refl (m : Memory) : m.Same m := ⟨rfl, rfl⟩

theorem symm (h : m.Same m') : m'.Same m := ⟨h.pool.symm, h.spaces.symm⟩

theorem trans (h : m.Same m') (h' : m'.Same m'') : m.Same m'' :=
  ⟨h'.pool.trans h.pool, h'.spaces.trans h.spaces⟩

theorem lookup (h : m.Same m') (s : SpaceId) (va : VirtAddr) :
    m'.lookup s va = m.lookup s va := (Spares.of_eq h.pool h.spaces).lookup_eq va

theorem directory? (h : m.Same m') (s : SpaceId) : m'.directory? s = m.directory? s := by
  unfold Memory.directory?
  rw [h.spaces]

theorem destroySpace (h : m.Same m') (s : SpaceId) :
    (m.destroySpace s).Same (m'.destroySpace s) := by
  have hdir := h.directory? s
  unfold Memory.destroySpace
  rw [hdir]
  split
  · exact h
  · rename_i d _
    refine ⟨?_, ?_⟩
    · show m'.pool.releaseAll d.references = m.pool.releaseAll d.references
      rw [h.pool]
    · show m'.spaces.setIfInBounds _ _ = m.spaces.setIfInBounds _ _
      rw [h.spaces]

end Memory.Same

namespace Kernel

variable {pins : List Frame} {P : Nat → Prop} {k k' : Kernel}

/-! ## Slots that are spared -/

/-- Spaces of different environments are different. -/
theorem Sound.space_ne (h : k.Sound pins) {a b : Nat} {r s : SpaceId} (hne : a ≠ b)
    (ha : k.Holds a r) (hb : k.Holds b s) : r ≠ s := by
  rintro rfl
  exact hne (h.apart a b r ha hb)

/-- **An elementary change spares everybody whom it is not about.** -/
theorem Edit.spares (he : Edit pins P k k') (hk : k.Sound pins) {e : Nat} {s : SpaceId}
    (hs : k.Holds e s) (hP : ¬ P e) : k'.env e = k.env e ∧ k.memory.Spares k'.memory s := by
  have hne : ∀ {slot : Nat}, P slot → e ≠ slot := by
    rintro slot hslot rfl
    exact hP hslot
  cases he with
  | quiet _ envs pool spaces =>
    exact ⟨congrArg (EnvTable.get · e) envs, .of_eq pool spaces⟩
  | tune subject => exact ⟨env_updateEnv_of_ne _ (hne subject), .refl _ _⟩
  | park subject => exact ⟨env_updateEnv_of_ne _ (hne subject), .refl _ _⟩
  | wait subject => exact ⟨env_updateEnv_of_ne _ (hne subject), .refl _ _⟩
  | remap subject live space touches =>
    exact ⟨rfl, .of_touches (touches hk.balanced).2
      (hk.space_ne (hne subject) hs ⟨live, space⟩)⟩
  | enlist alloc =>
    obtain ⟨r, hm, -, hdead, -, hothers, -⟩ := allocEnv_spec alloc
    obtain ⟨-, f, ho⟩ := Memory.createSpace_spec hk.balanced hk.spaces_lt hm
    have hsr : s ≠ r := ho.ne_of_isSome (hk.isSome_of_holds hs)
    exact ⟨hothers e (ne_of_isLive hs.1 hdead), ho.others s hsr, fun d hd g hg =>
      ho.stored g (Memory.mem_references hd hg)⟩
  | swap subjects live live' ne =>
    obtain ⟨-, -, hothers⟩ := env_updateEnv_two ne live live'
    exact ⟨hothers e (hne subjects.1) (hne subjects.2), .refl _ _⟩

theorem Edits.spares (he : Edits pins P k k') (hk : k.Sound pins) {e : Nat} {s : SpaceId}
    (hs : k.Holds e s) (hP : ¬ P e) : k'.env e = k.env e ∧ k.memory.Spares k'.memory s := by
  induction he with
  | refl => exact ⟨rfl, .refl _ _⟩
  | @tail k₁ k₂ hm hlast ih =>
    obtain ⟨henv, hmem⟩ := ih
    have hs₁ : k₁.Holds e s := by
      rw [Holds, henv]
      exact hs
    obtain ⟨henv', hmem'⟩ := hlast.spares (Edits.sound hm hk) hs₁ hP
    exact ⟨henv'.trans henv, hmem.trans hmem'⟩

/-- The environment in `e` had a message parked for one that ends between `k` and `k'`. -/
def Orphaned (k k' : Kernel) (e : Nat) : Prop :=
  ∃ send b, (k.env e).mailbox.parked = some send ∧ k.envs.resolve send.target = some b ∧
    k'.envs.resolve send.target = none

/-- The id of an environment that ends names nobody any more. -/
theorem resolve_destroy {slot : Nat} (hl : (k.env slot).isLive = true)
    (hslot : (k.env slot).id.slot = slot) :
    (k.destroy slot).envs.resolve (k.env slot).id = none := by
  have henv := env_destroy hl
  refine Option.eq_none_iff_forall_ne_some.2 fun b hb => ?_
  obtain ⟨hb, hlive, -⟩ := EnvTable.resolve_eq_some_iff.1 hb
  have hlive' : ((k.destroy slot).env b).isLive = true := hlive
  rw [henv] at hlive'
  exact (isLive_of_afterEnd hlive').1 (hb.symm.trans hslot)

/-- The end of another environment spares a space, and wakes whoever has a message parked for it. -/
theorem Sound.destroy_spares (hk : k.Sound pins) {slot e : Nat} {s : SpaceId}
    (hl : (k.env slot).isLive = true) (hne : e ≠ slot) (hs : k.Holds e s) :
    ((k.destroy slot).env e = k.env e ∨ ∃ send, (k.env e).mailbox.parked = some send ∧
        (k.destroy slot).envs.resolve send.target = none ∧
        (k.destroy slot).env e = (k.env e).wakeSender CallError.badEnv.code) ∧
      k.memory.Spares (k.destroy slot).memory s := by
  have henv := env_destroy hl
  obtain ⟨r, hr, -⟩ := hk.space slot hl
  obtain ⟨-, hc⟩ := Memory.destroySpace_spec hk.balanced r
  have hsr := hk.space_ne hne hs ⟨hl, hr⟩
  refine ⟨?_, ?_⟩
  · rw [henv, afterEnd_of_ne hne]
    split
    · rename_i hsends
      obtain ⟨send, hp, ht⟩ := Env.sendsTo_iff.1 (Bool.and_eq_true_iff.1 hsends).2
      exact Or.inr ⟨send, hp, ht ▸ resolve_destroy hl (hk.number slot hl), rfl⟩
    · exact Or.inl rfl
  · rw [memory_destroy hl hr]
    exact ⟨hc.others s hsr, fun d hd f hf => hc.stored f⟩

/-- **A call spares everybody whom it does not concern**, but for a message to an environment that
  ends. -/
theorem Outcome.spares (ho : Outcome pins P k k') (hk : k.Sound pins) (hmet : k.Met) {e : Nat}
    {s : SpaceId} (hs : k.Holds e s) (hP : ¬ P e) :
    (k'.env e = k.env e ∨ Orphaned k k' e ∧
        k'.env e = (k.env e).wakeSender CallError.badEnv.code) ∧
      k.memory.Spares k'.memory s := by
  cases ho with
  | edits he =>
    obtain ⟨henv, hmem⟩ := he.spares hk hs hP
    exact ⟨Or.inl henv, hmem⟩
  | @ending k₁ slot he hslot hend =>
    have hl := hend.live
    obtain ⟨henv, hmem⟩ := Edits.spares he hk hs hP
    have hs₁ : k₁.Holds e s := by
      rw [Holds, henv]
      exact hs
    have hne : e ≠ slot := by
      rintro rfl
      exact hP hslot
    obtain ⟨hrecord, hmem'⟩ := (Edits.sound he hk).destroy_spares hl hne hs₁
    refine ⟨?_, hmem.trans hmem'⟩
    rw [henv] at hrecord
    rcases hrecord with hsame | ⟨send, hp, hgone, hwoken⟩
    · exact Or.inl hsame
    · obtain ⟨-, b, hb, -⟩ := hmet e hs.1 send hp
      exact Or.inr ⟨⟨send, b, hp, hb, hgone⟩, hwoken⟩

/-! ## Bystanders -/

/-- What a call may make of the record of a bystander. -/
inductive Disturbance (k k' : Kernel) (cur e : Nat) (r : Request) : Env → Prop where
  | none : Disturbance k k' cur e r (k.env e)
  /-- The caller sends a message to it while it waits. -/
  | delivered {id : EnvId} {value : UInt32} {va : VirtAddr} {word : UInt32} {perm : Perm}
      (request : r = .send id value va word) (target : k.envs.resolve id = some e)
      (waits : (k.env e).mailbox.receiving = true) :
      Disturbance k k' cur e r (received (k.env e) (k.env cur).id value perm)
  /-- The caller receives the message that it had parked. -/
  | taken {va : VirtAddr} {send : ParkedSend} (request : r = .receive va)
      (parked : (k.env e).mailbox.parked = some send) (target : send.target = (k.env cur).id) :
      Disturbance k k' cur e r ((k.env e).wakeSender 0)
  /-- The target of its message ends. -/
  | orphaned (gone : Orphaned k k' e) :
      Disturbance k k' cur e r ((k.env e).wakeSender CallError.badEnv.code)

/-- The request is a message to the environment in `e`, which waits for one and for a page at
  `va`. -/
def PageArrives (k : Kernel) (e : Nat) (r : Request) (va : VirtAddr) : Prop :=
  ∃ id value source word dest, r = .send id value source word ∧ k.envs.resolve id = some e ∧
    (k.env e).mailbox.receiving = true ∧ (k.env e).mailbox.dest = some dest ∧ dest.SamePage va

/-- What a call leaves of a bystander in `e` with the space `s`. -/
structure Bystands (k k' : Kernel) (cur e : Nat) (r : Request) (s : SpaceId) : Prop where
  record : Disturbance k k' cur e r (k'.env e)
  lookup : ∀ va, k'.memory.lookup s va ≠ k.memory.lookup s va → k.PageArrives e r va
  stored : ∀ va f perm, k.memory.lookup s va = some (f, perm) →
    k'.memory.pool.stored? f = k.memory.pool.stored? f

variable {cur e : Nat} {s : SpaceId} {r : Request}

theorem Bystands.of_spares (hrecord : Disturbance k k' cur e r (k'.env e))
    (h : k.memory.Spares k'.memory s) : Bystands k k' cur e r s :=
  ⟨hrecord, fun va hva => absurd (h.lookup_eq va) hva, fun _ _ _ => h.stored_of_lookup⟩

theorem Bystands.refl : Bystands k k cur e r s := .of_spares .none (.refl _ _)

/-- A message to a bystander that waits. -/
theorem send_bystands {id : EnvId} {value word : UInt32} {va : VirtAddr} {flow : Flow}
    (hk : k.Sound pins) (hs : k.Holds e s) (hc : k.caller = .ok cur)
    (he : k.envs.resolve id = some e) (hwaits : (k.env e).mailbox.receiving = true)
    (h : k.send id value va word = .ok (k', flow)) :
    Bystands k k' cur e (.send id value va word) s := by
  obtain ⟨cur', target, page, hc', ht, -, hp, hcases⟩ := send_eq_ok h
  obtain rfl : cur = cur' := by simpa [hc] using hc'
  obtain rfl : e = target := by simpa [he] using ht
  rcases hcases with ⟨-, htransfer, -⟩ | ⟨haway, -⟩
  swap
  · exact absurd (haway.symm.trans hwaits) Bool.false_ne_true
  obtain ⟨perm, hplace, hrecord, -⟩ := transfer_spec hs.1 htransfer
  have hdisturbed : Disturbance k k' cur e (.send id value va word) (k'.env e) := by
    rw [hrecord]
    exact .delivered rfl he hwaits
  rcases placePage_eq_ok hplace with ⟨-, hsame, -⟩ | ⟨offered, dest, r, hoffered, hdest, hr, hi, -⟩
  · refine .of_spares hdisturbed ?_
    rw [hsame]
    exact .refl _ _
  -- a page arrives where the bystander waits for it
  obtain rfl : s = r := Option.some.inj (hs.2.symm.trans hr)
  have hbits := (requestable_of_offer hp offered hoffered).bits_lt
  obtain ⟨-, -, -, hstored⟩ :=
    Memory.insert_spec hk.balanced (fun _ hg => absurd hg List.not_mem_nil) hbits hi
  refine ⟨hdisturbed, fun b hb => ?_, fun b f q hl => ?_⟩
  · refine ⟨id, value, va, word, dest, rfl, he, hwaits, hdest, ?_⟩
    by_contra hother
    apply hb
    rw [Memory.lookup_insert hk.balanced hbits hi, if_neg hother]
  · obtain ⟨d, hd, hf⟩ := Memory.frame_mem_of_lookup hl
    exact hstored f (Memory.mem_references hd hf)

/-- A message from a bystander that was parked for the caller. -/
theorem receive_bystands {va : VirtAddr} {send : ParkedSend} {flow : Flow} (hk : k.Sound pins)
    (hs : k.Holds e s) (hne : e ≠ cur) (hc : k.caller = .ok cur)
    (hf : k.firstParked (k.env cur).id = some (e, send))
    (h : k.receive va = .ok (k', flow)) : Bystands k k' cur e (.receive va) s := by
  obtain ⟨cur', dest, hc', -, hcases⟩ := receive_eq_ok h
  obtain rfl : cur = cur' := by simpa [hc] using hc'
  rcases hcases with ⟨sender, send', k₁, hf', htransfer, rfl, -⟩ | ⟨hnone, -⟩
  swap
  · rw [hf] at hnone
    cases hnone
  obtain ⟨rfl, rfl⟩ := Prod.mk.inj (Option.some.inj (hf.symm.trans hf'))
  obtain ⟨-, hparked, htarget⟩ := firstParked_eq_some hf
  have hl := (caller_eq_ok.1 hc).2
  have hpage : ∀ p, (send.page.filter fun page => k.stillMaps e page) = some p →
      p.perm.Requestable := fun p hp =>
    hk.offers e hs.1 send hparked p (Option.filter_eq_some_iff.1 hp).1
  have hhand : Edits pins (fun slot => slot = cur) k k₁ := transfer_edits rfl hl hpage htransfer
  obtain ⟨henv, hmem⟩ := (hhand.tune (fun e => { e with mailbox := { e.mailbox with dest } }) rfl hl
    fun hl₁ => ⟨⟨rfl, rfl, hl₁, fun hr => hr, Or.inl rfl⟩, rfl⟩).spares hk hs hne
  have hwoken : ((k₁.updateEnv cur fun e =>
      { e with mailbox := { e.mailbox with dest } }).updateEnv e fun e => e.wakeSender 0).env e =
        (k.env e).wakeSender 0 := by
    rw [env_updateEnv_self _ (by rw [henv]; exact hs.1), henv]
  refine .of_spares ?_ hmem
  rw [hwoken]
  exact .taken rfl hparked htarget

/-- **Whatever the caller asks for, a bystander bystands.** -/
theorem perform_bystands (hk : k.Sound pins) (hmet : k.Met) (hs : k.Holds e s)
    (hc : k.caller = .ok cur) (hne : e ≠ cur) (hparent : (k.env e).parent ≠ (k.env cur).id)
    (r : Request) : Bystands k (k.perform r).kernel cur e r s := by
  by_cases hP : k.Concerns r e
  · obtain ⟨cur', hc', hcontrols | hmessage⟩ := hP hs.1
    · -- a bystander is neither the caller nor a child of it
      obtain rfl : cur = cur' := by simpa [hc] using hc'
      rcases hcontrols with heq | hchild
      · exact absurd heq hne
      · exact absurd hchild hparent
    obtain rfl : cur = cur' := by simpa [hc] using hc'
    cases r with
    | send id value va word =>
      obtain ⟨he, hwaits⟩ := hmessage
      show Bystands k (Reply.ofCheck k (k.send id value va word)).kernel cur e _ s
      unfold Reply.ofCheck
      split
      · rename_i k' flow hok
        exact send_bystands hk hs hc he hwaits hok
      · exact .refl
    | receive va =>
      obtain ⟨send, hf⟩ := hmessage
      show Bystands k (Reply.ofCheck k (k.receive va)).kernel cur e _ s
      unfold Reply.ofCheck
      split
      · rename_i k' flow hok
        exact receive_bystands hk hs hne hc hf hok
      · exact .refl
    | _ => exact hmessage.elim
  · obtain ⟨hrecord, hmem⟩ := (perform_outcome hk r).spares hk hmet hs hP
    refine .of_spares ?_ hmem
    rcases hrecord with hsame | ⟨hgone, hwoken⟩
    · rw [hsame]
      exact .none
    · rw [hwoken]
      exact .orphaned hgone

/-! ## Whose turn it is -/

/-- Ids name the same slots as before when one record is written that keeps its id. -/
theorem resolve_of_record {slot : Nat} {e' : Env}
    (hrec : ∀ x, k'.env x = if x = slot then e' else k.env x)
    (hlive : e'.isLive = (k.env slot).isLive) (hid : e'.id = (k.env slot).id) (id : EnvId) :
    k'.envs.resolve id = k.envs.resolve id := by
  have hsame : (k'.env id.slot).isLive = (k.env id.slot).isLive ∧
      (k'.env id.slot).id = (k.env id.slot).id := by
    rw [hrec]
    split
    · rename_i heq
      exact ⟨hlive.trans (by rw [heq]), hid.trans (by rw [heq])⟩
    · exact ⟨rfl, rfl⟩
  rw [EnvTable.resolve, show (k'.envs.get id.slot).isLive = _ from hsame.1,
    show (k'.envs.get id.slot).id = _ from hsame.2]
  rfl

/-- From `k` to `k'`, nothing happens to the environment in `e` unless it is the next to go on. -/
structure Continues (k k' : Kernel) (next : Option Resumption) (e : Nat) : Prop where
  record : k'.env e = k.env e ∨ k'.env e = (k.env e).resumed ∧ k'.current = some e ∧
    next = some ⟨(k.env e).id, (k.env e).resumed.registers⟩
  pool : k'.memory.pool = k.memory.pool
  spaces : k'.memory.spaces = k.memory.spaces
  resolve : ∀ id, k'.envs.resolve id = k.envs.resolve id

theorem memory_activate (k : Kernel) (space : Option SpaceId) :
    (k.activate space).memory.pool = k.memory.pool ∧
      (k.activate space).memory.spaces = k.memory.spaces ∧ (k.activate space).envs = k.envs := by
  cases space <;> exact ⟨rfl, rfl, rfl⟩

/-- Who has what when a caller has taken over an image. -/
theorem env_swapped {a b : Nat} (hne : a ≠ b) (ha : (k.env a).isLive = true)
    (hb : (k.env b).isLive = true) (event : Event) :
    (k.swapped a b event).env a = adopted (k.env a) (k.env b) ∧
      (k.swapped a b event).env b = { k.env b with space := (k.env a).space } ∧
      ∀ e, e ≠ a → e ≠ b → (k.swapped a b event).env e = k.env e := by
  have henv : ∀ e, (k.swapped a b event).env e =
      ((k.updateEnv a fun e => adopted e (k.env b)).updateEnv b
        fun e => { e with space := (k.env a).space }).env e := fun e =>
    congrArg (EnvTable.get · e) (memory_activate _ _).2.2
  simp only [henv]
  exact env_updateEnv_two hne ha hb

theorem same_swapped (k : Kernel) (a b : Nat) (event : Event) :
    k.memory.Same (k.swapped a b event).memory :=
  ⟨(memory_activate _ _).1, (memory_activate _ _).2.1⟩

theorem env_resume {slot : Nat} (hl : (k.env slot).isLive = true) (x : Nat) :
    (k.resume slot).1.env x = if x = slot then (k.env slot).resumed else k.env x := by
  show ((k.updateEnv slot fun _ => (k.env slot).resumed).activate _).envs.get x = _
  rw [(memory_activate _ _).2.2]
  exact env_updateEnv_eq (fun _ => (k.env slot).resumed) hl x

theorem resume_continues {slot : Nat} (hl : (k.env slot).isLive = true) (e : Nat) :
    Continues k (k.resume slot).1 (some (k.resume slot).2) e := by
  have henv := env_resume hl
  obtain ⟨hpool, hspaces, -⟩ :=
    memory_activate (k.updateEnv slot fun _ => (k.env slot).resumed) (k.env slot).resumed.space
  refine ⟨?_, hpool, hspaces, resolve_of_record henv rfl rfl⟩
  rw [henv]
  split
  · rename_i heq
    subst heq
    exact Or.inr ⟨rfl, rfl, rfl⟩
  · exact Or.inl rfl

theorem reschedule_continues (k : Kernel) (e : Nat) :
    Continues k k.reschedule.1 k.reschedule.2 e := by
  unfold reschedule
  split
  · rename_i slot hs
    exact resume_continues (isLive_of_pickNext hs) e
  · exact ⟨Or.inl rfl, rfl, rfl, fun _ => rfl⟩

theorem proceed_continues {slot : Nat} (hl : (k.env slot).isLive = true) (hne : e ≠ slot)
    (flow : Flow) : Continues k (k.proceed slot flow).1 (k.proceed slot flow).2 e := by
  cases flow with
  | answer value =>
    have hrec := env_updateEnv_eq (fun e => { e with pending := some value }) hl
    have hl' : ((k.updateEnv slot fun e => { e with pending := some value }).env slot).isLive =
        true := by
      rw [hrec, if_pos rfl]
      exact hl
    have hc := resume_continues hl' e
    have hrecord := hc.record
    rw [hrec, if_neg hne] at hrecord
    exact ⟨hrecord, hc.pool, hc.spaces, fun id =>
      (hc.resolve id).trans (resolve_of_record hrec rfl rfl id)⟩
  | resume => exact resume_continues hl e
  | reschedule => exact reschedule_continues k e

theorem call_continues (hc : k.caller = .ok cur) (hne : e ≠ cur) (number : UInt32) (args : Args) :
    Continues (k.dispatch number args).1 (k.call number args).1 (k.call number args).2 e := by
  rw [call, (caller_eq_ok.1 hc).1]
  simp only
  split
  · rename_i hr
    exact proceed_continues (EnvTable.resolve_eq_some_iff.1 hr).2.1 hne _
  · exact reschedule_continues _ e

/-- The number of a failed call goes into the log, and nothing else happens. -/
theorem dispatch_fst (k : Kernel) (number : UInt32) (args : Args) :
    ∃ log, (k.dispatch number args).1 = { (k.perform (.ofWords number args)).kernel with log } := by
  unfold dispatch
  simp only
  split
  · exact ⟨_, rfl⟩
  · exact ⟨_, rfl⟩

/-! ## Isolation -/

/-- What is left of the environment in `e` after the caller in `cur` made the request `r`, if
  `next` goes on. -/
structure Isolated (k k' : Kernel) (cur e : Nat) (r : Request) (next : Option Resumption) :
    Prop where
  live : (k'.env e).isLive = true
  id : (k'.env e).id = (k.env e).id
  parent : (k'.env e).parent = (k.env e).parent
  space : (k'.env e).space = (k.env e).space
  heapBreak : (k'.env e).heapBreak = (k.env e).heapBreak
  upcall : (k'.env e).upcall = (k.env e).upcall
  registers : { (k'.env e).registers with eax := (k.env e).registers.eax } = (k.env e).registers
  /-- The record changes for three reasons, and because it is its turn. -/
  record : ∃ e₀, Disturbance k k' cur e r e₀ ∧ (k'.env e = e₀ ∨
    k'.env e = e₀.resumed ∧ k'.current = some e ∧ next = some ⟨e₀.id, e₀.resumed.registers⟩)
  /-- It maps what it mapped, but for a page that it waits for. -/
  lookup : ∀ s va, (k.env e).space = some s →
    k'.memory.lookup s va ≠ k.memory.lookup s va → k.PageArrives e r va
  /-- What is stored in the frames that it maps stays. -/
  stored : ∀ s va f perm, (k.env e).space = some s → k.memory.lookup s va = some (f, perm) →
    k'.memory.pool.stored? f = k.memory.pool.stored? f
  /-- It can read the same bytes where it maps the same frame. -/
  page : ∀ s va f perm perm', (k.env e).space = some s →
    k.memory.lookup s va = some (f, perm) → k'.memory.lookup s va = some (f, perm') →
      k'.memory.pool.page? f = k.memory.pool.page? f

/-- What no disturbance and no turn changes in a record. -/
structure Kept (e e' : Env) : Prop where
  live : e'.isLive = e.isLive
  id : e'.id = e.id
  parent : e'.parent = e.parent
  space : e'.space = e.space
  heapBreak : e'.heapBreak = e.heapBreak
  upcall : e'.upcall = e.upcall
  registers : { e'.registers with eax := e.registers.eax } = e.registers

theorem Disturbance.kept {e₀ : Env} (h : Disturbance k k' cur e r e₀)
    (hl : (k.env e).isLive = true) : Kept (k.env e) e₀ := by
  cases h with
  | none => exact ⟨rfl, rfl, rfl, rfl, rfl, rfl, rfl⟩
  | delivered => exact ⟨hl.symm, rfl, rfl, rfl, rfl, rfl, rfl⟩
  | taken => exact ⟨hl.symm, rfl, rfl, rfl, rfl, rfl, rfl⟩
  | orphaned => exact ⟨hl.symm, rfl, rfl, rfl, rfl, rfl, rfl⟩

theorem Kept.resumed {e e₀ : Env} (h : Kept e e₀) : Kept e e₀.resumed := by
  refine ⟨h.live, h.id, h.parent, h.space, h.heapBreak, h.upcall, ?_⟩
  rw [← h.registers]
  unfold Env.resumed
  cases e₀.pending <;> rfl

theorem Disturbance.congr {k'' : Kernel} {e₀ : Env} (h : Disturbance k k' cur e r e₀)
    (hr : ∀ id, k''.envs.resolve id = k'.envs.resolve id) : Disturbance k k'' cur e r e₀ := by
  cases h with
  | none => exact .none
  | delivered request target waits => exact .delivered request target waits
  | taken request parked target => exact .taken request parked target
  | orphaned gone =>
    obtain ⟨send, b, hp, hb, hgone⟩ := gone
    exact .orphaned ⟨send, b, hp, hb, (hr _).trans hgone⟩

/-- **Isolation.**  A call leaves alone every live environment that is neither the caller nor a
  child of the caller, but for messages. -/
theorem call_isolated (h : Reachable pins k) (hc : k.caller = .ok cur)
    (he : (k.env e).isLive = true) (hne : e ≠ cur)
    (hparent : (k.env e).parent ≠ (k.env cur).id) (number : UInt32) (args : Args) :
    Isolated k (k.call number args).1 cur e (.ofWords number args) (k.call number args).2 := by
  have hk := h.sound
  have hk' : (k.call number args).1.Sound pins := (h.act (.call number args)).sound
  obtain ⟨s, hs, -⟩ := hk.space e he
  have hby := perform_bystands hk h.met ⟨he, hs⟩ hc hne hparent (.ofWords number args)
  have hgo := call_continues hc hne number args
  obtain ⟨log, hlog⟩ := k.dispatch_fst number args
  rw [hlog] at hgo
  have hrecord : ∃ e₀, Disturbance k (k.call number args).1 cur e (.ofWords number args) e₀ ∧
      ((k.call number args).1.env e = e₀ ∨ (k.call number args).1.env e = e₀.resumed ∧
        (k.call number args).1.current = some e ∧
        (k.call number args).2 = some ⟨e₀.id, e₀.resumed.registers⟩) :=
    ⟨_, hby.record.congr hgo.resolve, hgo.record⟩
  have hkept : Kept (k.env e) ((k.call number args).1.env e) := by
    obtain ⟨e₀, hd, hsame | ⟨hresumed, -⟩⟩ := hrecord
    · rw [hsame]
      exact hd.kept he
    · rw [hresumed]
      exact (hd.kept he).resumed
  have hlookup : ∀ va, (k.call number args).1.memory.lookup s va =
      (k.perform (.ofWords number args)).kernel.memory.lookup s va := fun va =>
    (Memory.Spares.of_eq hgo.pool hgo.spaces).lookup_eq va
  have hstored : ∀ va f perm, k.memory.lookup s va = some (f, perm) →
      (k.call number args).1.memory.pool.stored? f = k.memory.pool.stored? f :=
    fun va f perm hl => by
      rw [hgo.pool]
      exact hby.stored va f perm hl
  have hspace : ∀ t, (k.env e).space = some t → t = s := fun t ht =>
    Option.some.inj (ht.symm.trans hs)
  refine ⟨hkept.live.trans he, hkept.id, hkept.parent, hkept.space, hkept.heapBreak, hkept.upcall,
    hkept.registers, hrecord, fun t va ht hva => ?_, fun t va f perm ht hl => ?_,
    fun t va f perm perm' ht hl hl' => ?_⟩
  · obtain rfl := hspace t ht
    rw [hlookup] at hva
    exact hby.lookup va hva
  · obtain rfl := hspace t ht
    exact hstored va f perm hl
  · obtain rfl := hspace t ht
    rw [FramePool.page?_of_isAllocated (hk.balanced.isAllocated_of_lookup hl),
      FramePool.page?_of_isAllocated (hk'.balanced.isAllocated_of_lookup hl')]
    exact hstored va f perm hl

/-- The second environment waits for a word and a page, and the first one has both. -/
def awaited : Kernel :=
  small.after [.create .none 0 0, .create .none 0 0, .run ⟨4097⟩, .call 15 #v[0xC00000, 0, 0, 0, 0],
    .call 11 #v[0, 0x400000, 7, 0, 0]]

theorem call_isolated_awaited :
    Isolated awaited (awaited.call 14 #v[4097, 42, 0x400000, 5, 0]).1 0 1
      (.ofWords 14 #v[4097, 42, 0x400000, 5, 0])
      (awaited.call 14 #v[4097, 42, 0x400000, 5, 0]).2 :=
  call_isolated (reachable_small _) (caller_eq_ok.2 ⟨by decide +kernel, by decide +kernel⟩)
    (by decide +kernel) (by decide) (by decide +kernel) 14 #v[4097, 42, 0x400000, 5, 0]

end Kernel

end Exokernel
