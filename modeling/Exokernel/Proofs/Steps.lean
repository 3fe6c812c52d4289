/-
  Calls as elementary changes.

  Every call is a series of elementary changes, with at most one environment that ends, and it
  ends last.  The changes concern only slots that the caller has to do with; `Concerns` says
  which these are.

  What follows is induction.  An invariant that every elementary change and every end of an
  environment keeps holds in all states that any history leads to, and the invariant of the
  kernel is the first of them.
-/
import Exokernel.Proofs.Edits
import Exokernel.Proofs.Stores
import Mathlib.Logic.Relation

namespace Exokernel.Kernel

variable {pins : List Frame} {P Q : Nat → Prop} {k k' k'' : Kernel} {flow : Flow}

/-- A series of elementary changes. -/
abbrev Edits (pins : List Frame) (P : Nat → Prop) : Kernel → Kernel → Prop :=
  Relation.ReflTransGen (Edit pins P)

theorem Edits.sound (he : Edits pins P k k') (h : k.Sound pins) : k'.Sound pins := by
  induction he with
  | refl => exact h
  | tail _ he ih => exact he.sound ih

theorem Edits.persists (he : Edits pins P k k') {e : Nat} (hl : (k.env e).isLive = true) :
    Persists (k.env e) (k'.env e) := by
  induction he with
  | refl => exact .refl hl
  | tail _ he ih => exact ih.trans (he.persists ih.live)

/-- The kernel in which an environment is about to end. -/
inductive Ending (k : Kernel) : Kernel → Nat → Prop where
  /-- It was asked to end, or it passed a bad pointer, or its heap cannot be.  At most the log is
    different by then. -/
  | noted {k' : Kernel} {slot : Nat} (live : (k.env slot).isLive = true)
      (config : k'.config = k.config) (envs : k'.envs = k.envs) (memory : k'.memory = k.memory) :
      Ending k k' slot
  /-- It was an image that a caller has taken over, and it ends with the space that the caller
    had. -/
  | spent {cur image : Nat} (caller : (k.env cur).isLive = true)
      (live : (k.env image).isLive = true) (ne : cur ≠ image) (event : Event) :
      Ending k (k.swapped cur image event) image

/-- A series of elementary changes, after which one environment may end. -/
inductive Outcome (pins : List Frame) (P : Nat → Prop) (k : Kernel) : Kernel → Prop where
  | edits {k' : Kernel} : Edits pins P k k' → Outcome pins P k k'
  | ending {k' : Kernel} {slot : Nat} : Edits pins P k k' → P slot → k.Ending k' slot →
      Outcome pins P k (k'.destroy slot)

theorem Outcome.refl : Outcome pins P k k := .edits .refl

/-! ## Changes that calls share -/

theorem Edit.note (event : Event) : Edit pins P k (k.note event) :=
  .quiet rfl rfl rfl rfl fun _ => Or.inl

theorem Edits.note (h : Edits pins P k k') (event : Event) : Edits pins P k (k'.note event) :=
  h.tail (.note event)

/-- A space that somebody has comes into force. -/
theorem Edit.activate (slot : Nat) {space : Option SpaceId} (hl : (k.env slot).isLive = true)
    (hs : (k.env slot).space = space) : Edit pins P k (k.activate space) := by
  cases space with
  | none => exact .quiet rfl rfl rfl rfl fun _ => Or.inl
  | some s =>
    refine .quiet rfl rfl rfl rfl fun r hr => Or.inr ⟨slot, hl, ?_⟩
    exact hs.trans hr

/-- A page that passed the allow-list is mapped. -/
theorem Edit.insert {slot : Nat} {s : SpaceId} {f : Frame} {va : VirtAddr} {perm : Perm}
    {memory : Memory} (hP : P slot) (hl : (k.env slot).isLive = true)
    (hs : (k.env slot).space = some s) (hp : perm.Requestable)
    (hi : k.memory.insert s f va perm = .ok memory) : Edit pins P k { k with memory } := by
  refine .remap hP hl hs (fun hb => ?_) (.insert hi)
  obtain ⟨hb', ht, -⟩ :=
    Memory.insert_spec hb (fun _ hg => absurd hg List.not_mem_nil) hp.bits_lt hi
  exact ⟨hb', ht⟩

theorem Housed.resolve_id (h : k.Housed) {slot : Nat} (hl : (k.env slot).isLive = true) :
    k.envs.resolve (k.env slot).id = some slot := h.number.resolve_id hl

/-- An update of a live record that goes on to be that of the same environment. -/
theorem Edits.tune {slot : Nat} (h : Edits pins P k k') (change : Env → Env) (hP : P slot)
    (hl : (k.env slot).isLive = true)
    (ht : (k'.env slot).isLive = true → (k'.env slot).Tuned (change (k'.env slot)) ∧
      (change (k'.env slot)).space = (k'.env slot).space) :
    Edits pins P k (k'.updateEnv slot change) := by
  have hl' := (h.persists hl).live
  obtain ⟨htuned, hspace⟩ := ht hl'
  exact h.tail (.tune hP hl' htuned hspace)

/-- A record stays tuned when nothing is written that matters. -/
theorem tuned_of_eq {e e' : Env} (he : e.isLive = true) (id : e'.id = e.id)
    (parent : e'.parent = e.parent) (live : e'.isLive = e.isLive)
    (mailbox : e'.mailbox = e.mailbox) : e.Tuned e' :=
  ⟨id, parent, live.trans he, fun h => mailbox ▸ h, Or.inl (congrArg Mailbox.parked mailbox)⟩

/-- A caller takes over an image, and the image is left with the space that the caller had. -/
theorem Edits.swapped {cur image : Nat} (hlc : (k.env cur).isLive = true)
    (hli : (k.env image).isLive = true) (hne : cur ≠ image) (hcur : P cur) (himage : P image)
    (event : Event) : Edits pins P k (k.swapped cur image event) := by
  have hswap : Edits pins P k _ := .single (.swap (a := cur) (b := image)
    (f := fun e => adopted e (k.env image)) (g := fun e => { e with space := (k.env cur).space })
    ⟨hcur, himage⟩ hlc hli hne (tuned_of_eq hlc rfl rfl rfl rfl) (tuned_of_eq hli rfl rfl rfl rfl)
    rfl rfl)
  obtain ⟨hrecord, -, -⟩ := env_updateEnv_two hne hlc hli (f := fun e => adopted e (k.env image))
    (g := fun e => { e with space := (k.env cur).space })
  have hspace := hswap.tail
    (.activate cur (by rw [hrecord]; exact hlc) (congrArg Env.space hrecord))
  exact Edits.note hspace event

/-- Whatever is about to end has come there by elementary changes. -/
theorem Ending.edits {slot : Nat} (h : k.Ending k' slot) : Edits pins (fun _ => True) k k' := by
  cases h with
  | noted live config envs memory =>
    have hmemory : k'.memory.active = k.memory.active := by rw [memory]
    exact .single (.quiet config envs (by rw [memory]) (by rw [memory]) fun s hs =>
      Or.inl (hmemory ▸ hs))
  | spent caller live ne event => exact .swapped caller live ne trivial trivial event

/-- It is live until then. -/
theorem Ending.live {slot : Nat} (h : k.Ending k' slot) : (k'.env slot).isLive = true := by
  cases h with
  | noted live config envs memory => rwa [env, envs]
  | spent caller live ne event =>
    have hedits : Edits [] (fun _ => True) k _ := .swapped caller live ne trivial trivial event
    exact (hedits.persists live).live

/-! ## Whom a call concerns -/

/-- The slot has to do with the request: nobody is there, or it is that of the caller, of a child
  of the caller, of the waiting target of a send, or of the sender whose message is taken. -/
def Concerns (k : Kernel) (r : Request) (slot : Nat) : Prop :=
  (k.env slot).isLive = true → ∃ cur, k.caller = .ok cur ∧ (k.Controls cur slot ∨
    match r with
    | .send id _ _ _ =>
      k.envs.resolve id = some slot ∧ (k.env slot).mailbox.receiving = true
    | .receive _ => ∃ send, k.firstParked (k.env cur).id = some (slot, send)
    | _ => False)

variable {r : Request}

theorem concerns_of_controls {cur slot : Nat} (hc : k.caller = .ok cur)
    (h : k.Controls cur slot) : k.Concerns r slot :=
  fun _ => ⟨cur, hc, Or.inl h⟩

theorem concerns_caller {cur : Nat} (hc : k.caller = .ok cur) : k.Concerns r cur :=
  concerns_of_controls hc (Or.inl rfl)

theorem concerns_target {id : EnvId} {slot : Nat} (h : k.target id .owned = .ok slot) :
    k.Concerns r slot := by
  obtain ⟨cur, hc⟩ := caller_of_target h
  exact concerns_of_controls hc (controls_of_target hc h)

theorem concerns_dead {slot : Nat} (h : (k.env slot).isLive = false) : k.Concerns r slot :=
  fun hl => absurd (h.symm.trans hl) Bool.false_ne_true

/-! ## Call by call -/

section Calls

variable {id : EnvId} {va : VirtAddr} {word : UInt32}

theorem yield_outcome (h : k.yield = .ok (k', flow)) : Outcome pins (k.Concerns r) k k' := by
  obtain ⟨cur, hc, rfl, -⟩ := yield_eq_ok h
  exact .edits (Edits.tune .refl _ (concerns_caller hc) (caller_eq_ok.1 hc).2 fun hl =>
    ⟨tuned_of_eq hl rfl rfl rfl rfl, rfl⟩)

theorem destroyEnv_outcome (h : k.destroyEnv id = .ok (k', flow)) :
    Outcome pins (k.Concerns r) k k' := by
  obtain ⟨slot, event, ht, rfl, -⟩ := destroyEnv_eq_ok h
  exact .ending (Edits.note .refl event) (concerns_target ht)
    (.noted (isLive_of_target ht) rfl rfl rfl)

/-- A newcomer whose record is completed at once. -/
theorem Edits.enlist {parent : EnvId} {slot : Nat} (change : Env → Env)
    (ha : k.allocEnv parent = .ok (k', slot)) (hP : ∀ e, (k.env e).isLive = false → P e)
    (ht : (k'.env slot).isLive = true → (k'.env slot).Tuned (change (k'.env slot)) ∧
      (change (k'.env slot)).space = (k'.env slot).space) :
    Edits pins P k (k'.updateEnv slot change) := by
  obtain ⟨s, -, -, hdead, -⟩ := allocEnv_spec ha
  have hl := isLive_of_allocEnv ha
  obtain ⟨htuned, hspace⟩ := ht hl
  exact (Relation.ReflTransGen.single (.enlist ha)).tail (.tune (hP slot hdead) hl htuned hspace)

theorem fork_outcome (h : k.fork = .ok (k', flow)) : Outcome pins (k.Concerns r) k k' := by
  obtain ⟨cur, k₁, slot, event, -, ha, rfl, -⟩ := fork_eq_ok h
  refine .edits (Edits.note (Edits.enlist _ ha (fun e => concerns_dead) fun hl => ?_) event)
  exact ⟨tuned_of_eq hl rfl rfl rfl rfl, rfl⟩

theorem setStatus_outcome (h : k.setStatus id word = .ok (k', flow)) :
    Outcome pins (k.Concerns r) k k' := by
  obtain ⟨slot, status, ht, -, hs, rfl, -⟩ := setStatus_eq_ok h
  refine .edits (Edits.tune .refl _ (concerns_target ht) (isLive_of_target ht) fun _ => ?_)
  have hlive : ({ k.env slot with status } : Env).isLive = true := Env.isLive_iff.2 hs
  exact ⟨⟨rfl, rfl, hlive, fun hr => hr, Or.inl rfl⟩, rfl⟩

theorem setUpcall_outcome (h : k.setUpcall id va = .ok (k', flow)) :
    Outcome pins (k.Concerns r) k k' := by
  obtain ⟨slot, upcall, ht, rfl, -⟩ := setUpcall_eq_ok h
  exact .edits (Edits.tune .refl _ (concerns_target ht) (isLive_of_target ht) fun hl =>
    ⟨tuned_of_eq hl rfl rfl rfl rfl, rfl⟩)

theorem badPointer_outcome {cur : Nat} {fault : VirtAddr} (hc : k.caller = .ok cur) :
    Outcome pins (k.Concerns r) k (k.badPointer cur fault).kernel :=
  .ending (Edits.note .refl _) (concerns_caller hc) (.noted (caller_eq_ok.1 hc).2 rfl rfl rfl)

theorem setRegisters_outcome (k : Kernel) (id : EnvId) (va : VirtAddr) :
    Outcome pins (k.Concerns r) k (k.setRegisters id va).kernel := by
  rcases k.setRegisters_cases id va with
    ⟨e, he⟩ | ⟨cur, fault, hc, he⟩ | ⟨slot, registers, ht, he⟩ <;> rw [he]
  · exact .refl
  · exact badPointer_outcome hc
  · exact .edits (Edits.tune .refl _ (concerns_target ht) (isLive_of_target ht) fun hl =>
      ⟨tuned_of_eq hl rfl rfl rfl rfl, rfl⟩)

theorem execCommit_outcome (h : k.execCommit id = .ok (k', flow)) :
    Outcome pins (k.Concerns r) k k' := by
  obtain ⟨cur, slot, event, hc, ht, hne, rfl, -⟩ := execCommit_eq_ok h
  have hlc := (caller_eq_ok.1 hc).2
  have hls := isLive_of_target ht
  exact .ending (Edits.swapped hlc hls hne (concerns_caller hc) (concerns_target ht) event)
    (concerns_target ht) (.spent hlc hls hne event)

theorem pageAlloc_outcome (k : Kernel) (id : EnvId) (va : VirtAddr) (word : UInt32) :
    Outcome pins (k.Concerns r) k (k.pageAlloc id va word).kernel := by
  rcases k.pageAlloc_cases id va word with ⟨e, he⟩ | ⟨slot, s, perm, memory, ht, hcases⟩
  · rw [he]
    exact .refl
  obtain ⟨htarget, -, hp, hs⟩ := pageTarget_eq_ok ht
  have hperm := (Perm.requestable_of_request hp).bits_lt
  have hmap : Edits pins (k.Concerns r) k { k with memory := (k.memory.mapFresh s va perm).1 } :=
    .single (.remap (concerns_target htarget) (isLive_of_target htarget) hs
      (fun hb => Memory.mapFresh_spec hb s va hperm) (.mapFresh _ _ _ _))
  rcases hcases with ⟨e, hm, he⟩ | ⟨hm, event, he⟩ <;> rw [hm] at hmap <;> rw [he]
  · exact .edits hmap
  · exact .edits (hmap.note event)

theorem pageMap_outcome {source dest : EnvId} {sourceVa destVa : VirtAddr}
    (h : k.pageMap source sourceVa dest destVa word = .ok (k', flow)) :
    Outcome pins (k.Concerns r) k k' := by
  obtain ⟨src, dst, perm, srcSpace, dstSpace, frame, sourcePerm, memory, event, -, hdst, -, -, hp,
    -, -, -, hs, hi, rfl, -⟩ := pageMap_eq_ok h
  have hmap : Edits pins (k.Concerns r) k _ :=
    .single (.insert (concerns_target hdst) (isLive_of_target hdst) hs
      (Perm.requestable_of_request hp) hi)
  exact .edits (hmap.note event)

theorem pageUnmap_outcome (h : k.pageUnmap id va = .ok (k', flow)) :
    Outcome pins (k.Concerns r) k k' := by
  obtain ⟨slot, s, ht, -, hs, rfl, -⟩ := pageUnmap_eq_ok h
  refine .edits (.single (.remap (concerns_target ht) (isLive_of_target ht) hs (fun hb => ?_)
    (.remove _ _ _)))
  obtain ⟨hb', htouches, -⟩ := Memory.remove_spec hb s va
  exact ⟨hb', htouches⟩

theorem requestable_userWrite : Perm.userWrite.Requestable := rfl

theorem mapKernelPage_outcome {phys : PhysAddr} (h : k.mapKernelPage phys va = .ok (k', flow)) :
    Outcome pins (k.Concerns r) k k' := by
  obtain ⟨cur, frame, s, memory, hc, -, -, -, hs, hi, rfl, -⟩ := mapKernelPage_eq_ok h
  exact .edits (.single (.insert (concerns_caller hc) (caller_eq_ok.1 hc).2 hs
    requestable_userWrite hi))

theorem growHeap_outcome (k : Kernel) (increment : UInt32) :
    Outcome pins (k.Concerns r) k (k.growHeap increment).kernel := by
  rcases k.growHeap_cases increment with ⟨e, he⟩ | ⟨cur, hc, hcases⟩
  · rw [he]
    exact .refl
  have hl := (caller_eq_ok.1 hc).2
  have hP : k.Concerns r cur := concerns_caller hc
  rcases hcases with ⟨event, he⟩ |
    ⟨s, n, m, hs, rfl, ⟨after, event, value, he⟩ | ⟨mapped, event, e, he⟩⟩ <;> rw [he]
  · -- a heap that cannot be ends the caller
    exact .ending (Edits.note .refl event) hP (.noted hl rfl rfl rfl)
  · have hmap : Edits pins (k.Concerns r) k _ := .single (.remap hP hl hs
      (fun hb => Memory.mapPages_spec requestable_userWrite.bits_lt n (k.env cur).heapBreak hb)
      (.mapPages _ _ _ _ _))
    have hbreak := hmap.tune (fun e => { e with heapBreak := after }) hP hl fun hl =>
      ⟨tuned_of_eq hl rfl rfl rfl rfl, rfl⟩
    exact .edits (hbreak.note event)
  · -- memory runs out on the way, and what was mapped is unmapped
    have hundo : Edits pins (k.Concerns r) k _ := .single (.remap hP hl hs (fun hb => by
      obtain ⟨hb₁, ht₁⟩ :=
        Memory.mapPages_spec requestable_userWrite.bits_lt n (k.env cur).heapBreak hb
      obtain ⟨hb₂, ht₂⟩ := Memory.removePages_spec mapped (k.env cur).heapBreak hb₁
      exact ⟨hb₂, ht₁.trans ht₂⟩)
      ((Memory.Keeps.mapPages _ _ _ _ _).trans (.removePages _ _ _ _)))
    exact .edits (hundo.note event)

/-- Handing a message over maps its page and writes the record of the receiver. -/
theorem transfer_edits {sender receiver : Nat} {value : UInt32} {page : Option OfferedPage}
    {dest : Option VirtAddr} (hP : P receiver) (hl : (k.env receiver).isLive = true)
    (hpage : ∀ p, page = some p → p.perm.Requestable)
    (h : k.transfer sender receiver value page dest = .ok k') : Edits pins P k k' := by
  obtain ⟨memory, perm, event, hplace, rfl⟩ := transfer_eq_ok h
  have hmap : Edits pins P k { k with memory } := by
    rcases placePage_eq_ok hplace with ⟨-, rfl, -⟩ | ⟨offered, d, s, hp, -, hs, hi, -⟩
    · exact .refl
    · exact .single (.insert hP hl hs (hpage offered hp) hi)
  -- a receiver waits no longer, so its new record is tuned whatever it was before
  exact Edits.note (hmap.tune _ hP hl fun _ =>
    ⟨⟨rfl, rfl, rfl, fun hr => (by cases hr), Or.inl rfl⟩, rfl⟩) event

theorem requestable_of_offer {slot : Nat} {page : Option OfferedPage}
    (h : k.offer slot va word = .ok page) :
    ∀ offered, page = some offered → offered.perm.Requestable := by
  rintro offered rfl
  rcases offer_eq_ok h with ⟨-, hnone⟩ | ⟨perm, s, frame, sourcePerm, -, hreq, -, -, -, hsome⟩
  · cases hnone
  · obtain rfl := Option.some.inj hsome
    exact Perm.requestable_of_request hreq

theorem send_outcome {value : UInt32} (hk : k.Housed)
    (h : k.send id value va word = .ok (k', flow)) :
    Outcome pins (k.Concerns (.send id value va word)) k k' := by
  obtain ⟨cur, target, page, hc, hresolve, hne, hp, hcases⟩ := send_eq_ok h
  have hlt : (k.env target).isLive = true := (EnvTable.resolve_eq_some_iff.1 hresolve).2.1
  have hoffer := requestable_of_offer hp
  rcases hcases with ⟨hr, htransfer, -⟩ | ⟨haway, ⟨event, rfl⟩, -⟩
  -- the target waits, so the message is handed over at once; otherwise it is parked
  · exact .edits (transfer_edits (fun _ => ⟨cur, hc, Or.inr ⟨hresolve, hr⟩⟩) hlt hoffer htransfer)
  · have hpark : Edit pins (k.Concerns (.send id value va word)) k (k.updateEnv cur fun e =>
        parking e { target := (k.env target).id, value, page }) :=
      .park (concerns_caller hc) (caller_eq_ok.1 hc).2 (hk.resolve_id hlt) hne haway hoffer
    exact .edits (Edits.note (.single hpark) event)

theorem receive_outcome (hk : k.Housed) (h : k.receive va = .ok (k', flow)) :
    Outcome pins (k.Concerns (.receive va)) k k' := by
  obtain ⟨cur, dest, hc, -, hcases⟩ := receive_eq_ok h
  have hl := (caller_eq_ok.1 hc).2
  have hP : k.Concerns (.receive va) cur := concerns_caller hc
  rcases hcases with ⟨sender, send, k₁, hf, htransfer, rfl, -⟩ | ⟨hf, ⟨event, rfl⟩, -⟩
  · obtain ⟨hls, hparked, -⟩ := firstParked_eq_some hf
    have hpage : ∀ p, (send.page.filter fun page => k.stillMaps sender page) = some p →
        p.perm.Requestable := fun p hp =>
      hk.offers sender hls send hparked p (Option.filter_eq_some_iff.1 hp).1
    have hhand : Edits pins (k.Concerns (.receive va)) k k₁ := transfer_edits hP hl hpage htransfer
    have hdest := hhand.tune (fun e => { e with mailbox := { e.mailbox with dest } }) hP hl
      fun hl₁ => ⟨⟨rfl, rfl, hl₁, fun hr => hr, Or.inl rfl⟩, rfl⟩
    exact .edits (hdest.tune _ (fun _ => ⟨cur, hc, Or.inr ⟨send, hf⟩⟩) hls fun _ =>
      ⟨⟨rfl, rfl, rfl, fun hr => hr, Or.inr rfl⟩, rfl⟩)
  · exact .edits (Edits.note (.single (.wait hP hl hf)) event)

theorem putBytes_outcome (k : Kernel) (va : VirtAddr) (len : Nat) :
    Outcome pins (k.Concerns r) k (k.putBytes va len).kernel := by
  rcases k.putBytes_cases va len with ⟨e, he⟩ | ⟨cur, fault, hc, he⟩ | ⟨console, he⟩ <;> rw [he]
  · exact .refl
  · exact badPointer_outcome hc
  · exact .edits (.single (.quiet rfl rfl rfl rfl fun _ => Or.inl))

end Calls

theorem outcome_ofCheck {c : Check (Kernel × Flow)}
    (h : ∀ k' flow, c = .ok (k', flow) → Outcome pins P k k') :
    Outcome pins P k (Reply.ofCheck k c).kernel := by
  unfold Reply.ofCheck
  split
  · rename_i k' flow
    exact h k' flow rfl
  · exact .refl

/-- **Every call is a series of elementary changes that concern it**, with at most one environment
  that ends. -/
theorem Housed.outcome (h : k.Housed) (r : Request) :
    Outcome pins (k.Concerns r) k (k.perform r).kernel := by
  cases r with
  | putBytes va len => exact putBytes_outcome k va len
  | getByte =>
    refine outcome_ofCheck fun k' flow hok => ?_
    obtain ⟨console, hfst⟩ := k.getByte_fst
    have hk : k' = { k with console } := by rw [← hfst, Except.ok.inj hok]
    exact .edits (.single (hk ▸ .quiet rfl rfl rfl rfl fun _ => Or.inl))
  | ownId =>
    refine outcome_ofCheck fun k' flow hok => ?_
    rw [ownId_eq_ok hok]
    exact .refl
  | destroyEnv id => exact outcome_ofCheck fun _ _ => destroyEnv_outcome
  | mapKernelPage phys va => exact outcome_ofCheck fun _ _ => mapKernelPage_outcome
  | yield => exact outcome_ofCheck fun _ _ => yield_outcome
  | fork => exact outcome_ofCheck fun _ _ => fork_outcome
  | setStatus id status => exact outcome_ofCheck fun _ _ => setStatus_outcome
  | setRegisters id va => exact setRegisters_outcome k id va
  | setUpcall id va => exact outcome_ofCheck fun _ _ => setUpcall_outcome
  | execCommit id => exact outcome_ofCheck fun _ _ => execCommit_outcome
  | pageAlloc id va perm => exact pageAlloc_outcome k id va perm
  | pageMap source sourceVa dest destVa perm => exact outcome_ofCheck fun _ _ => pageMap_outcome
  | pageUnmap id va => exact outcome_ofCheck fun _ _ => pageUnmap_outcome
  | send id value va perm => exact outcome_ofCheck fun _ _ => send_outcome h
  | receive va => exact outcome_ofCheck fun _ _ => receive_outcome h
  | growHeap increment => exact growHeap_outcome k increment
  | unknown number => exact .edits (Edits.note .refl _)

theorem perform_outcome (h : k.Sound pins) (r : Request) :
    Outcome pins (k.Concerns r) k (k.perform r).kernel := h.outcome r

/-! ## Histories -/

/-- One step of a history: an elementary change, the end of a live environment, or bytes that a
  program stores. -/
inductive Move (pins : List Frame) (k : Kernel) : Kernel → Prop where
  | edit {k' : Kernel} : Edit pins (fun _ => True) k k' → Move pins k k'
  | ending {slot : Nat} : (k.env slot).isLive = true → Move pins k (k.destroy slot)
  | store (s : SpaceId) (va : VirtAddr) (bytes : Array UInt8) :
      Move pins k { k with memory := (k.memory.writeBytes s va bytes).1 }

/-- A series of such steps. -/
abbrev Moves (pins : List Frame) : Kernel → Kernel → Prop := Relation.ReflTransGen (Move pins)

theorem Move.housed (hm : Move pins k k') (h : k.Housed) : k'.Housed := by
  cases hm with
  | edit he => exact he.housed h
  | ending hl => exact h.destroy hl
  | store s va bytes =>
    have hkeeps := Memory.Keeps.writeFrom k.memory s va bytes 0
    exact h.of_memory rfl hkeeps.size hkeeps.live fun r hr => Or.inl (hkeeps.active ▸ hr)

theorem Move.sound (hm : Move pins k k') (h : k.Sound pins) : k'.Sound pins := by
  cases hm with
  | edit he => exact he.sound h
  | ending hl => exact h.destroy hl
  | store s va bytes =>
    have hmove : Move pins k _ := .store s va bytes
    exact ⟨hmove.housed h.toHoused, h.balanced.writeFrom s va bytes 0⟩

theorem Edits.moves (h : Edits pins P k k') : Moves pins k k' := by
  induction h with
  | refl => exact .refl
  | tail _ he ih => exact ih.tail (.edit (he.mono fun _ _ => trivial))

theorem Outcome.moves (h : Outcome pins P k k') : Moves pins k k' := by
  cases h with
  | edits he => exact he.moves
  | ending he _ hend =>
    exact he.moves.tail (.ending hend.live)

theorem resume_edits {slot : Nat} (hP : P slot) (hl : (k.env slot).isLive = true) :
    Edits pins P k (k.resume slot).1 := by
  have hrecord : Edits pins P k (k.updateEnv slot fun _ => (k.env slot).resumed) :=
    Edits.tune .refl _ hP hl fun hl => ⟨tuned_of_eq hl rfl rfl rfl rfl, rfl⟩
  have hown : ((k.updateEnv slot fun _ => (k.env slot).resumed).env slot).space =
      (k.env slot).resumed.space := by rw [env_updateEnv_self _ hl]
  have hspace := hrecord.tail (.activate slot (hrecord.persists hl).live hown)
  exact hspace.tail (.quiet rfl rfl rfl rfl fun _ => Or.inl)

theorem resume_moves {slot : Nat} (hl : (k.env slot).isLive = true) :
    Moves pins k (k.resume slot).1 := by
  have hresume : Edits pins (fun _ => True) k (k.resume slot).1 := resume_edits trivial hl
  exact hresume.moves

theorem isLive_of_pickNext {slot : Nat} (h : k.envs.pickNext k.current = some slot) :
    (k.env slot).isLive = true :=
  Env.isLive_iff.2 (Or.inl (EnvTable.pickNext_spec h))

theorem reschedule_moves (k : Kernel) : Moves pins k k.reschedule.1 := by
  unfold reschedule
  split
  · rename_i slot hs
    exact resume_moves (isLive_of_pickNext hs)
  · exact .single (.edit (.quiet rfl rfl rfl rfl fun _ => Or.inl))

theorem dispatch_moves (h : k.Housed) (number : UInt32) (args : Args) :
    Moves pins k (k.dispatch number args).1 := by
  have hperform : Moves pins k _ := (h.outcome (.ofWords number args)).moves
  unfold dispatch
  simp only
  split
  · exact hperform
  · exact hperform.tail (.edit (.note _))

theorem proceed_moves {slot : Nat} (hl : (k.env slot).isLive = true) (flow : Flow) :
    Moves pins k (k.proceed slot flow).1 := by
  cases flow with
  | answer value =>
    have hanswer : Edits pins (fun _ => True) k
        (k.updateEnv slot fun e => { e with pending := some value }) :=
      Edits.tune .refl _ trivial hl fun hl => ⟨tuned_of_eq hl rfl rfl rfl rfl, rfl⟩
    exact hanswer.moves.trans (resume_moves (hanswer.persists hl).live)
  | resume => exact resume_moves hl
  | reschedule => exact k.reschedule_moves

theorem call_moves (h : k.Housed) (number : UInt32) (args : Args) :
    Moves pins k (k.call number args).1 := by
  unfold call
  split
  · exact k.reschedule_moves
  · rename_i slot _
    have hdispatch : Moves pins k _ := dispatch_moves h number args
    simp only
    split
    -- the caller goes on if it is still there
    · rename_i hr
      exact hdispatch.trans (proceed_moves (EnvTable.resolve_eq_some_iff.1 hr).2.1 _)
    · exact hdispatch.trans (reschedule_moves _)

/-- Every action is a series of steps. -/
theorem act_moves (h : k.Housed) (a : Action) : Moves pins k (k.act a).1 := by
  cases a with
  | create parent entry stack =>
    unfold act
    simp only
    split
    · rename_i k' id hok
      obtain ⟨k₁, slot, event, ha, rfl⟩ := createEnv_eq_ok hok
      have hnew : Edits pins (fun _ => True) k _ :=
        Edits.enlist (fun e => { e with registers := .newUser entry stack, status := .runnable })
          ha (fun _ _ => trivial) fun _ => ⟨⟨rfl, rfl, rfl, fun hr => hr, Or.inl rfl⟩, rfl⟩
      exact (hnew.note event).moves
    · exact .refl
  | run id =>
    unfold act
    simp only
    split
    · rename_i k' resumption hok
      obtain ⟨slot, hr, heq⟩ := run_eq_ok hok
      have hresume : Moves pins k (k.resume slot).1 :=
        resume_moves (EnvTable.resolve_eq_some_iff.1 hr).2.1
      rwa [show (k.resume slot).1 = k' from congrArg Prod.fst heq] at hresume
    · exact .refl
  | capture registers =>
    unfold act capture
    simp only
    split
    · split
      · rename_i slot _ hl
        have hsave : Edits pins (fun _ => True) k
            (k.updateEnv slot fun e => { e with registers }) :=
          Edits.tune .refl _ trivial hl fun hl => ⟨tuned_of_eq hl rfl rfl rfl rfl, rfl⟩
        exact hsave.moves
      · exact .refl
    · exact .refl
  | call number args => exact call_moves h number args

/-- What programs do in their pages, and whoever sits at the console, happens beside the kernel: all
  records stay, and so do all spaces. -/
structure Aside (k k' : Kernel) : Prop where
  config : k'.config = k.config
  envs : k'.envs = k.envs
  current : k'.current = k.current
  spaces : k'.memory.spaces = k.memory.spaces
  active : k'.memory.active = k.memory.active

theorem Aside.env (h : k.Aside k') (e : Nat) : k'.env e = k.env e :=
  congrArg (EnvTable.get · e) h.envs

/-- An operation is an action or happens beside the kernel. -/
theorem operate_cases (k : Kernel) (op : Operation) :
    (∃ a, op = .act a) ∨ k.Aside (k.operate op).1 := by
  cases op with
  | act a => exact Or.inl ⟨a, rfl⟩
  | load id va len => exact Or.inr ⟨rfl, rfl, rfl, rfl, rfl⟩
  | store id va bytes =>
    refine Or.inr ?_
    unfold operate
    simp only
    split
    · exact ⟨rfl, rfl, rfl, rfl, rfl⟩
    · rename_i s _
      exact ⟨rfl, rfl, rfl, Memory.spaces_writeFrom k.memory s va bytes 0,
        (Memory.Keeps.writeFrom k.memory s va bytes 0).active⟩

theorem happen_cases (k : Kernel) (x : Happening) :
    (∃ a, x = .operation (.act a)) ∨ k.Aside (k.happen x) := by
  cases x with
  | operation op => exact (k.operate_cases op).imp_left fun ⟨a, ha⟩ => ⟨a, ha ▸ rfl⟩
  | typed | drained => exact Or.inr ⟨rfl, rfl, rfl, rfl, rfl⟩

theorem operate_moves (h : k.Housed) (op : Operation) : Moves pins k (k.operate op).1 := by
  cases op with
  | act a => exact act_moves h a
  | load id va len => exact .refl
  | store id va bytes =>
    unfold operate
    simp only
    split
    · exact .refl
    · exact .single (.store _ va bytes)

/-- **Whatever happens is a series of steps.** -/
theorem happen_moves (h : k.Housed) (x : Happening) : Moves pins k (k.happen x) := by
  cases x with
  | operation op => exact operate_moves h op
  | typed | drained => exact .single (.edit (.quiet rfl rfl rfl rfl fun _ => Or.inl))

theorem moves_housed (hm : Moves pins k k') (h : k.Housed) : k'.Housed := by
  induction hm with
  | refl => exact h
  | tail _ hm ih => exact hm.housed ih

theorem moves_sound (hm : Moves pins k k') (h : k.Sound pins) : k'.Sound pins := by
  induction hm with
  | refl => exact h
  | tail _ hm ih => exact hm.sound ih

/-- Memory just brought up has no space. -/
theorem vacant_of_reserved {m : Memory} (h : m.Reserved pins) : m.Vacant := by
  induction h with
  | fresh => exact ⟨rfl, rfl⟩
  | reserve _ hr ih =>
    unfold Memory.reserve at hr
    split at hr
    · cases hr
    · obtain ⟨rfl, -⟩ := Prod.mk.inj (Except.ok.inj hr)
      exact ⟨ih.spaces, ih.active⟩

/-- The books of memory just brought up are balanced. -/
theorem balanced_of_reserved {m : Memory} (h : m.Reserved pins) : m.Balanced pins [] := by
  induction h with
  | fresh n hn =>
    have hfits : Memory.frameBase.toNat + n * pageSize ≤ 0x100000000 := by
      have hbase : Memory.frameBase.toNat = 0x400000 := rfl
      simp only [maxFrames, hbase, pageSize] at *
      omega
    exact ⟨FramePool.accounts_ofSize rfl (Nat.le_trans hfits (by decide)), hfits⟩
  | reserve _ hr hb => exact (hb.reserve hr).1

/-- A kernel just brought up has no environment. -/
theorem boot_eq_ok {config : Config} {memory : Memory} {console : Console}
    (h : Kernel.boot config memory console = .ok k) :
    k = { config, memory, console, envs := .ofCapacity config.capacity } ∧
      config.capacity ≤ maxEnvs := by
  unfold Kernel.boot Config.validate at h
  split at h
  · cases h
  rename_i hv
  refine ⟨(Except.ok.inj h).symm, ?_⟩
  split at hv
  · cases hv
  split at hv
  · cases hv
  · rename_i hle
    exact Nat.le_of_not_lt hle

theorem env_boot {config : Config} {memory : Memory} {console : Console}
    (h : Kernel.boot config memory console = .ok k) (e : Nat) : k.env e = {} := by
  rw [(boot_eq_ok h).1, Kernel.env]
  rw [EnvTable.get, EnvTable.ofCapacity, Array.getD_eq_getD_getElem?, Array.getElem?_replicate]
  split <;> rfl

theorem Booted.env (h : k.Booted pins) (e : Nat) : k.env e = {} := env_boot h.boot e

/-- Where nobody lives everybody is housed. -/
theorem housed_boot {config : Config} {memory : Memory} {console : Console}
    (h : Kernel.boot config memory console = .ok k) (hm : memory.Vacant) : k.Housed := by
  obtain ⟨hk, hcap⟩ := boot_eq_ok h
  have hmemory : k.memory = memory := by rw [hk]
  have hno : ∀ {e : Nat}, (k.env e).isLive = true → False := by
    intro e he
    rw [env_boot h] at he
    cases he
  exact {
    capacity := by
      rw [hk, EnvTable.capacity, EnvTable.ofCapacity, Array.size_replicate]
      exact hcap
    spaces := by
      rw [hmemory, hm.spaces]
      exact Nat.zero_le _
    number := fun e he => (hno he).elim
    space := fun e he => (hno he).elim
    apart := fun a _ _ ha => (hno ha.1).elim
    owner := by
      intro s hs
      rw [hmemory, hm.directory?] at hs
      cases hs
    active := by
      intro s hs
      rw [hmemory, hm.active] at hs
      cases hs
    offers := fun e he => (hno he).elim }

theorem Booted.sound (h : k.Booted pins) : k.Sound pins :=
  ⟨housed_boot h.boot (vacant_of_reserved h.reserved), balanced_of_reserved h.reserved⟩

/-- **Reachable states satisfy the invariant of the kernel.** -/
theorem Reachable.sound (h : Reachable pins k) : k.Sound pins := by
  induction h with
  | booted hb => exact hb.sound
  | happen x _ ih => exact moves_sound (happen_moves ih.toHoused x) ih

/-- What every step keeps is kept along the steps of one happening, where the states in between
  may be no states of a history. -/
theorem Moves.invariant {I : Kernel → Prop} (hm : Moves pins k k') (hk : k.Sound pins) (hi : I k)
    (move : ∀ k k', k.Sound pins → I k → Move pins k k' → I k') : I k' := by
  induction hm with
  | refl => exact hi
  | tail hm hlast ih => exact move _ _ (moves_sound hm hk) ih hlast

/-- What holds at the beginning and is kept by every step holds in all reachable states. -/
theorem Reachable.invariant {I : Kernel → Prop} (h : Reachable pins k)
    (boot : ∀ k, k.Booted pins → I k)
    (move : ∀ k k', k.Sound pins → I k → Move pins k k' → I k') : I k := by
  induction h with
  | booted hb => exact boot _ hb
  | happen x hr ih => exact Moves.invariant (happen_moves hr.sound.toHoused x) hr.sound ih move

/-- What holds at the beginning and is kept by every action, and by all that happens beside the
  kernel, holds in all reachable states. -/
theorem Reachable.act_invariant {I : Kernel → Prop} (h : Reachable pins k)
    (boot : ∀ k, k.Booted pins → I k)
    (act : ∀ k a, Reachable pins k → I k → I (k.act a).1)
    (aside : ∀ k k', k.Aside k' → I k → I k') : I k := by
  induction h with
  | booted hb => exact boot _ hb
  | @happen k x hr ih =>
    rcases k.happen_cases x with ⟨a, rfl⟩ | haside
    · exact act k a hr ih
    · exact aside k _ haside ih

/-- A kernel for four environments over sixteen frames, on which examples run. -/
def small : Kernel :=
  { config := { capacity := 4 }, envs := .ofCapacity 4, memory := .ofSize 16 }

theorem booted_small : small.Booted [] where
  reserved := .fresh 16 (by decide)
  boot := rfl
  kernelPage f hf := by cases hf

theorem reachable_small (actions : List Action) : Reachable [] (small.after actions) :=
  (Reachable.booted booted_small).after actions

end Exokernel.Kernel
