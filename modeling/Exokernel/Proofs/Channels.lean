/-
  How a frame comes into a page table.

  A frame that is in use comes into a space along one of five channels: it is the page that the
  kernel shares, or it is mapped from another place, or it comes with a message that is handed
  over at once or that was parked, or an environment takes over a whole image.  `Channel` lists
  them, each with what was checked: who asked, for whom, and who had the frame mapped.

  `Effect` is the complete list of what a request can do to memory.  A page is inserted along a
  channel, fresh pages come and go in one space, a space begins or ends, or nothing happens.  It
  says besides who holds which space afterwards.  All that is proved later about mappings is
  proved from this list, and no call is opened again.
-/
import Exokernel.Proofs.Fates
import Exokernel.Proofs.Refills

namespace Exokernel.Kernel

variable {pins : List Frame} {k k' : Kernel} {r : Request} {cur e slot : Nat} {s : SpaceId}
  {f : Frame} {flow : Flow}

/-- The ways in which the request `r` of the environment in `cur` can bring the frame `f`, which
  is in use, to the environment in `e`. -/
inductive Channel (k : Kernel) (cur : Nat) (r : Request) (e : Nat) (f : Frame) : Prop where
  /-- The caller maps the page that the kernel shares. -/
  | kernelPage {phys : PhysAddr} {va : VirtAddr} (request : r = .mapKernelPage phys va)
      (own : e = cur) (page : k.config.kernelPage = some f)
  /-- The caller maps a page from one environment to another; each is itself or its child. -/
  | shared {source dest : EnvId} {sourceVa destVa : VirtAddr} {word : UInt32} {src : Nat}
      {perm : Perm} (request : r = .pageMap source sourceVa dest destVa word)
      (owner : k.target source .owned = .ok src) (target : k.target dest .owned = .ok e)
      (controlsOwner : k.Controls cur src) (controlsTarget : k.Controls cur e)
      (mapped : k.mapped src sourceVa = some (f, perm))
  /-- The caller sends a page of its own to an environment that waits for one. -/
  | sent {id : EnvId} {value word : UInt32} {va dest : VirtAddr} {perm : Perm}
      (request : r = .send id value va word) (target : k.envs.resolve id = some e)
      (waits : (k.env e).mailbox.receiving = true) (place : (k.env e).mailbox.dest = some dest)
      (mapped : k.mapped cur va = some (f, perm))
  /-- The caller takes the first message that is parked for it, and the sender still maps the page
    that was offered. -/
  | received {va : VirtAddr} {sender : Nat} {send : ParkedSend} {page : OfferedPage} {perm : Perm}
      (request : r = .receive va) (own : e = cur)
      (first : k.firstParked (k.env cur).id = some (sender, send))
      (live : (k.env sender).isLive = true)
      (parked : (k.env sender).mailbox.parked = some send)
      (target : send.target = (k.env cur).id) (offered : send.page = some page)
      (named : page.frame = f) (mapped : k.mapped sender page.va = some (f, perm))
  /-- The caller takes over the image of an environment that maps the frame. -/
  | adopted {id : EnvId} {image : Nat} {va : VirtAddr} {perm : Perm}
      (request : r = .execCommit id) (own : e = cur) (target : k.target id .owned = .ok image)
      (mapped : k.mapped image va = some (f, perm))

/-- What the request `r` does to memory, and who holds which space afterwards. -/
inductive Effect (k : Kernel) (r : Request) (k' : Kernel) : Prop where
  /-- Nothing is mapped or unmapped. -/
  | keeps (memory : k.memory.Same k'.memory) (holders : ∀ e s, k'.Holds e s → k.Holds e s)
  /-- A newcomer gets an empty space. -/
  | opens {slot : Nat} {s : SpaceId} (memory : k.memory.createSpace = .ok (k'.memory, s))
      (holders : ∀ e t, k'.Holds e t → k.Holds e t ∨ e = slot ∧ t = s)
  /-- An environment ends, and its space with it. -/
  | closes {s : SpaceId} (memory : (k.memory.destroySpace s).Same k'.memory)
      (holders : ∀ e t, k'.Holds e t → k.Holds e t)
  /-- The caller takes over the space of another environment, and its own space ends. -/
  | adopts {cur image : Nat} {id : EnvId} {s : SpaceId} (request : r = .execCommit id)
      (caller : k.caller = .ok cur) (target : k.target id .owned = .ok image)
      (memory : (k.memory.destroySpace s).Same k'.memory)
      (holders : ∀ e t, k'.Holds e t → k.Holds e t ∨ e = cur ∧ k.Holds image t)
  /-- A page is inserted along a channel. -/
  | inserts {cur slot : Nat} {s : SpaceId} {f : Frame} {va : VirtAddr} {perm : Perm}
      (caller : k.caller = .ok cur) (holds : k.Holds slot s) (channel : Channel k cur r slot f)
      (user : va.isUser = true) (allowed : perm.Requestable)
      (memory : k.memory.insert s f va perm = .ok k'.memory)
      (holders : ∀ e t, k'.Holds e t → k.Holds e t)
  /-- Fresh pages come and go in one space. -/
  | refills {s : SpaceId} (memory : Memory.Refills s (fun _ => True) k.memory k'.memory)
      (holders : ∀ e t, k'.Holds e t → k.Holds e t)

/-! ## Who holds a space -/

theorem Effect.refl : Effect k r k := .keeps (.refl _) fun _ _ h => h

/-- Writing a live record that keeps its space gives nobody another space. -/
theorem holds_of_updateEnv {change : Env → Env} {t : SpaceId} (hl : (k.env slot).isLive = true)
    (hs : (change (k.env slot)).space = (k.env slot).space)
    (h : (k.updateEnv slot change).Holds e t) : k.Holds e t := by
  have hle := isLive_of_updateEnv hl h.1
  have hrec := env_updateEnv_eq change hl e
  split at hrec
  · rename_i heq
    subst heq
    exact ⟨hle, by rw [← hs, ← hrec]; exact h.2⟩
  · exact ⟨hle, by rw [← hrec]; exact h.2⟩

/-- What happens besides, without memory and spaces, does not matter. -/
theorem Effect.of_same {k₁ : Kernel} (h : Effect k r k₁) (hm : k'.memory = k₁.memory)
    (hback : ∀ e t, k'.Holds e t → k₁.Holds e t) : Effect k r k' := by
  cases h with
  | keeps memory holders =>
    rw [← hm] at memory
    exact .keeps memory fun e t ht => holders e t (hback e t ht)
  | opens memory holders =>
    rw [← hm] at memory
    exact .opens memory fun e t ht => holders e t (hback e t ht)
  | closes memory holders =>
    rw [← hm] at memory
    exact .closes memory fun e t ht => holders e t (hback e t ht)
  | adopts request caller target memory holders =>
    rw [← hm] at memory
    exact .adopts request caller target memory fun e t ht => holders e t (hback e t ht)
  | inserts caller holds channel user allowed memory holders =>
    rw [← hm] at memory
    exact .inserts caller holds channel user allowed memory fun e t ht =>
      holders e t (hback e t ht)
  | refills memory holders =>
    rw [← hm] at memory
    exact .refills memory fun e t ht => holders e t (hback e t ht)

theorem Effect.note (h : Effect k r k') (event : Event) : Effect k r (k'.note event) :=
  h.of_same rfl fun _ _ ht => ht

theorem Effect.write {change : Env → Env} (h : Effect k r k') (hl : (k'.env slot).isLive = true)
    (hs : (change (k'.env slot)).space = (k'.env slot).space) :
    Effect k r (k'.updateEnv slot change) :=
  h.of_same rfl fun _ _ => holds_of_updateEnv hl hs

/-- The end of an environment gives nobody another space. -/
theorem holds_of_destroy {t : SpaceId} (hl : (k.env slot).isLive = true)
    (h : (k.destroy slot).Holds e t) : e ≠ slot ∧ k.Holds e t := by
  obtain ⟨hlive, hspace⟩ := h
  rw [env_destroy hl] at hlive hspace
  obtain ⟨hne, hle⟩ := isLive_of_afterEnd hlive
  obtain ⟨-, hkept⟩ := @tuned_afterEnd (k.env slot).id slot e hne (k.env e) hle
  rw [hkept] at hspace
  exact ⟨hne, hle, hspace⟩

/-- An environment ends. -/
theorem effect_destroy (hk : k.Sound pins) (hl : (k.env slot).isLive = true) (event : Event) :
    Effect k r ((k.note event).destroy slot) := by
  obtain ⟨s, hs, -⟩ := hk.space slot hl
  have hmemory : ((k.note event).destroy slot).memory = k.memory.destroySpace s :=
    memory_destroy (k := k.note event) hl hs
  refine .closes (s := s) (hmemory ▸ .refl _) ?_
  intro e t h
  exact (holds_of_destroy (k := k.note event) hl h).2

theorem effect_badPointer (hk : k.Sound pins) (hc : k.caller = .ok cur) (fault : VirtAddr) :
    Effect k r (k.badPointer cur fault).kernel :=
  effect_destroy hk (caller_eq_ok.1 hc).2 _

/-- A record is written, and memory is left alone. -/
theorem effect_write {change : Env → Env} (hl : (k.env slot).isLive = true)
    (hs : (change (k.env slot)).space = (k.env slot).space) :
    Effect k r (k.updateEnv slot change) :=
  Effect.refl.write hl hs

theorem effect_ofCheck {c : Check (Kernel × Flow)}
    (h : ∀ k' flow, c = .ok (k', flow) → Effect k r k') :
    Effect k r (Reply.ofCheck k c).kernel := by
  cases c with
  | ok out => exact h out.1 out.2 rfl
  | error _ => exact .refl

/-! ## Where a receiver wants a page -/

/-- Receivers want pages at addresses of the user. -/
def Placed (k : Kernel) : Prop :=
  ∀ e, (k.env e).isLive = true → ∀ d, (k.env e).mailbox.dest = some d → d.isUser = true

/-- The address that a receive names is one of the user, or it names nowhere. -/
theorem isUser_of_destination {va d : VirtAddr} (h : destination va = .ok (some d)) :
    d.isUser = true := by
  rcases destination_eq_ok h with ⟨huser, hd⟩ | ⟨-, hd⟩
  · exact Option.some.inj hd ▸ huser
  · cases hd

theorem perform_placed (hk : k.Sound pins) (hmet : k.Met) (h : k.Placed) (r : Request) :
    (k.perform r).kernel.Placed := by
  intro e hl d hd
  cases perform_fate hk hmet r e with
  | kept steady =>
    rw [steady.isLive] at hl
    rw [steady.mailbox] at hd
    exact h e hl d hd
  | setStatus _ target _ _ record =>
    rw [record] at hd
    exact h e (isLive_of_target target) d hd
  | delivered _ _ target _ _ record =>
    rw [record] at hd
    exact h e (EnvTable.resolve_eq_some_iff.1 target).2.1 d hd
  | parks _ caller _ record =>
    rw [record] at hd
    exact h e (caller_eq_ok.1 caller).2 d hd
  | @waits va _ request caller blocks record =>
    subst request
    obtain ⟨cur, dest, hc, hdest, hcases⟩ := receive_eq_ok (ofCheck_eq_ok blocks)
    obtain rfl : e = cur := by simpa [caller] using hc
    rcases hcases with ⟨_, _, _, _, _, _, hflow⟩ | ⟨-, ⟨event, hkernel⟩, -⟩
    · cases hflow
    · have hrecord : (k.perform (.receive va)).kernel.env e = waiting (k.env e) dest := by
        show (Reply.ofCheck k (k.receive va)).kernel.env e = _
        rw [hkernel, env_note, env_updateEnv_self _ (caller_eq_ok.1 caller).2]
      rw [hrecord] at hd
      obtain rfl : dest = some d := hd
      exact isUser_of_destination hdest
  | takes request caller first answer record =>
    subst request
    obtain ⟨-, -, perm, dest, hdest, -, hcur, -⟩ :=
      receive_records hmet (ofCheck_eq_ok answer) caller first
    have hcur' : (k.perform (.receive _)).kernel.env e = _ := hcur
    rw [hcur'] at hd
    obtain rfl : dest = some d := hd
    exact isUser_of_destination hdest
  | taken _ _ first _ woken =>
    rw [woken.mailbox] at hd
    exact h e (firstParked_eq_some first).1 d hd
  | orphaned lives _ _ woken =>
    rw [woken.mailbox] at hd
    exact h e lives d hd
  | ended dead => exact absurd (dead.symm.trans hl) Bool.false_ne_true
  | joins _ mailbox =>
    rw [mailbox] at hd
    cases hd

theorem Turns.placed (ht : k.Turns k') (h : k.Placed) : k'.Placed := by
  intro e hl d hd
  rw [ht.isLive] at hl
  rw [(ht.record e).mailbox] at hd
  exact h e hl d hd

theorem Booted.placed (h : k.Booted pins) : k.Placed := by
  intro e hl
  rw [h.env] at hl
  cases hl

theorem Placed.act (h : k.Placed) (hk : k.Sound pins) (hmet : k.Met) (a : Action) :
    (k.act a).1.Placed := by
  intro e hl d hd
  rcases k.act_cases a e with ⟨number, args, rfl⟩ | hturned | ⟨-, hempty⟩
  · cases hcur : k.current with
    | none => exact (Turns.call_of_none hcur number args).placed h e hl d hd
    | some cur =>
      have hperform := perform_placed hk hmet h (.ofWords number args)
      exact (Turns.call hcur number args).placed hperform e hl d hd
  · rw [hturned.isLive] at hl
    rw [hturned.mailbox] at hd
    exact h e hl d hd
  · rw [hempty] at hd
    cases hd

theorem Reachable.placed (h : Reachable pins k) : k.Placed := by
  refine h.act_invariant (fun _ hb => hb.placed) (fun _ a hr ih => ih.act hr.sound hr.met a) ?_
  intro k k' haside hk e hl
  rw [haside.env] at hl ⊢
  exact hk e hl

/-! ## Request by request -/

section Requests

variable {id : EnvId} {va : VirtAddr} {word : UInt32}

theorem fork_effect (h : k.fork = .ok (k', flow)) : Effect k r k' := by
  obtain ⟨cur, k₁, slot, event, -, ha, rfl, -⟩ := fork_eq_ok h
  obtain ⟨s, hm, -, hdead, hnew, hothers, -⟩ := allocEnv_spec ha
  have hl := isLive_of_allocEnv ha
  have hopens : Effect k r k₁ := by
    refine @Effect.opens _ _ _ slot s hm ?_
    intro e t ht
    exact ((holds_newcomer hdead hnew hothers e t).1 ht).symm
  exact (hopens.write hl rfl).note event

theorem execCommit_effect (hk : k.Sound pins) (h : k.execCommit id = .ok (k', flow)) :
    Effect k (.execCommit id) k' := by
  obtain ⟨cur, slot, event, hc, ht, hne, rfl, -⟩ := execCommit_eq_ok h
  have hlc := (caller_eq_ok.1 hc).2
  have hls := isLive_of_target ht
  obtain ⟨hcur, hslot, hothers⟩ := env_swapped hne hlc hls event
  obtain ⟨s, hs, -⟩ := hk.space cur hlc
  have hl₁ : ((k.swapped cur slot event).env slot).isLive = true := by
    rw [hslot]
    exact hls
  have hs₁ : ((k.swapped cur slot event).env slot).space = some s := by
    rw [hslot]
    exact hs
  refine .adopts rfl hc ht (s := s) ?_ ?_
  · -- the space that ends is the one that the caller had
    rw [memory_destroy hl₁ hs₁]
    exact (k.same_swapped cur slot event).destroySpace s
  · intro e t he
    obtain ⟨hes, hlive, hspace⟩ := holds_of_destroy hl₁ he
    by_cases hec : e = cur
    · subst hec
      rw [hcur] at hspace
      exact Or.inr ⟨rfl, hls, hspace⟩
    · rw [hothers e hec hes] at hlive hspace
      exact Or.inl ⟨hlive, hspace⟩

theorem pageAlloc_effect (k : Kernel) (id : EnvId) (va : VirtAddr) (word : UInt32) :
    Effect k r (k.pageAlloc id va word).kernel := by
  rcases k.pageAlloc_cases id va word with ⟨e, heq⟩ | ⟨slot, s, perm, memory, ht, hcases⟩
  · rw [heq]
    exact .refl
  obtain ⟨-, hva, hp, -⟩ := pageTarget_eq_ok ht
  have hperm := Perm.requestable_of_request hp
  have huser : va.isUser = true := (Bool.and_eq_true_iff.1 hva).1
  rcases hcases with ⟨e, hm, heq⟩ | ⟨hm, event, heq⟩ <;> rw [heq]
  · exact .refills (.single (.fail hperm hm)) fun _ _ h => h
  · exact .refills (.single (.map huser hperm (fun _ _ => trivial) hm)) fun _ _ h => h

theorem pageMap_effect {source dest : EnvId} {sourceVa destVa : VirtAddr}
    (h : k.pageMap source sourceVa dest destVa word = .ok (k', flow)) :
    Effect k (.pageMap source sourceVa dest destVa word) k' := by
  obtain ⟨src, dst, perm, srcSpace, s, frame, sourcePerm, memory, event, hsrc, hdst, -, hdva, hp,
    hr, hl, -, hs, hi, rfl, -⟩ := pageMap_eq_ok h
  obtain ⟨cur, hc⟩ := caller_of_target hsrc
  have hmapped : k.mapped src sourceVa = some (frame, sourcePerm) := by
    rw [mapped, hr, Option.bind_some, hl]
  exact .inserts hc ⟨isLive_of_target hdst, hs⟩
    (.shared rfl hsrc hdst (controls_of_target hc hsrc) (controls_of_target hc hdst) hmapped)
    (Bool.and_eq_true_iff.1 hdva).1 (Perm.requestable_of_request hp) hi fun _ _ h => h

theorem pageUnmap_effect (h : k.pageUnmap id va = .ok (k', flow)) : Effect k r k' := by
  obtain ⟨slot, s, -, -, -, rfl, -⟩ := pageUnmap_eq_ok h
  exact .refills (.single (.unmap fun _ _ => trivial)) fun _ _ h => h

theorem mapKernelPage_effect {phys : PhysAddr} (h : k.mapKernelPage phys va = .ok (k', flow)) :
    Effect k (.mapKernelPage phys va) k' := by
  obtain ⟨cur, frame, s, memory, hc, hpage, -, hva, hs, hi, rfl, -⟩ := mapKernelPage_eq_ok h
  exact .inserts hc ⟨(caller_eq_ok.1 hc).2, hs⟩ (.kernelPage rfl rfl hpage)
    (Bool.and_eq_true_iff.1 hva).1 requestable_userWrite hi fun _ _ h => h

theorem growHeap_effect (hk : k.Sound pins) (increment : UInt32) :
    Effect k r (k.growHeap increment).kernel := by
  cases hc : k.caller with
  | error e =>
    unfold growHeap
    simp only [hc]
    exact .refl
  | ok cur =>
    have hl := (caller_eq_ok.1 hc).2
    obtain ⟨s, hs, -⟩ := hk.space cur hl
    rcases growHeap_of_caller hc hs increment with
      ⟨event, heq⟩ | ⟨n, m, htop, ⟨after, event, value, hm, heq⟩ | ⟨fault, e, i, hm, hi, heq⟩⟩ <;>
        rw [heq]
    · exact effect_destroy hk hl event
    · have hfills : Memory.Refills s (fun _ => True) k.memory
          (Memory.mapPages s .userWrite n (k.env cur).heapBreak k.memory).1 :=
        Memory.mapPages_refills requestable_userWrite n _ _ htop fun _ _ => trivial
      rw [hm] at hfills
      have hgrown : Effect k r { k with memory := m } := .refills hfills fun _ _ h => h
      exact (hgrown.write hl rfl).note event
    · have hundone := Memory.undone_refills requestable_userWrite htop hm hi
      exact .refills (hundone.mono fun _ _ => trivial) fun _ _ h => h

/-- A message that is handed over brings its page, if the receiver wants one. -/
theorem transfer_effect {sender receiver : Nat} {value : UInt32} {page : Option OfferedPage}
    {dest : Option VirtAddr} (hc : k.caller = .ok cur) (hl : (k.env receiver).isLive = true)
    (hallowed : ∀ p, page = some p → p.perm.Requestable)
    (hchannel : ∀ p d, page = some p → dest = some d →
      Channel k cur r receiver p.frame ∧ d.isUser = true)
    (h : k.transfer sender receiver value page dest = .ok k') : Effect k r k' := by
  obtain ⟨memory, perm, event, hplace, rfl⟩ := transfer_eq_ok h
  have hpage : Effect k r { k with memory } := by
    rcases placePage_eq_ok hplace with ⟨-, rfl, -⟩ | ⟨offered, d, s, hp, hd, hs, hi, -⟩
    · exact .refl
    · obtain ⟨hch, huser⟩ := hchannel offered d hp hd
      exact .inserts hc ⟨hl, hs⟩ hch huser (hallowed offered hp) hi fun _ _ ht => ht
  exact (hpage.write hl rfl).note event

/-- What is offered is mapped by the one who offers it. -/
theorem mapped_of_offer {page : OfferedPage} (h : k.offer slot va word = .ok (some page)) :
    ∃ perm, k.mapped slot va = some (page.frame, perm) := by
  rcases offer_eq_ok h with ⟨-, hnone⟩ | ⟨perm, s, frame, sourcePerm, -, -, hs, hl, -, hsome⟩
  · cases hnone
  · obtain rfl := Option.some.inj hsome
    exact ⟨sourcePerm, by rw [mapped, hs, Option.bind_some, hl]⟩

theorem send_effect {value : UInt32} (hplaced : k.Placed)
    (h : k.send id value va word = .ok (k', flow)) : Effect k (.send id value va word) k' := by
  obtain ⟨cur, target, page, hc, hresolve, -, hp, hcases⟩ := send_eq_ok h
  have hl : (k.env target).isLive = true := (EnvTable.resolve_eq_some_iff.1 hresolve).2.1
  rcases hcases with ⟨hwaits, htransfer, -⟩ | ⟨-, ⟨event, rfl⟩, -⟩
  · refine transfer_effect hc hl (requestable_of_offer hp) ?_ htransfer
    rintro offered d rfl hd
    obtain ⟨perm, hmapped⟩ := mapped_of_offer hp
    exact ⟨.sent rfl hresolve hwaits hd hmapped, hplaced target hl d hd⟩
  · exact (effect_write (caller_eq_ok.1 hc).2 rfl).note event

theorem receive_effect (hk : k.Sound pins) (h : k.receive va = .ok (k', flow)) :
    Effect k (.receive va) k' := by
  obtain ⟨cur, dest, hc, hdest, hcases⟩ := receive_eq_ok h
  have hl := (caller_eq_ok.1 hc).2
  rcases hcases with ⟨sender, send, k₁, hf, htransfer, rfl, -⟩ | ⟨-, ⟨event, rfl⟩, -⟩
  swap
  · exact (effect_write hl rfl).note event
  obtain ⟨hls, hparked, htarget⟩ := firstParked_eq_some hf
  have hallowed : ∀ p, (send.page.filter fun page => k.stillMaps sender page) = some p →
      p.perm.Requestable := by
    intro p hp
    exact hk.offers sender hls send hparked p (Option.filter_eq_some_iff.1 hp).1
  have heffect : Effect k (.receive va) k₁ := by
    refine transfer_effect hc hl hallowed ?_ htransfer
    -- the page is looked up again when the message is taken
    intro p d hp hd
    obtain ⟨hoffered, hstill⟩ := Option.filter_eq_some_iff.1 hp
    obtain ⟨perm, hmapped⟩ := stillMaps_iff.1 hstill
    exact ⟨.received rfl rfl hf hls hparked htarget hoffered rfl hmapped,
      isUser_of_destination (hd ▸ hdest)⟩
  have hhand : Edits pins (fun _ => True) k k₁ := transfer_edits trivial hl hallowed htransfer
  have hl₁ := (hhand.persists hl).live
  have hls₁ : ((k₁.updateEnv cur fun e => { e with mailbox := { e.mailbox with dest } }).env
      sender).isLive = true :=
    (persists_updateEnv hl₁ ⟨hl₁, rfl, rfl⟩ sender (hhand.persists hls).live).live
  exact (heffect.write hl₁ rfl).write hls₁ rfl

end Requests

/-- **Every request has one of these effects.** -/
theorem perform_effect (hk : k.Sound pins) (hplaced : k.Placed) (r : Request) :
    Effect k r (k.perform r).kernel := by
  cases r with
  | putBytes va len =>
    show Effect k _ (k.putBytes va len).kernel
    rcases k.putBytes_cases va len with ⟨e, heq⟩ | ⟨cur, fault, hc, heq⟩ | ⟨console, heq⟩ <;>
      rw [heq]
    · exact .refl
    · exact effect_badPointer hk hc fault
    · exact .keeps (.refl _) fun _ _ h => h
  | getByte =>
    refine effect_ofCheck fun k' flow hok => ?_
    obtain ⟨console, hfst⟩ := k.getByte_fst
    obtain rfl : k' = { k with console } := by rw [← hfst, Except.ok.inj hok]
    exact .keeps (.refl _) fun _ _ h => h
  | ownId =>
    refine effect_ofCheck fun k' flow hok => ?_
    rw [ownId_eq_ok hok]
    exact .refl
  | destroyEnv id =>
    refine effect_ofCheck fun k' flow hok => ?_
    obtain ⟨slot, event, ht, rfl, -⟩ := destroyEnv_eq_ok hok
    exact effect_destroy hk (isLive_of_target ht) event
  | mapKernelPage phys va => exact effect_ofCheck fun _ _ => mapKernelPage_effect
  | yield =>
    refine effect_ofCheck fun k' flow hok => ?_
    obtain ⟨cur, hc, rfl, -⟩ := yield_eq_ok hok
    exact effect_write (caller_eq_ok.1 hc).2 rfl
  | fork => exact effect_ofCheck fun _ _ => fork_effect
  | setStatus id status =>
    refine effect_ofCheck fun k' flow hok => ?_
    obtain ⟨slot, status, ht, -, -, rfl, -⟩ := setStatus_eq_ok hok
    exact effect_write (isLive_of_target ht) rfl
  | setRegisters id va =>
    show Effect k _ (k.setRegisters id va).kernel
    rcases k.setRegisters_cases id va with
      ⟨e, heq⟩ | ⟨cur, fault, hc, heq⟩ | ⟨slot, registers, ht, heq⟩ <;> rw [heq]
    · exact .refl
    · exact effect_badPointer hk hc fault
    · exact effect_write (isLive_of_target ht) rfl
  | setUpcall id va =>
    refine effect_ofCheck fun k' flow hok => ?_
    obtain ⟨slot, upcall, ht, rfl, -⟩ := setUpcall_eq_ok hok
    exact effect_write (isLive_of_target ht) rfl
  | execCommit id => exact effect_ofCheck fun _ _ => execCommit_effect hk
  | pageAlloc id va perm => exact pageAlloc_effect k id va perm
  | pageMap source sourceVa dest destVa perm => exact effect_ofCheck fun _ _ => pageMap_effect
  | pageUnmap id va => exact effect_ofCheck fun _ _ => pageUnmap_effect
  | send id value va perm => exact effect_ofCheck fun _ _ => send_effect hplaced
  | receive va => exact effect_ofCheck fun _ _ => receive_effect hk
  | growHeap increment => exact growHeap_effect hk increment
  | unknown number => exact .keeps (.refl _) fun _ _ h => h

/-- **What effects keep** is kept by every action, if it does not depend on the space in force. -/
theorem act_memory {I : Memory → Prop} (hk : k.Sound pins) (hplaced : k.Placed) (hi : I k.memory)
    (same : ∀ m m' : Memory, m.Same m' → I m → I m')
    (opens : ∀ m s, k.memory.createSpace = .ok (m, s) → I m)
    (effect : ∀ k' r, Effect k r k' → I k'.memory) (a : Action) : I (k.act a).1.memory := by
  cases a with
  | create parent entry stack =>
    unfold Kernel.act
    simp only
    split
    · rename_i k' id hok
      obtain ⟨k₁, slot, event, ha, rfl⟩ := createEnv_eq_ok hok
      obtain ⟨s, hm, -⟩ := allocEnv_spec ha
      exact opens _ s hm
    · exact hi
  | run id =>
    cases hresolve : k.envs.resolve id with
    | none =>
      rw [act_run_of_none hresolve]
      exact hi
    | some slot =>
      rw [act_run hresolve]
      exact same _ _ (Turns.resume k slot).same hi
  | capture registers => exact same _ _ (Turns.capture k registers).same hi
  | call number args =>
    cases hcur : k.current with
    | none => exact same _ _ (Turns.call_of_none hcur number args).same hi
    | some cur =>
      have heffect := perform_effect hk hplaced (.ofWords number args)
      exact same _ _ (Turns.call hcur number args).same (effect _ _ heffect)

/-- What effects keep is true of memory in every reachable state, if it speaks of directories alone
  and holds on when some of them are gone. -/
theorem Reachable.memory_invariant {I : Memory → Prop} (h : Reachable pins k)
    (boot : ∀ k : Kernel, k.Booted pins → I k.memory)
    (directories : ∀ m m' : Memory,
      (∀ s d, m'.directory? s = some d → m.directory? s = some d) → I m → I m')
    (opens : ∀ (k : Kernel) m s, k.Sound pins → I k.memory →
      k.memory.createSpace = .ok (m, s) → I m)
    (effect : ∀ k k' r, Reachable pins k → I k.memory → Effect k r k' → I k'.memory) :
    I k.memory := by
  have hspaces : ∀ m m' : Memory, m'.spaces = m.spaces → I m → I m' := fun m m' hs =>
    directories m m' fun s _ hd => (Memory.directory?_of_spaces hs s).symm.trans hd
  refine h.act_invariant (I := fun k => I k.memory) boot (fun k a hr ih => ?_)
    fun k k' haside => hspaces _ _ haside.spaces
  exact act_memory hr.sound hr.placed ih (fun m m' hs => hspaces m m' hs.spaces)
    (fun m s => opens _ m s hr.sound ih) (fun k' r => effect _ k' r hr ih) a

end Exokernel.Kernel
