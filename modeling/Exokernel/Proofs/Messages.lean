/-
  No message is lost.

  A parked message leaves the record of its sender for four reasons only, and `Parting` lists
  them: its target received it, its target ended, its sender ended, or its sender sent another
  one.  Received means received once, by the target, with the word and the page that were
  offered, and the other messages stay where they are.

  The other half of a mailbox is what came in last.  `InboxWritten` says who may write it, and
  what: its owner by a receive, which takes a parked message or begins to wait, and whoever sends
  to an owner that waits.

  Nor is a message lost on the way in.  A receive that is answered has taken one, a send that is
  answered has reached its target, and a send that blocks is parked.

  When the target ends, the sender learns that its send failed, with one exception.  A sender
  that was started again from outside although it was blocked may end its target itself, and
  then the result of that call takes the place of the result of the send.
-/
import Exokernel.Proofs.Fates

namespace Exokernel.Kernel

variable {pins : List Frame} {k k' : Kernel} {r : Request} {next : Option Resumption}
  {s b cur e : Nat} {send : ParkedSend} {number : UInt32} {args : Args}

/-! ## What becomes of messages -/

/-- The page is the one offered with the message of the environment in `s`, a receiver that names
  `va` wants it, and its sender still maps the frame where it did. -/
def Follows (k : Kernel) (s : Nat) (send : ParkedSend) (va : VirtAddr) (page : OfferedPage) :
    Prop :=
  send.page = some page ∧ va.isUser = true ∧ ∃ q, k.mapped s page.va = some (page.frame, q)

/-- The environment in `b` received the message of the one in `s`, with its page at `va`. -/
structure Got (k k' : Kernel) (s b : Nat) (send : ParkedSend) (va : VirtAddr) : Prop where
  sender : (k'.env b).mailbox.sender = (k.env s).id
  value : (k'.env b).mailbox.value = send.value
  page : ∀ page, k.Follows s send va page → (k'.env b).mailbox.perm = page.perm ∧
    k'.mapped b va = some (page.frame, page.perm.union .present)
  noPage : (∀ page, ¬ k.Follows s send va page) → (k'.env b).mailbox.perm = .empty ∧
    ∀ a, k'.mapped b a = k.mapped b a

/-- The environment in `b` takes the message that the one in `s` has parked for it, the first one by
  slot, and it is parked no more. -/
structure Takes (k k' : Kernel) (s b : Nat) (send : ParkedSend) (va : VirtAddr) : Prop where
  lives : (k.env s).isLive = true
  parked : (k.env s).mailbox.parked = some send
  target : send.target = (k.env b).id
  first : ∀ a, (k.env a).isLive = true → (k.env a).sendsTo send.target = true → s ≤ a
  got : Got k k' s b send va
  done : (k'.env b).mailbox.receiving = false
  dest : (k'.env b).mailbox.dest = if va.isUser then some va else none
  gone : (k'.env s).mailbox.parked = none

/-- What the environment in a slot may offer with the page at `va`: nothing beyond the user
  mappings, and else the frame that it maps there. -/
inductive Offers (k : Kernel) (slot : Nat) (va : VirtAddr) (word : UInt32) :
    Option OfferedPage → Prop where
  | nothing (beyond : va.isUser = false) : Offers k slot va word none
  | page {frame : Frame} {q : Perm} (user : va.isUser = true)
      (mapped : k.mapped slot va = some (frame, q)) :
      Offers k slot va word (some { va, frame, perm := ⟨word⟩ })

/-- What the environment in `cur` sends comes in to the one in `b`, which waits for it. -/
structure ComesIn (k k' : Kernel) (cur b : Nat) (value : UInt32) (page : Option OfferedPage) :
    Prop where
  waits : (k.env b).mailbox.receiving = true
  done : (k'.env b).mailbox.receiving = false
  dest : (k'.env b).mailbox.dest = (k.env b).mailbox.dest
  sender : (k'.env b).mailbox.sender = (k.env cur).id
  content : (k'.env b).mailbox.value = value
  placed : ∀ p va, page = some p → (k.env b).mailbox.dest = some va →
    (k'.env b).mailbox.perm = p.perm ∧ k'.mapped b va = some (p.frame, p.perm.union .present)
  notPlaced : page = none ∨ (k.env b).mailbox.dest = none →
    (k'.env b).mailbox.perm = .empty ∧ ∀ a, k'.mapped b a = k.mapped b a

/-- The environment in `s` has a message parked that it has just sent. -/
structure Parks (k k' : Kernel) (s : Nat) (id : EnvId) (value : UInt32) (va : VirtAddr)
    (word : UInt32) (send : ParkedSend) : Prop where
  parked : (k'.env s).mailbox.parked = some send
  target : send.target = id
  content : send.value = value
  page : k.Offers s va word send.page

/-- Why the environment in `s` has the message `send` parked no more after the request `r`. -/
inductive Parting (k k' : Kernel) (r : Request) (next : Option Resumption) (s : Nat)
    (send : ParkedSend) : Prop where
  /-- Its target received it, and no other message left with it. -/
  | received {b : Nat} {va : VirtAddr} (request : r = .receive va) (caller : k.caller = .ok b)
      (target : (k.env b).id = send.target) (answer : (k.perform r).result = .ok (.answer 0))
      (got : Got k k' s b send va) (woken : (k.env s).Woken (k'.env s) 0)
      (first : ∀ a, (k.env a).isLive = true → (k.env a).sendsTo send.target = true → s ≤ a)
      (others : ∀ a, a ≠ s → (k'.env a).mailbox.parked = (k.env a).mailbox.parked)
  /-- Its target ended.  The sender learns it, unless it was the caller that ended the target. -/
  | orphaned {b : Nat} (before : k.envs.resolve send.target = some b)
      (gone : k'.envs.resolve send.target = none) (status : (k'.env s).status = .runnable)
      (unparked : (k'.env s).mailbox.parked = none)
      (result : (k'.env s).pending = some CallError.badEnv.code ∨
        Returns next (k.env s).id CallError.badEnv.code ∨
        k.caller = .ok s ∧ (∃ id, r = .destroyEnv id) ∧ Returns next (k.env s).id 0)
  /-- Its sender ended. -/
  | ended (gone : k'.envs.resolve (k.env s).id = none)
  /-- Its sender sent another one. -/
  | resent {id : EnvId} {value : UInt32} {va : VirtAddr} {word : UInt32} {send' : ParkedSend}
      (request : r = .send id value va word) (caller : k.caller = .ok s)
      (parks : Parks k k' s id value va word send')

/-- Two mailboxes agree in what came in. -/
structure SameInbox (m m' : Mailbox) : Prop where
  receiving : m'.receiving = m.receiving
  dest : m'.dest = m.dest
  sender : m'.sender = m.sender
  value : m'.value = m.value
  perm : m'.perm = m.perm

/-- From `m` to `m'`, a mailbox begins to wait for a message, with its page at `va`. -/
structure Begins (m m' : Mailbox) (va : VirtAddr) : Prop where
  receiving : m'.receiving = true
  dest : m'.dest = if va.isUser then some va else none
  sender : m'.sender = m.sender
  value : m'.value = m.value
  perm : m'.perm = m.perm

/-- Who may write what comes in to the environment in `b`. -/
inductive InboxWritten (k k' : Kernel) (r : Request) (b : Nat) : Prop where
  /-- It begins to wait, since nobody has a message parked for it. -/
  | begins {va : VirtAddr} (request : r = .receive va) (caller : k.caller = .ok b)
      (unsent : ∀ a, (k.env a).isLive = true → (k.env a).sendsTo (k.env b).id = false)
      (begins : Begins (k.env b).mailbox (k'.env b).mailbox va)
  /-- It receives a message that is parked for it. -/
  | receives {va : VirtAddr} {s : Nat} {send : ParkedSend} (request : r = .receive va)
      (caller : k.caller = .ok b) (takes : Takes k k' s b send va)
  /-- The caller sends to it while it waits. -/
  | delivered {cur : Nat} {id : EnvId} {value : UInt32} {va : VirtAddr} {word : UInt32}
      {page : Option OfferedPage} (request : r = .send id value va word)
      (caller : k.caller = .ok cur) (target : k.envs.resolve id = some b)
      (offers : k.Offers cur va word page) (comesIn : ComesIn k k' cur b value page)

/-- What a call does to messages. -/
structure MessagesKept (k k' : Kernel) (r : Request) (next : Option Resumption) : Prop where
  parked : ∀ s send, (k.env s).isLive = true → (k.env s).mailbox.parked = some send →
    (k'.env s).mailbox.parked ≠ some send → Parting k k' r next s send
  inbox : ∀ b, (k.env b).isLive = true → (k'.env b).isLive = true →
    SameInbox (k.env b).mailbox (k'.env b).mailbox ∨ InboxWritten k k' r b
  /-- A receive that is answered has taken a message. -/
  received : ∀ va b value, r = .receive va → k.caller = .ok b →
    (k.perform r).result = .ok (.answer value) → ∃ s send, Takes k k' s b send va
  /-- A send that is answered has reached its target. -/
  sent : ∀ id word va perm cur value, r = .send id word va perm → k.caller = .ok cur →
    (k.perform r).result = .ok (.answer value) →
      ∃ b page, k.envs.resolve id = some b ∧ k.Offers cur va perm page ∧
        ComesIn k k' cur b word page
  /-- Any other send that succeeds is parked. -/
  blocked : ∀ id word va perm cur, r = .send id word va perm → k.caller = .ok cur →
    (k.perform r).result = .ok .reschedule → ∃ send, Parks k k' cur id word va perm send

/-! ## Receiving -/

/-- Slots of senders are in order, so the first of them is the lowest. -/
theorem firstParked_le {target : EnvId} (hf : k.firstParked target = some (s, send)) {a : Nat}
    (ha : (k.env a).isLive = true) (hsends : (k.env a).sendsTo target = true) : s ≤ a := by
  have hm : a ∈ k.envs.sendersTo target := EnvTable.mem_sendersTo_iff.2 ⟨ha, hsends⟩
  have hsorted : (k.envs.sendersTo target).Pairwise (· < ·) :=
    (List.pairwise_lt_range.filter _).filter _
  unfold firstParked at hf
  cases hl : k.envs.sendersTo target with
  | nil =>
    rw [hl] at hm
    exact absurd hm List.not_mem_nil
  | cons slot rest =>
    rw [hl] at hf hm hsorted
    simp only [Option.map_eq_some_iff, Prod.mk.injEq] at hf
    obtain ⟨_, -, rfl, -⟩ := hf
    rcases List.mem_cons.1 hm with rfl | hrest
    · exact Nat.le_refl _
    · exact Nat.le_of_lt (List.rel_of_pairwise_cons hsorted hrest)

/-- A page is placed if there is one and a place for it, and nothing is mapped otherwise. -/
theorem mapped_of_placePage {page : Option OfferedPage} {dest : Option VirtAddr} {perm : Perm}
    (hk : k.Sound pins) (hspace : (k'.env b).space = (k.env b).space)
    (hallowed : ∀ p, page = some p → p.perm.Requestable)
    (h : k.placePage b page dest = .ok (k'.memory, perm)) :
    (∀ p va, page = some p → dest = some va →
      perm = p.perm ∧ k'.mapped b va = some (p.frame, p.perm.union .present)) ∧
    (page = none ∨ dest = none → perm = .empty ∧ ∀ a, k'.mapped b a = k.mapped b a) := by
  rcases placePage_eq_ok h with ⟨hno, hmemory, rfl⟩ | ⟨offered, va, s, rfl, rfl, hs, hi, rfl⟩
  · refine ⟨fun p va hp hva => ?_, fun _ => ⟨rfl, fun a => ?_⟩⟩
    · rw [hp, hva] at hno
      rcases hno with hno | hno <;> cases hno
    · rw [mapped, mapped, hspace, hmemory]
  · refine ⟨fun p va hp hva => ?_, fun hno => ?_⟩
    · obtain rfl := Option.some.inj hp
      obtain rfl := Option.some.inj hva
      exact ⟨rfl, mapped_of_insert hk (hspace.trans hs) (hallowed _ rfl) hi⟩
    · rcases hno with hno | hno <;> cases hno

/-- A receive hands over the page exactly when it follows its message. -/
theorem receive_got {va : VirtAddr} {flow : Flow} (h : Reachable pins k) (hc : k.caller = .ok b)
    (hf : k.firstParked (k.env b).id = some (s, send))
    (hrec : k.receive va = .ok (k', flow)) : Got k k' s b send va := by
  obtain ⟨-, -, perm, dest, hdest, hplace, hb, -⟩ := receive_records h.met hrec hc hf
  obtain ⟨hls, hparked, -⟩ := firstParked_eq_some hf
  have hrecord : (k'.env b).mailbox =
      { (k.env b).mailbox.deliver (k.env s).id send.value perm with dest } :=
    congrArg Env.mailbox hb
  obtain ⟨hplaced, hno⟩ := mapped_of_placePage h.sound (by rw [hb]; rfl) (fun p hp =>
    h.sound.offers s hls send hparked p (Option.filter_eq_some_iff.1 hp).1) hplace
  have hperm : (k'.env b).mailbox.perm = perm := by
    rw [hrecord]
    rfl
  refine ⟨by rw [hrecord]; rfl, by rw [hrecord]; rfl, ?_, fun hnone => ?_⟩ <;> rw [hperm]
  · rintro page ⟨hpage, huser, hstill⟩
    refine hplaced page va (Option.filter_eq_some_iff.2 ⟨hpage, stillMaps_iff.2 hstill⟩) ?_
    rcases destination_eq_ok hdest with ⟨-, hd⟩ | ⟨hbeyond, -⟩
    · exact hd
    · exact absurd (hbeyond.symm.trans huser) Bool.false_ne_true
  · apply hno
    -- a page that is placed follows its message
    rcases destination_eq_ok hdest with ⟨huser, -⟩ | ⟨-, hd⟩
    · refine Or.inl (Option.eq_none_iff_forall_ne_some.2 fun page hpage => ?_)
      obtain ⟨hsome, hstill⟩ := Option.filter_eq_some_iff.1 hpage
      exact hnone page ⟨hsome, huser, stillMaps_iff.1 hstill⟩
    · exact Or.inr hd

theorem eq_of_destination {va : VirtAddr} {dest : Option VirtAddr}
    (h : destination va = .ok dest) : dest = if va.isUser then some va else none := by
  rcases destination_eq_ok h with ⟨huser, rfl⟩ | ⟨hbeyond, rfl⟩
  · rw [huser]
    rfl
  · rw [hbeyond]
    rfl

/-- A receive that finds no message begins to wait for one. -/
theorem receive_begins {va : VirtAddr} (hc : k.caller = .ok b)
    (hrec : k.receive va = .ok (k', .reschedule)) :
    (∀ a, (k.env a).isLive = true → (k.env a).sendsTo (k.env b).id = false) ∧
      Begins (k.env b).mailbox (k'.env b).mailbox va := by
  obtain ⟨b', dest, hc', hdest, ⟨_, _, _, -, -, -, hflow⟩ | ⟨hnone, ⟨event, rfl⟩, -⟩⟩ :=
    receive_eq_ok hrec
  · cases hflow
  obtain rfl : b = b' := Except.ok.inj (hc.symm.trans hc')
  refine ⟨firstParked_eq_none hnone, ?_⟩
  rw [env_note, env_updateEnv_self _ (caller_eq_ok.1 hc).2]
  exact ⟨rfl, eq_of_destination hdest, rfl, rfl, rfl⟩

/-- A receive that is answered has found a message. -/
theorem firstParked_of_receive {va : VirtAddr} {value : Int32} (hc : k.caller = .ok b)
    (hrec : k.receive va = .ok (k', .answer value)) :
    ∃ s send, k.firstParked (k.env b).id = some (s, send) := by
  obtain ⟨b', dest, hc', -, ⟨s, send, _, hf, -⟩ | ⟨-, -, hflow⟩⟩ := receive_eq_ok hrec
  · obtain rfl : b = b' := Except.ok.inj (hc.symm.trans hc')
    exact ⟨s, send, hf⟩
  · cases hflow

/-! ## Sending -/

theorem offers_of_offer {va : VirtAddr} {word : UInt32} {page : Option OfferedPage}
    (h : k.offer e va word = .ok page) : k.Offers e va word page := by
  rcases offer_eq_ok h with ⟨hbeyond, rfl⟩ | ⟨perm, s, frame, q, huser, hp, hs, hl, -, rfl⟩
  · exact .nothing hbeyond
  · obtain ⟨rfl, -⟩ := Perm.request_eq_ok.1 hp
    have hmapped : k.mapped e va = some (frame, q) := by rw [mapped, hs, Option.bind_some, hl]
    exact .page (Bool.and_eq_true_iff.1 huser).1 hmapped

/-- A send that is answered is handed over. -/
theorem send_comesIn {id : EnvId} {va : VirtAddr} {word value : UInt32} {result : Int32}
    (hk : k.Sound pins) (hc : k.caller = .ok cur)
    (hsend : k.send id value va word = .ok (k', .answer result)) :
    ∃ b page, k.envs.resolve id = some b ∧ k.Offers cur va word page ∧
      ComesIn k k' cur b value page := by
  obtain ⟨cur', b, page, hc', hb, -, hp, ⟨hwaits, htransfer, -⟩ | ⟨-, -, hflow⟩⟩ :=
    send_eq_ok hsend
  swap
  · cases hflow
  obtain rfl : cur = cur' := Except.ok.inj (hc.symm.trans hc')
  obtain ⟨perm, hplace, hb', -⟩ := transfer_spec (EnvTable.resolve_eq_some_iff.1 hb).2.1 htransfer
  have hrecord : (k'.env b).mailbox = (k.env b).mailbox.deliver (k.env cur).id value perm :=
    congrArg Env.mailbox hb'
  obtain ⟨hplaced, hno⟩ := mapped_of_placePage hk (by rw [hb']; rfl) (requestable_of_offer hp)
    hplace
  refine ⟨b, page, hb, offers_of_offer hp, hwaits, ?_, ?_, ?_, ?_, ?_, ?_⟩ <;> rw [hrecord]
  · rfl
  · rfl
  · rfl
  · rfl
  · exact hplaced
  · exact hno

/-- Any other send that succeeds is parked. -/
theorem send_parked {id : EnvId} {va : VirtAddr} {word value : UInt32} (hc : k.caller = .ok s)
    (hsend : k.send id value va word = .ok (k', .reschedule)) :
    ∃ send, Parks k k' s id value va word send := by
  obtain ⟨s', target, page, hc', ht, -, hp, ⟨-, -, hflow⟩ | ⟨-, ⟨event, rfl⟩, -⟩⟩ :=
    send_eq_ok hsend
  · cases hflow
  obtain rfl : s = s' := Except.ok.inj (hc.symm.trans hc')
  refine ⟨{ target := (k.env target).id, value, page }, ?_,
    (EnvTable.resolve_eq_some_iff.1 ht).2.2, rfl, offers_of_offer hp⟩
  rw [env_note, env_updateEnv_self _ (caller_eq_ok.1 hc).2]
  rfl

/-! ## After the call -/

theorem Got.of_turns {k₁ : Kernel} {va : VirtAddr} (h : Got k k₁ s b send va) (ht : k₁.Turns k') :
    Got k k' s b send va := by
  obtain ⟨hsender, hvalue, hpage, hno⟩ := h
  simp only [← (ht.record b).mailbox, ← ht.mapped b] at hsender hvalue hpage hno
  exact ⟨hsender, hvalue, hpage, hno⟩

theorem ComesIn.of_turns {k₁ : Kernel} {value : UInt32} {page : Option OfferedPage}
    (h : ComesIn k k₁ cur b value page) (ht : k₁.Turns k') : ComesIn k k' cur b value page := by
  obtain ⟨hwaits, hdone, hdest, hsender, hcontent, hplaced, hno⟩ := h
  simp only [← (ht.record b).mailbox, ← ht.mapped b] at hdone hdest hsender hcontent hplaced hno
  exact ⟨hwaits, hdone, hdest, hsender, hcontent, hplaced, hno⟩

theorem Parks.of_turns {k₁ : Kernel} {id : EnvId} {value word : UInt32} {va : VirtAddr}
    (h : Parks k k₁ s id value va word send) (ht : k₁.Turns k') :
    Parks k k' s id value va word send :=
  ⟨by rw [(ht.record s).mailbox, h.parked], h.target, h.content, h.page⟩

/-- A sender that is not the caller stays as it is while the caller is answered. -/
theorem passed_of_answer {value : Int32} (hk : k.Sound pins) (hc : k.caller = .ok cur)
    (hne : e ≠ cur) (hl : ((k.perform (.ofWords number args)).kernel.env e).isLive = true)
    (hcur : ((k.perform (.ofWords number args)).kernel.env cur).isLive = true)
    (hflow : (k.perform (.ofWords number args)).flow = .answer value) :
    Passed e ((k.perform (.ofWords number args)).kernel.env e) (k.call number args).1
      (k.call number args).2 := by
  rcases call_others hk (caller_eq_ok.1 hc).1 hne hl with hpassed | ⟨-, hgoes⟩
  · exact hpassed
  · have hself := (call_answers hk hc hcur hflow).current
    exact absurd (Option.some.inj (hgoes.current.symm.trans hself)) hne

theorem flow_of_result {reply : Reply} {flow : Flow} (h : reply.result = .ok flow) :
    reply.flow = flow := by
  unfold Reply.flow
  rw [h]

/-- A receive that succeeded is the one that the call carried out. -/
theorem receive_of_result {va : VirtAddr} {flow : Flow} (hr : r = .receive va)
    (hresult : (k.perform r).result = .ok flow) :
    k.receive va = .ok ((k.perform r).kernel, flow) := by
  subst hr
  exact ofCheck_eq_ok hresult

theorem send_of_result {id : EnvId} {value word : UInt32} {va : VirtAddr} {flow : Flow}
    (hr : r = .send id value va word) (hresult : (k.perform r).result = .ok flow) :
    k.send id value va word = .ok ((k.perform r).kernel, flow) := by
  subst hr
  exact ofCheck_eq_ok hresult

/-- The message of a sender reaches the caller. -/
theorem got_of_answer {va : VirtAddr} {flow : Flow} (h : Reachable pins k) (hc : k.caller = .ok b)
    (hr : Request.ofWords number args = .receive va)
    (hf : k.firstParked (k.env b).id = some (s, send))
    (hanswer : (k.perform (.ofWords number args)).result = .ok flow) :
    Got k (k.call number args).1 s b send va := by
  have hrec := receive_of_result hr hanswer
  exact (receive_got h hc hf hrec).of_turns (Turns.call (caller_eq_ok.1 hc).1 number args)

theorem takes_of_answer {va : VirtAddr} {flow : Flow} (h : Reachable pins k)
    (hc : k.caller = .ok b) (hr : Request.ofWords number args = .receive va)
    (hf : k.firstParked (k.env b).id = some (s, send))
    (hanswer : (k.perform (.ofWords number args)).result = .ok flow) :
    Takes k (k.call number args).1 s b send va := by
  obtain ⟨hls, hparked, htarget⟩ := firstParked_eq_some hf
  have hrec := receive_of_result hr hanswer
  obtain ⟨-, -, perm, dest, hdest, -, hb, hs, -⟩ := receive_records h.met hrec hc hf
  have hturns := Turns.call (caller_eq_ok.1 hc).1 number args
  refine ⟨hls, hparked, htarget, fun a ha hsends => firstParked_le hf ha (htarget ▸ hsends),
    got_of_answer h hc hr hf hanswer, ?_, ?_, ?_⟩
  · rw [(hturns.record b).mailbox, hb]
    rfl
  · rw [(hturns.record b).mailbox, hb]
    exact eq_of_destination hdest
  · rw [(hturns.record s).mailbox, hs]
    rfl

/-- The message of a sender leaves it for the caller, and it is the only one that leaves. -/
theorem parting_received {va : VirtAddr} (h : Reachable pins k) (hc : k.caller = .ok b)
    (hr : Request.ofWords number args = .receive va)
    (hf : k.firstParked (k.env b).id = some (s, send))
    (hanswer : (k.perform (.ofWords number args)).result = .ok (.answer 0)) :
    Parting k (k.call number args).1 (.ofWords number args) (k.call number args).2 s send := by
  have htakes := takes_of_answer h hc hr hf hanswer
  have hrec := receive_of_result hr hanswer
  obtain ⟨-, hne, perm, dest, -, -, hb, hs, hothers⟩ := receive_records h.met hrec hc hf
  have hpassed := passed_of_answer h.sound hc hne (by rw [hs]; rfl) (by rw [hb]; rfl)
    (flow_of_result hanswer)
  refine .received hr hc htakes.target.symm hanswer htakes.got ?_ htakes.first fun a ha => ?_
  · rw [hpassed.record, hs]
    exact Env.woken_wakeSender _ _
  · rw [((Turns.call (caller_eq_ok.1 hc).1 number args).record a).mailbox]
    by_cases hab : a = b
    · subst hab
      rw [hb]
      rfl
    · rw [hothers a hab ha]

/-- The target of a parked message ends. -/
theorem parting_orphaned (h : Reachable pins k) (hl : (k.env s).isLive = true)
    (hparked : (k.env s).mailbox.parked = some send) (hcur : k.current = some cur)
    (gone : Orphaned k (k.perform (.ofWords number args)).kernel s)
    (givesUp : k.caller = .ok s →
      GivesUp (.ofWords number args) (k.perform (.ofWords number args)).result)
    (woken : (k.env s).Woken ((k.perform (.ofWords number args)).kernel.env s)
      CallError.badEnv.code) :
    Parting k (k.call number args).1 (.ofWords number args) (k.call number args).2 s send := by
  have hturns := Turns.call hcur number args
  obtain ⟨send', b, hparked', hb, hgone⟩ := gone
  obtain rfl : send = send' := Option.some.inj (hparked.symm.trans hparked')
  have hlive : ((k.perform (.ofWords number args)).kernel.env s).isLive = true :=
    Env.isLive_iff.2 (Or.inl woken.status)
  refine .orphaned hb ((hturns.resolve _).trans hgone) ((hturns.record s).status.trans woken.status)
    (by rw [(hturns.record s).mailbox, woken.mailbox]) ?_
  by_cases hs : k.caller = .ok s
  · -- the sender is the caller, so its own call says how it goes on
    cases givesUp hs with
    | @destroys id request answer =>
      have hgo := call_answers h.sound hs hlive (flow_of_result answer)
      have hreturns := hgo.returns rfl
      rw [woken.id] at hreturns
      exact Or.inr (Or.inr ⟨hs, ⟨id, request⟩, hreturns⟩)
    | becomes _ resume =>
      have hgo := call_resumes h.sound hs hlive (flow_of_result resume)
      have hreturns := hgo.returns woken.pending
      rw [woken.id] at hreturns
      exact Or.inr (Or.inl hreturns)
  · have hne : s ≠ cur := by
      rintro rfl
      exact hs (caller_eq_ok.2 ⟨hcur, hl⟩)
    rcases call_others h.sound hcur hne hlive with hpassed | ⟨-, hgo⟩
    · exact Or.inl (by rw [hpassed.record, woken.pending])
    · have hreturns := hgo.returns woken.pending
      rw [woken.id] at hreturns
      exact Or.inr (Or.inl hreturns)

/-! ## Every call -/

theorem call_parted (h : Reachable pins k) (hl : (k.env s).isLive = true)
    (hparked : (k.env s).mailbox.parked = some send)
    (hgone : ((k.call number args).1.env s).mailbox.parked ≠ some send) :
    Parting k (k.call number args).1 (.ofWords number args) (k.call number args).2 s send := by
  cases hcur : k.current with
  | none =>
    have hturns := Turns.call_of_none hcur number args
    rw [(hturns.record s).mailbox] at hgone
    exact absurd hparked hgone
  | some cur =>
    have hturns := Turns.call hcur number args
    have hmailbox := (hturns.record s).mailbox
    rw [hmailbox] at hgone
    cases perform_fate h.sound h.met (.ofWords number args) s with
    | kept steady => exact absurd (steady.mailbox ▸ hparked) hgone
    | setStatus _ _ _ _ record => exact absurd (record ▸ hparked) hgone
    | delivered _ _ _ _ _ record => exact absurd (record ▸ hparked) hgone
    | parks request caller blocks =>
      obtain ⟨send', hparks⟩ := send_parked caller (send_of_result request blocks)
      exact .resent request caller (hparks.of_turns hturns)
    | waits _ _ _ record => exact absurd (record ▸ hparked) hgone
    | takes _ _ _ _ record => exact absurd (record ▸ hparked) hgone
    | taken request caller first answer =>
      obtain ⟨-, hparked', -⟩ := firstParked_eq_some first
      obtain rfl : send = _ := Option.some.inj (hparked.symm.trans hparked')
      exact parting_received h caller request first answer
    | orphaned _ gone givesUp woken => exact parting_orphaned h hl hparked hcur gone givesUp woken
    | ended dead =>
      refine .ended ?_
      rw [hturns.resolve, Option.eq_none_iff_forall_ne_some]
      intro x hx
      obtain ⟨hslot, hlive, -⟩ := EnvTable.resolve_eq_some_iff.1 hx
      rw [h.sound.number s hl] at hslot
      subst hslot
      exact Bool.false_ne_true (dead.symm.trans hlive)
    | joins unused => exact absurd (unused.symm.trans hl) Bool.false_ne_true

theorem call_inbox (h : Reachable pins k) (hl : (k.env b).isLive = true)
    (hl' : ((k.call number args).1.env b).isLive = true) :
    SameInbox (k.env b).mailbox ((k.call number args).1.env b).mailbox ∨
      InboxWritten k (k.call number args).1 (.ofWords number args) b := by
  cases hcur : k.current with
  | none =>
    have hturns := Turns.call_of_none hcur number args
    rw [(hturns.record b).mailbox]
    exact Or.inl ⟨rfl, rfl, rfl, rfl, rfl⟩
  | some cur =>
    have hturns := Turns.call hcur number args
    rw [(hturns.record b).mailbox]
    cases perform_fate h.sound h.met (.ofWords number args) b with
    | kept steady =>
      rw [steady.mailbox]
      exact Or.inl ⟨rfl, rfl, rfl, rfl, rfl⟩
    | setStatus _ _ _ _ record =>
      rw [record]
      exact Or.inl ⟨rfl, rfl, rfl, rfl, rfl⟩
    | delivered request caller target _ answer =>
      obtain ⟨b', page, hb', hoffers, hcomes⟩ :=
        send_comesIn h.sound caller (send_of_result request answer)
      obtain rfl : b = b' := Option.some.inj (target.symm.trans hb')
      exact Or.inr (.delivered request caller target hoffers (hcomes.of_turns hturns))
    | parks _ _ _ record =>
      rw [record]
      exact Or.inl ⟨rfl, rfl, rfl, rfl, rfl⟩
    | waits request caller blocks =>
      obtain ⟨hunsent, hbegins⟩ := receive_begins caller (receive_of_result request blocks)
      rw [← (hturns.record b).mailbox] at hbegins
      exact Or.inr (.begins request caller hunsent hbegins)
    | takes request caller first answer =>
      exact Or.inr (.receives request caller (takes_of_answer h caller request first answer))
    | taken _ _ _ _ woken =>
      rw [woken.mailbox]
      exact Or.inl ⟨rfl, rfl, rfl, rfl, rfl⟩
    | orphaned _ _ _ woken =>
      rw [woken.mailbox]
      exact Or.inl ⟨rfl, rfl, rfl, rfl, rfl⟩
    | ended dead =>
      rw [hturns.isLive] at hl'
      exact absurd (dead.symm.trans hl') Bool.false_ne_true
    | joins unused => exact absurd (unused.symm.trans hl) Bool.false_ne_true

/-- **No message is lost, doubled or overwritten** by any call in any reachable state. -/
theorem messages_kept (h : Reachable pins k) (number : UInt32) (args : Args) :
    MessagesKept k (k.call number args).1 (.ofWords number args) (k.call number args).2 where
  parked _ _ hl hparked hgone := call_parted h hl hparked hgone
  inbox _ hl hl' := call_inbox h hl hl'
  received va b value hr hc hanswer := by
    obtain ⟨s, send, hf⟩ := firstParked_of_receive hc (receive_of_result hr hanswer)
    exact ⟨s, send, takes_of_answer h hc hr hf hanswer⟩
  sent id word va perm cur value hr hc hanswer := by
    obtain ⟨b, page, hb, hoffers, hcomes⟩ := send_comesIn h.sound hc (send_of_result hr hanswer)
    exact ⟨b, page, hb, hoffers, hcomes.of_turns (Turns.call (caller_eq_ok.1 hc).1 number args)⟩
  blocked id word va perm cur hr hc hblocks := by
    obtain ⟨send, hparks⟩ := send_parked hc (send_of_result hr hblocks)
    exact ⟨send, hparks.of_turns (Turns.call (caller_eq_ok.1 hc).1 number args)⟩

/-- A word is parked for the second environment, which is about to receive it. -/
def dueWord : Kernel := sentTooEarly.after [.run ⟨4097⟩]

theorem messages_kept_dueWord :
    (dueWord.env 0).mailbox.parked = some { target := ⟨4097⟩, value := 42, page := none } ∧
      ((dueWord.call 15 #v[0xC00000, 0, 0, 0, 0]).1.env 0).mailbox.parked = none ∧
      MessagesKept dueWord (dueWord.call 15 #v[0xC00000, 0, 0, 0, 0]).1
        (.ofWords 15 #v[0xC00000, 0, 0, 0, 0]) (dueWord.call 15 #v[0xC00000, 0, 0, 0, 0]).2 :=
  ⟨by decide +kernel, by decide +kernel,
    messages_kept ((reachable_small _).after _) 15 #v[0xC00000, 0, 0, 0, 0]⟩

/-- An environment is blocked on a send to its child and was started again from outside. -/
def restarted : Kernel :=
  small.after [.create .none 0 0, .run ⟨4096⟩, .call 6 (.replicate 5 0),
    .call 14 #v[4097, 7, 0xEEC00000, 0, 0], .run ⟨4096⟩]

/-- It ends the child.  Its message is gone because the target ended, and the only result that it
  finds is that of its last call. -/
theorem restarted_finds_zero :
    (restarted.env 0).mailbox.parked = some { target := ⟨4097⟩, value := 7, page := none } ∧
      ((restarted.call 3 #v[4097, 0, 0, 0, 0]).1.env 0).isLive = true ∧
      ((restarted.call 3 #v[4097, 0, 0, 0, 0]).1.env 0).mailbox.parked = none ∧
      ((restarted.call 3 #v[4097, 0, 0, 0, 0]).1.env 0).pending = none ∧
      (restarted.call 3 #v[4097, 0, 0, 0, 0]).1.envs.resolve ⟨4097⟩ = none ∧
      Returns (restarted.call 3 #v[4097, 0, 0, 0, 0]).2 ⟨4096⟩ 0 := by
  refine ⟨by decide +kernel, by decide +kernel, by decide +kernel, by decide +kernel,
    by decide +kernel, ?_⟩
  exact ⟨((restarted.call 3 #v[4097, 0, 0, 0, 0]).1.env 0).registers, by decide +kernel,
    by decide +kernel⟩

end Exokernel.Kernel
