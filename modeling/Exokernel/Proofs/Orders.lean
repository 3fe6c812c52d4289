/-
  Both orders of a meeting agree.

  A receiver may come before its sender or after it.  If it comes first it waits, and the send
  completes the transfer; if it comes second the send is parked, and the receive completes the
  transfer, with a page that is looked up again.  `orders_agree` says that nobody can tell the
  two apart afterwards: same message, same mappings, same counts of references and the same
  results, whatever was offered and wherever the receiver wanted it.

  The state before a meeting is the pivot.  In either order the first call blocks and writes
  nothing but the record of its caller, and then the second one places the page in memory that
  is still as it was.
-/
import Exokernel.Proofs.Messages

namespace Exokernel

/-! ## Placing a page -/

namespace Memory

/-- Mapping a page does not look at the space in force. -/
theorem insert_activate (m : Memory) (active : Option SpaceId) (s : SpaceId) (f : Frame)
    (va : VirtAddr) (perm : Perm) :
    { m with active }.insert s f va perm =
      (m.insert s f va perm).map fun m' => { m' with active } := by
  have hdir : { m with active }.directory? s = m.directory? s := rfl
  unfold insert
  simp only [hdir]
  split
  · rfl
  split
  · rfl
  split
  · rfl
  split
  · rfl
  split
  · rfl
  split <;> rfl

theorem Same.insert {m m' m₁ : Memory} {s : SpaceId} {f : Frame} {va : VirtAddr} {perm : Perm}
    (h : m.Same m') (hi : m.insert s f va perm = .ok m₁) :
    ∃ m₁', m'.insert s f va perm = .ok m₁' ∧ m₁.Same m₁' := by
  obtain ⟨pool, spaces, active⟩ := m'
  obtain ⟨rfl, rfl⟩ := h
  refine ⟨{ m₁ with active }, ?_, rfl, rfl⟩
  have heq := m.insert_activate active s f va perm
  rw [hi] at heq
  exact heq

end Memory

/-- What a sender and a receiver say to each other: the words of their calls. -/
structure Terms where
  value : UInt32
  /-- Where the sender has the page that it offers. -/
  sourceVa : UInt32
  perm : UInt32
  /-- Where the receiver wants it. -/
  destVa : UInt32

namespace Terms

/-- The arguments of the send to the environment with the given id. -/
def sendArgs (t : Terms) (target : EnvId) : Args :=
  #v[target.raw, t.value, t.sourceVa, t.perm, 0]

/-- The arguments of the receive. -/
def receiveArgs (t : Terms) : Args := #v[t.destVa, 0, 0, 0, 0]

/-- The sender sends. -/
def send (t : Terms) (target : EnvId) : Action := .call 14 (t.sendArgs target)

/-- The receiver receives. -/
def receive (t : Terms) : Action := .call 15 t.receiveArgs

theorem request_send (t : Terms) (target : EnvId) : Request.ofWords 14 (t.sendArgs target) =
    .send target t.value (Request.virt t.sourceVa) t.perm := rfl

theorem request_receive (t : Terms) :
    Request.ofWords 15 t.receiveArgs = .receive (Request.virt t.destVa) := rfl

/-- The receiver waits, and the sender is about to send. -/
def receiveFirst (t : Terms) (a b : EnvId) : List Action := [.run b, t.receive, .run a]

/-- The sender has sent, and the receiver is about to receive. -/
def sendFirst (t : Terms) (a b : EnvId) : List Action := [.run a, t.send b, .run b]

end Terms

namespace Kernel

variable {pins : List Frame} {k k₁ k' : Kernel} {a b e o : Nat} {t : Terms} {id : EnvId}
  {value word : UInt32} {va : VirtAddr} {page : Option OfferedPage} {dest : Option VirtAddr}
  {m : Memory} {perm : Perm}

/-! ## Ids -/

theorem isNone_next (last : EnvId) {slot : Nat} (h : slot < maxEnvs) :
    (last.next slot).isNone = false := by
  have hpos := EnvId.nextGeneration_pos last.generation
  have hraw : (last.next slot).raw.toNat =
      EnvId.nextGeneration last.generation * maxEnvs + slot :=
    EnvId.toNat_ofParts (EnvId.nextGeneration_lt _) h
  refine beq_eq_false_iff_ne.2 fun hzero => ?_
  rw [hzero] at hraw
  have hsum : 0 = EnvId.nextGeneration last.generation * maxEnvs + slot := hraw
  simp only [maxEnvs] at hsum
  omega

/-- No environment has the id that means the caller. -/
theorem Reachable.isNone_eq_false (h : Reachable pins k) :
    ∀ e, (k.env e).isLive = true → (k.env e).id.isNone = false := by
  refine h.invariant (I := fun k => ∀ e, (k.env e).isLive = true → (k.env e).id.isNone = false)
    (fun k hb e hl => ?_) fun k k' hk hi hmove e hl => ?_
  · rw [hb.env] at hl
    cases hl
  cases hmove with
  | edit he =>
    rcases he.joined hl with hold | ⟨hdead, parent, s, hnew⟩
    · rw [(he.persists hold).id]
      exact hi e hold
    · rw [hnew]
      have hslot : e < maxEnvs :=
        Nat.lt_of_lt_of_le (lt_capacity_of_isLive hl) (he.sound hk).capacity
      exact isNone_next _ hslot
  | ending hgone =>
    rw [env_destroy hgone] at hl ⊢
    obtain ⟨hne, hold⟩ := isLive_of_afterEnd hl
    rw [(tuned_afterEnd hne hold).1.id]
    exact hi e hold
  | store => exact hi e hl

/-! ## What a transfer depends on -/

/-- Where a page is placed depends on the space of the receiver and on memory. -/
theorem placePage_same (hspace : (k'.env b).space = (k.env b).space)
    (hmem : k.memory.Same k'.memory) (h : k.placePage b page dest = .ok (m, perm)) :
    ∃ m', k'.placePage b page dest = .ok (m', perm) ∧ m.Same m' := by
  rcases placePage_eq_ok h with ⟨hno, rfl, rfl⟩ | ⟨offered, va, s, rfl, rfl, hs, hi, rfl⟩
  · refine ⟨k'.memory, ?_, hmem⟩
    cases page with
    | none => rfl
    | some p =>
      obtain rfl : dest = none := hno.resolve_left (Option.some_ne_none p)
      rfl
  · obtain ⟨m', hi', hsame⟩ := hmem.insert hi
    refine ⟨m', ?_, hsame⟩
    unfold placePage
    simp only [Check.bind_eq_ok, Check.pure_eq_ok, Check.ofMapping_eq_ok]
    exact ⟨s, spaceOf_eq_ok.2 (hspace.trans hs), m', hi', rfl⟩

theorem offer_same (hspace : (k'.env a).space = (k.env a).space)
    (hmem : k.memory.Same k'.memory) : k'.offer a va word = k.offer a va word := by
  have hs : k'.spaceOf a = k.spaceOf a := by
    unfold spaceOf
    rw [hspace]
  unfold offer
  rw [hs]
  simp only [hmem.lookup]

/-- A page that was just offered is still there. -/
theorem filter_stillMaps (hp : k.offer a va word = .ok page)
    (hspace : (k'.env a).space = (k.env a).space) (hmem : k.memory.Same k'.memory) :
    (page.filter fun p => k'.stillMaps a p) = page := by
  rcases offer_eq_ok hp with ⟨-, rfl⟩ | ⟨perm, s, frame, sourcePerm, -, -, hs, hl, -, rfl⟩
  · rfl
  · refine Option.filter_eq_some_iff.2 ⟨rfl, stillMaps_iff.2 ⟨sourcePerm, ?_⟩⟩
    unfold mapped
    rw [hspace, hs]
    exact (hmem.lookup s va).trans hl

/-! ## The calls of a meeting -/

/-- A receive for which no message is parked waits. -/
theorem receive_waits (hc : k.caller = .ok b) (hd : destination va = .ok dest)
    (hnone : k.firstParked (k.env b).id = none) :
    ∃ event, k.receive va =
      .ok ((k.updateEnv b fun e => waiting e dest).note event, .reschedule) := by
  simp only [receive, hc, hd, hnone, Check.ok_bind]
  exact ⟨_, rfl⟩

theorem transfer_of_place (a : Nat) (value : UInt32)
    (h : k.placePage b page dest = .ok (m, perm)) :
    ∃ k', k.transfer a b value page dest = .ok k' := by
  simp only [transfer, h, Check.ok_bind]
  exact ⟨_, rfl⟩

/-- A receive for which a message is parked takes it if its page can be placed. -/
theorem receive_takes {send : ParkedSend} (hc : k.caller = .ok b)
    (hd : destination va = .ok dest) (hf : k.firstParked (k.env b).id = some (a, send))
    (hplace : k.placePage b (send.page.filter fun page => k.stillMaps a page) dest =
      .ok (m, perm)) :
    ∃ k', k.receive va = .ok (k', .answer 0) := by
  obtain ⟨k₁, htransfer⟩ := transfer_of_place a send.value hplace
  simp only [receive, hc, hd, hf, htransfer, Check.ok_bind]
  exact ⟨_, rfl⟩

/-- The target of a send is the environment with the id that it names. -/
theorem target_of_resolve (hc : k.caller = .ok a) (hid : id.isNone = false)
    (hb : k.envs.resolve id = some b) : k.target id .any = .ok b :=
  target_eq_ok.2 ⟨a, hc, Or.inr ⟨hid, hb, Or.inl rfl⟩⟩

theorem require_ne (hne : a ≠ b) : Check.require (b ≠ a) .notReceiving = .ok () :=
  Check.require_eq_ok.2 (decide_eq_true hne.symm)

/-- A send to an environment that does not wait is parked. -/
theorem send_parks (value : UInt32) (hc : k.caller = .ok a) (ht : k.target id .any = .ok b)
    (hne : a ≠ b) (hp : k.offer a va word = .ok page)
    (haway : (k.env b).mailbox.receiving = false) :
    ∃ event, k.send id value va word =
      .ok ((k.updateEnv a fun e => parking e { target := (k.env b).id, value, page }).note event,
        .reschedule) := by
  simp only [send, hc, ht, require_ne hne, hp, haway, Check.ok_bind]
  exact ⟨_, rfl⟩

/-- A send to an environment that waits is done if its page can be placed. -/
theorem send_delivers (value : UInt32) (hc : k.caller = .ok a) (ht : k.target id .any = .ok b)
    (hne : a ≠ b) (hp : k.offer a va word = .ok page)
    (hwaits : (k.env b).mailbox.receiving = true)
    (hplace : k.placePage b page (k.env b).mailbox.dest = .ok (m, perm)) :
    ∃ k', k.send id value va word = .ok (k', .answer 0) := by
  obtain ⟨k₁, htransfer⟩ := transfer_of_place a value hplace
  simp only [send, hc, ht, require_ne hne, hp, hwaits, htransfer, Check.ok_bind, if_true]
  exact ⟨_, rfl⟩

/-! ## The first call -/

/-- Of the two calls of a meeting, the environment in `e` has made the first one and blocked,
  with the record `blocked`, and now the one in `o` runs. -/
structure Begun (k k' : Kernel) (e o : Nat) (blocked : Env) : Prop where
  caller : k'.caller = .ok o
  first : blocked.Turned (k'.env e)
  others : ∀ x, x ≠ e → (k.env x).Turned (k'.env x)
  memory : k.memory.Same k'.memory

/-- Whoever is started from outside is the next caller. -/
theorem run_turns (h : k.envs.resolve id = some e) :
    k.Turns (k.act (.run id)).1 ∧ (k.act (.run id)).1.caller = .ok e := by
  have hl : (k.env e).isLive = true := (EnvTable.resolve_eq_some_iff.1 h).2.1
  have hgo := resume_goesOn hl
  rw [act_run h]
  exact ⟨.resume k e, caller_eq_ok.2 ⟨hgo.current, by rw [hgo.record]; exact hl⟩⟩

/-- The first of two calls blocks its caller and changes nothing else. -/
theorem begun {number : UInt32} {args : Args} (change : Env → Env) (h : Reachable pins k)
    (he : (k.env e).isLive = true) (ho : (k.env o).isLive = true) (hne : o ≠ e)
    (turned : ∀ x x' : Env, x.Turned x' → (change x).Turned (change x'))
    (hcall : ∀ k₁, k.Turns k₁ → k₁.caller = .ok e → ∃ event,
      (k₁.perform (.ofWords number args)).kernel = (k₁.updateEnv e change).note event) :
    Begun k (k.after [.run (k.env e).id, .call number args, .run (k.env o).id]) e o
      (change (k.env e)) := by
  let k₁ := (k.act (.run (k.env e).id)).1
  let k₂ := (k₁.act (.call number args)).1
  obtain ⟨hturns₁, hc₁⟩ := run_turns (h.sound.resolve_id he)
  obtain ⟨hcur, hl⟩ := caller_eq_ok.1 hc₁
  obtain ⟨event, hkernel⟩ := hcall k₁ hturns₁ hc₁
  have hturns₂ : ((k₁.updateEnv e change).note event).Turns k₂ :=
    hkernel ▸ Turns.call hcur number args
  have hfirst : (change (k.env e)).Turned (k₂.env e) := by
    have hrecord := hturns₂.record e
    rw [env_note, env_updateEnv_self _ hl] at hrecord
    exact (turned _ _ (hturns₁.record e)).trans hrecord
  have hothers : ∀ x, x ≠ e → (k.env x).Turned (k₂.env x) := by
    intro x hx
    have hrecord := hturns₂.record x
    rw [env_note, env_updateEnv_of_ne _ hx] at hrecord
    exact (hturns₁.record x).trans hrecord
  -- the other one is still there
  have hresolve : k₂.envs.resolve (k.env o).id = some o := by
    have hthere := hothers o hne
    exact EnvTable.resolve_eq_some_iff.2
      ⟨h.sound.number o ho, hthere.isLive.trans ho, hthere.id⟩
  obtain ⟨hturns₃, hc₃⟩ := run_turns hresolve
  exact ⟨hc₃, hfirst.trans (hturns₃.record e), fun x hx => (hothers x hx).trans (hturns₃.record x),
    (hturns₁.same.trans hturns₂.same).trans hturns₃.same⟩

/-- Two environments that can run, of which the first may send to the second: it has nothing
  parked, the second one does not wait, and nobody has a message for it. -/
structure MayMeet (k : Kernel) (a b : Nat) : Prop where
  sender : (k.env a).status = .runnable
  receiver : (k.env b).status = .runnable
  ne : a ≠ b
  unparked : (k.env a).mailbox.parked = none
  away : (k.env b).mailbox.receiving = false
  unsent : ∀ e, (k.env e).isLive = true → (k.env e).sendsTo (k.env b).id = false

theorem MayMeet.sender_lives (hm : k.MayMeet a b) : (k.env a).isLive = true :=
  Env.isLive_iff.2 (Or.inl hm.sender)

theorem MayMeet.receiver_lives (hm : k.MayMeet a b) : (k.env b).isLive = true :=
  Env.isLive_iff.2 (Or.inl hm.receiver)

/-- The receiver comes first and waits. -/
theorem begun_receive (h : Reachable pins k) (hm : k.MayMeet a b)
    (hd : destination (Request.virt t.destVa) = .ok dest) :
    Begun k (k.after (t.receiveFirst (k.env a).id (k.env b).id)) b a (waiting (k.env b) dest) := by
  refine begun (fun e => waiting e dest) h hm.receiver_lives hm.sender_lives hm.ne
    (fun x x' hx => ?_) fun k₁ hturns hc => ?_
  · exact ⟨hx.id, hx.parent, rfl, hx.space, hx.heapBreak, hx.upcall, by
      unfold waiting
      rw [hx.mailbox]⟩
  · have hnone : k₁.firstParked (k₁.env b).id = none := by
      rw [(hturns.record b).id, hturns.firstParked, Option.eq_none_iff_forall_ne_some]
      rintro ⟨s, send⟩ hf
      obtain ⟨hl, hparked, htarget⟩ := firstParked_eq_some hf
      have hsends := hm.unsent s hl
      rw [Env.sendsTo_iff.2 ⟨send, hparked, htarget⟩] at hsends
      cases hsends
    obtain ⟨event, hreceive⟩ := receive_waits hc hd hnone
    refine ⟨event, ?_⟩
    rw [t.request_receive, perform, hreceive]
    rfl

/-- The sender comes first and parks its message. -/
theorem begun_send (h : Reachable pins k) (hm : k.MayMeet a b)
    (hp : k.offer a (Request.virt t.sourceVa) t.perm = .ok page) :
    Begun k (k.after (t.sendFirst (k.env a).id (k.env b).id)) a b
      (parking (k.env a) { target := (k.env b).id, value := t.value, page }) := by
  refine begun (fun e => parking e { target := (k.env b).id, value := t.value, page }) h
    hm.sender_lives hm.receiver_lives hm.ne.symm (fun x x' hx => ?_) fun k₁ hturns hc => ?_
  · exact ⟨hx.id, hx.parent, rfl, hx.space, hx.heapBreak, hx.upcall, by
      unfold parking
      rw [hx.mailbox]⟩
  · have hresolve : k₁.envs.resolve (k.env b).id = some b := by
      rw [hturns.resolve]
      exact h.sound.resolve_id hm.receiver_lives
    have htarget := target_of_resolve hc (h.isNone_eq_false b hm.receiver_lives) hresolve
    have hoffer : k₁.offer a (Request.virt t.sourceVa) t.perm = .ok page := by
      rw [offer_same (hturns.record a).space hturns.same, hp]
    have haway : (k₁.env b).mailbox.receiving = false := by
      rw [(hturns.record b).mailbox, hm.away]
    obtain ⟨event, hsend⟩ := send_parks t.value hc htarget hm.ne hoffer haway
    refine ⟨event, ?_⟩
    rw [t.request_send, perform, hsend, (hturns.record b).id]
    rfl

/-! ## The second call -/

/-- The call succeeds: it answers its caller with zero. -/
def succeeds (k : Kernel) : Action → Bool
  | .call number args => decide ((k.perform (.ofWords number args)).result = .ok (.answer 0))
  | _ => false

/-- The message of the environment in `a` has reached the one in `b`, with a page at `dest` if
  there is one; memory is `m` now, and both can run. -/
structure Handed (k k' : Kernel) (a b : Nat) (value : UInt32) (dest : Option VirtAddr)
    (perm : Perm) (m : Memory) : Prop where
  memory : m.Same k'.memory
  senderSpace : (k'.env a).space = (k.env a).space
  receiverSpace : (k'.env b).space = (k.env b).space
  sender : (k'.env a).status = .runnable
  receiver : (k'.env b).status = .runnable
  unparked : (k'.env a).mailbox.parked = none
  inbox : SameInbox { dest, sender := (k.env a).id, value, perm } (k'.env b).mailbox

/-- A meeting is over: both can run, the caller of the last call finds the result zero now, and
  the other one will find it. -/
structure Finished (out : Kernel × Option Resumption) (a b : Nat) (last : EnvId) (other : Nat) :
    Prop where
  sender : (out.1.env a).status = .runnable
  receiver : (out.1.env b).status = .runnable
  unparked : (out.1.env a).mailbox.parked = none
  returns : Returns out.2 last 0
  pending : (out.1.env other).pending = some 0

theorem Handed.of_turns (h : Handed k k₁ a b value dest perm m) (ht : k₁.Turns k') :
    Handed k k' a b value dest perm m where
  memory := h.memory.trans ht.same
  senderSpace := (ht.record a).space.trans h.senderSpace
  receiverSpace := (ht.record b).space.trans h.receiverSpace
  sender := (ht.record a).status.trans h.sender
  receiver := (ht.record b).status.trans h.receiver
  unparked := by rw [(ht.record a).mailbox, h.unparked]
  inbox := by
    rw [(ht.record b).mailbox]
    exact h.inbox

/-- The call that handed the message over answers its caller, and the other one is passed over. -/
theorem Handed.finished {number : UInt32} {args : Args} {last : Nat} (h₁ : Reachable pins k₁)
    (hc : k₁.caller = .ok last) (hne : o ≠ last)
    (hanswer : (k₁.perform (.ofWords number args)).result = .ok (.answer 0))
    (hlast : ((k₁.perform (.ofWords number args)).kernel.env last).status = .runnable)
    (ho : ((k₁.perform (.ofWords number args)).kernel.env o).status = .runnable)
    (hpending : ((k₁.perform (.ofWords number args)).kernel.env o).pending = some 0)
    (hid : ((k₁.perform (.ofWords number args)).kernel.env last).id = id)
    (hh : Handed k (k₁.perform (.ofWords number args)).kernel a b value dest perm m) :
    Handed k (k₁.call number args).1 a b value dest perm m ∧
      Finished (k₁.call number args) a b id o := by
  have hlive := Env.isLive_iff.2 (Or.inl hlast)
  have hflow := flow_of_result hanswer
  have hgo := call_answers h₁.sound hc hlive hflow
  have hpassed :=
    passed_of_answer h₁.sound hc hne (Env.isLive_iff.2 (Or.inl ho)) hlive hflow
  have hh' := hh.of_turns (Turns.call (caller_eq_ok.1 hc).1 number args)
  refine ⟨hh', hh'.sender, hh'.receiver, hh'.unparked, hid ▸ hgo.returns rfl, ?_⟩
  rw [hpassed.record, hpending]

/-- Whoever made the first call is still found under its id. -/
theorem Begun.resolve {blocked : Env} (hb : Begun k k' e o blocked) (hk : k.Sound pins)
    (hl : (k.env e).isLive = true) (hid : blocked.id = (k.env e).id)
    (hlive : blocked.isLive = true) : k'.envs.resolve (k.env e).id = some e :=
  EnvTable.resolve_eq_some_iff.2
    ⟨hk.number e hl, hb.first.isLive.trans hlive, hb.first.id.trans hid⟩

/-- The message parked by the first call is the one that the second call finds. -/
theorem Begun.firstParked {send : ParkedSend} (hm : k.MayMeet a b)
    (hb : Begun k k' a b (parking (k.env a) send)) (htarget : send.target = (k.env b).id) :
    k'.firstParked (k.env b).id = some (a, send) := by
  have hlive : (k'.env a).isLive = true := hb.first.isLive.trans rfl
  have hparked : (k'.env a).mailbox.parked = some send := by
    rw [hb.first.mailbox]
    rfl
  cases hf : k'.firstParked (k.env b).id with
  | none =>
    have hnot := firstParked_eq_none hf a hlive
    rw [Env.sendsTo_iff.2 ⟨send, hparked, htarget⟩] at hnot
    cases hnot
  | some found =>
    obtain ⟨s, send'⟩ := found
    obtain ⟨hl, hparked', htarget'⟩ := firstParked_eq_some hf
    by_cases hs : s = a
    · subst hs
      rw [Option.some.inj (hparked.symm.trans hparked')]
    · have hsame := hb.others s hs
      have hnot := hm.unsent s (hsame.isLive.symm.trans hl)
      rw [← hsame.sendsTo, Env.sendsTo_iff.2 ⟨send', hparked', htarget'⟩] at hnot
      cases hnot

section Second

variable {k₃ : Kernel}

/-- The send completes the meeting if the page can be placed. -/
theorem send_succeeds (h : Reachable pins k) (hm : k.MayMeet a b)
    (hb : Begun k k₃ b a (waiting (k.env b) dest))
    (hp : k.offer a (Request.virt t.sourceVa) t.perm = .ok page)
    (hplace : k.placePage b page dest = .ok (m, perm)) :
    k₃.succeeds (t.send (k.env b).id) = true := by
  have hresolve := hb.resolve h.sound hm.receiver_lives rfl rfl
  have htarget := target_of_resolve hb.caller (h.isNone_eq_false b hm.receiver_lives) hresolve
  have hoffer : k₃.offer a (Request.virt t.sourceVa) t.perm = .ok page := by
    rw [offer_same (hb.others a hm.ne).space hb.memory, hp]
  have hwaits : (k₃.env b).mailbox.receiving = true := by
    rw [hb.first.mailbox]
    rfl
  have hdest : (k₃.env b).mailbox.dest = dest := by
    rw [hb.first.mailbox]
    rfl
  obtain ⟨m', hplace', -⟩ := placePage_same hb.first.space hb.memory hplace
  rw [← hdest] at hplace'
  obtain ⟨k', hsend⟩ := send_delivers t.value hb.caller htarget hm.ne hoffer hwaits hplace'
  refine decide_eq_true ?_
  rw [t.request_send, perform, hsend]
  rfl

/-- The receive completes the meeting if the page can be placed. -/
theorem receive_succeeds (hm : k.MayMeet a b)
    (hb : Begun k k₃ a b (parking (k.env a) { target := (k.env b).id, value := t.value, page }))
    (hd : destination (Request.virt t.destVa) = .ok dest)
    (hp : k.offer a (Request.virt t.sourceVa) t.perm = .ok page)
    (hplace : k.placePage b page dest = .ok (m, perm)) : k₃.succeeds t.receive = true := by
  have hf := hb.firstParked hm rfl
  rw [← (hb.others b hm.ne.symm).id] at hf
  obtain ⟨m', hplace', -⟩ := placePage_same (hb.others b hm.ne.symm).space hb.memory hplace
  rw [← filter_stillMaps hp hb.first.space hb.memory] at hplace'
  obtain ⟨k', hreceive⟩ := receive_takes hb.caller hd hf hplace'
  refine decide_eq_true ?_
  rw [t.request_receive, perform, hreceive]
  rfl

/-- How a meeting ends that the send completes. -/
theorem send_ends (h : Reachable pins k) (hm : k.MayMeet a b) (h₃ : Reachable pins k₃)
    (hb : Begun k k₃ b a (waiting (k.env b) dest))
    (hp : k.offer a (Request.virt t.sourceVa) t.perm = .ok page)
    (hs : k₃.succeeds (t.send (k.env b).id) = true) :
    ∃ m perm, k.placePage b page dest = .ok (m, perm) ∧
      Handed k (k₃.act (t.send (k.env b).id)).1 a b t.value dest perm m ∧
      Finished (k₃.act (t.send (k.env b).id)) a b (k.env a).id b := by
  let k₄ := (k₃.perform (.ofWords 14 (t.sendArgs (k.env b).id))).kernel
  have ha := hb.others a hm.ne
  have hanswer := of_decide_eq_true hs
  have hsend : k₃.send (k.env b).id t.value (Request.virt t.sourceVa) t.perm =
    .ok (k₄, .answer 0) := ofCheck_eq_ok hanswer
  obtain ⟨cur, target, page', hc, htarget, -, hoffer, hcases⟩ := send_eq_ok hsend
  obtain rfl : a = cur := Except.ok.inj (hb.caller.symm.trans hc)
  obtain rfl : b = target := Option.some.inj
    ((hb.resolve h.sound hm.receiver_lives rfl rfl).symm.trans htarget)
  rw [offer_same ha.space hb.memory, hp] at hoffer
  obtain rfl : page = page' := Except.ok.inj hoffer
  rcases hcases with ⟨-, htransfer, -⟩ | ⟨-, -, hflow⟩
  swap
  · cases hflow
  have hdest : (k₃.env b).mailbox.dest = dest := by
    rw [hb.first.mailbox]
    rfl
  rw [hdest] at htransfer
  obtain ⟨perm, hplace, hreceiver, hothers⟩ :=
    transfer_spec (hb.first.isLive.trans rfl) htransfer
  have hsender : k₄.env a = k₃.env a := hothers a hm.ne
  obtain ⟨m, hplace', hsame⟩ := placePage_same hb.first.space.symm hb.memory.symm hplace
  have hhanded : Handed k k₄ a b t.value dest perm m := by
    constructor
    · exact hsame.symm
    · rw [hsender, ha.space]
    · rw [hreceiver]
      exact hb.first.space
    · rw [hsender, ha.status, hm.sender]
    · rw [hreceiver]
      rfl
    · rw [hsender, ha.mailbox, hm.unparked]
    · rw [hreceiver]
      exact ⟨rfl, hdest, ha.id, rfl, rfl⟩
  have hid : (k₄.env a).id = (k.env a).id := by rw [hsender, ha.id]
  exact ⟨m, perm, hplace', hhanded.finished h₃ hb.caller hm.ne.symm hanswer hhanded.sender
    hhanded.receiver (by rw [hreceiver]; rfl) hid⟩

/-- How a meeting ends that the receive completes. -/
theorem receive_ends (hm : k.MayMeet a b) (h₃ : Reachable pins k₃)
    (hb : Begun k k₃ a b (parking (k.env a) { target := (k.env b).id, value := t.value, page }))
    (hd : destination (Request.virt t.destVa) = .ok dest)
    (hp : k.offer a (Request.virt t.sourceVa) t.perm = .ok page)
    (hs : k₃.succeeds t.receive = true) :
    ∃ m perm, k.placePage b page dest = .ok (m, perm) ∧
      Handed k (k₃.act t.receive).1 a b t.value dest perm m ∧
      Finished (k₃.act t.receive) a b (k.env b).id a := by
  let k₄ := (k₃.perform (.ofWords 15 t.receiveArgs)).kernel
  have hfirst := hb.others b hm.ne.symm
  have hanswer := of_decide_eq_true hs
  have hreceive : k₃.receive (Request.virt t.destVa) = .ok (k₄, .answer 0) := ofCheck_eq_ok hanswer
  have hf := hb.firstParked hm rfl
  rw [← hfirst.id] at hf
  obtain ⟨-, -, perm, dest', hd', hplace, hreceiver, hsender, -⟩ :=
    receive_records h₃.met hreceive hb.caller hf
  obtain rfl : dest = dest' := Except.ok.inj (hd.symm.trans hd')
  rw [filter_stillMaps hp hb.first.space hb.memory] at hplace
  obtain ⟨m, hplace', hsame⟩ := placePage_same hfirst.space.symm hb.memory.symm hplace
  have hhanded : Handed k k₄ a b t.value dest perm m := by
    constructor
    · exact hsame.symm
    · rw [hsender]
      exact hb.first.space
    · rw [hreceiver]
      exact hfirst.space
    · rw [hsender]
      rfl
    · rw [hreceiver]
      rfl
    · rw [hsender]
      rfl
    · rw [hreceiver]
      exact ⟨rfl, rfl, hb.first.id, rfl, rfl⟩
  have hid : (k₄.env b).id = (k.env b).id := by
    rw [hreceiver]
    exact hfirst.id
  exact ⟨m, perm, hplace', hhanded.finished h₃ hb.caller hm.ne hanswer hhanded.receiver
    hhanded.sender (by rw [hsender]; rfl) hid⟩

end Second

/-! ## Both orders -/

/-- Nobody can tell two meetings of the same environments apart. -/
structure Agree (k₁ k₂ : Kernel) (a b : Nat) : Prop where
  inbox : SameInbox (k₁.env b).mailbox (k₂.env b).mailbox
  sender : ∀ va, k₂.mapped a va = k₁.mapped a va
  receiver : ∀ va, k₂.mapped b va = k₁.mapped b va
  refCount : ∀ f, k₂.memory.pool.refCount f = k₁.memory.pool.refCount f
  freeCount : k₂.memory.pool.freeCount = k₁.memory.pool.freeCount

theorem Handed.agree {k₂ : Kernel} (h : Handed k k₁ a b value dest perm m)
    (h' : Handed k k₂ a b value dest perm m) : Agree k₁ k₂ a b := by
  have hsame : k₁.memory.Same k₂.memory := h.memory.symm.trans h'.memory
  have hmapped : ∀ e, (k₂.env e).space = (k₁.env e).space →
      ∀ va, k₂.mapped e va = k₁.mapped e va := by
    intro e hspace va
    unfold mapped
    rw [hspace]
    exact congrArg (k₁.env e).space.bind (funext fun s => hsame.lookup s va)
  refine ⟨?_, hmapped a (h'.senderSpace.trans h.senderSpace.symm),
    hmapped b (h'.receiverSpace.trans h.receiverSpace.symm), fun f => by rw [hsame.pool],
    by rw [hsame.pool]⟩
  exact ⟨h'.inbox.receiving.trans h.inbox.receiving.symm, h'.inbox.dest.trans h.inbox.dest.symm,
    h'.inbox.sender.trans h.inbox.sender.symm, h'.inbox.value.trans h.inbox.value.symm,
    h'.inbox.perm.trans h.inbox.perm.symm⟩

theorem destination_of_aligned (h : va.isUser = false ∨ va.isAligned = true) :
    ∃ dest, destination va = .ok dest := by
  unfold destination
  rcases h with h | h
  · rw [h]
    exact ⟨none, rfl⟩
  · split
    · exact ⟨some va, by rw [h]; rfl⟩
    · exact ⟨none, rfl⟩

/-- **Both orders of a meeting agree.**  The transfer succeeds in one order exactly if it does in
  the other, and then the outcome is the same. -/
theorem orders_agree (h : Reachable pins k) (hm : k.MayMeet a b) (t : Terms)
    (hdest : (Request.virt t.destVa).isUser = false ∨ (Request.virt t.destVa).isAligned = true)
    (hoffer : (k.offer a (Request.virt t.sourceVa) t.perm).isOk = true) :
    let received := k.after (t.receiveFirst (k.env a).id (k.env b).id)
    let sent := k.after (t.sendFirst (k.env a).id (k.env b).id)
    received.succeeds (t.send (k.env b).id) = sent.succeeds t.receive ∧
      (received.succeeds (t.send (k.env b).id) = true →
        Agree (received.act (t.send (k.env b).id)).1 (sent.act t.receive).1 a b ∧
          Finished (received.act (t.send (k.env b).id)) a b (k.env a).id b ∧
          Finished (sent.act t.receive) a b (k.env b).id a) := by
  intro received sent
  obtain ⟨dest, hd⟩ := destination_of_aligned hdest
  obtain ⟨page, hp⟩ : ∃ page, k.offer a (Request.virt t.sourceVa) t.perm = .ok page := by
    cases hp : k.offer a (Request.virt t.sourceVa) t.perm with
    | ok page => exact ⟨page, rfl⟩
    | error e => rw [hp] at hoffer; cases hoffer
  have hreceived : Reachable pins received := h.after _
  have hsent : Reachable pins sent := h.after _
  have hb : Begun k received b a _ := begun_receive h hm hd
  have ha : Begun k sent a b _ := begun_send h hm hp
  refine ⟨Bool.eq_iff_iff.2 ⟨fun hs => ?_, fun hs => ?_⟩, fun hs => ?_⟩
  · obtain ⟨m, perm, hplace, -⟩ := send_ends h hm hreceived hb hp hs
    exact receive_succeeds hm ha hd hp hplace
  · obtain ⟨m, perm, hplace, -⟩ := receive_ends hm hsent ha hd hp hs
    exact send_succeeds h hm hb hp hplace
  · obtain ⟨m, perm, hplace, hhanded, hfinished⟩ := send_ends h hm hreceived hb hp hs
    have hs' := receive_succeeds hm ha hd hp hplace
    obtain ⟨m', perm', hplace', hhanded', hfinished'⟩ := receive_ends hm hsent ha hd hp hs'
    obtain ⟨rfl, rfl⟩ := Prod.mk.inj (Except.ok.inj (hplace.symm.trans hplace'))
    exact ⟨hhanded.agree hhanded', hfinished, hfinished'⟩

/-- Two environments, of which the first has a page. -/
def pageReady : Kernel :=
  small.after [.create .none 0 0, .create .none 0 0, .run ⟨4096⟩,
    .call 11 #v[0, 0xA00000, 7, 0, 0]]

/-- The first one offers the page, and the second one wants it somewhere else. -/
def sharePage : Terms := { value := 42, sourceVa := 0xA00000, perm := 7, destVa := 0xC00000 }

theorem mayMeet_pageReady : pageReady.MayMeet 0 1 where
  sender := by decide +kernel
  receiver := by decide +kernel
  ne := by decide
  unparked := by decide +kernel
  away := by decide +kernel
  unsent := firstParked_eq_none (by decide +kernel)

theorem orders_agree_pageReady :
    Agree ((pageReady.after (sharePage.receiveFirst ⟨4096⟩ ⟨4097⟩)).act (sharePage.send ⟨4097⟩)).1
        ((pageReady.after (sharePage.sendFirst ⟨4096⟩ ⟨4097⟩)).act sharePage.receive).1 0 1 ∧
      Returns ((pageReady.after (sharePage.receiveFirst ⟨4096⟩ ⟨4097⟩)).act
        (sharePage.send ⟨4097⟩)).2 ⟨4096⟩ 0 ∧
      Returns ((pageReady.after (sharePage.sendFirst ⟨4096⟩ ⟨4097⟩)).act sharePage.receive).2
        ⟨4097⟩ 0 := by
  have ha : (pageReady.env 0).id = ⟨4096⟩ := by decide +kernel
  have hb : (pageReady.env 1).id = ⟨4097⟩ := by decide +kernel
  have hreach : Reachable [] pageReady := reachable_small _
  obtain ⟨-, hagree⟩ := orders_agree hreach mayMeet_pageReady sharePage (by decide +kernel)
    (by decide +kernel)
  obtain ⟨hsame, hsent, hreceived⟩ := hagree (by decide +kernel)
  rw [ha, hb] at hsame hsent hreceived
  exact ⟨hsame, hsent.returns, hreceived.returns⟩

end Kernel

end Exokernel
