/-
  A blocked call returns when it is over.

  An environment blocks when it receives and finds no message, and when it sends to somebody who
  does not wait.  It goes on when a message comes in, when its target has received, or when its
  target has ended, and it finds the result that says which.

  Blocking is spread over three fields of its record: that it cannot run, that it waits or has a
  message parked, and the result that it will find. `Env.Asleep` ties the first two together.  It
  holds as long as nobody starts the environment over its head, and there are two ways to do
  that: from outside, which `schedules` excludes, and by a parent that sets the status of a
  blocked child, which `rouses` describes.  The second one is open to every parent; the child
  then goes on in the middle of its call, and finds no result.

  The argument follows the environment through a history.  It is asleep until its wait is over,
  then it is awake with a pending result until it is its turn, and then it finds that result.
-/
import Exokernel.Proofs.Messages

namespace Exokernel

/-! ## Blocked environments -/

/-- What a blocked environment waits for. -/
inductive Wait where
  /-- A message from anybody. -/
  | message
  /-- That the target of its own message receives it. -/
  | acceptance (send : ParkedSend)

/-- Does the environment wait for a message? -/
def Wait.receiving : Wait → Bool
  | .message => true
  | .acceptance _ => false

/-- The message that the environment has parked. -/
def Wait.parked : Wait → Option ParkedSend
  | .message => none
  | .acceptance send => some send

namespace Env

/-- Is the environment blocked? -/
def isBlocked (e : Env) : Bool := e.mailbox.receiving || e.mailbox.parked.isSome

/-- The environment is blocked for `w`, and for nothing else, and cannot run. -/
structure Asleep (e : Env) (w : Wait) : Prop where
  status : e.status = .notRunnable
  receiving : e.mailbox.receiving = w.receiving
  parked : e.mailbox.parked = w.parked

/-- The environment is not blocked, and will find the result `value`. -/
structure Awake (e : Env) (value : Int32) : Prop where
  blocked : e.isBlocked = false
  pending : e.pending = some value

theorem isBlocked_congr {e e' : Env} (h : e'.mailbox = e.mailbox) : e'.isBlocked = e.isBlocked := by
  unfold isBlocked
  rw [h]

theorem isBlocked_eq_false {e : Env} :
    e.isBlocked = false ↔ e.mailbox.receiving = false ∧ e.mailbox.parked = none := by
  unfold isBlocked
  rw [Bool.or_eq_false_iff, Option.isSome_eq_false_iff, Option.isNone_iff_eq_none]

theorem Asleep.isLive {e : Env} {w : Wait} (h : e.Asleep w) : e.isLive = true :=
  isLive_iff.2 (Or.inr h.status)

theorem Asleep.isBlocked {e : Env} {w : Wait} (h : e.Asleep w) : e.isBlocked = true := by
  unfold Env.isBlocked
  rw [h.receiving, h.parked]
  cases w <;> rfl

/-- Whoever waits for a message waits for nothing else. -/
theorem Asleep.eq_message {e : Env} {w : Wait} (h : e.Asleep w)
    (hwaits : e.mailbox.receiving = true) : w = .message := by
  rw [h.receiving] at hwaits
  cases w with
  | message => rfl
  | acceptance send => cases hwaits

theorem Asleep.eq_acceptance {e : Env} {w : Wait} {send : ParkedSend} (h : e.Asleep w)
    (hparked : e.mailbox.parked = some send) : w = .acceptance send := by
  rw [h.parked] at hparked
  cases w with
  | message => cases hparked
  | acceptance send' => exact congrArg Wait.acceptance (Option.some.inj hparked)

theorem Asleep.congr {e e' : Env} {w : Wait} (h : e.Asleep w) (status : e'.status = .notRunnable)
    (mailbox : e'.mailbox = e.mailbox) : e'.Asleep w :=
  ⟨status, by rw [mailbox, h.receiving], by rw [mailbox, h.parked]⟩

/-- Whoever had parked a message and is woken is awake. -/
theorem Asleep.awake_of_woken {e e' : Env} {send : ParkedSend} {value : Int32}
    (h : e.Asleep (.acceptance send)) (woken : e.Woken e' value) : e'.Awake value :=
  ⟨isBlocked_eq_false.2 ⟨by rw [woken.mailbox]; exact h.receiving, by rw [woken.mailbox]⟩,
    woken.pending⟩

end Env

namespace Kernel

variable {pins : List Frame} {k k₀ k' : Kernel} {a : Action} {id : EnvId} {e : Nat} {e₀ : Env}
  {w : Wait} {value : Int32} {registers : Registers}

/-! ## Histories -/

/-- The condition holds of every action of a history. -/
def throughout (P : Kernel → Action → Bool) : Kernel → List Action → Bool
  | _, [] => true
  | k, a :: as => P k a && throughout P (k.act a).1 as

/-- The condition holds of some action of a history. -/
def Occurs (P : Kernel → Action → Prop) : Kernel → List Action → Prop
  | _, [] => False
  | k, a :: as => P k a ∨ Occurs P (k.act a).1 as

/-- Nobody is started from outside who cannot run. -/
def schedules (k : Kernel) : Action → Bool
  | .run id => ((k.envs.lookup id).map fun e => decide (e.status = .runnable)).getD true
  | _ => true

/-- Is the action a call that makes the environment with the given id able to run although it is
  blocked? -/
def rouses (k : Kernel) (id : EnvId) : Action → Bool
  | .call number args =>
    match Request.ofWords number args with
    | .setStatus named word =>
      match k.target named .owned with
      | .ok slot => decide ((k.env slot).id = id) && (k.env slot).isBlocked &&
          decide (Status.ofWord? word = some .runnable)
      | .error _ => false
    | _ => false
  | _ => false

/-- By the action `a`, the call of the environment in `e` that waits for `w` is over, with the
  result `value`. -/
inductive Over (k : Kernel) (e : Nat) (a : Action) : Wait → Int32 → Prop where
  /-- The caller sends to it. -/
  | delivered {number : UInt32} {args : Args} {cur : Nat} {id : EnvId} {value : UInt32}
      {va : VirtAddr} {word : UInt32} (call : a = .call number args)
      (request : Request.ofWords number args = .send id value va word)
      (caller : k.caller = .ok cur) (target : k.envs.resolve id = some e)
      (sender : ((k.act a).1.env e).mailbox.sender = (k.env cur).id)
      (content : ((k.act a).1.env e).mailbox.value = value) : Over k e a .message 0
  /-- The target of its message receives it. -/
  | accepted {number : UInt32} {args : Args} {b : Nat} {va : VirtAddr} {send : ParkedSend}
      (call : a = .call number args) (request : Request.ofWords number args = .receive va)
      (caller : k.caller = .ok b) (target : (k.env b).id = send.target)
      (got : Got k (k.act a).1 e b send va) : Over k e a (.acceptance send) 0
  /-- The target of its message ends. -/
  | orphaned {b : Nat} {send : ParkedSend} (before : k.envs.resolve send.target = some b)
      (gone : (k.act a).1.envs.resolve send.target = none) :
      Over k e a (.acceptance send) CallError.badEnv.code

/-- The action is a call by which the environment in `e` blocks. -/
inductive Blocks (k : Kernel) (e : Nat) : Action → Wait → Prop where
  | receives {number : UInt32} {args : Args} {va : VirtAddr} (caller : k.caller = .ok e)
      (request : Request.ofWords number args = .receive va)
      (blocked : (k.perform (.ofWords number args)).result = .ok .reschedule) :
      Blocks k e (.call number args) .message
  | sends {number : UInt32} {args : Args} {id : EnvId} {value : UInt32} {va : VirtAddr}
      {word : UInt32} {send : ParkedSend} (caller : k.caller = .ok e)
      (request : Request.ofWords number args = .send id value va word)
      (blocked : (k.perform (.ofWords number args)).result = .ok .reschedule)
      (parked : ((k.act (.call number args)).1.env e).mailbox.parked = some send) :
      Blocks k e (.call number args) (.acceptance send)

/-- Along a history the environment with the given id, in the slot `e`, is there until the last
  action; it is not its turn before, and then it goes on with these registers. -/
inductive NextTurn (id : EnvId) (e : Nat) : Kernel → List Action → Registers → Prop where
  | now {k : Kernel} {a : Action} {registers : Registers} (lives : k.envs.resolve id = some e)
      (goes : (k.act a).2 = some ⟨id, registers⟩) : NextTurn id e k [a] registers
  | later {k : Kernel} {a : Action} {as : List Action} {registers : Registers}
      (lives : k.envs.resolve id = some e) (passed : ∀ r, (k.act a).2 = some r → r.env ≠ id)
      (rest : NextTurn id e (k.act a).1 as registers) : NextTurn id e k (a :: as) registers

theorem throughout_append {P : Kernel → Action → Bool} : ∀ (as bs : List Action) (k : Kernel),
    throughout P k (as ++ bs) = (throughout P k as && throughout P (k.after as) bs)
  | [], _, _ => by simp [throughout, Kernel.after]
  | a :: as, bs, k => by
    simp only [List.cons_append, throughout, throughout_append as bs (k.act a).1, Bool.and_assoc]
    rfl

/-! ## One action -/

/-- What an action makes of the record of a live environment, before somebody goes on. -/
inductive Stage (k : Kernel) (a : Action) (e : Nat) (e₀ : Env) : Prop where
  | quiet (same : e₀ = k.env e)
  | call {number : UInt32} {args : Args} {cur : Nat} (call : a = .call number args)
      (running : k.current = some cur)
      (fate : Fate k (.ofWords number args) (k.perform (.ofWords number args)) e)
      (record : e₀ = (k.perform (.ofWords number args)).kernel.env e)

/-- An action makes `e₀` of the record of the environment in `e`, which is passed over afterwards
  or goes on because it can run. -/
structure Staged (k : Kernel) (a : Action) (e : Nat) (e₀ : Env) : Prop where
  stage : Stage k a e e₀
  id : e₀.isLive = true → e₀.id = (k.env e).id
  turned : e₀.Turned ((k.act a).1.env e)
  turn : e₀.isLive = true → Passed e e₀ (k.act a).1 (k.act a).2 ∨
    e₀.status = .runnable ∧ GoesOn e e₀ (k.act a).1 (k.act a).2

/-- What an action makes of an environment that does not run. -/
theorem act_staged (h : Reachable pins k) (hl : (k.env e).isLive = true)
    (hcur : k.current ≠ some e) (hs : k.schedules a = true) : ∃ e₀, Staged k a e e₀ := by
  have hk := h.sound
  by_cases hcall : ∃ number args, a = .call number args
  · obtain ⟨number, args, rfl⟩ := hcall
    cases hrun : k.current with
    | none =>
      have hact : k.act (.call number args) = k.reschedule := by simp only [act, call, hrun]
      refine ⟨k.env e, .quiet rfl, fun _ => rfl, ?_, fun _ => ?_⟩ <;> rw [hact]
      · exact (Turns.reschedule k).record e
      · exact reschedule_turn hk.number hl
    | some cur =>
      have hne : e ≠ cur := by
        rintro rfl
        exact hcur hrun
      refine ⟨_, .call rfl hrun (perform_fate hk h.met _ e) rfl, fun hlive => ?_,
        (Turns.call hrun number args).record e, fun hlive => call_others hk hrun hne hlive⟩
      exact ((perform_outcome hk _).persists hl hlive).id
  · have hturn := act_others hk.number hl hcur fun number args ha => hcall ⟨number, args, ha⟩
    refine ⟨k.env e, .quiet rfl, fun _ => rfl, ?_, fun _ => ?_⟩
    · rcases hturn with hpassed | ⟨-, hgoes⟩
      · rw [hpassed.record]
        exact .refl _
      · rw [hgoes.record]
        exact .resumed _
    · rcases hturn with hpassed | ⟨⟨id, rfl, hr⟩, hgoes⟩
      · exact Or.inl hpassed
      · have hrunnable : (k.envs.get e).status = .runnable := by
          simpa [schedules, EnvTable.lookup, hr] using hs
        exact Or.inr ⟨hrunnable, hgoes⟩

/-! ## Asleep and awake -/

theorem caller_ne (hcur : k.current ≠ some e) : k.caller ≠ .ok e := fun hc =>
  hcur (caller_eq_ok.1 hc).1

theorem rouses_eq_true {number : UInt32} {args : Args} {named : EnvId} {word : UInt32}
    (request : Request.ofWords number args = .setStatus named word)
    (target : k.target named .owned = .ok e) (blocked : (k.env e).isBlocked = true)
    (runnable : Status.ofWord? word = some .runnable) :
    k.rouses (k.env e).id (.call number args) = true := by
  simp only [rouses, request, target, blocked, runnable, decide_true, Bool.and_self]

/-- **Whoever is asleep stays asleep until its wait is over**, or ends. -/
theorem stage_asleep (h : Reachable pins k) (hw : (k.env e).Asleep w)
    (hcur : k.current ≠ some e) (hquiet : k.rouses (k.env e).id a = false)
    (hst : Stage k a e e₀) :
    e₀.isLive = false ∨ e₀.Asleep w ∨ ∃ value, Over k e a w value ∧ e₀.Awake value := by
  cases hst with
  | quiet same => exact Or.inr (Or.inl (same ▸ hw))
  | @call number args cur call running fate record =>
    subst call record
    have hturns := Turns.call running number args
    cases fate with
    | kept steady => exact Or.inr (Or.inl (hw.congr (steady.status.trans hw.status) steady.mailbox))
    | setStatus request target named lives record =>
      rw [record]
      rcases lives with rfl | rfl
      · have hroused := rouses_eq_true request target hw.isBlocked named
        exact absurd (hquiet.symm.trans hroused) Bool.false_ne_true
      · exact Or.inr (Or.inl (hw.congr rfl rfl))
    | delivered request caller target waits _ record =>
      obtain rfl := hw.eq_message waits
      have hmailbox := (hturns.record e).mailbox
      rw [record] at hmailbox ⊢
      exact Or.inr (Or.inr ⟨0, .delivered rfl request caller target
        (congrArg Mailbox.sender hmailbox) (congrArg Mailbox.value hmailbox),
        Env.isBlocked_eq_false.2 ⟨rfl, hw.parked⟩, rfl⟩)
    | parks _ caller => exact absurd caller (caller_ne hcur)
    | waits _ caller => exact absurd caller (caller_ne hcur)
    | takes _ caller => exact absurd caller (caller_ne hcur)
    | taken request caller first answer woken =>
      obtain ⟨-, hparked, htarget⟩ := firstParked_eq_some first
      obtain rfl := hw.eq_acceptance hparked
      exact Or.inr (Or.inr ⟨0, .accepted rfl request caller htarget.symm
        (got_of_answer h caller request first answer), hw.awake_of_woken woken⟩)
    | orphaned _ gone _ woken =>
      obtain ⟨send, b, hparked, hb, hgone⟩ := gone
      obtain rfl := hw.eq_acceptance hparked
      exact Or.inr (Or.inr ⟨_, .orphaned hb ((hturns.resolve _).trans hgone),
        hw.awake_of_woken woken⟩)
    | ended dead => exact Or.inl dead
    | joins unused => exact absurd (unused.symm.trans hw.isLive) Bool.false_ne_true

/-- Who has parked nothing is not the sender whose message is found. -/
theorem not_first {target : EnvId} {send : ParkedSend}
    (hunparked : (k.env e).mailbox.parked = none) : k.firstParked target ≠ some (e, send) := by
  intro first
  obtain ⟨-, hparked, -⟩ := firstParked_eq_some first
  rw [hunparked] at hparked
  cases hparked

theorem not_orphaned (hunparked : (k.env e).mailbox.parked = none) : ¬ Orphaned k k' e := by
  rintro ⟨send, b, hparked, -⟩
  rw [hunparked] at hparked
  cases hparked

/-- Whoever is not blocked stays so while others act, and keeps its pending result. -/
theorem stage_awake (hl : (k.env e).isLive = true) (hblocked : (k.env e).isBlocked = false)
    (hcur : k.current ≠ some e) (hst : Stage k a e e₀) :
    e₀.isLive = false ∨ e₀.isBlocked = false ∧ e₀.pending = (k.env e).pending := by
  obtain ⟨hreceiving, hunparked⟩ := Env.isBlocked_eq_false.1 hblocked
  cases hst with
  | quiet same =>
    rw [same]
    exact Or.inr ⟨hblocked, rfl⟩
  | call call running fate record =>
    subst record
    cases fate with
    | kept steady pending =>
      exact Or.inr ⟨(Env.isBlocked_congr steady.mailbox).trans hblocked, pending (caller_ne hcur)⟩
    | setStatus _ _ _ _ record =>
      rw [record]
      exact Or.inr ⟨hblocked, rfl⟩
    | delivered _ _ _ waits => exact absurd (hreceiving.symm.trans waits) Bool.false_ne_true
    | parks _ caller => exact absurd caller (caller_ne hcur)
    | waits _ caller => exact absurd caller (caller_ne hcur)
    | takes _ caller => exact absurd caller (caller_ne hcur)
    | taken _ _ first => exact absurd first (not_first hunparked)
    | orphaned _ gone => exact absurd gone (not_orphaned hunparked)
    | ended dead => exact Or.inl dead
    | joins unused => exact absurd (unused.symm.trans hl) Bool.false_ne_true

/-! ## Nobody is blocked and awake -/

/-- The environment with the given id is asleep and does not run if it is blocked. -/
def Undisturbed (k : Kernel) (id : EnvId) : Prop :=
  ∀ e, k.envs.resolve id = some e → (k.env e).isBlocked = true →
    (∃ w, (k.env e).Asleep w) ∧ k.current ≠ some e

/-- A slot that nobody had is empty after a call, or its environment is new. -/
theorem perform_unused (h : Reachable pins k) (hdead : (k.env e).isLive = false) (r : Request)
    (hl : ((k.perform r).kernel.env e).isLive = true) :
    ((k.perform r).kernel.env e).mailbox = {} := by
  have hno : (k.env e).isLive ≠ true := fun hl => Bool.false_ne_true (hdead.symm.trans hl)
  cases perform_fate h.sound h.met r e with
  | kept steady => exact absurd (steady.isLive.symm.trans hl) hno
  | setStatus _ target => exact absurd (isLive_of_target target) hno
  | delivered _ _ target => exact absurd (EnvTable.resolve_eq_some_iff.1 target).2.1 hno
  | parks _ caller => exact absurd (caller_eq_ok.1 caller).2 hno
  | waits _ caller => exact absurd (caller_eq_ok.1 caller).2 hno
  | takes _ caller => exact absurd (caller_eq_ok.1 caller).2 hno
  | taken _ _ first => exact absurd (firstParked_eq_some first).1 hno
  | orphaned lives => exact absurd lives hno
  | ended dead => exact absurd (dead.symm.trans hl) Bool.false_ne_true
  | joins _ mailbox => exact mailbox

/-- A caller that was not blocked and is so after its call gives way, and sleeps. -/
theorem perform_blocks (h : Reachable pins k) (hc : k.caller = .ok e)
    (hawake : (k.env e).isBlocked = false) {r : Request}
    (hl : ((k.perform r).kernel.env e).isLive = true)
    (hblocked : ((k.perform r).kernel.env e).isBlocked = true) :
    (k.perform r).flow = .reschedule ∧ ∃ w, ((k.perform r).kernel.env e).Asleep w := by
  obtain ⟨hreceiving, hunparked⟩ := Env.isBlocked_eq_false.1 hawake
  have hnot : ∀ {e' : Env}, e'.isBlocked = false → (k.perform r).kernel.env e ≠ e' := by
    rintro e' he' heq
    rw [heq, he'] at hblocked
    cases hblocked
  cases perform_fate h.sound h.met r e with
  | kept steady =>
    exact absurd ((Env.isBlocked_congr steady.mailbox).trans hawake) (by rw [hblocked]; decide)
  | setStatus _ _ _ _ record => exact absurd record (hnot hawake)
  | delivered _ _ _ waits => exact absurd (hreceiving.symm.trans waits) Bool.false_ne_true
  | @parks _ _ _ _ send _ _ blocks record =>
    refine ⟨flow_of_result blocks, .acceptance send, ?_⟩
    rw [record]
    exact ⟨rfl, hreceiving, rfl⟩
  | waits _ _ blocks record =>
    refine ⟨flow_of_result blocks, .message, ?_⟩
    rw [record]
    exact ⟨rfl, rfl, hunparked⟩
  | takes _ _ _ _ record =>
    exact absurd record (hnot (Env.isBlocked_eq_false.2 ⟨rfl, hunparked⟩))
  | taken _ _ first => exact absurd first (not_first hunparked)
  | orphaned _ gone => exact absurd gone (not_orphaned hunparked)
  | ended dead => exact absurd (dead.symm.trans hl) Bool.false_ne_true
  | joins unused => exact absurd (unused.symm.trans (caller_eq_ok.1 hc).2) Bool.false_ne_true

/-- A caller that sleeps when its call gives way is passed over. -/
theorem call_asleep {number : UInt32} {args : Args} (hk : k.Sound pins) (hc : k.caller = .ok e)
    (hflow : (k.perform (.ofWords number args)).flow = .reschedule)
    (hw : ((k.perform (.ofWords number args)).kernel.env e).Asleep w) :
    Passed e ((k.call number args).1.env e) (k.call number args).1 (k.call number args).2 ∧
      ((k.call number args).1.env e).Asleep w := by
  rcases call_givesWay hk hc hw.isLive hflow with hpassed | ⟨hrunnable, -⟩
  · rw [hpassed.record]
    exact ⟨hpassed, hw⟩
  · rw [hw.status] at hrunnable
    cases hrunnable

/-- An environment that is there before and after an action is the same one. -/
theorem act_id (h : Reachable pins k) (hl : (k.env e).isLive = true)
    (hl' : ((k.act a).1.env e).isLive = true) : ((k.act a).1.env e).id = (k.env e).id := by
  rcases k.act_cases a e with ⟨number, args, rfl⟩ | hturned | ⟨hdead, -⟩
  · cases hrun : k.current with
    | none => exact ((Turns.call_of_none hrun number args).record e).id
    | some cur =>
      have hturned := (Turns.call hrun number args).record e
      have hp := (perform_outcome h.sound _).persists hl (hturned.isLive.symm.trans hl')
      exact hturned.id.trans hp.id
  · exact hturned.id
  · exact absurd (hdead.symm.trans hl) Bool.false_ne_true

/-- Whoever gets a slot that nobody had is not blocked. -/
theorem act_newcomer (h : Reachable pins k) (hdead : (k.env e).isLive = false)
    (hl' : ((k.act a).1.env e).isLive = true) : ((k.act a).1.env e).isBlocked = false := by
  have hnew : ¬ (k.env e).Turned ((k.act a).1.env e) := fun hturned =>
    Bool.false_ne_true ((hturned.isLive.trans hdead).symm.trans hl')
  have hempty : ((k.act a).1.env e).mailbox = {} := by
    rcases k.act_cases a e with ⟨number, args, rfl⟩ | hturned | ⟨-, hempty⟩
    · cases hcur : k.current with
      | none => exact absurd ((Turns.call_of_none hcur number args).record e) hnew
      | some cur =>
        have hturned := (Turns.call hcur number args).record e
        exact hturned.mailbox.trans (perform_unused h hdead _ (hturned.isLive.symm.trans hl'))
    · exact absurd hturned hnew
    · exact hempty
  exact (Env.isBlocked_congr (e := {}) hempty).trans rfl

/-- Whoever is awake while it acts itself sleeps afterwards if it is blocked. -/
theorem act_blocks (h : Reachable pins k) (hc : k.caller = .ok e)
    (hawake : (k.env e).isBlocked = false) (hl' : ((k.act a).1.env e).isLive = true)
    (hblocked : ((k.act a).1.env e).isBlocked = true) :
    (∃ w, ((k.act a).1.env e).Asleep w) ∧ (k.act a).1.current ≠ some e := by
  rcases k.act_cases a e with ⟨number, args, rfl⟩ | hturned | ⟨hdead, -⟩
  · have hturned := (Turns.call (caller_eq_ok.1 hc).1 number args).record e
    obtain ⟨hflow, w, hw⟩ := perform_blocks h hc hawake (hturned.isLive.symm.trans hl')
      ((Env.isBlocked_congr hturned.mailbox).symm.trans hblocked)
    obtain ⟨hpassed, hw'⟩ := call_asleep h.sound hc hflow hw
    exact ⟨⟨w, hw'⟩, hpassed.current⟩
  · rw [Env.isBlocked_congr hturned.mailbox, hawake] at hblocked
    cases hblocked
  · exact absurd (hdead.symm.trans (caller_eq_ok.1 hc).2) Bool.false_ne_true

/-- **Nobody is blocked and awake**: that is kept by every action that starts nobody over its
  head. -/
theorem Undisturbed.act (hu : k.Undisturbed id) (h : Reachable pins k)
    (hs : k.schedules a = true) (hquiet : k.rouses id a = false) :
    (k.act a).1.Undisturbed id := by
  intro e hresolve hblocked
  obtain ⟨hslot, hl', hid'⟩ := EnvTable.resolve_eq_some_iff.1 hresolve
  have hl' : ((k.act a).1.env e).isLive = true := hl'
  have hnot : ((k.act a).1.env e).isBlocked ≠ false := by
    rw [hblocked]
    exact Bool.false_ne_true.symm
  by_cases hl : (k.env e).isLive = true
  swap
  · exact absurd (act_newcomer h (Bool.eq_false_iff.2 hl) hl') hnot
  have hid : (k.env e).id = id := (act_id h hl hl').symm.trans hid'
  have hthere : k.envs.resolve id = some e := EnvTable.resolve_eq_some_iff.2 ⟨hslot, hl, hid⟩
  by_cases hcur : k.current = some e
  · -- its own action; it was awake, because it runs
    have hawake : (k.env e).isBlocked = false :=
      Bool.eq_false_iff.2 fun hb => (hu e hthere hb).2 hcur
    exact act_blocks h (caller_eq_ok.2 ⟨hcur, hl⟩) hawake hl' hblocked
  · obtain ⟨e₀, hst⟩ := act_staged h hl hcur hs
    have hlive : e₀.isLive = true := hst.turned.isLive.symm.trans hl'
    have hstill : e₀.isBlocked ≠ false := by
      rwa [← Env.isBlocked_congr hst.turned.mailbox]
    by_cases hb : (k.env e).isBlocked = true
    · obtain ⟨⟨w, hw⟩, -⟩ := hu e hthere hb
      rcases stage_asleep h hw hcur (hid.symm ▸ hquiet) hst.stage with hdead | hw₀ | ⟨_, -, hawake⟩
      · exact absurd (hdead.symm.trans hlive) Bool.false_ne_true
      · refine ⟨⟨w, hw₀.congr (hst.turned.status.trans hw₀.status) hst.turned.mailbox⟩, ?_⟩
        rcases hst.turn hlive with hpassed | ⟨hrunnable, -⟩
        · exact hpassed.current
        · rw [hw₀.status] at hrunnable
          cases hrunnable
      · exact absurd hawake.blocked hstill
    · rcases stage_awake hl (Bool.eq_false_iff.2 hb) hcur hst.stage with hdead | ⟨hawake, -⟩
      · exact absurd (hdead.symm.trans hlive) Bool.false_ne_true
      · exact absurd hawake hstill

/-! ## Falling asleep -/

/-- An environment that blocks is passed over, and sleeps. -/
theorem blocks_asleep (hu : k.Undisturbed id) (h : Reachable pins k)
    (hthere : k.envs.resolve id = some e) (hb : Blocks k e a w) :
    Passed e ((k.act a).1.env e) (k.act a).1 (k.act a).2 ∧ ((k.act a).1.env e).Asleep w := by
  -- whoever makes a call runs, so it was not blocked before
  have hawake : k.caller = .ok e →
      (k.env e).mailbox.receiving = false ∧ (k.env e).mailbox.parked = none := fun hc =>
    Env.isBlocked_eq_false.1 (Bool.eq_false_iff.2 fun hblocked =>
      (hu e hthere hblocked).2 (caller_eq_ok.1 hc).1)
  cases hb with
  | @receives number args va caller request blocked =>
    have hflow := flow_of_result blocked
    rw [request] at blocked
    obtain ⟨cur, dest, hc, -, hcases⟩ := receive_eq_ok (ofCheck_eq_ok blocked)
    obtain rfl : e = cur := Except.ok.inj (caller.symm.trans hc)
    rcases hcases with ⟨-, -, -, -, -, -, hanswer⟩ | ⟨-, ⟨event, hkernel⟩, -⟩
    · cases hanswer
    have hrecord : (k.perform (.ofWords number args)).kernel.env e = waiting (k.env e) dest := by
      rw [request, perform, hkernel, env_note, env_updateEnv_self _ (caller_eq_ok.1 caller).2]
    refine call_asleep h.sound caller hflow ?_
    rw [hrecord]
    exact ⟨rfl, rfl, (hawake caller).2⟩
  | @sends number args target value va word send caller request blocked parked =>
    have hflow := flow_of_result blocked
    rw [request] at blocked
    obtain ⟨cur, slot, page, hc, -, -, -, hcases⟩ := send_eq_ok (ofCheck_eq_ok blocked)
    obtain rfl : e = cur := Except.ok.inj (caller.symm.trans hc)
    rcases hcases with ⟨-, -, hanswer⟩ | ⟨-, ⟨event, hkernel⟩, -⟩
    · cases hanswer
    have hrecord : (k.perform (.ofWords number args)).kernel.env e =
        parking (k.env e) { target := (k.env slot).id, value, page } := by
      rw [request, perform, hkernel, env_note, env_updateEnv_self _ (caller_eq_ok.1 caller).2]
    have hasleep : ((k.perform (.ofWords number args)).kernel.env e).Asleep
        (.acceptance { target := (k.env slot).id, value, page }) := by
      rw [hrecord]
      exact ⟨rfl, (hawake caller).1, rfl⟩
    obtain ⟨hpassed, hw⟩ := call_asleep h.sound caller hflow hasleep
    exact ⟨hpassed, hw.eq_acceptance parked ▸ hw⟩

/-! ## Histories of a blocked environment -/

/-- It is not the turn of the environment with the given id, in the slot `e`. -/
structure Bides (id : EnvId) (e : Nat) (k' : Kernel) (next : Option Resumption) : Prop where
  current : k'.current ≠ some e
  next : ∀ r, next = some r → r.env ≠ id

/-- The turn of whoever is awake after what somebody else did, and is still there. -/
theorem staged_awake (hst : Staged k a e e₀) (hl : e₀.isLive = true) (hid : e₀.id = id)
    (hawake : e₀.Awake value) :
    Returns (k.act a).2 id value ∨
      Bides id e (k.act a).1 (k.act a).2 ∧ ((k.act a).1.env e).Awake value := by
  subst hid
  rcases hst.turn hl with hpassed | ⟨-, hgoes⟩
  · exact Or.inr ⟨⟨hpassed.current, hpassed.next⟩, hpassed.record ▸ hawake⟩
  · exact Or.inl (hgoes.returns hawake.pending)

/-- What somebody else does to an environment that is there before and after it. -/
theorem staged_of_lives (h : Reachable pins k) (hthere : k.envs.resolve id = some e)
    (hcur : k.current ≠ some e) (hs : k.schedules a = true)
    (hafter : (k.act a).1.envs.resolve id = some e) :
    ∃ e₀, Staged k a e e₀ ∧ e₀.isLive = true ∧ e₀.id = id := by
  obtain ⟨-, hl, -⟩ := EnvTable.resolve_eq_some_iff.1 hthere
  obtain ⟨-, hl', hid'⟩ := EnvTable.resolve_eq_some_iff.1 hafter
  obtain ⟨e₀, hst⟩ := act_staged h hl hcur hs
  exact ⟨e₀, hst, hst.turned.isLive.symm.trans hl', hst.turned.id.symm.trans hid'⟩

/-- **Whoever is awake stays so until it is its turn**, and then it finds its result. -/
theorem awake_step (h : Reachable pins k) (hthere : k.envs.resolve id = some e)
    (hcur : k.current ≠ some e) (hs : k.schedules a = true)
    (hafter : (k.act a).1.envs.resolve id = some e) (hawake : (k.env e).Awake value) :
    Returns (k.act a).2 id value ∨
      Bides id e (k.act a).1 (k.act a).2 ∧ ((k.act a).1.env e).Awake value := by
  obtain ⟨e₀, hst, hl, hid⟩ := staged_of_lives h hthere hcur hs hafter
  obtain ⟨-, hl₀, -⟩ := EnvTable.resolve_eq_some_iff.1 hthere
  rcases stage_awake hl₀ hawake.blocked hcur hst.stage with hdead | ⟨hblocked, hpending⟩
  · exact absurd (hdead.symm.trans hl) Bool.false_ne_true
  · exact staged_awake hst hl hid ⟨hblocked, hpending.trans hawake.pending⟩

/-- **Whoever sleeps does so until its wait is over**, and then it finds how the wait ended when it
  is its turn, now or later. -/
theorem asleep_step (h : Reachable pins k) (hthere : k.envs.resolve id = some e)
    (hcur : k.current ≠ some e) (hs : k.schedules a = true) (hquiet : k.rouses id a = false)
    (hafter : (k.act a).1.envs.resolve id = some e) (hw : (k.env e).Asleep w) :
    Bides id e (k.act a).1 (k.act a).2 ∧ ((k.act a).1.env e).Asleep w ∨
      ∃ value, Over k e a w value ∧ (Returns (k.act a).2 id value ∨
        Bides id e (k.act a).1 (k.act a).2 ∧ ((k.act a).1.env e).Awake value) := by
  obtain ⟨e₀, hst, hl, hid⟩ := staged_of_lives h hthere hcur hs hafter
  obtain ⟨-, -, hid₀⟩ := EnvTable.resolve_eq_some_iff.1 hthere
  have hid₀ : (k.env e).id = id := hid₀
  rcases stage_asleep h hw hcur (hid₀.symm ▸ hquiet) hst.stage with
    hdead | hw₀ | ⟨value, ho, hawake⟩
  · exact absurd (hdead.symm.trans hl) Bool.false_ne_true
  · rcases hst.turn hl with hpassed | ⟨hrunnable, -⟩
    · exact Or.inl ⟨⟨hpassed.current, hid ▸ hpassed.next⟩, hpassed.record ▸ hw₀⟩
    · rw [hw₀.status] at hrunnable
      cases hrunnable
  · exact Or.inr ⟨value, ho, staged_awake hst hl hid hawake⟩

theorem NextTurn.lives {as : List Action} (h : NextTurn id e k as registers) :
    k.envs.resolve id = some e := by
  cases h with
  | now lives => exact lives
  | later lives => exact lives

/-- Whoever goes on is there. -/
theorem lives_of_next (hk : k.Sound pins) (hthere : k.envs.resolve id = some e)
    (goes : (k.act a).2 = some ⟨id, registers⟩) : (k.act a).1.envs.resolve id = some e := by
  obtain ⟨slot, hl, hid, -⟩ := (settled_act k a).record goes
  have hk' : (k.act a).1.Sound pins := moves_sound (act_moves hk.toHoused a) hk
  have hid : ((k.act a).1.env slot).id = id := hid
  have hslot : (k.act a).1.envs.resolve id = some slot := hid ▸ hk'.resolve_id hl
  -- the id says which slot it is
  have hsame : e = slot :=
    (EnvTable.resolve_eq_some_iff.1 hthere).1.symm.trans (EnvTable.resolve_eq_some_iff.1 hslot).1
  rw [hsame]
  exact hslot

theorem Returns.result {next : Option Resumption} (h : Returns next id value)
    (hnext : next = some ⟨id, registers⟩) : registers.result = value := by
  obtain ⟨registers', hnext', hresult⟩ := h
  obtain rfl : registers = registers' := by simpa [hnext] using hnext'
  exact hresult

/-- Whoever is awake finds its result at its next turn. -/
theorem awake_returns {as : List Action} (hnext : NextTurn id e k as registers)
    (h : Reachable pins k) (hs : throughout schedules k as = true)
    (hcur : k.current ≠ some e) (hawake : (k.env e).Awake value) : registers.result = value := by
  induction hnext with
  | now lives goes =>
    obtain ⟨hs, -⟩ := Bool.and_eq_true_iff.1 hs
    rcases awake_step h lives hcur hs (lives_of_next h.sound lives goes) hawake with
      hreturns | ⟨hbides, -⟩
    · exact hreturns.result goes
    · exact absurd rfl (hbides.next _ goes)
  | later lives passed rest ih =>
    obtain ⟨hs, hrest⟩ := Bool.and_eq_true_iff.1 hs
    rcases awake_step h lives hcur hs rest.lives hawake with ⟨_, hnext, -⟩ | ⟨hbides, hawake'⟩
    · exact absurd rfl (passed _ hnext)
    · exact ih (h.act _) hrest hbides.current hawake'

/-- Whoever sleeps finds at its next turn how its wait has ended since. -/
theorem asleep_returns {as : List Action} (hnext : NextTurn id e k as registers)
    (h : Reachable pins k) (hs : throughout schedules k as = true)
    (hquiet : throughout (fun k a => !k.rouses id a) k as = true)
    (hcur : k.current ≠ some e) (hw : (k.env e).Asleep w) :
    Occurs (fun k a => Over k e a w registers.result) k as := by
  induction hnext with
  | now lives goes =>
    obtain ⟨hs, -⟩ := Bool.and_eq_true_iff.1 hs
    obtain ⟨hquiet, -⟩ := Bool.and_eq_true_iff.1 hquiet
    rcases asleep_step h lives hcur hs ((Bool.not_eq_true' _).mp hquiet)
        (lives_of_next h.sound lives goes) hw with
      ⟨hbides, -⟩ | ⟨value, hover, hreturns | ⟨hbides, -⟩⟩
    · exact absurd rfl (hbides.next _ goes)
    · exact Or.inl (hreturns.result goes ▸ hover)
    · exact absurd rfl (hbides.next _ goes)
  | later lives passed rest ih =>
    obtain ⟨hs, hrest⟩ := Bool.and_eq_true_iff.1 hs
    obtain ⟨hquiet, hquietRest⟩ := Bool.and_eq_true_iff.1 hquiet
    rcases asleep_step h lives hcur hs ((Bool.not_eq_true' _).mp hquiet) rest.lives hw with
      ⟨hbides, hw'⟩ | ⟨value, hover, ⟨_, hnext, -⟩ | ⟨hbides, hawake⟩⟩
    · exact Or.inr (ih (h.act _) hrest hquietRest hbides.current hw')
    · exact absurd rfl (passed _ hnext)
    · exact Or.inl (awake_returns rest (h.act _) hrest hbides.current hawake ▸ hover)

/-- In the beginning nobody is there. -/
theorem Undisturbed.boot (h : k.Booted pins) : k.Undisturbed id := by
  intro e hthere
  obtain ⟨-, hl, -⟩ := EnvTable.resolve_eq_some_iff.1 hthere
  have hl : (k.env e).isLive = true := hl
  rw [h.env] at hl
  cases hl

theorem Undisturbed.after : ∀ (as : List Action) {k : Kernel}, k.Undisturbed id →
    Reachable pins k → throughout schedules k as = true →
    throughout (fun k a => !k.rouses id a) k as = true → (k.after as).Undisturbed id
  | [], _, hu, _, _, _ => hu
  | a :: as, k, hu, h, hs, hquiet => by
    obtain ⟨hs, hrest⟩ := Bool.and_eq_true_iff.1 hs
    obtain ⟨hquiet, hquietRest⟩ := Bool.and_eq_true_iff.1 hquiet
    exact (hu.act h hs ((Bool.not_eq_true' _).mp hquiet)).after as (h.act a) hrest hquietRest

/-- **A blocked call returns when it is over.**  In every history in which nobody is started over
  its head, whoever blocks does not go on before its wait is over, and finds how it ended. -/
theorem blocked_until_over {past future : List Action} (h : k.Booted pins)
    (hs : throughout schedules k (past ++ a :: future) = true)
    (hquiet : throughout (fun k a => !k.rouses id a) k (past ++ a :: future) = true)
    (hthere : (k.after past).envs.resolve id = some e) (hblocks : Blocks (k.after past) e a w)
    (hnext : NextTurn id e ((k.after past).act a).1 future registers) :
    (∀ r, ((k.after past).act a).2 = some r → r.env ≠ id) ∧
      Occurs (fun k a => Over k e a w registers.result) ((k.after past).act a).1 future := by
  have hreach : Reachable pins (k.after past) := (Reachable.booted h).after past
  rw [throughout_append, Bool.and_eq_true] at hs hquiet
  obtain ⟨hs, hsNow⟩ := hs
  obtain ⟨hquiet, hquietNow⟩ := hquiet
  have hu : (k.after past).Undisturbed id := (Undisturbed.boot h).after past (.booted h) hs hquiet
  obtain ⟨hpassed, hw⟩ := blocks_asleep hu hreach hthere hblocks
  have hid : (((k.after past).act a).1.env e).id = id :=
    (EnvTable.resolve_eq_some_iff.1 hnext.lives).2.2
  refine ⟨hid ▸ hpassed.next, ?_⟩
  exact asleep_returns hnext (hreach.act a) (Bool.and_eq_true_iff.1 hsNow).2
    (Bool.and_eq_true_iff.1 hquietNow).2 hpassed.current hw

/-! ## Two histories -/

/-- Two environments, of which the first runs. -/
def twoThere : List Action := [.create .none 0 0, .create .none 0 0, .run ⟨4096⟩]

/-- The running environment receives a word. -/
def awaitWord : Action := .call 15 #v[0xEEC00000, 0, 0, 0, 0]

theorem request_awaitWord :
    Request.ofWords 15 #v[0xEEC00000, 0, 0, 0, 0] = .receive (Request.virt 0xEEC00000) := rfl

/-- The running environment sends a word to the first one. -/
def sendWord : Action := .call 14 #v[4096, 42, 0xEEC00000, 0, 0]

/-- The running environment lets others run. -/
def giveWay : Action := .call 5 (.replicate 5 0)

theorem passed_of_next {next : Option Resumption} (other : EnvId)
    (h : next.map Resumption.env = some other) (hne : other ≠ id) (r : Resumption)
    (hr : next = some r) : r.env ≠ id := by
  rw [hr] at h
  obtain rfl : r.env = other := Option.some.inj h
  exact hne

theorem nextTurn_giveWay :
    ∃ registers, NextTurn ⟨4096⟩ 0 ((small.after twoThere).act awaitWord).1 [sendWord, giveWay]
      registers ∧ registers.result = 0 :=
  ⟨((small.after (twoThere ++ [awaitWord, sendWord, giveWay])).env 0).registers,
    .later (by decide +kernel)
      (passed_of_next ⟨4097⟩ (by decide +kernel) (by decide))
      (.now (by decide +kernel) (by decide +kernel)), by decide +kernel⟩

/-- The first environment waits for a word, and goes on after the second has sent one. -/
theorem blocked_until_over_giveWay :
    ∃ registers, NextTurn ⟨4096⟩ 0 ((small.after twoThere).act awaitWord).1 [sendWord, giveWay]
        registers ∧ registers.result = 0 ∧
      (∀ r, ((small.after twoThere).act awaitWord).2 = some r → r.env ≠ ⟨4096⟩) ∧
      Occurs (fun k a => Over k 0 a .message registers.result)
        ((small.after twoThere).act awaitWord).1 [sendWord, giveWay] := by
  obtain ⟨registers, hnext, hresult⟩ := nextTurn_giveWay
  have hblocks : Blocks (small.after twoThere) 0 awaitWord .message :=
    .receives (by decide +kernel) request_awaitWord (by decide +kernel)
  exact ⟨registers, hnext, hresult, blocked_until_over booted_small (by decide +kernel)
    (by decide +kernel) (by decide +kernel) hblocks hnext⟩

/-- A parent starts its child.  In the registers of the child is the number of the call that it is
  about to make. -/
def childStarted : List Action :=
  [.create .none 0 0, .run ⟨4096⟩, .call 6 (.replicate 5 0), .call 7 #v[4097, 2, 0, 0, 0],
    .run ⟨4097⟩, .capture { eax := 15 }]

/-- The running environment lets the second one run. -/
def rouseChild : Action := .call 7 #v[4097, 2, 0, 0, 0]

/-- The child waits for a word, its parent lets it run, and it goes on with no result: what it
  finds is the number of its call.  Nobody has sent anything, and it still waits. -/
theorem roused_returns_early :
    throughout schedules small (childStarted ++ awaitWord :: [rouseChild, giveWay]) = true ∧
      Blocks (small.after childStarted) 1 awaitWord .message ∧
      (∃ registers, NextTurn ⟨4097⟩ 1 ((small.after childStarted).act awaitWord).1
        [rouseChild, giveWay] registers ∧ registers.result = 15) ∧
      ((small.after (childStarted ++ [awaitWord, rouseChild, giveWay])).env 1).mailbox.receiving =
        true := by
  refine ⟨by decide +kernel, ?_, ?_, by decide +kernel⟩
  · exact .receives (by decide +kernel) request_awaitWord (by decide +kernel)
  · exact ⟨((small.after (childStarted ++ [awaitWord, rouseChild, giveWay])).env 1).registers,
      .later (by decide +kernel)
        (passed_of_next ⟨4096⟩ (by decide +kernel) (by decide))
        (.now (by decide +kernel) (by decide +kernel)), by decide +kernel⟩

end Kernel

end Exokernel
