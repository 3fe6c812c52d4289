/-
  Whose turn it is.

  A call ends with a choice: the caller goes on, or the next environment does that can run, or
  nobody.  Whoever goes on finds its pending result in its return register; to everybody else
  nothing happens at all.  `GoesOn` and `Passed` say that of one environment, and `Turn` lists the
  ways in which a call can end for it.  That every call ends in one of them rests on little: ids
  tell slots, and the caller is found under its own (`turn_of_dispatch`).

  `Turns` is the view from further away.  Registers, pending results and counts of runs move
  while environments take turns, and nothing else in the kernel does, so whatever is said of
  mailboxes, ids and mappings before a turn is true after it.
-/
import Exokernel.Proofs.Isolation
import Exokernel.Proofs.Rights

namespace Exokernel

/-- From `e` to `e'`, an environment had turns: only registers, pending result and the count of
  runs may differ. -/
structure Env.Turned (e e' : Env) : Prop where
  id : e'.id = e.id
  parent : e'.parent = e.parent
  status : e'.status = e.status
  space : e'.space = e.space
  heapBreak : e'.heapBreak = e.heapBreak
  upcall : e'.upcall = e.upcall
  mailbox : e'.mailbox = e.mailbox

namespace Env.Turned

variable {e e' e'' : Env}

theorem refl (e : Env) : e.Turned e := ⟨rfl, rfl, rfl, rfl, rfl, rfl, rfl⟩

theorem trans (h : e.Turned e') (h' : e'.Turned e'') : e.Turned e'' where
  id := h'.id.trans h.id
  parent := h'.parent.trans h.parent
  status := h'.status.trans h.status
  space := h'.space.trans h.space
  heapBreak := h'.heapBreak.trans h.heapBreak
  upcall := h'.upcall.trans h.upcall
  mailbox := h'.mailbox.trans h.mailbox

theorem resumed (e : Env) : e.Turned e.resumed := ⟨rfl, rfl, rfl, rfl, rfl, rfl, rfl⟩

theorem isLive (h : e.Turned e') : e'.isLive = e.isLive := by
  unfold Env.isLive
  rw [h.status]

theorem sendsTo (h : e.Turned e') (target : EnvId) : e'.sendsTo target = e.sendsTo target := by
  unfold Env.sendsTo
  rw [h.mailbox]

end Env.Turned

/-- What a reply makes of the caller: a failed call is answered with the code of its error. -/
def Reply.flow (reply : Reply) : Flow :=
  match reply.result with
  | .ok flow => flow
  | .error e => .answer e.code

namespace Kernel

variable {pins : List Frame} {k k' k'' : Kernel} {cur e slot : Nat} {next : Option Resumption}

/-! ## Everybody at once -/

/-- From `k` to `k'`, environments take turns. -/
structure Turns (k k' : Kernel) : Prop where
  record : ∀ e, (k.env e).Turned (k'.env e)
  pool : k'.memory.pool = k.memory.pool
  spaces : k'.memory.spaces = k.memory.spaces
  console : k'.console = k.console
  config : k'.config = k.config
  capacity : k'.envs.capacity = k.envs.capacity

namespace Turns

theorem refl (k : Kernel) : k.Turns k := ⟨fun _ => .refl _, rfl, rfl, rfl, rfl, rfl⟩

theorem trans (h : k.Turns k') (h' : k'.Turns k'') : k.Turns k'' where
  record e := (h.record e).trans (h'.record e)
  pool := h'.pool.trans h.pool
  spaces := h'.spaces.trans h.spaces
  console := h'.console.trans h.console
  config := h'.config.trans h.config
  capacity := h'.capacity.trans h.capacity

theorem updateEnv {change : Env → Env} (h : (k.env slot).Turned (change (k.env slot))) :
    k.Turns (k.updateEnv slot change) := by
  refine ⟨fun e => ?_, rfl, rfl, rfl, rfl, capacity_updateEnv change⟩
  by_cases he : e = slot
  · subst he
    rcases Nat.lt_or_ge e k.envs.capacity with hlt | hge
    · rw [env_updateEnv k e e change hlt, if_pos rfl]
      exact h
    · -- beyond the table there is nothing to write
      have hnone : ∀ t : EnvTable, t.capacity ≤ e → t.get e = {} := fun t => t.get_of_le
      rw [Kernel.env, Kernel.env, hnone _ hge, hnone _ (by rw [capacity_updateEnv]; exact hge)]
      exact .refl _
  · rw [env_updateEnv_of_ne change he]
    exact .refl _

theorem activate (space : Option SpaceId) : k.Turns (k.activate space) := by
  cases space <;> exact ⟨fun _ => .refl _, rfl, rfl, rfl, rfl, rfl⟩

theorem resume (k : Kernel) (slot : Nat) : k.Turns (k.resume slot).1 := by
  have hrecord : k.Turns (k.updateEnv slot fun _ => (k.env slot).resumed) :=
    updateEnv (.resumed _)
  have hspace := hrecord.trans (activate (k.env slot).resumed.space)
  exact hspace.trans ⟨fun _ => .refl _, rfl, rfl, rfl, rfl, rfl⟩

theorem reschedule (k : Kernel) : k.Turns k.reschedule.1 := by
  unfold Kernel.reschedule
  split
  · rename_i slot _
    exact .resume k slot
  · exact ⟨fun _ => .refl _, rfl, rfl, rfl, rfl, rfl⟩

theorem proceed (k : Kernel) (slot : Nat) (flow : Flow) : k.Turns (k.proceed slot flow).1 := by
  cases flow with
  | answer value =>
    have hanswer : k.Turns (k.updateEnv slot fun e => { e with pending := some value }) :=
      updateEnv ⟨rfl, rfl, rfl, rfl, rfl, rfl, rfl⟩
    exact hanswer.trans (.resume _ slot)
  | resume => exact .resume k slot
  | reschedule => exact .reschedule k

/-- A call is what it does and then a turn. -/
theorem call (hcur : k.current = some cur) (number : UInt32) (args : Args) :
    (k.perform (.ofWords number args)).kernel.Turns (k.call number args).1 := by
  obtain ⟨log, hlog⟩ := k.dispatch_fst number args
  have hquiet : (k.perform (.ofWords number args)).kernel.Turns (k.dispatch number args).1 := by
    rw [hlog]
    exact ⟨fun _ => .refl _, rfl, rfl, rfl, rfl, rfl⟩
  rw [Kernel.call, hcur]
  simp only
  split
  · exact hquiet.trans (.proceed _ _ _)
  · exact hquiet.trans (.reschedule _)

/-- A call of nobody is only a turn. -/
theorem call_of_none (hcur : k.current = none) (number : UInt32) (args : Args) :
    k.Turns (k.call number args).1 := by
  rw [Kernel.call, hcur]
  exact .reschedule k

theorem capture (k : Kernel) (registers : Registers) : k.Turns (k.capture registers) := by
  unfold Kernel.capture
  split
  · split
    · exact updateEnv ⟨rfl, rfl, rfl, rfl, rfl, rfl, rfl⟩
    · exact .refl k
  · exact .refl k

/-- To save registers is no turn of anybody. -/
theorem capture_quiet (k : Kernel) (registers : Registers) :
    (k.capture registers).current = k.current ∧ (k.capture registers).memory = k.memory := by
  unfold Kernel.capture
  split
  · split <;> exact ⟨rfl, rfl⟩
  · exact ⟨rfl, rfl⟩

variable (h : k.Turns k')

include h

theorem isLive (e : Nat) : (k'.env e).isLive = (k.env e).isLive := (h.record e).isLive

theorem resolve (id : EnvId) : k'.envs.resolve id = k.envs.resolve id := by
  unfold EnvTable.resolve
  rw [show (k'.envs.get id.slot).isLive = (k.envs.get id.slot).isLive from h.isLive id.slot,
    show (k'.envs.get id.slot).id = (k.envs.get id.slot).id from (h.record id.slot).id]

theorem same : k.memory.Same k'.memory := ⟨h.pool, h.spaces⟩

theorem lookup (s : SpaceId) (va : VirtAddr) : k'.memory.lookup s va = k.memory.lookup s va :=
  h.same.lookup s va

theorem mapped (e : Nat) (va : VirtAddr) : k'.mapped e va = k.mapped e va := by
  unfold Kernel.mapped
  rw [(h.record e).space]
  exact congrArg (k.env e).space.bind (funext fun s => h.lookup s va)

theorem sendersTo (target : EnvId) : k'.envs.sendersTo target = k.envs.sendersTo target := by
  have hlive : k'.envs.live = k.envs.live := by
    unfold EnvTable.live
    rw [h.capacity]
    exact List.filter_congr fun slot _ => h.isLive slot
  unfold EnvTable.sendersTo
  rw [hlive]
  exact List.filter_congr fun slot _ => (h.record slot).sendsTo target

theorem firstParked (target : EnvId) : k'.firstParked target = k.firstParked target := by
  unfold Kernel.firstParked
  rw [h.sendersTo]
  cases k.envs.sendersTo target with
  | nil => rfl
  | cons slot rest => simp only [(h.record slot).mailbox]

end Turns

/-! ## One environment -/

/-- It is the turn of the environment in `slot`, whose record was `e`. -/
structure GoesOn (slot : Nat) (e : Env) (k' : Kernel) (next : Option Resumption) : Prop where
  record : k'.env slot = e.resumed
  current : k'.current = some slot
  active : ∀ s, e.space = some s → k'.memory.active = some s
  next : next = some ⟨e.id, e.resumed.registers⟩

/-- The environment with the given id goes on, and finds the result `value`. -/
def Returns (next : Option Resumption) (id : EnvId) (value : Int32) : Prop :=
  ∃ registers, next = some ⟨id, registers⟩ ∧ registers.result = value

/-- Whoever goes on finds its pending result. -/
theorem GoesOn.returns {e : Env} {value : Int32} (h : GoesOn slot e k' next)
    (hp : e.pending = some value) : Returns next e.id value := by
  refine ⟨_, h.next, ?_⟩
  unfold Env.resumed
  rw [hp]
  exact Int32.toInt32_toUInt32 value

/-- It is not the turn of the environment in `slot`, whose record was `e`. -/
structure Passed (slot : Nat) (e : Env) (k' : Kernel) (next : Option Resumption) : Prop where
  record : k'.env slot = e
  current : k'.current ≠ some slot
  next : ∀ r, next = some r → r.env ≠ e.id

/-- Live environments in different slots have different ids. -/
theorem Numbered.id_ne (hk : k.Numbered) (he : (k.env e).isLive = true)
    (hl : (k.env slot).isLive = true) (hne : e ≠ slot) : (k.env slot).id ≠ (k.env e).id := by
  intro hid
  apply hne
  rw [← hk e he, ← hk slot hl, hid]

/-- A live record is written that stays that of the same environment. -/
theorem Numbered.updateEnv {change : Env → Env} (hk : k.Numbered)
    (hl : (k.env slot).isLive = true) (hid : (change (k.env slot)).id = (k.env slot).id) :
    (k.updateEnv slot change).Numbered := by
  intro x hx
  have hlx := isLive_of_updateEnv hl hx
  rw [env_updateEnv_eq change hl]
  split
  · rename_i heq
    rw [hid, heq]
    exact hk slot hl
  · exact hk x hlx

theorem resume_goesOn (hl : (k.env slot).isLive = true) :
    GoesOn slot (k.env slot) (k.resume slot).1 (some (k.resume slot).2) := by
  refine ⟨by rw [env_resume hl, if_pos rfl], rfl, fun s hs => ?_, rfl⟩
  show ((k.updateEnv slot fun _ => (k.env slot).resumed).activate
    (k.env slot).space).memory.active = some s
  rw [hs]
  rfl

theorem resume_passed (hk : k.Numbered) (he : (k.env e).isLive = true)
    (hl : (k.env slot).isLive = true) (hne : e ≠ slot) :
    Passed e (k.env e) (k.resume slot).1 (some (k.resume slot).2) := by
  refine ⟨by rw [env_resume hl, if_neg hne], fun hcur => hne (Option.some.inj hcur).symm, ?_⟩
  rintro r hr
  obtain rfl := Option.some.inj hr
  exact hk.id_ne he hl hne

/-- Whoever goes on because the caller does not can run. -/
theorem reschedule_turn (hk : k.Numbered) (he : (k.env e).isLive = true) :
    Passed e (k.env e) k.reschedule.1 k.reschedule.2 ∨
      (k.env e).status = .runnable ∧ GoesOn e (k.env e) k.reschedule.1 k.reschedule.2 := by
  unfold reschedule
  split
  · rename_i slot hs
    by_cases hne : e = slot
    · subst hne
      exact Or.inr ⟨EnvTable.pickNext_spec hs, resume_goesOn he⟩
    · exact Or.inl (resume_passed hk he (isLive_of_pickNext hs) hne)
  · exact Or.inl ⟨rfl, fun hcur => (by cases hcur), fun _ hr => (by cases hr)⟩

/-- A record with a pending result is written and goes on. -/
theorem answer_goesOn (hl : (k.env slot).isLive = true) (value : Int32) :
    GoesOn slot { k.env slot with pending := some value } (k.proceed slot (.answer value)).1
      (k.proceed slot (.answer value)).2 := by
  have hrec := env_updateEnv_self (fun e => { e with pending := some value }) hl
  have hgo := @resume_goesOn (k.updateEnv slot fun e => { e with pending := some value }) slot
    (by rw [hrec]; exact hl)
  rwa [hrec] at hgo

theorem proceed_others (hk : k.Numbered) (he : (k.env e).isLive = true)
    (hl : (k.env slot).isLive = true) (hne : e ≠ slot) (flow : Flow) :
    Passed e (k.env e) (k.proceed slot flow).1 (k.proceed slot flow).2 ∨
      (k.env e).status = .runnable ∧
        GoesOn e (k.env e) (k.proceed slot flow).1 (k.proceed slot flow).2 := by
  cases flow with
  | answer value =>
    let answered := k.updateEnv slot fun e => { e with pending := some value }
    have hrec : answered.env e = k.env e := env_updateEnv_of_ne _ hne
    have hself : (answered.env slot).isLive = true := by
      rw [env_updateEnv_self _ hl]
      exact hl
    have hanswered : answered.Numbered := hk.updateEnv hl rfl
    have hpassed := resume_passed hanswered (by rw [hrec]; exact he) hself hne
    rw [hrec] at hpassed
    exact Or.inl hpassed
  | resume => exact Or.inl (resume_passed hk he hl hne)
  | reschedule => exact reschedule_turn hk he

/-! ## From outside -/

/-- Whoever is started from outside goes on. -/
theorem act_run {id : EnvId} (h : k.envs.resolve id = some slot) :
    k.act (.run id) = ((k.resume slot).1, some (k.resume slot).2) := by
  have hrun : k.run id = .ok (k.resume slot) := by
    simp only [run, Check.bind_eq_ok, Check.present_eq_ok, Check.pure_eq_ok]
    exact ⟨slot, h, rfl⟩
  simp only [act, hrun]

theorem act_run_of_none {id : EnvId} (h : k.envs.resolve id = none) :
    k.act (.run id) = (k, none) := by
  simp only [act, run, h]
  rfl

/-- Creating an environment from outside fails, or writes a slot that was unused. -/
theorem act_create (k : Kernel) (parent : EnvId) (entry stack : UInt32) :
    k.act (.create parent entry stack) = (k, none) ∨
      ∃ k' slot, k.act (.create parent entry stack) = (k', none) ∧
        (k.env slot).isLive = false ∧ (k'.env slot).mailbox = {} ∧
        (∀ e, e ≠ slot → k'.env e = k.env e) ∧ k'.current = k.current := by
  cases hc : k.createEnv parent entry stack with
  | error e => exact Or.inl (by simp only [act, hc])
  | ok out =>
    obtain ⟨k', id⟩ := out
    have hact : k.act (.create parent entry stack) = (k', none) := by simp only [act, hc]
    obtain ⟨k₁, slot, event, ha, rfl⟩ := createEnv_eq_ok hc
    obtain ⟨s, -, -, hdead, hnew, hothers, -, -, hcurrent⟩ := allocEnv_spec ha
    refine Or.inr ⟨_, slot, hact, hdead, ?_, fun e he => ?_, hcurrent⟩
    · rw [env_note, env_updateEnv_self _ (isLive_of_allocEnv ha), hnew]
      rfl
    · exact (env_updateEnv_of_ne _ he).trans (hothers e he)

/-- Nothing happens to an environment that does not run, and nobody goes on. -/
theorem passed_of_unmoved (hcur : k.current ≠ some e) (henv : k'.env e = k.env e)
    (hcurrent : k'.current = k.current) : Passed e (k.env e) k' none := by
  refine ⟨henv, ?_, fun r hr => by cases hr⟩
  rw [hcurrent]
  exact hcur

/-- An action that is no call does nothing to an environment that does not run, or starts it. -/
theorem act_others (hk : k.Numbered) (he : (k.env e).isLive = true) (hcur : k.current ≠ some e)
    {a : Action} (hcall : ∀ number args, a ≠ .call number args) :
    Passed e (k.env e) (k.act a).1 (k.act a).2 ∨
      (∃ id, a = .run id ∧ k.envs.resolve id = some e) ∧
        GoesOn e (k.env e) (k.act a).1 (k.act a).2 := by
  cases a with
  | create parent entry stack =>
    left
    rcases k.act_create parent entry stack with
      hact | ⟨k', slot, hact, hdead, -, hothers, hcurrent⟩ <;> rw [hact]
    · exact passed_of_unmoved hcur rfl rfl
    · exact passed_of_unmoved hcur (hothers e (ne_of_isLive he hdead)) hcurrent
  | run id =>
    cases hr : k.envs.resolve id with
    | none =>
      rw [act_run_of_none hr]
      exact Or.inl (passed_of_unmoved hcur rfl rfl)
    | some slot =>
      rw [act_run hr]
      by_cases hne : e = slot
      · subst hne
        exact Or.inr ⟨⟨id, rfl, hr⟩, resume_goesOn he⟩
      · exact Or.inl (resume_passed hk he (EnvTable.resolve_eq_some_iff.1 hr).2.1 hne)
  | capture registers =>
    left
    show Passed e (k.env e) (k.capture registers) none
    unfold capture
    split
    · rename_i slot hslot
      have hne : e ≠ slot := by
        rintro rfl
        exact hcur hslot
      split
      · exact passed_of_unmoved hcur (env_updateEnv_of_ne _ hne) rfl
      · exact passed_of_unmoved hcur rfl rfl
    · exact passed_of_unmoved hcur rfl rfl
  | call number args => exact absurd rfl (hcall number args)

/-- An action is a call, or a turn for everybody who is there, and newcomers have an empty
  mailbox. -/
theorem act_cases (k : Kernel) (a : Action) (e : Nat) :
    (∃ number args, a = .call number args) ∨ (k.env e).Turned ((k.act a).1.env e) ∨
      (k.env e).isLive = false ∧ ((k.act a).1.env e).mailbox = {} := by
  cases a with
  | create parent entry stack =>
    refine Or.inr ?_
    rcases k.act_create parent entry stack with
      hact | ⟨k', slot, hact, hdead, hempty, hothers, -⟩ <;> rw [hact]
    · exact Or.inl (.refl _)
    · by_cases hne : e = slot
      · subst hne
        exact Or.inr ⟨hdead, hempty⟩
      · rw [hothers e hne]
        exact Or.inl (.refl _)
  | run id =>
    refine Or.inr (Or.inl ?_)
    cases hr : k.envs.resolve id with
    | none =>
      rw [act_run_of_none hr]
      exact .refl _
    | some slot =>
      rw [act_run hr]
      exact (Turns.resume k slot).record e
  | capture registers => exact Or.inr (Or.inl ((Turns.capture k registers).record e))
  | call number args => exact Or.inl ⟨number, args, rfl⟩

/-! ## Who goes on -/

/-- If anybody goes on, it is a live environment that does. -/
def Settled (out : Kernel × Option Resumption) : Prop :=
  ∀ r, out.2 = some r → ∃ slot e, e.isLive = true ∧ GoesOn slot e out.1 (some r)

/-- What goes on is what the record says. -/
theorem Settled.record {out : Kernel × Option Resumption} {r : Resumption} (h : Settled out)
    (hr : out.2 = some r) : ∃ slot, (out.1.env slot).isLive = true ∧
      (out.1.env slot).id = r.env ∧ (out.1.env slot).registers = r.registers := by
  obtain ⟨slot, e, hl, hgo⟩ := h r hr
  obtain rfl := Option.some.inj hgo.next
  refine ⟨slot, ?_, ?_, ?_⟩ <;> rw [hgo.record]
  · exact hl
  · rfl

theorem settled_none (k : Kernel) : Settled (k, none) := fun _ hr => by cases hr

theorem settled_resume (hl : (k.env slot).isLive = true) :
    Settled ((k.resume slot).1, some (k.resume slot).2) := by
  rintro r hr
  obtain rfl := Option.some.inj hr
  exact ⟨slot, k.env slot, hl, resume_goesOn hl⟩

theorem settled_reschedule (k : Kernel) : Settled k.reschedule := by
  unfold reschedule
  split
  · rename_i slot hs
    exact settled_resume (isLive_of_pickNext hs)
  · exact settled_none _

theorem settled_proceed (hl : (k.env slot).isLive = true) (flow : Flow) :
    Settled (k.proceed slot flow) := by
  cases flow with
  | answer value =>
    refine settled_resume ?_
    rw [env_updateEnv_self _ hl]
    exact hl
  | resume => exact settled_resume hl
  | reschedule => exact settled_reschedule k

theorem settled_call (k : Kernel) (number : UInt32) (args : Args) :
    Settled (k.call number args) := by
  unfold call
  split
  · exact settled_reschedule k
  · simp only
    split
    · rename_i hr
      exact settled_proceed (EnvTable.resolve_eq_some_iff.1 hr).2.1 _
    · exact settled_reschedule _

theorem settled_act (k : Kernel) (a : Action) : Settled (k.act a) := by
  cases a with
  | create parent entry stack =>
    rcases k.act_create parent entry stack with hact | ⟨k', slot, hact, -⟩ <;> rw [hact]
    · exact settled_none _
    · exact settled_none _
  | run id =>
    cases hr : k.envs.resolve id with
    | none =>
      rw [act_run_of_none hr]
      exact settled_none _
    | some slot =>
      rw [act_run hr]
      exact settled_resume (EnvTable.resolve_eq_some_iff.1 hr).2.1
  | capture registers => exact settled_none _
  | call number args => exact settled_call k number args

/-! ## After a call -/

/-- An environment is the same one after a call if there is one in its slot. -/
theorem Outcome.persists {P : Nat → Prop} (ho : Outcome pins P k k')
    (he : (k.env e).isLive = true) (hl : (k'.env e).isLive = true) :
    Persists (k.env e) (k'.env e) := by
  cases ho with
  | edits h => exact h.persists he
  | @ending k₁ gone h _ hend =>
    have hgone := hend.live
    have hmid := Edits.persists h he
    rw [env_destroy hgone] at hl ⊢
    obtain ⟨hne, -⟩ := isLive_of_afterEnd hl
    obtain ⟨ht, -⟩ := @tuned_afterEnd (k₁.env gone).id gone e hne (k₁.env e) hmid.live
    exact hmid.trans (.of_tuned ht)

section Call

variable {number : UInt32} {args : Args}

theorem dispatch_snd (k : Kernel) (number : UInt32) (args : Args) :
    (k.dispatch number args).2 = (k.perform (.ofWords number args)).flow := by
  unfold dispatch Reply.flow
  simp only
  cases (k.perform (.ofWords number args)).result with
  | ok flow => rfl
  | error e => rfl

theorem dispatch_of_ok {flow : Flow} (h : k.perform (.ofWords number args) = ⟨k', .ok flow⟩) :
    k.dispatch number args = (k', flow) := by
  simp only [dispatch, h]

theorem dispatch_of_error {e : CallError}
    (h : k.perform (.ofWords number args) = ⟨k', .error e⟩) :
    k.dispatch number args = (k'.note (.callFailed number e), .answer e.code) := by
  simp only [dispatch, h]

theorem env_dispatch (k : Kernel) (number : UInt32) (args : Args) (e : Nat) :
    (k.dispatch number args).1.env e = (k.perform (.ofWords number args)).kernel.env e := by
  obtain ⟨log, hlog⟩ := k.dispatch_fst number args
  rw [hlog]
  rfl

/-- How a call of the environment in `cur` that is answered by `reply` ends for the one in `e`. -/
inductive Turn (reply : Reply) (cur e : Nat) (k' : Kernel) (next : Option Resumption) : Prop where
  /-- It does not go on. -/
  | passed (flow : e = cur → reply.flow = .reschedule)
      (passed : Passed e (reply.kernel.env e) k' next)
  /-- It goes on because it can run. -/
  | picked (flow : e = cur → reply.flow = .reschedule)
      (status : (reply.kernel.env e).status = .runnable)
      (goes : GoesOn e (reply.kernel.env e) k' next)
  /-- It made the call and goes on at once. -/
  | resumes (caller : e = cur) (flow : reply.flow = .resume)
      (goes : GoesOn e (reply.kernel.env e) k' next)
  /-- It made the call and goes on with a result. -/
  | answered {value : Int32} (caller : e = cur) (flow : reply.flow = .answer value)
      (goes : GoesOn e { reply.kernel.env e with pending := some value } k' next)

namespace Turn

variable {reply : Reply}

/-- Anybody but the caller is passed over, or goes on because it can run. -/
theorem others (h : Turn reply cur e k' next) (hne : e ≠ cur) :
    Passed e (reply.kernel.env e) k' next ∨
      (reply.kernel.env e).status = .runnable ∧ GoesOn e (reply.kernel.env e) k' next := by
  cases h with
  | passed _ passed => exact Or.inl passed
  | picked _ status goes => exact Or.inr ⟨status, goes⟩
  | resumes caller => exact absurd caller hne
  | answered caller => exact absurd caller hne

theorem of_others (hne : e ≠ cur)
    (h : Passed e (reply.kernel.env e) k' next ∨
      (reply.kernel.env e).status = .runnable ∧ GoesOn e (reply.kernel.env e) k' next) :
    Turn reply cur e k' next := by
  rcases h with hpassed | ⟨hstatus, hgoes⟩
  · exact .passed (fun heq => absurd heq hne) hpassed
  · exact .picked (fun heq => absurd heq hne) hstatus hgoes

/-- A caller that gets an answer finds it at once. -/
theorem answers {value : Int32} (h : Turn reply cur cur k' next)
    (hflow : reply.flow = .answer value) :
    GoesOn cur { reply.kernel.env cur with pending := some value } k' next := by
  cases h with
  | passed flow => cases hflow.symm.trans (flow rfl)
  | picked flow => cases hflow.symm.trans (flow rfl)
  | resumes _ flow => cases hflow.symm.trans flow
  | @answered value' _ flow goes =>
    obtain rfl : value = value' := Flow.answer.inj (hflow.symm.trans flow)
    exact goes

theorem resumed (h : Turn reply cur cur k' next) (hflow : reply.flow = .resume) :
    GoesOn cur (reply.kernel.env cur) k' next := by
  cases h with
  | passed flow => cases hflow.symm.trans (flow rfl)
  | picked flow => cases hflow.symm.trans (flow rfl)
  | resumes _ _ goes => exact goes
  | answered _ flow => cases hflow.symm.trans flow

/-- A caller that gives way goes on only if it can run. -/
theorem givesWay (h : Turn reply cur cur k' next) (hflow : reply.flow = .reschedule) :
    Passed cur (reply.kernel.env cur) k' next ∨
      (reply.kernel.env cur).status = .runnable ∧ GoesOn cur (reply.kernel.env cur) k' next := by
  cases h with
  | passed _ passed => exact Or.inl passed
  | picked _ status goes => exact Or.inr ⟨status, goes⟩
  | resumes _ flow => cases hflow.symm.trans flow
  | answered _ flow => cases hflow.symm.trans flow

end Turn

/-- **Every call ends in one of these ways** for everybody who is there, where ids tell slots and
  the caller is still found under its own. -/
theorem turn_of_dispatch (hcur : k.current = some cur) (hk : (k.dispatch number args).1.Numbered)
    (hself : e = cur → (k.dispatch number args).1.envs.resolve (k.env cur).id = some cur)
    (hl : ((k.perform (.ofWords number args)).kernel.env e).isLive = true) :
    Turn (k.perform (.ofWords number args)) cur e (k.call number args).1
      (k.call number args).2 := by
  have hrec := env_dispatch k number args e
  have hl' : ((k.dispatch number args).1.env e).isLive = true := by rwa [hrec]
  by_cases hne : e = cur
  · subst hne
    rw [call, hcur]
    simp only [if_pos (hself rfl), dispatch_snd]
    cases hflow : (k.perform (.ofWords number args)).flow with
    | answer value =>
      refine .answered rfl hflow ?_
      rw [← hrec]
      exact answer_goesOn hl' value
    | resume =>
      refine .resumes rfl hflow ?_
      rw [← hrec]
      exact resume_goesOn hl'
    | reschedule =>
      rcases reschedule_turn hk hl' with hpassed | ⟨hstatus, hgoes⟩
      · exact .passed (fun _ => hflow) (hrec ▸ hpassed)
      · exact .picked (fun _ => hflow) (hrec ▸ hstatus) (hrec ▸ hgoes)
  · refine .of_others hne ?_
    rw [call, hcur, ← hrec]
    simp only
    split
    · rename_i hr
      exact proceed_others hk hl' (EnvTable.resolve_eq_some_iff.1 hr).2.1 hne _
    · exact reschedule_turn hk hl'

/-- A caller that is still there is found under its own id. -/
theorem resolve_dispatch (hk : k.Sound pins) (he : (k.env cur).isLive = true)
    (hl : ((k.perform (.ofWords number args)).kernel.env cur).isLive = true) :
    (k.dispatch number args).1.envs.resolve (k.env cur).id = some cur := by
  have hp := (perform_outcome hk (.ofWords number args)).persists he hl
  refine EnvTable.resolve_eq_some_iff.2 ⟨hk.number cur he, ?_, ?_⟩
  · exact (congrArg Env.isLive (env_dispatch k number args cur)).trans hp.live
  · exact (congrArg Env.id (env_dispatch k number args cur)).trans hp.id

/-- The caller goes on by the flow of its call if it is still there. -/
theorem call_eq_proceed (hk : k.Sound pins) (hc : k.caller = .ok cur)
    (hl : ((k.perform (.ofWords number args)).kernel.env cur).isLive = true) :
    k.call number args =
      (k.dispatch number args).1.proceed cur (k.perform (.ofWords number args)).flow := by
  obtain ⟨hcur, he⟩ := caller_eq_ok.1 hc
  rw [call, hcur]
  simp only [if_pos (resolve_dispatch hk he hl), dispatch_snd]

theorem Sound.turn (hk : k.Sound pins) (hcur : k.current = some cur)
    (hlc : e = cur → (k.env cur).isLive = true)
    (hl : ((k.perform (.ofWords number args)).kernel.env e).isLive = true) :
    Turn (k.perform (.ofWords number args)) cur e (k.call number args).1
      (k.call number args).2 := by
  have hsound := moves_sound (dispatch_moves hk.toHoused number args) hk
  refine turn_of_dispatch hcur hsound.number (fun heq => ?_) hl
  exact resolve_dispatch hk (hlc heq) (heq ▸ hl)

theorem call_answers {value : Int32} (hk : k.Sound pins) (hc : k.caller = .ok cur)
    (hl : ((k.perform (.ofWords number args)).kernel.env cur).isLive = true)
    (hflow : (k.perform (.ofWords number args)).flow = .answer value) :
    GoesOn cur { (k.perform (.ofWords number args)).kernel.env cur with pending := some value }
      (k.call number args).1 (k.call number args).2 := by
  obtain ⟨hcur, he⟩ := caller_eq_ok.1 hc
  exact (hk.turn hcur (fun _ => he) hl).answers hflow

theorem call_resumes (hk : k.Sound pins) (hc : k.caller = .ok cur)
    (hl : ((k.perform (.ofWords number args)).kernel.env cur).isLive = true)
    (hflow : (k.perform (.ofWords number args)).flow = .resume) :
    GoesOn cur ((k.perform (.ofWords number args)).kernel.env cur) (k.call number args).1
      (k.call number args).2 := by
  obtain ⟨hcur, he⟩ := caller_eq_ok.1 hc
  exact (hk.turn hcur (fun _ => he) hl).resumed hflow

theorem call_givesWay (hk : k.Sound pins) (hc : k.caller = .ok cur)
    (hl : ((k.perform (.ofWords number args)).kernel.env cur).isLive = true)
    (hflow : (k.perform (.ofWords number args)).flow = .reschedule) :
    Passed cur ((k.perform (.ofWords number args)).kernel.env cur) (k.call number args).1
        (k.call number args).2 ∨
      ((k.perform (.ofWords number args)).kernel.env cur).status = .runnable ∧
        GoesOn cur ((k.perform (.ofWords number args)).kernel.env cur) (k.call number args).1
          (k.call number args).2 := by
  obtain ⟨hcur, he⟩ := caller_eq_ok.1 hc
  exact (hk.turn hcur (fun _ => he) hl).givesWay hflow

theorem call_others (hk : k.Sound pins) (hcur : k.current = some cur) (hne : e ≠ cur)
    (hl : ((k.perform (.ofWords number args)).kernel.env e).isLive = true) :
    Passed e ((k.perform (.ofWords number args)).kernel.env e) (k.call number args).1
        (k.call number args).2 ∨
      ((k.perform (.ofWords number args)).kernel.env e).status = .runnable ∧
        GoesOn e ((k.perform (.ofWords number args)).kernel.env e) (k.call number args).1
          (k.call number args).2 :=
  (hk.turn hcur (fun heq => absurd heq hne) hl).others hne

/-- A call says nothing to whom it ends. -/
theorem call_silent (hk : k.Sound pins) (hcur : k.current = some cur) {id : EnvId}
    {r : Resumption} (hgone : (k.perform (.ofWords number args)).kernel.envs.resolve id = none)
    (hnext : (k.call number args).2 = some r) : r.env ≠ id := by
  obtain ⟨slot, hlive, hid, -⟩ := (settled_call k number args).record hnext
  have hsound := moves_sound (call_moves hk.toHoused number args) hk
  have hfound := hsound.resolve_id hlive
  rintro rfl
  rw [hid, (Turns.call hcur number args).resolve, hgone] at hfound
  cases hfound

end Call

end Kernel

end Exokernel
