/-
  The changes that calls are made of.

  Whatever a call does, it does in a few elementary changes.  It writes a record, parks a
  message, begins to wait, changes the mappings of one space, lets a new environment in, or lets
  two environments trade their spaces. `Edit` lists these changes, each with what was checked
  before it.  Only the end of an environment is not among them, because it changes many records
  at once.

  `Housed` says that every live space belongs to exactly one live environment, and it holds over
  any memory. `Sound`, the invariant of the kernel, adds that the books of memory are balanced.
  Both are proved once for each elementary change, so nothing about them depends on the list of
  calls.
-/
import Exokernel.Proofs.Calls
import Exokernel.Proofs.Spaces
import Mathlib.Data.Finset.Card
import Mathlib.Logic.Equiv.Basic

namespace Exokernel

/-- From `e` to `e'`, a record stays that of the same live environment, which neither begins to
  wait for a message nor parks another one. -/
structure Env.Tuned (e e' : Env) : Prop where
  id : e'.id = e.id
  parent : e'.parent = e.parent
  live : e'.isLive = true
  receiving : e'.mailbox.receiving = true → e.mailbox.receiving = true
  parked : e'.mailbox.parked = e.mailbox.parked ∨ e'.mailbox.parked = none

theorem Env.Tuned.parked_eq {e e' : Env} (h : e.Tuned e') {send : ParkedSend}
    (hs : e'.mailbox.parked = some send) : e.mailbox.parked = some send := by
  rcases h.parked with hp | hp
  · exact hp.symm.trans hs
  · rw [hp] at hs
    cases hs

namespace Kernel

/-- The environment in `slot` is live and has the space `s`. -/
def Holds (k : Kernel) (slot : Nat) (s : SpaceId) : Prop :=
  (k.env slot).isLive = true ∧ (k.env slot).space = some s

/-- Live environments are found where their ids say. -/
def Numbered (k : Kernel) : Prop := ∀ slot, (k.env slot).isLive = true → (k.env slot).id.slot = slot

theorem Numbered.resolve_id {k : Kernel} (h : k.Numbered) {slot : Nat}
    (hl : (k.env slot).isLive = true) : k.envs.resolve (k.env slot).id = some slot :=
  EnvTable.resolve_eq_some_iff.2 ⟨h slot hl, hl, rfl⟩

/-- Who lives where, and what was offered. -/
structure Housed (k : Kernel) : Prop where
  capacity : k.envs.capacity ≤ maxEnvs
  spaces : k.memory.spaces.size ≤ k.envs.capacity
  number : k.Numbered
  space : ∀ slot, (k.env slot).isLive = true →
    ∃ s, (k.env slot).space = some s ∧ (k.memory.directory? s).isSome = true
  apart : ∀ a b s, k.Holds a s → k.Holds b s → a = b
  owner : ∀ s, (k.memory.directory? s).isSome = true → ∃ slot, k.Holds slot s
  /-- The space in force is a live one. -/
  active : ∀ s, k.memory.active = some s → (k.memory.directory? s).isSome = true
  /-- Offered pages passed the allow-list. -/
  offers : ∀ slot, (k.env slot).isLive = true → ∀ send, (k.env slot).mailbox.parked = some send →
    ∀ page, send.page = some page → page.perm.Requestable

/-- The invariant of the kernel. -/
structure Sound (k : Kernel) (pins : List Frame) : Prop extends k.Housed where
  balanced : k.memory.Balanced pins []

/-- One elementary change.  Apart from newcomers it concerns slots that satisfy `P`. -/
inductive Edit (pins : List Frame) (P : Nat → Prop) (k : Kernel) : Kernel → Prop where
  /-- Log, console, the environment and the space in force. -/
  | quiet {k' : Kernel} (config : k'.config = k.config) (envs : k'.envs = k.envs)
      (pool : k'.memory.pool = k.memory.pool) (spaces : k'.memory.spaces = k.memory.spaces)
      (active : ∀ s, k'.memory.active = some s →
        k.memory.active = some s ∨ ∃ slot, k.Holds slot s) :
      Edit pins P k k'
  /-- A record is written that keeps its space. -/
  | tune {slot : Nat} {change : Env → Env} (subject : P slot) (live : (k.env slot).isLive = true)
      (tuned : (k.env slot).Tuned (change (k.env slot)))
      (space : (change (k.env slot)).space = (k.env slot).space) :
      Edit pins P k (k.updateEnv slot change)
  /-- A message is parked for another environment, which does not wait. -/
  | park {slot target : Nat} {send : ParkedSend} (subject : P slot)
      (live : (k.env slot).isLive = true) (resolves : k.envs.resolve send.target = some target)
      (other : target ≠ slot) (away : (k.env target).mailbox.receiving = false)
      (offer : ∀ page, send.page = some page → page.perm.Requestable) :
      Edit pins P k (k.updateEnv slot fun e => parking e send)
  /-- An environment for which nobody has a message begins to wait for one. -/
  | wait {slot : Nat} {dest : Option VirtAddr} (subject : P slot)
      (live : (k.env slot).isLive = true) (none : k.firstParked (k.env slot).id = none) :
      Edit pins P k (k.updateEnv slot fun e => waiting e dest)
  /-- Mappings of one space change. -/
  | remap {slot : Nat} {s : SpaceId} {memory : Memory} (subject : P slot)
      (live : (k.env slot).isLive = true) (space : (k.env slot).space = some s)
      (touches : k.memory.Balanced pins [] →
        memory.Balanced pins [] ∧ k.memory.Touches memory s)
      (keeps : k.memory.Keeps memory) :
      Edit pins P k { k with memory }
  /-- A new environment gets a slot. -/
  | enlist {parent : EnvId} {slot : Nat} {k' : Kernel}
      (alloc : k.allocEnv parent = .ok (k', slot)) : Edit pins P k k'
  /-- Two environments trade their spaces. -/
  | swap {a b : Nat} {f g : Env → Env} (subjects : P a ∧ P b) (lives : (k.env a).isLive = true)
      (liveb : (k.env b).isLive = true) (ne : a ≠ b) (tuneda : (k.env a).Tuned (f (k.env a)))
      (tunedb : (k.env b).Tuned (g (k.env b)))
      (spacea : (f (k.env a)).space = (k.env b).space)
      (spaceb : (g (k.env b)).space = (k.env a).space) :
      Edit pins P k ((k.updateEnv a f).updateEnv b g)

variable {pins : List Frame} {P Q : Nat → Prop} {k k' : Kernel}

theorem Edit.mono (h : Edit pins P k k') (hPQ : ∀ slot, P slot → Q slot) : Edit pins Q k k' := by
  cases h with
  | quiet config envs pool spaces active => exact .quiet config envs pool spaces active
  | tune subject live tuned space => exact .tune (hPQ _ subject) live tuned space
  | park subject live resolves other away offer =>
    exact .park (hPQ _ subject) live resolves other away offer
  | wait subject live none => exact .wait (hPQ _ subject) live none
  | remap subject live space touches keeps =>
    exact .remap (hPQ _ subject) live space touches keeps
  | enlist alloc => exact .enlist alloc
  | swap subjects live live' ne tuned tuned' space space' =>
    exact .swap ⟨hPQ _ subjects.1, hPQ _ subjects.2⟩ live live' ne tuned tuned' space space'

/-! ## Records across a change -/

theorem ne_of_isLive {a b : Nat} (ha : (k.env a).isLive = true) (hb : (k.env b).isLive = false) :
    a ≠ b := by
  rintro rfl
  exact Bool.false_ne_true (hb.symm.trans ha)

/-- The record of a newcomer. -/
def newcomer (k : Kernel) (parent : EnvId) (slot : Nat) (s : SpaceId) : Env :=
  { id := (k.env slot).id.next slot, parent, status := .notRunnable, space := some s,
    heapBreak := k.config.heapBase }

/-- A newcomer gets a slot that was free and a space of its own; the other records stay. -/
theorem allocEnv_spec {parent : EnvId} {slot : Nat} (h : k.allocEnv parent = .ok (k', slot)) :
    ∃ s, k.memory.createSpace = .ok (k'.memory, s) ∧ slot < k.envs.capacity ∧
      (k.env slot).isLive = false ∧ k'.env slot = k.newcomer parent slot s ∧
      (∀ e, e ≠ slot → k'.env e = k.env e) ∧ k'.envs.capacity = k.envs.capacity ∧
      k'.config = k.config ∧ k'.current = k.current := by
  obtain ⟨memory, s, hf, hm, rfl⟩ := allocEnv_eq_ok h
  obtain ⟨hlt, hfree⟩ := EnvTable.findFree_spec hf
  have hcap : (k.envs.occupy slot parent s).capacity = k.envs.capacity :=
    EnvTable.capacity_update _ _ _
  refine ⟨s, hm, hlt, ?_, ?_, fun e he => ?_, ?_, rfl, rfl⟩
  · show (k.envs.get slot).isLive = false
    rw [Env.isLive, hfree]
  · show ((k.envs.occupy slot parent s).update slot _).get slot = _
    rw [EnvTable.get_update_self _ _ (by rw [hcap]; exact hlt), EnvTable.occupy,
      EnvTable.get_update_self _ _ hlt]
    rfl
  · show ((k.envs.occupy slot parent s).update slot _).get e = _
    rw [EnvTable.get_update_of_ne _ _ he, EnvTable.occupy, EnvTable.get_update_of_ne _ _ he]
    rfl
  · rw [EnvTable.capacity_update, hcap]

theorem isLive_of_allocEnv {parent : EnvId} {slot : Nat}
    (h : k.allocEnv parent = .ok (k', slot)) : (k'.env slot).isLive = true := by
  obtain ⟨s, -, -, -, hnew, -⟩ := allocEnv_spec h
  rw [hnew]
  rfl

/-- Two records written one after the other. -/
theorem env_updateEnv_two {a b : Nat} {f g : Env → Env} (hne : a ≠ b)
    (ha : (k.env a).isLive = true) (hb : (k.env b).isLive = true) :
    ((k.updateEnv a f).updateEnv b g).env a = f (k.env a) ∧
      ((k.updateEnv a f).updateEnv b g).env b = g (k.env b) ∧
      ∀ e, e ≠ a → e ≠ b → ((k.updateEnv a f).updateEnv b g).env e = k.env e := by
  have hba : (k.updateEnv a f).env b = k.env b := env_updateEnv_of_ne f hne.symm
  refine ⟨?_, ?_, fun e hea heb => ?_⟩
  · rw [env_updateEnv_of_ne g hne, env_updateEnv_self f ha]
  · rw [env_updateEnv_self g (by rw [hba]; exact hb), hba]
  · rw [env_updateEnv_of_ne g heb, env_updateEnv_of_ne f hea]

/-- What one record goes through in a change that ends nobody. -/
structure Persists (e e' : Env) : Prop where
  live : e'.isLive = true
  id : e'.id = e.id
  parent : e'.parent = e.parent

theorem Persists.refl {e : Env} (h : e.isLive = true) : Persists e e := ⟨h, rfl, rfl⟩

theorem Persists.trans {e e' e'' : Env} (h : Persists e e') (h' : Persists e' e'') :
    Persists e e'' :=
  ⟨h'.live, h'.id.trans h.id, h'.parent.trans h.parent⟩

theorem Persists.of_tuned {e e' : Env} (h : e.Tuned e') : Persists e e' :=
  ⟨h.live, h.id, h.parent⟩

theorem env_updateEnv_eq {slot : Nat} (change : Env → Env) (hl : (k.env slot).isLive = true)
    (e : Nat) :
    (k.updateEnv slot change).env e = if e = slot then change (k.env slot) else k.env e := by
  split
  · rename_i heq
    subst heq
    exact env_updateEnv_self change hl
  · rename_i hne
    exact env_updateEnv_of_ne change hne

/-- One record is written and the others are not. -/
theorem persists_updateEnv {slot : Nat} {change : Env → Env} (hl : (k.env slot).isLive = true)
    (hp : Persists (k.env slot) (change (k.env slot))) (e : Nat) (he : (k.env e).isLive = true) :
    Persists (k.env e) ((k.updateEnv slot change).env e) := by
  rw [env_updateEnv_eq change hl]
  split
  · rename_i heq
    exact heq ▸ hp
  · exact .refl he

/-- Writing a live record brings nobody to life. -/
theorem isLive_of_updateEnv {slot : Nat} {change : Env → Env} (hl : (k.env slot).isLive = true)
    {e : Nat} (he : ((k.updateEnv slot change).env e).isLive = true) : (k.env e).isLive = true := by
  by_cases heq : e = slot
  · exact heq ▸ hl
  · rwa [env_updateEnv_of_ne change heq] at he

theorem isLive_parking (e : Env) (send : ParkedSend) : (parking e send).isLive = true := rfl

theorem isLive_waiting (e : Env) (dest : Option VirtAddr) : (waiting e dest).isLive = true := rfl

/-- Who is live before a change is live after it and the same environment. -/
theorem Edit.persists (h : Edit pins P k k') {e : Nat} (he : (k.env e).isLive = true) :
    Persists (k.env e) (k'.env e) := by
  cases h with
  | quiet _ envs =>
    have hsame : k'.env e = k.env e := congrArg (EnvTable.get · e) envs
    rw [hsame]
    exact .refl he
  | tune _ live tuned => exact persists_updateEnv live (.of_tuned tuned) e he
  | park _ live => exact persists_updateEnv live ⟨isLive_parking _ _, rfl, rfl⟩ e he
  | wait _ live => exact persists_updateEnv live ⟨isLive_waiting _ _, rfl, rfl⟩ e he
  | remap => exact .refl he
  | enlist alloc =>
    obtain ⟨s, -, -, hdead, -, hothers, -⟩ := allocEnv_spec alloc
    rw [hothers e (ne_of_isLive he hdead)]
    exact .refl he
  | @swap a b _ _ _ live live' ne tuned tuned' =>
    obtain ⟨ha, hb, hothers⟩ := env_updateEnv_two ne live live'
    by_cases hea : e = a
    · subst hea
      rw [ha]
      exact .of_tuned tuned
    by_cases heb : e = b
    · subst heb
      rw [hb]
      exact .of_tuned tuned'
    · rw [hothers e hea heb]
      exact .refl he

/-- Who is live after a change was live before it or is the newcomer. -/
theorem Edit.joined (h : Edit pins P k k') {e : Nat} (he : (k'.env e).isLive = true) :
    (k.env e).isLive = true ∨
      (k.env e).isLive = false ∧ ∃ parent s, k'.env e = k.newcomer parent e s := by
  cases h with
  | quiet _ envs =>
    have hsame : k'.env e = k.env e := congrArg (EnvTable.get · e) envs
    rw [hsame] at he
    exact Or.inl he
  | tune _ live => exact Or.inl (isLive_of_updateEnv live he)
  | park _ live => exact Or.inl (isLive_of_updateEnv live he)
  | wait _ live => exact Or.inl (isLive_of_updateEnv live he)
  | remap => exact Or.inl he
  | @enlist parent slot _ alloc =>
    obtain ⟨s, -, -, hdead, hnew, hothers, -⟩ := allocEnv_spec alloc
    by_cases heq : e = slot
    · subst heq
      exact Or.inr ⟨hdead, parent, s, hnew⟩
    · rw [hothers e heq] at he
      exact Or.inl he
  | @swap a b f _ _ live live' ne =>
    have hb : ((k.updateEnv a f).env b).isLive = true := by
      rw [env_updateEnv_of_ne f ne.symm]
      exact live'
    exact Or.inl (isLive_of_updateEnv live (isLive_of_updateEnv hb he))

/-! ## The invariant across a change -/

theorem Housed.isSome_of_holds (h : k.Housed) {e : Nat} {s : SpaceId} (he : k.Holds e s) :
    (k.memory.directory? s).isSome = true := by
  obtain ⟨t, ht, hd⟩ := h.space e he.1
  obtain rfl : s = t := Option.some.inj (he.2.symm.trans ht)
  exact hd

/-- Memory changes and no record does. -/
theorem Housed.of_memory (h : k.Housed) (envs : k'.envs = k.envs)
    (size : k'.memory.spaces.size = k.memory.spaces.size)
    (live : ∀ s, (k'.memory.directory? s).isSome = (k.memory.directory? s).isSome)
    (active : ∀ s, k'.memory.active = some s →
      k.memory.active = some s ∨ ∃ slot, k.Holds slot s) : k'.Housed := by
  have henv : ∀ e, k'.env e = k.env e := fun e => congrArg (EnvTable.get · e) envs
  have hholds : ∀ e s, k'.Holds e s ↔ k.Holds e s := by
    intro e s
    unfold Holds
    rw [henv]
  exact {
    capacity := by
      rw [envs]
      exact h.capacity
    spaces := by
      rw [envs, size]
      exact h.spaces
    number := by
      intro e he
      rw [henv] at he ⊢
      exact h.number e he
    space := by
      intro e he
      rw [henv] at he ⊢
      obtain ⟨s, hs, hd⟩ := h.space e he
      exact ⟨s, hs, (live s).trans hd⟩
    apart := fun a b s ha hb => h.apart a b s ((hholds a s).1 ha) ((hholds b s).1 hb)
    owner := by
      intro s hs
      obtain ⟨slot, hslot⟩ := h.owner s ((live s).symm.trans hs)
      exact ⟨slot, (hholds slot s).2 hslot⟩
    active := by
      intro s hs
      rw [live]
      rcases active s hs with hold | ⟨slot, hheld⟩
      · exact h.active s hold
      · exact h.isSome_of_holds hheld
    offers := by
      intro e he
      rw [henv] at he ⊢
      exact h.offers e he }

/-- Records change and memory does not.  Everybody live stays so; spaces are traded along `σ`. -/
theorem Housed.of_records (h : k.Housed) (σ : Nat → Nat) (hσ : ∀ e, σ (σ e) = e)
    (memory : k'.memory = k.memory) (capacity : k'.envs.capacity = k.envs.capacity)
    (dead : ∀ e, (k'.env e).isLive = true → (k.env e).isLive = true)
    (persists : ∀ e, (k.env e).isLive = true → Persists (k.env e) (k'.env e))
    (traded : ∀ e, (k.env e).isLive = true →
      (k.env (σ e)).isLive = true ∧ (k'.env e).space = (k.env (σ e)).space)
    (offers : ∀ e, (k.env e).isLive = true → ∀ send, (k'.env e).mailbox.parked = some send →
      (k.env e).mailbox.parked = some send ∨
        ∀ page, send.page = some page → page.perm.Requestable) :
    k'.Housed := by
  have hholds : ∀ e s, k'.Holds e s → k.Holds (σ e) s := by
    rintro e s ⟨he, hs⟩
    obtain ⟨hl, htr⟩ := traded e (dead e he)
    exact ⟨hl, htr.symm.trans hs⟩
  have hback : ∀ e s, k.Holds e s → k'.Holds (σ e) s := by
    rintro e s ⟨he, hs⟩
    have hl := (traded e he).1
    obtain ⟨-, htr⟩ := traded (σ e) hl
    rw [hσ] at htr
    exact ⟨(persists (σ e) hl).live, htr.trans hs⟩
  exact {
    capacity := by
      rw [capacity]
      exact h.capacity
    spaces := by
      rw [memory, capacity]
      exact h.spaces
    number := by
      intro e he
      rw [(persists e (dead e he)).id]
      exact h.number e (dead e he)
    space := by
      intro e he
      obtain ⟨hl, htr⟩ := traded e (dead e he)
      obtain ⟨s, hs, hd⟩ := h.space (σ e) hl
      rw [memory]
      exact ⟨s, htr.trans hs, hd⟩
    apart := by
      intro a b s ha hb
      have hab : σ a = σ b := h.apart _ _ s (hholds a s ha) (hholds b s hb)
      rw [← hσ a, hab, hσ]
    owner := by
      intro s hs
      rw [memory] at hs
      obtain ⟨slot, hslot⟩ := h.owner s hs
      exact ⟨σ slot, hback slot s hslot⟩
    active := by
      rw [memory]
      exact h.active
    offers := by
      intro e he send hsend page hpage
      rcases offers e (dead e he) send hsend with hold | hnew
      · exact h.offers e (dead e he) send hold page hpage
      · exact hnew page hpage }

/-- One record changes and keeps its space. -/
theorem Housed.updateEnv (h : k.Housed) {slot : Nat} {change : Env → Env}
    (hl : (k.env slot).isLive = true) (hp : Persists (k.env slot) (change (k.env slot)))
    (hs : (change (k.env slot)).space = (k.env slot).space)
    (ho : ∀ send, (change (k.env slot)).mailbox.parked = some send →
      (k.env slot).mailbox.parked = some send ∨
        ∀ page, send.page = some page → page.perm.Requestable) :
    (k.updateEnv slot change).Housed := by
  have hrec := env_updateEnv_eq change hl
  refine h.of_records id (fun e => rfl) rfl (capacity_updateEnv _)
    (fun e => isLive_of_updateEnv hl) (persists_updateEnv hl hp) (fun e he => ⟨he, ?_⟩)
    (fun e he send hsend => ?_)
  · rw [hrec]
    split
    · rename_i heq
      exact heq ▸ hs
    · rfl
  · rw [hrec] at hsend
    split at hsend
    · rename_i heq
      exact heq ▸ ho send hsend
    · exact Or.inl hsend

/-- If all numbers of spaces are in use, then there are fewer than slots as long as one of these is
  not taken: spaces have different owners. -/
theorem Housed.size_lt_capacity (h : k.Housed) {slot : Nat} (hlt : slot < k.envs.capacity)
    (hdead : (k.env slot).isLive = false)
    (hall : ∀ i, i < k.memory.spaces.size →
      ∃ r : SpaceId, r.number.toNat = i ∧ (k.memory.directory? r).isSome = true) :
    k.memory.spaces.size < k.envs.capacity := by
  have howned : ∀ i, ∃ e, i < k.memory.spaces.size →
      ∃ r : SpaceId, r.number.toNat = i ∧ k.Holds e r := by
    intro i
    by_cases hi : i < k.memory.spaces.size
    · obtain ⟨r, hr, hd⟩ := hall i hi
      obtain ⟨e, he⟩ := h.owner r hd
      exact ⟨e, fun _ => ⟨r, hr, he⟩⟩
    · exact ⟨0, fun hi' => absurd hi' hi⟩
  choose owner howner using howned
  have hmaps : ∀ i ∈ Finset.range k.memory.spaces.size,
      owner i ∈ (Finset.range k.envs.capacity).erase slot := by
    intro i hi
    obtain ⟨r, -, hlive, -⟩ := howner i (Finset.mem_range.1 hi)
    exact Finset.mem_erase.2
      ⟨ne_of_isLive hlive hdead, Finset.mem_range.2 (lt_capacity_of_isLive hlive)⟩
  have hinj : Set.InjOn owner (Finset.range k.memory.spaces.size) := by
    intro i hi j hj hij
    obtain ⟨r, hr, -, hrs⟩ := howner i (Finset.mem_range.1 hi)
    obtain ⟨t, ht, -, hts⟩ := howner j (Finset.mem_range.1 hj)
    rw [hij] at hrs
    rw [← hr, ← ht, Option.some.inj (hrs.symm.trans hts)]
  have hcard := Finset.card_le_card_of_injOn owner hmaps hinj
  rw [Finset.card_erase_of_mem (Finset.mem_range.2 hlt), Finset.card_range,
    Finset.card_range] at hcard
  omega

theorem Housed.spaces_lt (h : k.Housed) : k.memory.spaces.size < 0x100000000 := by
  have hs := h.spaces
  have hc := h.capacity
  simp only [maxEnvs] at hc
  omega

/-- Who holds a space after a newcomer with the space `s` has joined. -/
theorem holds_newcomer {parent : EnvId} {slot : Nat} {s : SpaceId}
    (hdead : (k.env slot).isLive = false) (hnew : k'.env slot = k.newcomer parent slot s)
    (hothers : ∀ e, e ≠ slot → k'.env e = k.env e) (e : Nat) (r : SpaceId) :
    k'.Holds e r ↔ e = slot ∧ r = s ∨ k.Holds e r := by
  unfold Holds
  by_cases heq : e = slot
  · subst heq
    rw [hnew]
    constructor
    · rintro ⟨-, hs⟩
      exact Or.inl ⟨rfl, (Option.some.inj hs).symm⟩
    · rintro (⟨-, rfl⟩ | ⟨hl, -⟩)
      · exact ⟨rfl, rfl⟩
      · exact absurd (hdead.symm.trans hl) Bool.false_ne_true
  · rw [hothers e heq]
    exact ⟨Or.inr, fun hor => hor.resolve_left fun hnew => heq hnew.1⟩

/-- A newcomer joins. -/
theorem Housed.enlist (h : k.Housed) {parent : EnvId} {slot : Nat}
    (halloc : k.allocEnv parent = .ok (k', slot)) : k'.Housed := by
  obtain ⟨s, hm, hlt, hdead, hnew, hothers, hcap, -⟩ := allocEnv_spec halloc
  obtain ⟨-, f, -, -, ho⟩ := Memory.createSpace_numbers h.spaces_lt hm
  have hholds := holds_newcomer hdead hnew hothers
  -- a space that was there before is not the newcomer's
  have hold : ∀ e r, k.Holds e r → r ≠ s := fun e r he =>
    ho.ne_of_isSome (h.isSome_of_holds he)
  exact {
    capacity := by
      rw [hcap]
      exact h.capacity
    spaces := by
      rw [hcap]
      rcases ho.size with hsame | ⟨hgrown, hall⟩
      · rw [hsame]
        exact h.spaces
      · rw [hgrown]
        exact h.size_lt_capacity hlt hdead hall
    number := by
      intro e he
      by_cases heq : e = slot
      · subst heq
        rw [hnew]
        exact EnvId.slot_next _ (Nat.lt_of_lt_of_le hlt h.capacity)
      · rw [hothers e heq] at he ⊢
        exact h.number e he
    space := by
      intro e he
      by_cases heq : e = slot
      · subst heq
        exact ⟨s, congrArg Env.space hnew, congrArg Option.isSome ho.added⟩
      · rw [hothers e heq] at he ⊢
        obtain ⟨r, hr, hd⟩ := h.space e he
        rw [← ho.others r (hold e r ⟨he, hr⟩)] at hd
        exact ⟨r, hr, hd⟩
    apart := by
      intro a b r ha hb
      rcases (hholds a r).1 ha with ⟨rfl, rfl⟩ | ha
      · rcases (hholds b r).1 hb with ⟨rfl, -⟩ | hb
        · rfl
        · exact absurd rfl (hold b r hb)
      · rcases (hholds b r).1 hb with ⟨-, rfl⟩ | hb
        · exact absurd rfl (hold a r ha)
        · exact h.apart a b r ha hb
    owner := by
      intro r hr
      by_cases hrs : r = s
      · exact ⟨slot, (hholds slot r).2 (Or.inl ⟨rfl, hrs⟩)⟩
      · rw [ho.others r hrs] at hr
        obtain ⟨e, he⟩ := h.owner r hr
        exact ⟨e, (hholds e r).2 (Or.inr he)⟩
    active := by
      intro r hr
      rw [ho.active] at hr
      have hd := h.active r hr
      rwa [← ho.others r (ho.ne_of_isSome hd)] at hd
    offers := by
      intro e he send hsend
      by_cases heq : e = slot
      · subst heq
        rw [hnew] at hsend
        cases hsend
      · rw [hothers e heq] at he hsend
        exact h.offers e he send hsend }

/-- Two environments trade their spaces. -/
theorem Housed.swap (h : k.Housed) {a b : Nat} {f g : Env → Env}
    (hla : (k.env a).isLive = true) (hlb : (k.env b).isLive = true) (hne : a ≠ b)
    (hta : (k.env a).Tuned (f (k.env a))) (htb : (k.env b).Tuned (g (k.env b)))
    (hsa : (f (k.env a)).space = (k.env b).space) (hsb : (g (k.env b)).space = (k.env a).space) :
    ((k.updateEnv a f).updateEnv b g).Housed := by
  obtain ⟨ha, hb, hothers⟩ := env_updateEnv_two hne hla hlb (f := f) (g := g)
  have hedit : Edit [] (fun _ => True) k ((k.updateEnv a f).updateEnv b g) :=
    .swap ⟨trivial, trivial⟩ hla hlb hne hta htb hsa hsb
  refine h.of_records (Equiv.swap a b) (fun e => Equiv.swap_apply_self a b e) rfl
    ((capacity_updateEnv _).trans (capacity_updateEnv _)) (fun e he => ?_)
    (fun e he => hedit.persists he) (fun e he => ?_) (fun e he send hsend => Or.inl ?_)
  · by_cases hea : e = a
    · exact hea ▸ hla
    by_cases heb : e = b
    · exact heb ▸ hlb
    · rwa [hothers e hea heb] at he
  · by_cases hea : e = a
    · subst hea
      rw [Equiv.swap_apply_left, ha]
      exact ⟨hlb, hsa⟩
    by_cases heb : e = b
    · subst heb
      rw [Equiv.swap_apply_right, hb]
      exact ⟨hla, hsb⟩
    · rw [Equiv.swap_apply_of_ne_of_ne hea heb, hothers e hea heb]
      exact ⟨he, rfl⟩
  · by_cases hea : e = a
    · subst hea
      rw [ha] at hsend
      exact hta.parked_eq hsend
    by_cases heb : e = b
    · subst heb
      rw [hb] at hsend
      exact htb.parked_eq hsend
    · rwa [hothers e hea heb] at hsend

/-- Every elementary change leaves everybody housed. -/
theorem Edit.housed (he : Edit pins P k k') (h : k.Housed) : k'.Housed := by
  cases he with
  | quiet _ envs _ spaces active =>
    refine h.of_memory envs (by rw [spaces]) (fun s => ?_) active
    unfold Memory.directory?
    rw [spaces]
  | tune _ live tuned space =>
    exact h.updateEnv live (.of_tuned tuned) space fun _ hs => Or.inl (tuned.parked_eq hs)
  | park _ live _ _ _ offer =>
    refine h.updateEnv live ⟨isLive_parking _ _, rfl, rfl⟩ rfl fun send' hs => Or.inr ?_
    obtain rfl := Option.some.inj hs
    exact offer
  | wait _ live => exact h.updateEnv live ⟨isLive_waiting _ _, rfl, rfl⟩ rfl fun _ => Or.inl
  | remap _ _ _ _ keeps =>
    exact h.of_memory rfl keeps.size keeps.live fun s hs => Or.inl (keeps.active ▸ hs)
  | enlist alloc => exact h.enlist alloc
  | swap _ live live' ne tuned tuned' space space' =>
    exact h.swap live live' ne tuned tuned' space space'

/-- Every elementary change keeps the books balanced. -/
theorem Edit.balanced (he : Edit pins P k k') (h : k.Sound pins) : k'.memory.Balanced pins [] := by
  cases he with
  | quiet _ _ pool spaces =>
    have hb := h.balanced
    refine ⟨?_, by rw [pool]; exact hb.fits⟩
    rw [Memory.references, pool, spaces]
    exact hb.accounts
  | remap _ _ _ touches => exact (touches h.balanced).1
  | enlist alloc =>
    obtain ⟨s, hm, -⟩ := allocEnv_spec alloc
    exact (Memory.createSpace_spec h.balanced h.spaces_lt hm).1
  | tune => exact h.balanced
  | park => exact h.balanced
  | wait => exact h.balanced
  | swap => exact h.balanced

/-- **Every elementary change keeps the invariant.** -/
theorem Edit.sound (he : Edit pins P k k') (h : k.Sound pins) : k'.Sound pins :=
  ⟨he.housed h.toHoused, he.balanced h⟩

/-! ## The end of an environment -/

theorem afterEnd_self (id : EnvId) (slot : Nat) (e : Env) : afterEnd id slot slot e = { id } :=
  if_pos rfl

theorem afterEnd_of_ne {id : EnvId} {gone slot : Nat} (h : slot ≠ gone) (e : Env) :
    afterEnd id gone slot e =
      if e.isLive && e.sendsTo id then e.wakeSender CallError.badEnv.code else e :=
  if_neg h

/-- Who survives the end of another environment keeps its place, and loses at most the message
  that it had parked. -/
theorem tuned_afterEnd {id : EnvId} {gone slot : Nat} (h : slot ≠ gone) {e : Env}
    (he : e.isLive = true) :
    e.Tuned (afterEnd id gone slot e) ∧ (afterEnd id gone slot e).space = e.space := by
  rw [afterEnd_of_ne h]
  split
  · exact ⟨⟨rfl, rfl, rfl, fun hr => hr, Or.inr rfl⟩, rfl⟩
  · exact ⟨⟨rfl, rfl, he, fun hr => hr, Or.inl rfl⟩, rfl⟩

/-- Nobody comes to life by the end of an environment. -/
theorem isLive_of_afterEnd {id : EnvId} {gone slot : Nat} {e : Env}
    (h : (afterEnd id gone slot e).isLive = true) : slot ≠ gone ∧ e.isLive = true := by
  have hne : slot ≠ gone := by
    rintro rfl
    rw [afterEnd_self] at h
    cases h
  rw [afterEnd_of_ne hne] at h
  split at h
  · rename_i hc
    exact ⟨hne, (Bool.and_eq_true_iff.1 hc).1⟩
  · exact ⟨hne, h⟩

/-- Whoever is left when an environment ends is housed as before. -/
theorem Housed.destroy (h : k.Housed) {slot : Nat} (hl : (k.env slot).isLive = true) :
    (k.destroy slot).Housed := by
  have henv := env_destroy hl
  have hcap : (k.destroy slot).envs.capacity = k.envs.capacity := capacity_destroy
  obtain ⟨s, hs, hd⟩ := h.space slot hl
  have hmemory := memory_destroy hl hs
  have hdirs : ∀ r, (k.destroy slot).memory.directory? r =
      if r = s then none else k.memory.directory? r := by
    intro r
    rw [hmemory, Memory.directory?_destroySpace]
  have hsurvivor : ∀ e, ((k.destroy slot).env e).isLive = true →
      e ≠ slot ∧ (k.env e).isLive = true ∧ (k.env e).Tuned ((k.destroy slot).env e) ∧
        ((k.destroy slot).env e).space = (k.env e).space := by
    intro e he
    rw [henv e] at he ⊢
    obtain ⟨hne, hle⟩ := isLive_of_afterEnd he
    exact ⟨hne, hle, tuned_afterEnd hne hle⟩
  have hholds : ∀ e r, (k.destroy slot).Holds e r → k.Holds e r ∧ e ≠ slot := by
    intro e r he
    obtain ⟨hne, hle, -, hsp⟩ := hsurvivor e he.1
    exact ⟨⟨hle, hsp.symm.trans he.2⟩, hne⟩
  -- the space that ends is nobody else's
  have hapart : ∀ e r, k.Holds e r → e ≠ slot → r ≠ s := by
    rintro e r he hne rfl
    exact hne (h.apart e slot r he ⟨hl, hs⟩)
  exact {
    capacity := by
      rw [hcap]
      exact h.capacity
    spaces := by
      rw [hmemory, Memory.size_destroySpace, hcap]
      exact h.spaces
    number := by
      intro e he
      obtain ⟨-, hle, ht, -⟩ := hsurvivor e he
      rw [ht.id]
      exact h.number e hle
    space := by
      intro e he
      obtain ⟨hne, hle, -, hsp⟩ := hsurvivor e he
      obtain ⟨r, hr, hdr⟩ := h.space e hle
      refine ⟨r, hsp.trans hr, ?_⟩
      rwa [hdirs, if_neg (hapart e r ⟨hle, hr⟩ hne)]
    apart := fun a b r ha hb => h.apart a b r (hholds a r ha).1 (hholds b r hb).1
    owner := by
      intro r hr
      rw [hdirs] at hr
      split at hr
      · cases hr
      rename_i hrs
      obtain ⟨e, hle, her⟩ := h.owner r hr
      have hne : e ≠ slot := by
        rintro rfl
        exact hrs (Option.some.inj (her.symm.trans hs))
      have hkept := @tuned_afterEnd (k.env slot).id slot e hne (k.env e) hle
      rw [← henv e] at hkept
      obtain ⟨ht, hsp⟩ := hkept
      exact ⟨e, ht.live, hsp.trans her⟩
    active := by
      intro r hr
      rw [hmemory] at hr
      obtain ⟨hne, hold⟩ := Memory.active_destroySpace hd hr
      rw [hdirs, if_neg hne]
      exact h.active r hold
    offers := by
      intro e he send hsend
      obtain ⟨-, hle, ht, -⟩ := hsurvivor e he
      exact h.offers e hle send (ht.parked_eq hsend) }

/-- **The end of an environment keeps the invariant.** -/
theorem Sound.destroy (h : k.Sound pins) {slot : Nat} (hl : (k.env slot).isLive = true) :
    (k.destroy slot).Sound pins := by
  obtain ⟨s, hs, -⟩ := h.space slot hl
  refine ⟨h.toHoused.destroy hl, ?_⟩
  rw [memory_destroy hl hs]
  exact (Memory.destroySpace_spec h.balanced s).1

end Kernel

end Exokernel
