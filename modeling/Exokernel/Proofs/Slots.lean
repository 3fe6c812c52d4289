/-
  Records of environments, read after a change.

  Every record outside the table reads as a free slot, so a live environment is in the table and
  the record of a live slot after an update is what the update makes of it.  This is all that
  the proofs about calls use of the table.

  The end of an environment changes several records at once. `env_destroy` says what becomes of
  each: the slot is cleared, whoever has a message parked for the environment is woken, and
  nobody else notices.
-/
import Exokernel.Kernel.Operation

namespace Exokernel

theorem Env.sendsTo_iff {e : Env} {target : EnvId} :
    e.sendsTo target = true ↔ ∃ send, e.mailbox.parked = some send ∧ send.target = target := by
  unfold Env.sendsTo
  cases e.mailbox.parked with
  | none => simp
  | some send => simp

theorem Env.isLive_iff {e : Env} :
    e.isLive = true ↔ e.status = .runnable ∨ e.status = .notRunnable := by
  unfold Env.isLive
  cases e.status <;> simp

namespace EnvTable

theorem lt_capacity_of_isLive {t : EnvTable} {slot : Nat} (h : (t.get slot).isLive = true) :
    slot < t.capacity := by
  rcases Nat.lt_or_ge slot t.capacity with hlt | hge
  · exact hlt
  · rw [t.get_of_le hge] at h
    exact absurd h Bool.false_ne_true

theorem get_update_of_ne (t : EnvTable) {slot other : Nat} (change : Env → Env)
    (h : other ≠ slot) : (t.update slot change).get other = t.get other := by
  rcases Nat.lt_or_ge other t.capacity with hlt | hge
  · rw [t.get_update slot other change hlt, if_neg h.symm]
  · rw [t.get_of_le hge, get_of_le _ (by rw [capacity_update]; exact hge)]

theorem get_update_self (t : EnvTable) {slot : Nat} (change : Env → Env)
    (h : slot < t.capacity) : (t.update slot change).get slot = change (t.get slot) := by
  rw [t.get_update slot slot change h, if_pos rfl]

theorem mem_live_iff {t : EnvTable} {slot : Nat} : slot ∈ t.live ↔ (t.get slot).isLive = true := by
  rw [live, List.mem_filter, List.mem_range]
  exact ⟨fun h => h.2, fun h => ⟨lt_capacity_of_isLive h, h⟩⟩

theorem mem_sendersTo_iff {t : EnvTable} {slot : Nat} {target : EnvId} :
    slot ∈ t.sendersTo target ↔
      (t.get slot).isLive = true ∧ (t.get slot).sendsTo target = true := by
  rw [sendersTo, List.mem_filter, mem_live_iff]

theorem findFree_spec {t : EnvTable} {slot : Nat} (h : t.findFree = some slot) :
    slot < t.capacity ∧ (t.get slot).status = .free := by
  obtain ⟨hlt, hfree, -⟩ := Array.findIdx?_eq_some_iff_getElem.1 h
  refine ⟨hlt, ?_⟩
  rw [get, Array.getD_eq_getD_getElem?, Array.getElem?_eq_getElem hlt]
  simpa using hfree

theorem scan_spec {t : EnvTable} : ∀ {n slot r : Nat}, t.scan n slot = some r →
    (t.get r).status = .runnable
  | 0, _, _, h => by cases h
  | n + 1, slot, r, h => by
    unfold scan at h
    split at h
    · rename_i hs
      exact Option.some.inj h ▸ hs
    · exact scan_spec h

/-- Whoever is picked to run can run. -/
theorem pickNext_spec {t : EnvTable} {last : Option Nat} {slot : Nat}
    (h : t.pickNext last = some slot) : (t.get slot).status = .runnable :=
  scan_spec h

/-- A search that finds nobody has looked at as many slots as it was to. -/
theorem scan_eq_none {t : EnvTable} : ∀ {n start : Nat}, t.scan n (start % t.capacity) = none →
    ∀ i, i < n → (t.get ((start + i) % t.capacity)).status ≠ .runnable
  | 0, _, _, i, hi => absurd hi (Nat.not_lt_zero i)
  | n + 1, start, h, i, hi => by
    unfold scan at h
    split at h
    · cases h
    rename_i hfirst
    cases i with
    | zero => exact hfirst
    | succ i =>
      rw [Nat.mod_add_mod] at h
      have hrest := scan_eq_none h i (by omega)
      rwa [Nat.add_assoc, Nat.add_comm 1 i] at hrest

/-- From any slot on, every other is reached before the first comes again. -/
theorem exists_mod_eq {slot n : Nat} (h : slot < n) (start : Nat) :
    ∃ i, i < n ∧ (start + i) % n = slot := by
  have hfirst : start % n < n := Nat.mod_lt _ (by omega)
  rcases Nat.lt_or_ge slot (start % n) with hlt | hge
  · refine ⟨slot + n - start % n, by omega, ?_⟩
    rw [← Nat.mod_add_mod, show start % n + (slot + n - start % n) = slot + n by omega,
      Nat.add_mod_right, Nat.mod_eq_of_lt h]
  · refine ⟨slot - start % n, by omega, ?_⟩
    rw [← Nat.mod_add_mod, show start % n + (slot - start % n) = slot by omega,
      Nat.mod_eq_of_lt h]

/-- Nobody is picked only if nobody can run. -/
theorem pickNext_eq_none {t : EnvTable} {last : Option Nat} (h : t.pickNext last = none)
    (slot : Nat) : (t.get slot).status ≠ .runnable := by
  rcases Nat.lt_or_ge slot t.capacity with hlt | hge
  · -- wherever the search begins, it comes to the slot
    obtain ⟨start, hscan⟩ : ∃ start, t.scan t.capacity (start % t.capacity) = none := ⟨_, h⟩
    obtain ⟨i, hi, hslot⟩ := exists_mod_eq hlt start
    exact hslot ▸ scan_eq_none hscan i hi
  · rw [t.get_of_le hge]
    intro hfree
    cases hfree

end EnvTable

namespace Kernel

variable {k : Kernel} {slot other : Nat}

theorem lt_capacity_of_isLive (h : (k.env slot).isLive = true) : slot < k.envs.capacity :=
  EnvTable.lt_capacity_of_isLive h

theorem env_updateEnv_of_ne (change : Env → Env) (h : other ≠ slot) :
    (k.updateEnv slot change).env other = k.env other :=
  k.envs.get_update_of_ne change h

theorem env_updateEnv_self (change : Env → Env) (h : (k.env slot).isLive = true) :
    (k.updateEnv slot change).env slot = change (k.env slot) :=
  k.envs.get_update_self change (lt_capacity_of_isLive h)

@[simp] theorem env_note (e : Event) : (k.note e).env slot = k.env slot := rfl

@[simp] theorem memory_note (e : Event) : (k.note e).memory = k.memory := rfl

@[simp] theorem config_note (e : Event) : (k.note e).config = k.config := rfl

@[simp] theorem config_vacate : (k.vacate slot).config = k.config := rfl

@[simp] theorem capacity_updateEnv (change : Env → Env) :
    (k.updateEnv slot change).envs.capacity = k.envs.capacity :=
  EnvTable.capacity_update _ _ _

/-! ## The end of an environment -/

/-- From `k` to `k'`, only records and the log change. -/
structure RecordsOnly (k k' : Kernel) : Prop where
  memory : k'.memory = k.memory
  config : k'.config = k.config
  console : k'.console = k.console
  current : k'.current = k.current
  capacity : k'.envs.capacity = k.envs.capacity

theorem RecordsOnly.refl (k : Kernel) : k.RecordsOnly k := ⟨rfl, rfl, rfl, rfl, rfl⟩

theorem RecordsOnly.trans {k' k'' : Kernel} (h : k.RecordsOnly k') (h' : k'.RecordsOnly k'') :
    k.RecordsOnly k'' where
  memory := h'.memory.trans h.memory
  config := h'.config.trans h.config
  console := h'.console.trans h.console
  current := h'.current.trans h.current
  capacity := h'.capacity.trans h.capacity

theorem recordsOnly_updateEnv (change : Env → Env) : k.RecordsOnly (k.updateEnv slot change) :=
  ⟨rfl, rfl, rfl, rfl, capacity_updateEnv change⟩

theorem recordsOnly_abortSend (target : EnvId) : k.RecordsOnly (k.abortSend target slot) :=
  ⟨rfl, rfl, rfl, rfl, capacity_updateEnv _⟩

theorem env_abortSend (target : EnvId) (h : slot < k.envs.capacity) (e : Nat) :
    (k.abortSend target slot).env e =
      if e = slot then (k.env e).wakeSender CallError.badEnv.code else k.env e := by
  by_cases he : e = slot
  · subst he
    rw [if_pos rfl]
    exact k.envs.get_update_self _ h
  · rw [if_neg he]
    exact env_updateEnv_of_ne _ he

theorem recordsOnly_foldl (target : EnvId) (senders : List Nat) :
    ∀ k : Kernel, k.RecordsOnly (senders.foldl (fun k s => k.abortSend target s) k) := by
  induction senders with
  | nil => exact RecordsOnly.refl
  | cons s senders ih => exact fun k => (recordsOnly_abortSend target).trans (ih _)

/-- Giving up parked messages wakes their senders, each once. -/
theorem env_foldl_abortSend (target : EnvId) (senders : List Nat) :
    ∀ k : Kernel, (∀ s ∈ senders, s < k.envs.capacity) → ∀ e,
      (senders.foldl (fun k s => k.abortSend target s) k).env e =
        if e ∈ senders then (k.env e).wakeSender CallError.badEnv.code else k.env e := by
  induction senders with
  | nil =>
    intro k _ e
    rw [if_neg List.not_mem_nil]
    rfl
  | cons s senders ih =>
    intro k hlt e
    have hrest : ∀ r ∈ senders, r < (k.abortSend target s).envs.capacity := by
      intro r hr
      rw [(recordsOnly_abortSend target).capacity]
      exact hlt r (List.mem_cons_of_mem _ hr)
    rw [List.foldl_cons, ih _ hrest e, env_abortSend target (hlt s List.mem_cons_self)]
    by_cases he : e = s
    · -- waking an environment twice is no different from waking it once
      subst he
      rw [if_pos rfl, if_pos List.mem_cons_self]
      split <;> rfl
    · rw [if_neg he]
      simp only [List.mem_cons, he, false_or]

/-- The kernel when the environment in a slot is about to end: it is not live any more, and nobody
  waits for it. -/
def dying (k : Kernel) (slot : Nat) : Kernel :=
  let marked := k.updateEnv slot fun e => { e with status := .dying }
  (marked.envs.sendersTo (k.env slot).id).foldl
    (fun k' sender => k'.abortSend (k.env slot).id sender) marked

theorem destroy_eq : k.destroy slot = ((k.dying slot).vacate slot).note (.freed (k.env slot).id) :=
  rfl

theorem recordsOnly_dying : k.RecordsOnly (k.dying slot) :=
  (recordsOnly_updateEnv _).trans (recordsOnly_foldl _ _ _)

theorem env_dying (h : (k.env slot).isLive = true) (e : Nat) :
    (k.dying slot).env e =
      if e = slot then { k.env slot with status := .dying }
      else if (k.env e).isLive && (k.env e).sendsTo (k.env slot).id then
        (k.env e).wakeSender CallError.badEnv.code
      else k.env e := by
  let marked := k.updateEnv slot fun e => { e with status := .dying }
  have hself : marked.env slot = { k.env slot with status := .dying } := env_updateEnv_self _ h
  have hfold : (k.dying slot).env e = if e ∈ marked.envs.sendersTo (k.env slot).id then
      (marked.env e).wakeSender CallError.badEnv.code else marked.env e :=
    env_foldl_abortSend _ _ marked (fun s hs =>
      EnvTable.lt_capacity_of_isLive (EnvTable.mem_sendersTo_iff.1 hs).1) e
  rw [hfold]
  by_cases he : e = slot
  · -- the environment that ends is not live any more when the senders are collected
    have hnot : slot ∉ marked.envs.sendersTo (k.env slot).id := by
      intro hm
      have hl : (marked.env slot).isLive = true := (EnvTable.mem_sendersTo_iff.1 hm).1
      rw [hself] at hl
      cases hl
    rw [he, if_neg hnot, if_pos rfl, hself]
  · have hother : marked.env e = k.env e := env_updateEnv_of_ne _ he
    have hin : e ∈ marked.envs.sendersTo (k.env slot).id ↔
        ((k.env e).isLive && (k.env e).sendsTo (k.env slot).id) = true := by
      rw [EnvTable.mem_sendersTo_iff, Bool.and_eq_true]
      show (marked.env e).isLive = true ∧ (marked.env e).sendsTo (k.env slot).id = true ↔ _
      rw [hother]
    rw [if_neg he, hother]
    simp only [hin]

/-- What a record becomes when the environment with the id `id` in the slot `gone` ends. -/
def afterEnd (id : EnvId) (gone slot : Nat) (e : Env) : Env :=
  if slot = gone then { id }
  else if e.isLive && e.sendsTo id then e.wakeSender CallError.badEnv.code
  else e

/-- **The end of an environment**, record by record. -/
theorem env_destroy (h : (k.env slot).isLive = true) (e : Nat) :
    (k.destroy slot).env e = afterEnd (k.env slot).id slot e (k.env e) := by
  have hlt : slot < (k.dying slot).envs.capacity := by
    rw [recordsOnly_dying.capacity]
    exact lt_capacity_of_isLive h
  rw [destroy_eq, env_note]
  unfold afterEnd
  by_cases he : e = slot
  · subst he
    have hcleared : ((k.dying e).vacate e).env e = { id := ((k.dying e).env e).id } :=
      EnvTable.get_update_self _ _ hlt
    rw [if_pos rfl, hcleared, env_dying h, if_pos rfl]
  · have hkept : ((k.dying slot).vacate slot).env e = (k.dying slot).env e :=
      EnvTable.get_update_of_ne _ _ he
    rw [if_neg he, hkept, env_dying h, if_neg he]

/-- The space of an environment ends with it. -/
theorem memory_destroy {s : SpaceId} (h : (k.env slot).isLive = true)
    (hs : (k.env slot).space = some s) :
    (k.destroy slot).memory = k.memory.destroySpace s := by
  have hspace : ((k.dying slot).env slot).space = some s := by
    rw [env_dying h, if_pos rfl]
    exact hs
  have hvacate : ((k.dying slot).vacate slot).memory = (k.dying slot).memory.destroySpace s := by
    rw [vacate, hspace]
  rw [destroy_eq, memory_note, hvacate, recordsOnly_dying.memory]

theorem config_destroy : (k.destroy slot).config = k.config := by
  rw [destroy_eq, config_note, config_vacate, recordsOnly_dying.config]

theorem console_destroy : (k.destroy slot).console = k.console := by
  rw [destroy_eq]
  exact recordsOnly_dying.console

theorem capacity_destroy : (k.destroy slot).envs.capacity = k.envs.capacity :=
  (EnvTable.capacity_update _ _ _).trans recordsOnly_dying.capacity

end Kernel

end Exokernel
