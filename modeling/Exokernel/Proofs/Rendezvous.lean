/-
  Nobody waits for somebody who waits, too.

  A parked message and a waiting receiver are two halves of a meeting, written by different
  calls into different records. `Met` says that the halves never miss each other: whom a message
  is parked for is live and does not wait.

  Only two changes can break that.  One parks a message, and it looks first whether the target
  waits; the other begins to wait, and it looks first whether a message is parked.  The end of
  an environment wakes whoever has a message parked for it.
-/
import Exokernel.Proofs.Steps

namespace Exokernel.Kernel

variable {pins : List Frame} {P : Nat → Prop} {k k' : Kernel}

/-- Every parked message is for another live environment, which does not wait. -/
def Met (k : Kernel) : Prop :=
  ∀ a, (k.env a).isLive = true → ∀ send, (k.env a).mailbox.parked = some send →
    send.target ≠ (k.env a).id ∧
      ∃ b, k.envs.resolve send.target = some b ∧ (k.env b).mailbox.receiving = false

/-- An id names the same slot as before when the environment there is still the same. -/
theorem resolve_of_persists {id : EnvId} {b : Nat} (h : k.envs.resolve id = some b)
    (hp : Persists (k.env b) (k'.env b)) : k'.envs.resolve id = some b := by
  obtain ⟨hslot, -, hid⟩ := EnvTable.resolve_eq_some_iff.1 h
  exact EnvTable.resolve_eq_some_iff.2 ⟨hslot, hp.live, hp.id.trans hid⟩

/-- Messages stay met when nobody begins to wait, nobody parks another one, and their targets
  stay. -/
theorem Met.of_kept (h : k.Met)
    (senders : ∀ a, (k'.env a).isLive = true → ∀ send, (k'.env a).mailbox.parked = some send →
      (k.env a).isLive = true ∧ (k.env a).mailbox.parked = some send ∧
        (k'.env a).id = (k.env a).id)
    (targets : ∀ a, (k'.env a).isLive = true → ∀ send, (k'.env a).mailbox.parked = some send →
      ∀ b, k.envs.resolve send.target = some b → (k.env b).Tuned (k'.env b)) : k'.Met := by
  intro a ha send hsend
  obtain ⟨hl, hp, hid⟩ := senders a ha send hsend
  obtain ⟨hne, b, hb, haway⟩ := h a hl send hp
  have ht := targets a ha send hsend b hb
  refine ⟨by rw [hid]; exact hne, b, resolve_of_persists hb (.of_tuned ht), ?_⟩
  exact Bool.eq_false_iff.2 fun hr => Bool.false_ne_true (haway.symm.trans (ht.receiving hr))

/-- Records are tuned, and there may be newcomers, who have parked nothing. -/
theorem Met.of_tuned (h : k.Met) (tuned : ∀ e, (k.env e).isLive = true → (k.env e).Tuned (k'.env e))
    (newcomers : ∀ e, (k'.env e).isLive = true →
      (k.env e).isLive = true ∨ (k'.env e).mailbox.parked = none) : k'.Met := by
  refine h.of_kept (fun a ha send hsend => ?_) fun _ _ _ _ b hb =>
    tuned b (EnvTable.resolve_eq_some_iff.1 hb).2.1
  rcases newcomers a ha with hl | hnone
  · have ht := tuned a hl
    exact ⟨hl, ht.parked_eq hsend, ht.id⟩
  · rw [hnone] at hsend
    cases hsend

theorem tuned_refl {e : Env} (h : e.isLive = true) : e.Tuned e :=
  ⟨rfl, rfl, h, fun hr => hr, Or.inl rfl⟩

/-! ## Parking and waiting -/

/-- A message is parked for somebody who does not wait. -/
theorem Met.park (h : k.Met) (hk : k.Sound pins) {slot target : Nat} {send : ParkedSend}
    (hl : (k.env slot).isLive = true) (hr : k.envs.resolve send.target = some target)
    (hne : target ≠ slot) (haway : (k.env target).mailbox.receiving = false) :
    (k.updateEnv slot fun e => parking e send).Met := by
  have hrec := env_updateEnv_eq (fun e => parking e send) hl
  have hpersists : ∀ {b : Nat}, (k.env b).isLive = true →
      Persists (k.env b) ((k.updateEnv slot fun e => parking e send).env b) := fun hb =>
    persists_updateEnv hl ⟨isLive_parking _ _, rfl, rfl⟩ _ hb
  -- parking changes nobody's readiness to receive
  have hready : ∀ b, ((k.updateEnv slot fun e => parking e send).env b).mailbox.receiving =
      (k.env b).mailbox.receiving := by
    intro b
    rw [hrec]
    split
    · rename_i heq
      subst heq
      rfl
    · rfl
  intro a ha send' hsend
  rw [hrec] at ha hsend ⊢
  split at hsend
  · rename_i heq
    subst heq
    rw [if_pos rfl]
    obtain rfl : send = send' := Option.some.inj hsend
    obtain ⟨hslot, hlt, -⟩ := EnvTable.resolve_eq_some_iff.1 hr
    refine ⟨fun hself => ?_, target, resolve_of_persists hr (hpersists hlt), ?_⟩
    · have hself' : send.target = (k.env a).id := hself
      rw [hself', hk.number a hl] at hslot
      exact hne hslot.symm
    · rw [hready]
      exact haway
  · rename_i hother
    rw [if_neg hother] at ha ⊢
    obtain ⟨hne', b, hb, haway'⟩ := h a ha send' hsend
    obtain ⟨-, hlb, -⟩ := EnvTable.resolve_eq_some_iff.1 hb
    exact ⟨hne', b, resolve_of_persists hb (hpersists hlb), (hready b).trans haway'⟩

/-- Somebody waits for whom no message is parked. -/
theorem Met.wait (h : k.Met) {slot : Nat} {dest : Option VirtAddr}
    (hl : (k.env slot).isLive = true) (hnone : k.firstParked (k.env slot).id = none) :
    (k.updateEnv slot fun e => waiting e dest).Met := by
  have hrec := env_updateEnv_eq (fun e => waiting e dest) hl
  intro a ha send hsend
  have hold : (k.env a).isLive = true ∧ (k.env a).mailbox.parked = some send ∧
      ((k.updateEnv slot fun e => waiting e dest).env a).id = (k.env a).id := by
    rw [hrec] at ha hsend ⊢
    split
    · rename_i heq
      subst heq
      rw [if_pos rfl] at hsend
      exact ⟨hl, hsend, rfl⟩
    · rename_i hother
      rw [if_neg hother] at ha hsend
      exact ⟨ha, hsend, rfl⟩
  obtain ⟨hla, hp, hid⟩ := hold
  obtain ⟨hne, b, hb, haway⟩ := h a hla send hp
  obtain ⟨-, hlb, hidb⟩ := EnvTable.resolve_eq_some_iff.1 hb
  -- the target is not the one that begins to wait, or the message would have been found
  have hother : b ≠ slot := by
    rintro rfl
    have hnot := firstParked_eq_none hnone a hla
    have hsends : (k.env a).sendsTo (k.env b).id = true :=
      Env.sendsTo_iff.2 ⟨send, hp, hidb.symm⟩
    exact Bool.false_ne_true (hnot.symm.trans hsends)
  have hsame : (k.updateEnv slot fun e => waiting e dest).env b = k.env b := by
    rw [hrec, if_neg hother]
  refine ⟨by rw [hid]; exact hne, b, resolve_of_persists hb (by rw [hsame]; exact .refl hlb), ?_⟩
  rw [hsame]
  exact haway

/-! ## Every step -/

theorem Edit.met (he : Edit pins P k k') (hk : k.Sound pins) (h : k.Met) : k'.Met := by
  have hjoined : ∀ e, (k'.env e).isLive = true →
      (k.env e).isLive = true ∨ (k'.env e).mailbox.parked = none := by
    intro e hl
    rcases he.joined hl with hold | ⟨-, parent, s, hnew⟩
    · exact Or.inl hold
    · rw [hnew]
      exact Or.inr rfl
  cases he with
  | quiet _ envs =>
    have hsame : ∀ e, k'.env e = k.env e := fun e => congrArg (EnvTable.get · e) envs
    refine h.of_tuned (fun e hl => ?_) hjoined
    rw [hsame]
    exact tuned_refl hl
  | @tune slot change _ live tuned =>
    refine h.of_tuned (fun e hl => ?_) hjoined
    rw [env_updateEnv_eq change live]
    split
    · rename_i heq
      exact heq ▸ tuned
    · exact tuned_refl hl
  | park _ live resolves other away => exact h.park hk live resolves other away
  | wait _ live none => exact h.wait live none
  | remap => exact h.of_tuned (fun e => tuned_refl) hjoined
  | @enlist parent slot _ alloc =>
    obtain ⟨s, -, -, hdead, -, hothers, -⟩ := allocEnv_spec alloc
    refine h.of_tuned (fun e hl => ?_) hjoined
    rw [hothers e (ne_of_isLive hl hdead)]
    exact tuned_refl hl
  | @swap a b f g _ live live' ne tuned tuned' =>
    obtain ⟨ha, hb, hothers⟩ := env_updateEnv_two ne live live' (f := f) (g := g)
    refine h.of_tuned (fun e hl => ?_) hjoined
    by_cases hea : e = a
    · subst hea
      rwa [ha]
    by_cases heb : e = b
    · subst heb
      rwa [hb]
    · rw [hothers e hea heb]
      exact tuned_refl hl

/-- The end of an environment leaves no message parked for it. -/
theorem Met.destroy (h : k.Met) {slot : Nat} (hl : (k.env slot).isLive = true) :
    (k.destroy slot).Met := by
  have henv := env_destroy hl
  have hsurvivor : ∀ a, a ≠ slot → (k.env a).isLive = true →
      (k.env a).Tuned ((k.destroy slot).env a) := by
    intro a hne hla
    rw [henv]
    exact (tuned_afterEnd hne hla).1
  have hlive : ∀ a, ((k.destroy slot).env a).isLive = true →
      a ≠ slot ∧ (k.env a).isLive = true := by
    intro a ha
    rw [henv] at ha
    exact isLive_of_afterEnd ha
  refine h.of_kept (fun a ha send hsend => ?_) fun a ha send hsend b hb => ?_
  · obtain ⟨hne, hla⟩ := hlive a ha
    have ht := hsurvivor a hne hla
    exact ⟨hla, ht.parked_eq hsend, ht.id⟩
  · obtain ⟨hne, hla⟩ := hlive a ha
    have hp := (hsurvivor a hne hla).parked_eq hsend
    obtain ⟨-, hlb, hidb⟩ := EnvTable.resolve_eq_some_iff.1 hb
    refine hsurvivor b ?_ hlb
    -- a message for the environment that ends would have been given up
    rintro rfl
    have hsends : (k.env a).sendsTo (k.env b).id = true :=
      Env.sendsTo_iff.2 ⟨send, hp, hidb.symm⟩
    rw [henv, afterEnd_of_ne hne, hla, hsends] at hsend
    cases hsend

theorem Met.boot (h : k.Booted pins) : k.Met := by
  intro a ha
  rw [h.env] at ha
  cases ha

theorem Move.met (hmove : Move pins k k') (hk : k.Sound pins) (hm : k.Met) : k'.Met := by
  cases hmove with
  | edit he => exact he.met hk hm
  | ending hl => exact hm.destroy hl
  | store => exact hm

theorem Reachable.met (h : Reachable pins k) : k.Met :=
  h.invariant (fun _ => Met.boot) fun _ _ hk hm hmove => hmove.met hk hm

/-- **Nobody misses a message, and no message waits for the dead.**  In every reachable state a
  parked message is for another environment, which is live and does not wait. -/
theorem parked_for_live_busy (h : Reachable pins k) {a : Nat} {send : ParkedSend}
    (ha : (k.env a).isLive = true) (hsend : (k.env a).mailbox.parked = some send) :
    send.target ≠ (k.env a).id ∧ ∃ b, k.envs.resolve send.target = some b ∧
      (k.env b).isLive = true ∧ (k.env b).mailbox.receiving = false := by
  obtain ⟨hne, b, hb, haway⟩ := h.met a ha send hsend
  exact ⟨hne, b, hb, (EnvTable.resolve_eq_some_iff.1 hb).2.1, haway⟩

/-- Two environments, of which the first sends a word to the second, which does not wait. -/
def sentTooEarly : Kernel :=
  small.after [.create .none 0 0, .create .none 0 0, .run ⟨4096⟩,
    .call 14 #v[4097, 42, 0xEEC00000, 0, 0]]

theorem parked_for_live_busy_sentTooEarly :
    ∃ send, (sentTooEarly.env 0).mailbox.parked = some send ∧
      send.target ≠ (sentTooEarly.env 0).id ∧ ∃ b, sentTooEarly.envs.resolve send.target = some b ∧
        (sentTooEarly.env b).isLive = true ∧ (sentTooEarly.env b).mailbox.receiving = false :=
  ⟨{ target := ⟨4097⟩, value := 42, page := none }, by decide +kernel,
    parked_for_live_busy (reachable_small _) (by decide +kernel) (by decide +kernel)⟩

end Exokernel.Kernel
