/-
  Round robin: who is picked, and how long anybody waits.

  The search for the next environment goes around the table, so the natural measure of a slot is
  how many slots the search passes before it comes to it: `ahead`, which is `slot - last - 1`
  modulo the capacity.  `pickNext` takes the slot that can run and is the least far ahead, and that
  is all that is ever used of it below (`pickNext_eq_some_iff`); the recursion is opened once, in
  `scan_eq_some`.

  Nobody starves.  The obvious measure is how far the waiting slot is ahead of the slot picked last,
  and it does shrink with each pick; but a measure whose origin moves says nothing about two picks
  that are not neighbours.  So all picks are measured from where the first search began: until the
  waiting slot has its turn they only ever move away from there and never pass the waiting slot
  (`picks_climb`).  A strictly climbing sequence repeats nothing and is shorter than the table, and
  both halves of the law are read off it, whatever the other records do between the picks.
-/
import Mathlib.Data.Int.ModEq
import Mathlib.Data.Nat.Find
import Mathlib.Tactic.Push
import Exokernel.Proofs.Slots

namespace Exokernel.EnvTable

variable {t : EnvTable} {n slot other p q : Nat} {last : Option Nat}

/-! ## The way around the table -/

/-- Where the search begins that follows a pick of `last`, before it is taken around the table. -/
def searchStart : Option Nat → Nat
  | some slot => slot + 1
  | none => 0

/-- How many slots of a table of `n` the search after `last` passes before it comes to a slot:
  `slot - last - 1`, modulo `n`. -/
def ahead (n : Nat) (last : Option Nat) (slot : Nat) : Int :=
  ((slot : Int) - (searchStart last : Int)) % (n : Int)

theorem ahead_modEq (last : Option Nat) (slot : Nat) :
    ahead n last slot ≡ slot - searchStart last [ZMOD n] :=
  Int.emod_emod_of_dvd _ (dvd_refl _)

theorem ahead_nonneg (hn : 0 < n) (last : Option Nat) (slot : Nat) : 0 ≤ ahead n last slot :=
  Int.emod_nonneg _ (by omega)

theorem ahead_lt (hn : 0 < n) (last : Option Nat) (slot : Nat) : ahead n last slot < n :=
  Int.emod_lt_of_pos _ (by omega)

/-- The slots in the order of the search. -/
theorem ahead_add_mod (last : Option Nat) {i : Nat} (hi : i < n) :
    ahead n last ((searchStart last + i) % n) = i := by
  have hcast : (((searchStart last + i) % n : Nat) : Int) = ((searchStart last : Int) + i) % n := by
    push_cast
    rfl
  have hback : (searchStart last : Int) + i - searchStart last = i := by omega
  rw [ahead, hcast, Int.emod_sub_emod, hback, Int.emod_eq_of_lt (by omega) (by omega)]

/-- No two slots are equally far ahead. -/
theorem ahead_inj (last : Option Nat) (hslot : slot < n) (hother : other < n)
    (h : ahead n last slot = ahead n last other) : slot = other := by
  obtain ⟨i, hi, rfl⟩ := exists_mod_eq hslot (searchStart last)
  obtain ⟨j, hj, rfl⟩ := exists_mod_eq hother (searchStart last)
  rw [ahead_add_mod last hi, ahead_add_mod last hj] at h
  have hij : i = j := by omega
  rw [hij]

/-- How far a slot is ahead of `p`, told by how far both are ahead of some other place: those that
  are behind `p` come once the search has been around. -/
theorem ahead_some (hn : 0 < n) (last : Option Nat) (p slot : Nat) :
    ahead n (some p) slot =
      if ahead n last p < ahead n last slot then ahead n last slot - ahead n last p - 1
      else ahead n last slot - ahead n last p - 1 + n := by
  have hp0 := ahead_nonneg hn last p
  have hs0 := ahead_nonneg hn last slot
  have hpn := ahead_lt hn last p
  have hsn := ahead_lt hn last slot
  have hcong : ahead n (some p) slot = (ahead n last slot - ahead n last p - 1) % n := by
    have hdiff : (slot : Int) - searchStart (some p) =
        (slot - searchStart last) - (p - searchStart last) - 1 := by
      show (slot : Int) - ((p + 1 : Nat) : Int) = _
      omega
    rw [ahead, hdiff]
    show (_ : Int) ≡ ahead n last slot - ahead n last p - 1 [ZMOD n]
    exact ((ahead_modEq last slot).symm.sub (ahead_modEq last p).symm).sub_right 1
  rw [hcong]
  split
  · exact Int.emod_eq_of_lt (by omega) (by omega)
  · rw [← Int.add_emod_right]
    exact Int.emod_eq_of_lt (by omega) (by omega)

/-! ## One pick -/

/-- A search that finds somebody has passed nobody. -/
theorem scan_eq_some {r : Nat} : ∀ {n start : Nat}, t.scan n (start % t.capacity) = some r →
    ∃ i, i < n ∧ r = (start + i) % t.capacity ∧
      ∀ j, j < i → (t.get ((start + j) % t.capacity)).status ≠ .runnable
  | 0, _, h => by cases h
  | n + 1, start, h => by
    unfold scan at h
    split at h
    · exact ⟨0, by omega, (Option.some.inj h).symm, fun j hj => absurd hj (Nat.not_lt_zero j)⟩
    · rename_i hfirst
      rw [Nat.mod_add_mod] at h
      obtain ⟨i, hi, hr, hpassed⟩ := scan_eq_some h
      refine ⟨i + 1, by omega, ?_, ?_⟩
      · rw [hr, Nat.add_assoc, Nat.add_comm 1 i]
      · intro j hj
        cases j with
        | zero => exact hfirst
        | succ j =>
          have hpass := hpassed j (by omega)
          rwa [Nat.add_assoc, Nat.add_comm 1 j] at hpass

theorem pickNext_eq_scan : t.pickNext last = t.scan t.capacity (searchStart last % t.capacity) := by
  cases last <;> rfl

theorem lt_capacity_of_runnable (h : (t.get slot).status = .runnable) : slot < t.capacity :=
  lt_capacity_of_isLive (Env.isLive_iff.2 (.inl h))

/-- Whoever is picked is the least far ahead of all who can run. -/
theorem ahead_le_of_pickNext (h : t.pickNext last = some slot)
    (hother : (t.get other).status = .runnable) :
    ahead t.capacity last slot ≤ ahead t.capacity last other := by
  rw [pickNext_eq_scan] at h
  obtain ⟨i, hi, rfl, hpassed⟩ := scan_eq_some h
  obtain ⟨j, hj, rfl⟩ := exists_mod_eq (lt_capacity_of_runnable hother) (searchStart last)
  rw [ahead_add_mod last hi, ahead_add_mod last hj]
  rcases Nat.lt_or_ge j i with hlt | hge
  · exact absurd hother (hpassed j hlt)
  · omega

theorem pickNext_eq_none_iff :
    t.pickNext last = none ↔ ∀ slot, (t.get slot).status ≠ .runnable := by
  constructor
  · exact fun h => pickNext_eq_none h
  · intro hnobody
    cases hpick : t.pickNext last with
    | none => rfl
    | some slot => exact absurd (pickNext_spec hpick) (hnobody slot)

theorem exists_pickNext (last : Option Nat) (h : (t.get slot).status = .runnable) :
    ∃ p, t.pickNext last = some p := by
  rw [← Option.isSome_iff_exists, Option.isSome_iff_ne_none]
  exact fun hnone => pickNext_eq_none hnone slot h

/-- **The pick.** -/
theorem pickNext_eq_some_iff : t.pickNext last = some slot ↔
    (t.get slot).status = .runnable ∧
      ∀ other, (t.get other).status = .runnable →
        ahead t.capacity last slot ≤ ahead t.capacity last other := by
  constructor
  · intro h
    exact ⟨pickNext_spec h, fun other hother => ahead_le_of_pickNext h hother⟩
  · rintro ⟨hrun, hleast⟩
    cases hpick : t.pickNext last with
    | none => exact absurd hrun (pickNext_eq_none hpick slot)
    | some p =>
      have hp : (t.get p).status = .runnable := pickNext_spec hpick
      have hsame : ahead t.capacity last p = ahead t.capacity last slot :=
        Int.le_antisymm (ahead_le_of_pickNext hpick hrun) (hleast p hp)
      rw [ahead_inj last (lt_capacity_of_runnable hp) (lt_capacity_of_runnable hrun) hsame]

/-- Nobody is further ahead than the slot picked last. -/
theorem ahead_self (hn : 0 < n) (p : Nat) : ahead n (some p) p = n - 1 := by
  rw [ahead_some hn none p p, if_neg (Int.lt_irrefl _)]
  omega

theorem only_runnable_of_pickNext (h : t.pickNext (some slot) = some slot)
    (hother : (t.get other).status = .runnable) : other = slot := by
  have hslot : slot < t.capacity := lt_capacity_of_runnable (pickNext_spec h)
  have hlast : ahead t.capacity (some slot) slot = t.capacity - 1 := ahead_self (by omega) slot
  have hle := ahead_le_of_pickNext h hother
  have hlt : ahead t.capacity (some slot) other < t.capacity := ahead_lt (by omega) _ _
  exact ahead_inj (some slot) (lt_capacity_of_runnable hother) hslot (by omega)

/-! ## Pick after pick -/

/-- The picks from a sequence of tables, each following the one before it. -/
def picks (tables : Nat → EnvTable) (last : Option Nat) : Nat → Option Nat
  | 0 => (tables 0).pickNext last
  | i + 1 => (tables (i + 1)).pickNext (picks tables last i)

/-- A pick moves away from any place behind the slot picked last, and never past a slot that
  can run. -/
theorem ahead_of_pickNext_some (last : Option Nat)
    (hslot : (t.get slot).status = .runnable)
    (hbehind : ahead t.capacity last p < ahead t.capacity last slot)
    (h : t.pickNext (some p) = some q) :
    ahead t.capacity last p < ahead t.capacity last q ∧
      ahead t.capacity last q ≤ ahead t.capacity last slot := by
  have hpos : 0 < t.capacity := Nat.zero_lt_of_lt (lt_capacity_of_runnable hslot)
  have hle := ahead_le_of_pickNext h hslot
  rw [ahead_some hpos last p q, ahead_some hpos last p slot, if_pos hbehind] at hle
  have hq0 := ahead_nonneg hpos last q
  have hsn := ahead_lt hpos last slot
  split at hle
  · exact ⟨by assumption, by omega⟩
  · -- around the table and back behind `p`, the search would have met the waiting slot
    omega

variable {tables : Nat → EnvTable}

theorem picks_spec {i : Nat} (h : picks tables last i = some p) :
    ((tables i).get p).status = .runnable := by
  cases i with
  | zero => exact pickNext_spec h
  | succ i => exact pickNext_spec h

/-- Until a slot that can always run has its turn, the picks climb towards it. -/
theorem picks_climb (hcap : ∀ i, (tables i).capacity = n)
    (hrun : ∀ i, ((tables i).get slot).status = .runnable) :
    ∀ i, (∀ j, j < i → picks tables last j ≠ some slot) →
      ∃ p, picks tables last i = some p ∧ i ≤ ahead n last p ∧
        ahead n last p ≤ ahead n last slot ∧
        ∀ j, j < i → ∃ q, picks tables last j = some q ∧ ahead n last q < ahead n last p := by
  have hslot : slot < n := hcap 0 ▸ lt_capacity_of_runnable (hrun 0)
  intro i
  induction i with
  | zero =>
    intro _
    obtain ⟨p, hp⟩ := exists_pickNext last (hrun 0)
    have hle := ahead_le_of_pickNext hp (hrun 0)
    rw [hcap] at hle
    exact ⟨p, hp, ahead_nonneg (by omega) last p, hle, fun j hj => absurd hj (Nat.not_lt_zero j)⟩
  | succ i ih =>
    intro hnot
    obtain ⟨p, hp, hip, hple, hbefore⟩ := ih fun j hj => hnot j (by omega)
    -- the pick before was not the waiting slot, so it fell short of it
    have hbehind : ahead n last p < ahead n last slot := by
      rcases Int.lt_or_eq_of_le hple with hlt | heq
      · exact hlt
      · have hpn : p < n := hcap i ▸ lt_capacity_of_runnable (picks_spec hp)
        rw [ahead_inj last hpn hslot heq] at hp
        exact absurd hp (hnot i (by omega))
    obtain ⟨q, hq⟩ := exists_pickNext (some p) (hrun (i + 1))
    have hstep := ahead_of_pickNext_some last (hrun (i + 1)) (by rwa [hcap]) hq
    rw [hcap] at hstep
    obtain ⟨hpq, hqs⟩ := hstep
    refine ⟨q, by rw [picks, hp, hq], by omega, hqs, ?_⟩
    intro j hj
    rcases Nat.lt_succ_iff_lt_or_eq.1 hj with hlt | rfl
    · obtain ⟨r, hr, hrp⟩ := hbefore j hlt
      exact ⟨r, hr, Int.lt_trans hrp hpq⟩
    · exact ⟨p, hp, hpq⟩

/-- A slot that can always run is picked before the others have all been picked, and nobody is
  picked twice until then. -/
theorem exists_picks (hcap : ∀ i, (tables i).capacity = n)
    (hrun : ∀ i, ((tables i).get slot).status = .runnable) :
    ∃ i, i < n ∧ picks tables last i = some slot ∧
      ∀ j k, j < k → k ≤ i → picks tables last j ≠ picks tables last k := by
  have hslot : slot < n := hcap 0 ▸ lt_capacity_of_runnable (hrun 0)
  have hserved : ∃ i, i < n ∧ picks tables last i = some slot := by
    by_contra hno
    push Not at hno
    -- otherwise the pick after the `n`-th would be `n` slots ahead
    obtain ⟨p, -, hnp, hps, -⟩ := picks_climb hcap hrun n hno
    have hsn := ahead_lt (show 0 < n by omega) last slot
    omega
  have hex : ∃ i, picks tables last i = some slot := ⟨_, hserved.choose_spec.2⟩
  have hfirst : ∀ j, j < Nat.find hex → picks tables last j ≠ some slot :=
    fun j hj => Nat.find_min hex hj
  refine ⟨Nat.find hex, ?_, Nat.find_spec hex, ?_⟩
  · obtain ⟨i, hi, hserved⟩ := hserved
    exact Nat.lt_of_le_of_lt (Nat.find_min' hex hserved) hi
  · intro j k hjk hk heq
    have hsofar : ∀ i, i < k → picks tables last i ≠ some slot := by
      intro i hi
      exact hfirst i (by omega)
    obtain ⟨p, hp, -, -, hbefore⟩ := picks_climb hcap hrun k hsofar
    obtain ⟨q, hq, hqp⟩ := hbefore j hjk
    rw [hq, hp] at heq
    obtain rfl := Option.some.inj heq
    exact Int.lt_irrefl _ hqp

/-! ## The law -/

/-- Round robin, one pick: who is picked after `last`. -/
structure Rotates (t : EnvTable) (last : Option Nat) : Prop where
  nobody : t.pickNext last = none ↔ ∀ slot, (t.get slot).status ≠ .runnable
  nearest : ∀ slot, t.pickNext last = some slot ↔
    (t.get slot).status = .runnable ∧
      ∀ other, (t.get other).status = .runnable →
        ahead t.capacity last slot ≤ ahead t.capacity last other
  again : ∀ slot, last = some slot → t.pickNext last = some slot →
    ∀ other, (t.get other).status = .runnable → other = slot

/-- **Round robin is cyclic and starves nobody.**  Whoever is picked is the first that can run after
  the slot picked last, that slot itself only if nobody else can; and whatever becomes of the others
  between the picks, a slot that can always run is picked within as many picks as there are slots,
  before anybody is picked a second time. -/
theorem pickNext_cyclic_and_fair :
    (∀ (t : EnvTable) (last : Option Nat), t.Rotates last) ∧
    ∀ (n : Nat) (tables : Nat → EnvTable) (last : Option Nat) (slot : Nat),
      (∀ i, (tables i).capacity = n) →
      (∀ i, ((tables i).get slot).status = .runnable) →
      ∃ i, i < n ∧ picks tables last i = some slot ∧
        ∀ j k, j < k → k ≤ i → picks tables last j ≠ picks tables last k := by
  refine ⟨?_, fun n tables last slot hcap hrun => exists_picks hcap hrun⟩
  intro t last
  exact
    { nobody := pickNext_eq_none_iff
      nearest := fun slot => pickNext_eq_some_iff
      again := by
        rintro slot rfl h other hother
        exact only_runnable_of_pickNext h hother }

/-- Three slots.  Slot 0 can always run, slots 1 and 2 can in turn. -/
def flicker (i : Nat) : EnvTable :=
  ((ofCapacity 3).update 0 fun e => { e with status := .runnable }).update (1 + i % 2)
    fun e => { e with status := .runnable }

theorem capacity_flicker (i : Nat) : (flicker i).capacity = 3 := by
  rw [flicker, capacity_update, capacity_update]
  rfl

theorem runnable_flicker (i : Nat) : ((flicker i).get 0).status = .runnable := by
  rw [flicker, get_update_of_ne _ _ (by omega)]
  rfl

theorem picks_flicker_fair :
    (∀ i, (flicker i).capacity = 3) ∧ (∀ i, ((flicker i).get 0).status = .runnable) ∧
    ∃ i, i < 3 ∧ picks flicker (some 0) i = some 0 ∧
      ∀ j k, j < k → k ≤ i → picks flicker (some 0) j ≠ picks flicker (some 0) k :=
  ⟨capacity_flicker, runnable_flicker,
    pickNext_cyclic_and_fair.2 3 flicker (some 0) 0 capacity_flicker runnable_flicker⟩

example : (List.range 5).map (picks flicker (some 0)) =
    [some 1, some 2, some 0, some 2, some 0] := by
  decide

end Exokernel.EnvTable
