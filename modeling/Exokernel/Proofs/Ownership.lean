/-
  Who owns which space.

  The kernel never looks for an unused address space: a space lives as long as the record that
  holds its handle, and the handle is never copied.  That this is enough is the subject here.  In
  every reachable state each live environment has one live space, no two have the same one, and no
  space is left that nobody has, so there are as many spaces as environments.

  The first half is part of `Sound`.  What is added is that slots without an environment are
  empty: a record is cleared in the same step in which its environment ends, and no step writes
  the record of an empty slot unless to put a newcomer there.
-/
import Exokernel.Proofs.Steps

namespace Exokernel

/-! ## Counting -/

/-- What an array holds is counted along its indices. -/
theorem countP_eq_length_range {α : Type} (a : Array α) (default : α) (p : α → Bool) :
    a.countP p = ((List.range a.size).filter fun i => p (a.getD i default)).length := by
  have hlist : a.toList = (List.range a.size).map fun i => a.getD i default := by
    refine List.ext_getElem (by simp) ?_
    intro i hi _
    have hi' : i < a.size := hi
    simp [Array.getD_eq_getD_getElem?, hi']
  rw [← Array.countP_toList, hlist, List.countP_map, List.countP_eq_length_filter]
  rfl

theorem EnvTable.liveCount_eq (t : EnvTable) : t.liveCount = t.live.length :=
  countP_eq_length_range t.slots {} _

namespace Memory

/-- The numbers of live spaces, in order. -/
def liveNumbers (m : Memory) : List Nat :=
  (List.range m.spaces.size).filter fun i => (m.spaces.getD i none).isSome

theorem liveSpaces_eq (m : Memory) : m.liveSpaces = m.liveNumbers.length :=
  countP_eq_length_range m.spaces none _

/-- A number is that of a live space if some space has it. -/
theorem mem_liveNumbers {m : Memory} (hsize : m.spaces.size < 0x100000000) {i : Nat} :
    i ∈ m.liveNumbers ↔ ∃ s : SpaceId, s.number.toNat = i ∧ (m.directory? s).isSome = true := by
  rw [liveNumbers, List.mem_filter, List.mem_range]
  constructor
  · rintro ⟨hlt, hlive⟩
    have hnumber : (UInt32.ofNat i).toNat = i :=
      UInt32.toNat_ofNat_of_lt' (Nat.lt_trans hlt hsize)
    refine ⟨⟨UInt32.ofNat i⟩, hnumber, ?_⟩
    rw [directory?, hnumber]
    exact hlive
  · rintro ⟨s, rfl, hlive⟩
    obtain ⟨d, hd⟩ := Option.isSome_iff_exists.1 hlive
    exact ⟨lt_of_directory? hd, hlive⟩

end Memory

namespace Kernel

variable {pins : List Frame} {P : Nat → Prop} {k k' : Kernel}

/-- **There are as many spaces as environments**, for each environment leads to one number. -/
theorem Sound.liveSpaces_eq (h : k.Sound pins) : k.memory.liveSpaces = k.envs.liveCount := by
  let number : Nat → Nat := fun slot => ((k.env slot).space.getD default).number.toNat
  have hnumber : ∀ slot s, k.Holds slot s → number slot = s.number.toNat := by
    intro slot s hs
    show ((k.env slot).space.getD default).number.toNat = _
    rw [hs.2, Option.getD_some]
  have hlive : ∀ slot, slot ∈ k.envs.live ↔ (k.env slot).isLive = true :=
    fun _ => EnvTable.mem_live_iff
  -- different environments have different numbers
  have hslots : (k.envs.live.map number).Nodup := by
    refine List.Nodup.map_on ?_ (List.nodup_range.filter _)
    intro a ha b hb hab
    obtain ⟨r, hr, -⟩ := h.space a ((hlive a).1 ha)
    obtain ⟨s, hs, -⟩ := h.space b ((hlive b).1 hb)
    have har : k.Holds a r := ⟨(hlive a).1 ha, hr⟩
    have hbs : k.Holds b s := ⟨(hlive b).1 hb, hs⟩
    rw [hnumber a r har, hnumber b s hbs] at hab
    by_cases hrs : r = s
    · exact h.apart a b s (hrs ▸ har) hbs
    · exact absurd hab (Memory.SpaceId.number_ne hrs)
  have hnumbers : k.memory.liveNumbers.Nodup := List.nodup_range.filter _
  -- and they are the numbers of all live spaces
  have hsame : ∀ i, i ∈ k.memory.liveNumbers ↔ i ∈ k.envs.live.map number := by
    intro i
    rw [Memory.mem_liveNumbers h.spaces_lt, List.mem_map]
    constructor
    · rintro ⟨s, rfl, hs⟩
      obtain ⟨slot, hslot⟩ := h.owner s hs
      exact ⟨slot, (hlive slot).2 hslot.1, hnumber slot s hslot⟩
    · rintro ⟨slot, hslot, rfl⟩
      obtain ⟨s, hs, hd⟩ := h.space slot ((hlive slot).1 hslot)
      exact ⟨s, (hnumber slot s ⟨(hlive slot).1 hslot, hs⟩).symm, hd⟩
  have hperm := (List.perm_ext_iff_of_nodup hnumbers hslots).2 hsame
  rw [Memory.liveSpaces_eq, EnvTable.liveCount_eq, hperm.length_eq, List.length_map]

/-! ## Empty slots -/

/-- A slot without an environment is free and has no space. -/
def Idle (k : Kernel) : Prop :=
  ∀ slot, (k.env slot).isLive = false → (k.env slot).status = .free ∧ (k.env slot).space = none

/-- A change leaves the slots that are empty and stay so. -/
theorem Edit.env_of_dead (he : Edit pins P k k') {e : Nat} (hdead : (k.env e).isLive = false)
    (hdead' : (k'.env e).isLive = false) : k'.env e = k.env e := by
  have hne : ∀ {slot : Nat}, (k.env slot).isLive = true → e ≠ slot :=
    fun hl => (ne_of_isLive hl hdead).symm
  cases he with
  | quiet _ envs => exact congrArg (EnvTable.get · e) envs
  | tune _ live => exact env_updateEnv_of_ne _ (hne live)
  | park _ live => exact env_updateEnv_of_ne _ (hne live)
  | wait _ live => exact env_updateEnv_of_ne _ (hne live)
  | remap => rfl
  | enlist alloc =>
    obtain ⟨s, -, -, -, -, hothers, -⟩ := allocEnv_spec alloc
    apply hothers
    rintro rfl
    exact Bool.false_ne_true (hdead'.symm.trans (isLive_of_allocEnv alloc))
  | swap _ live live' ne =>
    obtain ⟨-, -, hothers⟩ := env_updateEnv_two ne live live'
    exact hothers e (hne live) (hne live')

theorem Edit.idle (he : Edit pins P k k') (h : k.Idle) : k'.Idle := by
  intro e hdead'
  -- nobody ends in a change, so the slot was empty before
  have hdead : (k.env e).isLive = false := by
    refine Bool.eq_false_iff.2 fun hl => ?_
    exact Bool.false_ne_true (hdead'.symm.trans (he.persists hl).live)
  rw [he.env_of_dead hdead hdead']
  exact h e hdead

/-- Whoever ends leaves an empty slot. -/
theorem Idle.destroy (h : k.Idle) {slot : Nat} (hl : (k.env slot).isLive = true) :
    (k.destroy slot).Idle := by
  intro e hdead
  rw [env_destroy hl] at hdead ⊢
  by_cases he : e = slot
  · subst he
    rw [afterEnd_self]
    exact ⟨rfl, rfl⟩
  · rw [afterEnd_of_ne he] at hdead ⊢
    split at hdead
    · cases hdead
    · rename_i hsends
      rw [if_neg hsends]
      exact h e hdead

theorem Reachable.idle (h : Reachable pins k) : k.Idle := by
  refine h.invariant (fun k hb e _ => ?_) fun k k' _ hi hm => ?_
  · rw [hb.env]
    exact ⟨rfl, rfl⟩
  · cases hm with
    | edit he => exact he.idle hi
    | ending hl => exact hi.destroy hl
    | store => exact hi

/-! ## The law -/

/-- Spaces and environments belong together, one to one. -/
structure Exclusive (k : Kernel) : Prop where
  /-- Every live environment has a space, and it is a live one. -/
  held : ∀ slot, (k.env slot).isLive = true →
    ∃ s, (k.env slot).space = some s ∧ (k.memory.directory? s).isSome = true
  /-- Different environments have different spaces. -/
  apart : ∀ a b s, k.Holds a s → k.Holds b s → a = b
  /-- Every live space belongs to a live environment. -/
  owner : ∀ s, (k.memory.directory? s).isSome = true → ∃ slot, k.Holds slot s
  /-- No environment is left half taken down. -/
  settled : ∀ slot, (k.env slot).status ≠ .dying
  /-- A free slot has no space. -/
  vacant : ∀ slot, (k.env slot).status = .free → (k.env slot).space = none
  count : k.memory.liveSpaces = k.envs.liveCount

/-- **Spaces are owned exclusively** in every reachable state. -/
theorem spaces_exclusive (h : Reachable pins k) : k.Exclusive := by
  have hk := h.sound
  have hdead : ∀ {slot : Nat}, (k.env slot).status = .dying ∨ (k.env slot).status = .free →
      (k.env slot).isLive = false := by
    intro slot hs
    unfold Env.isLive
    rcases hs with hs | hs <;> rw [hs]
  refine ⟨hk.space, hk.apart, hk.owner, ?_, ?_, hk.liveSpaces_eq⟩
  · intro slot hdying
    obtain ⟨hfree, -⟩ := h.idle slot (hdead (Or.inl hdying))
    rw [hdying] at hfree
    cases hfree
  · intro slot hfree
    exact (h.idle slot (hdead (Or.inr hfree))).2

/-- A child is forked, started and committed to: its space goes to the parent, and the parent's
  ends with the child.  Then another child takes the number that became unused. -/
def recommitted : List Action :=
  [.create .none 0 0, .run ⟨4096⟩, .call 6 (.replicate 5 0), .call 10 #v[4097, 0, 0, 0, 0],
    .call 6 (.replicate 5 0)]

theorem spaces_exclusive_recommitted : (small.after recommitted).Exclusive :=
  spaces_exclusive (reachable_small recommitted)

/-- Two environments are left, and the space of the first one is not its first. -/
example : (small.after recommitted).memory.liveSpaces = 2 ∧
    ((small.after recommitted).env 0).space = some ⟨1⟩ := by decide +kernel

end Kernel

end Exokernel
