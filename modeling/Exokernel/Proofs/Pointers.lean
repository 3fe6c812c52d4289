/-
  Pointers that programs pass.

  A pointer for reading is honoured in full, or it ends whoever passed it and nobody else; there is
  nothing in between, and in particular no error code.  The check of the range comes first, and what
  is left to show is that nothing can fail after it.

  Two walks over the tables have to agree for that.  The check goes from page to page and asks for
  permissions; the copy goes from chunk to chunk and asks for frames and what is in them.  Both are
  laws about single bytes by now: a byte that is accessible has a place, and a read goes on to the
  first byte that has none, because all that is mapped is in use (`Backed`).

  An answered call changes nothing but the record of its caller, down to the space in force.  A turn
  writes that, too; it writes what was there, because whoever runs does so in its own space
  (`Seated`).
-/
import Exokernel.Proofs.Coherence
import Exokernel.Proofs.Commit
import Exokernel.Proofs.Copies
import Exokernel.Proofs.FreshPages
import Exokernel.Proofs.Snapshots

namespace Exokernel

open Registers (byteCount decode)

namespace Memory

variable {m : Memory} {s : SpaceId} {va : VirtAddr} {len i : Nat} {access : Access}

/-! ## What passes the check is read -/

/-- A byte that a program may access lies somewhere. -/
theorem isSome_place?_of_accessible (h : m.Accessible s access (va.toNat + i)) :
    (m.place? s va i).isSome = true := by
  obtain ⟨hbelow, f, p, hl, -⟩ := h
  have hsmall := userLimit_lt
  have hword : (VirtAddr.ofNat (va.toNat + i)).toNat = va.toNat + i :=
    VirtAddr.toNat_ofNat (by omega)
  have hadd : va.add? i = some (.ofNat (va.toNat + i)) :=
    VirtAddr.add?_eq_some_iff.2 hword.symm
  rw [place?_eq_some_iff.2 ⟨_, p, hadd, hl, rfl⟩, Option.isSome_some]

/-- **A range that a program may access is read to its end.** -/
theorem Backed.readBytes_of_accessible (h : m.Backed)
    (hgood : len = 0 ∨ ∀ a, va.toNat ≤ a → a < va.toNat + len → m.Accessible s access a) :
    ∃ bytes : Array UInt8, (m.readBytes s va len).complete = .ok bytes ∧ bytes.size = len ∧
      ∀ i, i < len → bytes[i]? = m.loadByte? s va i := by
  have hall : m.reach s va len = len := by
    refine reach_eq_len_iff.2 fun i hi => ?_
    rcases hgood with rfl | hgood
    · exact absurd hi (Nat.not_lt_zero i)
    · exact isSome_place?_of_accessible (hgood (va.toNat + i) (by omega) (by omega))
  obtain ⟨hsize, hbytes, hstopped⟩ := readBytes_loads h s va len
  rw [hall] at hsize hbytes hstopped
  rw [if_pos rfl] at hstopped
  refine ⟨(m.readBytes s va len).bytes, ?_, hsize, hbytes⟩
  unfold Reading.complete
  rw [hstopped]

end Memory

namespace Kernel

variable {k k' : Kernel} {pins : List Frame} {c e : Nat} {va fault : VirtAddr} {len : Nat}
  {id : EnvId} {number : UInt32} {args : Args} {value : Int32}

/-! ## Ranges of the caller -/

/-- The environment in `c` may read the `len` bytes at `va`. -/
def Readable (k : Kernel) (c : Nat) (va : VirtAddr) (len : Nat) : Prop :=
  ∃ s, (k.env c).space = some s ∧
    (len = 0 ∨ ∀ a, va.toNat ≤ a → a < va.toNat + len → k.memory.Accessible s .read a)

/-- Byte number `i` of what the environment in `c` has at `va`. -/
def byteOf? (k : Kernel) (c : Nat) (va : VirtAddr) (i : Nat) : Option UInt8 :=
  (k.env c).space.bind fun s => k.memory.loadByte? s va i

theorem Sound.backed (hk : k.Sound pins) : k.memory.Backed :=
  ⟨hk.balanced.accounts.sound, fun _ _ _ _ => hk.balanced.isAllocated_of_lookup⟩

/-- The check passes what may be read, and what is passed is the range that was asked for. -/
theorem userRange_of_readable (h : k.Readable c va len) :
    k.userRange c va len .read = .ok ⟨va, len⟩ := by
  obtain ⟨s, hs, hgood⟩ := h
  have hverdict := k.memory.checkRange_verdict s va len .read
  unfold userRange
  rw [hs]
  dsimp only
  generalize k.memory.checkRange s va len .read = result at hverdict ⊢
  cases hverdict with
  | passes => rfl
  | wraps hlen high =>
    obtain ⟨a, hge, hlt, hfails⟩ := Memory.exists_not_accessible hlen high
    exact absurd (hgood.resolve_left hlen a hge hlt) hfails
  | faults _ first =>
    have hlen : len ≠ 0 := by
      rintro rfl
      exact absurd first.inside (Nat.not_lt.2 first.from_start)
    exact absurd (hgood.resolve_left hlen _ first.from_start first.inside) first.fails

/-- Nothing else passes. -/
theorem userRange_of_not_readable (h : ¬ k.Readable c va len) :
    ∃ fault, k.userRange c va len .read = .error fault := by
  unfold userRange
  cases hs : (k.env c).space with
  | none => exact ⟨va, rfl⟩
  | some s =>
    have hverdict := k.memory.checkRange_verdict s va len .read
    dsimp only
    generalize k.memory.checkRange s va len .read = result at hverdict ⊢
    cases hverdict with
    | passes good => exact absurd ⟨s, hs, good⟩ h
    | wraps => exact ⟨va, rfl⟩
    | @faults fault => exact ⟨fault, rfl⟩

/-- **What the caller may read is read.** -/
theorem Sound.readBytes_of_readable (hk : k.Sound pins) (h : k.Readable c va len) :
    ∃ s, (k.env c).space = some s ∧ ∃ bytes : Array UInt8,
      (k.memory.readBytes s va len).complete = .ok bytes ∧ bytes.size = len ∧
        ∀ i, i < len → bytes[i]? = k.byteOf? c va i := by
  obtain ⟨s, hs, hgood⟩ := h
  obtain ⟨bytes, hread, hsize, hbytes⟩ := hk.backed.readBytes_of_accessible hgood
  refine ⟨s, hs, bytes, hread, hsize, fun i hi => ?_⟩
  rw [byteOf?, hs, Option.bind_some]
  exact hbytes i hi

theorem Sound.copyIn_of_readable (hk : k.Sound pins) (h : k.Readable c va len) :
    ∃ bytes : Array UInt8, k.copyIn c ⟨va, len⟩ = .ok bytes ∧ bytes.size = len ∧
      ∀ i, i < len → bytes[i]? = k.byteOf? c va i := by
  obtain ⟨s, hs, bytes, hread, hbytes⟩ := hk.readBytes_of_readable h
  refine ⟨bytes, ?_, hbytes⟩
  simp only [copyIn, spaceOf, Check.bind_eq_ok, Check.present_eq_ok]
  refine ⟨s, hs, ?_⟩
  rw [Memory.copyIn, hread]
  rfl

/-- Registers that the caller may read are as many bytes as registers take. -/
theorem Sound.reads_of_readable (hk : k.Sound pins) (h : k.Readable c va byteCount) :
    ∃ b : Vector UInt8 byteCount, k.Reads c va b ∧
      ∀ i, i < byteCount → b[i]? = k.byteOf? c va i := by
  have hrange := userRange_of_readable h
  obtain ⟨s, hs, bytes, hread, hsize, hbytes⟩ := hk.readBytes_of_readable h
  refine ⟨⟨bytes, hsize⟩, ⟨s, hs, ?_, hread⟩, fun i hi => ?_⟩
  · rw [userRange, hs] at hrange
    dsimp only at hrange
    rw [hrange]
    rfl
  · rw [Vector.getElem?_mk]
    exact hbytes i hi

/-! ## Where the current environment runs -/

/-- Whoever is current has its own space in force. -/
def AtHome (k : Kernel) : Prop := ∀ c, k.current = some c → k.memory.active = (k.env c).space

/-- The kernel between two calls: the invariant holds, and whoever is current is live and at
  home. -/
structure Seated (k : Kernel) (pins : List Frame) : Prop extends k.Sound pins where
  lives : k.CurrentLives
  home : k.AtHome

theorem Seated.caller_eq (hk : k.Seated pins) (hcur : k.current = some c) : k.caller = .ok c :=
  caller_eq_ok.2 ⟨hcur, hk.lives c hcur⟩

/-- Creating an environment from outside puts no space in force. -/
theorem active_create (hk : k.Sound pins) (parent : EnvId) (entry stack : UInt32) :
    (k.act (.create parent entry stack)).1.memory.active = k.memory.active := by
  cases hc : k.createEnv parent entry stack with
  | error e => simp only [act, hc]
  | ok out =>
    obtain ⟨k', id⟩ := out
    obtain ⟨k₁, slot, event, ha, rfl⟩ := createEnv_eq_ok hc
    obtain ⟨s, hm, -⟩ := allocEnv_spec ha
    obtain ⟨-, f, hopens⟩ := Memory.createSpace_spec hk.balanced hk.spaces_lt hm
    simp only [act, hc]
    exact hopens.active

theorem Seated.home_act (hk : k.Seated pins) (a : Action) : (k.act a).1.AtHome := by
  intro c hc
  cases hnext : (k.act a).2 with
  | some r =>
    -- a turn has written both
    have hhoused := housed_operate hk.toHoused (.act a)
    obtain ⟨slot, hforce⟩ := (settled_act k a).inForce hhoused hnext
    obtain rfl : slot = c := Option.some.inj (hforce.current.symm.trans hc)
    obtain ⟨s, hs, hactive, -⟩ := hforce.space
    rw [hactive, hs]
  | none =>
    cases a with
    | create parent entry stack =>
      rw [active_create hk.toSound]
      rcases k.act_create parent entry stack with
        hact | ⟨k', joined, hact, hdead, -, hothers, hcurrent⟩ <;> rw [hact] at hc ⊢
      · exact hk.home c hc
      · have hcur : k.current = some c := hcurrent.symm.trans hc
        rw [hothers c (ne_of_isLive (hk.lives c hcur) hdead)]
        exact hk.home c hcur
    | run id =>
      cases hr : k.envs.resolve id with
      | none =>
        rw [act_run_of_none hr] at hc ⊢
        exact hk.home c hc
      | some slot =>
        rw [act_run hr] at hnext
        cases hnext
    | capture registers =>
      obtain ⟨hcurrent, hmemory⟩ := Turns.capture_quiet k registers
      show (k.capture registers).memory.active = ((k.capture registers).env c).space
      rw [hmemory, ((Turns.capture k registers).record c).space]
      exact hk.home c (hcurrent.symm.trans hc)
    | call number args =>
      have hnobody : (k.call number args).1.current = none := (call_rests hnext).current
      cases hnobody.symm.trans hc

theorem Booted.seated (h : k.Booted pins) : k.Seated pins := by
  have hnobody : k.current = none := congrArg Kernel.current (boot_eq_ok h.boot).1
  refine ⟨h.sound, fun c hc => ?_, fun c hc => ?_⟩ <;> cases hnobody.symm.trans hc

/-- In every reachable state whoever is current is live and at home. -/
theorem Reachable.seated (h : Reachable pins k) : k.Seated pins := by
  suffices hboth : k.CurrentLives ∧ k.AtHome from ⟨h.sound, hboth.1, hboth.2⟩
  refine h.act_invariant (I := fun k => k.CurrentLives ∧ k.AtHome)
    (fun _ hb => ⟨hb.seated.lives, hb.seated.home⟩) (fun k a hr ih => ?_) fun k k' haside ih => ?_
  · have hk : k.Seated pins := ⟨hr.sound, ih.1, ih.2⟩
    exact ⟨currentLives_act hk.lives a, hk.home_act a⟩
  · refine ⟨ih.1.aside haside, fun c hc => ?_⟩
    rw [haside.active, haside.env]
    exact ih.2 c (haside.current.symm.trans hc)

/-! ## How the call ends -/

/-- The environment in `c` goes on with a result, and nothing else happens. -/
def answering (k : Kernel) (c : Nat) (value : Int32) : Kernel × Option Resumption :=
  ({ k with envs := k.envs.update c fun e => e.answered value },
    some ⟨(k.env c).id, { (k.env c).registers with eax := value.toUInt32 }⟩)

/-- To put a space in force that is in force changes nothing. -/
theorem activate_of_home {space : Option SpaceId} (h : k.memory.active = space) :
    k.activate space = k := by
  subst h
  unfold activate
  split
  · rename_i s hs
    show { k with memory := { k.memory with active := some s } } = k
    rw [← hs]
  · rfl

/-- **Whoever runs at home is answered and nothing else happens.** -/
theorem proceed_eq_answering (hl : (k.env c).isLive = true) (hcur : k.current = some c)
    (hhome : k.memory.active = (k.env c).space) (value : Int32) :
    k.proceed c (.answer value) = k.answering c value := by
  let answered := k.updateEnv c fun e => { e with pending := some value }
  let written := answered.updateEnv c fun _ => (answered.env c).resumed
  have hrecord : answered.env c = { k.env c with pending := some value } :=
    env_updateEnv_self _ hl
  have hactive : written.activate (answered.env c).resumed.space = written := by
    apply activate_of_home
    rw [hrecord]
    exact hhome
  have hfirst : (k.proceed c (.answer value)).1 = { written with current := some c } :=
    congrArg (fun k : Kernel => { k with current := some c }) hactive
  have henvs : written.envs = k.envs.update c fun e => e.answered value := by
    have hanswer := envs_answer k c value
    rw [hfirst] at hanswer
    exact hanswer
  refine Prod.ext ?_ (answer_goesOn hl value).next
  rw [hfirst, answering, ← henvs, ← hcur]
  rfl

/-- A call whose caller stays at home and is answered. -/
theorem Sound.call_eq_answering (hk : k.Sound pins) (hc : k.caller = .ok c)
    (hd : k.dispatch number args = (k', .answer value)) (hl : (k'.env c).isLive = true)
    (hcur : k'.current = some c) (hhome : k'.memory.active = (k'.env c).space) :
    k.call number args = k'.answering c value := by
  have hlive : ((k.perform (.ofWords number args)).kernel.env c).isLive = true := by
    rw [← env_dispatch, hd]
    exact hl
  rw [call_eq_proceed hk hc hlive, ← dispatch_snd, hd]
  exact proceed_eq_answering hl hcur hhome value

/-- What is left when the environment in `c` was destroyed for its pointer. -/
structure Killed (k : Kernel) (c : Nat) (out : Kernel × Option Resumption) : Prop where
  gone : out.1.envs.resolve (k.env c).id = none
  /-- It does not go on, and so it finds no result. -/
  silent : ∀ r, out.2 = some r → r.env ≠ (k.env c).id
  console : out.1.console = k.console
  /-- Whoever waited for it to take a message finds an error, and somebody may go on; nothing else
    happens to the others. -/
  records : ∀ e, e ≠ c → (k.env e).isLive = true →
    Passed e (afterEnd (k.env c).id c e (k.env e)) out.1 out.2 ∨
      GoesOn e (afterEnd (k.env c).id c e (k.env e)) out.1 out.2
  others : ∀ e s, e ≠ c → k.Holds e s → out.1.Holds e s ∧ (out.1.env e).id = (k.env e).id ∧
    k.memory.Spares out.1.memory s

theorem Sound.killed (hk : k.Sound pins) (hc : k.caller = .ok c)
    (hreply : k.perform (.ofWords number args) = k.badPointer c fault) :
    k.Killed c (k.call number args) := by
  obtain ⟨hcur, hl⟩ := caller_eq_ok.1 hc
  let noted := k.note (.badPointer (k.env c).id fault)
  have hkernel : (k.perform (.ofWords number args)).kernel = noted.destroy c := by
    rw [hreply]
    rfl
  have hturns := Turns.call hcur number args
  rw [hkernel] at hturns
  have hgone : (noted.destroy c).envs.resolve (k.env c).id = none :=
    resolve_destroy (k := noted) hl (hk.number c hl)
  have hrecord : ∀ e, (noted.destroy c).env e = afterEnd (k.env c).id c e (k.env e) :=
    env_destroy (k := noted) hl
  have hkept : ∀ e, e ≠ c → (k.env e).isLive = true → (k.env e).Tuned ((noted.destroy c).env e) ∧
      ((noted.destroy c).env e).space = (k.env e).space := by
    intro e hne he
    rw [hrecord]
    exact tuned_afterEnd hne he
  constructor
  case gone =>
    rw [hturns.resolve]
    exact hgone
  case silent =>
    intro r hr
    exact call_silent hk hcur (by rw [hkernel]; exact hgone) hr
  case console =>
    rw [hturns.console, console_destroy]
    rfl
  case records =>
    intro e hne he
    have hlive := (hkept e hne he).1.live
    rw [← hkernel] at hlive
    have hothers := call_others hk hcur hne hlive
    rw [hkernel, hrecord] at hothers
    exact hothers.imp_right And.right
  case others =>
    intro e s hne hs
    have hnoted : noted.Sound pins := Edits.sound (.note (P := fun _ => True) .refl _) hk
    have hmem : k.memory.Spares (noted.destroy c).memory s := (hnoted.destroy_spares hl hne hs).2
    obtain ⟨htuned, hspace⟩ := hkept e hne hs.1
    refine ⟨⟨?_, ?_⟩, ?_, hmem.trans (.of_eq hturns.pool hturns.spaces)⟩
    · rw [hturns.isLive]
      exact htuned.live
    · rw [(hturns.record e).space, hspace]
      exact hs.2
    · rw [(hturns.record e).id]
      exact htuned.id

/-! ## The law -/

/-- What a call to write the `len` bytes at `va` to the console comes to. -/
structure PutsBytes (k : Kernel) (c : Nat) (va : VirtAddr) (len : Nat)
    (out : Kernel × Option Resumption) : Prop where
  /-- The bytes come after all that was written before, and what waits to be read still waits. -/
  honoured : k.Readable c va len → ∃ bytes : Array UInt8, bytes.size = len ∧
    (∀ i, i < len → bytes[i]? = k.byteOf? c va i) ∧
    out = ({ k with console :=
      { input := k.console.input, output := k.console.output ++ bytes } } :
        Kernel).answering c 0
  fatal : ¬ k.Readable c va len → k.Killed c out

/-- What a call to load the registers at `va` for the environment named `id` comes to. -/
structure SetsRegisters (k : Kernel) (c : Nat) (number : UInt32) (id : EnvId) (va : VirtAddr)
    (out : Kernel × Option Resumption) : Prop where
  honoured : k.Readable c va byteCount → ∀ e, k.Names id c e →
    ∃ b : Vector UInt8 byteCount, (∀ i, i < byteCount → b[i]? = k.byteOf? c va i) ∧
      out = (k.updateEnv e fun e => e.load (decode b)).answering c 0
  /-- It fails in one way only. -/
  refused : k.Readable c va byteCount → (∀ e, ¬ k.Names id c e) →
    out = (k.note (.callFailed number .badEnv)).answering c CallError.badEnv.code
  harmless : k.Readable c va byteCount → ∀ e, (k.env e).isLive = true →
    Persists (k.env e) (out.1.env e)
  fatal : ¬ k.Readable c va byteCount → k.Killed c out

/-- **Bytes that the caller may read are written, and nothing else happens.** -/
theorem Seated.putBytes_honoured (hk : k.Seated pins) (hcur : k.current = some c)
    (hreq : Request.ofWords number args = .putBytes va len) (h : k.Readable c va len) :
    ∃ bytes : Array UInt8, bytes.size = len ∧ (∀ i, i < len → bytes[i]? = k.byteOf? c va i) ∧
      k.call number args = ({ k with console :=
        { input := k.console.input, output := k.console.output ++ bytes } } :
          Kernel).answering c 0 := by
  have hl := hk.lives c hcur
  have hc := hk.caller_eq hcur
  obtain ⟨bytes, hcopy, hsize, hbytes⟩ := hk.toSound.copyIn_of_readable h
  have hreply : k.perform (.ofWords number args) =
      ⟨{ k with console := k.console.write bytes }, .ok (.answer 0)⟩ := by
    rw [hreq]
    show k.putBytes va len = _
    simp only [putBytes, hc, userRange_of_readable h, hcopy]
  exact ⟨bytes, hsize, hbytes,
    hk.toSound.call_eq_answering hc (dispatch_of_ok hreply) hl hcur (hk.home c hcur)⟩

/-- **Otherwise the caller is destroyed.** -/
theorem Seated.putBytes_fatal (hk : k.Seated pins) (hcur : k.current = some c)
    (hreq : Request.ofWords number args = .putBytes va len) (h : ¬ k.Readable c va len) :
    k.Killed c (k.call number args) := by
  have hc := hk.caller_eq hcur
  obtain ⟨fault, hrange⟩ := userRange_of_not_readable h
  have hreply : k.perform (.ofWords number args) = k.badPointer c fault := by
    rw [hreq]
    show k.putBytes va len = _
    simp only [putBytes, hc, hrange]
  exact hk.toSound.killed hc hreply

/-- Whom the caller does not own it does not find. -/
theorem Sound.target_of_not_names (hk : k.Sound pins) (hc : k.caller = .ok c)
    (hnone : ∀ e, ¬ k.Names id c e) : k.target id .owned = .error .badEnv := by
  have hself : ¬ (id.isNone = true ∨ id = (k.env c).id) := by
    intro hself
    obtain ⟨cur, hcur, hnames⟩ := target_owned_iff.1 (target_self hk hc hself)
    obtain rfl : c = cur := Except.ok.inj (hc.symm.trans hcur)
    exact hnone c hnames
  refine target_foreign hc hself ?_
  rintro ⟨e, hresolve, -, hparent⟩
  refine hnone e (Or.inr ⟨?_, hresolve, Or.inr hparent⟩)
  exact Bool.eq_false_iff.2 fun hid => hself (Or.inl hid)

/-- To load registers for somebody ends nobody and moves nobody. -/
theorem persists_load (hle : (k.env e).isLive = true) (r : Registers) (x : Nat)
    (hx : (k.env x).isLive = true) :
    Persists (k.env x) ((k.updateEnv e fun e => e.load r).env x) ∧
      ((k.updateEnv e fun e => e.load r).env x).space = (k.env x).space := by
  refine ⟨persists_updateEnv hle ⟨hle, rfl, rfl⟩ x hx, ?_⟩
  rw [env_updateEnv_eq (fun e => e.load r) hle]
  split
  · rename_i heq
    rw [heq]
    rfl
  · rfl

/-- An answer ends nobody. -/
theorem persists_answering (hl : (k.env c).isLive = true) (value : Int32)
    (he : (k.env e).isLive = true) : Persists (k.env e) ((k.answering c value).1.env e) :=
  persists_updateEnv hl ⟨hl, rfl, rfl⟩ e he

/-- **Registers that the caller may read are loaded, and nothing else happens.** -/
theorem Seated.setRegisters_honoured (hk : k.Seated pins) (hcur : k.current = some c)
    (hreq : Request.ofWords number args = .setRegisters id va) (h : k.Readable c va byteCount)
    (hnames : k.Names id c e) :
    ∃ b : Vector UInt8 byteCount, (∀ i, i < byteCount → b[i]? = k.byteOf? c va i) ∧
      k.call number args = (k.updateEnv e fun e => e.load (decode b)).answering c 0 := by
  have hl := hk.lives c hcur
  have hc := hk.caller_eq hcur
  have ht : k.target id .owned = .ok e := target_owned_iff.2 ⟨c, hc, hnames⟩
  obtain ⟨b, hreads, hbytes⟩ := hk.toSound.reads_of_readable h
  have hreply : k.perform (.ofWords number args) =
      ⟨k.updateEnv e fun e => e.load (decode b), .ok (.answer 0)⟩ := by
    rw [hreq]
    exact setRegisters_of_reads hc ht hreads
  obtain ⟨hkept, hspace⟩ := persists_load (isLive_of_target ht) (decode b) c hl
  have hhome := hk.home c hcur
  rw [← hspace] at hhome
  exact ⟨b, hbytes,
    hk.toSound.call_eq_answering hc (dispatch_of_ok hreply) hkept.live hcur hhome⟩

/-- For somebody whom the caller does not own nothing is loaded. -/
theorem Seated.setRegisters_refused (hk : k.Seated pins) (hcur : k.current = some c)
    (hreq : Request.ofWords number args = .setRegisters id va) (h : k.Readable c va byteCount)
    (hnone : ∀ e, ¬ k.Names id c e) :
    k.call number args =
      (k.note (.callFailed number .badEnv)).answering c CallError.badEnv.code := by
  have hl := hk.lives c hcur
  have hc := hk.caller_eq hcur
  have hreply : k.perform (.ofWords number args) = ⟨k, .error .badEnv⟩ := by
    rw [hreq]
    show k.setRegisters id va = _
    simp only [setRegisters, hc, userRange_of_readable h, hk.toSound.target_of_not_names hc hnone]
    rfl
  exact hk.toSound.call_eq_answering hc (dispatch_of_error hreply) hl hcur (hk.home c hcur)

/-- **Whomever the registers were for, a bad pointer ends the caller.** -/
theorem Seated.setRegisters_fatal (hk : k.Seated pins) (hcur : k.current = some c)
    (hreq : Request.ofWords number args = .setRegisters id va)
    (h : ¬ k.Readable c va byteCount) : k.Killed c (k.call number args) := by
  have hc := hk.caller_eq hcur
  obtain ⟨fault, hrange⟩ := userRange_of_not_readable h
  have hreply : k.perform (.ofWords number args) = k.badPointer c fault := by
    rw [hreq]
    show k.setRegisters id va = _
    simp only [setRegisters, hc, hrange]
  exact hk.toSound.killed hc hreply

/-- **A pointer to registers that may be read ends nobody.** -/
theorem Seated.setRegisters_harmless (hk : k.Seated pins) (hcur : k.current = some c)
    (hreq : Request.ofWords number args = .setRegisters id va) (h : k.Readable c va byteCount)
    (x : Nat) (hx : (k.env x).isLive = true) :
    Persists (k.env x) ((k.call number args).1.env x) := by
  have hl := hk.lives c hcur
  by_cases hnamed : ∃ e, k.Names id c e
  · obtain ⟨e, hnames⟩ := hnamed
    have hc := hk.caller_eq hcur
    have hle := isLive_of_target (target_owned_iff.2 ⟨c, hc, hnames⟩)
    obtain ⟨b, -, hcall⟩ := hk.setRegisters_honoured hcur hreq h hnames
    obtain ⟨hcaller, -⟩ := persists_load hle (decode b) c hl
    obtain ⟨hloaded, -⟩ := persists_load hle (decode b) x hx
    rw [hcall]
    exact hloaded.trans (persists_answering hcaller.live 0 hloaded.live)
  · have hnone : ∀ e, ¬ k.Names id c e := fun e hnames => hnamed ⟨e, hnames⟩
    rw [hk.setRegisters_refused hcur hreq h hnone]
    exact persists_answering (k := k.note _) hl _ hx

/-- **A pointer is honoured in full or it ends whoever passed it**, after whatever happened. -/
theorem pointers_honoured_or_fatal (hk : k.Booted pins) (past : List Happening)
    (hcur : (k.attended past).current = some c) (number : UInt32) (args : Args) :
    (∀ va len, Request.ofWords number args = .putBytes va len →
      (k.attended past).PutsBytes c va len ((k.attended past).call number args)) ∧
    ∀ id va, Request.ofWords number args = .setRegisters id va →
      (k.attended past).SetsRegisters c number id va ((k.attended past).call number args) := by
  have hk := ((Reachable.booted hk).attended past).seated
  refine ⟨fun va len hreq => ⟨?_, ?_⟩, fun id va hreq => ⟨?_, ?_, ?_, ?_⟩⟩
  · exact hk.putBytes_honoured hcur hreq
  · exact hk.putBytes_fatal hcur hreq
  · exact fun h e hnames => hk.setRegisters_honoured hcur hreq h hnames
  · exact hk.setRegisters_refused hcur hreq
  · exact hk.setRegisters_harmless hcur hreq
  · exact hk.setRegisters_fatal hcur hreq

/-- The first environment reads a byte that was typed, and stores two at the end of its page. -/
def greeting : List Happening :=
  [.operation (.act (.create .none 0 0)), .operation (.act (.run ⟨4096⟩)), .typed #[63],
    .operation (.act (.call 1 (.replicate 5 0))), .operation (.act prepareImage),
    .operation (.store ⟨4096⟩ (.ofNat 0x900FFE) #[104, 105])]

theorem pointers_honoured_or_fatal_greeting :
    (small.attended greeting).current = some 0 ∧
    (small.attended greeting).PutsBytes 0 (Request.virt 0x900FFE) 2
      ((small.attended greeting).call 0 #v[0x900FFE, 2, 0, 0, 0]) ∧
    (small.attended greeting).PutsBytes 0 (Request.virt 0x900FFE) 3
      ((small.attended greeting).call 0 #v[0x900FFE, 3, 0, 0, 0]) ∧
    (small.attended greeting).SetsRegisters 0 8 ⟨0⟩ (Request.virt imageVa)
      ((small.attended greeting).call 8 (loadImage 0)) := by
  have hcur : (small.attended greeting).current = some 0 := by decide +kernel
  have hlaw := pointers_honoured_or_fatal booted_small greeting hcur
  exact ⟨hcur, (hlaw 0 _).1 _ _ rfl, (hlaw 0 _).1 _ _ rfl,
    (hlaw 8 _).2 _ _ (request_loadImage 0)⟩

/-- After the two bytes the caller goes on.  The one behind them is in no page, and to name it is
  fatal. -/
example :
    ((small.attended greeting).call 0 #v[0x900FFE, 2, 0, 0, 0]).2.map Resumption.env =
      some ⟨4096⟩ ∧
    ((small.attended greeting).call 0 #v[0x900FFE, 3, 0, 0, 0]).2 = none ∧
    ((small.attended greeting).call 0 #v[0x900FFE, 3, 0, 0, 0]).1.envs.resolve ⟨4096⟩ = none := by
  decide +kernel

end Kernel

end Exokernel
