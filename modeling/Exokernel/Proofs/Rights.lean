/-
  Who may write a page that is shared.

  A page is shared by mapping it, by sending it, and by receiving what was sent.  Sharing is
  meant to narrow rights: nobody gets a writable mapping from somebody whose own mapping is not
  writable.

  That holds for mapping and for a message that is handed over at once, for both look at the
  source mapping when they install the page.  A parked message is different.  Its permission was
  checked when the message was parked; when it is received, only the frame is looked up again.
  `widens_iff` says exactly when rights grow: if the sender still maps the frame where it did
  and may no longer write it.
-/
import Exokernel.Proofs.Rendezvous

namespace Exokernel

namespace Perm

/-- **A permission is granted** if it has the bits of a readable page and no bit off the list. -/
theorem request_eq_ok {word : UInt32} {perm : Perm} :
    request word = .ok perm ↔ perm = ⟨word⟩ ∧ word &&& 0x5 = 0x5 ∧ 0xE07 &&& word = word := by
  have hcond : (contains ⟨word⟩ userRead && contains requestable ⟨word⟩) = true ↔
      word &&& 0x5 = 0x5 ∧ 0xE07 &&& word = word := by
    rw [Bool.and_eq_true, contains, contains, beq_iff_eq, beq_iff_eq]
    rfl
  unfold request
  simp only
  split
  · rename_i h
    rw [Except.ok.injEq, eq_comm]
    exact ⟨fun heq => ⟨heq, hcond.1 h⟩, fun hall => hall.1⟩
  · rename_i h
    constructor
    · intro heq
      cases heq
    · intro hall
      exact absurd (hcond.2 hall.2) h

theorem writable_of_narrow {p source : Perm} (h : p.narrow source = .ok ())
    (hp : p.contains .writable = true) : source.contains .writable = true := by
  unfold narrow at h
  cases hs : source.contains writable with
  | true => rfl
  | false =>
    rw [hp, hs] at h
    cases h

end Perm

theorem VirtAddr.SamePage.refl (a : VirtAddr) : a.SamePage a := ⟨rfl, rfl⟩

namespace Kernel

variable {pins : List Frame} {k k' : Kernel}

/-- What the environment in a slot maps at the page around `va`. -/
def mapped (k : Kernel) (slot : Nat) (va : VirtAddr) : Option (Frame × Perm) :=
  (k.env slot).space.bind fun s => k.memory.lookup s va

/-- From `k` to `k'`, the request installs the frame `f` with the permission `perm`; the page is
  the one that the environment in `source` has at `va`. -/
inductive Installs (k k' : Kernel) (f : Frame) (perm : Perm) :
    Request → (source : Nat) → VirtAddr → Prop where
  | map {source dest : EnvId} {sourceVa destVa : VirtAddr} {word : UInt32} {src dst : Nat}
      (owner : k.target source .owned = .ok src) (target : k.target dest .owned = .ok dst)
      (mapped : k'.mapped dst destVa = some (f, perm)) :
      Installs k k' f perm (.pageMap source sourceVa dest destVa word) src sourceVa
  | send {id : EnvId} {value : UInt32} {va dest : VirtAddr} {word : UInt32} {cur target : Nat}
      (caller : k.caller = .ok cur) (resolves : k.envs.resolve id = some target)
      (waits : (k.env target).mailbox.receiving = true)
      (place : (k.env target).mailbox.dest = some dest)
      (arrived : (k'.env target).mailbox.perm ≠ .empty)
      (mapped : k'.mapped target dest = some (f, perm)) :
      Installs k k' f perm (.send id value va word) cur va
  | receive {va : VirtAddr} {cur sender : Nat} {send : ParkedSend} {page : OfferedPage}
      (caller : k.caller = .ok cur)
      (first : k.firstParked (k.env cur).id = some (sender, send))
      (offered : send.page = some page) (arrived : (k'.env cur).mailbox.perm ≠ .empty)
      (mapped : k'.mapped cur va = some (f, perm)) :
      Installs k k' f perm (.receive va) sender page.va

/-- The request succeeds and installs a writable page whose source is not writable. -/
def Widens (k : Kernel) (r : Request) : Prop :=
  (k.perform r).result.isOk = true ∧ ∃ f perm source va,
    Installs k (k.perform r).kernel f perm r source va ∧ perm.contains .writable = true ∧
      ¬ ∃ q, k.mapped source va = some (f, q) ∧ q.contains .writable = true

/-- The request takes a parked page with the right to write, and the sender still maps the page
  but may no longer write it. -/
def TakesStaleOffer (k : Kernel) (r : Request) : Prop :=
  (k.perform r).result.isOk = true ∧ ∃ va cur sender send page q,
    r = .receive va ∧ va.isUser = true ∧ k.caller = .ok cur ∧
      k.firstParked (k.env cur).id = some (sender, send) ∧ send.page = some page ∧
      page.perm.contains .writable = true ∧ k.mapped sender page.va = some (page.frame, q) ∧
      q.contains .writable = false

theorem ofCheck_isOk {c : Check (Kernel × Flow)} (h : (Reply.ofCheck k c).result.isOk = true) :
    ∃ flow, c = .ok ((Reply.ofCheck k c).kernel, flow) := by
  cases c with
  | ok r => exact ⟨r.2, rfl⟩
  | error e => cases h

theorem ofCheck_eq_ok {c : Check (Kernel × Flow)} {flow : Flow}
    (h : (Reply.ofCheck k c).result = .ok flow) : c = .ok ((Reply.ofCheck k c).kernel, flow) := by
  cases c with
  | ok r =>
    obtain rfl : r.2 = flow := Except.ok.inj h
    rfl
  | error e => cases h

/-! ## Where a page arrives -/

/-- What is mapped where a page was inserted. -/
theorem mapped_of_insert {slot : Nat} {s : SpaceId} {f : Frame} {va : VirtAddr} {perm : Perm}
    (hk : k.Sound pins) (hs : (k'.env slot).space = some s) (hp : perm.Requestable)
    (hi : k.memory.insert s f va perm = .ok k'.memory) :
    k'.mapped slot va = some (f, perm.union .present) := by
  unfold mapped
  rw [hs, Option.bind_some, Memory.lookup_insert hk.balanced hp.bits_lt hi, if_pos (.refl va)]

/-- A receiver that was given a permission was given the page. -/
theorem mapped_of_transfer {sender receiver : Nat} {value : UInt32} {page : Option OfferedPage}
    {dest : Option VirtAddr} (hk : k.Sound pins) (hl : (k.env receiver).isLive = true)
    (hpage : ∀ p, page = some p → p.perm.Requestable)
    (h : k.transfer sender receiver value page dest = .ok k')
    (harrived : (k'.env receiver).mailbox.perm ≠ .empty) :
    ∃ offered va, page = some offered ∧ dest = some va ∧
      k'.mapped receiver va = some (offered.frame, offered.perm.union .present) := by
  obtain ⟨perm, hplace, hrecord, -⟩ := transfer_spec hl h
  rcases placePage_eq_ok hplace with ⟨-, -, rfl⟩ | ⟨offered, va, s, hp, hd, hs, hi, -⟩
  · rw [hrecord] at harrived
    exact absurd rfl harrived
  · refine ⟨offered, va, hp, hd, mapped_of_insert hk ?_ (hpage offered hp) hi⟩
    rw [hrecord]
    exact hs

/-! ## The three ways -/

/-- Mapping a page looks at the source. -/
theorem pageMap_narrows {source dest : EnvId} {sourceVa destVa : VirtAddr} {word : UInt32}
    {src dst : Nat} {f : Frame} {perm : Perm} {flow : Flow} (hk : k.Sound pins)
    (h : k.pageMap source sourceVa dest destVa word = .ok (k', flow))
    (hsrc : k.target source .owned = .ok src) (hdst : k.target dest .owned = .ok dst)
    (hmapped : k'.mapped dst destVa = some (f, perm)) (hw : perm.contains .writable = true) :
    ∃ q, k.mapped src sourceVa = some (f, q) ∧ q.contains .writable = true := by
  obtain ⟨src', dst', asked, r, s, frame, q, memory, event, hsrc', hdst', -, -, hp, hr, hl, hn, hs,
    hi, rfl, -⟩ := pageMap_eq_ok h
  obtain rfl : src = src' := by simpa [hsrc] using hsrc'
  obtain rfl : dst = dst' := by simpa [hdst] using hdst'
  have hplaced : ({ k with memory }.note event).mapped dst destVa =
      some (frame, asked.union .present) :=
    mapped_of_insert hk hs (Perm.requestable_of_request hp) hi
  rw [hplaced] at hmapped
  obtain ⟨rfl, rfl⟩ := Prod.mk.inj (Option.some.inj hmapped)
  -- what is asked for with the right to write passed the check against the source
  rw [Perm.contains_writable_union_present] at hw
  refine ⟨q, ?_, Perm.writable_of_narrow hn hw⟩
  rw [mapped, hr, Option.bind_some, hl]

/-- A message that is handed over at once looks at the source. -/
theorem send_narrows {id : EnvId} {value word : UInt32} {va dest : VirtAddr} {cur target : Nat}
    {f : Frame} {perm : Perm} {flow : Flow} (hk : k.Sound pins)
    (h : k.send id value va word = .ok (k', flow)) (hc : k.caller = .ok cur)
    (ht : k.envs.resolve id = some target) (hwaits : (k.env target).mailbox.receiving = true)
    (hdest : (k.env target).mailbox.dest = some dest)
    (harrived : (k'.env target).mailbox.perm ≠ .empty)
    (hmapped : k'.mapped target dest = some (f, perm)) (hw : perm.contains .writable = true) :
    ∃ q, k.mapped cur va = some (f, q) ∧ q.contains .writable = true := by
  obtain ⟨cur', target', page, hc', ht', -, hp, hcases⟩ := send_eq_ok h
  obtain rfl : cur = cur' := by simpa [hc] using hc'
  obtain rfl : target = target' := by simpa [ht] using ht'
  rcases hcases with ⟨-, htransfer, -⟩ | ⟨haway, -⟩
  swap
  · exact absurd (haway.symm.trans hwaits) Bool.false_ne_true
  have hl : (k.env target).isLive = true := (EnvTable.resolve_eq_some_iff.1 ht).2.1
  obtain ⟨offered, d, rfl, hd, hplaced⟩ :=
    mapped_of_transfer hk hl (requestable_of_offer hp) htransfer harrived
  obtain rfl : dest = d := Option.some.inj (hdest.symm.trans hd)
  rw [hplaced] at hmapped
  obtain ⟨rfl, rfl⟩ := Prod.mk.inj (Option.some.inj hmapped)
  rw [Perm.contains_writable_union_present] at hw
  rcases offer_eq_ok hp with ⟨-, hnone⟩ | ⟨asked, s, frame, q, -, -, hs, hlookup, hn, hsome⟩
  · cases hnone
  obtain rfl := Option.some.inj hsome
  refine ⟨q, ?_, Perm.writable_of_narrow hn hw⟩
  rw [mapped, hs, Option.bind_some, hlookup]

/-- What becomes of a parked message that is received: the page comes along if the sender still
  maps it where it did, and with the permission of the offer. -/
theorem receive_installs {va : VirtAddr} {cur sender : Nat} {send : ParkedSend} {flow : Flow}
    (h : Reachable pins k) (hrec : k.receive va = .ok (k', flow)) (hc : k.caller = .ok cur)
    (hf : k.firstParked (k.env cur).id = some (sender, send)) :
    ∃ k₁ dest, destination va = .ok dest ∧
      k.transfer sender cur send.value
        (send.page.filter fun page => k.stillMaps sender page) dest = .ok k₁ ∧
      k'.mapped cur = k₁.mapped cur ∧ (k'.env cur).mailbox.perm = (k₁.env cur).mailbox.perm := by
  obtain ⟨cur', dest, hc', hdest, hcases⟩ := receive_eq_ok hrec
  obtain rfl : cur = cur' := by simpa [hc] using hc'
  rcases hcases with ⟨sender', send', k₁, hf', htransfer, rfl, -⟩ | ⟨hnone, -⟩
  swap
  · rw [hf] at hnone
    cases hnone
  obtain ⟨rfl, rfl⟩ := Prod.mk.inj (Option.some.inj (hf.symm.trans hf'))
  obtain ⟨hls, hparked, htarget⟩ := firstParked_eq_some hf
  -- nobody has a message parked for itself, so waking the sender leaves the receiver's record
  have hne : cur ≠ sender := by
    rintro rfl
    exact (h.met cur hls send hparked).1 htarget
  have hl := (caller_eq_ok.1 hc).2
  obtain ⟨perm, -, hrecord, -⟩ := transfer_spec hl htransfer
  have hl₁ : (k₁.env cur).isLive = true := by
    rw [hrecord]
    rfl
  have henv : ((k₁.updateEnv cur fun e => { e with mailbox := { e.mailbox with dest } }).updateEnv
      sender fun e => e.wakeSender 0).env cur =
        { k₁.env cur with mailbox := { (k₁.env cur).mailbox with dest } } := by
    rw [env_updateEnv_of_ne _ hne, env_updateEnv_self _ hl₁]
  refine ⟨k₁, dest, hdest, htransfer, ?_, by rw [henv]⟩
  unfold mapped
  rw [henv]
  rfl

theorem stillMaps_iff {slot : Nat} {page : OfferedPage} :
    k.stillMaps slot page = true ↔ ∃ q, k.mapped slot page.va = some (page.frame, q) := by
  unfold stillMaps mapped
  cases (k.env slot).space.bind fun s => k.memory.lookup s page.va with
  | none => simp
  | some m => simp [Prod.ext_iff]

theorem destination_eq_ok {va : VirtAddr} {dest : Option VirtAddr}
    (h : destination va = .ok dest) :
    va.isUser = true ∧ dest = some va ∨ va.isUser = false ∧ dest = none := by
  unfold destination at h
  split at h
  · rename_i huser
    simp only [Check.bind_eq_ok, Check.require_eq_ok, Check.pure_eq_ok, exists_const] at h
    exact Or.inl ⟨huser, h.2.symm⟩
  · rename_i huser
    exact Or.inr ⟨by simpa using huser, (Check.pure_eq_ok.1 h).symm⟩

/-- The page of a parked message that is received is mapped with the permission of the offer,
  whatever its sender may do with it by now. -/
theorem mapped_of_receive {va : VirtAddr} {cur sender : Nat} {send : ParkedSend}
    {page : OfferedPage} {flow : Flow} (h : Reachable pins k)
    (hrec : k.receive va = .ok (k', flow)) (hc : k.caller = .ok cur)
    (hf : k.firstParked (k.env cur).id = some (sender, send)) (hpage : send.page = some page)
    (harrived : (k'.env cur).mailbox.perm ≠ .empty) :
    va.isUser = true ∧ (∃ q, k.mapped sender page.va = some (page.frame, q)) ∧
      k'.mapped cur va = some (page.frame, page.perm.union .present) := by
  obtain ⟨k₁, dest, hdest, htransfer, hsame, hperm⟩ := receive_installs h hrec hc hf
  obtain ⟨hls, hparked, -⟩ := firstParked_eq_some hf
  have hrequestable : ∀ p, (send.page.filter fun page => k.stillMaps sender page) = some p →
      p.perm.Requestable := fun p hp =>
    h.sound.offers sender hls send hparked p (Option.filter_eq_some_iff.1 hp).1
  rw [hperm] at harrived
  obtain ⟨offered, d, hoffered, rfl, hplaced⟩ :=
    mapped_of_transfer h.sound (caller_eq_ok.1 hc).2 hrequestable htransfer harrived
  obtain ⟨hsome, hstill⟩ := Option.filter_eq_some_iff.1 hoffered
  obtain rfl : page = offered := Option.some.inj (hpage.symm.trans hsome)
  rcases destination_eq_ok hdest with ⟨huser, hd⟩ | ⟨-, hd⟩
  · obtain rfl := Option.some.inj hd
    exact ⟨huser, stillMaps_iff.1 hstill, hsame ▸ hplaced⟩
  · cases hd

/-- The page of a parked message comes along if its sender still maps it where it did. -/
theorem arrives_of_receive {va : VirtAddr} {cur sender : Nat} {send : ParkedSend}
    {page : OfferedPage} {flow : Flow} {q : Perm} (h : Reachable pins k)
    (hrec : k.receive va = .ok (k', flow)) (hc : k.caller = .ok cur)
    (hf : k.firstParked (k.env cur).id = some (sender, send)) (hpage : send.page = some page)
    (huser : va.isUser = true) (hstill : k.mapped sender page.va = some (page.frame, q)) :
    (k'.env cur).mailbox.perm = page.perm := by
  obtain ⟨k₁, dest, hdest, htransfer, -, hperm⟩ := receive_installs h hrec hc hf
  obtain ⟨perm, hplace, hrecord, -⟩ := transfer_spec (caller_eq_ok.1 hc).2 htransfer
  have hoffered : (send.page.filter fun page => k.stillMaps sender page) = some page :=
    Option.filter_eq_some_iff.2 ⟨hpage, stillMaps_iff.2 ⟨q, hstill⟩⟩
  have hsome : dest = some va := by
    rcases destination_eq_ok hdest with ⟨-, hd⟩ | ⟨hno, -⟩
    · exact hd
    · exact absurd (hno.symm.trans huser) Bool.false_ne_true
  rw [hoffered, hsome] at hplace
  rw [hperm, hrecord]
  rcases placePage_eq_ok hplace with ⟨hno | hno, -⟩ | ⟨offered, d, s, hp, -, -, -, hperm⟩
  · cases hno
  · cases hno
  · obtain rfl := Option.some.inj hp
    exact hperm

/-! ## When rights grow -/

/-- **Rights grow exactly when a stale offer is taken.** -/
theorem widens_iff (h : Reachable pins k) (r : Request) : k.Widens r ↔ k.TakesStaleOffer r := by
  constructor
  · rintro ⟨hok, f, perm, source, va, hinstalls, hw, hnot⟩
    refine ⟨hok, ?_⟩
    cases hinstalls with
    | map owner target mapped =>
      obtain ⟨flow, hmap⟩ := ofCheck_isOk hok
      exact absurd (pageMap_narrows h.sound hmap owner target mapped hw) hnot
    | send caller resolves waits place arrived mapped =>
      obtain ⟨flow, hsend⟩ := ofCheck_isOk hok
      exact absurd
        (send_narrows h.sound hsend caller resolves waits place arrived mapped hw) hnot
    | @receive va cur _ send page caller first offered arrived mapped =>
      obtain ⟨flow, hrec⟩ := ofCheck_isOk hok
      obtain ⟨huser, ⟨q, hstill⟩, hplaced⟩ :=
        mapped_of_receive h hrec caller first offered arrived
      obtain ⟨rfl, rfl⟩ := Prod.mk.inj (Option.some.inj (mapped.symm.trans hplaced))
      rw [Perm.contains_writable_union_present] at hw
      -- the frame is the one that the sender maps, so only the right to write can be missing
      refine ⟨va, cur, source, send, page, q, rfl, huser, caller, first, offered, hw, hstill, ?_⟩
      exact Bool.eq_false_iff.2 fun hq => hnot ⟨q, hstill, hq⟩
  · rintro ⟨hok, va, cur, sender, send, page, q, rfl, huser, hc, hf, hpage, hw, hstill, hq⟩
    obtain ⟨flow, hrec⟩ := ofCheck_isOk hok
    have hperm := arrives_of_receive h hrec hc hf hpage huser hstill
    have harrived : ((k.perform (.receive va)).kernel.env cur).mailbox.perm ≠ .empty := by
      intro hempty
      have hperm' : ((k.perform (.receive va)).kernel.env cur).mailbox.perm = page.perm := hperm
      rw [← hperm', hempty] at hw
      cases hw
    obtain ⟨-, -, hplaced⟩ := mapped_of_receive h hrec hc hf hpage harrived
    refine ⟨hok, page.frame, page.perm.union .present, sender, page.va,
      .receive hc hf hpage harrived hplaced, ?_, ?_⟩
    · rw [Perm.contains_writable_union_present]
      exact hw
    · rintro ⟨q', hstill', hq'⟩
      rw [hstill] at hstill'
      obtain rfl := (Prod.mk.inj (Option.some.inj hstill')).2
      exact Bool.false_ne_true (hq.symm.trans hq')

/-- A parent makes a page of its child read-only, which the child has already offered with the right
  to write. -/
def narrowedOffer : Kernel :=
  small.after [.create .none 0 0, .create .none 0 0, .run ⟨4096⟩, .call 6 #v[0, 0, 0, 0, 0],
    .call 11 #v[4098, 0x800000, 7, 0, 0], .call 7 #v[4098, 2, 0, 0, 0], .run ⟨4098⟩,
    .call 14 #v[4097, 42, 0x800000, 7, 0], .run ⟨4096⟩,
    .call 12 #v[4098, 0x800000, 4098, 0x800000, 5], .run ⟨4097⟩]

theorem widens_iff_narrowedOffer :
    narrowedOffer.Widens (.receive (.ofNat 0xC00000)) ↔
      narrowedOffer.TakesStaleOffer (.receive (.ofNat 0xC00000)) :=
  widens_iff (reachable_small _) (.receive (.ofNat 0xC00000))

/-- The receiver may write the page, and the sender may not. -/
theorem narrowedOffer_widens :
    Reachable [] narrowedOffer ∧ narrowedOffer.Widens (.receive (.ofNat 0xC00000)) := by
  refine ⟨reachable_small _, by decide +kernel, ⟨.ofNat 0x403000⟩, ⟨7⟩, 2, .ofNat 0x800000, ?_,
    by decide, ?_⟩
  · have hc : narrowedOffer.caller = .ok 1 :=
      caller_eq_ok.2 ⟨by decide +kernel, by decide +kernel⟩
    have hf : narrowedOffer.firstParked (narrowedOffer.env 1).id = some (2,
        { target := ⟨4097⟩
          value := 42
          page := some { va := .ofNat 0x800000, frame := ⟨.ofNat 0x403000⟩, perm := ⟨7⟩ } }) := by
      decide +kernel
    exact .receive hc hf rfl (by decide +kernel) (by decide +kernel)
  · rintro ⟨q, hq, hw⟩
    have hmapped : narrowedOffer.mapped 2 (.ofNat 0x800000) =
        some (⟨.ofNat 0x403000⟩, ⟨5⟩) := by
      decide +kernel
    rw [hmapped] at hq
    obtain rfl := (Prod.mk.inj (Option.some.inj hq)).2
    exact absurd hw (by decide)

end Kernel

end Exokernel
