/-
  Results are not codes of errors.

  A call has one register for its answer, a signed word, and a program tells from it whether the
  call failed: the values from -7 to -1 are codes.  But what a call that succeeded has to say may
  be an unsigned word, an id or the end of a heap, and a large one of these is negative too.

  All answers there are stand in one list (`Grant`), found request by request without any
  invariant.  What keeps them off the codes are two facts about whole histories.  A generation never
  reaches the sign bit, so ids are positive (`Answerable.positive`).  A heap ends at the start of a
  page, and no page starts at one of the seven highest words (`Bounded`); the ceiling alone would
  not do, for a heap that ends above the middle of the address space has a negative end.
-/
import Exokernel.Proofs.Breaks
import Exokernel.Proofs.Ids

namespace Exokernel

namespace CallError

variable {e e' : CallError}

theorem code_bounds (e : CallError) : -7 ≤ e.code ∧ e.code ≤ -1 := by
  cases e <;> decide

/-- The error that a code stands for. -/
def ofCode? (value : Int32) : Option CallError := all.find? fun e => e.code = value

theorem ofCode?_code (e : CallError) : ofCode? e.code = some e := by
  cases e <;> rfl

theorem code_injective (h : e.code = e'.code) : e = e' := by
  have hsome := ofCode?_code e
  rw [h, ofCode?_code] at hsome
  exact (Option.some.inj hsome).symm

end CallError

/-! ## Words that are read with a sign -/

theorem toInt_toInt32 (w : UInt32) : w.toInt32.toInt = (w.toNat : Int).bmod 0x100000000 :=
  BitVec.toInt_eq_toNat_bmod w.toBitVec

/-- The start of a page is one as a signed word. -/
theorem dvd_toInt_toInt32 {w : UInt32} (h : w.toNat % pageSize = 0) :
    (pageSize : Int) ∣ w.toInt32.toInt := by
  rw [toInt_toInt32, Int.bmod_def]
  simp only [pageSize] at *
  omega

/-- Addresses above the middle of the address space are negative. -/
theorem toInt32_neg_iff (w : UInt32) : w.toInt32 < 0 ↔ 0x80000000 ≤ w.toNat := by
  have hlt := w.toNat_lt
  rw [Int32.lt_iff_toInt_lt, toInt_toInt32, Int.bmod_def]
  show (_ : Int) < 0 ↔ _
  omega

/-- The end `b` of a heap as it is answered. -/
structure HeapWord (b : VirtAddr) (value : Int32) : Prop where
  word : value.toUInt32.toNat = b.toNat
  aligned : (pageSize : Int) ∣ value.toInt
  negative : value < 0 ↔ 0x80000000 ≤ b.toNat

theorem Config.Bounds.heapWord {config : Config} {b : VirtAddr} (h : config.Bounds b) :
    HeapWord b (UInt32.ofNat b.toNat).toInt32 := by
  have hfits : (UInt32.ofNat b.toNat).toNat = b.toNat := by
    have htop := h.ceiling
    rw [UInt32.toNat_ofNat']
    simp only [userTop] at htop
    omega
  refine ⟨by rw [UInt32.toUInt32_toInt32, hfits], dvd_toInt_toInt32 ?_, ?_⟩
  · rw [hfits]
    exact eq_of_beq h.aligned
  · rw [toInt32_neg_iff, hfits]

/-- Does a call that succeeds answer with a value of its own?  All others answer with zero, if
  they do at once. -/
def Request.informs : Request → Bool
  | .getByte | .ownId | .fork | .growHeap _ => true
  | _ => false

namespace Kernel

variable {saved : Registers → Prop} {k k' : Kernel} {config : Config} {memory : Memory}
  {console : Console} {r : Request} {flow : Flow} {value : Int32} {number : UInt32} {args : Args}
  {cur slot e : Nat}

/-! ## What may be answered -/

/-- What the request `r` may answer that succeeds and takes `k` to `k'`. -/
inductive Grant (k k' : Kernel) (r : Request) : Int32 → Prop where
  | done (plain : r.informs = false) : Grant k k' r 0
  | byte (request : r = .getByte) (b : UInt8) : Grant k k' r (Int32.ofNat b.toNat)
  | self {cur : Nat} (request : r = .ownId) (caller : k.caller = .ok cur) :
      Grant k k' r (k.env cur).id.toResult
  | child {slot : Nat} (request : r = .fork) (lives : (k'.env slot).isLive = true) :
      Grant k k' r (k'.env slot).id.toResult
  | heap {increment : UInt32} {cur : Nat} {b : VirtAddr} (request : r = .growHeap increment)
      (caller : k.caller = .ok cur) (lives : (k'.env cur).isLive = true)
      (ends : (k'.env cur).heapBreak = b) : Grant k k' r (UInt32.ofNat b.toNat).toInt32

theorem ownId_answer (hc : k.caller = .ok cur) :
    k.ownId = .ok (k, .answer (k.env cur).id.toResult) := by
  simp only [ownId, hc]
  rfl

/-- Whoever forks is answered by the id of the child. -/
theorem fork_answer (h : k.fork = .ok (k', flow)) :
    ∃ child, (k'.env child).isLive = true ∧ flow = .answer (k'.env child).id.toResult := by
  obtain ⟨cur, k₁, child, event, -, ha, hkernel, hflow⟩ := fork_eq_ok h
  refine ⟨child, ?_, hflow⟩
  rw [hkernel]
  exact isLive_updateEnv (isLive_of_allocEnv ha) fun hl => hl

/-- The answer of a heap that grew is its end. -/
theorem growHeap_grant {increment : UInt32}
    (h : (k.growHeap increment).result = .ok (.answer value)) :
    Grant k (k.growHeap increment).kernel (.growHeap increment) value := by
  cases hc : k.caller with
  | error err =>
    simp only [growHeap, hc, Reply.refuse, reduceCtorEq] at h
  | ok cur =>
    have hl := (caller_eq_ok.1 hc).2
    cases hend : heapEnd? (k.env cur).heapBreak increment with
    | none =>
      obtain ⟨event, heq⟩ := growHeap_of_none hc hend
      rw [heq] at h
      cases h
    | some after =>
      cases hs : (k.env cur).space with
      | none =>
        obtain ⟨err, heq⟩ := growHeap_of_spaceless hc hs hend
        rw [heq] at h
        cases h
      | some s =>
        obtain ⟨n, m, -, ⟨event, -, heq⟩ | ⟨fault, err, mapped, -, -, heq⟩⟩ :=
          growHeap_of_some hc hs hend <;> rw [heq] at h ⊢
        · obtain rfl := Flow.answer.inj (Except.ok.inj h)
          have hrecord := env_updateEnv_self (k := { k with memory := m })
            (fun e => { e with heapBreak := after }) hl
          refine .heap rfl hc ?_ ?_
          · rw [env_note, hrecord]
            exact hl
          · rw [env_note, hrecord]
        · cases h

/-- **All that calls answer that succeed.** -/
theorem perform_grant (h : (k.perform r).result = .ok (.answer value)) :
    Grant k (k.perform r).kernel r value := by
  -- most calls have nothing to say
  have hzero : r.informs = false → Flow.answer value = .answer 0 →
      Grant k (k.perform r).kernel r value := by
    intro hplain hanswer
    rw [Flow.answer.inj hanswer]
    exact .done hplain
  cases r with
  | putBytes va len =>
    refine hzero rfl ?_
    replace h : (k.putBytes va len).result = .ok (.answer value) := h
    rcases k.putBytes_cases va len with ⟨err, heq⟩ | ⟨cur, fault, -, heq⟩ | ⟨console, heq⟩ <;>
      rw [heq] at h <;> cases h
    rfl
  | getByte =>
    replace h : k.getByte.2 = .answer value := Except.ok.inj h
    unfold getByte at h
    split at h
    · rename_i b console _
      rw [← Flow.answer.inj h]
      exact .byte rfl b
    · rw [← Flow.answer.inj h]
      exact .byte rfl 0
  | ownId =>
    have hok := ofCheck_eq_ok h
    cases hc : k.caller with
    | error err =>
      simp only [ownId, hc] at hok
      cases hok
    | ok cur =>
      rw [ownId_answer hc] at hok
      rw [← Flow.answer.inj (Prod.mk.inj (Except.ok.inj hok)).2]
      exact .self rfl hc
  | destroyEnv id =>
    obtain ⟨slot, event, -, -, hflow⟩ := destroyEnv_eq_ok (ofCheck_eq_ok h)
    exact hzero rfl hflow
  | mapKernelPage phys va =>
    obtain ⟨cur, frame, s, m, -, -, -, -, -, -, -, hflow⟩ := mapKernelPage_eq_ok (ofCheck_eq_ok h)
    exact hzero rfl hflow
  | yield =>
    obtain ⟨cur, -, -, hflow⟩ := yield_eq_ok (ofCheck_eq_ok h)
    cases hflow
  | fork =>
    obtain ⟨child, hl, hflow⟩ := fork_answer (ofCheck_eq_ok h)
    rw [Flow.answer.inj hflow]
    exact .child rfl hl
  | setStatus id word =>
    obtain ⟨slot, status, -, -, -, -, hflow⟩ := setStatus_eq_ok (ofCheck_eq_ok h)
    exact hzero rfl hflow
  | setRegisters id va =>
    refine hzero rfl ?_
    replace h : (k.setRegisters id va).result = .ok (.answer value) := h
    rcases k.setRegisters_cases id va with
      ⟨err, heq⟩ | ⟨cur, fault, -, heq⟩ | ⟨slot, registers, -, heq⟩ <;> rw [heq] at h <;> cases h
    rfl
  | setUpcall id va =>
    obtain ⟨slot, upcall, -, -, hflow⟩ := setUpcall_eq_ok (ofCheck_eq_ok h)
    exact hzero rfl hflow
  | execCommit id =>
    obtain ⟨cur, slot, event, -, -, -, -, hflow⟩ := execCommit_eq_ok (ofCheck_eq_ok h)
    cases hflow
  | pageAlloc id va word =>
    refine hzero rfl ?_
    replace h : (k.pageAlloc id va word).result = .ok (.answer value) := h
    rcases k.pageAlloc_cases id va word with
      ⟨err, heq⟩ | ⟨slot, s, perm, m, -, ⟨err, -, heq⟩ | ⟨-, event, heq⟩⟩ <;> rw [heq] at h <;>
        cases h
    rfl
  | pageMap source sourceVa dest destVa word =>
    obtain ⟨src, dst, perm, srcSpace, dstSpace, frame, sourcePerm, m, event, -, -, -, -, -, -, -, -,
      -, -, -, hflow⟩ := pageMap_eq_ok (ofCheck_eq_ok h)
    exact hzero rfl hflow
  | pageUnmap id va =>
    obtain ⟨slot, s, -, -, -, -, hflow⟩ := pageUnmap_eq_ok (ofCheck_eq_ok h)
    exact hzero rfl hflow
  | send id word va perm =>
    obtain ⟨cur, target, page, -, -, -, -, ⟨-, -, hflow⟩ | ⟨-, -, hflow⟩⟩ :=
      send_eq_ok (ofCheck_eq_ok h)
    · exact hzero rfl hflow
    · cases hflow
  | receive va =>
    obtain ⟨cur, dest, -, -, ⟨sender, send, k₁, -, -, -, hflow⟩ | ⟨-, -, hflow⟩⟩ :=
      receive_eq_ok (ofCheck_eq_ok h)
    · exact hzero rfl hflow
    · cases hflow
  | growHeap increment =>
    show Grant k (k.growHeap increment).kernel (.growHeap increment) value
    exact growHeap_grant h
  | unknown word =>
    replace h : (Except.error .invalid : Check Flow) = .ok (.answer value) := h
    cases h

/-! ## What is true of all who live -/

/-- The ids of all who live are positive, and their heaps end where they may. -/
structure Answerable (config : Config) (k : Kernel) : Prop where
  capacity : k.envs.capacity ≤ maxEnvs
  positive : ∀ e, (k.env e).isLive = true → 0 < (k.env e).id.toResult
  bounded : Bounded config k

theorem Answerable.course (hk : Answerable config k) (h : Course saved k k')
    (hb : Bounded config k') : Answerable config k' where
  capacity := by
    rw [h.capacity]
    exact hk.capacity
  positive := h.ids (p := fun _ i => 0 < i.toResult) hk.capacity
    (fun _ last hs => last.toResult_next_pos hs) hk.positive
  bounded := hb

theorem Answerable.perform (hk : Answerable config k) (r : Request) :
    Answerable config (k.perform r).kernel :=
  have hcourse : Course (fun _ => True) k (k.perform r).kernel := perform_course k r
  hk.course hcourse (hk.bounded.perform r)

theorem Answerable.operate (hk : Answerable config k) (hbase : config.Bounds config.heapBase)
    (op : Operation) : Answerable config (k.operate op).1 :=
  have hcourse : Course (fun _ => True) k (k.operate op).1 := operate_course k op fun _ _ => trivial
  hk.course hcourse (hk.bounded.operate hbase op)

theorem Answerable.happen (hk : Answerable config k) (hbase : config.Bounds config.heapBase)
    (h : Happening) : Answerable config (k.happen h) := by
  cases h with
  | operation op => exact hk.operate hbase op
  | typed bytes => exact ⟨hk.capacity, hk.positive, hk.bounded.stays (.quiet rfl rfl)⟩
  | drained => exact ⟨hk.capacity, hk.positive, hk.bounded.stays (.quiet rfl rfl)⟩

theorem Answerable.attended (hbase : config.Bounds config.heapBase) (past : List Happening)
    (hk : Answerable config k) : Answerable config (k.attended past) := by
  induction past generalizing k with
  | nil => exact hk
  | cons h rest ih => exact ih (hk.happen hbase h)

theorem answerable_boot (h : Kernel.boot config memory console = .ok k) : Answerable config k where
  capacity := capacity_boot h
  positive e hl := by
    rw [env_boot h] at hl
    cases hl
  bounded := (bounded_boot h).1

/-! ## Answers and codes -/

/-- **No answer of a call that succeeds is a code.** -/
theorem Grant.not_code (h : Grant k k' r value) (hk : Answerable config k)
    (hk' : Answerable config k') : ¬ (-7 ≤ value ∧ value ≤ -1) := by
  have hpositive : ∀ v : Int32, 0 < v → ¬ (-7 ≤ v.toInt ∧ v.toInt ≤ -1) := by
    intro v hv
    have hint : 0 < v.toInt := Int32.lt_iff_toInt_lt.1 hv
    omega
  rw [Int32.le_iff_toInt_le, Int32.le_iff_toInt_le]
  show ¬ (-7 ≤ value.toInt ∧ value.toInt ≤ -1)
  cases h with
  | done => decide
  | byte request b =>
    have hb := b.toNat_lt
    have hint : (Int32.ofNat b.toNat).toInt = b.toNat := Int32.toInt_ofNat_of_lt (by omega)
    omega
  | self request caller => exact hpositive _ (hk.positive _ (caller_eq_ok.1 caller).2)
  | child request lives => exact hpositive _ (hk'.positive _ lives)
  | heap request caller lives ends =>
    have haligned := (hk'.bounded.bounds _ lives).heapWord.aligned
    rw [ends] at haligned
    simp only [pageSize] at haligned
    omega

/-- An answer comes from an error or from a call that succeeded. -/
theorem dispatch_answer (h : (k.dispatch number args).2 = .answer value) :
    (∃ error, (k.perform (.ofWords number args)).result = .error error ∧ value = error.code) ∨
      (k.perform (.ofWords number args)).result = .ok (.answer value) := by
  rw [dispatch_snd, Reply.flow] at h
  cases hresult : (k.perform (.ofWords number args)).result with
  | ok flow =>
    rw [hresult] at h
    exact Or.inr (congrArg Except.ok h)
  | error err =>
    rw [hresult] at h
    exact Or.inl ⟨err, rfl, (Flow.answer.inj h).symm⟩

/-- Whoever is answered can tell from the answer whether its call failed, and why. -/
structure ResultsApart (k : Kernel) : Prop where
  failed : ∀ number args,
    (∃ value, (k.dispatch number args).2 = .answer value ∧ -7 ≤ value ∧ value ≤ -1) ↔
      ∃ error, (k.perform (.ofWords number args)).result = .error error
  code : ∀ number args error, (k.dispatch number args).2 = .answer error.code ↔
    (k.perform (.ofWords number args)).result = .error error
  granted : ∀ number args flow, (k.perform (.ofWords number args)).result = .ok flow →
    (k.dispatch number args).2 = flow
  /-- Whoever asks for its own id gets it. -/
  ownId : ∀ number args cur, Request.ofWords number args = .ownId → k.caller = .ok cur →
    (k.dispatch number args).2 = .answer (k.env cur).id.toResult ∧ 0 < (k.env cur).id.toResult
  fork : ∀ number args flow, Request.ofWords number args = .fork →
    (k.perform (.ofWords number args)).result = .ok flow →
      ∃ child, ((k.perform (.ofWords number args)).kernel.env child).isLive = true ∧
        flow = .answer ((k.perform (.ofWords number args)).kernel.env child).id.toResult ∧
        0 < ((k.perform (.ofWords number args)).kernel.env child).id.toResult
  /-- A heap that grew is answered by its end, also where that is negative. -/
  heap : ∀ number args increment value, Request.ofWords number args = .growHeap increment →
    (k.perform (.ofWords number args)).result = .ok (.answer value) →
      ∃ cur, k.caller = .ok cur ∧
        HeapWord ((k.perform (.ofWords number args)).kernel.env cur).heapBreak value

theorem Answerable.not_code (hk : Answerable config k)
    (h : (k.perform r).result = .ok (.answer value)) : ¬ (-7 ≤ value ∧ value ≤ -1) :=
  (perform_grant h).not_code hk (hk.perform r)

theorem Answerable.failed_iff (hk : Answerable config k) (number : UInt32) (args : Args) :
    (∃ value, (k.dispatch number args).2 = .answer value ∧ -7 ≤ value ∧ value ≤ -1) ↔
      ∃ error, (k.perform (.ofWords number args)).result = .error error := by
  constructor
  · rintro ⟨value, hanswer, hrange⟩
    rcases dispatch_answer hanswer with ⟨err, herror, -⟩ | hok
    · exact ⟨err, herror⟩
    · exact absurd hrange (hk.not_code hok)
  · rintro ⟨err, herror⟩
    refine ⟨err.code, ?_, err.code_bounds⟩
    rw [dispatch_snd, Reply.flow, herror]

theorem Answerable.code_iff (hk : Answerable config k) (number : UInt32) (args : Args)
    (error : CallError) : (k.dispatch number args).2 = .answer error.code ↔
      (k.perform (.ofWords number args)).result = .error error := by
  constructor
  · intro hanswer
    rcases dispatch_answer hanswer with ⟨err, herror, hcode⟩ | hok
    · rw [herror, CallError.code_injective hcode]
    · exact absurd error.code_bounds (hk.not_code hok)
  · intro herror
    rw [dispatch_snd, Reply.flow, herror]

theorem Answerable.fork_positive (hk : Answerable config k)
    (h : (k.perform .fork).result = .ok flow) :
    ∃ child, ((k.perform .fork).kernel.env child).isLive = true ∧
      flow = .answer ((k.perform .fork).kernel.env child).id.toResult ∧
      0 < ((k.perform .fork).kernel.env child).id.toResult := by
  obtain ⟨child, hl, hflow⟩ := fork_answer (ofCheck_eq_ok h)
  exact ⟨child, hl, hflow, (hk.perform .fork).positive child hl⟩

theorem Answerable.heapWord (hk : Answerable config k) {increment : UInt32}
    (h : (k.perform (.growHeap increment)).result = .ok (.answer value)) :
    ∃ cur, k.caller = .ok cur ∧
      HeapWord ((k.perform (.growHeap increment)).kernel.env cur).heapBreak value := by
  cases perform_grant h with
  | done plain => cases plain
  | byte request => cases request
  | self request => cases request
  | child request => cases request
  | heap request caller lives ends =>
    have hword := ((hk.perform (.growHeap increment)).bounded.bounds _ lives).heapWord
    refine ⟨_, caller, ?_⟩
    rw [← ends]
    exact hword

/-- **Results are not codes of errors**, after any history. -/
theorem results_apart (hboot : Kernel.boot config memory console = .ok k) (past : List Happening) :
    (k.attended past).ResultsApart := by
  have hk : Answerable config (k.attended past) :=
    (answerable_boot hboot).attended (bounded_boot hboot).2 past
  refine ⟨hk.failed_iff, hk.code_iff, ?granted, ?ownId, ?fork, ?heap⟩
  case granted =>
    intro number args flow hflow
    rw [dispatch_snd, Reply.flow, hflow]
  case ownId =>
    intro number args cur hrequest hc
    refine ⟨?_, hk.positive cur (caller_eq_ok.1 hc).2⟩
    have hown : (k.attended past).perform .ownId =
        .ofCheck (k.attended past) (k.attended past).ownId := rfl
    rw [dispatch_snd, hrequest, hown, ownId_answer hc]
    rfl
  case fork =>
    intro number args flow hrequest hflow
    rw [hrequest] at hflow ⊢
    exact hk.fork_positive hflow
  case heap =>
    intro number args increment value hrequest hflow
    rw [hrequest] at hflow ⊢
    exact hk.heapWord hflow

/-- A kernel whose heaps begin above the middle of the address space. -/
def lofty : Kernel where
  config := { capacity := 4, heapBase := .ofNat 0x90000000 }
  envs := .ofCapacity 4
  memory := .ofSize 16

theorem boot_lofty : Kernel.boot lofty.config (.ofSize 16) = .ok lofty := rfl

/-- The slot of a child was used before, and the last byte there is has been typed. -/
def busy : List Happening :=
  [.operation (.act (.create .none 0 0)), .operation (.act (.run ⟨4096⟩)),
    .operation (.act (.call 6 (.replicate 5 0))), .operation (.act (.call 3 (.replicate 5 4097))),
    .typed #[255]]

theorem results_apart_lofty : (lofty.attended busy).ResultsApart :=
  results_apart boot_lofty busy

/-- The id of the second child, the byte 255 and a negative end of the heap. -/
example : ((lofty.attended busy).dispatch 6 (.replicate 5 0)).2 = .answer 8193 ∧
    ((lofty.attended busy).dispatch 1 (.replicate 5 0)).2 = .answer 255 ∧
    ((lofty.attended busy).dispatch 16 (.replicate 5 1)).2 = .answer (-0x6FFFF000) := by
  decide +kernel

end Kernel

end Exokernel
