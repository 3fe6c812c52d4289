/-
  How registers lie in memory.

  To write registers down, the kernel lists their words; to read them, it takes each register from
  the word with its number.  These are two lists, and nothing but their agreement makes what a
  program reads what it wrote.  A selector has half the width of its word: the other half is
  padding, which is written as zero and never read.

  A byte is known by its word and its place there (`byteIndex`), so each law is first one about
  words, with a case for each register, and then one about the four bytes of any word.  What is
  written is in normal form: padding is all that decoding and encoding again can change.

  Registers that come from programs are put into user mode.  `sanitizeBytes` does the same to the
  bytes.  For what was encoded this is shown register by register (`encode_sanitize`); for any
  bytes it follows, since they decode as their normal form does.
-/
import Mathlib.Data.Fintype.Basic
import Mathlib.Tactic.FinCases
import Exokernel.Proofs.UserMode

namespace Exokernel.Registers

/-! ## Words and bytes -/

theorem toNat_byteOf (w : UInt32) (k : Nat) :
    (byteOf w k).toNat = w.toNat >>> (8 * k) % 0x100 :=
  UInt8.toNat_ofNat'

theorem toNat_wordOf (a b c d : UInt8) : (wordOf a b c d).toNat =
    a.toNat + 0x100 * b.toNat + 0x10000 * c.toNat + 0x1000000 * d.toNat := by
  have ha := a.toNat_lt
  have hb := b.toNat_lt
  have hc := c.toNat_lt
  have hd := d.toNat_lt
  rw [wordOf, UInt32.toNat_ofNat']
  omega

theorem byteOf_wordOf (x : Fin 4 → UInt8) (k : Fin 4) :
    byteOf (wordOf (x 0) (x 1) (x 2) (x 3)) k.val = x k := by
  have h0 := (x 0).toNat_lt
  have h1 := (x 1).toNat_lt
  have h2 := (x 2).toNat_lt
  have h3 := (x 3).toNat_lt
  rw [← UInt8.toNat_inj, toNat_byteOf, toNat_wordOf]
  match k with
  | 0 =>
    show _ >>> 0 % _ = _
    omega
  | 1 =>
    show _ >>> 8 % _ = _
    omega
  | 2 =>
    show _ >>> 16 % _ = _
    omega
  | 3 =>
    show _ >>> 24 % _ = _
    omega

theorem wordOf_byteOf (w : UInt32) :
    wordOf (byteOf w 0) (byteOf w 1) (byteOf w 2) (byteOf w 3) = w := by
  have hw := w.toNat_lt
  rw [← UInt32.toNat_inj, toNat_wordOf]
  simp only [toNat_byteOf]
  omega

/-- A word that was cut to its low half has no other bytes. -/
theorem byteOf_half (w : UInt32) (k : Fin 4) :
    byteOf w.toUInt16.toUInt32 k.val = if k.val < 2 then byteOf w k.val else 0 := by
  have hw := w.toNat_lt
  rw [← UInt8.toNat_inj, toNat_byteOf, UInt16.toNat_toUInt32, UInt32.toNat_toUInt16]
  match k with
  | 0 =>
    rw [if_pos (by decide), toNat_byteOf]
    show _ >>> 0 % _ = _ >>> 0 % _
    omega
  | 1 =>
    rw [if_pos (by decide), toNat_byteOf]
    show _ >>> 8 % _ = _ >>> 8 % _
    omega
  | 2 =>
    rw [if_neg (by decide)]
    show _ >>> 16 % _ = 0
    omega
  | 3 =>
    rw [if_neg (by decide)]
    show _ >>> 24 % _ = 0
    omega

/-- Where byte `k` of word `j` lies. -/
def byteIndex (j : Fin wordCount) (k : Fin 4) : Fin byteCount :=
  ⟨4 * j.val + k.val, byteIndex_lt j k⟩

theorem exists_byteIndex (i : Fin byteCount) : ∃ j k, i = byteIndex j k :=
  ⟨⟨i.val / 4, wordIndex_lt i⟩, ⟨i.val % 4, Nat.mod_lt _ (by decide)⟩,
    Fin.ext (Nat.div_add_mod i.val 4).symm⟩

theorem get_encode (r : Registers) (j : Fin wordCount) (k : Fin 4) :
    r.encode.get (byteIndex j k) = byteOf (r.words.get j) k.val := by
  have hk := k.isLt
  have hdiv : (4 * j.val + k.val) / 4 = j.val := by omega
  have hmod : (4 * j.val + k.val) % 4 = k.val := by omega
  refine (Vector.getElem_ofFn (byteIndex j k).isLt).trans ?_
  simp only [byteIndex, hdiv, hmod]

theorem byteOf_wordAt (b : Vector UInt8 byteCount) (j : Fin wordCount) (k : Fin 4) :
    byteOf (wordAt b j) k.val = b.get (byteIndex j k) :=
  byteOf_wordOf (fun k => b.get (byteIndex j k)) k

theorem wordAt_encode (r : Registers) (j : Fin wordCount) : wordAt r.encode j = r.words.get j := by
  show wordOf (r.encode.get (byteIndex j 0)) (r.encode.get (byteIndex j 1))
    (r.encode.get (byteIndex j 2)) (r.encode.get (byteIndex j 3)) = _
  rw [get_encode, get_encode, get_encode, get_encode]
  exact wordOf_byteOf _

theorem bytes_ext {b b' : Vector UInt8 byteCount} (h : ∀ i, b.get i = b'.get i) : b = b' :=
  Vector.ext fun i hi => h ⟨i, hi⟩

/-! ## There and back -/

theorem decode_encode (r : Registers) : decode r.encode = r := by
  have hwords : Vector.ofFn (wordAt r.encode) = r.words := by
    refine Vector.ext fun j hj => ?_
    rw [Vector.getElem_ofFn]
    exact r.wordAt_encode ⟨j, hj⟩
  rw [decode, hwords, ofWords_words]

/-- The words that hold selectors. -/
def selectors : List (Fin wordCount) := [8, 9, 13, 16]

/-- The bytes in which nothing is kept. -/
def padding : List Nat := [34, 35, 38, 39, 54, 55, 66, 67]

/-- Padding is the high half of the words that hold selectors. -/
theorem byteIndex_mem_padding : ∀ j k,
    (byteIndex j k).val ∈ padding ↔ j ∈ selectors ∧ 2 ≤ k.val := by decide

/-- The two lists of registers agree, but for the width of the selectors. -/
theorem words_ofWords (w : Vector UInt32 wordCount) (j : Fin wordCount) :
    (ofWords w).words.get j =
      if j ∈ selectors then (w.get j).toUInt16.toUInt32 else w.get j := by
  fin_cases j <;> rfl

theorem encode_decode (b : Vector UInt8 byteCount) (i : Fin byteCount) :
    (decode b).encode.get i = if i.val ∈ padding then 0 else b.get i := by
  obtain ⟨j, k, rfl⟩ := exists_byteIndex i
  have hword : (Vector.ofFn (wordAt b)).get j = wordAt b j := Vector.getElem_ofFn j.isLt
  have hpadding := byteIndex_mem_padding j k
  rw [get_encode, decode, words_ofWords, hword]
  by_cases hj : j ∈ selectors
  · rw [if_pos hj, byteOf_half, byteOf_wordAt]
    by_cases hk : k.val < 2
    · rw [if_pos hk, if_neg fun hp => absurd (hpadding.1 hp).2 (by omega)]
    · rw [if_neg hk, if_pos (hpadding.2 ⟨hj, by omega⟩)]
  · rw [if_neg hj, byteOf_wordAt, if_neg fun hp => hj (hpadding.1 hp).1]

/-! ## User mode -/

theorem byteOf_and (v w : UInt32) (k : Nat) : byteOf (v &&& w) k = byteOf v k &&& byteOf w k := by
  rw [← UInt8.toNat_inj, UInt8.toNat_and]
  simp only [byteOf, UInt8.toNat_ofNat', UInt32.toNat_and, Nat.shiftRight_and_distrib]
  exact Nat.and_mod_two_pow (n := 8)

theorem byteOf_or (v w : UInt32) (k : Nat) : byteOf (v ||| w) k = byteOf v k ||| byteOf w k := by
  rw [← UInt8.toNat_inj, UInt8.toNat_or]
  simp only [byteOf, UInt8.toNat_ofNat', UInt32.toNat_or, Nat.shiftRight_or_distrib]
  exact Nat.or_mod_two_pow (n := 8)

/-- What becomes of the byte number `i` when registers are put into user mode: the selectors get
  values of their own, and in the second byte of the flags one bit is set and two are cleared. -/
def sanitizeByte (i : Nat) (x : UInt8) : UInt8 :=
  match i with
  | 32 | 36 | 64 => 0x23
  | 52 => 0x1B
  | 33 | 37 | 53 | 65 => 0
  | 57 => (x ||| 0x02) &&& ~~~0x30
  | _ => x

/-- Put registers into user mode where they lie. -/
def sanitizeBytes (b : Vector UInt8 byteCount) : Vector UInt8 byteCount :=
  Vector.ofFn fun i => sanitizeByte i.val (b.get i)

theorem get_sanitizeBytes (b : Vector UInt8 byteCount) (i : Fin byteCount) :
    (sanitizeBytes b).get i = sanitizeByte i.val (b.get i) :=
  Vector.getElem_ofFn i.isLt

/-- The bytes of the selectors. -/
def selectorBytes : List Nat := [32, 33, 36, 37, 52, 53, 64, 65]

/-- The bytes of the selectors and of the flags. -/
def guarded : List Nat := selectorBytes ++ [56, 57, 58, 59]

theorem sanitizeByte_of_not_mem {i : Nat} (hi : i ∉ guarded) (x : UInt8) :
    sanitizeByte i x = x := by
  unfold sanitizeByte
  split <;> first | rfl | exact absurd (by decide) hi

/-- Only three kinds of words are not what they were. -/
theorem words_sanitize (r : Registers) (j : Fin wordCount) : r.sanitize.words.get j =
    if j = 14 then (r.words.get j ||| interruptFlag) &&& ~~~ioPrivilege
    else if j ∈ selectors then (if j = 13 then userCode else userData).toUInt32
    else r.words.get j := by
  fin_cases j <;> rfl

theorem byteOf_flags (f : UInt32) (k : Fin 4) :
    byteOf ((f ||| interruptFlag) &&& ~~~ioPrivilege) k.val =
      sanitizeByte (byteIndex 14 k).val (byteOf f k.val) := by
  have hkept : ∀ x : UInt8, (x ||| 0) &&& -1 = x := fun x => by
    rw [UInt8.or_zero, UInt8.and_neg_one]
  rw [byteOf_and, byteOf_or]
  match k with
  | 1 => rfl
  | 0 | 2 | 3 => exact hkept _

theorem byteOf_forced : ∀ j ∈ selectors, ∀ k : Fin 4,
    byteOf (if j = 13 then userCode else userData).toUInt32 k.val =
      sanitizeByte (byteIndex j k).val 0 := by decide

/-- What is put into selectors does not depend on what was there. -/
theorem sanitizeByte_forced {i : Nat} (hi : i ∈ selectorBytes) (x : UInt8) :
    sanitizeByte i x = sanitizeByte i 0 := by
  simp only [selectorBytes, List.mem_cons, List.not_mem_nil, or_false] at hi
  rcases hi with rfl | rfl | rfl | rfl | rfl | rfl | rfl | rfl <;> rfl

theorem byteIndex_selector : ∀ j ∈ selectors, ∀ k,
    (byteIndex j k).val ∈ padding ∨ (byteIndex j k).val ∈ selectorBytes := by decide

/-- Padding is written as zero. -/
theorem encode_padding (r : Registers) {i : Fin byteCount} (hi : i.val ∈ padding) :
    r.encode.get i = 0 := by
  have h := encode_decode r.encode i
  rwa [decode_encode, if_pos hi] at h

/-- **To put registers into user mode is to do so with their bytes.** -/
theorem encode_sanitize (r : Registers) : r.sanitize.encode = sanitizeBytes r.encode := by
  refine bytes_ext fun i => ?_
  obtain ⟨j, k, rfl⟩ := exists_byteIndex i
  rw [get_sanitizeBytes, get_encode, words_sanitize]
  by_cases hflags : j = 14
  · rw [if_pos hflags, get_encode, hflags, byteOf_flags]
  rw [if_neg hflags]
  by_cases hj : j ∈ selectors
  · rw [if_pos hj, byteOf_forced j hj]
    rcases byteIndex_selector j hj k with hpadding | hforced
    · rw [encode_padding r hpadding]
    · exact (sanitizeByte_forced hforced _).symm
  · have hout : ∀ j ∉ selectors, j ≠ 14 → ∀ k, (byteIndex j k).val ∉ guarded := by decide
    rw [if_neg hj, get_encode, sanitizeByte_of_not_mem (hout j hj hflags k)]

/-- Bytes that were never encoded decode as their normal form does. -/
theorem sanitize_decode (b : Vector UInt8 byteCount) :
    (decode b).sanitize = decode (sanitizeBytes b) := by
  have hnormal : sanitizeBytes (decode b).encode = (decode (sanitizeBytes b)).encode := by
    refine bytes_ext fun i => ?_
    rw [get_sanitizeBytes, encode_decode, encode_decode, get_sanitizeBytes]
    split
    · rename_i hpadding
      have hout : ∀ i ∈ padding, i ∉ guarded := by decide
      exact sanitizeByte_of_not_mem (hout i.val hpadding) 0
    · rfl
  calc (decode b).sanitize
      = decode (decode b).sanitize.encode := (decode_encode _).symm
    _ = decode (sanitizeBytes (decode b).encode) := by rw [encode_sanitize]
    _ = decode (decode (sanitizeBytes b)).encode := by rw [hnormal]
    _ = decode (sanitizeBytes b) := decode_encode _

/-! ## The law -/

/-- The registers `r'` are `r` put into user mode, seen in their bytes and in the registers that
  bear on protection. -/
structure IntoUserMode (r r' : Registers) : Prop where
  kept : ∀ i : Fin byteCount, i.val ∉ guarded → r'.encode.get i = r.encode.get i
  userMode : r'.UserMode
  /-- All flags but those that let interrupts in and grant access to ports. -/
  flags : r'.eflags &&& ~~~0x3200 = r.eflags &&& ~~~0x3200
  /-- To do it again changes nothing. -/
  again : r'.sanitize = r'

/-- A mask may be applied to both sides of a union. -/
theorem or_and_distrib (v w mask : UInt32) : (v ||| w) &&& mask = v &&& mask ||| w &&& mask := by
  rw [← UInt32.toBitVec_inj]
  ext i
  simp only [UInt32.toBitVec_and, UInt32.toBitVec_or, BitVec.getElem_and, BitVec.getElem_or]
  exact Bool.and_or_distrib_right _ _ _

theorem sanitize_flags (f : UInt32) :
    (f ||| interruptFlag) &&& ~~~ioPrivilege &&& ~~~0x3200 = f &&& ~~~0x3200 := by
  have hboth : ~~~ioPrivilege &&& ~~~0x3200 = ~~~0x3200 := by decide
  have hflag : interruptFlag &&& ~~~0x3200 = 0 := by decide
  rw [UInt32.and_assoc, hboth, or_and_distrib, hflag, UInt32.or_zero]

theorem sanitize_sanitize (r : Registers) : r.sanitize.sanitize = r.sanitize := by
  have hagain : ∀ f g mask : UInt32, ((f ||| g) &&& mask ||| g) &&& mask = (f ||| g) &&& mask := by
    intro f g mask
    rw [or_and_distrib, UInt32.and_assoc, UInt32.and_self, ← or_and_distrib, UInt32.or_assoc,
      UInt32.or_self]
  exact congrArg (fun eflags => { r.sanitize with eflags })
    (hagain r.eflags interruptFlag (~~~ioPrivilege))

theorem intoUserMode_sanitize (r : Registers) : r.IntoUserMode r.sanitize where
  kept i hi := by rw [encode_sanitize, get_sanitizeBytes, sanitizeByte_of_not_mem hi]
  userMode := userMode_sanitize r
  flags := sanitize_flags r.eflags
  again := sanitize_sanitize r

/-- **What is written reads back**, and what is read writes back without its padding.  To put
  registers into user mode before or after makes no difference. -/
theorem codec_round_trip :
    (∀ r : Registers, decode r.encode = r) ∧
      (∀ (b : Vector UInt8 byteCount) (i : Fin byteCount),
        (decode b).encode.get i = if i.val ∈ padding then 0 else b.get i) ∧
      (∀ r : Registers, r.sanitize.encode = sanitizeBytes r.encode) ∧
      (∀ b : Vector UInt8 byteCount, (decode b).sanitize = decode (sanitizeBytes b)) ∧
      ∀ r : Registers, r.IntoUserMode r.sanitize :=
  ⟨decode_encode, encode_decode, encode_sanitize, sanitize_decode, intoUserMode_sanitize⟩

end Exokernel.Registers
