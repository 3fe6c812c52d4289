/-
  A packed bitmap.

  It keeps one bit for each of a run of things, eight to a byte, from the lowest bit of the first
  byte on.  The last byte may have bits to spare.

  What is known of a bitmap is what was last set where (`get_set`), so nobody else need care how
  the bits are packed.  That is a law about bytes first: to set one bit of a byte leaves the other
  seven.
-/
namespace Exokernel

/-- Is bit number `i` of a byte set? -/
def readBit (byte : UInt8) (i : Nat) : Bool := byte >>> UInt8.ofNat i &&& 1 == 1

/-- The byte with bit number `i` set or cleared. -/
def writeBit (byte : UInt8) (i : Nat) (bit : Bool) : UInt8 :=
  if bit then byte ||| 1 <<< UInt8.ofNat i else byte &&& ~~~(1 <<< UInt8.ofNat i)

/-- One bit for each of `n` things. -/
structure Bitmap (n : Nat) where
  bytes : Vector UInt8 ((n + 7) / 8)

/-! ## The bits of a byte -/

section Bytes

variable {i j : Nat} (byte : UInt8)

theorem toNat_mod_eight (h : i < 8) : (UInt8.ofNat i).toNat % 8 = i := by
  rw [UInt8.toNat_ofNat']
  omega

theorem readBit_eq (h : i < 8) : readBit byte i = byte.toBitVec.getLsbD i := by
  have hword : (byte >>> UInt8.ofNat i &&& 1).toNat = byte.toNat >>> i % 2 := by
    rw [UInt8.toNat_and, UInt8.toNat_shiftRight, toNat_mod_eight h]
    exact Nat.and_one_is_mod _
  have htest : byte.toBitVec.getLsbD i = (byte.toNat >>> i % 2 != 0) := by
    rw [BitVec.getLsbD, Nat.testBit, Nat.one_and_eq_mod_two]
    rfl
  unfold readBit
  rw [htest, Bool.eq_iff_iff, beq_iff_eq, bne_iff_ne, ← UInt8.toNat_inj, hword]
  show _ = 1 ↔ _
  omega

/-- The only bit of `1 <<< i` is bit number `i`. -/
theorem getLsbD_mask (hi : i < 8) (_ : j < 8) :
    (1 <<< UInt8.ofNat i : UInt8).toBitVec.getLsbD j = decide (i = j) := by
  have hshift : ((UInt8.ofNat i).toBitVec % 8).toNat = i := toNat_mod_eight hi
  rw [UInt8.toBitVec_shiftLeft, BitVec.shiftLeft_eq', hshift, BitVec.getLsbD_shiftLeft]
  show (_ && _ && (1#8).getLsbD (j - i)) = _
  rw [BitVec.getLsbD_one, Bool.eq_iff_iff]
  simp only [Bool.and_eq_true, Bool.not_eq_true', decide_eq_true_eq, decide_eq_false_iff_not]
  omega

/-- **A bit is what was written last**, and the other seven stay what they are. -/
theorem readBit_writeBit (hi : i < 8) (hj : j < 8) (bit : Bool) :
    readBit (writeBit byte i bit) j = if i = j then bit else readBit byte j := by
  rw [readBit_eq _ hj, readBit_eq _ hj]
  unfold writeBit
  cases bit with
  | true =>
    rw [if_pos rfl, UInt8.toBitVec_or, BitVec.getLsbD_or, getLsbD_mask hi hj]
    by_cases hij : i = j <;> simp [hij]
  | false =>
    rw [if_neg Bool.false_ne_true, UInt8.toBitVec_and, UInt8.toBitVec_not, BitVec.getLsbD_and,
      BitVec.getLsbD_not, getLsbD_mask hi hj]
    by_cases hij : i = j <;> simp [hij, hj]

/-- A byte is its eight bits. -/
theorem byte_ext {a b : UInt8} (h : ∀ i, i < 8 → readBit a i = readBit b i) : a = b := by
  rw [← UInt8.toBitVec_inj]
  refine BitVec.eq_of_getLsbD_eq fun i hi => ?_
  rw [← readBit_eq a hi, ← readBit_eq b hi, h i hi]

end Bytes

namespace Bitmap

variable {n i j : Nat}

theorem index_lt (h : i < n) : i / 8 < (n + 7) / 8 := by omega

/-- All bits clear. -/
def clear (n : Nat) : Bitmap n := ⟨.replicate _ 0⟩

/-- Is bit number `i` set?  Behind the last byte there is none. -/
def get (b : Bitmap n) (i : Nat) : Bool :=
  match b.bytes[i / 8]? with
  | some byte => readBit byte (i % 8)
  | none => false

/-- The bitmap with bit number `i` set or cleared; a number out of range has no effect. -/
def set (b : Bitmap n) (i : Nat) (bit : Bool) : Bitmap n :=
  if h : i < n then
    have hbyte := index_lt h
    ⟨b.bytes.set (i / 8) (writeBit b.bytes[i / 8] (i % 8) bit)⟩
  else b

/-! ## What is known of a bitmap -/

@[simp] theorem get_clear (n i : Nat) : (clear n).get i = false := by
  unfold get clear
  rw [Vector.getElem?_replicate]
  split
  · rename_i byte h
    obtain ⟨-, hzero⟩ := Option.ite_none_right_eq_some.1 h
    obtain rfl := Option.some.inj hzero
    unfold readBit
    rw [UInt8.zero_shiftRight, UInt8.zero_and]
    rfl
  · rfl

/-- **A bit is what it was set to last.** -/
theorem get_set (b : Bitmap n) (bit : Bool) (h : i < n) (j : Nat) :
    (b.set i bit).get j = if i = j then bit else b.get j := by
  have hbyte := index_lt h
  have hi := Nat.mod_lt i (show 8 > 0 by decide)
  have hj := Nat.mod_lt j (show 8 > 0 by decide)
  unfold get set
  rw [dif_pos h, Vector.getElem?_set]
  by_cases hsame : i / 8 = j / 8
  · -- in one byte, bits differ in their place within it
    have hmod : i % 8 = j % 8 ↔ i = j := by omega
    rw [if_pos hsame, ← hsame, Vector.getElem?_eq_getElem hbyte]
    simp only [readBit_writeBit _ hi hj, hmod]
  · have hne : i ≠ j := fun heq => hsame (congrArg (· / 8) heq)
    rw [if_neg hsame, if_neg hne]

/-- Ten bits take two bytes, and the last of them is the second bit of the second byte. -/
example : ((clear 10).set 9 true).bytes.toList = [0, 2] := by decide

/-- A bit to spare stays what it is. -/
theorem get_set_of_le (b : Bitmap n) (i : Nat) (bit : Bool) (h : n ≤ j) :
    (b.set i bit).get j = b.get j := by
  by_cases hi : i < n
  · rw [get_set _ _ hi, if_neg (by omega)]
  · rw [set, dif_neg hi]

theorem set_of_le (b : Bitmap n) (bit : Bool) (h : n ≤ i) : b.set i bit = b :=
  dif_neg (Nat.not_lt_of_le h)

/-- Bitmaps that agree in every bit, spare ones included, are the same. -/
theorem ext {a b : Bitmap n} (h : ∀ i, a.get i = b.get i) : a = b := by
  obtain ⟨a⟩ := a
  obtain ⟨b⟩ := b
  refine congrArg Bitmap.mk (Vector.ext fun k hk => byte_ext fun i hi => ?_)
  have hdiv : (8 * k + i) / 8 = k := by omega
  have hmod : (8 * k + i) % 8 = i := by omega
  have hbit := h (8 * k + i)
  simp only [get, hdiv, hmod, Vector.getElem?_eq_getElem hk] at hbit
  exact hbit

theorem set_set (b : Bitmap n) (i : Nat) (bit bit' : Bool) :
    (b.set i bit).set i bit' = b.set i bit' := by
  by_cases h : i < n
  · refine ext fun j => ?_
    rw [get_set _ _ h, get_set _ _ h, get_set _ _ h]
    split <;> rfl
  · have hle := Nat.le_of_not_lt h
    rw [set_of_le _ _ hle, set_of_le _ _ hle, set_of_le _ _ hle]

theorem set_get (b : Bitmap n) (i : Nat) : b.set i (b.get i) = b := by
  by_cases h : i < n
  · refine ext fun j => ?_
    rw [get_set _ _ h]
    split
    · rename_i heq
      rw [heq]
    · rfl
  · exact set_of_le _ _ (Nat.le_of_not_lt h)

end Bitmap

end Exokernel
