import ContractTrace.Proofs.Range

/-! Operations on the bits of words. On the operands of a type of any width, the carrier's
operations give what the operations on words of that width give. -/

namespace ContractTrace

/-! ### Widening -/

/-- An operation that treats every position of two words alike, at all widths. -/
structure Bitwise (f : (w : Nat) → BitVec w → BitVec w → BitVec w) : Prop where
  signExtend : ∀ {w : Nat} (v : Nat) (x y : BitVec w),
    (f w x y).signExtend v = f v (x.signExtend v) (y.signExtend v)
  setWidth : ∀ {w : Nat} (v : Nat) (x y : BitVec w),
    (f w x y).setWidth v = f v (x.setWidth v) (y.setWidth v)

namespace Bitwise

theorem and : Bitwise fun _ x y => x &&& y :=
  ⟨fun _ _ _ => BitVec.signExtend_and, fun _ _ _ => BitVec.setWidth_and⟩

theorem or : Bitwise fun _ x y => x ||| y :=
  ⟨fun _ _ _ => BitVec.signExtend_or, fun _ _ _ => BitVec.setWidth_or⟩

theorem xor : Bitwise fun _ x y => x ^^^ y :=
  ⟨fun _ _ _ => BitVec.signExtend_xor, fun _ _ _ => BitVec.setWidth_xor⟩

end Bitwise

/-- The values of signed words. -/
def SignedWord (w : Nat) (a : Int) : Prop := -twoPow (w - 1) ≤ a ∧ a < twoPow (w - 1)

/-- The values of unsigned words. -/
def UnsignedWord (w : Nat) (a : Int) : Prop := 0 ≤ a ∧ a < twoPow w

theorem SignedWord.toInt_ofInt {w : Nat} (hw : 0 < w) {a : Int} (ha : SignedWord w a) :
    (BitVec.ofInt w a).toInt = a :=
  BitVec.toInt_ofInt_eq_self hw (by exact_mod_cast ha.1) (by exact_mod_cast ha.2)

theorem UnsignedWord.toNat_ofInt {w : Nat} {a : Int} (ha : UnsignedWord w a) :
    ((BitVec.ofInt w a).toNat : Int) = a := by
  rw [BitVec.toNat_ofInt, Int.emod_eq_of_lt ha.1 (by exact_mod_cast ha.2), Int.toNat_of_nonneg ha.1]

theorem SignedWord.ofInt_eq {v w : Nat} (hw : 0 < w) {a : Int} (ha : SignedWord w a) :
    BitVec.ofInt v a = (BitVec.ofInt w a).signExtend v := by
  rw [BitVec.signExtend, ha.toInt_ofInt hw]

theorem UnsignedWord.ofInt_eq {v w : Nat} (hwv : w ≤ v) {a : Int} (ha : UnsignedWord w a) :
    BitVec.ofInt v a = (BitVec.ofInt w a).setWidth v := by
  have hv : UnsignedWord v a := ⟨ha.1, ha.2.trans_le (by exact_mod_cast twoPow_le hwv)⟩
  apply BitVec.eq_of_toNat_eq
  rw [BitVec.toNat_setWidth_of_le hwv]
  exact_mod_cast hv.toNat_ofInt.trans ha.toNat_ofInt.symm

namespace Bitwise

variable {f : (w : Nat) → BitVec w → BitVec w → BitVec w} {v w : Nat} {a b : Int}

/-- More bits do not change what an operation does to signed words. -/
theorem toInt_widen (hf : Bitwise f) (hw : 0 < w) (hwv : w ≤ v) (ha : SignedWord w a)
    (hb : SignedWord w b) :
    (f v (.ofInt v a) (.ofInt v b)).toInt = (f w (.ofInt w a) (.ofInt w b)).toInt := by
  rw [ha.ofInt_eq hw, hb.ofInt_eq hw, ← hf.signExtend, BitVec.toInt_signExtend_of_le hwv]

/-- More bits do not change what an operation does to unsigned words. -/
theorem toNat_widen (hf : Bitwise f) (hwv : w ≤ v) (ha : UnsignedWord w a)
    (hb : UnsignedWord w b) :
    (f v (.ofInt v a) (.ofInt v b)).toNat = (f w (.ofInt w a) (.ofInt w b)).toNat := by
  rw [ha.ofInt_eq hwv, hb.ofInt_eq hwv, ← hf.setWidth, BitVec.toNat_setWidth_of_le hwv]

/-- One more bit makes an unsigned word a signed one. -/
theorem toInt_succ (hf : Bitwise f) (ha : UnsignedWord w a) (hb : UnsignedWord w b) :
    (f (w + 1) (.ofInt (w + 1) a) (.ofInt (w + 1) b)).toInt =
      (f w (.ofInt w a) (.ofInt w b)).toNat := by
  rw [ha.ofInt_eq (Nat.le_succ w), hb.ofInt_eq (Nat.le_succ w), ← hf.setWidth,
    ← BitVec.setWidth'_eq (Nat.le_succ w), BitVec.toInt_setWidth'_of_lt (Nat.lt_succ_self w)]

end Bitwise

/-! ### Words of a type -/

namespace IntegerType

/-- The two's complement word of a value. -/
def word (ty : IntegerType) (v : Int) : BitVec ty.bits := .ofInt ty.bits v

/-- The value of a word. -/
def value (ty : IntegerType) (x : BitVec ty.bits) : Int := if ty.signed then x.toInt else x.toNat

variable {ty : IntegerType}

theorem covers_value (x : BitVec ty.bits) : ty.Covers (ty.value x) := by
  unfold Covers lowest highest value
  by_cases hs : ty.signed = true
  · simp only [hs, if_true]
    have hl : -(twoPow (ty.bits - 1) : Int) ≤ x.toInt := by exact_mod_cast x.le_toInt
    have hg : x.toInt < (twoPow (ty.bits - 1) : Int) := by exact_mod_cast x.toInt_lt
    omega
  · simp only [hs, Bool.false_eq_true, if_false]
    have hg : x.toNat < twoPow ty.bits := x.isLt
    omega

theorem signedWords {v : Int} (hs : ty.signed = true) (hv : ty.contains v = true) :
    SignedWord ty.bits v ∧ SignedWord 128 v := by
  obtain ⟨hc, hh⟩ := (contains_iff v).1 hv
  simp only [Covers, lowest, highest, hs, if_true] at hc
  exact ⟨⟨hc.1, Int.lt_of_le_sub_one hc.2⟩, ⟨hh.1, Int.lt_of_le_sub_one hh.2⟩⟩

theorem unsignedWords {v : Int} (hs : ¬ ty.signed = true) (hv : ty.contains v = true) :
    UnsignedWord ty.bits v ∧ UnsignedWord 127 v := by
  obtain ⟨hc, hh⟩ := (contains_iff v).1 hv
  simp only [Covers, lowest, highest, hs, if_false, Bool.false_eq_true] at hc
  exact ⟨⟨hc.1, Int.lt_of_le_sub_one hc.2⟩, ⟨hc.1, Int.lt_of_le_sub_one hh.2⟩⟩

end IntegerType

theorem Carrier.holds_toInt (x : BitVec 128) : Holds x.toInt := by
  have hl : -(twoPow 127 : Int) ≤ x.toInt := by exact_mod_cast x.le_toInt
  have hg : x.toInt < (twoPow 127 : Int) := by exact_mod_cast x.toInt_lt
  exact ⟨hl, Int.le_sub_one_of_lt hg⟩

/-- The carrier's bit operations are those of the type. -/
theorem Bitwise.carrier_eq {f : (w : Nat) → BitVec w → BitVec w → BitVec w} (hf : Bitwise f)
    {ty : IntegerType} (hty : ty.Valid) {a b : Int} (ha : ty.contains a = true)
    (hb : ty.contains b = true) :
    (f 128 (Carrier.bits a) (Carrier.bits b)).toInt =
      ty.value (f ty.bits (ty.word a) (ty.word b)) := by
  unfold Carrier.bits IntegerType.value IntegerType.word
  by_cases hs : ty.signed = true
  · obtain ⟨ha, ha'⟩ := IntegerType.signedWords hs ha
    obtain ⟨hb, hb'⟩ := IntegerType.signedWords hs hb
    rw [if_pos hs]
    rcases le_total ty.bits 128 with hw | hw
    · exact hf.toInt_widen hty.bits_pos hw ha hb
    · exact (hf.toInt_widen (by decide) hw ha' hb').symm
  · obtain ⟨ha, ha'⟩ := IntegerType.unsignedWords hs ha
    obtain ⟨hb, hb'⟩ := IntegerType.unsignedWords hs hb
    -- the carrier's sign bit stays clear, so that 127 bits are compared
    rw [if_neg hs, hf.toInt_succ ha' hb']
    rcases le_total ty.bits 127 with hw | hw
    · rw [hf.toNat_widen hw ha hb]
    · rw [hf.toNat_widen hw ha' hb']

/-! ### Complement -/

theorem not_ofInt (w : Nat) (v : Int) : ~~~ BitVec.ofInt w v = BitVec.ofInt w (-v - 1) := by
  rw [Int.sub_eq_add_neg, BitVec.ofInt_add, BitVec.ofInt_neg, BitVec.ofInt_neg,
    BitVec.not_eq_neg_add, BitVec.sub_eq_add_neg]
  rfl

namespace IntegerType

variable {ty : IntegerType} {v : Int}

theorem value_not_of_signed (hty : ty.Valid) (hs : ty.signed = true) (hv : ty.contains v = true) :
    ty.value (~~~ ty.word v) = Carrier.complement v := by
  have hw := (signedWords hs hv).1
  have hw' : SignedWord ty.bits (-v - 1) := by
    unfold SignedWord at hw ⊢
    omega
  rw [value, if_pos hs, word, not_ofInt, hw'.toInt_ofInt hty.bits_pos, Carrier.complement]

theorem value_not_of_unsigned (hs : ¬ ty.signed = true) (hv : ty.contains v = true) :
    ty.value (~~~ ty.word v) = ty.highest - v := by
  have hw := (unsignedWords hs hv).1
  have hlt : (ty.word v).toNat < twoPow ty.bits := (ty.word v).isLt
  have hnat : ((ty.word v).toNat : Int) = v := hw.toNat_ofInt
  have hnot : (~~~ ty.word v).toNat = twoPow ty.bits - 1 - (ty.word v).toNat := BitVec.toNat_not
  rw [value, if_neg hs, highest, if_neg hs, hnot]
  omega

theorem max_eq_highest (hs : ¬ ty.signed = true) (h : ty.representable = true) :
    ty.max = ty.highest := by
  simp only [representable, hs, if_false, Bool.false_eq_true, decide_eq_true_eq] at h
  rw [IntegerType.max, highest, if_neg hs, if_neg hs, if_neg (by omega)]

end IntegerType

end ContractTrace
