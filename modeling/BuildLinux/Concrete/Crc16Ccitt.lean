/-
The inline checksum of package/udp/udp_protocol.h: register 0xFFFF, polynomial
0x1021, most significant bit first.  The byte loop is identified with feeding
the message bits into a sixteen-cell shift register, and its burst and parity
guarantees and its residue follow for messages of any length.
-/

import BuildLinux.ShiftRegister
import BuildLinux.Concrete.UdpProtocol

namespace BuildLinux.Concrete.Crc16Ccitt

open ShiftRegister
open UdpProtocol (Byte)

/-- One round of the inner loop on the `uint16_t` register. -/
def crcStep (crc : BitVec 16) : BitVec 16 :=
  if crc &&& 0x8000#16 ≠ 0#16 then (crc <<< 1) ^^^ 0x1021#16 else crc <<< 1

/-- `crc ^= (uint16_t)buf[i] << 8`, then eight rounds. -/
def crcByte (crc : BitVec 16) (byte : Byte) : BitVec 16 :=
  crcStep^[8] (crc ^^^ (byte.setWidth 16 <<< 8))

def crc16Ccitt (buf : List Byte) : BitVec 16 :=
  buf.foldl crcByte 0xFFFF#16

def byteBits (byte : Byte) : List Bool :=
  (List.range 8).map byte.getMsbD

def messageBits (buf : List Byte) : List Bool :=
  buf.flatMap byteBits

def differenceBits (left right : List Byte) : List Bool :=
  messageBits (List.zipWith (· ^^^ ·) left right)

/-! ### The byte loop is a shift register -/

def polynomial : BitVec (15 + 1) := 0x1021#16

theorem polynomial_constantTerm : polynomial.getLsbD 0 = true := by
  decide

theorem polynomial_evenTerms : parity polynomial = 1 := by
  decide

private theorem top_mask (crc : BitVec 16) :
    crc &&& 0x8000#16 = if crc.msb then 0x8000#16 else 0#16 := by
  apply BitVec.eq_of_getLsbD_eq
  intro index inRange
  have mask : (0x8000#16).getLsbD index = decide (index = 15) := by
    have every : ∀ cell : Fin 16, (0x8000#16).getLsbD cell.val = decide (cell.val = 15) := by
      decide
    exact every ⟨index, inRange⟩
  rw [BitVec.getLsbD_and, mask, BitVec.msb_eq_getLsbD_last]
  by_cases isTop : index = 15
  · subst isTop
    cases crc.getLsbD 15 <;> simp
  · cases crc.getLsbD 15 <;> simp [isTop, mask]

theorem crcStep_eq_shift : crcStep = shift polynomial := by
  funext crc
  unfold crcStep shift
  rw [top_mask]
  cases crc.msb <;> rfl

theorem byteBits_length (byte : Byte) : (byteBits byte).length = 8 := by
  simp [byteBits]

theorem load_byteBits (byte : Byte) :
    (load (byteBits byte) : BitVec (15 + 1)) = byte.setWidth 16 <<< 8 := by
  apply BitVec.eq_of_getLsbD_eq
  intro index inRange
  have cell := load_getLsbD (n := 15) (byteBits byte) (15 - index) (by omega)
  rw [Nat.sub_sub_self (by omega)] at cell
  rw [cell, BitVec.getLsbD_shiftLeft, BitVec.getLsbD_setWidth, byteBits,
    List.getD_eq_getElem?_getD, List.getElem?_map]
  by_cases upper : 8 ≤ index
  · have inByte : 15 - index < 8 := by omega
    have mirrored : 8 - 1 - (15 - index) = index - 8 := by omega
    have inWord : index - 8 < 16 := by omega
    rw [List.getElem?_range inByte, Option.map_some, Option.getD_some, BitVec.getMsbD,
      decide_eq_true inByte, Bool.true_and, mirrored, decide_eq_true inWord,
      decide_eq_true inRange, decide_eq_false (Nat.not_lt.mpr upper)]
    rfl
  · have outside : 8 ≤ 15 - index := by omega
    rw [List.getElem?_eq_none (by rw [List.length_range]; exact outside), Option.map_none,
      Option.getD_none, decide_eq_true (Nat.lt_of_not_le upper), Bool.not_true, Bool.and_false,
      Bool.false_and]

theorem crcByte_eq_feedAll (crc : BitVec 16) (byte : Byte) :
    crcByte crc byte = feedAll polynomial crc (byteBits byte) := by
  rw [feedAll_load polynomial crc (byteBits byte) (by rw [byteBits_length]; omega),
    byteBits_length, load_byteBits, ← crcStep_eq_shift]
  rfl

theorem crc_eq_feedAll (crc : BitVec 16) (buf : List Byte) :
    buf.foldl crcByte crc = feedAll polynomial crc (messageBits buf) := by
  induction buf generalizing crc with
  | nil => rfl
  | cons byte rest ih =>
      change rest.foldl crcByte (crcByte crc byte) =
        feedAll polynomial crc (byteBits byte ++ messageBits rest)
      rw [ih, crcByte_eq_feedAll, feedAll_append]

theorem crc16Ccitt_eq_feedAll (buf : List Byte) :
    crc16Ccitt buf = feedAll polynomial 0xFFFF#16 (messageBits buf) :=
  crc_eq_feedAll 0xFFFF#16 buf

/-! ### Error words -/

theorem messageBits_length (buf : List Byte) : (messageBits buf).length = 8 * buf.length := by
  induction buf with
  | nil => rfl
  | cons byte rest ih =>
      change (byteBits byte ++ messageBits rest).length = _
      rw [List.length_append, byteBits_length, ih, List.length_cons]
      omega

theorem byteBits_xor (left right : Byte) :
    byteBits (left ^^^ right) = List.zipWith (· ^^ ·) (byteBits left) (byteBits right) := by
  have pointwise :
      (left ^^^ right).getMsbD = fun cell => left.getMsbD cell ^^ right.getMsbD cell := by
    funext cell
    exact BitVec.getMsbD_xor
  simp only [byteBits, List.zipWith_map, List.zipWith_self, pointwise]

theorem differenceBits_eq_zipWith (left right : List Byte)
    (sameLength : left.length = right.length) :
    differenceBits left right =
      List.zipWith (· ^^ ·) (messageBits left) (messageBits right) := by
  induction left generalizing right with
  | nil =>
      cases right with
      | nil => rfl
      | cons byte rest => cases sameLength
  | cons leftByte leftRest ih =>
      cases right with
      | nil => cases sameLength
      | cons rightByte rightRest =>
          have tail := ih rightRest (Nat.succ.inj sameLength)
          have aligned : (byteBits leftByte).length = (byteBits rightByte).length := by
            rw [byteBits_length, byteBits_length]
          change byteBits (leftByte ^^^ rightByte) ++ differenceBits leftRest rightRest =
            List.zipWith (· ^^ ·) (byteBits leftByte ++ messageBits leftRest)
              (byteBits rightByte ++ messageBits rightRest)
          rw [List.zipWith_append aligned, tail, byteBits_xor]

/-- The checksums differ by what the error word leaves in an empty register. -/
theorem crc16Ccitt_xor (left right : List Byte) (sameLength : left.length = right.length) :
    crc16Ccitt left ^^^ crc16Ccitt right =
      feedAll polynomial 0 (differenceBits left right) := by
  have bitLength : (messageBits left).length = (messageBits right).length := by
    rw [messageBits_length, messageBits_length, sameLength]
  rw [crc16Ccitt_eq_feedAll, crc16Ccitt_eq_feedAll, differenceBits_eq_zipWith _ _ sameLength,
    ← feedAll_xor polynomial _ _ _ _ bitLength, BitVec.xor_self]
  rfl

private theorem byteBits_clear (byte : Byte) (clear : true ∉ byteBits byte) : byte = 0#8 := by
  apply BitVec.eq_of_getMsbD_eq
  intro index inRange
  rw [BitVec.getMsbD_zero]
  cases value : byte.getMsbD index with
  | false => rfl
  | true =>
      have member : true ∈ byteBits byte :=
        List.mem_map.mpr ⟨index, List.mem_range.mpr inRange, value⟩
      exact False.elim (clear member)

theorem differenceBits_some (left right : List Byte)
    (sameLength : left.length = right.length) (different : left ≠ right) :
    true ∈ differenceBits left right := by
  induction left generalizing right with
  | nil =>
      cases right with
      | nil => exact False.elim (different rfl)
      | cons byte rest => cases sameLength
  | cons leftByte leftRest ih =>
      cases right with
      | nil => cases sameLength
      | cons rightByte rightRest =>
          change true ∈ byteBits (leftByte ^^^ rightByte) ++ differenceBits leftRest rightRest
          rw [List.mem_append]
          by_cases headSet : true ∈ byteBits (leftByte ^^^ rightByte)
          · exact Or.inl headSet
          · have sameHead : leftByte = rightByte :=
              BitVec.xor_eq_zero_iff.mp (byteBits_clear _ headSet)
            have tailDifferent : leftRest ≠ rightRest := by
              intro sameTail
              exact different (by rw [sameHead, sameTail])
            exact Or.inr (ih rightRest (Nat.succ.inj sameLength) tailDifferent)

/-- A burst of up to sixteen bits and an odd number of bits are both detected,
for messages of every length. -/
theorem crc16Ccitt_detects_errors (left right : List Byte)
    (sameLength : left.length = right.length) (different : left ≠ right)
    (error : BurstWithin 16 (differenceBits left right) ∨
      Odd ((differenceBits left right).count true)) :
    crc16Ccitt left ≠ crc16Ccitt right := by
  intro same
  have vanishes : feedAll polynomial 0 (differenceBits left right) = 0 := by
    rw [← crc16Ccitt_xor left right sameLength, same]
    exact BitVec.xor_self
  rcases error with burst | odd
  · exact feedAll_burst_ne_zero polynomial polynomial_constantTerm _ burst
      (differenceBits_some left right sameLength different) vanishes
  · exact feedAll_odd_ne_zero polynomial polynomial_evenTerms _ odd vanishes

/-- A burst across the boundary of two bytes, set at both of its ends. -/
theorem crc16Ccitt_detects_crossing_burst :
    crc16Ccitt [0x12#8, 0x34#8, 0x56#8] ≠ crc16Ccitt [0x13#8, 0x34#8, 0xD6#8] :=
  crc16Ccitt_detects_errors _ _ rfl (by decide)
    (Or.inl ⟨7, by
      intro position isSet
      have inRange : position < 24 := by
        by_contra outside
        have short : (differenceBits [0x12#8, 0x34#8, 0x56#8]
            [0x13#8, 0x34#8, 0xD6#8]).length ≤ position := by
          rw [differenceBits, messageBits_length]
          exact Nat.le_of_not_lt outside
        rw [List.getElem?_eq_none short] at isSet
        cases isSet
      have every : ∀ cell : Fin 24, (differenceBits [0x12#8, 0x34#8, 0x56#8]
          [0x13#8, 0x34#8, 0xD6#8])[cell.val]? = some true → cell.val = 7 ∨ cell.val = 16 := by
        decide
      rcases every ⟨position, inRange⟩ isSet with first | last
      · change position = 7 at first; omega
      · change position = 16 at last; omega⟩)

/-! ### Residue -/

/-- `(uint8_t)(crc >> 8)`. -/
def highByte (crc : BitVec 16) : Byte := (crc >>> 8).setWidth 8

/-- `(uint8_t)crc`. -/
def lowByte (crc : BitVec 16) : Byte := crc.setWidth 8

theorem load_bytePair (high low : Byte) :
    (load (byteBits high ++ byteBits low) : BitVec (15 + 1)) =
      (high.setWidth 16 <<< 8) ^^^ low.setWidth 16 := by
  have back : (low.setWidth 16 <<< 8) >>> 8 = low.setWidth 16 := by
    apply BitVec.eq_of_getLsbD_eq
    intro index inRange
    rw [BitVec.getLsbD_ushiftRight, BitVec.getLsbD_shiftLeft, BitVec.getLsbD_setWidth,
      BitVec.getLsbD_setWidth]
    by_cases inByte : index < 8
    · have inWord : 8 + index < 16 := by omega
      simp [inWord]
    · have outside : low.getLsbD index = false := BitVec.getLsbD_of_ge _ _ (by omega)
      simp [outside]
  rw [load_append, load_byteBits, load_byteBits, byteBits_length]
  exact congrArg _ back

theorem word_eq_bytePair_iff (word : BitVec 16) (high low : Byte) :
    word = (high.setWidth 16 <<< 8) ^^^ low.setWidth 16 ↔
      high = highByte word ∧ low = lowByte word := by
  constructor
  · intro isPair
    subst isPair
    constructor
    · apply BitVec.eq_of_getLsbD_eq
      intro index inRange
      have inWord : 8 + index < 16 := by omega
      have small : index < 16 := by omega
      simp [highByte, inRange, inWord, small]
    · apply BitVec.eq_of_getLsbD_eq
      intro index inRange
      simp [lowByte]
  · rintro ⟨isHigh, isLow⟩
    rw [isHigh, isLow]
    apply BitVec.eq_of_getLsbD_eq
    intro index inRange
    by_cases inLow : index < 8
    · simp [highByte, lowByte, inRange, inLow]
    · have upper : index - 8 < 8 := by omega
      have inWord : index - 8 < 16 := by omega
      have restored : 8 + (index - 8) = index := by omega
      simp [highByte, lowByte, inRange, inLow, upper, inWord, restored]

/-- The checksum of a message with two more bytes is zero exactly when they are
the checksum of the message, high byte first. -/
theorem crc16Ccitt_residue (buf : List Byte) (high low : Byte) :
    crc16Ccitt (buf ++ [high, low]) = 0#16 ↔
      high = highByte (crc16Ccitt buf) ∧ low = lowByte (crc16Ccitt buf) := by
  have appended : crc16Ccitt (buf ++ [high, low]) =
      feedAll polynomial (crc16Ccitt buf) (byteBits high ++ byteBits low) := by
    rw [feedAll_append, ← crcByte_eq_feedAll, ← crcByte_eq_feedAll]
    exact List.foldl_append
  have fits : (byteBits high ++ byteBits low).length ≤ 15 + 1 := by
    simp [byteBits_length]
  rw [appended, ← word_eq_bytePair_iff, ← load_bytePair]
  exact feedAll_eq_zero_iff polynomial _ polynomial_constantTerm _ fits

end BuildLinux.Concrete.Crc16Ccitt
