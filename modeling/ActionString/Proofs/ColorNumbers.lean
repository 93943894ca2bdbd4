import ActionString.Color.Token
import Mathlib.Algebra.Group.Int.Defs
import Mathlib.Algebra.Group.Nat.Defs

/-!
# Colours out of numbers

Hexadecimal digits and hashes give colours by way of signed words of 32 bits. However large the
number behind a word is, and whether or not the word is negative, the channels of the colour are the
three low bytes of the number.
-/

namespace ActionString

/-- The number that digits stand for in a base: each digit counts as often as the power of the base
for the number of digits after it. -/
def positional (base : Nat) : List Nat → Nat
  | [] => 0
  | digit :: rest => digit * base ^ rest.length + positional base rest

/-- Digits that are taken in one after the other make up their number, after what was there before
them. -/
theorem foldl_positional (base start : Nat) (digits : List Nat) :
    digits.foldl (fun value digit => value * base + digit) start =
      start * base ^ digits.length + positional base digits := by
  induction digits generalizing start with
  | nil => simp [positional]
  | cons digit rest ih =>
    rw [List.foldl_cons, ih, positional, List.length_cons, Nat.pow_succ', Nat.add_mul,
      Nat.mul_assoc, Nat.add_assoc]

namespace Color

/-- The colour with the three low bytes of a number as its channels. -/
def lowBytes (number : Nat) : Color :=
  ⟨UInt8.ofNat (number / 0x10000 % 0x100), UInt8.ofNat (number / 0x100 % 0x100),
    UInt8.ofNat (number % 0x100)⟩

/-- An arithmetic shift divides by a power of two and rounds down. -/
theorem toInt_shiftRight (word : Int32) {places : Nat} (small : places < 32) :
    (word >>> Int32.ofNat places).toInt = word.toInt / 2 ^ places := by
  have amount : (Int32.ofNat places).toBitVec.smod 32 = BitVec.ofNat 32 places := by
    rw [Int32.toBitVec_ofNat']
    revert places
    decide
  rw [← Int32.toInt_toBitVec, Int32.toBitVec_shiftRight, amount, BitVec.sshiftRight',
    BitVec.toInt_sshiftRight, BitVec.toNat_ofNat, Nat.mod_eq_of_lt (by omega),
    Int.shiftRight_eq_div_pow]
  rfl

/-- Masking and shifting is shifting and masking with the shifted mask. -/
theorem shiftRight_and (word mask shift : Int32) :
    (word &&& mask) >>> shift = (word >>> shift) &&& (mask >>> shift) := by
  rw [← Int32.toBitVec_inj]
  simp [BitVec.sshiftRight_and_distrib]

/-- The low byte of a signed word is its remainder by 256, which is not negative. -/
theorem toUInt8_eq (word : Int32) :
    word.toInt8.toUInt8 = UInt8.ofNat (word.toInt % 0x100).toNat := by
  rw [← UInt8.toNat_inj, UInt8.toNat_ofNat', ← UInt8.toNat_toBitVec, Int8.toBitVec_toUInt8]
  have byte : word.toInt8 = Int8.ofInt word.toInt := by
    rw [← Int32.toInt8_ofInt, Int32.ofInt_toInt]
  rw [byte, Int8.toBitVec_ofInt, BitVec.toNat_ofInt]
  omega

/-- A byte that is cut out by a mask is the low byte of the shifted word, where the shifted mask
covers the low byte. -/
theorem maskedByte_eq {word mask shift : Int32} (covers : mask >>> shift = 0xFF) :
    maskedByte word mask shift = UInt8.ofNat ((word >>> shift).toInt % 0x100).toNat := by
  rw [maskedByte, shiftRight_and, covers, Int32.toInt8_and, Int8.toUInt8_and, ← toUInt8_eq]
  have full : (0xFF : Int32).toInt8.toUInt8 = -1 := by decide
  rw [full, UInt8.and_neg_one]

/-- A remainder that is lifted where it is negative is the low byte of the shifted word. -/
theorem channelAt_eq (word shift : Int32) :
    channelAt word shift = UInt8.ofNat ((word >>> shift).toInt % 0x100).toNat := by
  have remainder : ((word >>> shift) % 256).toInt = (word >>> shift).toInt.tmod 0x100 :=
    Int32.toInt_mod _ _
  have least := Int.lt_tmod_of_pos (word >>> shift).toInt (b := 0x100) (by decide)
  have euclidean : (word >>> shift).toInt.tmod 0x100 = (word >>> shift).toInt % 0x100 ∨
      (word >>> shift).toInt.tmod 0x100 = (word >>> shift).toInt % 0x100 - 0x100 := by
    rw [Int.tmod_eq_emod]
    split <;> omega
  have lifted : (if (word >>> shift) % 256 < 0 then (word >>> shift) % 256 + 256
      else (word >>> shift) % 256).toInt = (word >>> shift).toInt % 0x100 := by
    have zero : (0 : Int32).toInt = 0 := rfl
    have size : (256 : Int32).toInt = 0x100 := rfl
    simp only [Int32.lt_iff_toInt_lt, remainder, zero]
    split
    next negative =>
      rw [Int32.toInt_add, remainder, size, Int.bmod_eq_of_le] <;> omega
    next nonnegative =>
      rw [remainder]
      omega
  rw [channelAt, lifted, clampChannel]
  congr 1
  omega

/-- The low byte of a shifted word is a byte of the number behind the word. -/
theorem toInt_ofNat_shiftRight_emod (number : Nat) {places : Nat} (known : places ∈ [16, 8, 0]) :
    ((Int32.ofNat number >>> Int32.ofNat places).toInt % 0x100).toNat =
      number / 2 ^ places % 0x100 := by
  have word : (Int32.ofNat number).toInt = number % 0x100000000 ∨
      (Int32.ofNat number).toInt = number % 0x100000000 - 0x100000000 := by
    rw [Int32.toInt_ofNat', Int.bmod_def, Int32.size]
    omega
  simp only [List.mem_cons, List.not_mem_nil, or_false] at known
  obtain rfl | rfl | rfl := known <;> rw [toInt_shiftRight _ (by decide)] <;> omega

/-- The colour of a word is the colour of the number behind it. -/
theorem ofWord_ofNat (number : Nat) : ofWord (Int32.ofNat number) = lowBytes number := by
  have channel {places : Nat} (known : places ∈ [16, 8, 0]) :
      channelAt (Int32.ofNat number) (Int32.ofNat places) =
        UInt8.ofNat (number / 2 ^ places % 0x100) := by
    rw [channelAt_eq, toInt_ofNat_shiftRight_emod number known]
  have red := @channel 16 (by decide)
  have green := @channel 8 (by decide)
  have blue := @channel 0 (by decide)
  rw [Nat.pow_zero, Nat.div_one] at blue
  rw [ofWord, lowBytes, Color.mk.injEq]
  exact ⟨red, green, blue⟩

/-- The value of a hexadecimal digit is its place among the digits, in any case. -/
def hexValue (c : Char) : Nat := "0123456789abcdef".toList.idxOf c.toLower

/-- The hexadecimal digits at the front of a token. -/
def hexFront (token : String) : List Char := token.toList.takeWhile Char.isHexDigit

/-- The number that the hexadecimal digits at the front of a token stand for. -/
def hexNumber (token : String) : Nat := positional 16 ((hexFront token).map hexValue)

/-- A character has a hexadecimal value exactly if it is a hexadecimal digit. -/
theorem hexDigit?_eq (c : Char) :
    hexDigit? c = if c.isHexDigit then some (hexValue c) else none := by
  by_cases ascii : c.toNat < 128
  · have each : ∀ n < 128, hexDigit? (Char.ofNat n) =
        if (Char.ofNat n).isHexDigit then some (hexValue (Char.ofNat n)) else none := by
      decide +kernel
    rw [← Char.ofNat_toNat c]
    exact each _ ascii
  · have beyond (d : Char) (small : d.toNat < 128) : ¬c ≤ d := fun below =>
      ascii (Nat.lt_of_le_of_lt below small)
    have value : hexDigit? c = none := by simp [hexDigit?, beyond]
    have other : ¬c.isHexDigit = true := by
      rw [Char.isHexDigit, Char.isDigit]
      simp only [Bool.or_eq_true, Bool.and_eq_true, decide_eq_true_eq]
      rintro ((⟨-, below⟩ | ⟨-, below⟩) | ⟨-, below⟩)
      · exact beyond '9' (by decide) below
      · exact beyond 'f' (by decide) below
      · exact beyond 'F' (by decide) below
    rw [value, if_neg other]

/-- The digits at the front are read with their values. -/
theorem leadingHexDigits_eq (text : List Char) :
    leadingHexDigits text = (text.takeWhile Char.isHexDigit).map hexValue := by
  induction text with
  | nil => rfl
  | cons c rest ih =>
    rw [leadingHexDigits, hexDigit?_eq]
    cases digit : c.isHexDigit with
    | true => simp [digit, ih]
    | false => simp [digit]

/-- Digits are accumulated to their number, unless it outgrows the accumulator. -/
theorem accumulateHex_eq {start : Nat} (fits : start < accumulatorSize) (digits : List Nat) :
    accumulateHex start digits =
      if start * 16 ^ digits.length + positional 16 digits < accumulatorSize then
        some (start * 16 ^ digits.length + positional 16 digits)
      else none := by
  induction digits generalizing start with
  | nil => simp [accumulateHex, positional, fits]
  | cons digit rest ih =>
    have whole : start * 16 ^ (digit :: rest).length + positional 16 (digit :: rest) =
        (start * 16 + digit) * 16 ^ rest.length + positional 16 rest := by
      rw [← foldl_positional, ← foldl_positional, List.foldl_cons]
    rw [accumulateHex, whole]
    split
    next small => exact ih small
    next great =>
      -- The number only grows with the digits that are left.
      have grown : start * 16 + digit ≤ (start * 16 + digit) * 16 ^ rest.length :=
        Nat.le_mul_of_pos_right _ (Nat.pow_pos (by decide))
      rw [if_neg (by omega)]

/-- A token without hexadecimal digits at its front has no hexadecimal colour. -/
theorem ofHexDigits?_of_nil {token : String} (other : hexFront token = []) :
    ofHexDigits? token = none := by
  rw [ofHexDigits?, leadingHexDigits_eq, ← hexFront, other]
  rfl

/-- Hexadecimal digits give white past 64 bits, and else the low bytes of their number. -/
theorem ofHexDigits?_of_ne_nil {token : String} (begun : hexFront token ≠ []) :
    ofHexDigits? token =
      some (if 2 ^ 64 ≤ hexNumber token then white else lowBytes (hexNumber token)) := by
  have accumulated := @accumulateHex_eq 0 (by decide) ((hexFront token).map hexValue)
  rw [Nat.zero_mul, Nat.zero_add, ← hexNumber] at accumulated
  obtain ⟨digit, rest, digits⟩ := List.exists_cons_of_ne_nil
    (fun empty => begun (List.map_eq_nil_iff.mp empty) : (hexFront token).map hexValue ≠ [])
  rw [digits] at accumulated
  rw [ofHexDigits?, leadingHexDigits_eq, ← hexFront, digits]
  simp only [accumulated]
  by_cases fits : hexNumber token < accumulatorSize
  · have swap : (if hexNumber token < UInt64.size then lowBytes (hexNumber token) else white) =
        if 2 ^ 64 ≤ hexNumber token then white else lowBytes (hexNumber token) := by
      obtain small | great := Nat.lt_or_ge (hexNumber token) UInt64.size
      · rw [if_pos small, if_neg (show ¬2 ^ 64 ≤ hexNumber token from Nat.not_le_of_lt small)]
      · rw [if_neg (Nat.not_lt_of_le great), if_pos (show 2 ^ 64 ≤ hexNumber token from great)]
    simp only [fits, if_true, ofWord_ofNat, swap]
  · -- A number that outgrows the accumulator needs more than 64 bits all the more.
    have great : 2 ^ 64 ≤ hexNumber token := Nat.le_trans (by decide) (Nat.le_of_not_lt fits)
    simp only [fits, if_false, great, if_true]

/-- The colour of the hexadecimal digits at the front of a token, however many they are: none where
there are no digits, white where their number needs more than 64 bits, and else the colour of the
three low bytes of the number. -/
theorem ofHexDigits?_eq (token : String) :
    ofHexDigits? token =
      if hexFront token = [] then none
      else if 2 ^ 64 ≤ hexNumber token then some white
      else some (lowBytes (hexNumber token)) := by
  by_cases other : hexFront token = []
  · rw [if_pos other, ofHexDigits?_of_nil other]
  · rw [if_neg other, ofHexDigits?_of_ne_nil other, apply_ite some]

/-- A step of the hash multiplies by thirty-one and adds a unit, in 32 bits. -/
theorem hashStep_ofNat (hash unit : Nat) :
    hashStep (Int32.ofNat hash) unit = Int32.ofNat (hash * 31 + unit) := by
  have shifted : Int32.ofNat hash <<< 5 = Int32.ofNat (hash * 32) := by
    rw [← Int32.toBitVec_inj, Int32.toBitVec_shiftLeft, Int32.toBitVec_ofNat',
      Int32.toBitVec_ofNat']
    refine BitVec.eq_of_toNat_eq ?_
    have amount : (BitVec.smod (5 : Int32).toBitVec 32).toNat = 5 := rfl
    rw [BitVec.shiftLeft_eq', amount, BitVec.toNat_shiftLeft, BitVec.toNat_ofNat,
      BitVec.toNat_ofNat, Nat.shiftLeft_eq]
    omega
  rw [hashStep, shifted, ← Int32.ofNat_sub _ _ (by omega), ← Int32.ofNat_add]
  congr 1
  omega

/-- The hash is the number of the units in base thirty-one, in 32 bits. -/
theorem hashOf_eq (token : String) :
    hashOf token = Int32.ofNat (positional 31 (Text.units token.toList)) := by
  have each (start : Nat) (units : List Nat) : units.foldl hashStep (Int32.ofNat start) =
      Int32.ofNat (units.foldl (fun value digit => value * 31 + digit) start) := by
    induction units generalizing start with
    | nil => rfl
    | cons unit rest ih => rw [List.foldl_cons, hashStep_ofNat, ih, List.foldl_cons]
  have whole := each 0 (Text.units token.toList)
  rwa [foldl_positional, Nat.zero_mul, Nat.zero_add] at whole

/-- A token of any length is hashed to the three low bytes of the number that its units stand for in
base thirty-one. -/
theorem ofHash_eq_lowBytes (token : String) :
    ofHash token = lowBytes (positional 31 (Text.units token.toList)) := by
  let number := positional 31 (Text.units token.toList)
  have channel {mask : Int32} {places : Nat} (covers : mask >>> Int32.ofNat places = 0xFF)
      (known : places ∈ [16, 8, 0]) :
      maskedByte (Int32.ofNat number) mask (Int32.ofNat places) =
        UInt8.ofNat (number / 2 ^ places % 0x100) := by
    rw [maskedByte_eq covers, toInt_ofNat_shiftRight_emod number known]
  have red := @channel 0x00FF0000 16 (by decide) (by decide)
  have green := @channel 0x0000FF00 8 (by decide) (by decide)
  have blue := @channel 0x000000FF 0 (by decide) (by decide)
  rw [Nat.pow_zero, Nat.div_one] at blue
  rw [ofHash, hashOf_eq, lowBytes, Color.mk.injEq]
  exact ⟨red, green, blue⟩

end Color

end ActionString
