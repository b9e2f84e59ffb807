import ChipEight.Proofs.Assembly.LetterCase
import Mathlib.Algebra.Ring.Int.Defs
import Mathlib.Algebra.Ring.Nat

/-!
# Integers as operands

An integer is written for an operand in base ten, or behind a marker in base sixteen or base two
(`IsLiteral`). There may be blanks around it.

**Theorem (`resolve_literal`).** Such an operand is put into a field of bits if the integer fits
there, as itself or, where there are eight bits, as the byte that stands for a negative value.
Everything else is refused. So what is put into a field always fits there.

How an operand is read depends on its first characters only, so there is one lemma for each way of
writing (`readImmediate_decimal`, `readImmediate_hexadecimal`, `readImmediate_binary`). The limit on
decimal digits is far above every field: an operand in base ten that has too many digits is not read
at all, but its value would not have fitted either.
-/

namespace ChipEight.Assembly

open Text

/-- The ways to write an integer for an operand. Every integer can be written in base ten. A natural
number can also be written behind a marker, with any number of zeros before its digits: in base
sixteen, where each letter may be in either case, or in base two. -/
inductive IsLiteral : Int → List Char → Prop
  | decimal (value : Int) : IsLiteral value (toString value).toList
  | hexadecimal {n : Nat} {marker : Char} {digits : List Char} (zeros : Nat)
      (marks : marker = 'x' ∨ marker = 'X') (same : lower digits = Nat.toDigits 16 n) :
      IsLiteral n (behindMarker marker zeros digits)
  | binary {n : Nat} {marker : Char} (zeros : Nat) (marks : marker = 'b' ∨ marker = 'B') :
      IsLiteral n (behindMarker marker zeros (Nat.toDigits 2 n))

theorem readImmediate_of_all_isBare {text : List Char} (h : text.all isBare = true) :
    readImmediate text =
      (readInt (radixOf text) text).mapError fun cause => ⟨radixOf text, text, cause⟩ := by
  simp only [readImmediate, trim_of_all_isBare h]
  cases readInt (radixOf text) text <;> rfl

/-! ## Base ten -/

theorem toList_natural (n : Nat) : (toString (Int.ofNat n)).toList = Nat.toDigits 10 n :=
  Nat.toList_repr

theorem toList_negative (n : Nat) :
    (toString (Int.negSucc n)).toList = '-' :: Nat.toDigits 10 (n + 1) := by
  have hsign : "-".toList = ['-'] := by simp
  have htext : toString (Int.negSucc n) = "-" ++ (n + 1).repr := rfl
  rw [htext, String.toList_append, hsign, Nat.toList_repr, List.singleton_append]

theorem all_isBare_decimal (value : Int) : (toString value).toList.all isBare = true := by
  cases value with
  | ofNat n =>
    rw [toList_natural]
    exact all_isBare_toDigits (by decide) (by decide) n
  | negSucc n =>
    rw [toList_negative, List.all_cons, all_isBare_toDigits (by decide) (by decide)]
    rfl

/-- The digits of a natural number have no marker, because only zero begins with a zero. -/
theorem readSigned_natural (n : Nat) :
    readSigned (radixOf (Nat.toDigits 10 n)) (Nat.toDigits 10 n) =
      (readDecimal (Nat.toDigits 10 n)).map fun n => (n : Int) := by
  rcases Nat.eq_zero_or_pos n with rfl | hn
  · rfl
  · have hhead := head?_toDigits hn
    have hdigit (c : Char) (hc : c ∈ Nat.toDigits 10 n) : c.isDigit = true :=
      Nat.isDigit_of_mem_toDigits (by decide) (by decide) hc
    obtain ⟨c, rest, h⟩ := List.exists_cons_of_ne_nil (Nat.toDigits_ne_nil (b := 10) (n := n))
    rw [h] at hhead hdigit ⊢
    have hzero : c ≠ '0' := fun heq => hhead (congrArg some heq)
    have hminus : c ≠ '-' := by
      rintro rfl
      cases hdigit '-' List.mem_cons_self
    have hplus : c ≠ '+' := by
      rintro rfl
      cases hdigit '+' List.mem_cons_self
    rw [radixOf_of_ne hzero hminus, readSigned_of_ne hminus hplus,
      (readMagnitude_of_ne_zero hzero rest).2]

theorem readSigned_negative (digits : List Char) :
    readSigned (radixOf ('-' :: digits)) ('-' :: digits) =
      (readDecimal digits).map fun n => -(n : Int) := rfl

theorem readDecimal_map (f : Int → Int) (n : Nat) :
    (readDecimal (Nat.toDigits 10 n)).map f =
      if decide (n < decimalLimit) = true then .ok (f n)
      else .error (.tooLong (Nat.toDigits 10 n).length) := by
  rw [readDecimal_toDigits]
  by_cases h : n < decimalLimit
  · rw [if_pos h, if_pos (decide_eq_true h)]
    rfl
  · rw [if_neg h, if_neg (by rwa [decide_eq_true_eq])]
    rfl

theorem readSigned_decimal (value : Int) :
    readSigned (radixOf (toString value).toList) (toString value).toList =
      if isWritable value = true then .ok value
      else .error (.tooLong (Nat.toDigits 10 value.natAbs).length) := by
  cases value with
  | ofNat n =>
    rw [toList_natural, readSigned_natural, readDecimal_map]
    rfl
  | negSucc n =>
    rw [toList_negative, readSigned_negative, readDecimal_map]
    rfl

/-- An integer is read from its own text, if it has not too many digits. -/
theorem readImmediate_decimal (value : Int) :
    readImmediate (toString value).toList =
      if isWritable value = true then .ok value
      else .error ⟨radixOf (toString value).toList, (toString value).toList,
        .tooLong (Nat.toDigits 10 value.natAbs).length⟩ := by
  have hbare := all_isBare_decimal value
  rw [readImmediate_of_all_isBare hbare, readInt_of_all_isBare hbare, readSigned_decimal]
  split <;> rfl

theorem isWritable_of_read {value result : Int}
    (h : readImmediate (toString value).toList = .ok result) : isWritable value = true := by
  by_contra hlong
  rw [readImmediate_decimal, if_neg hlong] at h
  cases h

/-! ## Behind a marker -/

section Marker

variable {n zeros : Nat} {marker : Char} {digits : List Char}

theorem all_isBare_hexadecimal (marks : marker = 'x' ∨ marker = 'X')
    (same : lower digits = Nat.toDigits 16 n) :
    (behindMarker marker zeros digits).all isBare = true := by
  have hsame : isBare ∘ Char.toLower = isBare := funext (of_letters (f := isBare) (by decide))
  refine all_isBare_behindMarker (by rcases marks with rfl | rfl <;> rfl) ?_
  rw [← hsame, ← List.all_map, ← lower, same, all_isBare_toDigits (by decide) (by decide)]

theorem readImmediate_hexadecimal (marks : marker = 'x' ∨ marker = 'X')
    (same : lower digits = Nat.toDigits 16 n) :
    readImmediate (behindMarker marker zeros digits) = .ok (n : Int) := by
  have hbare : (behindMarker marker zeros digits).all isBare = true :=
    all_isBare_hexadecimal marks same
  have hdigits (due : Bool) : readDigits 16 0 due digits = some n := by
    rw [← readDigits_lower, same, readDigits_plain (by decide) (by decide)]
  have hread : readInt (radixOf (behindMarker marker zeros digits))
      (behindMarker marker zeros digits) = .ok n :=
    readInt_behindMarker (by decide) hbare (by rcases marks with rfl | rfl <;> rfl) hdigits
  rw [readImmediate_of_all_isBare hbare, hread]
  rfl

theorem all_isBare_binary (marks : marker = 'b' ∨ marker = 'B') :
    (behindMarker marker zeros (Nat.toDigits 2 n)).all isBare = true :=
  all_isBare_behindMarker (by rcases marks with rfl | rfl <;> rfl)
    (all_isBare_toDigits (by decide) (by decide) n)

theorem readImmediate_binary (marks : marker = 'b' ∨ marker = 'B') :
    readImmediate (behindMarker marker zeros (Nat.toDigits 2 n)) = .ok (n : Int) := by
  have hbare : (behindMarker marker zeros (Nat.toDigits 2 n)).all isBare = true :=
    all_isBare_binary marks
  have hdigits (due : Bool) : readDigits 2 0 due (Nat.toDigits 2 n) = some n :=
    readDigits_plain (by decide) (by decide) due n
  have hread : readInt (radixOf (behindMarker marker zeros (Nat.toDigits 2 n)))
      (behindMarker marker zeros (Nat.toDigits 2 n)) = .ok n :=
    readInt_behindMarker (by decide) hbare (by rcases marks with rfl | rfl <;> rfl) hdigits
  rw [readImmediate_of_all_isBare hbare, hread]
  rfl

end Marker

/-! ## Literals -/

namespace IsLiteral

variable {value : Int} {text : List Char}

theorem all_isBare (h : IsLiteral value text) : text.all isBare = true := by
  cases h with
  | decimal => exact all_isBare_decimal value
  | hexadecimal zeros marks same => exact all_isBare_hexadecimal marks same
  | binary zeros marks => exact all_isBare_binary marks

/-- A literal is read as its value, unless that has too many digits in base ten. -/
theorem read_or_tooLong (h : IsLiteral value text) :
    readImmediate text = .ok value ∨
      (∃ cause, readImmediate text = .error cause) ∧ isWritable value = false := by
  cases h with
  | decimal =>
    have hread := readImmediate_decimal value
    cases hwritable : isWritable value with
    | true =>
      rw [if_pos hwritable] at hread
      exact .inl hread
    | false =>
      rw [if_neg (Bool.eq_false_iff.1 hwritable)] at hread
      exact .inr ⟨⟨_, hread⟩, rfl⟩
  | hexadecimal zeros marks same => exact .inl (readImmediate_hexadecimal marks same)
  | binary zeros marks => exact .inl (readImmediate_binary marks)

end IsLiteral

/-! ## Fields -/

section Field

variable {bits n : Nat} {value : Int}

theorem fitBits_eq (bits : Nat) (value : Int) :
    fitBits bits value =
      if 0 ≤ value ∧ value < 2 ^ bits then .ok value.toNat
      else if bits = 8 ∧ -128 ≤ value ∧ value < 0 then .ok (value + 256).toNat
      else .error (.outOfRange value bits) := by
  have hwidth : ((1 <<< bits : Nat) : Int) = 2 ^ bits := by
    rw [Nat.one_shiftLeft, Int.natCast_pow]
    rfl
  rw [fitBits, hwidth]

theorem lt_of_fitBits (h : fitBits bits value = .ok n) : n < 2 ^ bits := by
  rcases fitBits_eq_ok.1 h with ⟨-, hn⟩ | ⟨rfl, hlow, hnegative, hn⟩
  · rwa [Nat.one_shiftLeft] at hn
  · omega

/-- Every value that fits into a field can be written. -/
theorem isWritable_of_bounds (hbits : bits ∈ [4, 8, 12, 16]) (hlow : -128 ≤ value)
    (hhigh : value < 2 ^ bits) : isWritable value = true := by
  have hpow {k : Nat} (hk : 5 ≤ k) : 10 ^ 5 ≤ Nat.pow 10 k :=
    Nat.pow_le_pow_right (by decide) hk
  have hlimit : 10 ^ 5 ≤ decimalLimit := by
    unfold decimalLimit
    exact hpow (by decide)
  -- The widest field is far below the limit on digits.
  have hbound : value < 65536 := by
    simp only [List.mem_cons, List.not_mem_nil, or_false] at hbits
    rcases hbits with rfl | rfl | rfl | rfl <;> omega
  exact decide_eq_true (by omega)

end Field

/-! ## Operands -/

/-- **What a literal gives.** An integer that is written for an operand, with any blanks around it,
is put into a field of bits as itself if it fits there, and as the byte that stands for it if it is
negative and fits into eight bits. Everything else is refused with a complaint, which is reported
with its line unless the value stands behind a marker and is too long to be written in base ten. No
label may be spelled like the integer, since labels come first. -/
theorem resolve_literal {labels : Labels} {bits : Nat} {value : Int}
    {before text after : List Char} (hbits : bits ∈ [4, 8, 12, 16])
    (hliteral : IsLiteral value text) (hbefore : ∀ c ∈ before, isBlank c = true)
    (hafter : ∀ c ∈ after, isBlank c = true)
    (hlabels : labels.lookup text = none) :
    (0 ≤ value ∧ value < 2 ^ bits →
      resolve labels bits (before ++ text ++ after) = .ok value.toNat) ∧
    (bits = 8 ∧ -128 ≤ value ∧ value < 0 →
      resolve labels bits (before ++ text ++ after) = .ok (value + 256).toNat) ∧
    (¬ (0 ≤ value ∧ value < 2 ^ bits) → ¬ (bits = 8 ∧ -128 ≤ value ∧ value < 0) →
      ∃ complaint, resolve labels bits (before ++ text ++ after) = .error complaint ∧
        (isWritable value = true ∨ text = (toString value).toList → ∀ number,
          Error.ofComplaint number complaint = .atLine number complaint)) ∧
    ∀ n, resolve labels bits (before ++ text ++ after) = .ok n → n < 2 ^ bits := by
  have htrim : trim (before ++ text ++ after) = text := by
    rw [trim_append_blanks hafter, trim_blanks_append hbefore,
      trim_of_all_isBare hliteral.all_isBare]
  rcases hliteral.read_or_tooLong with hok | ⟨⟨cause, herror⟩, hlong⟩
  · -- The value is read, and what is left is whether it fits.
    have hresolve : resolve labels bits (before ++ text ++ after) = fitBits bits value := by
      simp only [resolve, htrim, hlabels, hok]
    rw [hresolve]
    refine ⟨fun hfits => ?_, fun hbyte => ?_, fun hfits hbyte => ?_, fun n => lt_of_fitBits⟩
    · rw [fitBits_eq, if_pos hfits]
    · rw [fitBits_eq, if_neg (by omega), if_pos hbyte]
    · rw [fitBits_eq, if_neg hfits, if_neg hbyte]
      refine ⟨_, rfl, fun hlimit number => if_pos ?_⟩
      rcases hlimit with hwritable | rfl
      · exact hwritable
      · exact isWritable_of_read hok
  · -- The value has too many digits to be read, so it is too large for every field.
    have hresolve : resolve labels bits (before ++ text ++ after) = .error (.unresolved text) := by
      simp only [resolve, htrim, hlabels, herror]
    have hfar (hlow : -128 ≤ value) : ¬ value < 2 ^ bits := by
      intro hhigh
      rw [isWritable_of_bounds hbits hlow hhigh] at hlong
      cases hlong
    rw [hresolve]
    refine ⟨fun hfits => ?_, fun hbyte => ?_, fun _ _ => ⟨_, rfl, fun _ number => rfl⟩,
      fun n h => (by cases h)⟩
    · exact absurd hfits.2 (hfar (by omega))
    · obtain ⟨rfl, hlow, hnegative⟩ := hbyte
      exact absurd (by omega) (hfar hlow)

/-- The least and the greatest integer that fit into a byte. -/
theorem resolve_literal_byteEnds :
    resolve [("loop".toList, 0x200)] 8 " -128\t".toList = .ok 128 ∧
      resolve [("loop".toList, 0x200)] 8 " 0X00fF\t".toList = .ok 255 := by
  have hleast : IsLiteral (-128) "-128".toList := .decimal (-128)
  have hgreatest : IsLiteral 255 "0X00fF".toList :=
    .hexadecimal (n := 255) 2 (.inr rfl) (by decide)
  have hspace : ∀ c ∈ [' '], isBlank c = true := List.forall_mem_singleton.2 (by decide)
  have htab : ∀ c ∈ ['\t'], isBlank c = true := List.forall_mem_singleton.2 (by decide)
  have hleastText : " -128\t".toList = [' '] ++ "-128".toList ++ ['\t'] := by decide
  have hgreatestText : " 0X00fF\t".toList = [' '] ++ "0X00fF".toList ++ ['\t'] := by decide
  rw [hleastText, hgreatestText]
  constructor
  · exact (resolve_literal (by decide) hleast hspace htab (by decide)).2.1 (by decide)
  · exact (resolve_literal (by decide) hgreatest hspace htab (by decide)).1 (by decide)

end ChipEight.Assembly
