import ChipEight.Text.Fold
import ChipEight.Text.Numeral

/-!
# Reading texts in either case

No function that cuts or reads a text takes notice of the case of its letters. Of a text in small
letters they give back what they give back of the text itself, with all that is cut out of it in
small letters: pieces, trimmed texts and words are the same pieces, trimmed texts and words, and the
integer is the same (`readInt_lower`).

A function of characters that does not tell a capital letter from the small one is checked at the
twenty-six letters (`of_letters`).
-/

namespace ChipEight.Text

/-- A text in small letters. -/
def lower (cs : List Char) : List Char := cs.map Char.toLower

theorem lower_cons (c : Char) (rest : List Char) :
    lower (c :: rest) = c.toLower :: lower rest := rfl

theorem lower_append (cs ds : List Char) : lower (cs ++ ds) = lower cs ++ lower ds :=
  List.map_append ..

/-- A text without a capital letter is in small letters. -/
theorem lower_of_all {cs : List Char} (h : cs.all (fun c => c.toLower == c) = true) :
    lower cs = cs := by
  refine (List.map_congr_left fun c hc => ?_).trans (List.map_id cs)
  exact eq_of_beq (List.all_eq_true.1 h c hc)

/-! ## Characters -/

/-- The letters of either case stand in a row. -/
theorem exists_letter {first : Nat} {c : Char} (hlow : first ≤ c.toNat)
    (hhigh : c.toNat < first + 26) : ∃ k : Fin 26, c = Char.ofNat (first + k) := by
  have hplace : first + (c.toNat - first) = c.toNat := by omega
  exact ⟨⟨c.toNat - first, by omega⟩, by rw [hplace, Char.ofNat_toNat]⟩

/-- A character is its own small form, or it is a capital letter. -/
theorem toLower_cases (c : Char) :
    c.toLower = c ∨
      ∃ k : Fin 26, c = Char.ofNat (0x41 + k) ∧ c.toLower = Char.ofNat (0x61 + k) := by
  by_cases hcapital : c.val ≥ 'A'.val ∧ c.val ≤ 'Z'.val
  · have hletters : ∀ k : Fin 26, (Char.ofNat (0x41 + k)).toLower = Char.ofNat (0x61 + k) := by
      decide
    obtain ⟨k, rfl⟩ : ∃ k : Fin 26, c = Char.ofNat (0x41 + k) :=
      exists_letter (UInt32.le_iff_toNat_le.1 hcapital.1)
        (Nat.lt_succ_of_le (UInt32.le_iff_toNat_le.1 hcapital.2))
    exact .inr ⟨k, rfl, hletters k⟩
  · exact .inl (dif_neg hcapital)

/-- What is the same of every small letter and its capital form is the same of every character and
its small form. -/
theorem of_letters {β : Type} {f : Char → β}
    (h : ∀ k : Fin 26, f (Char.ofNat (0x61 + k)) = f (Char.ofNat (0x41 + k))) (c : Char) :
    f c.toLower = f c := by
  rcases toLower_cases c with hsame | ⟨k, hc, hsmall⟩
  · rw [hsame]
  · rw [hsmall, hc, h]

theorem toLower_toLower (c : Char) : c.toLower.toLower = c.toLower :=
  of_letters (f := Char.toLower) (by decide) c

theorem toLower_toUpper (c : Char) : c.toUpper.toLower = c.toLower := by
  by_cases hsmall : 'a'.val ≤ c.val ∧ c.val ≤ 'z'.val
  · have hletters : ∀ k : Fin 26, (Char.ofNat (0x61 + k)).toUpper.toLower =
        (Char.ofNat (0x61 + k)).toLower := by decide
    obtain ⟨k, rfl⟩ : ∃ k : Fin 26, c = Char.ofNat (0x61 + k) :=
      exists_letter (UInt32.le_iff_toNat_le.1 hsmall.1)
        (Nat.lt_succ_of_le (UInt32.le_iff_toNat_le.1 hsmall.2))
    exact hletters k
  · have hsame : c.toUpper = c := dif_neg hsmall
    rw [hsame]

/-- A mark that is no letter is the small form of nothing else. -/
theorem toLower_eq_iff {mark : Char} (hmark : mark.isAlpha = false) (c : Char) :
    c.toLower = mark ↔ c = mark := by
  have hletters : ∀ k : Fin 26, (Char.ofNat (0x61 + k)).isAlpha = true ∧
      (Char.ofNat (0x41 + k)).isAlpha = true := by decide
  rcases toLower_cases c with hsame | ⟨k, hc, hsmall⟩
  · rw [hsame]
  · obtain ⟨hsmall', hcapital⟩ := hletters k
    rw [hsmall, hc]
    constructor
    · rintro rfl
      rw [hsmall'] at hmark
      cases hmark
    · rintro rfl
      rw [hcapital] at hmark
      cases hmark

/-- The small form of a letter is that of the capital one and its own. -/
theorem toLower_eq_letter (k : Fin 26) (c : Char) :
    c.toLower = Char.ofNat (0x61 + k) ↔ c = Char.ofNat (0x61 + k) ∨ c = Char.ofNat (0x41 + k) := by
  have hsmall : ∀ k : Fin 26, (Char.ofNat (0x61 + k)).toLower = Char.ofNat (0x61 + k) ∧
      (Char.ofNat (0x41 + k)).toLower = Char.ofNat (0x61 + k) := by decide
  have hinj : ∀ j k : Fin 26, Char.ofNat (0x61 + j) = Char.ofNat (0x61 + k) → j = k := by decide
  constructor
  · intro h
    rcases toLower_cases c with hsame | ⟨j, hc, hj⟩
    · exact .inl (hsame.symm.trans h)
    · rw [hinj j k (hj.symm.trans h)] at hc
      exact .inr hc
  · rintro (rfl | rfl)
    · exact (hsmall k).1
    · exact (hsmall k).2

theorem toLower_ne {mark c : Char} (hmark : mark.isAlpha = false) (hc : c ≠ mark) :
    c.toLower ≠ mark := fun h => hc ((toLower_eq_iff hmark c).1 h)

theorem toLower_eq_underscore (c : Char) : c.toLower = '_' ↔ c = '_' := toLower_eq_iff rfl c

theorem isBlank_toLower (c : Char) : isBlank c.toLower = isBlank c :=
  of_letters (f := isBlank) (by decide) c

theorem foldChar_toLower (c : Char) : foldChar c.toLower = foldChar c :=
  of_letters (f := foldChar) (by decide) c

theorem digitValue?_toLower (base : Nat) (c : Char) :
    digitValue? base c.toLower = digitValue? base c := by
  unfold digitValue?
  dsimp only
  rw [of_letters (f := fun c : Char =>
    if c.isDigit then some (c.toNat - '0'.toNat)
    else if c.isLower then some (c.toNat - 'a'.toNat + 10)
    else if c.isUpper then some (c.toNat - 'A'.toNat + 10)
    else none) (by decide) c]

/-! ## Cutting -/

theorem takeWhile_lower {p : Char → Bool} (hp : ∀ c : Char, p c.toLower = p c) (cs : List Char) :
    (lower cs).takeWhile p = lower (cs.takeWhile p) := by
  have hsame : p ∘ Char.toLower = p := funext hp
  rw [lower, List.takeWhile_map, hsame]
  rfl

theorem dropWhile_lower {p : Char → Bool} (hp : ∀ c : Char, p c.toLower = p c) (cs : List Char) :
    (lower cs).dropWhile p = lower (cs.dropWhile p) := by
  have hsame : p ∘ Char.toLower = p := funext hp
  rw [lower, List.dropWhile_map, hsame]
  rfl

theorem reverse_lower (cs : List Char) : (lower cs).reverse = lower cs.reverse :=
  List.map_reverse.symm

/-- What is taken off the end of a text. -/
theorem dropEnd_lower {p : Char → Bool} (hp : ∀ c : Char, p c.toLower = p c) (cs : List Char) :
    ((lower cs).reverse.dropWhile p).reverse = lower (cs.reverse.dropWhile p).reverse := by
  rw [reverse_lower, dropWhile_lower hp, reverse_lower]

theorem trimLeft_lower (cs : List Char) : trimLeft (lower cs) = lower (trimLeft cs) :=
  dropWhile_lower isBlank_toLower cs

theorem trim_lower (cs : List Char) : trim (lower cs) = lower (trim cs) := by
  rw [trim, trimLeft_lower]
  exact dropEnd_lower isBlank_toLower (trimLeft cs)

theorem splitWord_lower (cs : List Char) :
    splitWord (lower cs) = (lower (splitWord cs).1, lower (splitWord cs).2) := by
  have hword (c : Char) : (!isBlank c.toLower) = !isBlank c := by rw [isBlank_toLower]
  have htake := takeWhile_lower (p := fun c => !isBlank c) hword cs
  have hdrop := dropWhile_lower (p := fun c => !isBlank c) hword cs
  rw [splitWord, htake, hdrop, trimLeft_lower]
  rfl

theorem pieces_lower {separator : Char} (hseparator : separator.isAlpha = false)
    (cs : List Char) : pieces separator (lower cs) = (pieces separator cs).map lower := by
  induction cs with
  | nil => rfl
  | cons c rest ih =>
    rw [lower_cons, pieces, pieces, ih]
    by_cases hc : c = separator
    · rw [if_pos hc, if_pos ((toLower_eq_iff hseparator c).2 hc)]
      rfl
    · rw [if_neg hc, if_neg (toLower_ne hseparator hc)]
      cases pieces separator rest <;> rfl

theorem fold_lower (cs : List Char) : fold (lower cs) = fold cs := by
  rw [fold, lower, List.map_map]
  exact List.map_congr_left fun c _ => foldChar_toLower c

theorem fold_trim_lower (cs : List Char) : fold (trim (lower cs)) = fold (trim cs) := by
  rw [trim_lower, fold_lower]

/-! ## Integers -/

theorem readDigits_lower (base value : Nat) (due : Bool) (cs : List Char) :
    readDigits base value due (lower cs) = readDigits base value due cs := by
  induction cs generalizing value due with
  | nil => rfl
  | cons c rest ih =>
    simp only [lower_cons, readDigits, toLower_eq_underscore, digitValue?_toLower, ih]

theorem readMarked_lower (base : Nat) (cs : List Char) :
    readMarked base (lower cs) = readMarked base cs := by
  cases cs with
  | nil => rfl
  | cons c rest =>
    by_cases hc : c = '_'
    · subst hc
      exact readDigits_lower base 0 true rest
    · have hsmall : c.toLower ≠ '_' := toLower_ne rfl hc
      have hplain {d : Char} {ds : List Char} (hd : d ≠ '_') :
          readMarked base (d :: ds) = readDigits base 0 true (d :: ds) := by
        unfold readMarked
        split
        · next h => exact absurd (List.cons.inj h).1 hd
        · rfl
      rw [hplain hc, ← readDigits_lower]
      exact hplain hsmall

theorem isSpaced_lower (due : Bool) (cs : List Char) :
    isSpaced due (lower cs) = isSpaced due cs := by
  induction cs generalizing due with
  | nil => rfl
  | cons c rest ih =>
    simp only [lower_cons, isSpaced, toLower_eq_underscore, ih]

theorem excessDigits?_lower (cs : List Char) : excessDigits? (lower cs) = excessDigits? cs := by
  have hrun (c : Char) : (c.toLower.isDigit || c.toLower == '_') = (c.isDigit || c == '_') :=
    of_letters (f := fun c => c.isDigit || c == '_') (by decide) c
  have hdigit (c : Char) : c.toLower.isDigit = c.isDigit :=
    of_letters (f := Char.isDigit) (by decide) c
  have hcount (ds : List Char) : (lower ds).countP Char.isDigit = ds.countP Char.isDigit := by
    rw [lower, List.countP_map]
    exact congrArg (List.countP · ds) (funext hdigit)
  have htake := takeWhile_lower (p := fun c => c.isDigit || c == '_') hrun cs
  simp only [excessDigits?, htake, hcount, isSpaced_lower]

theorem readDecimal_lower (cs : List Char) : readDecimal (lower cs) = readDecimal cs := by
  rw [readDecimal, readDecimal, excessDigits?_lower, readDigits_lower]

theorem readZero_lower (cs : List Char) : readZero (lower cs) = readZero cs := by
  rw [readZero, readZero, readDecimal_lower]

/-- Behind a zero, the letter of a marker tells the base in either case. -/
theorem readMagnitude_marked (c : Char) (rest : List Char) :
    readMagnitude .marked ('0' :: c :: rest) =
      if c.toLower = 'x' then orMalformed (readMarked 16 rest)
      else if c.toLower = 'o' then orMalformed (readMarked 8 rest)
      else if c.toLower = 'b' then orMalformed (readMarked 2 rest)
      else readZero ('0' :: c :: rest) := by
  have hx : c.toLower = 'x' ↔ c = 'x' ∨ c = 'X' := toLower_eq_letter 23 c
  have ho : c.toLower = 'o' ↔ c = 'o' ∨ c = 'O' := toLower_eq_letter 14 c
  have hb : c.toLower = 'b' ↔ c = 'b' ∨ c = 'B' := toLower_eq_letter 1 c
  by_cases hmark : c.toLower = 'x' ∨ c.toLower = 'o' ∨ c.toLower = 'b'
  · rw [hx, ho, hb] at hmark
    rcases hmark with (rfl | rfl) | (rfl | rfl) | rfl | rfl <;> rfl
  · obtain ⟨hnx, hno, hnb⟩ : ¬ c.toLower = 'x' ∧ ¬ c.toLower = 'o' ∧ ¬ c.toLower = 'b' := by
      simpa only [not_or] using hmark
    rw [if_neg hnx, if_neg hno, if_neg hnb]
    rw [hx, ho, hb] at hmark
    unfold readMagnitude
    split <;> simp_all

theorem readMagnitude_hexadecimal (c : Char) (rest : List Char) :
    readMagnitude .hexadecimal ('0' :: c :: rest) =
      if c.toLower = 'x' then orMalformed (readMarked 16 rest)
      else orMalformed (readDigits 16 0 true ('0' :: c :: rest)) := by
  have hx : c.toLower = 'x' ↔ c = 'x' ∨ c = 'X' := toLower_eq_letter 23 c
  by_cases hmark : c.toLower = 'x'
  · rw [if_pos hmark]
    rcases hx.1 hmark with rfl | rfl <;> rfl
  · rw [if_neg hmark]
    rw [hx] at hmark
    unfold readMagnitude
    split <;> simp_all

/-- Without a zero at the front there is no marker. -/
theorem readMagnitude_of_ne_zero {c : Char} (hc : c ≠ '0') (rest : List Char) :
    readMagnitude .hexadecimal (c :: rest) = orMalformed (readDigits 16 0 true (c :: rest)) ∧
      readMagnitude .marked (c :: rest) = readDecimal (c :: rest) := by
  constructor <;> unfold readMagnitude <;> split <;> simp_all

theorem readMagnitude_lower (radix : Radix) (cs : List Char) :
    readMagnitude radix (lower cs) = readMagnitude radix cs := by
  cases cs with
  | nil => rfl
  | cons c rest =>
    by_cases hc : c = '0'
    · subst hc
      have hzero : lower ('0' :: rest) = '0' :: lower rest := rfl
      cases rest with
      | nil => rfl
      | cons d more =>
        cases radix with
        | decimal => exact readDecimal_lower _
        | hexadecimal =>
          rw [hzero, lower_cons, readMagnitude_hexadecimal, readMagnitude_hexadecimal,
            toLower_toLower, readMarked_lower, ← lower_cons, ← hzero, readDigits_lower]
        | marked =>
          rw [hzero, lower_cons, readMagnitude_marked, readMagnitude_marked, toLower_toLower,
            readMarked_lower, readMarked_lower, readMarked_lower, ← lower_cons, ← hzero,
            readZero_lower]
    · have hsmall : c.toLower ≠ '0' := toLower_ne rfl hc
      obtain ⟨hhex, hmarked⟩ := readMagnitude_of_ne_zero hc rest
      obtain ⟨hhex', hmarked'⟩ := readMagnitude_of_ne_zero hsmall (lower rest)
      cases radix with
      | decimal => exact readDecimal_lower _
      | hexadecimal => rw [lower_cons, hhex, hhex', ← lower_cons, readDigits_lower]
      | marked => rw [lower_cons, hmarked, hmarked', ← lower_cons, readDecimal_lower]

/-- Without a sign at the front a number is not negative. -/
theorem readSigned_of_ne {c : Char} (hminus : c ≠ '-') (hplus : c ≠ '+') (radix : Radix)
    (rest : List Char) :
    readSigned radix (c :: rest) =
      (readMagnitude radix (c :: rest)).map fun n => (n : Int) := by
  unfold readSigned
  split <;> simp_all

theorem readSigned_lower (radix : Radix) (cs : List Char) :
    readSigned radix (lower cs) = readSigned radix cs := by
  cases cs with
  | nil => rfl
  | cons c rest =>
    by_cases hminus : c = '-'
    · subst hminus
      show (readMagnitude radix (lower rest)).map (fun n => -(n : Int)) = _
      rw [readMagnitude_lower]
      rfl
    · by_cases hplus : c = '+'
      · subst hplus
        show (readMagnitude radix (lower rest)).map (fun n => (n : Int)) = _
        rw [readMagnitude_lower]
        rfl
      · have hminus' : c.toLower ≠ '-' := toLower_ne rfl hminus
        have hplus' : c.toLower ≠ '+' := toLower_ne rfl hplus
        rw [readSigned_of_ne hminus hplus, lower_cons, readSigned_of_ne hminus' hplus',
          ← lower_cons, readMagnitude_lower]

/-- **Integers are read in either case.** -/
theorem readInt_lower (radix : Radix) (cs : List Char) :
    readInt radix (lower cs) = readInt radix cs := by
  -- The plain characters of the two texts differ in case only, which is not seen after that.
  have hplain : lower ((lower cs).map plainChar) = lower (cs.map plainChar) := by
    simp only [lower, List.map_map]
    refine List.map_congr_left fun c _ => ?_
    exact of_letters (f := fun c => (plainChar c).toLower) (by decide) c
  have hspacing (c : Char) : isSpacing c.toLower = isSpacing c :=
    of_letters (f := isSpacing) (by decide) c
  have hread (ds : List Char) :
      readSigned radix ((ds.dropWhile isSpacing).reverse.dropWhile isSpacing).reverse =
        readSigned radix
          (((lower ds).dropWhile isSpacing).reverse.dropWhile isSpacing).reverse := by
    rw [dropWhile_lower hspacing, dropEnd_lower hspacing, readSigned_lower]
  exact (hread _).trans (hplain ▸ (hread _).symm)

end ChipEight.Text
