import ChipEight.Proofs.Text.Cutting
import ChipEight.Text.Hexadecimal
import ChipEight.Text.Numeral

/-!
# Reading written integers

Integers are written by `HexLayout` and `Nat.toDigits` and read by `readInt`. Reading goes through
the digits from the left with the value so far, writing finds them from the right, so the proofs
take a digit off the end (`readDigits_concat`). A number in base ten is read back unless it has too
many digits (`readDecimal_toDigits`), and an integer in a layout, with the marker `0x` or without
one, is read back whatever its sign, the width and the letters (`readInt_chars`). What is read back
so is a word for the integer (`Spells`).
-/

namespace ChipEight.Text

/-! ## Runs of digits -/

theorem digitValue?_underscore (base : Nat) : digitValue? base '_' = none := rfl

theorem readDigits_cons {base value d : Nat} {due : Bool} {c : Char} {rest : List Char}
    (h : digitValue? base c = some d) :
    readDigits base value due (c :: rest) = readDigits base (value * base + d) false rest := by
  have hc : c ≠ '_' := by
    rintro rfl
    rw [digitValue?_underscore] at h
    cases h
  rw [readDigits, if_neg hc, h]

theorem readDigits_concat {base value total d : Nat} {due : Bool} {cs : List Char} {c : Char}
    (hcs : readDigits base value due cs = some total) (hc : digitValue? base c = some d) :
    readDigits base value due (cs ++ [c]) = some (total * base + d) := by
  induction cs generalizing value due with
  | nil =>
    cases due with
    | true => cases hcs
    | false =>
      cases hcs
      exact readDigits_cons hc
  | cons first rest ih =>
    rw [List.cons_append, readDigits] at *
    -- An underscore only makes a digit due, so it is passed in the same way on both sides.
    split
    · next hunder =>
      rw [if_pos hunder] at hcs
      cases due with
      | true => cases hcs
      | false => exact ih hcs
    · next hunder =>
      rw [if_neg hunder] at hcs
      cases hfirst : digitValue? base first with
      | none =>
        rw [hfirst] at hcs
        cases hcs
      | some e =>
        rw [hfirst] at hcs
        exact ih hcs

/-- The digits of a number are read as the number, in whatever letters they are written. -/
theorem readDigits_toDigits {base : Nat} (hbase : 1 < base) {letter : Char → Char}
    (hletter : ∀ d < base, digitValue? base (letter (Nat.digitChar d)) = some d) (due : Bool)
    (n : Nat) : readDigits base 0 due ((Nat.toDigits base n).map letter) = some n := by
  induction n using Nat.strongRecOn with
  | ind n ih =>
    rw [Nat.toDigits_eq_if hbase]
    -- The last digit is `n % base`, and the digits before it are those of `n / base`.
    by_cases hn : n < base
    · rw [if_pos hn]
      exact (readDigits_cons (hletter n hn)).trans (by rw [Nat.zero_mul, Nat.zero_add]; rfl)
    · have hdiv : n / base < n := Nat.div_lt_self (by omega) hbase
      have hmod := hletter (n % base) (Nat.mod_lt n (by omega))
      rw [if_neg hn, List.map_append]
      refine (readDigits_concat (ih (n / base) hdiv) hmod).trans ?_
      rw [Nat.mul_comm, Nat.div_add_mod]

theorem readDigits_zeros {base : Nat} (hbase : 0 < base) (count : Nat) {value : Nat}
    {cs : List Char} (hcs : ∀ due, readDigits base 0 due cs = some value) (due : Bool) :
    readDigits base 0 due (List.replicate count '0' ++ cs) = some value := by
  induction count generalizing due with
  | zero => exact hcs due
  | succ count ih =>
    -- A zero in front leaves the value at zero.
    have hzero : digitValue? base '0' = some 0 := by simp [digitValue?, hbase]
    rw [List.replicate_succ, List.cons_append, readDigits_cons hzero, Nat.zero_mul]
    exact ih false

/-! ## Letters of digits -/

theorem digitValue?_digitChar {base d : Nat} (hbase : base ≤ 16) (hd : d < base) :
    digitValue? base (Nat.digitChar d) = some d := by
  have h : ∀ (base : Fin 17) (d : Fin 16), d.val < base.val →
      digitValue? base.val (Nat.digitChar d.val) = some d.val := by decide
  exact h ⟨base, by omega⟩ ⟨d, by omega⟩ hd

theorem digitValue?_capitalDigit (d : Fin 16) :
    digitValue? 16 (capitalDigit (Nat.digitChar d)) = some d.val := by
  revert d
  decide

theorem isBare_digitChar (d : Fin 16) : isBare (Nat.digitChar d) = true := by
  revert d
  decide

theorem isBare_capitalDigit (d : Fin 16) : isBare (capitalDigit (Nat.digitChar d)) = true := by
  revert d
  decide

theorem all_toDigits {base : Nat} (hbase : 1 < base) {p : Char → Bool}
    (hp : ∀ d < base, p (Nat.digitChar d) = true) (n : Nat) :
    (Nat.toDigits base n).all p = true := by
  induction n using Nat.strongRecOn with
  | ind n ih =>
    rw [Nat.toDigits_eq_if hbase]
    by_cases hn : n < base
    · simp [if_pos hn, hp n hn]
    · have hdiv : n / base < n := Nat.div_lt_self (by omega) hbase
      have hmod := hp (n % base) (Nat.mod_lt n (by omega))
      simp [if_neg hn, ih (n / base) hdiv, hmod]

section Plain

variable {base : Nat} (hlow : 1 < base) (hhigh : base ≤ 16)

include hlow hhigh

theorem readDigits_plain (due : Bool) (n : Nat) :
    readDigits base 0 due (Nat.toDigits base n) = some n := by
  have hletter : ∀ d < base, digitValue? base (id (Nat.digitChar d)) = some d := fun d hd =>
    digitValue?_digitChar hhigh hd
  have h := readDigits_toDigits hlow hletter due n
  rwa [List.map_id] at h

theorem all_isBare_toDigits (n : Nat) : (Nat.toDigits base n).all isBare = true :=
  all_toDigits hlow (fun d hd => isBare_digitChar ⟨d, by omega⟩) n

end Plain

/-! ## Decimal digits -/

theorem isSpaced_of_not_mem {cs : List Char} (h : '_' ∉ cs) : isSpaced false cs = true := by
  induction cs with
  | nil => rfl
  | cons c rest ih =>
    rw [List.mem_cons, not_or] at h
    rw [isSpaced, if_neg (Ne.symm h.1), ih h.2]

/-- The digits of a number are too many exactly if the number has reached the limit. -/
theorem excessDigits?_toDigits (n : Nat) :
    excessDigits? (Nat.toDigits 10 n) =
      if n < decimalLimit then none else some (Nat.toDigits 10 n).length := by
  have hdigit (c : Char) (hc : c ∈ Nat.toDigits 10 n) : c.isDigit = true :=
    Nat.isDigit_of_mem_toDigits (by decide) (by decide) hc
  have hrun : (Nat.toDigits 10 n).takeWhile (fun c => c.isDigit || c == '_') =
      Nat.toDigits 10 n :=
    List.takeWhile_eq_self_iff.2 fun c hc => by rw [hdigit c hc, Bool.true_or]
  have hcount : (Nat.toDigits 10 n).countP Char.isDigit = (Nat.toDigits 10 n).length :=
    List.countP_eq_length.2 hdigit
  -- Digits have no underscore between them that could be in the wrong place.
  have hspaced : isSpaced true (Nat.toDigits 10 n) = true := by
    have hunder : '_' ∉ Nat.toDigits 10 n := fun hmem => by cases hdigit '_' hmem
    obtain ⟨c, rest, h⟩ := List.exists_cons_of_ne_nil (Nat.toDigits_ne_nil (b := 10) (n := n))
    rw [h, List.mem_cons, not_or] at hunder
    rw [h, isSpaced, if_neg (Ne.symm hunder.1), isSpaced_of_not_mem hunder.2]
  have hlength {k : Nat} (hk : 0 < k) : (Nat.toDigits 10 n).length ≤ k ↔ n < Nat.pow 10 k :=
    Nat.length_toDigits_le_iff (by decide) hk
  have hlimit : (Nat.toDigits 10 n).length ≤ maxDecimalDigits ↔ n < decimalLimit := by
    unfold decimalLimit
    exact hlength (by decide)
  simp only [excessDigits?, hrun, hcount, hspaced, Bool.true_and, decide_eq_true_eq]
  by_cases h : n < decimalLimit
  · rw [if_pos h, if_neg (by omega)]
  · rw [if_neg h, if_pos (by omega)]

/-- A number is read from its digits in base ten if they are not too many. -/
theorem readDecimal_toDigits (n : Nat) :
    readDecimal (Nat.toDigits 10 n) =
      if n < decimalLimit then .ok n else .error (.tooLong (Nat.toDigits 10 n).length) := by
  rw [readDecimal, excessDigits?_toDigits, readDigits_plain (by decide) (by decide)]
  by_cases h : n < decimalLimit
  · simp only [if_pos h, orMalformed]
  · simp only [if_neg h]

/-- Only zero begins with a zero. -/
theorem head?_toDigits {n : Nat} (hn : 0 < n) : (Nat.toDigits 10 n).head? ≠ some '0' := by
  induction n using Nat.strongRecOn with
  | ind n ih =>
    rw [Nat.toDigits_eq_if (by decide)]
    by_cases hsmall : n < 10
    · have hdigit : ∀ d : Fin 10, 0 < d.val → [Nat.digitChar d].head? ≠ some '0' := by decide
      rw [if_pos hsmall]
      exact hdigit ⟨n, hsmall⟩ hn
    · have hrest := ih (n / 10) (by omega) (by omega)
      obtain ⟨c, rest, h⟩ :=
        List.exists_cons_of_ne_nil (Nat.toDigits_ne_nil (b := 10) (n := n / 10))
      rw [h] at hrest
      rw [if_neg hsmall, h]
      exact hrest

/-! ## Integers in base ten -/

theorem toDigits_inj {m n : Nat} (h : Nat.toDigits 10 m = Nat.toDigits 10 n) : m = n := by
  have hm : readDigits 10 0 true (Nat.toDigits 10 m) = some m :=
    readDigits_plain (by decide) (by decide) true m
  rw [h, readDigits_plain (by decide) (by decide)] at hm
  exact (Option.some.inj hm).symm

theorem toList_repr (value : Int) :
    value.repr.toList = (if value < 0 then ['-'] else []) ++ Nat.toDigits 10 value.natAbs := by
  cases value with
  | ofNat n =>
    have hsign : ¬ Int.ofNat n < 0 := Int.not_lt.2 (Int.natCast_nonneg n)
    rw [if_neg hsign]
    show n.repr.toList = _
    simp [Nat.repr]
  | negSucc n =>
    rw [if_pos (by omega)]
    show ("-" ++ (n + 1).repr).toList = _
    simp [Nat.repr]

/-- Integers that are written the same in base ten are the same. -/
theorem repr_inj {a b : Int} (h : a.repr = b.repr) : a = b := by
  -- The sign tells the two kinds apart, since no digit is a sign.
  have hdigit (n : Nat) : (Nat.toDigits 10 n).head? ≠ some '-' := fun hhead => by
    cases Nat.isDigit_of_mem_toDigits (b := 10) (by decide) (by decide) (List.mem_of_head? hhead)
  have hchars := congrArg String.toList h
  rw [toList_repr, toList_repr] at hchars
  by_cases ha : a < 0 <;> by_cases hb : b < 0
  · rw [if_pos ha, if_pos hb] at hchars
    have habs := toDigits_inj (List.append_cancel_left hchars)
    omega
  · rw [if_pos ha, if_neg hb] at hchars
    exact absurd (congrArg List.head? hchars).symm (hdigit _)
  · rw [if_neg ha, if_pos hb] at hchars
    exact absurd (congrArg List.head? hchars) (hdigit _)
  · rw [if_neg ha, if_neg hb] at hchars
    have habs := toDigits_inj hchars
    omega

/-! ## Numbers in a layout -/

namespace HexLayout

theorem readDigits_digits (layout : HexLayout) (n : Nat) (due : Bool) :
    readDigits 16 0 due (layout.digits n) = some n := by
  unfold digits
  cases layout.capital with
  | true =>
    exact readDigits_toDigits (by decide) (fun d hd => digitValue?_capitalDigit ⟨d, hd⟩) due n
  | false => exact readDigits_plain (by decide) (by decide) due n

theorem all_isBare_digits (layout : HexLayout) (n : Nat) :
    (layout.digits n).all isBare = true := by
  unfold digits
  cases layout.capital with
  | true =>
    rw [if_pos rfl, List.all_map]
    exact all_toDigits (by decide) (fun d hd => isBare_capitalDigit ⟨d, hd⟩) n
  | false => exact all_isBare_toDigits (by decide) (by decide) n

theorem exists_chars (layout : HexLayout) (value : Int) :
    ∃ zeros, layout.chars value = (if value < 0 then ['-'] else []) ++
      (layout.marker.toList ++ (List.replicate zeros '0' ++ layout.digits value.natAbs)) :=
  ⟨_, by rw [chars, lead, List.append_assoc, List.append_assoc]⟩

theorem chars_natCast (layout : HexLayout) (n : Nat) :
    ∃ zeros, layout.chars n =
      layout.marker.toList ++ (List.replicate zeros '0' ++ layout.digits n) := by
  obtain ⟨zeros, h⟩ := layout.exists_chars n
  rw [if_neg (by omega), Int.natAbs_natCast, List.nil_append] at h
  exact ⟨zeros, h⟩

theorem all_isBare_chars {layout : HexLayout} (hmarker : layout.marker.toList.all isBare = true)
    (value : Int) : (layout.chars value).all isBare = true := by
  have hsign : (if value < 0 then ['-'] else []).all isBare = true := by
    split
    · decide
    · rfl
  obtain ⟨zeros, h⟩ := layout.exists_chars value
  rw [h, List.all_append, List.all_append, List.all_append, hsign, hmarker,
    layout.all_isBare_digits, List.all_replicate]
  simp [isBare]

end HexLayout

/-! ## Whole integers -/

theorem readMarked_eq {base value : Nat} {cs : List Char}
    (h : readDigits base 0 true cs = some value) : readMarked base cs = some value := by
  unfold readMarked
  split
  · cases h
  · exact h

theorem plainChar_of_isBare {c : Char} (h : isBare c = true) : plainChar c = c := by
  simp only [isBare, Bool.and_eq_true, decide_eq_true_eq] at h
  rw [plainChar, if_pos (by omega)]

theorem isSpacing_of_isBare {c : Char} (h : isBare c = true) : isSpacing c = false := by
  simp only [isBare, Bool.and_eq_true, decide_eq_true_eq] at h
  obtain ⟨⟨⟨⟨hlow, hhigh⟩, -⟩, -⟩, -⟩ := h
  have hc : c ≠ ' ' := by
    rintro rfl
    exact absurd hlow (by decide)
  have htab : ¬ c ≤ '\r' := by
    intro hle
    exact absurd (Nat.le_trans hlow hle) (by decide)
  simp [isSpacing, hc, htab]

theorem dropWhile_of_all_isBare {cs : List Char} (h : cs.all isBare = true) :
    cs.dropWhile isSpacing = cs := by
  cases cs with
  | nil => rfl
  | cons c rest =>
    have hc := isSpacing_of_isBare (List.all_eq_true.1 h c List.mem_cons_self)
    exact List.dropWhile_cons_of_neg (by simp [hc])

theorem readInt_of_all_isBare {cs : List Char} (h : cs.all isBare = true) (radix : Radix) :
    readInt radix cs = readSigned radix cs := by
  have hplain : cs.map plainChar = cs.map id :=
    List.map_congr_left fun c hmem => plainChar_of_isBare (List.all_eq_true.1 h c hmem)
  have hback : cs.reverse.all isBare = true := by rwa [List.all_reverse]
  simp only [readInt]
  rw [hplain, List.map_id, dropWhile_of_all_isBare h, dropWhile_of_all_isBare hback,
    List.reverse_reverse]

/-! ## Integers behind a marker -/

/-- Digits behind a marker, with zeros before them. -/
def behindMarker (marker : Char) (zeros : Nat) (digits : List Char) : List Char :=
  '0' :: marker :: (List.replicate zeros '0' ++ digits)

section Marker

variable {base n zeros : Nat} {marker : Char} {digits : List Char}

theorem all_isBare_behindMarker (hmarker : isBare marker = true)
    (hdigits : digits.all isBare = true) :
    (behindMarker marker zeros digits).all isBare = true := by
  rw [behindMarker, List.all_cons, List.all_cons, List.all_append, hmarker, hdigits,
    List.all_replicate]
  simp [isBare]

/-- Digits behind a marker are read in the base that the marker tells. -/
theorem readInt_behindMarker {radix : Radix} (hbase : 0 < base)
    (hbare : (behindMarker marker zeros digits).all isBare = true)
    (hmarker : readSigned radix (behindMarker marker zeros digits) =
      (orMalformed (readMarked base (List.replicate zeros '0' ++ digits))).map fun n => (n : Int))
    (hdigits : ∀ due, readDigits base 0 due digits = some n) :
    readInt radix (behindMarker marker zeros digits) = .ok n := by
  have hread := readMarked_eq (readDigits_zeros hbase zeros hdigits true)
  rw [readInt_of_all_isBare hbare, hmarker, hread]
  rfl

end Marker

/-! ## Integers in a layout -/

/-- Digits in base sixteen are read with the marker and without it. -/
theorem readMagnitude_of_readDigits {cs : List Char} {n : Nat}
    (h : readDigits 16 0 true cs = some n) :
    readMagnitude .hexadecimal cs = .ok n ∧
      readMagnitude .hexadecimal ('0' :: 'x' :: cs) = .ok n := by
  constructor
  · rw [readMagnitude, h, orMalformed]
    -- A run of digits begins with no marker.
    · rintro rest rfl
      cases h
    · rintro rest rfl
      cases h
  · rw [readMagnitude, readMarked_eq h, orMalformed]

/-- A magnitude has no sign at its front. -/
theorem readSigned_of_readMagnitude {cs : List Char} {n : Nat}
    (h : readMagnitude .hexadecimal cs = .ok n) : readSigned .hexadecimal cs = .ok n := by
  unfold readSigned
  split
  · cases h
  · cases h
  · rw [h]
    rfl

/-- An integer in a layout is read back, with the marker `0x` or without one. -/
theorem readInt_chars {layout : HexLayout} (hmarker : layout.marker = "0x" ∨ layout.marker = "")
    (value : Int) : readInt .hexadecimal (layout.chars value) = .ok value := by
  have hbare : layout.marker.toList.all isBare = true := by
    rcases hmarker with h | h <;> rw [h] <;> decide
  obtain ⟨zeros, h⟩ := layout.exists_chars value
  have hdigits := readDigits_zeros (by decide) zeros (layout.readDigits_digits value.natAbs) true
  have hmagnitude : readMagnitude .hexadecimal
      (layout.marker.toList ++ (List.replicate zeros '0' ++ layout.digits value.natAbs)) =
        .ok value.natAbs := by
    obtain ⟨hplain, hmarked⟩ := readMagnitude_of_readDigits hdigits
    rcases hmarker with h | h
    · rw [h]
      exact hmarked
    · rw [h]
      exact hplain
  rw [readInt_of_all_isBare (HexLayout.all_isBare_chars hbare value), h]
  by_cases hnegative : value < 0
  · rw [if_pos hnegative, List.singleton_append, readSigned, hmagnitude]
    show Except.ok (-(value.natAbs : Int)) = _
    rw [← Int.eq_neg_natAbs_of_nonpos (Int.le_of_lt hnegative)]
  · rw [if_neg hnegative, List.nil_append, readSigned_of_readMagnitude hmagnitude,
      Int.natAbs_of_nonneg (Int.not_lt.1 hnegative)]

/-! ## Words for integers -/

/-- A word of bare characters that is read as an integer, in base sixteen. -/
structure Spells (word : String) (value : Int) : Prop where
  bare : word.toList.all isBare = true
  reads : readInt .hexadecimal word.toList = .ok value

/-- A word is read as one integer. -/
theorem Spells.unique {word : String} {value other : Int} (h : Spells word value)
    (hother : Spells word other) : value = other :=
  Except.ok.inj (h.reads.symm.trans hother.reads)

/-- An integer in a layout is a word for it. -/
theorem spells_render {layout : HexLayout} (hmarker : layout.marker = "0x" ∨ layout.marker = "")
    (value : Int) : Spells (layout.render value) value := by
  have hbare : layout.marker.toList.all isBare = true := by
    rcases hmarker with h | h <;> rw [h] <;> decide
  constructor
  · rw [HexLayout.render, String.toList_ofList]
    exact HexLayout.all_isBare_chars hbare value
  · rw [HexLayout.render, String.toList_ofList]
    exact readInt_chars hmarker value

end ChipEight.Text
