import ChipEight.Text.Blank
import Mathlib.Data.List.TakeWhile

/-!
# Cutting and trimming

Cutting a text at its separators takes apart what was put together with them, if there is no
separator in the parts (`pieces_intercalate`). Trimming leaves a text alone that neither begins nor
ends with a blank, and a text that starts with a word is cut after it. Bare characters are those
that no cutting and no trimming takes notice of.
-/

namespace ChipEight.Text

variable {separator : Char} {cs : List Char}

/-! ## Pieces -/

theorem pieces_of_not_mem (h : separator ∉ cs) : pieces separator cs = [cs] := by
  induction cs with
  | nil => rfl
  | cons c rest ih =>
    have hc : c ≠ separator := by
      rintro rfl
      exact h List.mem_cons_self
    have hrest : separator ∉ rest := by
      intro hmem
      exact h (List.mem_cons_of_mem c hmem)
    rw [pieces, if_neg hc, ih hrest]

/-- A separator cuts a text in two, each of which is cut by itself. -/
theorem pieces_append (front back : List Char) :
    pieces separator (front ++ separator :: back) =
      pieces separator front ++ pieces separator back := by
  induction front with
  | nil => simp [pieces]
  | cons c rest ih =>
    by_cases hc : c = separator
    · simp only [List.cons_append, pieces, if_pos hc, ih]
    · simp only [List.cons_append, pieces, if_neg hc, ih]
      cases hp : pieces separator rest with
      | nil => exact absurd hp (pieces_ne_nil separator rest)
      | cons piece more => rfl

theorem not_mem_of_mem_pieces {part : List Char} (h : part ∈ pieces separator cs) :
    separator ∉ part := by
  induction cs generalizing part with
  | nil =>
    cases List.mem_singleton.1 h
    exact List.not_mem_nil
  | cons c rest ih =>
    unfold pieces at h
    split at h
    · rcases List.mem_cons.1 h with rfl | hrest
      · exact List.not_mem_nil
      · exact ih hrest
    -- The character is put in front of the first piece, and is no separator.
    · next hc =>
      cases hp : pieces separator rest with
      | nil => exact absurd hp (pieces_ne_nil separator rest)
      | cons piece more =>
        rw [hp] at h ih
        rcases List.mem_cons.1 h with rfl | hmore
        · rw [List.mem_cons, not_or]
          exact ⟨fun heq => hc heq.symm, ih List.mem_cons_self⟩
        · exact ih (List.mem_cons_of_mem piece hmore)

theorem pieces_intercalate {parts : List (List Char)} (hne : parts ≠ [])
    (h : ∀ part ∈ parts, separator ∉ part) :
    pieces separator ([separator].intercalate parts) = parts := by
  induction parts with
  | nil => exact absurd rfl hne
  | cons part rest ih =>
    have hpart := h part List.mem_cons_self
    cases rest with
    | nil => simpa using pieces_of_not_mem hpart
    | cons next more =>
      have hrest : ∀ part ∈ next :: more, separator ∉ part := by
        intro p hmem
        exact h p (List.mem_cons_of_mem part hmem)
      rw [List.intercalate_cons_cons, List.append_assoc, List.singleton_append, pieces_append,
        pieces_of_not_mem hpart, ih (List.cons_ne_nil next more) hrest]
      rfl

/-! ## Blanks -/

theorem trimLeft_cons_blank {c : Char} (h : isBlank c = true) :
    trimLeft (c :: cs) = trimLeft cs := by
  unfold trimLeft
  rw [List.dropWhile_cons_of_pos h]

theorem trimLeft_cons {c : Char} (h : isBlank c = false) : trimLeft (c :: cs) = c :: cs := by
  unfold trimLeft
  rw [List.dropWhile_cons_of_neg (by simp [h])]

theorem trimRight_append {c : Char} (h : isBlank c = false) :
    trimRight (cs ++ [c]) = cs ++ [c] := by
  unfold trimRight
  rw [List.reverse_append, List.reverse_singleton, List.singleton_append,
    List.dropWhile_cons_of_neg (by simp [h])]
  simp

/-- Trimming leaves a text alone whose first and last character are not blank. -/
theorem trim_eq_self (hfirst : ∀ c ∈ cs.head?, isBlank c = false)
    (hlast : ∀ c ∈ cs.getLast?, isBlank c = false) : trim cs = cs := by
  have hleft : trimLeft cs = cs := by
    cases cs with
    | nil => rfl
    | cons c rest => exact trimLeft_cons (hfirst c rfl)
  unfold trim
  rw [hleft]
  rcases List.eq_nil_or_concat cs with rfl | ⟨front, last, rfl⟩
  · rfl
  · rw [List.concat_eq_append] at hlast ⊢
    exact trimRight_append (hlast last (by simp))

theorem trim_of_all (h : ∀ c ∈ cs, isBlank c = false) : trim cs = cs :=
  trim_eq_self (fun c hc => h c (List.mem_of_mem_head? hc))
    (fun c hc => h c (List.mem_of_mem_getLast? hc))

/-- Nothing is left of a text exactly if all of it is blank. -/
theorem trim_eq_nil : trim cs = [] ↔ ∀ c ∈ cs, isBlank c = true := by
  have hleft : (∀ c ∈ trimLeft cs, isBlank c = true) ↔ ∀ c ∈ cs, isBlank c = true := by
    refine ⟨fun h c hmem => ?_, fun h c hmem => h c (List.dropWhile_subset isBlank hmem)⟩
    rw [← List.takeWhile_append_dropWhile (p := isBlank) (l := cs)] at hmem
    rcases List.mem_append.1 hmem with htaken | hrest
    · exact List.mem_takeWhile_imp htaken
    · exact h c hrest
  rw [← hleft]
  unfold trim trimRight
  rw [List.reverse_eq_nil_iff, List.dropWhile_eq_nil_iff]
  simp only [List.mem_reverse]

theorem trim_cons_blank {c : Char} (h : isBlank c = true) : trim (c :: cs) = trim cs := by
  unfold trim
  rw [trimLeft_cons_blank h]

/-- Blanks before a text are trimmed off with those that it begins with. -/
theorem trim_blanks_append {blanks : List Char} (h : ∀ c ∈ blanks, isBlank c = true) :
    trim (blanks ++ cs) = trim cs := by
  induction blanks with
  | nil => rfl
  | cons c rest ih =>
    obtain ⟨hc, hrest⟩ := List.forall_mem_cons.1 h
    rw [List.cons_append, trim_cons_blank hc, ih hrest]

/-- Blanks behind a text are trimmed off with those that it ends with. -/
theorem trim_append_blanks {blanks : List Char} (h : ∀ c ∈ blanks, isBlank c = true) :
    trim (cs ++ blanks) = trim cs := by
  by_cases hcs : ∀ c ∈ cs, isBlank c = true
  · rw [trim_eq_nil.2 hcs, trim_eq_nil, List.forall_mem_append]
    exact ⟨hcs, h⟩
  · have hleft : trimLeft (cs ++ blanks) = trimLeft cs ++ blanks := by
      unfold trimLeft
      rw [List.dropWhile_append, if_neg]
      rwa [List.isEmpty_iff, List.dropWhile_eq_nil_iff]
    have hreverse : ∀ c ∈ blanks.reverse, isBlank c = true := by
      simpa only [List.mem_reverse] using h
    unfold trim
    rw [hleft]
    unfold trimRight
    rw [List.reverse_append, List.dropWhile_append_of_pos hreverse]

/-- What is trimmed off a text are the blanks at its ends. -/
theorem exists_blanks (cs : List Char) :
    ∃ before after, cs = before ++ trim cs ++ after ∧ (∀ c ∈ before, isBlank c = true) ∧
      ∀ c ∈ after, isBlank c = true := by
  have hback : trimLeft cs = trim cs ++ ((trimLeft cs).reverse.takeWhile isBlank).reverse := by
    rw [trim, trimRight, ← List.reverse_append, List.takeWhile_append_dropWhile,
      List.reverse_reverse]
  have hfront : cs = cs.takeWhile isBlank ++ trimLeft cs :=
    List.takeWhile_append_dropWhile.symm
  refine ⟨cs.takeWhile isBlank, ((trimLeft cs).reverse.takeWhile isBlank).reverse, ?_,
    fun c hmem => List.mem_takeWhile_imp hmem,
    fun c hmem => List.mem_takeWhile_imp (List.mem_reverse.1 hmem)⟩
  rw [List.append_assoc, ← hback, ← hfront]

theorem trim_trim (cs : List Char) : trim (trim cs) = trim cs := by
  obtain ⟨before, after, hcs, hbefore, hafter⟩ := exists_blanks cs
  calc
    trim (trim cs) = trim (before ++ trim cs ++ after) := by
      rw [trim_append_blanks hafter, trim_blanks_append hbefore]
    _ = trim cs := by rw [← hcs]

theorem splitWord_of_all (h : ∀ c ∈ cs, isBlank c = false) : splitWord cs = (cs, []) := by
  have hword : ∀ c ∈ cs, (!isBlank c) = true := by
    intro c hmem
    simp [h c hmem]
  have htake : (cs ++ []).takeWhile (!isBlank ·) = cs ++ [] := List.takeWhile_append_of_pos hword
  have hdrop : (cs ++ []).dropWhile (!isBlank ·) = [] := List.dropWhile_append_of_pos hword
  rw [List.append_nil] at htake hdrop
  rw [splitWord, htake, hdrop]
  rfl

/-- A word ends at the first blank. -/
theorem splitWord_append {word rest : List Char} {c : Char}
    (hword : ∀ c ∈ word, isBlank c = false) (hc : isBlank c = true) :
    splitWord (word ++ c :: rest) = (word, trimLeft rest) := by
  have hword' : ∀ c ∈ word, (!isBlank c) = true := by
    intro c hmem
    simp [hword c hmem]
  unfold splitWord
  rw [List.takeWhile_append_of_pos hword', List.dropWhile_append_of_pos hword']
  simp [hc, trimLeft_cons_blank hc]

/-! ## Bare characters -/

/-- Whether a character is visible, of the plain ones, and none of the marks that cut a source
text. -/
def isBare (c : Char) : Bool :=
  0x21 ≤ c.toNat && c.toNat < 0x7F && c != ',' && c != ':' && c != ';'

theorem isBlank_of_isBare {c : Char} (h : isBare c = true) : isBlank c = false := by
  simp only [isBare, Bool.and_eq_true, decide_eq_true_eq] at h
  obtain ⟨⟨⟨⟨hlow, hhigh⟩, -⟩, -⟩, -⟩ := h
  simp only [isBlank, inRanges, blankRanges, List.any_cons, List.any_nil, Bool.or_false,
    Bool.or_eq_false_iff, Bool.and_eq_false_iff, decide_eq_false_iff_not]
  omega

theorem ne_of_isBare {c mark : Char} (h : isBare c = true) (hmark : isBare mark = false) :
    c ≠ mark := by
  rintro rfl
  rw [h] at hmark
  cases hmark

theorem not_mem_of_all_isBare {mark : Char} (h : cs.all isBare = true)
    (hmark : isBare mark = false) : mark ∉ cs := fun hmem =>
  ne_of_isBare (List.all_eq_true.1 h mark hmem) hmark rfl

theorem trim_of_all_isBare (h : cs.all isBare = true) : trim cs = cs :=
  trim_of_all fun c hmem => isBlank_of_isBare (List.all_eq_true.1 h c hmem)

end ChipEight.Text
