import ChipEight.Assembly.Statement
import ChipEight.Instruction.Lemmas
import ChipEight.Instruction.Text
import ChipEight.Proofs.Text.Numeral

/-!
# How lines are spelled

What a disassembler writes is put together from words, which have bare characters only, with commas
and blanks between them. Such a text is tidy: as a line of a source text it stays what it is
(`IsTidy.lineText_eq`), it is cut into the mnemonic and the operands it was made of
(`splitWord_text`, `splitOperands_joinOperands`), and it is no label. So the text of an instruction
is read as the statement with its own mnemonic and operands (`ofText_text`).
-/

namespace ChipEight.Assembly

open Text Instruction

variable {cs : List Char}

/-! ## Words -/

/-- Bare characters, and at least one of them. -/
def IsWord (cs : List Char) : Prop := cs ≠ [] ∧ cs.all isBare = true

instance (cs : List Char) : Decidable (IsWord cs) := inferInstanceAs (Decidable (_ ∧ _))

theorem isWord_chars {layout : HexLayout} (hmarker : layout.marker.toList.all isBare = true)
    (n : Nat) : IsWord (layout.chars n) := by
  refine ⟨?_, HexLayout.all_isBare_chars hmarker n⟩
  obtain ⟨zeros, h⟩ := layout.chars_natCast n
  have hdigits : layout.digits n ≠ [] := by
    intro hnil
    have hread := layout.readDigits_digits n true
    rw [hnil] at hread
    cases hread
  simp [h, hdigits]

theorem isWord_register (r : Register) : IsWord (Operand.register r).text.toList := by
  revert r
  decide

theorem isWord_count (value : Fin 16) : IsWord (Operand.count value).text.toList := by
  revert value
  decide

theorem isWord_hex {layout : HexLayout} (hmarker : layout.marker = "0x") (n : Nat) :
    IsWord (layout.render n).toList := by
  rw [HexLayout.render, String.toList_ofList]
  exact isWord_chars (by rw [hmarker]; decide) n

/-- Every operand of an instruction is written as a word. -/
theorem isWord_operand (i : Instruction) : ∀ operand ∈ i.parts.2, IsWord operand.text.toList := by
  have hbyte (b : UInt8) : IsWord (Operand.byte b).text.toList := isWord_hex rfl b.toNat
  have haddress (a : Address) : IsWord (Operand.address a).text.toList := isWord_hex rfl a.val
  have hword (w : UInt16) : IsWord (Operand.word w).text.toList := isWord_hex rfl w.toNat
  have hname : ∀ name ∈ ["I", "DT", "K", "ST", "F", "B", "[I]"],
      IsWord (Operand.name name).text.toList := by decide
  cases i with
  | skip condition =>
    cases condition <;>
      simp [parts, Condition.parts, isWord_register, hbyte]
  | arith op x y =>
    simp only [parts]
    split <;> simp [isWord_register]
  | _ => simp [parts, isWord_register, isWord_count, hbyte, haddress, hword, hname]

theorem isWord_mnemonic (i : Instruction) : IsWord i.parts.1.toList := by
  cases i with
  | skip condition => cases condition <;> (simp only [parts, Condition.parts]; decide)
  | arith op x y => cases op <;> (simp only [parts, Arith.mnemonic]; decide)
  | _ => simp only [parts]; decide

/-! ## Tidy texts -/

/-- Whether a character may stand in a tidy text. -/
def isInline (c : Char) : Bool := isBare c || c == ' ' || c == ','

/-- A text without marks apart from commas, and without blanks at its ends. -/
structure IsTidy (cs : List Char) : Prop where
  first : ∃ c rest, cs = c :: rest ∧ isBare c = true
  last : ∃ front c, cs = front ++ [c] ∧ isBare c = true
  inline : cs.all isInline = true

theorem IsWord.isTidy (h : IsWord cs) : IsTidy cs := by
  obtain ⟨hne, hall⟩ := h
  have hbare := List.all_eq_true.1 hall
  refine ⟨?_, ?_, ?_⟩
  · obtain ⟨c, rest, rfl⟩ := List.exists_cons_of_ne_nil hne
    exact ⟨c, rest, rfl, hbare c List.mem_cons_self⟩
  · exact ⟨_, _, (List.dropLast_concat_getLast hne).symm, hbare _ (List.getLast_mem hne)⟩
  · exact List.all_eq_true.2 fun c hmem => by simp [isInline, hbare c hmem]

namespace IsTidy

theorem append {front gap back : List Char} (hfront : IsTidy front)
    (hgap : gap.all isInline = true) (hback : IsTidy back) : IsTidy (front ++ (gap ++ back)) := by
  obtain ⟨c, rest, hc, hbare⟩ := hfront.first
  obtain ⟨init, d, hd, hbare'⟩ := hback.last
  refine ⟨⟨c, rest ++ (gap ++ back), ?_, hbare⟩, ⟨front ++ (gap ++ init), d, ?_, hbare'⟩, ?_⟩
  · rw [hc, List.cons_append]
  · rw [hd, List.append_assoc, List.append_assoc]
  · rw [List.all_append, List.all_append, hfront.inline, hgap, hback.inline]
    rfl

theorem ne_nil (h : IsTidy cs) : cs ≠ [] := by
  obtain ⟨c, rest, rfl, -⟩ := h.first
  exact List.cons_ne_nil c rest

theorem not_mem (h : IsTidy cs) {mark : Char} (hmark : isInline mark = false) : mark ∉ cs := by
  intro hmem
  have hinline := List.all_eq_true.1 h.inline mark hmem
  rw [hmark] at hinline
  cases hinline

theorem trimLeft_eq (h : IsTidy cs) : trimLeft cs = cs := by
  obtain ⟨c, rest, rfl, hc⟩ := h.first
  exact trimLeft_cons (isBlank_of_isBare hc)

theorem trim_eq (h : IsTidy cs) : trim cs = cs := by
  obtain ⟨front, c, hcs, hc⟩ := h.last
  rw [trim, h.trimLeft_eq, hcs]
  exact trimRight_append (isBlank_of_isBare hc)

theorem lineText_eq (h : IsTidy cs) : lineText cs = cs := by
  have hcomment : ∀ c ∈ cs, decide (c ≠ ';') = true := by
    intro c hmem
    refine decide_eq_true ?_
    rintro rfl
    exact h.not_mem (by decide) hmem
  have hall : (cs ++ []).takeWhile (fun c => decide (c ≠ ';')) = cs ++ [] :=
    List.takeWhile_append_of_pos hcomment
  rw [List.append_nil] at hall
  rw [lineText, hall, h.trim_eq]

theorem not_label (h : IsTidy cs) : cs.getLast? ≠ some ':' := fun hlast =>
  h.not_mem (by decide) (List.mem_of_getLast? hlast)

end IsTidy

/-! ## Operands -/

theorem splitOperands_of_isWord (h : IsWord cs) : splitOperands cs = [cs] := by
  have hcomma : ',' ∉ cs := not_mem_of_all_isBare h.2 (by decide)
  rw [splitOperands, pieces_of_not_mem hcomma, List.map_singleton, trim_of_all_isBare h.2]
  simp [h.1]

theorem splitOperands_append (front back : List Char) :
    splitOperands (front ++ ',' :: back) = splitOperands front ++ splitOperands back := by
  simp only [splitOperands, pieces_append, List.map_append, List.filter_append]

theorem splitOperands_blank (cs : List Char) : splitOperands (' ' :: cs) = splitOperands cs := by
  have hblank : isBlank ' ' = true := by decide
  unfold splitOperands
  rw [pieces, if_neg (by decide)]
  cases hp : pieces ',' cs with
  | nil => exact absurd hp (pieces_ne_nil ',' cs)
  | cons piece more => simp only [List.map_cons, trim_cons_blank hblank]

theorem toList_joinOperands (operand next : Operand) (more : List Operand) :
    (joinOperands (operand :: next :: more)).toList =
      operand.text.toList ++ (',' :: ' ' :: (joinOperands (next :: more)).toList) := by
  have hjoin : joinOperands (operand :: next :: more) =
      operand.text ++ ", " ++ joinOperands (next :: more) := rfl
  have hgap : ", ".toList = [',', ' '] := by simp
  rw [hjoin, String.toList_append, String.toList_append, hgap, List.append_assoc]
  rfl

theorem splitOperands_joinOperands {operands : List Operand}
    (h : ∀ operand ∈ operands, IsWord operand.text.toList) :
    splitOperands (joinOperands operands).toList = operands.map (·.text.toList) := by
  -- Each comma cuts off one operand, and the blank behind it goes with the trimming.
  induction operands with
  | nil => rfl
  | cons operand rest ih =>
    have hfirst := splitOperands_of_isWord (h operand List.mem_cons_self)
    have hrest := ih fun o hmem => h o (List.mem_cons_of_mem operand hmem)
    cases rest with
    | nil => exact hfirst
    | cons next more =>
      rw [toList_joinOperands, splitOperands_append, splitOperands_blank, hfirst, hrest]
      rfl

theorem isTidy_joinOperands {operands : List Operand} (hne : operands ≠ [])
    (h : ∀ operand ∈ operands, IsWord operand.text.toList) :
    IsTidy (joinOperands operands).toList := by
  induction operands with
  | nil => exact absurd rfl hne
  | cons operand rest ih =>
    have hfirst := (h operand List.mem_cons_self).isTidy
    cases rest with
    | nil => exact hfirst
    | cons next more =>
      have hrest := ih (List.cons_ne_nil next more) fun o hmem =>
        h o (List.mem_cons_of_mem operand hmem)
      have hgap : [',', ' '].all isInline = true := by decide
      rw [toList_joinOperands]
      exact hfirst.append hgap hrest

/-! ## Instructions -/

theorem text_of_no_operands {i : Instruction} (h : i.parts.2 = []) : i.text = i.parts.1 := by
  unfold text
  split
  · next heq => rw [heq]
  · next operands hne heq =>
    rw [heq] at h
    exact absurd h hne

theorem text_of_operands {i : Instruction} (h : i.parts.2 ≠ []) :
    i.text.toList = i.parts.1.toList ++ ([' '] ++ (joinOperands i.parts.2).toList) := by
  unfold text
  split
  · next heq =>
    rw [heq] at h
    exact absurd rfl h
  · next heq =>
    rw [heq, String.toList_append, String.toList_append, List.append_assoc]
    rfl

/-- The text of an instruction stays as it is on a line of its own. -/
theorem isTidy_text (i : Instruction) : IsTidy i.text.toList := by
  have hmnemonic := (isWord_mnemonic i).isTidy
  by_cases h : i.parts.2 = []
  · rwa [text_of_no_operands h]
  · rw [text_of_operands h]
    exact hmnemonic.append (by decide) (isTidy_joinOperands h (isWord_operand i))

/-- The text of an instruction is cut into its mnemonic and its operands. -/
theorem splitWord_text (i : Instruction) :
    splitWord i.text.toList = (i.parts.1.toList, (joinOperands i.parts.2).toList) := by
  have hmnemonic : ∀ c ∈ i.parts.1.toList, isBlank c = false := by
    intro c hmem
    exact isBlank_of_isBare (List.all_eq_true.1 (isWord_mnemonic i).2 c hmem)
  by_cases h : i.parts.2 = []
  · rw [text_of_no_operands h, h]
    exact splitWord_of_all hmnemonic
  · have hoperands := isTidy_joinOperands h (isWord_operand i)
    rw [text_of_operands h, List.singleton_append, splitWord_append hmnemonic (by decide),
      hoperands.trimLeft_eq]

/-! ## Statements -/

theorem not_beginsWithName {c : Char} {rest : List Char} {name : String}
    (h : name.toList.head? ≠ some (foldChar c)) (hname : name ≠ "") :
    beginsWithName (c :: rest) name = false := by
  unfold beginsWithName
  cases hchars : name.toList with
  | nil => exact absurd (String.toList_eq_nil_iff.1 hchars) hname
  | cons first more =>
    rw [hchars] at h
    have hfirst : first ≠ foldChar c := fun heq => h (by rw [heq]; rfl)
    simp [fold, List.isPrefixOf, hfirst]

/-- A tidy text that does not begin with a dot is an operation. -/
theorem ofText_operation {c : Char} {rest : List Char} (h : IsTidy (c :: rest))
    (hc : foldChar c ≠ '.') :
    Statement.ofText (c :: rest) =
      .operation (splitWord (c :: rest)).1 (splitWord (c :: rest)).2 := by
  have hdot : some '.' ≠ some (foldChar c) := fun heq => hc (Option.some.inj heq).symm
  have horg : beginsWithName (c :: rest) ".org" = false :=
    not_beginsWithName (by simpa using hdot) (by decide)
  have hdb : beginsWithName (c :: rest) ".db" = false :=
    not_beginsWithName (by simpa using hdot) (by decide)
  have hdw : beginsWithName (c :: rest) ".dw" = false :=
    not_beginsWithName (by simpa using hdot) (by decide)
  rw [Statement.ofText, if_neg h.not_label, horg, hdb, hdw]
  rfl

theorem ofText_bytes (h : IsTidy ('.' :: 'd' :: 'b' :: ' ' :: cs)) :
    Statement.ofText ('.' :: 'd' :: 'b' :: ' ' :: cs) = .bytes (splitOperands cs) := by
  have horg : beginsWithName ('.' :: 'd' :: 'b' :: ' ' :: cs) ".org" = false := by
    simp [beginsWithName, fold, foldChar, List.isPrefixOf]
  have hdb : beginsWithName ('.' :: 'd' :: 'b' :: ' ' :: cs) ".db" = true := by
    simp [beginsWithName, fold, foldChar, List.isPrefixOf]
  rw [Statement.ofText, if_neg h.not_label, horg, hdb]
  exact congrArg Statement.bytes (splitOperands_blank cs)

theorem ofText_words (h : IsTidy ('.' :: 'd' :: 'w' :: ' ' :: cs)) :
    Statement.ofText ('.' :: 'd' :: 'w' :: ' ' :: cs) = .words (splitOperands cs) := by
  have horg : beginsWithName ('.' :: 'd' :: 'w' :: ' ' :: cs) ".org" = false := by
    simp [beginsWithName, fold, foldChar, List.isPrefixOf]
  have hdb : beginsWithName ('.' :: 'd' :: 'w' :: ' ' :: cs) ".db" = false := by
    simp [beginsWithName, fold, foldChar, List.isPrefixOf]
  have hdw : beginsWithName ('.' :: 'd' :: 'w' :: ' ' :: cs) ".dw" = true := by
    simp [beginsWithName, fold, foldChar, List.isPrefixOf]
  rw [Statement.ofText, if_neg h.not_label, horg, hdb, hdw]
  exact congrArg Statement.words (splitOperands_blank cs)

theorem head?_mnemonic {i : Instruction} (h : i.isKnown = true) :
    i.parts.1.toList.head?.map foldChar ≠ some '.' := by
  cases i with
  | unknown word => cases h
  | skip condition => cases condition <;> (simp only [parts, Condition.parts]; decide)
  | arith op x y => cases op <;> (simp only [parts, Arith.mnemonic]; decide)
  | _ => simp only [parts]; decide

/-- The text of an instruction is read as the operation with its mnemonic and its operands. -/
theorem ofText_text {i : Instruction} (h : i.isKnown = true) :
    Statement.ofText i.text.toList =
      .operation i.parts.1.toList (joinOperands i.parts.2).toList := by
  have hdot := head?_mnemonic h
  have htidy := isTidy_text i
  have hsplit := splitWord_text i
  obtain ⟨c, front, hmnemonic⟩ := List.exists_cons_of_ne_nil (isWord_mnemonic i).1
  have htext : ∃ rest, i.text.toList = c :: rest := by
    by_cases hops : i.parts.2 = []
    · exact ⟨front, by rw [text_of_no_operands hops, hmnemonic]⟩
    · exact ⟨_, by rw [text_of_operands hops, hmnemonic, List.cons_append]⟩
  obtain ⟨rest, htext⟩ := htext
  rw [hmnemonic] at hdot
  rw [htext] at htidy hsplit ⊢
  rw [ofText_operation htidy (fun heq => hdot (congrArg some heq)), hsplit]

/-- A word that stands for no instruction is read as itself. -/
theorem ofText_unknown (word : UInt16) :
    Statement.ofText (unknown word).text.toList = .words [wordLayout.chars word.toNat] := by
  have hword : IsWord (wordLayout.chars word.toNat) := isWord_chars (by decide) word.toNat
  have hne : (unknown word).parts.2 ≠ [] := List.cons_ne_nil _ _
  have htext : (unknown word).text.toList =
      '.' :: 'd' :: 'w' :: ' ' :: wordLayout.chars word.toNat := by
    rw [text_of_operands hne]
    simp [parts, joinOperands, Operand.text, HexLayout.render]
  have htidy := isTidy_text (unknown word)
  rw [htext] at htidy ⊢
  rw [ofText_words htidy, splitOperands_of_isWord hword]

end ChipEight.Assembly
