import ChipEight.Emulator.Report
import ChipEight.Proofs.Text.Numeral
import Mathlib.Data.List.Forall2

/-!
# What is said when an emulator stops

A fault is told by its message and the state by a report. Both are texts, and here it is said what
can be read from them.

**Faults** (`Fault.names_message_iff`). A text names a fault if it says what happened and has a word
for each of its numbers. The message of a fault names that fault and no other one.

**Reports** (`report_eq_text`). A report shows the sixteen registers, the program counter, the index
register, the stack, the timers, the register that is waited for, and the counters of the emulator.
It is fixed what stands where; the words for the numbers are any that are read as these numbers.
-/

namespace ChipEight

open Text (isBare HexLayout Spells spells_render)

/-! ## Faults -/

namespace Fault

/-- A text names a fault: it says what happened, with a word for each number of the fault. -/
def Names (fault : Fault) (text : String) : Prop :=
  match fault with
  | .memory address => ∃ a, Spells a address ∧ text = "Memory fault @ " ++ a
  | .programCounter target => ∃ a, Spells a target ∧ text = "PC out of range: " ++ a
  | .stackOverflow => text = "Call stack full (16 entries)"
  | .stackUnderflow => text = "Return with empty call stack"
  | .invalidOpcode pc word =>
    ∃ w a, Spells w word.toNat ∧ Spells a pc ∧ text = "Invalid opcode " ++ w ++ " @ " ++ a
  | .keyOutOfRange code => text = s!"Key code out of range: {code}"

/-- The message of a fault names it. -/
theorem names_message (fault : Fault) : fault.Names fault.message := by
  have haddress (value : Int) : Spells (addressLayout.render value) value :=
    spells_render (.inl rfl) value
  have hcounter (value : Int) : Spells (counterLayout.render value) value :=
    spells_render (.inl rfl) value
  cases fault with
  | memory address => exact ⟨_, haddress address, rfl⟩
  | programCounter target => exact ⟨_, haddress target, rfl⟩
  | invalidOpcode pc word => exact ⟨_, _, haddress word.toNat, hcounter pc, rfl⟩
  | stackOverflow | stackUnderflow | keyOutOfRange code => rfl

/-- The first letter of what is said about a fault; it is another one for each kind. -/
def initial : Fault → Char
  | .memory _ => 'M'
  | .programCounter _ => 'P'
  | .stackOverflow => 'C'
  | .stackUnderflow => 'R'
  | .invalidOpcode _ _ => 'I'
  | .keyOutOfRange _ => 'K'

variable {fault other : Fault} {text : String}

theorem Names.head?_eq (h : fault.Names text) : text.toList.head? = some fault.initial := by
  cases fault with
  | memory address | programCounter target =>
    obtain ⟨a, -, rfl⟩ := h
    simp [initial]
  | invalidOpcode pc word =>
    obtain ⟨w, a, -, -, rfl⟩ := h
    simp [initial]
  | stackOverflow | stackUnderflow =>
    cases h
    simp [initial]
  | keyOutOfRange code =>
    cases h
    show ("Key code out of range: " ++ toString code).toList.head? = _
    simp [initial]

/-- Words that make the same text after the same front are words for the same number. -/
theorem value_eq_of_append {front w w' : String} {value value' : Int} (hw : Spells w value)
    (hw' : Spells w' value') (h : front ++ w = front ++ w') : value' = value := by
  obtain rfl := (String.append_right_inj _).1 h
  exact hw'.unique hw

/-- Two texts that begin with a word and a blank and are the same begin with the same word. -/
theorem eq_of_word_append {w w' a a' : String} (hw : w.toList.all isBare = true)
    (hw' : w'.toList.all isBare = true) (h : w ++ (" @ " ++ a) = w' ++ (" @ " ++ a')) :
    w = w' ∧ a = a' := by
  have hblank : isBare ' ' = false := by decide
  have hchars := congrArg (fun s : String => s.toList.takeWhile isBare) h
  simp only [String.toList_append, String.reduceToList, List.cons_append,
    List.takeWhile_append_of_pos (List.all_eq_true.1 hw),
    List.takeWhile_append_of_pos (List.all_eq_true.1 hw')] at hchars
  rw [List.takeWhile_cons_of_neg (by simp [hblank]), List.append_nil,
    List.takeWhile_cons_of_neg (by simp [hblank]), List.append_nil, String.toList_inj] at hchars
  subst hchars
  exact ⟨rfl, (String.append_right_inj _).1 ((String.append_right_inj _).1 h)⟩

/-- A text names one fault. -/
theorem Names.unique (h : fault.Names text) (hother : other.Names text) : other = fault := by
  -- The first letter tells the kind, so only the numbers are left to compare.
  have hkind : other.initial = fault.initial :=
    Option.some.inj (hother.head?_eq.symm.trans h.head?_eq)
  cases fault with
  | memory address =>
    obtain ⟨a, ha, rfl⟩ := h
    cases other with
    | memory address' =>
      obtain ⟨b, hb, htext⟩ := hother
      rw [value_eq_of_append ha hb htext]
    | _ => cases hkind
  | programCounter target =>
    obtain ⟨a, ha, rfl⟩ := h
    cases other with
    | programCounter target' =>
      obtain ⟨b, hb, htext⟩ := hother
      rw [value_eq_of_append ha hb htext]
    | _ => cases hkind
  | stackOverflow =>
    cases other with
    | stackOverflow => rfl
    | _ => cases hkind
  | stackUnderflow =>
    cases other with
    | stackUnderflow => rfl
    | _ => cases hkind
  | invalidOpcode pc word =>
    obtain ⟨w, a, hw, ha, rfl⟩ := h
    cases other with
    | invalidOpcode pc' word' =>
      obtain ⟨w', a', hw', ha', htext⟩ := hother
      simp only [String.append_assoc, String.append_right_inj] at htext
      obtain ⟨rfl, rfl⟩ := eq_of_word_append hw.bare hw'.bare htext
      have hword : (word.toNat : Int) = word'.toNat := hw.unique hw'
      rw [ha.unique ha', UInt16.toNat_inj.1 (Int.ofNat.inj hword)]
    | _ => cases hkind
  | keyOutOfRange code =>
    cases h
    cases other with
    | keyOutOfRange code' =>
      have hcode : code.repr = code'.repr := (String.append_right_inj _).1 hother
      rw [Text.repr_inj hcode]
    | _ => cases hkind

/-- **The message of a fault names that fault and no other.** -/
theorem names_message_iff (fault other : Fault) : other.Names fault.message ↔ other = fault := by
  constructor
  · exact fault.names_message.unique
  · rintro rfl
    exact names_message _

end Fault

/-! ## Machines -/

/-- Words for the numbers of a machine that a report shows. -/
structure Machine.Words (m : Machine) where
  /-- The words for the registers. -/
  values : Nat → String
  pc : String
  index : String
  /-- The words for the return addresses, the oldest first. -/
  calls : List String
  /-- What is said about the register that the machine waits to fill. -/
  wait : String
  values_spell : ∀ x : Register, Spells (values x.val) (m.registers.get x).toNat
  pc_spells : Spells pc m.registers.pc
  index_spells : Spells index m.registers.index
  calls_spell : List.Forall₂ Spells calls (m.registers.calls.map fun address => address.toNat)
  wait_spells : if m.waiting then ∃ x, wait = "V" ++ x ∧ Spells x m.waitTarget.val else wait = "-"

namespace Machine

/-- The report in some words. -/
def Words.text {m : Machine} (words : m.Words) : String :=
  let v := words.values
  let stack := if m.registers.stack.isEmpty then []
    else ["  STACK = [" ++ " ".intercalate words.calls ++ "]"]
  "\n".intercalate ([
    s!"  V0 = {v 0}  V1 = {v 1}  V2 = {v 2}  V3 = {v 3}",
    s!"  V4 = {v 4}  V5 = {v 5}  V6 = {v 6}  V7 = {v 7}",
    s!"  V8 = {v 8}  V9 = {v 9}  VA = {v 10}  VB = {v 11}",
    s!"  VC = {v 12}  VD = {v 13}  VE = {v 14}  VF = {v 15}",
    s!"  PC = {words.pc}  I = {words.index}  SP = {m.registers.stack.length}"] ++ stack ++
    [s!"  DT = {m.timers.delay}  ST = {m.timers.sound}  WAIT = {words.wait}"])

/-- The words that the report has. -/
def laidOut (m : Machine) : m.Words where
  values k := if h : k < 16 then valueLayout.render (m.registers.get ⟨k, h⟩).toNat else ""
  pc := pointerLayout.render m.registers.pc
  index := pointerLayout.render m.registers.index
  calls := m.registers.calls.map fun address => shortAddressLayout.render address.toNat
  wait := m.waitText
  values_spell x := by
    rw [dif_pos x.isLt]
    exact spells_render (.inl rfl) _
  pc_spells := spells_render (.inl rfl) _
  index_spells := spells_render (.inl rfl) _
  calls_spell := by
    rw [List.forall₂_map_left_iff, List.forall₂_map_right_iff, List.forall₂_same]
    exact fun address _ => spells_render (.inr rfl) _
  wait_spells := by
    unfold waitText
    split
    · exact ⟨_, rfl, spells_render (.inr rfl) _⟩
    · rfl

variable (m : Machine)

/-- What stands before the values of the registers. -/
def registerLabels : List String :=
  ["V0 = ", "V1 = ", "V2 = ", "V3 = ", "V4 = ", "V5 = ", "V6 = ", "V7 = ", "V8 = ", "V9 = ",
    "VA = ", "VB = ", "VC = ", "VD = ", "VE = ", "VF = "]

theorem registerText_eq (x : Register) :
    m.registerText x = registerLabels.getD x.val "" ++ m.laidOut.values x.val := by
  have hlabel : ∀ x : Register,
      "V" ++ registerLayout.render x.val ++ " = " = registerLabels.getD x.val "" := by decide
  rw [registerText, hlabel, laidOut]
  simp only [dif_pos x.isLt]

theorem toString_string (text : String) : toString text = text := rfl

/-- Four registers make up a line. -/
theorem registerLines_eq :
    let v := m.laidOut.values
    [0, 4, 8, 12].map m.registerLine = [
      s!"  V0 = {v 0}  V1 = {v 1}  V2 = {v 2}  V3 = {v 3}",
      s!"  V4 = {v 4}  V5 = {v 5}  V6 = {v 6}  V7 = {v 7}",
      s!"  V8 = {v 8}  V9 = {v 9}  VA = {v 10}  VB = {v 11}",
      s!"  VC = {v 12}  VD = {v 13}  VE = {v 14}  VF = {v 15}"] := by
  intro v
  have hline (k : Nat) {a b c d : Register}
      (h : ((List.finRange 16).drop k).take 4 = [a, b, c, d]) :
      m.registerLine k = "  " ++ m.registerText a ++ "  " ++ m.registerText b ++ "  " ++
        m.registerText c ++ "  " ++ m.registerText d := by
    rw [registerLine, h, ← String.toList_inj]
    simp
  have hlines : [0, 4, 8, 12].map m.registerLine =
      [m.registerLine 0, m.registerLine 4, m.registerLine 8, m.registerLine 12] := rfl
  rw [hlines, hline 0 rfl, hline 4 rfl, hline 8 rfl, hline 12 rfl]
  simp only [registerText_eq, registerLabels]
  -- Both sides are the same characters, joined in another order.
  simp [← String.toList_inj, toString_string, v]

/-- The return addresses have a line of their own if there are any. -/
theorem stackLines_eq :
    m.stackLines = if m.registers.stack.isEmpty then []
      else ["  STACK = [" ++ " ".intercalate m.laidOut.calls ++ "]"] := by
  unfold stackLines
  split
  · next hnone =>
    rw [List.reverse_eq_nil_iff.1 hnone]
    rfl
  · next hsome =>
    rw [if_neg fun hempty => hsome (by rw [Registers.calls, List.isEmpty_iff.1 hempty]; rfl)]
    rfl

/-- **A report shows the registers, the stack and the timers.** -/
theorem report_eq_text : m.report = m.laidOut.text := by
  have hpointers : "  PC = " ++ pointerLayout.render m.registers.pc ++ "  I = " ++
      pointerLayout.render m.registers.index ++ s!"  SP = {m.registers.stack.length}" =
        s!"  PC = {m.laidOut.pc}  I = {m.laidOut.index}  SP = {m.registers.stack.length}" := by
    simp [← String.toList_inj, toString_string, laidOut]
  have htimers : s!"  DT = {m.timers.delay}  ST = {m.timers.sound}  WAIT = " ++ m.waitText =
      s!"  DT = {m.timers.delay}  ST = {m.timers.sound}  WAIT = {m.laidOut.wait}" := by
    simp [toString_string, laidOut]
  unfold report Words.text
  dsimp only
  rw [registerLines_eq, stackLines_eq, hpointers, htimers]
  simp only [List.cons_append, List.nil_append]

end Machine

/-! ## Emulators -/

/-- Words for the numbers of an emulator that a report shows. -/
structure Emulator.Words (e : Emulator) where
  machine : e.machine.Words
  /-- The latest of the words that were skipped, each with its address. -/
  skips : List (String × String)
  skips_spell :
    List.Forall₂ (fun shown skip => Spells shown.1 skip.2.toNat ∧ Spells shown.2 skip.1)
      skips (e.skipped.toList.drop (e.skipped.size - 8))

namespace Emulator

/-- The report in some words. -/
def Words.text {e : Emulator} (words : e.Words) : String :=
  let last := (e.machine.last.map Instruction.text).getD "-"
  let skips := words.skips.map fun (word, address) => word ++ "@" ++ address
  let skipped := if e.skipped.isEmpty then []
    else [s!"  Skipped invalid: {e.skipped.size} (last: " ++ ", ".intercalate skips ++ ")"]
  "\n".intercalate (["=== Registers ===", words.machine.text,
    s!"  Instructions: {e.machine.executed}  Frames: {e.frames}  Last: {last}"] ++ skipped)

/-- The words that the report has. -/
def laidOut (e : Emulator) : e.Words where
  machine := e.machine.laidOut
  skips := (e.skipped.toList.drop (e.skipped.size - shownSkips)).map fun skip =>
    (shortWordLayout.render skip.2.toNat, shortAddressLayout.render skip.1)
  skips_spell := by
    rw [List.forall₂_map_left_iff, shownSkips, List.forall₂_same]
    exact fun skip _ => ⟨spells_render (.inr rfl) _, spells_render (.inr rfl) _⟩

/-- **A report shows the machine and the counters of the emulator.** -/
theorem report_eq_text (e : Emulator) : e.report = e.laidOut.text := by
  have hlast : e.lastText = (e.machine.last.map Instruction.text).getD "-" := by
    unfold lastText
    cases e.machine.last <;> rfl
  have hskips : e.skipLines = if e.skipped.isEmpty then []
      else [s!"  Skipped invalid: {e.skipped.size} (last: " ++
        ", ".intercalate (e.laidOut.skips.map fun (word, address) => word ++ "@" ++ address) ++
          ")"] := by
    simp only [laidOut, List.map_map]
    rfl
  unfold report Words.text
  rw [Machine.report_eq_text, hlast, hskips]
  rfl

end Emulator

end ChipEight
