import ChipEight.Proofs.Machine.Aside

/-!
# Where the switches matter

Two machines that differ in one switch are called in the same way and get the same random bytes.

**Theorem (`same_without_use`).** With another width for the index register, everything stays the
same while no addition to it that is executed goes past twelve bits. With another operand for shifts
everything stays the same while the two registers of every shift that is executed are equal. This
is so for states, results and faults, and whatever is called.

An instruction is `Indifferent` to switches if its work commutes with changing them. What stops an
instruction and where it goes on never looks at the switches, so to change them is an `Aside`, and
the theorem says which instructions notice it. That an addition within twelve bits is indifferent
needs the invariant: the index register is never negative.
-/

namespace ChipEight.Machine

/-- The machine with other switches. -/
def withVariant (m : Machine) (variant : Variant) : Machine := { m with variant }

/-! ## Instructions -/

/-- The work of an instruction is the same with other switches. -/
def Indifferent (variant : Variant) (m : Machine) (i : Instruction) : Prop :=
  (m.withVariant variant).effect i = (m.effect i).withVariant variant

/-- An addition to the index register that goes past twelve bits. -/
def Overflows (m : Machine) : Instruction → Prop
  | .addIndex x => 0xFFF < m.registers.index + (m.registers.get x).toNat
  | _ => False

/-- A shift between registers that are not equal. -/
def ShiftsApart (m : Machine) : Instruction → Prop
  | .arith .shr x y | .arith .shl x y => m.registers.get x ≠ m.registers.get y
  | _ => False

theorem indexPlus_of_le {m : Machine} {value : UInt8} (h0 : 0 ≤ m.registers.index)
    (h1 : m.registers.index + value.toNat ≤ 0xFFF) :
    m.indexPlus value = m.registers.index + value.toNat := by
  unfold indexPlus
  split <;> omega

/-- Of the operations between registers only shifts look at the switches. -/
theorem operate_congr {r : Registers} {op : Arith} {x y : Register} {variant variant' : Variant}
    (h : op = .shr ∨ op = .shl →
      r.get (if variant'.shiftVy then y else x) = r.get (if variant.shiftVy then y else x)) :
    r.operate variant' op x y = r.operate variant op x y := by
  unfold Registers.operate
  cases op with
  | shr => rw [h (.inl rfl)]
  | shl => rw [h (.inr rfl)]
  | _ => rfl

section Instruction

variable {m : Machine} {i : Instruction} {variant : Variant}

theorem indifferent_arith {op : Arith} {x y : Register}
    (h : m.registers.operate variant op x y = m.registers.operate m.variant op x y) :
    Indifferent variant m (.arith op x y) :=
  congrArg (fun registers => ({ m with registers, variant } : Machine)) h

theorem indifferent_addIndex {x : Register}
    (h : (m.withVariant variant).indexPlus (m.registers.get x) =
      m.indexPlus (m.registers.get x)) : Indifferent variant m (.addIndex x) :=
  congrArg (fun index => ({ m with registers := { m.registers with index }, variant } : Machine)) h

/-- The width of the index register matters only to an addition that goes past twelve bits. -/
theorem indifferent_of_not_overflows (hshift : variant.shiftVy = m.variant.shiftVy)
    (h0 : 0 ≤ m.registers.index) (h : ¬ m.Overflows i) : Indifferent variant m i := by
  cases i with
  | addIndex x =>
    have hle : m.registers.index + (m.registers.get x).toNat ≤ 0xFFF := Int.not_lt.1 h
    have hother := indexPlus_of_le (m := m.withVariant variant) h0 hle
    exact indifferent_addIndex (hother.trans (indexPlus_of_le h0 hle).symm)
  | arith op x y => exact indifferent_arith (operate_congr fun _ => by rw [hshift])
  | _ => rfl

/-- The operand of shifts matters only to a shift between registers that are not equal. -/
theorem indifferent_of_not_shiftsApart (hwrap : variant.indexWrap = m.variant.indexWrap)
    (h : ¬ m.ShiftsApart i) : Indifferent variant m i := by
  cases i with
  | addIndex x =>
    refine indifferent_addIndex ?_
    unfold indexPlus
    rw [withVariant, hwrap]
  | arith op x y =>
    refine indifferent_arith (operate_congr fun hop => ?_)
    have heq : m.registers.get x = m.registers.get y := by
      rcases hop with rfl | rfl <;> exact Decidable.of_not_not h
    have hoperand (shiftVy : Bool) :
        m.registers.get (if shiftVy then y else x) = m.registers.get y := by
      cases shiftVy
      · exact heq
      · rfl
    rw [hoperand, hoperand]
  | _ => rfl

end Instruction

/-! ## Runs -/

theorem aside_withVariant (variant : Variant) : Aside fun m => m.withVariant variant where
  waiting_eq _ := rfl
  memory_eq _ := rfl
  registers_eq _ := rfl
  keypad_eq _ := rfl
  screen_eq _ := rfl
  withMemory _ _ := rfl
  withKeypad _ _ := rfl
  withScreen _ _ := rfl
  withTracing _ _ := rfl
  moveTo_eq _ _ := rfl
  afterKey_eq _ _ := rfl
  record_eq _ _ := rfl
  tick_eq _ := rfl

/-- Calls do the same with other switches if they avoid the instructions that look at them. -/
theorem same_of_avoids {kind : Machine → Instruction → Prop} {before variant : Variant}
    (hkind : ∀ {m : Machine} {i : Instruction}, m.Sound → m.variant = before → ¬ kind m i →
      Indifferent variant m i)
    {m : Machine} (h : m.Sound) (hvariant : m.variant = before) {calls : List Call}
    (havoid : Avoids kind m calls) :
    (m.withVariant variant).answers calls = m.answers calls ∧
      (m.withVariant variant).afterAll calls = (m.afterAll calls).withVariant variant :=
  (aside_withVariant variant).afterAll (P := fun m => m.Sound ∧ m.variant = before)
    (fun h => h.1.memory_size)
    (fun call h => ⟨h.1.after call, (variant_after h.1 call).trans h.2⟩)
    (fun h hnot => hkind h.1 h.2 hnot) ⟨h, hvariant⟩ havoid

/-- **The switches matter only where they are meant to.** Two machines are just switched on, with
the same random bytes, and are called in the same way. If they differ in the width of the index
register only, every result, every fault and the whole state are the same as long as no addition to
the index register goes past twelve bits. If they differ in the operand of shifts only, this is so
as long as every shift is between equal registers. -/
theorem same_without_use (random : Random.Source) (shiftVy indexWrap : Bool) (calls : List Call) :
    let m := fresh random ⟨shiftVy, indexWrap⟩
    (∀ indexWrap', Avoids Overflows m calls →
      (fresh random ⟨shiftVy, indexWrap'⟩).answers calls = m.answers calls ∧
        (fresh random ⟨shiftVy, indexWrap'⟩).afterAll calls =
          (m.afterAll calls).withVariant ⟨shiftVy, indexWrap'⟩) ∧
    ∀ shiftVy', Avoids ShiftsApart m calls →
      (fresh random ⟨shiftVy', indexWrap⟩).answers calls = m.answers calls ∧
        (fresh random ⟨shiftVy', indexWrap⟩).afterAll calls =
          (m.afterAll calls).withVariant ⟨shiftVy', indexWrap⟩ := by
  intro m
  have h : m.Sound := sound_fresh random _
  refine ⟨fun indexWrap' havoid => ?_, fun shiftVy' havoid => ?_⟩
  · refine same_of_avoids (fun hsound hvariant hnot => ?_) h rfl havoid
    exact indifferent_of_not_overflows (congrArg Variant.shiftVy hvariant).symm
      hsound.index_nonneg hnot
  · refine same_of_avoids (fun _ hvariant hnot => ?_) h rfl havoid
    exact indifferent_of_not_shiftsApart (congrArg Variant.indexWrap hvariant).symm hnot

/-- A program that loads two registers with five, adds one of them to the index register and shifts
one by the other. -/
def addAndShift : List UInt8 := [0xA1, 0x23, 0x60, 0x05, 0x61, 0x05, 0xF0, 0x1E, 0x80, 0x16]

/-- The program is loaded and executed. -/
def addAndShiftCalls : List Call :=
  [.load addAndShift programBase, .cycle, .cycle, .cycle, .cycle, .cycle]

/-- The machine before the addition. -/
def beforeAdd : Machine :=
  (((programmed addAndShift).afterWord 0xA123).afterWord 0x6005).afterWord 0x6105

/-- The machine after the shift. -/
def afterShift : Machine := (beforeAdd.afterWord 0xF01E).afterWord 0x8016

theorem cycles_loads :
    let start := programmed addAndShift
    Cycles start (some (.setIndex 0x123)) (start.afterWord 0xA123) ∧
      Cycles (start.afterWord 0xA123) (some (.setByte 0 5))
        ((start.afterWord 0xA123).afterWord 0x6005) ∧
      Cycles ((start.afterWord 0xA123).afterWord 0x6005) (some (.setByte 1 5)) beforeAdd := by
  intro start
  have hprogram : start.memory = _ := memory_programmed (by decide)
  have hindex : Instruction.decode 0xA123 = .setIndex 0x123 := by decide
  have hone : Instruction.decode 0x6005 = .setByte 0 5 := by decide
  have htwo : Instruction.decode 0x6105 = .setByte 1 5 := by decide
  rw [← hindex, ← hone, ← htwo]
  exact ⟨.of_program (k := 0) hprogram (by decide) rfl rfl rfl rfl (by decide),
    .of_program (k := 2) hprogram (by decide) rfl rfl rfl rfl (by decide),
    .of_program (k := 4) hprogram (by decide) rfl rfl rfl rfl (by decide)⟩

theorem cycles_beforeAdd :
    Cycles beforeAdd (some (.addIndex 0)) (beforeAdd.afterWord 0xF01E) ∧
      Cycles (beforeAdd.afterWord 0xF01E) (some (.arith .shr 0 1)) afterShift := by
  have hprogram : (programmed addAndShift).memory = _ := memory_programmed (by decide)
  have hnext : (beforeAdd.afterWord 0xF01E).memory = (programmed addAndShift).memory := rfl
  have hadd : Instruction.decode 0xF01E = .addIndex 0 := by decide
  have hshift : Instruction.decode 0x8016 = .arith .shr 0 1 := by decide
  rw [← hadd, ← hshift]
  exact ⟨.of_program (k := 6) hprogram (by decide) rfl rfl rfl rfl (by decide),
    .of_program (k := 8) (hnext.trans hprogram) (by decide) rfl rfl rfl rfl (by decide)⟩

theorem answers_cycle {m m' : Machine} {result : Option Instruction} (rest : List Call)
    (hc : Cycles m result m') :
    m.answers (.cycle :: rest) = .instruction result :: m'.answers rest := by
  rw [answers, answer_cycle_of_cycles hc, after_cycle_of_cycles hc]

/-- The addition gives `0x123 + 5`, and the shift halves five and has one left for the flag. Either
switch may be the other way round. -/
theorem same_addAndShift :
    let m := fresh (.ofBytes []) {}
    Avoids Overflows m addAndShiftCalls ∧ Avoids ShiftsApart m addAndShiftCalls ∧
      m.answers addAndShiftCalls = [.nothing, .instruction (some (.setIndex 0x123)),
        .instruction (some (.setByte 0 5)), .instruction (some (.setByte 1 5)),
        .instruction (some (.addIndex 0)), .instruction (some (.arith .shr 0 1))] ∧
      (m.afterAll addAndShiftCalls).registers.index = 0x128 ∧
      (m.afterAll addAndShiftCalls).registers.get 0 = 2 ∧
      (m.afterAll addAndShiftCalls).registers.get flagRegister = 1 ∧
      (fresh (.ofBytes []) ⟨false, false⟩).answers addAndShiftCalls = m.answers addAndShiftCalls ∧
      (fresh (.ofBytes []) ⟨true, true⟩).answers addAndShiftCalls = m.answers addAndShiftCalls := by
  intro m
  obtain ⟨hindex, hone, htwo⟩ := cycles_loads
  obtain ⟨hadd, hshr⟩ := cycles_beforeAdd
  have havoids (kind : Machine → Instruction → Prop)
      (hloads : ∀ m, ¬ kind m (.setIndex 0x123) ∧ ¬ kind m (.setByte 0 5) ∧ ¬ kind m (.setByte 1 5))
      (hfirst : ¬ kind beforeAdd (.addIndex 0))
      (hsecond : ¬ kind (beforeAdd.afterWord 0xF01E) (.arith .shr 0 1)) :
      Avoids kind m addAndShiftCalls :=
    ⟨nofun, .cycle hindex (hloads _).1 (.cycle hone (hloads _).2.1 (.cycle htwo (hloads _).2.2
      (.cycle hadd hfirst (.cycle hshr hsecond trivial))))⟩
  have hwithin : ¬ beforeAdd.Overflows (.addIndex 0) := by
    show ¬ (0xFFF : Int) < beforeAdd.registers.index + _
    decide
  have hequal : ¬ (beforeAdd.afterWord 0xF01E).ShiftsApart (.arith .shr 0 1) :=
    not_not_intro rfl
  have hoverflows :=
    havoids Overflows (fun _ => ⟨not_false, not_false, not_false⟩) hwithin not_false
  have happart := havoids ShiftsApart (fun _ => ⟨not_false, not_false, not_false⟩) not_false hequal
  have hsame := same_without_use (.ofBytes []) false true addAndShiftCalls
  have hload : m.answer (.load addAndShift programBase) = .nothing := by
    rw [answer_load, Memory.loadProgram, if_neg (by decide)]
    rfl
  have hlast : m.afterAll addAndShiftCalls = afterShift := by
    have hstart : m.after (.load addAndShift programBase) = programmed addAndShift := rfl
    rw [addAndShiftCalls, Machine.afterAll_cons, hstart, hindex.afterAll_cons,
      hone.afterAll_cons, htwo.afterAll_cons, hadd.afterAll_cons, hshr.afterAll_cons, afterAll_nil]
  refine ⟨hoverflows, happart, ?_, ?_, ?_, ?_, (hsame.1 false hoverflows).1,
    (hsame.2 true happart).1⟩
  · show m.answer _ :: (programmed addAndShift).answers _ = _
    rw [hload, answers_cycle _ hindex, answers_cycle _ hone, answers_cycle _ htwo,
      answers_cycle _ hadd, answers_cycle _ hshr]
    rfl
  all_goals
    rw [hlast]
    rfl

end ChipEight.Machine
