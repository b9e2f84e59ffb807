import ChipEight.Proofs.Machine.Transfers

/-!
# Where a cycle goes on

`LeadsTo` tells for each instruction where it goes on: at the address it names, at the address
after a call, two words further if it is a skip whose condition is met, where it is if it waits for
a key, and else at the next word. `Hindered` tells what else stops an instruction: a stack with no
room or with nothing on it, and a range of bytes that is refused.

**Theorem (`cycle_leadsTo`).** A cycle is stopped by the program counter exactly if its instruction
leads behind the end of memory, whatever else is the matter with it. If it leads into memory, the
cycle is stopped by what hinders the instruction, or it executes it and is where it leads. Every
instruction leads to one address, but for a return without a call, which is stopped as such.

The address is checked in two ways, before the work of an instruction that goes on to the next word
and after the work of the others. No instruction is checked in the wrong one: of the others only
calls and returns can be hindered, a call leads into memory, and a return without a call leads
nowhere.
-/

namespace ChipEight

/-- What a condition says about registers and keys. -/
def Condition.Met (m : Machine) : Condition → Prop
  | .byteEq x value => (m.registers.get x).toNat = value.toNat
  | .byteNe x value => (m.registers.get x).toNat ≠ value.toNat
  | .regEq x y => (m.registers.get x).toNat = (m.registers.get y).toNat
  | .regNe x y => (m.registers.get x).toNat ≠ (m.registers.get y).toNat
  | .keyDown x => m.keypad.held.getD ((m.registers.get x).toNat % 16) false = true
  | .keyUp x => m.keypad.held.getD ((m.registers.get x).toNat % 16) false = false

theorem Condition.met_iff_holds (m : Machine) (c : Condition) : c.Met m ↔ c.holds m = true := by
  have hheld (x : Register) : m.keypad.held.getD ((m.registers.get x).toNat % 16) false =
      m.keypad.isDown (keyOf (m.registers.get x)) := by
    simp [Vector.getD, Keypad.isDown, keyOf, Nat.mod_lt]
  cases c with
  | byteEq _ _ | regEq _ _ => simp [Met, holds, UInt8.toNat_inj]
  | byteNe _ _ | regNe _ _ => simp [Met, holds, UInt8.toNat_inj]
  | keyDown x => rw [Met, hheld, holds]
  | keyUp x => rw [Met, hheld, holds, Bool.not_eq_true']

namespace Machine

/-! ## Where an instruction leads -/

/-- The address at which an instruction goes on. -/
inductive LeadsTo (m : Machine) : Instruction → Int → Prop
  | jump (target : Address) : LeadsTo m (.jump target) target.val
  | call (target : Address) : LeadsTo m (.call target) target.val
  | jumpOffset (target : Address) :
    LeadsTo m (.jumpOffset target) (target.val + (m.registers.get firstRegister).toNat)
  /-- A return goes on after the newest call. -/
  | ret {address : UInt16} {older : List UInt16} (newest : m.registers.stack = address :: older) :
    LeadsTo m .ret (address.toNat + 2)
  | skipped {condition : Condition} (met : condition.Met m) :
    LeadsTo m (.skip condition) (m.registers.pc + 4)
  | notSkipped {condition : Condition} (unmet : ¬ condition.Met m) :
    LeadsTo m (.skip condition) (m.registers.pc + 2)
  /-- The program counter stays until the wait ends. -/
  | awaitKey (x : Register) : LeadsTo m (.awaitKey x) m.registers.pc
  | next {i : Instruction} (goesOn : i.goesOn = true) : LeadsTo m i (m.registers.pc + 2)

/-- What stops an instruction besides where it leads. -/
inductive Hindered (m : Machine) : Instruction → Fault → Prop
  | full {target : Address} (depth : m.registers.stack.length = 16) :
    Hindered m (.call target) .stackOverflow
  | empty (depth : m.registers.stack = []) : Hindered m .ret .stackUnderflow
  /-- The bytes at the index register are refused. -/
  | range {i : Instruction} {length : Nat} {fault : Fault} (transfer : i.transfer? = some length)
    (refused : m.memory.check m.registers.index length = .error fault) : Hindered m i fault

section Instruction

variable {m : Machine} {i : Instruction} {target : Int} {fault : Fault}

theorem target_of_goesOn (h : i.goesOn = true) : m.target i = m.registers.pc + 2 := by
  cases i with
  | ret | jump _ | call _ | jumpOffset _ | skip _ | awaitKey _ | unknown _ => cases h
  | _ => rfl

theorem LeadsTo.eq_target (h : LeadsTo m i target) : target = m.target i := by
  cases h with
  | jump _ | call _ | jumpOffset _ | awaitKey _ => rfl
  | ret newest => rw [Machine.target, newest, List.headD_cons]
  | skipped met => rw [Machine.target, (Condition.met_iff_holds m _).1 met, if_pos rfl]
  | notSkipped unmet =>
    rw [Condition.met_iff_holds] at unmet
    rw [Machine.target, if_neg unmet]
  | next goesOn => exact (target_of_goesOn goesOn).symm

/-- Only a return without a call leads nowhere. -/
theorem leadsTo_target (hknown : i.isKnown = true)
    (hcalled : ¬ (i = .ret ∧ m.registers.stack = [])) : LeadsTo m i (m.target i) := by
  cases i with
  | unknown _ => cases hknown
  | jump target => exact .jump target
  | call target => exact .call target
  | jumpOffset target => exact .jumpOffset target
  | awaitKey x => exact .awaitKey x
  | ret =>
    -- A return needs an address to lead to; all others lead somewhere in any state.
    cases hstack : m.registers.stack with
    | nil => exact absurd ⟨rfl, hstack⟩ hcalled
    | cons address older =>
      rw [target, hstack]
      exact .ret hstack
  | skip condition =>
    rw [target]
    split
    · next hholds => exact .skipped ((Condition.met_iff_holds m _).2 hholds)
    · next hholds => exact .notSkipped (mt (Condition.met_iff_holds m _).1 hholds)
  | _ => exact .next rfl

/-! ## What stops it -/

theorem hindered_iff (hknown : i.isKnown = true) :
    Hindered m i fault ↔ m.workFault? i = some fault := by
  constructor
  · intro h
    cases h with
    | full depth => exact if_pos depth
    | empty depth => exact if_pos depth
    | range transfer refused =>
      rw [workFault?_of_transfer transfer, rangeFault?, Memory.refusal?, refused]
  · intro h
    have hrange {length : Nat} (hfault : m.rangeFault? length = some fault) :
        m.memory.check m.registers.index length = .error fault := by
      unfold rangeFault? Memory.refusal? at hfault
      split at hfault <;> cases hfault
      assumption
    cases i with
    | unknown _ => cases hknown
    | draw _ _ _ | decimal _ | store _ | load _ => exact .range rfl (hrange h)
    | ret =>
      simp only [workFault?] at h
      split at h <;> cases h
      exact .empty ‹_›
    | call target =>
      simp only [workFault?] at h
      split at h <;> cases h
      exact .full ‹_›
    | _ => cases h

/-- An instruction that leads behind the end of memory is stopped by that. -/
theorem LeadsTo.fault?_of_outside (h : LeadsTo m i target) (houtside : 0xFFF < target) :
    m.fault? i = some (.programCounter target) := by
  have hgo : goFault? (m.target i) = some (.programCounter target) := by
    rw [← h.eq_target]
    refine goFault?_eq_some.2 ⟨?_, rfl⟩
    unfold memorySize
    omega
  unfold fault?
  rw [hgo]
  cases h with
  -- A call never leads outside, and a return that leads somewhere has an address.
  | call address =>
    have hlt := address.isLt
    omega
  | ret newest => simp [workFault?, newest, Instruction.goesOn]
  | next goesOn => rw [if_pos goesOn, Option.some_or]
  | jump _ | jumpOffset _ | skipped _ | notSkipped _ | awaitKey _ => rfl

/-- One that leads into memory is stopped by its work only. -/
theorem LeadsTo.fault?_of_inside (h : LeadsTo m i target) (hinside : target ≤ 0xFFF) :
    m.fault? i = m.workFault? i := by
  have hgo : goFault? (m.target i) = none := by
    rw [← h.eq_target, goFault?_eq_none]
    unfold memorySize
    omega
  unfold fault?
  rw [hgo, Option.none_or, Option.or_none, ite_self]

end Instruction

/-! ## Cycles -/

/-- The word at the program counter is found unless that is the last byte of memory. -/
theorem Sound.readWord_pc {m : Machine} (h : m.Sound) (hpc : m.registers.pc ≤ 0xFFE) :
    m.memory.readWord m.registers.pc = .ok (m.memory.word m.registers.pc) := by
  refine Memory.readWord_eq_ok.2 ⟨⟨h.pc_nonneg, ?_⟩, rfl⟩
  rw [h.memory_size]
  unfold memorySize
  omega

/-- **Where a cycle goes on.** -/
theorem cycle_leadsTo {m : Machine} (hm : m.Reachable) (hwait : m.waiting = false)
    (hpc : m.registers.pc ≤ 0xFFE) {i : Instruction}
    (hword : Instruction.decode (m.memory.word m.registers.pc) = i) (hknown : i.isKnown = true) :
    (∀ target, LeadsTo m i target →
      (0xFFF < target → cycle m = .error (.programCounter target) m) ∧
      (target ≤ 0xFFF →
        (∀ fault, Hindered m i fault → cycle m = .error fault m) ∧
        ((∀ fault, ¬ Hindered m i fault) →
          ∃ m', cycle m = .ok (some i) m' ∧ m'.registers.pc = target))) ∧
    ((∃ target, ∀ other, LeadsTo m i other ↔ other = target) ∨
      (i = .ret ∧ m.registers.stack = []) ∧ cycle m = .error .stackUnderflow m) := by
  have h : m.Sound := hm.sound
  have hread := h.readWord_pc hpc
  have hstop {fault : Fault} (hfault : m.fault? i = some fault) : cycle m = .error fault m := by
    rw [← hword] at hfault
    exact (Stops.word hwait hread hfault).cycle_eq h.memory_size
  refine ⟨fun target hleads => ⟨fun houtside => ?_, fun hinside => ⟨fun fault hhindered => ?_,
    fun hfree => ?_⟩⟩, ?_⟩
  · exact hstop (hleads.fault?_of_outside houtside)
  · exact hstop ((hleads.fault?_of_inside hinside).trans ((hindered_iff hknown).1 hhindered))
  · have hnone : m.fault? i = none := by
      rw [hleads.fault?_of_inside hinside, Option.eq_none_iff_forall_ne_some]
      exact fun fault hwork => hfree fault ((hindered_iff hknown).2 hwork)
    subst hword
    exact ⟨_, (Cycles.word hwait hread hnone).cycle_eq, hleads.eq_target.symm⟩
  · by_cases hcalled : i = .ret ∧ m.registers.stack = []
    -- Without an open call the return has no target, and underflows.
    · refine .inr ⟨hcalled, hstop ?_⟩
      obtain ⟨rfl, hstack⟩ := hcalled
      simp [fault?, workFault?, hstack, Instruction.goesOn]
    · refine .inl ⟨m.target i, fun other => ⟨LeadsTo.eq_target, ?_⟩⟩
      rintro rfl
      exact leadsTo_target hknown hcalled

/-- A machine at the last word of memory, which stores three digits at the last byte. -/
def digitsAtEnd : Machine :=
  (programmed [0xAF, 0xFF, 0x1F, 0xFE]).afterAll [.cycle, .cycle, .load [0xF0, 0x33] 0xFFE]

/-- The digits do not fit, but the machine is stopped because there is no next word. -/
theorem cycle_leadsTo_digitsAtEnd :
    digitsAtEnd.Reachable ∧ digitsAtEnd.waiting = false ∧ digitsAtEnd.registers.pc = 0xFFE ∧
      Instruction.decode (digitsAtEnd.memory.word digitsAtEnd.registers.pc) = .decimal 0 ∧
      (Instruction.decimal 0).isKnown = true ∧
      Hindered digitsAtEnd (.decimal 0) (.memory 0x1000) ∧
      LeadsTo digitsAtEnd (.decimal 0) 0x1000 ∧
      cycle digitsAtEnd = .error (.programCounter 0x1000) digitsAtEnd := by
  let program : List UInt8 := [0xAF, 0xFF, 0x1F, 0xFE]
  let start := programmed program
  let far := (start.afterWord 0xAFFF).afterWord 0x1FFE
  have hprogram : start.memory = (Memory.blank memorySize).loadFont.put programBase program := rfl
  have hset : Cycles start (some (Instruction.decode 0xAFFF)) (start.afterWord 0xAFFF) :=
    .of_program (k := 0) hprogram (by decide) rfl rfl rfl rfl (by decide)
  have hjump : Cycles (start.afterWord 0xAFFF) (some (Instruction.decode 0x1FFE)) far :=
    .of_program (k := 2) hprogram (by decide) rfl rfl rfl rfl (by decide)
  have hsize : far.memory.size = memorySize := rfl
  have heq : digitsAtEnd = { far with memory := far.memory.put 0xFFE [0xF0, 0x33] } := by
    rw [digitsAtEnd, hset.afterAll_cons, hjump.afterAll_cons, afterAll_cons, afterAll_nil,
      after_load, hsize, if_neg (by decide)]
  have hm : digitsAtEnd.Reachable := (reachable_programmed program).afterAll _
  have hbytes : far.memory.bytes.size = far.memory.size :=
    (Memory.size_bytes_put _ _ _).trans Memory.size_bytes_loadFont_blank
  have hread : (far.memory.put 0xFFE [0xF0, 0x33]).readWord 0xFFE = .ok 0xF033 :=
    Memory.readWord_put hbytes (by decide) (by decide)
  have hpc : digitsAtEnd.registers.pc = 0xFFE := by rw [heq]; rfl
  have hwait : digitsAtEnd.waiting = false := by rw [heq]; rfl
  have hindex : digitsAtEnd.registers.index = 0xFFF := by rw [heq]; rfl
  have hdecode : Instruction.decode (digitsAtEnd.memory.word digitsAtEnd.registers.pc) =
      .decimal 0 := by
    rw [hpc, heq, (Memory.readWord_eq_ok.1 hread).2]
    decide
  have hleads : LeadsTo digitsAtEnd (.decimal 0) 0x1000 := by
    have hnext := LeadsTo.next (m := digitsAtEnd) (i := .decimal 0) rfl
    rwa [hpc] at hnext
  have hhindered : Hindered digitsAtEnd (.decimal 0) (.memory 0x1000) := by
    have hmax : max (0xFFF : Int) memorySize = 0x1000 := by decide
    rw [hindered_iff rfl, workFault?, rangeFault?, hindex,
      refusal?_of_lt_end hm.sound.memory_size (by decide) (by decide), hmax]
  have hcycle := ((cycle_leadsTo hm hwait (Int.le_of_eq hpc) hdecode rfl).1 _ hleads).1
    (by decide)
  exact ⟨hm, hwait, hpc, hdecode, rfl, hhindered, hleads, hcycle⟩

end Machine

end ChipEight
