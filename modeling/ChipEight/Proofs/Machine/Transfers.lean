import ChipEight.Proofs.Machine.Invariant
import ChipEight.Proofs.Places

/-!
# Bytes at the index register

Four instructions read or write bytes from where the index register points on: the digits of a
register, the registers that are stored or loaded, and the rows of a sprite. With sixteen bits the
index register can point far behind memory.

**Theorem (`cycle_transfer`).** Such an instruction is stopped if one of its bytes is not in memory,
and then the fault names the first address that is not. If all of them are, it is executed, with one
exception: a sprite without rows has no byte at all, and is stopped all the same if the index
register points behind the end of memory. At the end itself it is not stopped.

The exception comes from the check of a range, which compares where the range ends: an empty one
ends where it begins (`lt_end_iff`).
-/

namespace ChipEight

/-- How many bytes an instruction reads or writes at the index register, if it is one that does. -/
def Instruction.transfer? : Instruction → Option Nat
  | .draw _ _ rows => some rows.val
  | .decimal _ => some 3
  | .store x | .load x => some (x.val + 1)
  | _ => none

namespace Machine

/-! ## The check of the range -/

/-- A range ends behind memory if one of its bytes is not in memory, or if it is empty and begins
there. -/
theorem lt_end_iff (start : Int) (length : Nat) :
    memorySize < start + length ↔
      (∃ k < length, 0xFFF < start + (k : Int)) ∨ length = 0 ∧ 0x1000 < start := by
  unfold memorySize
  constructor
  · intro h
    cases length with
    | zero => exact .inr ⟨rfl, by omega⟩
    | succ last => exact .inl ⟨last, by omega, by omega⟩
  · rintro (⟨k, hk, h⟩ | ⟨rfl, h⟩) <;> omega

theorem refusal?_of_lt_end {mem : Memory} {start : Int} {length : Nat}
    (hsize : mem.size = memorySize) (h0 : 0 ≤ start) (h : memorySize < start + length) :
    mem.refusal? start length = some (.memory (max start memorySize)) := by
  unfold Memory.refusal? Memory.check
  rw [hsize, if_pos (.inr h)]
  by_cases hstart : memorySize ≤ start
  · rw [if_pos (.inr hstart), Int.max_eq_left hstart]
  · rw [if_neg (by omega), Int.max_eq_right (by omega)]

/-! ## What stops a transfer -/

section Transfer

variable {m : Machine} {i : Instruction} {length : Nat}

theorem target_of_transfer (h : i.transfer? = some length) : m.target i = m.registers.pc + 2 := by
  cases i with
  | draw _ _ _ | decimal _ | store _ | load _ => rfl
  | _ => cases h

theorem workFault?_of_transfer (h : i.transfer? = some length) :
    m.workFault? i = m.rangeFault? length := by
  cases i with
  | draw _ _ _ | decimal _ | store _ | load _ =>
    cases h
    rfl
  | _ => cases h

/-- Where there is a next word, only the range can stop a transfer. -/
theorem fault?_of_transfer (h : i.transfer? = some length)
    (hpc : m.registers.pc + 2 < memorySize) : m.fault? i = m.rangeFault? length := by
  have hgoes : i.goesOn = true := by
    cases i with
    | draw _ _ _ | decimal _ | store _ | load _ => rfl
    | _ => cases h
  rw [fault?, if_pos hgoes, target_of_transfer h, goFault?_eq_none.2 hpc, Option.none_or,
    workFault?_of_transfer h]

/-- Only sprites can be without bytes. -/
theorem exists_draw_of_transfer (h : i.transfer? = some 0) :
    ∃ x y rows, i = .draw x y rows ∧ rows.val = 0 := by
  cases i with
  | draw x y rows => exact ⟨x, y, rows, rfl, Option.some.inj h⟩
  | _ => cases h

end Transfer

/-- The machine after a sprite without rows: no cell is lit or dark for it. -/
def afterNoRows (m : Machine) (word : UInt16) : Machine :=
  let next := m.registers.pc + 2
  { m with
    screen := { m.screen with dirty := true }
    registers := { m.registers.set flagRegister 0 with pc := next }
    executed := m.executed + 1
    last := some (Instruction.decode word)
    trace :=
      if m.tracing then m.trace.push ⟨m.registers.pc, word, Instruction.decode word, next⟩
      else m.trace }

theorem Sound.afterWord_noRows {m : Machine} (h : m.Sound) {word : UInt16}
    (hempty : (Instruction.decode word).transfer? = some 0)
    (hindex : m.registers.index ≤ memorySize) : m.afterWord word = m.afterNoRows word := by
  obtain ⟨x, y, rows, hi, hrows⟩ := exists_draw_of_transfer hempty
  have hblock : m.memory.block m.registers.index (0 : Nat) = [] := by
    rw [Memory.block_eq_take h.index_nonneg (by rw [h.bytes_size]; omega), List.take_zero]
  have heffect : m.effect (Instruction.decode word) = m.drawn x y [] := by
    rw [hi, Machine.effect, hrows, hblock]
  rw [Machine.afterWord, heffect, target_of_transfer hempty]
  rfl

/-! ## Transfers -/

/-- **A transfer is stopped where memory ends.** -/
theorem cycle_transfer {m : Machine} (hm : m.Reachable) (hwait : m.waiting = false)
    (hpc : m.registers.pc ≤ 0xFFC) {word : UInt16}
    (hword : m.memory.readWord m.registers.pc = .ok word) {length : Nat}
    (htransfer : (Instruction.decode word).transfer? = some length) :
    let index := m.registers.index
    let outside := ∃ k < length, 0xFFF < index + (k : Int)
    let emptyBehind := length = 0 ∧ 0x1000 < index
    (outside ∨ emptyBehind → cycle m = .error (.memory (max index 0x1000)) m) ∧
      (¬ (outside ∨ emptyBehind) →
        cycle m = .ok (some (Instruction.decode word)) (m.afterWord word)) ∧
      (length = 0 ∧ ¬ emptyBehind →
        cycle m = .ok (some (Instruction.decode word)) (m.afterNoRows word)) ∧
      (emptyBehind → m.variant.indexWrap = false) := by
  intro index outside emptyBehind
  have h : m.Sound := hm.sound
  have hnext : m.registers.pc + 2 < memorySize := by
    unfold memorySize
    omega
  have hfault := fault?_of_transfer htransfer hnext
  have hend : memorySize < index + length ↔ outside ∨ emptyBehind := lt_end_iff index length
  -- With a next word in memory nothing but the range can stop the transfer.
  have hfree (hnot : ¬ (outside ∨ emptyBehind)) :
      cycle m = .ok (some (Instruction.decode word)) (m.afterWord word) := by
    have hinside : index + length ≤ memorySize := by
      rw [← hend] at hnot
      omega
    have hnone : m.rangeFault? length = none := by
      refine Memory.refusal?_eq_none.2 ⟨h.index_nonneg, ?_⟩
      rwa [h.memory_size]
    exact (Cycles.word hwait hword (hfault.trans hnone)).cycle_eq
  refine ⟨fun hout => ?_, hfree, ?_, ?_⟩
  · have hsome := refusal?_of_lt_end h.memory_size h.index_nonneg (hend.2 hout)
    exact (Stops.word hwait hword (hfault.trans hsome)).cycle_eq h.memory_size
  -- An empty range ends where it starts, so the index register is the end of memory at most.
  · rintro ⟨rfl, hnot⟩
    have hindex : index ≤ memorySize := by
      unfold memorySize
      omega
    have hinside : ¬ (outside ∨ emptyBehind) := by
      rintro (⟨k, hk, -⟩ | hbehind)
      · omega
      · exact hnot hbehind
    rw [hfree hinside, h.afterWord_noRows htransfer hindex]
  -- An index register that wraps never gets behind the end of memory.
  · rintro ⟨-, hbehind⟩
    have hlt := h.index_lt
    unfold indexBound at hlt
    cases hwrap : m.variant.indexWrap with
    | false => rfl
    | true =>
      rw [hwrap, if_pos rfl] at hlt
      omega

/-- A machine with sixteen bits in its index register, and a program. -/
def wideWith (program : List UInt8) : Machine :=
  (fresh (.ofBytes []) ⟨false, false⟩).afterAll [.load program programBase]

theorem reachable_wideWith (program : List UInt8) : (wideWith program).Reachable := ⟨_, _, _, rfl⟩

/-- The index register points at the last byte of memory, where three digits do not fit. -/
theorem cycle_transfer_lastByte :
    let m := (wideWith [0xAF, 0xFF, 0xF0, 0x33]).afterWord 0xAFFF
    m.Reachable ∧ m.waiting = false ∧ m.registers.pc ≤ 0xFFC ∧
      m.memory.readWord m.registers.pc = .ok 0xF033 ∧
      (Instruction.decode 0xF033).transfer? = some 3 ∧ m.registers.index = 0xFFF ∧
      cycle m = .error (.memory 0x1000) m := by
  let start := wideWith [0xAF, 0xFF, 0xF0, 0x33]
  have hprogram : start.memory =
      (Memory.blank memorySize).loadFont.put programBase [0xAF, 0xFF, 0xF0, 0x33] := rfl
  have hset : Cycles start (some (Instruction.decode 0xAFFF)) (start.afterWord 0xAFFF) :=
    .of_program (k := 0) hprogram (by decide) rfl rfl rfl rfl (by decide)
  have hm : (start.after .cycle).Reachable := (reachable_wideWith _).after .cycle
  rw [after_cycle_of_cycles hset] at hm
  have hword : (start.afterWord 0xAFFF).memory.readWord 0x202 = .ok 0xF033 :=
    readWord_of_program (k := 2) hprogram (by decide) rfl rfl rfl
  have hstops := (cycle_transfer hm rfl (by decide) hword rfl).1
  exact ⟨hm, rfl, by decide, hword, rfl, rfl, hstops (.inl ⟨1, by decide, by decide⟩)⟩

/-- A machine at a sprite without rows, with the index register behind the end of memory. -/
def atNoRows : Machine :=
  (wideWith [0xAF, 0xFF, 0x60, 0x02, 0xF0, 0x1E, 0xD0, 0x00]).afterAll [.cycle, .cycle, .cycle]

/-- **A sprite without rows is stopped although it has no byte outside memory.** -/
theorem cycle_atNoRows :
    atNoRows.Reachable ∧ atNoRows.waiting = false ∧ atNoRows.registers.pc = 0x206 ∧
      atNoRows.memory.readWord 0x206 = .ok 0xD000 ∧
      (Instruction.decode 0xD000).transfer? = some 0 ∧
      atNoRows.registers.index = 0x1001 ∧ cycle atNoRows = .error (.memory 0x1001) atNoRows := by
  let program : List UInt8 := [0xAF, 0xFF, 0x60, 0x02, 0xF0, 0x1E, 0xD0, 0x00]
  let start := wideWith program
  let far := (start.afterWord 0xAFFF).afterWord 0x6002
  have hprogram : start.memory = (Memory.blank memorySize).loadFont.put programBase program := rfl
  have hset : Cycles start (some (Instruction.decode 0xAFFF)) (start.afterWord 0xAFFF) :=
    .of_program (k := 0) hprogram (by decide) rfl rfl rfl rfl (by decide)
  have htwo : Cycles (start.afterWord 0xAFFF) (some (Instruction.decode 0x6002)) far :=
    .of_program (k := 2) hprogram (by decide) rfl rfl rfl rfl (by decide)
  have hadd : Cycles far (some (Instruction.decode 0xF01E)) (far.afterWord 0xF01E) :=
    .of_program (k := 4) hprogram (by decide) rfl rfl rfl rfl (by decide)
  have heq : atNoRows = far.afterWord 0xF01E := by
    rw [atNoRows, afterAll_cons, after_cycle_of_cycles hset, afterAll_cons,
      after_cycle_of_cycles htwo, afterAll_cons, after_cycle_of_cycles hadd, afterAll_nil]
  have hm : atNoRows.Reachable := (reachable_wideWith _).afterAll _
  have hword : (far.afterWord 0xF01E).memory.readWord 0x206 = .ok 0xD000 :=
    readWord_of_program (k := 6) hprogram (by decide) rfl rfl rfl
  have hstops : Stops (far.afterWord 0xF01E) (.memory 0x1001) := .word rfl hword (by decide)
  have hcycle := hstops.cycle_eq rfl
  rw [← heq] at hcycle hword
  refine ⟨hm, ?_, ?_, hword, rfl, ?_, hcycle⟩ <;> rw [heq] <;> rfl

end Machine

end ChipEight
