import ChipEight.Proofs.Machine.Invariant
import ChipEight.Proofs.Places

/-!
# Nothing outside the bounds

A cycle of a machine reads and writes bytes, cells and return addresses at places that it computes.
Its accesses never complain: a place that does not exist reads as zero, and what is put there is
lost. Here the cycle is made once more with accesses that do (`guardedCycle`). It is stopped by a
mishap when it comes to a place that does not exist, when it takes a press that is not there, when
the bytes for the first registers are too many or too few, or when nobody can execute the
instruction. Registers and keys are not guarded, because there is one for every number that can name
one.

**Theorem (`cycle_safe`).** In every machine that comes about by calls from one that was just
switched on, the guarded cycle does what the cycle does, so there is never a mishap. A cycle gives
an instruction, gives nothing or is stopped by a fault, and the fault says what was the matter: it
names an address outside memory, or a full or an empty stack was used, or the two bytes at the
program counter make a word that stands for no instruction.

The bounds that the accesses need are those of the invariant.
-/

namespace ChipEight

/-- The newest return address, the place of which has to exist among those in use. -/
def Registers.newest? (r : Registers) : Option UInt16 :=
  itemAt? r.calls.toArray (r.stack.length - 1)

theorem Registers.newest?_eq {r : Registers} {address : UInt16} {rest : List UInt16}
    (h : r.stack = address :: rest) : r.newest? = some address := by
  have hplace : ((r.stack.length : Int) - 1).toNat = rest.length := by
    rw [h, List.length_cons]
    omega
  have hnonneg : 0 ≤ (r.stack.length : Int) - 1 := by
    rw [h, List.length_cons]
    omega
  rw [newest?, itemAt?, if_pos hnonneg, hplace, calls, h]
  simp

theorem Instruction.decode_eq_unknown {word : UInt16} (h : (decode word).isKnown = false) :
    decode word = .unknown word := by
  cases hi : decode word with
  | unknown other => rw [eq_of_decode_unknown hi]
  | _ =>
    rw [hi] at h
    cases h

namespace Machine

/-! ## Mishaps -/

/-- What stops a guarded action. -/
inductive Mishap where
  /-- A fault of the machine. -/
  | fault (fault : Fault)
  /-- A place that does not exist. -/
  | noPlace
  /-- A press that is not there. -/
  | noPress
  /-- An instruction that nobody can execute. -/
  | noHandler
  deriving Repr, DecidableEq

/-- What changes a machine and may be stopped by a mishap. -/
abbrev Guarded := EStateM Mishap Machine

/-- An action as a guarded one; its faults are mishaps. -/
def guarded {α : Type} (action : Action α) : Guarded α := fun m =>
  match action m with
  | .ok a m' => .ok a m'
  | .error fault m' => .error (.fault fault) m'

/-- The result of an access, or the mishap that a place does not exist. -/
def demand {α : Type} : Option α → Guarded α
  | some a => pure a
  | none => throw .noPlace

/-! ## Guarded accesses -/

/-- Return from a subroutine. -/
def guardedReturn : Guarded Int := do
  let r := (← get).registers
  if r.stack = [] then
    throw (.fault .stackUnderflow)
  else
    let address ← demand r.newest?
    guarded (checkTarget (address.toNat + 2))
    guarded (onRegisters fun r => { r with stack := r.stack.tail })
    return address.toNat + 2

/-- Call a subroutine. The slot after the addresses in use has to exist. -/
def guardedCall (target : Address) : Guarded Int := do
  let r := (← get).registers
  if r.stack.length = stackDepth then throw (.fault .stackOverflow)
  if stackDepth ≤ r.stack.length then throw .noPlace
  guarded (onRegisters fun r => { r with stack := wrapWord r.pc :: r.stack })
  return target.val

/-- Bytes from where the index register points, after the range was checked. -/
def guardedRead (length : Nat) : Guarded (List UInt8) := do
  let m ← get
  guarded (attempt (m.memory.check m.registers.index length))
  demand (m.memory.blockAt? m.registers.index length)

/-- Draw the sprite that the index register points at. -/
def guardedDraw (x y : Register) (rows : Fin 16) : Guarded Unit := do
  let sprite ← guardedRead rows.val
  let m ← get
  let drawing ←
    demand (m.screen.drawAt? (m.registers.get x).toNat (m.registers.get y).toNat sprite)
  guarded <| modify fun m =>
    { m with
      screen := drawing.2
      registers := m.registers.set flagRegister (if drawing.1 then 1 else 0) }

/-- Write bytes to where the index register points. -/
def guardedWrite (values : List UInt8) : Guarded Unit := do
  let m ← get
  guarded (attempt (m.memory.check m.registers.index values.length))
  let bytes ← demand (overwriteAt? m.memory.bytes m.registers.index values)
  guarded (modify fun m => { m with memory := { m.memory with bytes } })

/-- Load the registers up to `x`. There has to be a byte for each of them and no more. -/
def guardedLoad (x : Register) : Guarded Unit := do
  let values ← guardedRead (x.val + 1)
  if values.length = x.val + 1 then
    guarded (onRegisters (·.setFirst values))
  else
    throw .noPlace

/-- The work of an instruction that goes on to the next word. -/
def guardedPerform : Instruction → Guarded Unit
  | .draw x y rows => guardedDraw x y rows
  | .decimal x => do guardedWrite (decimalDigits ((← get).registers.get x))
  | .store x => do guardedWrite ((← get).registers.upTo x)
  | .load x => guardedLoad x
  | instruction => guarded (perform instruction)

/-- Execute an instruction and give the address to go on at. -/
def guardedExecute (i : Instruction) : Guarded Int :=
  match i with
  | .ret => guardedReturn
  | .call target => guardedCall target
  | .unknown _ => throw .noHandler
  | .jump _ | .jumpOffset _ | .skip _ | .awaitKey _ => guarded (execute i)
  | i => do
    let target ← guarded following
    guarded (checkTarget target)
    guardedPerform i
    return target

/-! ## Guarded cycles -/

/-- A guarded cycle of a machine that does not wait. A word that stands for no instruction stops it
before anybody is asked to execute one. -/
def guardedStep : Guarded Instruction := do
  let m ← get
  let pc := m.registers.pc
  guarded (attempt (m.memory.check pc 2))
  let word ← demand (m.memory.wordAt? pc)
  let instruction := Instruction.decode word
  if instruction.isKnown then
    let target ← guardedExecute instruction
    guarded do
      goTo target
      modify (·.record ⟨pc, word, instruction, target⟩)
      return instruction
  else
    throw (.fault (.invalidOpcode pc word))

/-- A guarded cycle of a waiting machine. What is taken has to be a press. -/
def guardedPoll : Guarded Unit := do
  let m ← get
  if m.keypad.pending.isSome then
    let target := m.registers.pc + 2
    guarded (checkTarget target)
    match m.keypad.take with
    | (none, _) => throw .noPress
    | (some key, keypad) =>
      guarded <| modify fun m =>
        { m with
          registers := { m.registers.set m.waitTarget (UInt8.ofNat key.val) with pc := target }
          keypad
          waiting := false }

/-- One guarded cycle. -/
def guardedCycle : Guarded (Option Instruction) := do
  if (← get).waiting then
    guardedPoll
    return none
  else
    return some (← guardedStep)

/-! ## Guarded actions -/

section Actions

variable {α β : Type} {m m' : Machine}

theorem guarded_of_ok {action : Action α} {a : α} (h : action m = .ok a m') :
    guarded action m = .ok a m' := by
  rw [guarded, h]

theorem guarded_of_error {action : Action α} {fault : Fault} (h : action m = .error fault m') :
    guarded action m = .error (.fault fault) m' := by
  rw [guarded, h]

/-- If the first part of an action does what a guarded one does, so does the whole. -/
theorem guarded_bind {action : Action α} {first : Guarded α} {next : α → Action β}
    {rest : α → Guarded β} (hfirst : first m = guarded action m)
    (hrest : ∀ a m', action m = .ok a m' → rest a m' = guarded (next a) m') :
    (first >>= rest) m = guarded (action >>= next) m := by
  cases h : action m with
  | ok a m' =>
    have hguarded := hfirst.trans (guarded_of_ok h)
    rw [bind_of_ok hguarded, hrest a m' h]
    unfold guarded
    rw [bind_of_ok h]
  | error fault m' =>
    have hguarded := hfirst.trans (guarded_of_error h)
    rw [bind_of_error hguarded, guarded_of_error (bind_of_error h)]

end Actions

/-! ## The guarded accesses of a machine -/

theorem guarded_check (m : Machine) (start length : Int) :
    guarded (attempt (m.memory.check start length)) m =
      match m.memory.refusal? start length with
      | some fault => .error (.fault fault) m
      | none => .ok () m := by
  unfold Memory.refusal?
  cases m.memory.check start length <;> rfl

theorem demand_bind {α β : Type} {m : Machine} {access : Option α} {a : α} (h : access = some a)
    (next : α → Guarded β) : (demand access >>= next) m = next a m := by
  rw [h]
  rfl

namespace Sound

variable {m : Machine} (h : m.Sound)

include h

theorem guardedRead_eq (length : Nat) :
    guardedRead length m = match m.rangeFault? length with
      | some fault => .error (.fault fault) m
      | none => .ok (m.memory.block m.registers.index length) m := by
  have hcheck := guarded_check m m.registers.index length
  unfold guardedRead
  rw [get_bind]
  unfold rangeFault?
  cases hrange : m.memory.refusal? m.registers.index length with
  | some fault => exact bind_of_error (by rw [hcheck, hrange])
  | none =>
    obtain ⟨h0, h1⟩ := Memory.refusal?_eq_none.1 hrange
    rw [h.memory_size, ← h.bytes_size] at h1
    rw [bind_of_ok (by rw [hcheck, hrange]), Memory.blockAt?_eq h0 h1]
    rfl

theorem guardedDraw_eq (x y : Register) (rows : Fin 16) :
    guardedDraw x y rows m = guarded (executeDraw x y rows) m := by
  have hread := h.guardedRead_eq rows.val
  unfold guardedDraw
  cases hrange : m.rangeFault? rows.val with
  | some fault =>
    rw [bind_of_error (by rw [hread, hrange]),
      guarded_of_error (by rw [executeDraw_eq, hrange])]
  | none =>
    have hplain : guarded (executeDraw x y rows) m = .ok () (m.effect (.draw x y rows)) :=
      guarded_of_ok (by rw [executeDraw_eq, hrange])
    rw [bind_of_ok (by rw [hread, hrange]), get_bind,
      demand_bind (Framebuffer.drawAt?_eq h.width_eq h.height_eq h.cells_size _ _ _), hplain]
    rfl

theorem guardedWrite_eq (values : List UInt8) :
    guardedWrite values m = guarded (executeWrite values) m := by
  have hcheck := guarded_check m m.registers.index values.length
  unfold guardedWrite
  rw [get_bind]
  cases hrange : m.memory.refusal? m.registers.index values.length with
  | some fault =>
    rw [bind_of_error (by rw [hcheck, hrange]),
      guarded_of_error (by rw [executeWrite_eq, rangeFault?, hrange])]
  | none =>
    obtain ⟨h0, h1⟩ := Memory.refusal?_eq_none.1 hrange
    rw [h.memory_size, ← h.bytes_size] at h1
    have hplain : guarded (executeWrite values) m = .ok () (m.written values) :=
      guarded_of_ok (by rw [executeWrite_eq, rangeFault?, hrange])
    rw [bind_of_ok (by rw [hcheck, hrange]), demand_bind (overwriteAt?_eq h0 h1), hplain]
    rfl

theorem guardedLoad_eq (x : Register) : guardedLoad x m = guarded (executeLoad x) m := by
  have hread := h.guardedRead_eq (x.val + 1)
  unfold guardedLoad
  cases hrange : m.rangeFault? (x.val + 1) with
  | some fault =>
    rw [bind_of_error (by rw [hread, hrange]),
      guarded_of_error (by rw [executeLoad_eq, hrange])]
  | none =>
    obtain ⟨h0, h1⟩ := Memory.refusal?_eq_none.1 hrange
    rw [h.memory_size, ← h.bytes_size] at h1
    have hlength := Memory.length_blockAt? (Memory.blockAt?_eq h0 h1)
    have hplain : guarded (executeLoad x) m = .ok () (m.effect (.load x)) :=
      guarded_of_ok (by rw [executeLoad_eq, hrange])
    rw [bind_of_ok (by rw [hread, hrange]), if_pos hlength, hplain]
    rfl

/-! ### Instructions -/

theorem guardedPerform_eq (i : Instruction) : guardedPerform i m = guarded (perform i) m := by
  cases i with
  | draw x y rows => exact h.guardedDraw_eq x y rows
  | decimal x =>
    refine guarded_bind (rfl : (get : Guarded Machine) m = guarded get m) fun _ _ hget => ?_
    cases hget
    exact h.guardedWrite_eq (decimalDigits (m.registers.get x))
  | store x =>
    refine guarded_bind (rfl : (get : Guarded Machine) m = guarded get m) fun _ _ hget => ?_
    cases hget
    exact h.guardedWrite_eq (m.registers.upTo x)
  | load x => exact h.guardedLoad_eq x
  | _ => rfl

omit h in
theorem guardedReturn_eq (m : Machine) : guardedReturn m = guarded (execute .ret) m := by
  unfold guardedReturn
  rw [get_bind]
  cases hstack : m.registers.stack with
  | nil =>
    have hfault : m.fault? .ret = some .stackUnderflow := by
      simp [fault?, workFault?, hstack, Instruction.goesOn]
    rw [guarded_of_error (by rw [execute_ret, hfault])]
    rfl
  | cons address rest =>
    have htarget : m.target .ret = address.toNat + 2 := by simp [target, hstack]
    have hfault : m.fault? .ret = goFault? (address.toNat + 2) := by
      simp [fault?, workFault?, hstack, htarget, Instruction.goesOn]
    rw [if_neg (List.cons_ne_nil address rest), demand_bind (Registers.newest?_eq hstack)]
    cases hgo : goFault? (address.toNat + 2) with
    | some fault =>
      rw [guarded_of_error (by rw [execute_ret, hfault, hgo])]
      exact bind_of_error (guarded_of_error (by rw [checkTarget_eq, hgo]))
    | none =>
      rw [guarded_of_ok (by rw [execute_ret, hfault, hgo]), htarget]
      exact bind_of_ok (guarded_of_ok (by rw [checkTarget_eq, hgo]))

theorem guardedCall_eq (target : Address) :
    guardedCall target m = guarded (execute (.call target)) m := by
  have hdepth := h.depth_le
  -- An address of twelve bits is inside memory, so only a full stack can stop the call.
  have hgo : goFault? (m.target (.call target)) = none := goFault?_address target
  unfold guardedCall
  rw [get_bind]
  by_cases hfull : m.registers.stack.length = stackDepth
  · have hfault : m.fault? (.call target) = some .stackOverflow := by
      simp [fault?, workFault?, hfull, Instruction.goesOn]
    rw [if_pos hfull, guarded_of_error (by rw [execute_call, hfault])]
    rfl
  · have hroom : ¬ stackDepth ≤ m.registers.stack.length := by omega
    have hfault : m.fault? (.call target) = none :=
      fault?_eq_none.2 ⟨hgo, if_neg hfull⟩
    rw [if_neg hfull, if_neg hroom, guarded_of_ok (by rw [execute_call, hfault])]
    rfl

theorem guardedExecute_eq {i : Instruction} (hknown : i.isKnown = true) :
    guardedExecute i m = guarded (execute i) m := by
  cases hgoes : i.goesOn with
  | true =>
    have hguarded : guardedExecute i m = (do
        guarded (checkTarget (m.registers.pc + 2))
        guardedPerform i
        return m.registers.pc + 2 : Guarded Int) m := by
      cases i <;> first | rfl | simp [Instruction.goesOn] at hgoes
    have hplain : guarded (execute i) m = guarded (do
        checkTarget (m.registers.pc + 2)
        perform i
        return m.registers.pc + 2) m := by
      cases i <;> first | rfl | simp [Instruction.goesOn] at hgoes
    rw [hguarded, hplain]
    refine guarded_bind rfl fun _ m' hcheck => ?_
    -- The check leaves the machine alone, so the work finds the one with the bounds.
    have hsame : m' = m := by
      rw [checkTarget_eq] at hcheck
      split at hcheck <;> cases hcheck
      rfl
    subst hsame
    exact guarded_bind (h.guardedPerform_eq i) fun _ _ _ => rfl
  | false =>
    cases i with
    -- The others choose where they go on, each in its own way.
    | ret => exact guardedReturn_eq m
    | call target => exact h.guardedCall_eq target
    | unknown word => cases hknown
    | jump _ | jumpOffset _ | skip _ | awaitKey _ => rfl
    | _ => cases hgoes

/-! ### Cycles -/

theorem guardedStep_eq : guardedStep m = guarded step m := by
  have hcheck := guarded_check m m.registers.pc 2
  have hread := m.memory.readWord_eq m.registers.pc
  unfold guardedStep
  rw [get_bind]
  cases hrange : m.memory.refusal? m.registers.pc 2 with
  | some fault =>
    rw [bind_of_error (by rw [hcheck, hrange]),
      guarded_of_error (step_of_fetchFault (by rw [hread, hrange]))]
  | none =>
    rw [hrange] at hread
    -- The store ends where the addresses end, so both bytes of the word are there.
    have hbounds := Memory.refusal?_eq_none.1 hrange
    rw [h.memory_size, ← h.bytes_size] at hbounds
    rw [bind_of_ok (by rw [hcheck, hrange]),
      demand_bind (Memory.wordAt?_eq hbounds.1 hbounds.2)]
    cases hknown : (Instruction.decode (m.memory.word m.registers.pc)).isKnown with
    | true =>
      have hfetch : attempt (m.memory.readWord m.registers.pc) m =
          .ok (m.memory.word m.registers.pc) m := by
        rw [hread, attempt_eq]
      have hstep : guarded step m = guarded (do
          let i := Instruction.decode (m.memory.word m.registers.pc)
          let target ← execute i
          goTo target
          modify (·.record ⟨m.registers.pc, m.memory.word m.registers.pc, i, target⟩)
          return i) m := by
        unfold guarded step
        rw [get_bind, bind_of_ok hfetch]
      rw [hstep]
      exact guarded_bind (h.guardedExecute_eq hknown) fun _ _ _ => rfl
    | false =>
      have hfault : m.fault? (Instruction.decode (m.memory.word m.registers.pc)) =
          some (.invalidOpcode m.registers.pc (m.memory.word m.registers.pc)) := by
        rw [Instruction.decode_eq_unknown hknown]
        rfl
      rw [guarded_of_error (step_of_fault h.memory_size hread hfault)]
      rfl

omit h in
theorem guardedPoll_eq (m : Machine) : guardedPoll m = guarded pollKey m := by
  unfold guardedPoll
  rw [get_bind]
  cases hpending : m.keypad.pending with
  | none =>
    rw [guarded_of_ok (pollKey_of_none hpending)]
    rfl
  | some key =>
    have hpoll := pollKey_of_some hpending
    rw [Keypad.take_of_pending hpending]
    cases hgo : goFault? (m.registers.pc + 2) with
    | some fault =>
      rw [guarded_of_error (by rw [hpoll, hgo])]
      exact bind_of_error (guarded_of_error (by rw [checkTarget_eq, hgo]))
    | none =>
      have hplain : guarded pollKey m = .ok () (m.afterKey key) :=
        guarded_of_ok (by rw [hpoll, hgo])
      rw [hplain, Machine.afterKey, Keypad.take_of_pending hpending]
      exact bind_of_ok (guarded_of_ok (by rw [checkTarget_eq, hgo]))

/-- **No place is missing.** The guarded cycle of a machine within its bounds does what its cycle
does. -/
theorem guardedCycle_eq : guardedCycle m = guarded cycle m := by
  unfold guardedCycle cycle
  rw [get_bind]
  cases hwait : m.waiting with
  | true =>
    have hcycle : guarded cycle m = guarded (do pollKey; return none) m := by
      rw [guarded, cycle_of_waiting hwait, guarded]
    exact (guarded_bind (guardedPoll_eq m) fun _ _ _ => rfl).trans hcycle.symm
  | false =>
    have hcycle : guarded cycle m = guarded (do return some (← step)) m := by
      rw [guarded, cycle_of_running hwait, guarded]
    exact (guarded_bind h.guardedStep_eq fun _ _ _ => rfl).trans hcycle.symm

end Sound

/-! ## Faults -/

/-- What is the matter with a machine whose cycle is stopped by a fault. -/
def Explains (m : Machine) : Fault → Prop
  | .memory address | .programCounter address => address < 0 ∨ 0xFFF < address
  | .stackOverflow => m.registers.stack.length = 16
  | .stackUnderflow => m.registers.stack = []
  | .invalidOpcode pc word =>
    pc = m.registers.pc ∧ Instruction.decode word = .unknown word ∧
      ∃ high low, itemAt? m.memory.bytes pc = some high ∧
        itemAt? m.memory.bytes (pc + 1) = some low ∧ word.toNat = high.toNat * 256 + low.toNat
  | .keyOutOfRange _ => False

theorem explains_of_goFault? {m : Machine} {target : Int} {fault : Fault}
    (h : goFault? target = some fault) : m.Explains fault := by
  obtain ⟨houtside, rfl⟩ := goFault?_eq_some.1 h
  unfold memorySize at houtside
  show target < 0 ∨ 0xFFF < target
  omega

theorem explains_of_refusal? {m : Machine} (hsize : m.memory.size = memorySize)
    {start length : Int} {fault : Fault} (h : m.memory.refusal? start length = some fault) :
    m.Explains fault := by
  obtain ⟨address, rfl, houtside⟩ := Memory.refusal?_eq_some h
  rw [hsize] at houtside
  unfold memorySize at houtside
  show address < 0 ∨ 0xFFF < address
  omega

theorem toNat_ofBytes (high low : UInt8) :
    (Word.ofBytes high low).toNat = high.toNat * 256 + low.toNat := by
  have hhigh := high.toNat_lt
  have hlow := low.toNat_lt
  rw [Word.ofBytes, UInt16.toNat_ofNat']
  omega

namespace Sound

variable {m : Machine} (h : m.Sound)

include h

theorem explains_of_atUnknown {word : UInt16} (hat : m.AtUnknown word) :
    m.Explains (.invalidOpcode m.registers.pc word) := by
  obtain ⟨-, hread, hdecode⟩ := hat
  obtain ⟨hbounds, hword⟩ := Memory.readWord_eq_ok.1 hread
  rw [h.memory_size, ← h.bytes_size] at hbounds
  obtain ⟨high, low, hhigh, hlow, hbytes⟩ :=
    Memory.bytes_wordAt? (Memory.wordAt?_eq hbounds.1 hbounds.2)
  refine ⟨rfl, hdecode, high, low, hhigh, hlow, ?_⟩
  rw [← hword, hbytes, toNat_ofBytes]

theorem explains_of_workFault? {word : UInt16} {fault : Fault} (hwait : m.waiting = false)
    (hread : m.memory.readWord m.registers.pc = .ok word)
    (hwork : m.workFault? (Instruction.decode word) = some fault) : m.Explains fault := by
  cases hi : Instruction.decode word with
  | unknown other =>
    obtain rfl := Instruction.eq_of_decode_unknown hi
    rw [hi] at hwork
    cases hwork
    exact h.explains_of_atUnknown ⟨hwait, hread, hi⟩
  | ret =>
    rw [hi] at hwork
    simp only [workFault?] at hwork
    split at hwork <;> cases hwork
    assumption
  | call target =>
    rw [hi] at hwork
    simp only [workFault?] at hwork
    split at hwork <;> cases hwork
    assumption
  | draw _ _ _ | decimal _ | store _ | load _ =>
    rw [hi] at hwork
    exact explains_of_refusal? h.memory_size hwork
  -- The others have no work that could fail.
  | _ =>
    rw [hi] at hwork
    cases hwork

theorem explains_of_stops {fault : Fault} (hs : Stops m fault) : m.Explains fault := by
  cases hs with
  | key _ _ outside => exact explains_of_goFault? (goFault?_eq_some.2 ⟨outside, rfl⟩)
  | fetch _ refused =>
    rw [Memory.readWord_eq] at refused
    cases hrange : m.memory.refusal? m.registers.pc 2 with
    | none =>
      rw [hrange] at refused
      cases refused
    | some fault =>
      rw [hrange] at refused
      cases refused
      exact explains_of_refusal? h.memory_size hrange
  | word waiting fetched stopped =>
    rcases workFault?_of_fault? stopped with hwork | hgo
    · exact h.explains_of_workFault? waiting fetched hwork
    · exact explains_of_goFault? hgo

end Sound

/-- **Only the faults of the machine.** After any calls on a machine that was just switched on no
access of a cycle goes astray, and a cycle that is stopped is stopped by a fault that says what was
the matter. -/
theorem cycle_safe (random : Random.Source) (variant : Variant) (calls : List Call) :
    let m := (fresh random variant).afterAll calls
    guardedCycle m = guarded cycle m ∧
      ((∃ i m', cycle m = .ok (some i) m') ∨ (∃ m', cycle m = .ok none m') ∨
        ∃ fault, cycle m = .error fault m ∧ m.Explains fault) := by
  intro m
  have h : m.Sound := (sound_fresh random variant).afterAll calls
  refine ⟨h.guardedCycle_eq, ?_⟩
  rcases cycles_or_stops m with ⟨result, m', hc⟩ | ⟨fault, hs⟩
  · cases result with
    | some i => exact .inl ⟨i, m', hc.cycle_eq⟩
    | none => exact .inr (.inl ⟨m', hc.cycle_eq⟩)
  · exact .inr (.inr ⟨fault, hs.cycle_eq h.memory_size, h.explains_of_stops hs⟩)

end Machine

end ChipEight
