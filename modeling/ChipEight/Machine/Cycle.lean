import ChipEight.Machine.Basic

/-!
# One cycle of a machine

An action on a machine either ends with a result or is stopped by a fault; in both cases it leaves
a machine behind, with everything that was done up to there. A cycle fetches the word at the program
counter, decodes it and executes it. All checks of an instruction come before its first change, so a
cycle that is stopped leaves the machine as it was.

A machine that waits for a key executes nothing: its cycles do nothing until the keypad has a press,
and the next one takes the press and ends the wait.
-/

namespace ChipEight

/-- What changes a machine and may be stopped by a fault. -/
abbrev Machine.Action := EStateM Fault Machine

namespace Machine

/-! ## Parts of actions -/

/-- The result of a check or an access, or its fault. -/
def attempt {α : Type} : Except Fault α → Action α
  | .ok a => pure a
  | .error fault => throw fault

/-- Refuse a program counter after the end of memory. -/
def checkTarget (target : Int) : Action Unit :=
  if (memorySize : Int) ≤ target then throw (.programCounter target) else pure ()

/-- Change the registers. -/
def onRegisters (f : Registers → Registers) : Action Unit :=
  modify fun m => { m with registers := f m.registers }

/-- Go to an address. -/
def goTo (target : Int) : Action Unit := do
  checkTarget target
  onRegisters ({ · with pc := target })

/-- The address of the next word. -/
def following : Action Int := return (← get).registers.pc + 2

end Machine

/-! ## Operations between registers -/

/-- The result of an operation on `a` and `b`, and the flag if it sets one. Shifts work on
`shifted` instead. -/
def Arith.compute (op : Arith) (a b shifted : UInt8) : UInt8 × Option UInt8 :=
  match op with
  | .copy => (b, none)
  | .or => (a ||| b, none)
  | .and => (a &&& b, none)
  | .xor => (a ^^^ b, none)
  | .add => (a + b, some (if a.toNat + b.toNat < 256 then 0 else 1))
  | .sub => (a - b, some (if b ≤ a then 1 else 0))
  | .shr => (shifted / 2, some (shifted % 2))
  | .subn => (b - a, some (if a ≤ b then 1 else 0))
  | .shl => (shifted + shifted, some (shifted / 128))

/-- Carry out an operation between two registers. The flag is written last, so it wins if it goes
to the register of the result. -/
def Registers.operate (r : Registers) (variant : Variant) (op : Arith) (x y : Register) :
    Registers :=
  let shifted := r.get (if variant.shiftVy then y else x)
  match op.compute (r.get x) (r.get y) shifted with
  | (result, none) => r.set x result
  | (result, some flag) => (r.set x result).set flagRegister flag

/-- Put values into the first registers. -/
def Registers.setFirst (r : Registers) (values : List UInt8) : Registers :=
  { r with v := Vector.ofFn fun (k : Fin 16) => values.getD k.val (r.get k) }

/-- The values of the registers up to `x`. -/
def Registers.upTo (r : Registers) (x : Register) : List UInt8 := r.v.toList.take (x.val + 1)

/-- The three decimal digits of a byte. -/
def decimalDigits (value : UInt8) : List UInt8 := [value / 100, value / 10 % 10, value % 10]

/-- Whether a condition holds. -/
def Condition.holds (c : Condition) (m : Machine) : Bool :=
  match c with
  | .byteEq x value => m.registers.get x == value
  | .byteNe x value => m.registers.get x != value
  | .regEq x y => m.registers.get x == m.registers.get y
  | .regNe x y => m.registers.get x != m.registers.get y
  | .keyDown x => m.keypad.isDown (keyOf (m.registers.get x))
  | .keyUp x => !m.keypad.isDown (keyOf (m.registers.get x))

namespace Machine

/-- The index register after a register was added to it. -/
def indexPlus (m : Machine) (value : UInt8) : Int :=
  (m.registers.index + value.toNat) % (if m.variant.indexWrap then 0x1000 else 0x10000)

/-! ## Execution -/

/-- Return from a subroutine. The stack holds the address of the call, and the address after it is
checked before anything is taken off the stack. -/
def executeReturn : Action Int := do
  let r := (← get).registers
  if let some address := r.stack.head? then
    checkTarget (address.toNat + 2)
  let (address, r) ← attempt r.pop
  onRegisters fun _ => r
  return address.toNat + 2

/-- Call a subroutine. -/
def executeCall (target : Address) : Action Int := do
  let r := (← get).registers
  let r ← attempt (r.push (wrapWord r.pc))
  onRegisters fun _ => r
  return target.val

/-- Draw the sprite that the index register points at. -/
def executeDraw (x y : Register) (rows : Fin 16) : Action Unit := do
  let m ← get
  let sprite ← attempt (m.memory.readBlock m.registers.index rows.val)
  let (hit, screen) :=
    m.screen.draw (m.registers.get x).toNat (m.registers.get y).toNat sprite
  modify fun m =>
    { m with screen, registers := m.registers.set flagRegister (if hit then 1 else 0) }

/-- Write bytes to where the index register points. -/
def executeWrite (values : List UInt8) : Action Unit := do
  let m ← get
  let memory ← attempt (m.memory.writeBlock m.registers.index values)
  modify ({ · with memory })

/-- Load the registers up to `x` from where the index register points. -/
def executeLoad (x : Register) : Action Unit := do
  let m ← get
  let values ← attempt (m.memory.readBlock m.registers.index (x.val + 1))
  onRegisters (·.setFirst values)

/-- Take a random byte. -/
def executeRandom (x : Register) (mask : UInt8) : Action Unit :=
  modify fun m =>
    let (byte, random) := m.random.next
    { m with random, registers := m.registers.set x (byte &&& mask) }

/-- Start to wait for a key. -/
def startWait (x : Register) : Action Unit :=
  modify fun m => { m with waiting := true, waitTarget := x, keypad := m.keypad.arm }

/-- The work of an instruction that goes on to the next word. -/
def perform : Instruction → Action Unit
  | .clear => modify fun m => { m with screen := m.screen.clear }
  | .setByte x value => onRegisters (·.set x value)
  | .addByte x value => onRegisters fun r => r.set x (r.get x + value)
  | .arith op x y => modify fun m =>
    { m with registers := m.registers.operate m.variant op x y }
  | .setIndex target => onRegisters ({ · with index := target.val })
  | .random x mask => executeRandom x mask
  | .draw x y rows => executeDraw x y rows
  | .readDelay x => modify fun m =>
    { m with registers := m.registers.set x m.timers.delay }
  | .setDelay x => modify fun m =>
    { m with timers := { m.timers with delay := m.registers.get x } }
  | .setSound x => modify fun m =>
    { m with timers := { m.timers with sound := m.registers.get x } }
  | .addIndex x => modify fun m =>
    { m with registers := { m.registers with index := m.indexPlus (m.registers.get x) } }
  | .glyph x => onRegisters fun r =>
    { r with index := glyphAddress ((r.get x).toNat % 16) }
  | .decimal x => do executeWrite (decimalDigits ((← get).registers.get x))
  | .store x => do executeWrite ((← get).registers.upTo x)
  | .load x => executeLoad x
  | _ => pure ()

/-- Execute an instruction and give the address to go on at. -/
def execute : Instruction → Action Int
  | .ret => executeReturn
  | .jump target => return target.val
  | .call target => executeCall target
  | .jumpOffset target => do
    return target.val + ((← get).registers.get firstRegister).toNat
  | .skip condition => do
    let m ← get
    return m.registers.pc + (if condition.holds m then 4 else 2)
  | .awaitKey x => do
    startWait x
    return (← get).registers.pc
  | .unknown word => do
    throw (.invalidOpcode (← get).registers.pc word)
  | instruction => do
    let target ← following
    checkTarget target
    perform instruction
    return target

/-! ## Cycles -/

/-- A cycle of a waiting machine: take the press if there is one. -/
def pollKey : Action Unit := do
  let m ← get
  match m.keypad.pending with
  | none => pure ()
  | some key =>
    let target := m.registers.pc + 2
    checkTarget target
    modify fun m =>
      { m with
        registers := { m.registers.set m.waitTarget (UInt8.ofNat key.val) with pc := target }
        keypad := m.keypad.take.2
        waiting := false }

/-- A cycle of a machine that does not wait. -/
def step : Action Instruction := do
  let m ← get
  let pc := m.registers.pc
  let word ← attempt (m.memory.readWord pc)
  let instruction := Instruction.decode word
  let target ← execute instruction
  goTo target
  modify (·.record ⟨pc, word, instruction, target⟩)
  return instruction

/-- One cycle. It gives the executed instruction, or nothing while the machine waits for a key, the
cycle that ends the wait included. -/
def cycle : Action (Option Instruction) := do
  if (← get).waiting then
    pollKey
    return none
  else
    return some (← step)

/-- Go past a word that stands for no instruction. -/
def skipWord : Action Unit := do
  goTo (← following)

end Machine

end ChipEight
