import ChipEight.Proofs.Display.Screen
import ChipEight.Proofs.Machine.Arithmetic
import ChipEight.Proofs.Machine.Countdown
import ChipEight.Proofs.Machine.KeyWait
import ChipEight.Proofs.Machine.RandomBytes
import ChipEight.Proofs.Machine.StoreLoad
import ChipEight.Proofs.Machine.Subroutine

/-!
# What an instruction may change

The state of a machine has many components: each byte of memory, each general register, the index
register, the stack, the screen, each timer, the keys, the wait, the random bytes and what never
changes. `Component.ChangedBy` is the table of which instruction may change which component.

**Theorem (`cycle_footprint`).** A cycle of a machine that does not wait, if it is not stopped,
leaves every component as it was that the table does not give to its instruction. Besides these it
only moves the program counter and counts and records the instruction.

The table names registers and addresses one by one, so it also holds where an instruction has the
same register twice, where it names the flag register, and where the registers or digits that it
stores lie over its own word. That no more bytes are written and no more registers are loaded needs
the range at the index register not to be refused; the other lines of the table hold for the work of
an instruction anywhere.
-/

namespace ChipEight

/-! ## Bytes and registers -/

namespace Instruction

/-- Whether an instruction may change the byte at an address. -/
def Writes (m : Machine) (address : Nat) : Instruction → Prop
  | .decimal _ => m.registers.index.toNat ≤ address ∧ address ≤ m.registers.index.toNat + 2
  | .store x => m.registers.index.toNat ≤ address ∧ address ≤ m.registers.index.toNat + x.val
  | _ => False

/-- Whether an instruction may change a general register. -/
def Sets (r : Register) : Instruction → Prop
  | .setByte x _ | .addByte x _ | .random x _ | .readDelay x => r = x
  | .arith op x _ => r = x ∨ op.setsFlag = true ∧ r = flagRegister
  | .draw _ _ _ => r = flagRegister
  | .load x => r ≤ x
  | _ => False

/-- Whether an instruction may change the index register. -/
def setsIndex : Instruction → Bool
  | .setIndex _ | .addIndex _ | .glyph _ => true
  | _ => false

end Instruction

/-! ## Components -/

/-- A part of the state of a machine. -/
inductive Component where
  | byte (address : Nat)
  | register (r : Register)
  | index
  /-- The return addresses and their number. -/
  | stack
  /-- The cells and the mark that they changed. -/
  | screen
  | timer (timer : Timer)
  /-- Which keys are held. -/
  | held
  /-- Whether the machine waits for a key, for which register, and the latch of the keypad. -/
  | wait
  /-- The random bytes that are still to come. -/
  | random
  /-- How much memory there is, the ticks so far and the switches. -/
  | fixed
  deriving Repr, DecidableEq

namespace Component

/-- A component is the same in two machines. -/
def Same (m m' : Machine) : Component → Prop
  | .byte address => m'.memory.byteAt address = m.memory.byteAt address
  | .register r => m'.registers.get r = m.registers.get r
  | .index => m'.registers.index = m.registers.index
  | .stack => m'.registers.stack = m.registers.stack
  | .screen => m'.screen = m.screen
  | .timer t => t.value m'.timers = t.value m.timers
  | .held => m'.keypad.held = m.keypad.held
  | .wait => m'.waiting = m.waiting ∧ m'.waitTarget = m.waitTarget ∧
      m'.keypad.armed = m.keypad.armed ∧ m'.keypad.pending = m.keypad.pending
  | .random => m'.random = m.random
  | .fixed => m'.memory.size = m.memory.size ∧ m'.memory.bytes.size = m.memory.bytes.size ∧
      m'.timers.ticks = m.timers.ticks ∧ m'.variant = m.variant

/-- Which instruction may change which component. -/
def ChangedBy (m : Machine) (i : Instruction) : Component → Prop
  | .byte address => i.Writes m address
  | .register r => i.Sets r
  | .index => i.setsIndex = true
  | .stack => i = .ret ∨ ∃ target, i = .call target
  | .screen => i.draws = true
  | .timer t => (t.source? i).isSome = true
  | .wait => ∃ x, i = .awaitKey x
  | .random => ∃ x mask, i = .random x mask
  | .held | .fixed => False

end Component

namespace Machine

/-! ## The work of an instruction -/

section Effect

variable {m : Machine} {i : Instruction}

theorem Sound.byteAt_effect (h : m.Sound) (hwork : m.workFault? i = none) {address : Nat}
    (hwrites : ¬ i.Writes m address) :
    (m.effect i).memory.byteAt address = m.memory.byteAt address := by
  cases i with
  -- Only two kinds write to memory, each over one range.
  | decimal x =>
    have hlength : (decimalDigits (m.registers.get x)).length = 3 := rfl
    refine h.byteAt_written_of_outside (by rwa [hlength]) ?_
    rw [hlength]
    unfold Instruction.Writes at hwrites
    omega
  | store x =>
    refine h.byteAt_written_of_outside (by rwa [length_upTo]) ?_
    rw [length_upTo]
    unfold Instruction.Writes at hwrites
    omega
  | _ => simp only [Machine.effect, Machine.drawn]

theorem Sound.get_effect (h : m.Sound) (hwork : m.workFault? i = none) {r : Register}
    (hsets : ¬ i.Sets r) : (m.effect i).registers.get r = m.registers.get r := by
  cases i with
  | setByte x _ | addByte x _ | random x _ | readDelay x | draw x _ _ =>
    exact Registers.get_set_of_ne _ _ (Ne.symm hsets)
  | arith op x y =>
    exact Registers.get_operate_of_ne (fun hx => hsets (.inl hx)) fun hflag hr =>
      hsets (.inr ⟨hflag, hr⟩)
  | load x => exact (h.get_load hwork r).trans (if_neg hsets)
  | _ => simp only [Machine.effect, Machine.written, Registers.get]

theorem index_effect (hindex : i.setsIndex = false) :
    (m.effect i).registers.index = m.registers.index := by
  cases i with
  | setIndex _ | addIndex _ | glyph _ => cases hindex
  | arith op x y => exact index_operate m.registers m.variant op x y
  | _ => simp only [effect, drawn, written, Registers.set, Registers.setFirst]

theorem keypad_effect (hwait : ∀ x, i ≠ .awaitKey x) :
    (m.effect i).keypad = m.keypad ∧ (m.effect i).waitTarget = m.waitTarget := by
  cases i with
  | awaitKey x => exact absurd rfl (hwait x)
  | _ => simp only [effect, drawn, written, and_self]

theorem held_effect (m : Machine) (i : Instruction) :
    (m.effect i).keypad.held = m.keypad.held := by
  cases i <;> simp only [effect, drawn, written, Keypad.arm]

theorem size_bytes_effect (m : Machine) (i : Instruction) :
    (m.effect i).memory.bytes.size = m.memory.bytes.size := by
  cases i <;> simp only [effect, drawn, written, Memory.size_bytes_put]

/-- The work of an instruction that is not stopped keeps the components that the table
does not give to it. -/
theorem Sound.same_effect (h : m.Sound) (hwork : m.workFault? i = none) {part : Component}
    (hpart : ¬ part.ChangedBy m i) : part.Same m (m.effect i) := by
  cases part with
  | byte address => exact h.byteAt_effect hwork hpart
  | register r => exact h.get_effect hwork hpart
  | index => exact index_effect (Bool.eq_false_iff.2 hpart)
  | stack =>
    exact stack_effect (fun hret => hpart (.inl hret)) fun target hcall =>
      hpart (.inr ⟨target, hcall⟩)
  | screen => exact screen_effect m (Bool.eq_false_iff.2 hpart)
  | timer t =>
    have hsource : t.source? i = none := Option.not_isSome_iff_eq_none.1 hpart
    show t.value (m.effect i).timers = t.value m.timers
    rw [value_effect, hsource]
    rfl
  | held => exact held_effect m i
  -- Waiting, its register and the latch change together.
  | wait =>
    have hwait (x : Register) : i ≠ .awaitKey x := fun hi => hpart ⟨x, hi⟩
    obtain ⟨hkeypad, htarget⟩ := keypad_effect (m := m) hwait
    exact ⟨waiting_effect hwait, htarget, congrArg Keypad.armed hkeypad,
      congrArg Keypad.pending hkeypad⟩
  | random => exact random_effect fun x mask hi => hpart ⟨x, mask, hi⟩
  | fixed =>
    exact ⟨size_effect m i, size_bytes_effect m i, ticks_effect m i, variant_effect m i⟩

end Effect

/-- To go on and to record the instruction changes no component. -/
theorem same_afterWord {m : Machine} {word : UInt16} {part : Component}
    (h : part.Same m (m.effect (Instruction.decode word))) :
    part.Same m (m.afterWord word) := by
  cases part <;> exact h

/-! ## Cycles -/

/-- **What an instruction may change.** -/
theorem cycle_footprint {m m' : Machine} {result : Option Instruction} (hm : m.Reachable)
    (hwait : m.waiting = false) (hcycle : cycle m = .ok result m') :
    ∃ i, result = some i ∧ i = Instruction.decode (m.memory.word m.registers.pc) ∧
      ∀ part : Component, ¬ part.ChangedBy m i → part.Same m m' := by
  have h : m.Sound := hm.sound
  cases (cycle_ok_iff h.memory_size).1 hcycle with
  | idle waiting _ | key waiting _ _ =>
    rw [hwait] at waiting
    cases waiting
  | word _ fetched free =>
    refine ⟨_, rfl, ?_, fun part hpart => same_afterWord ?_⟩
    · rw [(Memory.readWord_eq_ok.1 fetched).2]
    · exact h.same_effect (fault?_eq_none.1 free).2 hpart

/-- Digits are stored over the glyph of zero, whose last two bytes stay. -/
theorem cycle_footprint_digits :
    let m := programmed [0xF0, 0x33]
    ∃ m', m.Reachable ∧ m.waiting = false ∧ cycle m = .ok (some (.decimal 0)) m' ∧
      (∀ address, 3 ≤ address → m'.memory.byteAt address = m.memory.byteAt address) ∧
      (∀ r, m'.registers.get r = m.registers.get r) ∧ m'.screen = m.screen := by
  intro m
  have hcycles : Cycles m (some (Instruction.decode 0xF033)) (m.afterWord 0xF033) :=
    .of_program (k := 0) rfl (by decide) rfl rfl rfl rfl (by decide)
  have hdecode : Instruction.decode 0xF033 = .decimal 0 := by decide
  have hcycle := hcycles.cycle_eq
  rw [hdecode] at hcycle
  have hm : m.Reachable := reachable_programmed _
  obtain ⟨i, hi, -, hsame⟩ := cycle_footprint hm rfl hcycle
  cases hi
  have hindex : m.registers.index.toNat = 0 := rfl
  refine ⟨_, hm, rfl, hcycle, fun address hle => hsame (.byte address) ?_,
    fun r => hsame (.register r) id, hsame .screen Bool.false_ne_true⟩
  show ¬ (m.registers.index.toNat ≤ address ∧ address ≤ m.registers.index.toNat + 2)
  omega

end Machine

end ChipEight
