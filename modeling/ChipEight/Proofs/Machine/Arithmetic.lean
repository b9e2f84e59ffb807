import ChipEight.Proofs.Machine.Invariant

/-!
# Operations that set the flag

Additions, subtractions and shifts between registers put a result of eight bits into one register
and what eight bits do not hold into the flag register. `Accounts` says how the two make up for the
operands, as an equation between integers: the flag is the carry of a sum, the missing borrow of a
difference, and the bit that a shift pushes out.

**Theorem (`cycle_operate`).** After such an operation the flag register holds the flag, the
register of the result holds the result unless it is the flag register, and the other registers are
as they were. This is so for all registers, which may be the same one or the flag register: both
operands are read before anything is written (`operate_eq_set`), and the flag is written last.
-/

namespace ChipEight

/-! ## Results and flags -/

namespace Arith

/-- Whether an operation sets the flag. -/
def setsFlag : Arith → Bool
  | add | sub | shr | subn | shl => true
  | copy | or | and | xor => false

/-- How the result and the flag of an operation make up for its operands `a` and `b`, or for the
operand `s` of a shift. -/
def Accounts (op : Arith) (a b s result flag : Int) : Prop :=
  match op with
  | add => a + b = result + 256 * flag
  | sub => a - b = result - 256 * (1 - flag)
  | subn => b - a = result - 256 * (1 - flag)
  | shr => s = 2 * result + flag
  | shl => 2 * s = result + 256 * flag
  | copy | or | and | xor => False

/-- The flag of an addition is its carry. -/
theorem accounts_add (a b : UInt8) :
    let flag : UInt8 := if a.toNat + b.toNat < 256 then 0 else 1
    (a.toNat : Int) + b.toNat = (a + b).toNat + 256 * flag.toNat ∧ flag.toNat ≤ 1 := by
  intro flag
  have ha := a.toNat_lt
  have hb := b.toNat_lt
  have hsum : (a + b).toNat = (a.toNat + b.toNat) % 256 := UInt8.toNat_add a b
  have hflag : flag.toNat = if a.toNat + b.toNat < 256 then 0 else 1 := apply_ite UInt8.toNat _ _ _
  split at hflag <;> omega

/-- The flag of a subtraction says that nothing was borrowed. -/
theorem accounts_sub (a b : UInt8) :
    let flag : UInt8 := if b ≤ a then 1 else 0
    (a.toNat : Int) - b.toNat = (a - b).toNat - 256 * (1 - flag.toNat) ∧ flag.toNat ≤ 1 := by
  intro flag
  have ha := a.toNat_lt
  have hb := b.toNat_lt
  have hdifference : (a - b).toNat = (256 - b.toNat + a.toNat) % 256 := UInt8.toNat_sub a b
  have hflag : flag.toNat = if b ≤ a then 1 else 0 := apply_ite UInt8.toNat _ _ _
  simp only [UInt8.le_iff_toNat_le] at hflag
  split at hflag <;> omega

/-- The flag of a shift to the right is the lowest bit. -/
theorem accounts_shr (s : UInt8) :
    (s.toNat : Int) = 2 * (s / 2).toNat + (s % 2).toNat ∧ (s % 2).toNat ≤ 1 := by
  have hhalf : (s / 2).toNat = s.toNat / 2 := UInt8.toNat_div s 2
  have hlow : (s % 2).toNat = s.toNat % 2 := UInt8.toNat_mod s 2
  omega

/-- The flag of a shift to the left is the highest bit. -/
theorem accounts_shl (s : UInt8) :
    2 * (s.toNat : Int) = (s + s).toNat + 256 * (s / 128).toNat ∧ (s / 128).toNat ≤ 1 := by
  have hs := s.toNat_lt
  have hsum : (s + s).toNat = (s.toNat + s.toNat) % 256 := UInt8.toNat_add s s
  have hhigh : (s / 128).toNat = s.toNat / 128 := UInt8.toNat_div s 128
  omega

/-- An operation that sets the flag sets it to zero or one, and the flag accounts for what the
result does not hold. -/
theorem exists_compute {op : Arith} (h : op.setsFlag = true) (a b s : UInt8) :
    ∃ result flag : UInt8, op.compute a b s = (result, some flag) ∧ flag.toNat ≤ 1 ∧
      op.Accounts a.toNat b.toNat s.toNat result.toNat flag.toNat := by
  cases op with
  | copy | or | and | xor => cases h
  | add => exact ⟨_, _, rfl, (accounts_add a b).symm⟩
  | sub => exact ⟨_, _, rfl, (accounts_sub a b).symm⟩
  | subn => exact ⟨_, _, rfl, (accounts_sub b a).symm⟩
  | shr => exact ⟨_, _, rfl, (accounts_shr s).symm⟩
  | shl => exact ⟨_, _, rfl, (accounts_shl s).symm⟩

theorem compute_of_not_setsFlag {op : Arith} (h : op.setsFlag = false) (a b s : UInt8) :
    (op.compute a b s).2 = none := by
  cases op with
  | copy | or | and | xor => rfl
  | add | sub | shr | subn | shl => cases h

end Arith

/-! ## Registers -/

namespace Registers

variable {r : Registers} {variant : Variant} {op : Arith} {x y z : Register} {result flag : UInt8}

theorem operate_eq_set
    (h : op.compute (r.get x) (r.get y) (r.get (if variant.shiftVy then y else x)) =
      (result, some flag)) :
    r.operate variant op x y = (r.set x result).set flagRegister flag := by
  rw [operate, h]

/-- An operation leaves the other registers alone. -/
theorem get_operate_of_ne (hx : z ≠ x) (hflag : op.setsFlag = true → z ≠ flagRegister) :
    (r.operate variant op x y).get z = r.get z := by
  unfold operate
  dsimp only
  split
  · exact get_set_of_ne r _ (Ne.symm hx)
  · next hcompute =>
    -- A flag was computed, so the operation is one that sets it.
    have hsets : op.setsFlag = true := by
      rw [← Bool.not_eq_false]
      intro hnot
      rw [← Prod.eta (op.compute _ _ _), Arith.compute_of_not_setsFlag hnot] at hcompute
      cases hcompute
    rw [get_set_of_ne _ _ (Ne.symm (hflag hsets)), get_set_of_ne r _ (Ne.symm hx)]

end Registers

/-! ## Cycles -/

namespace Machine

/-- **An operation that sets the flag.** -/
theorem cycle_operate {m m' : Machine} (hm : m.Reachable) {op : Arith} {x y : Register}
    (hsets : op.setsFlag = true) (hcycle : cycle m = .ok (some (.arith op x y)) m') :
    let a := m.registers.get x
    let b := m.registers.get y
    let s := if m.variant.shiftVy then b else a
    ∃ result flag : Nat, result ≤ 255 ∧ flag ≤ 1 ∧
      op.Accounts a.toNat b.toNat s.toNat result flag ∧
      (m'.registers.get flagRegister).toNat = flag ∧
      (x ≠ flagRegister → (m'.registers.get x).toNat = result) ∧
      (∀ z, z ≠ x → z ≠ flagRegister → m'.registers.get z = m.registers.get z) ∧
      m'.registers.index = m.registers.index ∧ m'.registers.stack = m.registers.stack := by
  intro a b s
  obtain ⟨-, -, hget, hindex, hstack⟩ := work_of_cycle hm.sound.memory_size hcycle
  obtain ⟨result, flag, hcompute, hle, haccounts⟩ := Arith.exists_compute hsets a b s
  have hoperand : m.registers.get (if m.variant.shiftVy then y else x) = s :=
    apply_ite m.registers.get _ _ _
  -- The flag is written last, so it stands even where the flag register is the result.
  have hset : (m.effect (.arith op x y)).registers =
      (m.registers.set x result).set flagRegister flag :=
    Registers.operate_eq_set (by rw [hoperand]; exact hcompute)
  have hlt := result.toNat_lt
  refine ⟨result.toNat, flag.toNat, by omega, hle, haccounts, ?_, fun hx => ?_,
    fun z hzx hz => ?_, ?_, ?_⟩
  · rw [hget, hset, Registers.get_set_self]
  · rw [hget, hset, Registers.get_set_of_ne _ _ (Ne.symm hx), Registers.get_set_self]
  · rw [hget, hset, Registers.get_set_of_ne _ _ (Ne.symm hz),
      Registers.get_set_of_ne _ _ (Ne.symm hzx)]
  · exact hindex.trans (index_operate m.registers m.variant op x y)
  · exact hstack.trans (stack_operate m.registers m.variant op x y)

/-- A machine that has the operands of an addition, one of them in the flag register. -/
def atSum : Machine := (programmed [0x6F, 0xC8, 0x61, 0x64, 0x8F, 0x14]).afterAll [.cycle, .cycle]

/-- The sum is 300. Its carry stands in the register that the addition names for its result. -/
theorem cycle_operate_atSum :
    ∃ m', atSum.Reachable ∧ Arith.add.setsFlag = true ∧
      cycle atSum = .ok (some (.arith .add flagRegister 1)) m' ∧
      atSum.registers.get flagRegister = 200 ∧ atSum.registers.get 1 = 100 ∧
      (m'.registers.get flagRegister).toNat = 1 ∧ m'.registers.get 1 = 100 := by
  let program : List UInt8 := [0x6F, 0xC8, 0x61, 0x64, 0x8F, 0x14]
  let start := programmed program
  let ready := (start.afterWord 0x6FC8).afterWord 0x6164
  have hprogram : start.memory = (Memory.blank memorySize).loadFont.put programBase program := rfl
  have hone : Cycles start (some (Instruction.decode 0x6FC8)) (start.afterWord 0x6FC8) :=
    .of_program (k := 0) hprogram (by decide) rfl rfl rfl rfl (by decide)
  have htwo : Cycles (start.afterWord 0x6FC8) (some (Instruction.decode 0x6164)) ready :=
    .of_program (k := 2) hprogram (by decide) rfl rfl rfl rfl (by decide)
  have hsum : Cycles ready (some (Instruction.decode 0x8F14)) (ready.afterWord 0x8F14) :=
    .of_program (k := 4) hprogram (by decide) rfl rfl rfl rfl (by decide)
  have heq : atSum = ready := by
    rw [atSum, hone.afterAll_cons, htwo.afterAll_cons, afterAll_nil]
  have hm : atSum.Reachable := (reachable_programmed program).afterAll _
  have hdecode : Instruction.decode 0x8F14 = .arith .add flagRegister 1 := by decide
  have hcycle := hsum.cycle_eq
  rw [hdecode, ← heq] at hcycle
  have hflag : atSum.registers.get flagRegister = 200 := by rw [heq]; rfl
  have hother : atSum.registers.get 1 = 100 := by rw [heq]; rfl
  obtain ⟨result, flag, hresult, -, haccounts, hafter, -, hkept, -⟩ := cycle_operate hm rfl hcycle
  rw [hflag, hother] at haccounts
  have hcarry : (200 : Int) + 100 = result + 256 * flag := haccounts
  refine ⟨_, hm, rfl, hcycle, hflag, hother, by omega, ?_⟩
  rw [hkept 1 (by decide) (by decide), hother]

end Machine

end ChipEight
