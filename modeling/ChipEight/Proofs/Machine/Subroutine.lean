import ChipEight.Proofs.Machine.Invariant

/-!
# Calls and returns

The stack of a machine holds the addresses of the calls that have not returned.

**Theorem (`openCalls_afterAll`).** After a call at address `a` anything may happen to the machine:
nested and repeated calls, jumps in and out, waits, ticks and keys, cycles that are stopped. As long
as the depth has not come back to what it was before the call, the addresses that were on the stack
then, with `a` on top, stay at the bottom of it. When the depth comes back for the first time, it is
by a return, which goes on after the call and leaves the stack as it was.

The proof says once what may happen to a stack (`StackMove`): it stays, an address is pushed by a
call, or the newest one is popped by a return. A part at the bottom of a stack therefore stays there
until the stack is that part, and then only a return can take off its newest address.
-/

namespace ChipEight.Machine

/-- The addresses of the calls that have not returned, the oldest first. -/
def openCalls (m : Machine) : List Int :=
  m.registers.calls.map fun (address : UInt16) => (address.toNat : Int)

/-! ## One call -/

/-- What happens to the stack. -/
inductive StackMove (m m' : Machine) : Call → Prop
  | stay {call : Call} (stack : m'.registers.stack = m.registers.stack) : StackMove m m' call
  /-- An instruction that calls puts its own address on the stack. -/
  | push {target : Address} (ran : cycle m = .ok (some (.call target)) m')
      (stack : m'.registers.stack = wrapWord m.registers.pc :: m.registers.stack) :
      StackMove m m' .cycle
  /-- A return takes the newest address off the stack and goes on after the call there. -/
  | pop {address : UInt16} (ran : cycle m = .ok (some .ret) m')
      (stack : m.registers.stack = address :: m'.registers.stack)
      (pc : m'.registers.pc = address.toNat + 2) : StackMove m m' .cycle

theorem stack_effect {m : Machine} {i : Instruction} (hret : i ≠ .ret)
    (hcall : ∀ target, i ≠ .call target) :
    (m.effect i).registers.stack = m.registers.stack := by
  cases i with
  | ret => exact absurd rfl hret
  | call target => exact absurd rfl (hcall target)
  | arith op x y => exact stack_operate m.registers m.variant op x y
  | _ => simp only [effect, drawn, written, Registers.set, Registers.setFirst]

/-- A machine that executes a word moves its stack as the instruction says. -/
theorem stackMove_of_word {m m' : Machine} {i : Instruction} (h : Cycles m (some i) m') :
    StackMove m m' .cycle := by
  have hran := h.cycle_eq
  obtain ⟨word, -, -, hdecode, hfree, rfl⟩ := h.of_some
  have hstack : (m.afterWord word).registers.stack = (m.effect i).registers.stack := by
    rw [← hdecode]
    rfl
  by_cases hret : i = .ret
  · -- The return was not stopped, so there is an address to return to.
    subst hret
    cases hcalls : m.registers.stack with
    | nil =>
      have hwork := (fault?_eq_none.1 hfree).2
      simp [workFault?, hcalls] at hwork
    | cons address rest =>
      have hrest : (m.afterWord word).registers.stack = rest := by
        rw [hstack]
        simp [effect, hcalls]
      refine .pop hran (hcalls.trans (congrArg (address :: ·) hrest.symm)) ?_
      unfold afterWord
      rw [hdecode]
      simp [target, record, moveTo, hcalls]
  · by_cases hcall : ∃ target, i = .call target
    · obtain ⟨target, rfl⟩ := hcall
      exact .push hran hstack
    · exact .stay (hstack.trans (stack_effect hret fun target heq => hcall ⟨target, heq⟩))

theorem stackMove_after {m : Machine} (hsize : m.memory.size = memorySize) (call : Call) :
    StackMove m (m.after call) call := by
  rcases after_cases hsize call with ⟨rfl, hc⟩ | ⟨-, _, _, _, _, _, _, hafter, -, -⟩
  · generalize m.after .cycle = m', m.ran? .cycle = result at hc ⊢
    cases hc with
    | idle _ _ | key _ _ _ => exact .stay rfl
    | word waiting fetched free => exact stackMove_of_word (.word waiting fetched free)
  · rw [hafter]
    exact .stay rfl

/-! ## The bottom of the stack -/

section Bottom

variable {m m' : Machine} {address : UInt16} {below : List UInt16}

/-- What is at the bottom of the stack stays there, unless a return takes off its newest address;
then the rest of it is the whole stack. -/
theorem StackMove.suffix {call : Call} (hmove : StackMove m m' call)
    (h : address :: below <:+ m.registers.stack) :
    address :: below <:+ m'.registers.stack ∨
      call = .cycle ∧ cycle m = .ok (some .ret) m' ∧ m'.registers.stack = below ∧
        m'.registers.pc = address.toNat + 2 := by
  cases hmove with
  | stay stack =>
    rw [stack]
    exact .inl h
  | push ran stack =>
    rw [stack]
    exact .inl (h.trans (List.suffix_cons _ _))
  | pop ran stack pc =>
    rw [stack] at h
    rcases List.suffix_cons_iff.1 h with heq | hdeeper
    · obtain ⟨rfl, rfl⟩ := List.cons.inj heq
      exact .inr ⟨rfl, ran, rfl, pc⟩
    · exact .inl hdeeper

/-- The bottom of the stack stays there while the stack does not come down to it. -/
theorem Sound.suffix_afterAll (hm : m.Sound) (h : address :: below <:+ m.registers.stack)
    {calls : List Call}
    (hinside : ∀ before, before <+: calls →
      (m.afterAll before).registers.stack.length ≠ below.length) :
    address :: below <:+ (m.afterAll calls).registers.stack := by
  induction calls generalizing m with
  | nil => exact h
  | cons call rest ih =>
    -- Only a return at this depth could take the address off.
    have hnext : address :: below <:+ (m.after call).registers.stack := by
      rcases (stackMove_after hm.memory_size call).suffix h with hkept | ⟨-, -, hstack, -⟩
      · exact hkept
      · refine absurd ?_ (hinside [call] ⟨rest, rfl⟩)
        show (m.after call).registers.stack.length = below.length
        rw [hstack]
    refine ih (hm.after call) hnext fun before hbefore => ?_
    exact hinside (call :: before) ((List.prefix_cons_inj call).2 hbefore)

end Bottom

/-! ## Subroutines -/

theorem length_openCalls (m : Machine) : m.openCalls.length = m.registers.stack.length := by
  simp [openCalls, Registers.calls]

theorem openCalls_of_stack {m : Machine} {stack : List UInt16} (h : m.registers.stack = stack) :
    m.openCalls = stack.reverse.map fun (address : UInt16) => (address.toNat : Int) := by
  rw [← h]
  rfl

/-- **Subroutines.** A call was executed at the address `m.registers.pc`, and since then the depth
has not come back to what it was. -/
theorem openCalls_afterAll {m called : Machine} {target : Address} (hm : m.Reachable)
    (hcall : cycle m = .ok (some (.call target)) called) {calls : List Call}
    (hinside : ∀ before, before <+: calls →
      (called.afterAll before).openCalls.length ≠ m.openCalls.length) :
    let now := called.afterAll calls
    m.openCalls ++ [m.registers.pc] <+: now.openCalls ∧
      ∀ call, (now.after call).openCalls.length = m.openCalls.length →
        call = .cycle ∧ cycle now = .ok (some .ret) (now.after call) ∧
          (now.after call).openCalls = m.openCalls ∧
          (now.after call).registers.pc = m.registers.pc + 2 := by
  intro now
  have hsound := hm.sound
  have hcycles := (cycle_ok_iff hsound.memory_size).1 hcall
  have hcalled : called.Sound := hsound.cycles hcycles
  -- The address of the call fits into the word that is pushed.
  have haddress : ((wrapWord m.registers.pc).toNat : Int) = m.registers.pc := by
    have h0 := hsound.pc_nonneg
    have h1 := hsound.pc_lt
    unfold memorySize at h1
    rw [toNat_wrapWord h0 (by omega)]
    omega
  have hpushed : called.registers.stack = wrapWord m.registers.pc :: m.registers.stack := by
    obtain ⟨word, -, -, hdecode, -, rfl⟩ := hcycles.of_some
    unfold afterWord
    rw [hdecode]
    rfl
  have hbottom : wrapWord m.registers.pc :: m.registers.stack <:+ now.registers.stack := by
    refine hcalled.suffix_afterAll (hpushed ▸ List.suffix_refl _) fun before hbefore => ?_
    rw [← length_openCalls, ← length_openCalls]
    exact hinside before hbefore
  constructor
  · have hprefix := (List.reverse_prefix.2 hbottom).map fun address => (address.toNat : Int)
    rw [List.reverse_cons, List.map_append, List.map_singleton, haddress] at hprefix
    exact hprefix
  · intro call hdepth
    have hnow : now.Sound := hcalled.afterAll calls
    rcases (stackMove_after hnow.memory_size call).suffix hbottom with hkept | hreturn
    · -- The address of the call is still there, so the stack is deeper than before the call.
      have hlength := hkept.length_le
      rw [length_openCalls, length_openCalls] at hdepth
      rw [List.length_cons] at hlength
      omega
    · obtain ⟨hcycle, hran, hstack, hpc⟩ := hreturn
      rw [haddress] at hpc
      exact ⟨hcycle, hran, openCalls_of_stack hstack, hpc⟩

/-- A machine with a call at the address `0x200`, another one where that leads, and a return after
that. -/
def nestedCalls : Machine :=
  (fresh (.ofBytes []) {}).afterAll [.load [0x22, 0x02, 0x22, 0x04, 0x00, 0xEE] programBase]

theorem cycles_nestedCalls {m : Machine} {k : Nat} {word : UInt16} {high low : UInt8}
    {rest : List UInt8} (hmemory : m.memory = nestedCalls.memory) (hwait : m.waiting = false)
    (hpc : m.registers.pc = programBase + k)
    (hk : [0x22, 0x02, 0x22, 0x04, 0x00, 0xEE].drop k = high :: low :: rest)
    (hword : Word.ofBytes high low = word) (hfree : m.fault? (Instruction.decode word) = none) :
    Cycles m (some (Instruction.decode word)) (m.afterWord word) :=
  .of_program (hmemory.trans rfl) (by decide) hpc hk hword hwait hfree

/-- The inner call returns to the return of the outer one. -/
theorem openCalls_afterAll_nested :
    let outer := nestedCalls.afterWord 0x2202
    let now := outer.afterAll [.cycle, .cycle, .tick]
    cycle nestedCalls = .ok (some (Instruction.decode 0x2202)) outer ∧
      [0x200] <+: now.openCalls ∧ cycle now = .ok (some .ret) (now.after .cycle) ∧
      (now.after .cycle).openCalls = [] ∧ (now.after .cycle).registers.pc = 0x202 := by
  intro outer now
  have heq : outer.afterAll [.cycle, .cycle, .tick] = now := rfl
  let inner := outer.afterWord 0x2204
  let back := inner.afterWord 0x00EE
  have hm : nestedCalls.Reachable := ⟨_, _, _, rfl⟩
  have houter : Cycles nestedCalls (some (Instruction.decode 0x2202)) outer :=
    cycles_nestedCalls (k := 0) rfl rfl rfl rfl (by decide) (by decide)
  have hinner : Cycles outer (some (Instruction.decode 0x2204)) inner :=
    cycles_nestedCalls (k := 2) rfl rfl rfl rfl (by decide) (by decide)
  have hback : Cycles inner (some (Instruction.decode 0x00EE)) back :=
    cycles_nestedCalls (k := 4) rfl rfl rfl rfl (by decide) (by decide)
  have hlast : Cycles (back.after .tick) (some (Instruction.decode 0x00EE))
      ((back.after .tick).afterWord 0x00EE) :=
    cycles_nestedCalls (k := 4) rfl rfl rfl rfl (by decide) (by decide)
  have hone : outer.afterAll [.cycle] = inner := by
    simp only [afterAll, List.foldl_cons, List.foldl_nil, after_cycle_of_cycles hinner]
  have htwo : outer.afterAll [.cycle, .cycle] = back := by
    simp only [afterAll, List.foldl_cons, List.foldl_nil, after_cycle_of_cycles hinner,
      after_cycle_of_cycles hback]
  have hnow : now = back.after .tick := by
    simp only [now, afterAll, List.foldl_cons, List.foldl_nil, after_cycle_of_cycles hinner,
      after_cycle_of_cycles hback]
  have hinside : ∀ before, before <+: [Call.cycle, .cycle, .tick] →
      (outer.afterAll before).openCalls.length ≠ nestedCalls.openCalls.length := by
    intro before hbefore
    simp only [List.prefix_cons_iff, List.prefix_nil] at hbefore
    rcases hbefore with rfl | ⟨_, rfl, rfl | ⟨_, rfl, rfl | ⟨_, rfl, rfl⟩⟩⟩
    · decide
    · rw [hone]
      decide
    · rw [htwo]
      decide
    · show now.openCalls.length ≠ _
      rw [hnow]
      decide
  have hdepth : (now.after .cycle).openCalls.length = nestedCalls.openCalls.length := by
    rw [hnow, after_cycle_of_cycles hlast]
    decide
  obtain ⟨hopen, hreturns⟩ := openCalls_afterAll hm houter.cycle_eq hinside
  obtain ⟨-, hran, hcalls, hpc⟩ := hreturns .cycle hdepth
  have hstart : nestedCalls.registers.pc + 2 = 0x202 := by decide
  rw [hstart, heq] at hpc
  exact ⟨houter.cycle_eq, hopen, hran, hcalls, hpc⟩

end ChipEight.Machine
