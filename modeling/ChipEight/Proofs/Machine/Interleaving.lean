import ChipEight.Proofs.Machine.Aside
import ChipEight.Proofs.Machine.Countdown

/-!
# Ticks among cycles

Cycles and ticks come from two sides, and nobody says in which order.

**Theorem (`cycle_tick`).** A tick may as well come before a cycle as after it, whatever the cycle
executes, takes or is stopped by, unless it executes one of the three instructions that read or set
a timer.

Even these three mind only if there is something to count down: `cycle_tick_iff` says exactly when
the order matters, and `tick_afterAll` carries a tick over any number of calls. To tick is an
`Aside`, so all of this is about the work of single instructions (`effect_tick`).
-/

namespace ChipEight

/-- Whether an instruction reads or sets a timer. -/
def Instruction.usesTimers : Instruction → Bool
  | .readDelay _ | .setDelay _ | .setSound _ => true
  | _ => false

theorem Timers.countDown_eq_self {value : UInt8} : countDown value = value ↔ value = 0 := by
  constructor
  · intro h
    have hvalue := toNat_countDown value
    rw [h] at hvalue
    exact UInt8.toNat_inj.1 (by simpa using (by omega : value.toNat = 0))
  · rintro rfl
    rfl

namespace Machine

variable {m : Machine}

/-! ## One instruction -/

/-- There is something to count down in what an instruction reads from a timer or puts there. -/
def Counts (m : Machine) : Instruction → Prop
  | .readDelay _ => m.timers.delay ≠ 0
  | .setDelay x | .setSound x => m.registers.get x ≠ 0
  | _ => False

theorem not_counts_of_not_usesTimers {i : Instruction} (h : i.usesTimers = false) :
    ¬ m.Counts i := by
  cases i with
  | readDelay _ | setDelay _ | setSound _ => cases h
  | _ => exact not_false

/-- If there is nothing to count down, the work of an instruction may be done after a tick. -/
theorem effect_tick {i : Instruction} (h : ¬ m.Counts i) :
    m.tick.effect i = (m.effect i).tick := by
  cases i with
  | readDelay x =>
    have hzero := Timers.countDown_eq_self.2 (Decidable.not_not.1 h)
    exact congrArg (fun value => ({ m.tick with registers := m.registers.set x value } : Machine))
      hzero
  | setDelay x =>
    have hzero := Timers.countDown_eq_self.2 (Decidable.not_not.1 h)
    simp only [effect, tick, Timers.tick, hzero]
  | setSound x =>
    have hzero := Timers.countDown_eq_self.2 (Decidable.not_not.1 h)
    simp only [effect, tick, Timers.tick, hzero]
  | _ => rfl

/-- Otherwise a register or a timer tells whether the tick came first. -/
theorem not_counts_of_same {i : Instruction}
    (hget : ∀ x, (m.tick.effect i).registers.get x = (m.effect i).registers.get x)
    (htimers : (m.tick.effect i).timers = (m.effect i).timers.tick) : ¬ m.Counts i := by
  cases i with
  | readDelay x =>
    have hread := hget x
    simp only [effect, tick, Timers.tick, Registers.get_set_self] at hread
    exact not_not_intro (Timers.countDown_eq_self.1 hread)
  | setDelay x =>
    exact not_not_intro (Timers.countDown_eq_self.1 (congrArg Timers.delay htimers).symm)
  | setSound x =>
    exact not_not_intro (Timers.countDown_eq_self.1 (congrArg Timers.sound htimers).symm)
  | _ => exact not_false

/-! ## Cycles and runs -/

theorem aside_tick : Aside tick where
  waiting_eq _ := rfl
  memory_eq _ := rfl
  registers_eq _ := rfl
  keypad_eq _ := rfl
  screen_eq _ := rfl
  withMemory _ _ := rfl
  withKeypad _ _ := rfl
  withScreen _ _ := rfl
  withTracing _ _ := rfl
  moveTo_eq _ _ := rfl
  afterKey_eq _ _ := rfl
  record_eq _ _ := rfl
  tick_eq _ := rfl

/-- **When the order matters.** A tick and a cycle may change places exactly if there is nothing to
count down in what the cycle executes. -/
theorem cycle_tick_iff (hm : m.Reachable) :
    cycle m.tick = leaving tick (cycle m) ↔ ∀ i, m.ran? .cycle = some i → ¬ m.Counts i := by
  have hsize : m.memory.size = memorySize := hm.sound.memory_size
  refine ⟨fun h i hran => ?_, fun h => ?_⟩
  · obtain ⟨-, hc⟩ := cycles_of_ran? hsize hran
    rw [hc.cycle_eq, leaving_ok] at h
    obtain ⟨-, -, hget, -⟩ := work_of_cycle hsize hc.cycle_eq
    obtain ⟨-, -, hget', -⟩ := work_of_cycle (m := m.tick) hsize h
    have htimers := timers_cycles hc
    have htimers' := timers_cycles ((cycle_ok_iff (m := m.tick) hsize).1 h)
    -- What was counted down shows in the registers and the timers that both orders leave.
    refine not_counts_of_same (fun x => ?_) ?_
    · exact (hget' x).symm.trans (hget x)
    · exact htimers'.symm.trans (congrArg Timers.tick htimers)
  · exact aside_tick.cycle_eq hsize fun i hran => effect_tick (h i hran)

/-- **Ticks among cycles.** A cycle and a tick leave the same machine in either order, with the same
result or the same fault, unless the cycle executes an instruction that reads or sets a timer. -/
theorem cycle_tick (hm : m.Reachable)
    (hfree : ∀ i, m.ran? .cycle = some i → i.usesTimers = false) :
    cycle m.tick = leaving tick (cycle m) :=
  (cycle_tick_iff hm).2 fun i hran => not_counts_of_not_usesTimers (hfree i hran)

/-- A machine whose delay timer was set to five, about to add to a register. -/
def countingDown : Machine :=
  (programmed [0x60, 0x05, 0xF0, 0x15, 0x70, 0x01]).afterAll [.cycle, .cycle]

/-- The timer counts down to four before or after the addition. -/
theorem cycle_tick_countingDown :
    countingDown.Reachable ∧ countingDown.timers.delay = 5 ∧
      countingDown.ran? .cycle = some (.addByte 0 1) ∧
      (Instruction.addByte 0 1).usesTimers = false ∧
      cycle countingDown.tick = leaving tick (cycle countingDown) := by
  let program : List UInt8 := [0x60, 0x05, 0xF0, 0x15, 0x70, 0x01]
  let start := programmed program
  let loaded := start.afterWord 0x6005
  let ready := loaded.afterWord 0xF015
  have hprogram : start.memory = (Memory.blank memorySize).loadFont.put programBase program := rfl
  have hload : Cycles start (some (Instruction.decode 0x6005)) loaded :=
    .of_program (k := 0) hprogram (by decide) rfl rfl rfl rfl (by decide)
  have hset : Cycles loaded (some (Instruction.decode 0xF015)) ready :=
    .of_program (k := 2) hprogram (by decide) rfl rfl rfl rfl (by decide)
  have hadd : Cycles ready (some (Instruction.decode 0x7001)) (ready.afterWord 0x7001) :=
    .of_program (k := 4) hprogram (by decide) rfl rfl rfl rfl (by decide)
  have heq : countingDown = ready := by
    rw [countingDown, hload.afterAll_cons, hset.afterAll_cons, afterAll_nil]
  have hm : countingDown.Reachable := (reachable_programmed program).afterAll _
  have hdecode : Instruction.decode 0x7001 = .addByte 0 1 := by decide
  have hran : countingDown.ran? .cycle = some (.addByte 0 1) := by
    rw [heq, ran?_of_cycles hadd, hdecode]
  refine ⟨hm, by rw [heq]; rfl, hran, rfl, cycle_tick hm fun i hi => ?_⟩
  rw [hran] at hi
  cases hi
  rfl

/-- A tick may come after any calls in which there is nothing to count down. -/
theorem tick_afterAll (hm : m.Reachable) {calls : List Call} (havoid : Avoids Counts m calls) :
    m.tick.answers calls = m.answers calls ∧ m.tick.afterAll calls = (m.afterAll calls).tick :=
  aside_tick.afterAll (P := Sound) (fun h => h.memory_size) (fun call h => h.after call)
    (fun _ hnot => effect_tick hnot) hm.sound havoid

end Machine

end ChipEight
