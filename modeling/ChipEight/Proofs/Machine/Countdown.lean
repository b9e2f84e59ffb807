import ChipEight.Proofs.Machine.Invariant

/-!
# The timers count ticks

Two parties work on the timers: the machine, whose instructions set and read them, and whoever
ticks them. The speed of one has nothing to do with that of the other.

**Theorem (`timers_afterAll`).** After any calls on a machine that was just switched on, cycles that
are stopped, waits and skipped words among them, a timer shows the value to which an instruction set
it last, less the ticks since then, and never less than zero. It shows zero if it was never set.
Sound is on while this is positive for the sound timer. Neither timer has a part in what a call
makes of the other.

What one call makes of a timer is said once (`value_after`): a tick takes one off, an instruction
may set it to a register, and everything else leaves it alone. The theorem follows by induction
over the calls.
-/

namespace ChipEight

/-! ## One of two timers -/

/-- One of the timers. -/
inductive Timer where
  | delay
  | sound
  deriving Repr, DecidableEq

namespace Timer

/-- What a timer shows. -/
def value : Timer → Timers → UInt8
  | .delay, t => t.delay
  | .sound, t => t.sound

/-- The timers with one of them at some value. -/
def put (timer : Timer) (value : UInt8) (t : Timers) : Timers :=
  match timer with
  | .delay => { t with delay := value }
  | .sound => { t with sound := value }

/-- The register to which an instruction sets a timer. -/
def source? : Timer → Instruction → Option Register
  | .delay, .setDelay x => some x
  | .sound, .setSound x => some x
  | _, _ => none

theorem value_put_of_ne {timer other : Timer} (h : other ≠ timer) (value : UInt8) (t : Timers) :
    other.value (timer.put value t) = other.value t := by
  cases timer <;> cases other <;> first | rfl | exact absurd rfl h

theorem value_tick (timer : Timer) (t : Timers) :
    timer.value t.tick = Timers.countDown (timer.value t) := by
  cases timer <;> rfl

end Timer

namespace Machine

/-! ## One call -/

/-- The value to which a call sets a timer. -/
def setting? (timer : Timer) (m : Machine) (call : Call) : Option UInt8 :=
  ((m.ran? call).bind timer.source?).map m.registers.get

theorem value_effect (timer : Timer) (m : Machine) (i : Instruction) :
    timer.value (m.effect i).timers =
      ((timer.source? i).map m.registers.get).getD (timer.value m.timers) := by
  cases timer <;> cases i <;> rfl

theorem ticks_effect (m : Machine) (i : Instruction) :
    (m.effect i).timers.ticks = m.timers.ticks := by
  cases i <;> rfl

theorem timers_cycles {m m' : Machine} {result : Option Instruction} (h : Cycles m result m') :
    m'.timers = (result.map fun i => (m.effect i).timers).getD m.timers := by
  cases h with
  | idle _ _ | key _ _ _ | word _ _ _ => rfl

/-- Only ticks and executed instructions work on the timers. -/
theorem timers_after {m : Machine} (hsize : m.memory.size = memorySize) (call : Call) :
    (m.after call).timers =
      if call = .tick then m.timers.tick
      else ((m.ran? call).map fun i => (m.effect i).timers).getD m.timers := by
  rcases after_cases hsize call with ⟨rfl, hc⟩ | ⟨hran, _, _, _, _, _, _, hafter, -, htimers⟩
  · rw [if_neg (by decide)]
    exact timers_cycles hc
  · rw [hafter, hran]
    exact htimers

/-- **What a call makes of a timer.** -/
theorem value_after (timer : Timer) {m : Machine} (hsize : m.memory.size = memorySize)
    (call : Call) :
    timer.value (m.after call).timers =
      if call = .tick then Timers.countDown (timer.value m.timers)
      else (m.setting? timer call).getD (timer.value m.timers) := by
  rw [timers_after hsize]
  split
  · exact timer.value_tick m.timers
  · unfold setting?
    cases m.ran? call with
    | none => rfl
    | some i => exact value_effect timer m i

theorem ticks_after {m : Machine} (hsize : m.memory.size = memorySize) (call : Call) :
    (m.after call).timers.ticks = m.timers.ticks + if call = .tick then 1 else 0 := by
  rw [timers_after hsize]
  split
  · rfl
  · cases m.ran? call with
    | none => rfl
    | some i => exact ticks_effect m i

/-! ## The other timer -/

/-- The machine with other timers. -/
def withTimers (m : Machine) (timers : Timers) : Machine := { m with timers }

/-- What stops an instruction is not up to the timers. -/
theorem fault?_withTimers (m : Machine) (timers : Timers) (i : Instruction) :
    (m.withTimers timers).fault? i = m.fault? i :=
  fault?_congr rfl rfl rfl i

/-- Machines that differ in their timers only execute the same instruction. -/
theorem ran?_withTimers {m : Machine} (hsize : m.memory.size = memorySize) (timers : Timers)
    (call : Call) : (m.withTimers timers).ran? call = m.ran? call := by
  cases call with
  | cycle =>
    rcases cycles_or_stops m with ⟨result, m', hc⟩ | ⟨fault, hs⟩
    · rw [ran?_of_cycles hc]
      cases hc with
      | idle waiting pending => exact ran?_of_cycles (.idle waiting pending)
      | key waiting pending inside => exact ran?_of_cycles (.key waiting pending inside)
      | word waiting fetched free =>
        rw [← fault?_withTimers m timers] at free
        exact ran?_of_cycles (.word waiting fetched free)
    · have hsize' : (m.withTimers timers).memory.size = memorySize := hsize
      rw [ran?_of_stops hsize hs]
      exact ran?_of_stops hsize' (hs.map (f := (·.withTimers timers)) rfl rfl rfl rfl)
  | _ => rfl

/-- A timer has no part in what a call makes of the other one. -/
theorem value_after_put {timer other : Timer} (hne : other ≠ timer) {m : Machine}
    (hsize : m.memory.size = memorySize) (call : Call) (value : UInt8) :
    other.value ((m.withTimers (timer.put value m.timers)).after call).timers =
      other.value (m.after call).timers := by
  have hshown : other.value (m.withTimers (timer.put value m.timers)).timers =
      other.value m.timers := Timer.value_put_of_ne hne value m.timers
  have hsetting : (m.withTimers (timer.put value m.timers)).setting? other call =
      m.setting? other call := by
    unfold setting?
    rw [ran?_withTimers hsize]
    rfl
  have hsize' : (m.withTimers (timer.put value m.timers)).memory.size = memorySize := hsize
  rw [value_after other hsize, value_after other hsize', hsetting, hshown]

/-! ## Runs -/

/-- The latest setting of a timer by calls: the value, and the calls since then. -/
def latest? (timer : Timer) (m : Machine) : List Call → Option (UInt8 × List Call)
  | [] => none
  | call :: rest =>
    ((m.after call).latest? timer rest).or
      ((m.setting? timer call).map fun value => (value, rest))

/-- The value of the latest setting of a timer, less the ticks since then. -/
def remaining (timer : Timer) (m : Machine) (calls : List Call) : Nat :=
  match m.latest? timer calls with
  | some (value, since) => value.toNat - since.count .tick
  | none => 0

/-- What a timer shows after calls. Without a setting the ticks take from what it showed before. -/
theorem value_afterAll (timer : Timer) {m : Machine} (h : m.Sound) (calls : List Call) :
    (timer.value (m.afterAll calls).timers).toNat =
      match m.latest? timer calls with
      | some (value, since) => value.toNat - since.count .tick
      | none => (timer.value m.timers).toNat - calls.count .tick := by
  induction calls generalizing m with
  | nil => rfl
  | cons call rest ih =>
    have hrest := ih (h.after call)
    have hfirst := value_after timer h.memory_size call
    show (timer.value ((m.after call).afterAll rest).timers).toNat = _
    rw [hrest, latest?]
    -- A setting by a later call hides what the first call does.
    cases hlater : (m.after call).latest? timer rest with
    | some setting => rfl
    | none =>
      dsimp only
      rw [Option.none_or, hfirst]
      by_cases htick : call = .tick
      · subst htick
        -- A tick sets nothing, and is one more to count.
        have hnone : m.setting? timer .tick = none := rfl
        rw [if_pos rfl, hnone, Timers.toNat_countDown, Nat.sub_sub, Nat.add_comm,
          List.count_cons_self]
        rfl
      · rw [if_neg htick]
        cases hsetting : m.setting? timer call with
        | some value => rfl
        | none =>
          rw [List.count_cons_of_ne htick]
          rfl

theorem ticks_afterAll {m : Machine} (h : m.Sound) (calls : List Call) :
    (m.afterAll calls).timers.ticks = m.timers.ticks + calls.count .tick := by
  induction calls generalizing m with
  | nil => rfl
  | cons call rest ih =>
    have hfirst := ticks_after h.memory_size call
    show ((m.after call).afterAll rest).timers.ticks = _
    rw [ih (h.after call), hfirst, List.count_cons, Nat.add_assoc, Nat.add_comm (List.count _ _)]
    simp only [beq_iff_eq]

theorem soundOn_iff (t : Timers) : t.soundOn = true ↔ 0 < (Timer.sound.value t).toNat := by
  have hzero : t.sound = 0 ↔ t.sound.toNat = 0 := UInt8.toNat_inj.symm
  unfold Timers.soundOn Timer.value
  rw [decide_eq_true_iff, ne_eq, hzero, Nat.pos_iff_ne_zero]

/-- **The timers count ticks.** The last part says of every machine on the way that a call makes
the same of a timer whatever the other one shows. -/
theorem timers_afterAll (random : Random.Source) (variant : Variant) (calls : List Call) :
    let start := fresh random variant
    let m := start.afterAll calls
    (∀ timer : Timer, (timer.value m.timers).toNat = start.remaining timer calls) ∧
      (m.timers.soundOn = true ↔ 0 < start.remaining .sound calls) ∧
      m.timers.ticks = calls.count .tick ∧
      ∀ timer other : Timer, other ≠ timer → ∀ (call : Call) (value : UInt8),
        other.value ((m.withTimers (timer.put value m.timers)).after call).timers =
          other.value (m.after call).timers := by
  intro start m
  have hstart : start.Sound := sound_fresh random variant
  have hvalue (timer : Timer) :
      (timer.value m.timers).toNat = start.remaining timer calls := by
    have hzero : timer.value start.timers = 0 := by cases timer <;> rfl
    rw [value_afterAll timer hstart calls, hzero, remaining]
    cases start.latest? timer calls with
    | some setting => rfl
    | none => exact Nat.zero_sub _
  have hticks : m.timers.ticks = calls.count .tick := by
    rw [ticks_afterAll hstart calls]
    exact Nat.zero_add _
  refine ⟨hvalue, ?_, hticks, fun timer other hne call value => ?_⟩
  · rw [soundOn_iff, hvalue]
  · exact value_after_put hne (hstart.afterAll calls).memory_size call value

end Machine

end ChipEight
