import ChipEight.Proofs.Emulator.Frame

/-!
# A strict and a lenient emulator side by side

Two emulators that differ only in whether they are strict are called in the same way.

**Theorem (`twins_until_invalid`).** Until a call is stopped by an invalid word in the strict one,
both give the same answers and stay the same in everything else, and the lenient one has noted
nothing. At the first call that is stopped so, which may be in the middle of a frame, both come by
the same steps to the same machine, which is about to execute that word. There the strict one is
stopped, and the first note of the lenient one is that word and its address.

Calls that go to the machine itself know no policy, so a cycle that somebody else runs is stopped in
both.

One step is compared first (`step_cases`): the policy has a part in it only at an invalid word. So
any number of steps either go the same way in both emulators or part at an invalid word (`Alike`).
-/

namespace ChipEight

/-- Whether a fault is about a word that stands for no instruction. -/
def Fault.isInvalid : Fault → Bool
  | .invalidOpcode _ _ => true
  | _ => false

theorem Fault.isInvalid_eq_false_iff {fault : Fault} :
    fault.isInvalid = false ↔ ∀ pc word, fault ≠ .invalidOpcode pc word := by
  cases fault <;> simp [Fault.isInvalid]

/-- Whether a call was stopped by a word that stands for no instruction. -/
def Answer.isInvalid : Answer → Bool
  | .stopped fault => fault.isInvalid
  | _ => false

namespace Emulator

/-! ## What only grows -/

/-- The words that an emulator has noted are among those that it notes later, in the same order. -/
def Notes (e e' : Emulator) : Prop := e.skipped.toList <+: e'.skipped.toList

section Notes

variable {e e' : Emulator} {result : Option Instruction} {fault : Fault}

theorem notes_noted (e : Emulator) (word : UInt16) : e.Notes (e.noted word) := by
  unfold Notes noted
  rw [Array.toList_push]
  exact List.prefix_append _ _

theorem Steps.notes (h : Steps e result e') : e.Notes e' := by
  cases h with
  | cycle _ => exact List.prefix_rfl
  | skip _ _ _ => exact e.notes_noted _

theorem Fails.notes (h : Fails e fault e') : e.Notes e' := by
  cases h with
  | fatal _ _ => exact List.prefix_rfl
  | lastWord _ _ _ => exact e.notes_noted _

/-- Steps take no note back, also if they are stopped. -/
theorem notes_steps (count executed : Nat) (hsize : e.machine.memory.size = memorySize) :
    e.Notes (leftBy (steps count executed) e) := by
  induction count generalizing executed e with
  | zero => exact List.prefix_rfl
  | succ count ih =>
    rw [steps, leftBy_bind]
    rcases steps_or_fails e with ⟨result, e', hsteps⟩ | ⟨fault, e', hfails⟩
    · rw [hsteps.step_eq hsize]
      exact hsteps.notes.trans (ih _ (hsteps.sameClock.size_eq.trans hsize))
    · rw [hfails.step_eq hsize]
      exact hfails.notes

/-- The tick at the end of a frame notes nothing. -/
theorem notes_runFrame (e : Emulator) :
    (leftBy (steps e.cyclesPerFrame 0) e).Notes (e.after .runFrame) := by
  have hframe : e.after .runFrame = leftBy (steps e.cyclesPerFrame 0 >>= fun executed => do
      modify fun e => { e.tick with frames := e.frames + 1 }
      return executed) e := by
    show leftBy runFrame e = _
    rw [leftBy, runFrame_eq, leftBy]
  rw [hframe, leftBy_bind, leftBy]
  cases steps e.cyclesPerFrame 0 e <;> exact List.prefix_rfl

end Notes

/-! ## Twins -/

/-- The emulator with another policy. -/
def withPolicy (e : Emulator) (strict : Bool) : Emulator := { e with strict }

/-- Nothing was noted between two emulators, and the bounds of memory are the same. -/
structure Quiet (e e' : Emulator) : Prop where
  skipped_eq : e'.skipped = e.skipped
  size_eq : e'.machine.memory.size = e.machine.memory.size

theorem Quiet.refl (e : Emulator) : Quiet e e := ⟨rfl, rfl⟩

theorem Quiet.trans {e e' e'' : Emulator} (h : Quiet e e') (h' : Quiet e' e'') : Quiet e e'' :=
  ⟨h'.skipped_eq.trans h.skipped_eq, h'.size_eq.trans h.size_eq⟩

/-! ## One step -/

/-- A step goes the same way under both policies, or it is at an invalid word. -/
theorem step_cases {e : Emulator} (hsize : e.machine.memory.size = memorySize) :
    (∃ result e', (∀ strict, step (e.withPolicy strict) = .ok result (e'.withPolicy strict)) ∧
      Quiet e e') ∨
    (∃ fault, (∀ strict, step (e.withPolicy strict) = .error fault (e.withPolicy strict)) ∧
      fault.isInvalid = false) ∨
    ∃ word, e.machine.AtUnknown word := by
  rcases Machine.cycles_or_stops e.machine with ⟨result, m, hcycles⟩ | ⟨fault, hstops⟩
  · have hends (strict : Bool) : step (e.withPolicy strict) =
        .ok result (withPolicy { e with machine := m } strict) := step_of_ok hcycles.cycle_eq
    exact .inl ⟨result, _, hends, rfl, hcycles.size_eq⟩
  · by_cases hother : fault.isInvalid = false
    · have hends (strict : Bool) :
          step (e.withPolicy strict) = .error fault (e.withPolicy strict) :=
        step_of_fatal (hstops.cycle_eq hsize) (.inr (Fault.isInvalid_eq_false_iff.1 hother))
      exact .inr (.inl ⟨fault, hends, hother⟩)
    · cases fault with
      | invalidOpcode pc word =>
        exact .inr (.inr ⟨word, (Machine.stops_invalidOpcode_iff.1 hstops).2⟩)
      | _ => exact absurd rfl hother

section AtUnknown

variable {e : Emulator} {word : UInt16} (hsize : e.machine.memory.size = memorySize)
  (h : e.machine.AtUnknown word)

include hsize h

theorem step_strict : step (e.withPolicy true) =
    .error (.invalidOpcode e.machine.registers.pc word) (e.withPolicy true) :=
  step_of_fatal (e := e.withPolicy true) (cycle_of_atUnknown hsize h) (.inl rfl)

/-- A lenient step notes the word, whether or not there is anything after it. -/
theorem skipped_after_step_lenient :
    ((e.withPolicy false).after .step).skipped =
      e.skipped.push (e.machine.registers.pc, word) := by
  have hsize' : (e.withPolicy false).machine.memory.size = memorySize := hsize
  show (leftBy step (e.withPolicy false)).skipped = _
  by_cases hinside : e.machine.registers.pc + 2 < memorySize
  · have hskip : Steps (e.withPolicy false) none ((e.withPolicy false).pastWord word) :=
      .skip rfl h hinside
    rw [leftBy, hskip.step_eq hsize']
    rfl
  · have hlast : Fails (e.withPolicy false) _ ((e.withPolicy false).noted word) :=
      .lastWord rfl h (Int.not_lt.1 hinside)
    rw [leftBy, hlast.step_eq hsize']
    rfl

end AtUnknown

/-! ## Any number of steps -/

/-- How a number of steps go under both policies. -/
inductive Alike (count executed : Nat) (e : Emulator) : Prop
  /-- All of them go the same way. -/
  | done {total : Nat} {e' : Emulator}
      (ends : ∀ strict, steps count executed (e.withPolicy strict) =
        .ok total (e'.withPolicy strict))
      (quiet : Quiet e e')
  /-- A fault stops both, and it is not about an invalid word. -/
  | stopped {fault : Fault} {e' : Emulator}
      (ends : ∀ strict, steps count executed (e.withPolicy strict) =
        .error fault (e'.withPolicy strict))
      (other : fault.isInvalid = false) (quiet : Quiet e e')
  /-- Both come to an invalid word, where the strict one is stopped and the lenient one notes it. -/
  | parted {taken total : Nat} {e' : Emulator} {word : UInt16} (fewer : taken < count)
      (comes : ∀ strict, steps taken executed (e.withPolicy strict) =
        .ok total (e'.withPolicy strict))
      (quiet : Quiet e e') (unknown : e'.machine.AtUnknown word)
      (strict : steps count executed (e.withPolicy true) =
        .error (.invalidOpcode e'.machine.registers.pc word) (e'.withPolicy true))
      (lenient : ((e'.withPolicy false).after .step).Notes
        (leftBy (steps count executed) (e.withPolicy false)))

theorem alike_steps (count executed : Nat) {e : Emulator}
    (hsize : e.machine.memory.size = memorySize) : Alike count executed e := by
  induction count generalizing executed e with
  | zero => exact .done (fun _ => rfl) (.refl e)
  | succ count ih =>
    rcases step_cases hsize with
      ⟨result, middle, hstep, hquiet⟩ | ⟨fault, hstep, hother⟩ | ⟨word, hunknown⟩
    · -- After a step that goes the same way, the rest decides.
      have hrest (count : Nat) (strict : Bool) :
          steps (count + 1) executed (e.withPolicy strict) =
            steps count (executed + if result.isSome then 1 else 0)
              (middle.withPolicy strict) := by
        rw [steps, bind_of_ok (hstep strict)]
      cases ih (executed + if result.isSome then 1 else 0) (hquiet.size_eq.trans hsize) with
      | done ends quiet =>
        exact .done (fun strict => (hrest count strict).trans (ends strict)) (hquiet.trans quiet)
      | stopped ends other quiet =>
        exact .stopped (fun strict => (hrest count strict).trans (ends strict)) other
          (hquiet.trans quiet)
      | @parted taken _ _ _ fewer comes quiet unknown strict lenient =>
        refine .parted (Nat.succ_lt_succ fewer)
          (fun strict => (hrest taken strict).trans (comes strict)) (hquiet.trans quiet) unknown
          ((hrest count true).trans strict) ?_
        rw [leftBy, hrest count false]
        exact lenient
    -- A fault that is not up to the policy stops both.
    · exact .stopped (fun strict => by rw [steps, bind_of_error (hstep strict)]) hother (.refl e)
    -- The very first step comes to the invalid word: the strict one is stopped at it.
    · refine .parted (Nat.succ_pos count) (fun _ => rfl) (.refl e) hunknown ?_ ?_
      · rw [steps, bind_of_error (step_strict hsize hunknown)]
      · rw [steps, leftBy_bind]
        have hsize' : (e.withPolicy false).machine.memory.size = memorySize := hsize
        show Notes (leftBy step (e.withPolicy false)) _
        rw [leftBy]
        cases hstep : step (e.withPolicy false) with
        | error _ _ => exact List.prefix_rfl
        | ok _ e' =>
          have hsteps := (step_ok_iff hsize').1 hstep
          exact notes_steps _ _ (hsteps.sameClock.size_eq.trans hsize')

/-! ## One call -/

/-- How many steps a call takes if none of them is stopped. -/
def span (e : Emulator) : Call → Nat
  | .step => 1
  | .runFrame => e.cyclesPerFrame
  | .load _ _ | .tick | .onMachine _ => 0

/-- How a call goes under both policies. -/
inductive Matched (call : Call) (e : Emulator) : Prop
  /-- It goes the same way, and it was not stopped by an invalid word unless it was a cycle of the
  machine itself. -/
  | same (answer : Answer) (e' : Emulator)
      (gives : ∀ strict, (e.withPolicy strict).answer call = answer)
      (leaves : ∀ strict, (e.withPolicy strict).after call = e'.withPolicy strict)
      (quiet : Quiet e e') (other : answer.isInvalid = true → call = .onMachine .cycle)
  /-- After some steps both are at an invalid word. -/
  | parted {taken total : Nat} {e' : Emulator} {word : UInt16} (fewer : taken < e.span call)
      (comes : ∀ strict, steps taken 0 (e.withPolicy strict) = .ok total (e'.withPolicy strict))
      (quiet : Quiet e e') (unknown : e'.machine.AtUnknown word)
      (gives : (e.withPolicy true).answer call =
        .stopped (.invalidOpcode e'.machine.registers.pc word))
      (leaves : (e.withPolicy true).after call = e'.withPolicy true)
      (notes : ((e'.withPolicy false).after .step).Notes ((e.withPolicy false).after call))

/-- Of the calls on a machine only a cycle is stopped by an invalid word. -/
theorem eq_cycle_of_isInvalid {m : Machine} {call : Machine.Call}
    (h : (m.answer call).isInvalid = true) : call = .cycle := by
  have hkey (code : Int) : (Answer.ofKey (Key.ofCode code)).isInvalid = false := by
    unfold Key.ofCode
    split <;> rfl
  cases call with
  | cycle => rfl
  | load program base =>
    rw [Machine.answer_load] at h
    cases hload : m.memory.loadProgram program base <;> rw [hload] at h <;> cases h
  | keyDown code =>
    rw [Machine.answer_keyDown, hkey] at h
    cases h
  | keyUp code =>
    rw [Machine.answer_keyUp, hkey] at h
    cases h
  -- To go past a word can only be stopped by the end of memory.
  | skipWord =>
    rw [Machine.answer_skipWord] at h
    cases hgo : Machine.goFault? (m.registers.pc + 2) with
    | none =>
      rw [hgo] at h
      cases h
    | some fault =>
      obtain ⟨-, rfl⟩ := Machine.goFault?_eq_some.1 hgo
      rw [hgo] at h
      cases h
  | tick | consume | trace _ => cases h

section Call

variable {e : Emulator} (hsize : e.machine.memory.size = memorySize)

include hsize

theorem matched_onMachine (call : Machine.Call) : Matched (.onMachine call) e := by
  refine .same (e.machine.answer call) { e with machine := e.machine.after call }
    (fun _ => rfl) (fun _ => rfl) ⟨rfl, ?_⟩ fun h => ?_
  · exact (Machine.size_after hsize call).trans hsize.symm
  · rw [eq_cycle_of_isInvalid h]

theorem matched_load (program : List UInt8) (base : Int) : Matched (.load program base) e := by
  have hload (strict : Bool) : (e.withPolicy strict).loadProgram program base =
      (·.withPolicy strict) <$> e.loadProgram program base := by
    have hmachine : (e.withPolicy strict).machine = e.machine := rfl
    unfold loadProgram
    rw [hmachine]
    cases e.machine.loadProgram program base <;> rfl
  refine .same (e.answer (.load program base)) (e.after (.load program base))
    (fun strict => ?_) (fun strict => ?_) ⟨?_, ?_⟩ fun h => ?_
  · rw [answer, hload, answer]
    cases e.loadProgram program base <;> rfl
  · rw [after, hload, after]
    cases e.loadProgram program base <;> rfl
  · rw [after]
    unfold loadProgram
    cases e.machine.loadProgram program base <;> rfl
  · rw [machine_after_load, Machine.size_after hsize, hsize]
  · rw [answer] at h
    cases hresult : e.loadProgram program base <;> rw [hresult] at h <;> cases h

theorem matched_step : Matched .step e := by
  rcases step_cases hsize with
    ⟨result, e', hstep, hquiet⟩ | ⟨fault, hstep, hother⟩ | ⟨word, hunknown⟩
  · exact .same (.instruction result) e'
      (fun strict => congrArg (Answer.ofResult .instruction) (hstep strict))
      (fun strict => after_step_of_ok (hstep strict)) hquiet fun h => absurd h Bool.false_ne_true
  · refine .same (.stopped fault) e
      (fun strict => congrArg (Answer.ofResult .instruction) (hstep strict))
      (fun strict => ?_) (.refl e) fun h => absurd h (Bool.eq_false_iff.1 hother)
    show leftBy step (e.withPolicy strict) = _
    rw [leftBy, hstep strict]
  · have hstrict := step_strict hsize hunknown
    refine .parted Nat.one_pos (fun _ => rfl) (.refl e) hunknown
      (congrArg (Answer.ofResult .instruction) hstrict) ?_ List.prefix_rfl
    show leftBy step (e.withPolicy true) = _
    rw [leftBy, hstrict]

theorem matched_runFrame : Matched .runFrame e := by
  -- A frame is stopped where its steps are, and otherwise ends with a tick.
  have hok {strict : Bool} {total : Nat} {e' : Emulator}
      (h : steps e.cyclesPerFrame 0 (e.withPolicy strict) = .ok total (e'.withPolicy strict)) :
      runFrame (e.withPolicy strict) =
        .ok total (withPolicy { e'.tick with frames := e'.frames + 1 } strict) :=
    (runFrame_eq _).trans (bind_of_ok h)
  have herror {strict : Bool} {fault : Fault} {e' : Emulator}
      (h : steps e.cyclesPerFrame 0 (e.withPolicy strict) = .error fault (e'.withPolicy strict)) :
      runFrame (e.withPolicy strict) = .error fault (e'.withPolicy strict) :=
    (runFrame_eq _).trans (bind_of_error h)
  have hleft {strict : Bool} {fault : Fault} {e' : Emulator}
      (h : steps e.cyclesPerFrame 0 (e.withPolicy strict) = .error fault (e'.withPolicy strict)) :
      (e.withPolicy strict).after .runFrame = e'.withPolicy strict := by
    show leftBy runFrame _ = _
    rw [leftBy, herror h]
  cases alike_steps e.cyclesPerFrame 0 hsize with
  | @done total last ends quiet =>
    refine .same (.executed total) { last.tick with frames := last.frames + 1 }
      (fun strict => congrArg (Answer.ofResult .executed) (hok (ends strict)))
      (fun strict => ?_) ⟨quiet.skipped_eq, quiet.size_eq⟩ fun h => absurd h Bool.false_ne_true
    show leftBy runFrame _ = _
    rw [leftBy, hok (ends strict)]
  | @stopped fault last ends other quiet =>
    exact .same (.stopped fault) last
      (fun strict => congrArg (Answer.ofResult .executed) (herror (ends strict)))
      (fun strict => hleft (ends strict)) quiet fun h => absurd h (Bool.eq_false_iff.1 other)
  | parted fewer comes quiet unknown strict lenient =>
    refine .parted fewer comes quiet unknown
      (congrArg (Answer.ofResult .executed) (herror strict)) (hleft strict) (lenient.trans ?_)
    exact notes_runFrame (e.withPolicy false)

/-- **One call.** It goes the same way under both policies, or both come to an invalid word. -/
theorem matched (call : Call) : Matched call e :=
  match call with
  | .load program base => matched_load hsize program base
  | .step => matched_step hsize
  | .tick =>
    .same .nothing e.tick (fun _ => rfl) (fun _ => rfl) ⟨rfl, rfl⟩
      fun h => absurd h Bool.false_ne_true
  | .runFrame => matched_runFrame hsize
  | .onMachine call => matched_onMachine hsize call

end Call

/-! ## Calls -/

/-- While no call is stopped by an invalid word in the strict emulator, both stay the same. -/
theorem same_afterAll {e : Emulator} (hsize : e.machine.memory.size = memorySize)
    (calls : List Call)
    (hfree : ∀ answer ∈ (e.withPolicy true).answers calls, answer.isInvalid = false) :
    (e.withPolicy false).answers calls = (e.withPolicy true).answers calls ∧
      ∃ e', (∀ strict, (e.withPolicy strict).afterAll calls = e'.withPolicy strict) ∧
        Quiet e e' := by
  induction calls generalizing e with
  | nil => exact ⟨rfl, e, fun _ => rfl, .refl e⟩
  | cons call rest ih =>
    obtain ⟨hfirst, hrest⟩ := List.forall_mem_cons.1 hfree
    cases matched hsize call with
    | same answer middle gives leaves quiet _ =>
      rw [leaves true] at hrest
      obtain ⟨hanswers, e', hafter, hquiet⟩ := ih (quiet.size_eq.trans hsize) hrest
      refine ⟨?_, e', fun strict => ?_, quiet.trans hquiet⟩
      · show _ :: answers _ rest = _ :: answers _ rest
        rw [gives true, gives false, leaves true, leaves false, hanswers]
      · show ((e.withPolicy strict).after call).afterAll rest = _
        rw [leaves strict, hafter strict]
    -- The strict one would have been stopped here.
    | parted _ _ _ _ gives _ _ =>
      rw [gives] at hfirst
      cases hfirst

/-- **Two emulators that differ in their policy only.** The calls so far were not stopped by an
invalid word in the strict one. Then both gave the same answers, they are the same but for the
policy, and the lenient one has noted nothing. If the next call is stopped by an invalid word in the
strict one, then some steps, fewer than the call asks for, bring the lenient one to the machine that
the strict one is left with, which is at that word. The next step notes the word and its address,
and that is the first note that the call leaves. -/
theorem twins_until_invalid {e : Emulator} (hsize : e.machine.memory.size = memorySize)
    (hnone : e.skipped = #[]) (calls : List Call)
    (hfree : ∀ answer ∈ (e.withPolicy true).answers calls, answer.isInvalid = false) :
    let strict := (e.withPolicy true).afterAll calls
    let lenient := (e.withPolicy false).afterAll calls
    (e.withPolicy false).answers calls = (e.withPolicy true).answers calls ∧
    lenient = strict.withPolicy false ∧ lenient.skipped = #[] ∧
    ∀ call pc word, call ≠ .onMachine .cycle →
      strict.answer call = .stopped (.invalidOpcode pc word) →
      ∃ taken total e', taken < strict.span call ∧
        steps taken 0 lenient = .ok total e' ∧ e'.skipped = #[] ∧
        e'.machine = (strict.after call).machine ∧
        pc = e'.machine.registers.pc ∧ e'.machine.AtUnknown word ∧
        (e'.after .step).skipped = #[(pc, word)] ∧
        (lenient.after call).skipped[0]? = some (pc, word) := by
  intro strict lenient
  obtain ⟨hanswers, now, hafter, hquiet⟩ := same_afterAll hsize calls hfree
  have hstrict : strict = now.withPolicy true := hafter true
  have hlenient : lenient = now.withPolicy false := hafter false
  have hnow : now.machine.memory.size = memorySize := hquiet.size_eq.trans hsize
  rw [hstrict, hlenient]
  refine ⟨hanswers, rfl, hquiet.skipped_eq.trans hnone, fun call pc word hcall hstopped => ?_⟩
  cases matched hnow call with
  | same _ _ gives _ _ other =>
    rw [gives true] at hstopped
    rw [hstopped] at other
    exact absurd (other rfl) hcall
  -- The notes of the call begin with that of the step that comes to the word.
  | @parted taken total e' _ fewer comes quiet unknown gives leaves notes =>
    rw [gives] at hstopped
    cases hstopped
    have hskipped : e'.skipped = #[] :=
      quiet.skipped_eq.trans (hquiet.skipped_eq.trans hnone)
    have hnote : ((e'.withPolicy false).after .step).skipped =
        #[(e'.machine.registers.pc, word)] := by
      rw [skipped_after_step_lenient (quiet.size_eq.trans hnow) unknown, hskipped]
      rfl
    refine ⟨taken, total, e'.withPolicy false, fewer, comes false, hskipped, ?_, rfl, unknown,
      hnote, ?_⟩
    · rw [leaves]
      rfl
    · obtain ⟨later, hlater⟩ := notes
      rw [hnote] at hlater
      rw [← Array.getElem?_toList, ← hlater]
      rfl

/-- The second word of this program stands for no instruction. -/
def withBadSecondWord : Emulator := lenientWith [0x61, 0x07, 0x01, 0x23]

theorem runFrame_withBadSecondWord :
    ∃ e', runFrame (withBadSecondWord.tick.withPolicy true) =
      .error (.invalidOpcode 0x202 0x0123) e' := by
  have hword {rest : List UInt8} {high low : UInt8} (k : Nat)
      (hk : [0x61, 0x07, 0x01, 0x23].drop k = high :: low :: rest) :
      withBadSecondWord.tick.machine.memory.readWord (programBase + k) =
        .ok (Word.ofBytes high low) :=
    Memory.readWord_put_drop Memory.size_bytes_loadFont_blank (by decide) (by decide) hk
  have hfirst : withBadSecondWord.tick.machine.memory.readWord programBase = .ok 0x6107 :=
    hword 0 rfl
  have hsecond : withBadSecondWord.tick.machine.memory.readWord 0x202 = .ok 0x0123 := hword 2 rfl
  have hcycles : Machine.Cycles withBadSecondWord.tick.machine _
      (withBadSecondWord.tick.machine.afterWord 0x6107) := .word rfl hfirst (by decide)
  have hunknown : (withBadSecondWord.tick.machine.afterWord 0x6107).AtUnknown 0x0123 :=
    ⟨rfl, hsecond, by decide⟩
  let next : Emulator :=
    { withBadSecondWord.tick with machine := withBadSecondWord.tick.machine.afterWord 0x6107 }
  have hstep : step (withBadSecondWord.tick.withPolicy true) = .ok _ (next.withPolicy true) :=
    step_of_ok hcycles.cycle_eq
  have hstopped := step_strict (e := next) rfl hunknown
  refine ⟨next.withPolicy true, (runFrame_eq _).trans (bind_of_error ?_)⟩
  have hcount : (withBadSecondWord.tick.withPolicy true).cyclesPerFrame = 8 + 1 + 1 := rfl
  rw [hcount, steps, bind_of_ok hstep, steps, bind_of_error hstopped]
  rfl

/-- In the middle of a frame the strict emulator is stopped, and the lenient one notes the word. -/
theorem twins_until_second_word :
    withBadSecondWord.machine.memory.size = memorySize ∧ withBadSecondWord.skipped = #[] ∧
      ((withBadSecondWord.withPolicy true).afterAll [.tick]).answer .runFrame =
        .stopped (.invalidOpcode 0x202 0x0123) ∧
      (((withBadSecondWord.withPolicy false).afterAll [.tick]).after .runFrame).skipped[0]? =
        some (0x202, 0x0123) := by
  have hsize : withBadSecondWord.machine.memory.size = memorySize := rfl
  have hnone : withBadSecondWord.skipped = #[] := rfl
  have hfree : ∀ answer ∈ (withBadSecondWord.withPolicy true).answers [.tick],
      answer.isInvalid = false := by
    intro answer hmem
    rw [List.mem_singleton.1 hmem]
    rfl
  have htwins := twins_until_invalid hsize hnone [.tick] hfree
  obtain ⟨e', hframe⟩ := runFrame_withBadSecondWord
  have hanswer : ((withBadSecondWord.withPolicy true).afterAll [.tick]).answer .runFrame =
      .stopped (.invalidOpcode 0x202 0x0123) := by
    show Answer.ofResult .executed (runFrame (withBadSecondWord.tick.withPolicy true)) = _
    rw [hframe]
    rfl
  obtain ⟨_, _, _, -, -, -, -, -, -, -, hnote⟩ :=
    htwins.2.2.2 .runFrame 0x202 0x0123 (by decide) hanswer
  exact ⟨hsize, hnone, hanswer, hnote⟩

end Emulator

end ChipEight
