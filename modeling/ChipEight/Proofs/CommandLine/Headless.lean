import ChipEight.Proofs.CommandLine.Disassembly
import ChipEight.Proofs.Display.Pace
import ChipEight.Proofs.Emulator.Report

/-!
# Runs without a window

The command reads its options, sets up an emulator, loads the file into it, and runs it for a number
of frames with a recorder that nobody disturbs.

**Theorem (`carryOut_headless`).** Take the sequence of steps from the emulator with the file in its
memory, as many as the frames of the limit have. If none of them is stopped, the exit status is zero
and the output tells the frames, the instructions that were executed, and the words that were
skipped. Otherwise the exit status is one, and the messages are two. The first one names the fault of
the first step that is stopped, and no other fault. The second one shows the state that this step
leaves, in which the whole frames before it are counted.

The options may stand before and after the path, in any order and more than once: each of them
changes the settings in its place (`parse_choices`). What the run does is said by the sequence of
steps (`Session.run_of_goes`, `Session.run_of_stops`), and the numbers that are printed are counted
along it.
-/

namespace ChipEight.CommandLine

open Text

/-! ## Options -/

/-- A text on the command line that spells a number. -/
structure Numeral where
  text : String
  value : Int
  reads : readInt .decimal text.toList = .ok value
  argument : readWords [text] = .ok [.argument text]

/-- An option of a run without a window. -/
inductive Choice where
  | headless
  | lenient
  | shiftVy
  | noIndexWrap
  | hz (number : Numeral)
  | seed (number : Numeral)
  | frames (number : Numeral)

namespace Choice

/-- The option as it is typed. -/
def words : Choice → List String
  | headless => ["--headless"]
  | lenient => ["--lenient"]
  | shiftVy => ["--shift-vy"]
  | noIndexWrap => ["--no-index-wrap"]
  | hz number => ["--hz", number.text]
  | seed number => ["--seed", number.text]
  | frames number => ["--frames", number.text]

/-- The option as it is read. -/
def read : Choice → List Word
  | headless => [.option .headless .none]
  | lenient => [.option .lenient .none]
  | shiftVy => [.option .shiftVy .none]
  | noIndexWrap => [.option .noIndexWrap .none]
  | hz number => [.option .hz .none, .argument number.text]
  | seed number => [.option .seed .none, .argument number.text]
  | frames number => [.option .frames .none, .argument number.text]

/-- What the option does to the settings. -/
def choose (s : Settings) : Choice → Settings
  | headless => { s with headless := true }
  | lenient => { s with lenient := true }
  | shiftVy => { s with shiftVy := true }
  | noIndexWrap => { s with noIndexWrap := true }
  | hz number => { s with hz := .number number.value }
  | seed number => { s with seed := some (.number number.value) }
  | frames number => { s with frames := some (.number number.value) }

end Choice

/-- The settings that come of some options; of those that say different things the last one
counts. -/
def settingsOf (choices : List Choice) : Settings := choices.foldl Choice.choose {}

/-! ## Reading the options -/

variable {rest : List String} {ws : List Word}

theorem readWords_cons {word : String} {w : Word} (hdivider : word ≠ "--")
    (hword : readWord word = .ok w) (hrest : readWords rest = .ok ws) :
    readWords (word :: rest) = .ok (w :: ws) := by
  rw [readWords, if_neg hdivider, hword, hrest]
  rfl

theorem readWords_argument {word : String} (h : readWords [word] = .ok [.argument word])
    (hrest : readWords rest = .ok ws) : readWords (word :: rest) = .ok (.argument word :: ws) := by
  obtain ⟨hdivider, hword⟩ := argument_of_readWords h
  exact readWords_cons hdivider hword hrest

theorem readWords_choice (c : Choice) (hrest : readWords rest = .ok ws) :
    readWords (c.words ++ rest) = .ok (c.read ++ ws) := by
  cases c with
  | hz number | seed number | frames number =>
    exact readWords_cons (by decide) rfl (readWords_argument number.argument hrest)
  | _ => exact readWords_cons (by decide) rfl hrest

theorem readWords_choices (choices : List Choice) (hrest : readWords rest = .ok ws) :
    readWords (choices.flatMap Choice.words ++ rest) =
      .ok (choices.flatMap Choice.read ++ ws) := by
  induction choices with
  | nil => exact hrest
  | cons c choices ih =>
    rw [List.flatMap_cons, List.flatMap_cons, List.append_assoc, List.append_assoc]
    exact readWords_choice c ih

theorem findIn_switch (f : Found) {flag : Flag} (hhelp : flag ≠ .help)
    (hvalue : flag.takesValue = false) (ws : List Word) :
    findIn f (.option flag .none :: ws) = findIn (f.switchOn flag) ws := by
  rw [findIn.eq_def]
  simp only [if_neg hhelp, hvalue, if_neg Bool.false_ne_true]

theorem findIn_amount (f : Found) {flag : Flag} (hhelp : flag ≠ .help)
    (hvalue : flag.takesValue = true) (number : Numeral) (ws : List Word) :
    findIn f (.option flag .none :: .argument number.text :: ws) =
      findIn (f.setAmount flag (.number number.value)) ws := by
  have hdivider := (argument_of_readWords number.argument).1
  have hset : f.setText flag number.text = .ok (f.setAmount flag (.number number.value)) := by
    rw [Found.setText, if_neg hdivider, number.reads]
  rw [findIn.eq_def]
  simp only [if_neg hhelp, hvalue, if_pos, hset]
  rfl

theorem findIn_choice (f : Found) (c : Choice) (ws : List Word) :
    findIn f (c.read ++ ws) = findIn { f with settings := c.choose f.settings } ws := by
  cases c with
  | hz number | seed number | frames number => exact findIn_amount f (by decide) rfl number ws
  | _ => exact findIn_switch f (by decide) rfl ws

theorem findIn_choices (f : Found) (choices : List Choice) (ws : List Word) :
    findIn f (choices.flatMap Choice.read ++ ws) =
      findIn { f with settings := choices.foldl Choice.choose f.settings } ws := by
  induction choices generalizing f with
  | nil => rfl
  | cons c choices ih =>
    rw [List.flatMap_cons, List.append_assoc, findIn_choice, ih]
    rfl

/-- No option is read as a double dash. -/
theorem choices_ne_divider (choices : List Choice) (ws : List Word) :
    choices.flatMap Choice.read ≠ .divider :: ws := by
  cases choices with
  | nil => exact (List.cons_ne_nil _ _).symm
  | cons c choices => cases c <;> exact fun h => Word.noConfusion (List.cons.inj h).1

theorem findIn_program {f : Found} (path : String) (hnone : f.program = none)
    (hdivider : ∀ rest, ws ≠ .divider :: rest) :
    findIn f (.argument path :: ws) = findIn { f with program := some path } ws := by
  rw [findIn, hnone]
  exact hdivider

variable {path : String} {data : List UInt8}

theorem parse_choices (before after : List Choice)
    (hpath : readWords [path] = .ok [.argument path]) :
    parse (before.flatMap Choice.words ++ path :: after.flatMap Choice.words) =
      .ok (.run path (settingsOf (before ++ after))) := by
  have hafter : readWords (after.flatMap Choice.words) = .ok (after.flatMap Choice.read) := by
    have h : readWords (_ ++ []) = .ok (_ ++ []) := readWords_choices after rfl
    rwa [List.append_nil, List.append_nil] at h
  have hwords := readWords_choices before (readWords_argument hpath hafter)
  have hlast := findIn_choices { settings := settingsOf before, program := some path } after []
  rw [List.append_nil] at hlast
  -- The path stands between options, and what comes after it goes on from the settings so far.
  have hfound :
      findIn {} (before.flatMap Choice.read ++ .argument path :: after.flatMap Choice.read) =
        .ok (some { settings := settingsOf (before ++ after), program := some path }) := by
    rw [findIn_choices, findIn_program path rfl (choices_ne_divider after)]
    refine hlast.trans ?_
    rw [settingsOf, settingsOf, List.foldl_append]
    rfl
  rw [parse, hwords]
  show (findIn {} _ >>= _) = _
  rw [hfound]
  rfl

/-- The settings that no option of a run without a window changes, and that a seed is a number. -/
structure Plain (s : Settings) : Prop where
  scale_eq : s.scale = .number 10
  trace_eq : s.trace = false
  disassemble_eq : s.disassemble = false
  seed_ne : s.seed ≠ some .blank

theorem Plain.choose {s : Settings} (h : Plain s) (c : Choice) : Plain (c.choose s) := by
  obtain ⟨hscale, htrace, hdisassemble, hseed⟩ := h
  cases c with
  | seed number => exact ⟨hscale, htrace, hdisassemble, by simp [Choice.choose]⟩
  | _ => exact ⟨hscale, htrace, hdisassemble, hseed⟩

theorem plain_settingsOf (choices : List Choice) : Plain (settingsOf choices) :=
  List.foldlRecOn choices Choice.choose ⟨rfl, rfl, rfl, by decide⟩
    fun _ h c _ => h.choose c

/-! ## The run -/

/-- Where the random bytes come from. -/
def sourceOf (s : Settings) (random : Random.Source) : Random.Source :=
  match s.seed with
  | some (.number seed) => .ofSeed seed
  | _ => random

/-- The emulator that is set up at a speed, without a program. -/
def emulatorOf (s : Settings) (hz : Int) (random : Random.Source) : Emulator where
  machine := Machine.fresh (sourceOf s random) ⟨s.shiftVy, !s.noIndexWrap⟩
  cpuRate := hz.toNat
  timerRate := 60
  strict := !s.lenient
  skipped := #[]
  frames := 0
  programSize := 0

/-- The emulator with the program in its memory. -/
def loaded (e : Emulator) (data : List UInt8) : Emulator :=
  { e with
    machine := { e.machine with memory := e.machine.memory.put programBase data }
    programSize := data.length }

variable {s : Settings} {hz N : Int}

theorem untraced_loaded (e : Emulator) (data : List UInt8) :
    (loaded e data).untraced = loaded e.untraced data := rfl

theorem untraced_emulatorOf (s : Settings) (hz : Int) (random : Random.Source) :
    (emulatorOf s hz random).untraced = emulatorOf s hz random := rfl

theorem create_eq (random : Random.Source) (hhz : 1 ≤ hz) :
    Emulator.create hz frameRate (!s.lenient) (sourceOf s random) ⟨s.shiftVy, !s.noIndexWrap⟩ =
      .ok (emulatorOf s hz random) := by
  have hrates : ¬(hz < 1 ∨ frameRate < 1) := by
    rw [frameRate]
    omega
  rw [Emulator.create, if_neg hrates]
  rfl

/-- A seed that is a number is where the random bytes come from. -/
theorem exists_seed (hseed : s.seed ≠ some .blank) (random : Random.Source) :
    ∃ seed, s.seed.mapM (Amount.forFlag .seed) = .ok seed ∧
      (seed.map Random.Source.ofSeed).getD random = sourceOf s random := by
  unfold sourceOf
  cases hs : s.seed with
  | none => exact ⟨none, rfl, rfl⟩
  | some amount =>
    cases amount with
    | number seed => exact ⟨some seed, rfl, rfl⟩
    | blank => exact absurd hs hseed

theorem runProgram_headless (hheadless : s.headless = true) (hframes : s.frames = some (.number N))
    (scale : Int) {e : Emulator} (htrace : e.machine.tracing = s.trace) :
    runProgram s scale e = .ok (runOutcome true (some N) (Session.mk e ({} : Recorder))) := by
  unfold runProgram
  rw [hheadless, hframes, ← htrace]
  rfl

theorem perform_headless (hplain : Plain s) (hheadless : s.headless = true)
    (hframes : s.frames = some (.number N)) (hspeed : s.hz = .number hz) (hhz : 1 ≤ hz)
    (hnull : path.contains '\x00' = false) (hlength : data.length ≤ programRoom)
    (random : Random.Source) :
    perform path s (.ok data) random =
      .ok (runOutcome true (some N)
        (Session.mk (loaded (emulatorOf s hz random) data) ({} : Recorder))) := by
  obtain ⟨seed, hmap, hrandom⟩ := exists_seed hplain.seed_ne random
  have hload : (emulatorOf s hz random).loadFile path (.ok data) =
      .ok (loaded (emulatorOf s hz random) data) := loadFile_of_le _ hnull rfl hlength
  have hrun := runProgram_headless hheadless hframes 10
    (e := loaded (emulatorOf s hz random) data) hplain.trace_eq.symm
  unfold perform
  rw [hspeed, hplain.scale_eq, hmap, hplain.disassemble_eq]
  simp only [Amount.forFlag, bind, Except.bind, if_neg (Int.not_lt.2 hhz), hrandom,
    create_eq random hhz, hload]
  exact hrun

/-! ## What is printed -/

variable {e : Emulator}

/-- Nothing is printed of a record that is not kept. -/
theorem traceLines_of_untraced (h : e.untraced = e) : traceLines e.machine = "" := by
  rw [← h]
  rfl

/-- What is printed after a run with some frames, executed instructions and skipped words. -/
def totals (frames executed skipped : Nat) : String :=
  s!"[chip8] {frames} frames, {executed} instructions" ++ "\n" ++
    if skipped = 0 then "" else s!"[chip8] skipped {skipped} invalid opcode(s)" ++ "\n"

theorem summary_eq (e : Emulator) (frames : Nat) :
    summary e frames = totals frames e.machine.executed e.skipped.size := by
  unfold summary
  simp only [Array.isEmpty_iff_size_eq_zero]
  rfl

section Run

variable (hsize : e.machine.memory.size = memorySize) (huntraced : e.untraced = e)

include hsize huntraced

/-- What is printed of a run whose steps are not stopped. -/
theorem runOutcome_of_goes (hexecuted : e.machine.executed = 0) (hskipped : e.skipped.size = 0)
    (hgoes : ∀ k < e.cyclesPerFrame * N.toNat, (e.paced k).Goes) :
    let total := e.cyclesPerFrame * N.toNat
    let executed := (List.range total).countP fun k => (e.paced k).executes
    let skipped := (List.range total).countP fun k => (e.paced k).meetsInvalid
    runOutcome true (some N) (Session.mk e ({} : Recorder)) = {
      exit := 0
      out := totals N.toNat executed skipped
      messages := "" } := by
  intro total executed skipped
  obtain ⟨s', hrun, hend⟩ :=
    Session.run_of_goes (s := Session.mk e ({} : Recorder)) ⟨rfl, rfl⟩ hsize hgoes
  -- The record is off, so there are no lines of it to print.
  have hnone : s'.emulator.untraced = s'.emulator := by
    rw [hend]
    exact Emulator.untraced_paced hsize huntraced total
  have hinstructions : s'.emulator.machine.executed = executed := by
    rw [hend, Emulator.executed_paced hsize hgoes, hexecuted, Nat.zero_add]
  have hwords : s'.emulator.skipped.size = skipped := by
    rw [hend, Emulator.skipped_paced hsize hgoes, hskipped, Nat.zero_add]
  simp only [runOutcome, hrun, if_true, summary_eq, hinstructions, hwords,
    traceLines_of_untraced hnone]

/-- What is printed of a run that is stopped. -/
theorem runOutcome_of_stops {k : Nat} {fault : Fault} {e' : Emulator}
    (hk : k < e.cyclesPerFrame * N.toNat) (hbefore : ∀ j < k, (e.paced j).Goes)
    (hstop : Emulator.step (e.paced k) = .error fault e') :
    runOutcome true (some N) (Session.mk e ({} : Recorder)) = {
      exit := 1
      out := ""
      messages := line ("[chip8] fatal: " ++ fault.message) ++ line e'.report } := by
  obtain ⟨s', hrun, rfl⟩ :=
    Session.run_of_stops (s := Session.mk e ({} : Recorder)) ⟨rfl, rfl⟩ hsize hk hbefore hstop
  have hleft := Emulator.after_step_of_error hstop
  have hnone : s'.emulator.untraced = s'.emulator := by
    rw [← hleft]
    exact Emulator.untraced_after_step (Emulator.paced_keeps hsize k).1
      (Emulator.untraced_paced hsize huntraced k)
  simp only [runOutcome, hrun, traceLines_of_untraced hnone, String.empty_append]

end Run

/-- **How a run without a window ends.** -/
theorem carryOut_headless {read : String → Except FileProblem (List UInt8)}
    (before after : List Choice) (hsettings : settingsOf (before ++ after) = s)
    (hheadless : s.headless = true) (hframes : s.frames = some (.number N))
    (hspeed : s.hz = .number hz) (hhz : 1 ≤ hz)
    (hpath : readWords [path] = .ok [.argument path]) (hnull : path.contains '\x00' = false)
    (hread : read path = .ok data) (hlength : data.length ≤ 3584) (random : Random.Source) :
    let words := before.flatMap Choice.words ++ path :: after.flatMap Choice.words
    let start := loaded (emulatorOf s hz random) data
    let perFrame := max 1 (hz.toNat / 60)
    let total := perFrame * N.toNat
    let executed := (List.range total).countP fun k => (start.paced k).executes
    let skipped := (List.range total).countP fun k => (start.paced k).meetsInvalid
    ((∀ k < total, (start.paced k).Goes) ∧
      carryOut words read random = .ok {
        exit := 0
        out := totals N.toNat executed skipped
        messages := "" }) ∨
    ∃ k < total, (∀ j < k, (start.paced j).Goes) ∧ ∃ fault e',
      Emulator.step (start.paced k) = .error fault e' ∧
      e'.frames = k / perFrame ∧
      (∀ other : Fault, other.Names fault.message ↔ other = fault) ∧
      (∃ shown : e'.Words, e'.report = shown.text) ∧
      carryOut words read random = .ok {
        exit := 1
        out := ""
        messages := "[chip8] fatal: " ++ fault.message ++ "\n" ++ (e'.report ++ "\n") } := by
  intro words start perFrame total executed skipped
  have hplain : Plain s := hsettings ▸ plain_settingsOf (before ++ after)
  have hcarry : carryOut words read random =
      .ok (runOutcome true (some N) (Session.mk start ({} : Recorder))) := by
    rw [carryOut, parse_choices before after hpath, hsettings]
    show perform path s (read path) random = _
    rw [hread]
    exact perform_headless hplain hheadless hframes hspeed hhz hnull hlength random
  have hsize : start.machine.memory.size = memorySize := rfl
  have huntraced : start.untraced = start := by
    rw [untraced_loaded, untraced_emulatorOf]
  -- Which of the two it is, the sequence of steps alone decides.
  rcases start.all_go_or_one_stops total with hgoes | ⟨k, hk, hbefore, fault, e', hstop⟩
  · refine .inl ⟨hgoes, ?_⟩
    rw [hcarry]
    exact congrArg _ (runOutcome_of_goes hsize huntraced rfl rfl hgoes)
  · refine .inr ⟨k, hk, hbefore, fault, e', hstop, ?_, fault.names_message_iff,
      ⟨e'.laidOut, e'.report_eq_text⟩, ?_⟩
    · exact (Emulator.frames_of_step_error hsize hstop).trans (Nat.zero_add _)
    · rw [hcarry]
      exact congrArg _ (runOutcome_of_stops hsize huntraced hk hbefore hstop)

/-- A file with an instruction and a word that stands for none. -/
def skippingFile (_ : String) : Except FileProblem (List UInt8) := .ok [0x60, 0x07, 0xFF, 0xFF]

/-- The speed of two steps in a frame. -/
def twoSteps : Numeral := ⟨"120", 120, by decide +kernel, readWords_of_no_dash (by decide)⟩

/-- The limit of one frame. -/
def oneFrame : Numeral := ⟨"1", 1, by decide +kernel, readWords_of_no_dash (by decide)⟩

/-- The settings of a lenient run of one frame with two steps. -/
def skippingSettings : Settings :=
  settingsOf ([.hz twoSteps, .lenient] ++ [.headless, .frames oneFrame])

/-- The emulator with the file in its memory. -/
def skippingStart : Emulator :=
  loaded (emulatorOf skippingSettings 120 (.ofBytes [])) [0x60, 0x07, 0xFF, 0xFF]

/-- The emulator after its first step. -/
def skippingNext : Emulator :=
  { skippingStart with machine := skippingStart.machine.afterWord 0x6007 }

theorem cycles_skippingStart :
    Machine.Cycles skippingStart.machine (some (Instruction.decode 0x6007)) skippingNext.machine :=
  .of_program (k := 0) rfl (by decide) rfl rfl rfl rfl (by decide)

theorem atUnknown_skippingNext : skippingNext.machine.AtUnknown 0xFFFF := by
  have hread : skippingNext.machine.memory.readWord skippingNext.machine.registers.pc =
      .ok 0xFFFF :=
    Machine.readWord_of_program (k := 2) rfl (by decide) rfl rfl rfl
  exact ⟨rfl, hread, by decide⟩

theorem step_skippingStart :
    Emulator.step skippingStart = .ok (some (Instruction.decode 0x6007)) skippingNext :=
  Emulator.step_of_ok cycles_skippingStart.cycle_eq

theorem step_skippingNext :
    Emulator.step skippingNext = .ok none (skippingNext.pastWord 0xFFFF) :=
  (Emulator.Steps.skip rfl atUnknown_skippingNext (by decide)).step_eq rfl

theorem paced_skippingStart : skippingStart.paced 1 = skippingNext := by
  have hpace : 1 < skippingStart.cyclesPerFrame := Nat.lt_succ_self 1
  rw [Emulator.paced_of_lt hpace, Emulator.stepped_succ,
    Emulator.after_step_of_ok step_skippingStart]
  rfl

/-- The first step executes the instruction, and the second one goes past the word. -/
theorem count_skippingStart :
    (List.range 2).countP (fun k => (skippingStart.paced k).executes) = 1 ∧
      (List.range 2).countP (fun k => (skippingStart.paced k).meetsInvalid) = 1 := by
  have hexecutes : (skippingStart.paced 0).executes = true := by
    rw [Emulator.paced, Emulator.executes, step_skippingStart]
  have hskips : (skippingStart.paced 1).executes = false := by
    rw [paced_skippingStart, Emulator.executes, step_skippingNext]
  have hvalid : (skippingStart.paced 0).meetsInvalid = false := by
    rw [Emulator.paced, Emulator.meetsInvalid, cycles_skippingStart.cycle_eq]
  have hinvalid : (skippingStart.paced 1).meetsInvalid = true := by
    rw [paced_skippingStart, Emulator.meetsInvalid,
      Emulator.cycle_of_atUnknown rfl atUnknown_skippingNext]
  constructor
  · simp [List.range_succ, hexecutes, hskips]
  · simp [List.range_succ, hvalid, hinvalid]

/-- The speed of one step in a frame, and a limit of so many frames. -/
def sixty : Numeral := ⟨"60", 60, by decide +kernel, readWords_of_no_dash (by decide)⟩

/-- The settings of a strict run with one step in a frame. -/
def strictSettings : Settings := settingsOf ([.hz sixty] ++ [.headless, .frames sixty])

/-- The emulator with the file in its memory, if nothing is to be skipped. -/
def strictStart : Emulator :=
  loaded (emulatorOf strictSettings 60 (.ofBytes [])) [0x60, 0x07, 0xFF, 0xFF]

/-- The emulator after its first frame. -/
def strictNext : Emulator :=
  { strictStart with machine := strictStart.machine.afterWord 0x6007 }.endFrame

theorem step_strictStart : Emulator.step strictStart = .ok (some (Instruction.decode 0x6007))
    { strictStart with machine := strictStart.machine.afterWord 0x6007 } :=
  Emulator.step_of_ok cycles_skippingStart.cycle_eq

theorem paced_strictStart : strictStart.paced 1 = strictNext := by
  rw [Emulator.paced, Emulator.paced, Emulator.after_step_of_ok step_strictStart]
  rfl

theorem step_strictNext :
    Emulator.step strictNext = .error (.invalidOpcode 0x202 0xFFFF) strictNext := by
  have hcycle : Machine.cycle strictNext.machine =
      .error (.invalidOpcode 0x202 0xFFFF) strictNext.machine :=
    Emulator.cycle_of_atUnknown rfl atUnknown_skippingNext
  exact Emulator.step_of_fatal hcycle (.inl rfl)

/-- What is told of the word that stands for no instruction. -/
def strictMessages : String :=
  "[chip8] fatal: Invalid opcode 0xffff @ 0x202\n" ++
  "=== Registers ===\n" ++
  "  V0 = 0x07  V1 = 0x00  V2 = 0x00  V3 = 0x00\n" ++
  "  V4 = 0x00  V5 = 0x00  V6 = 0x00  V7 = 0x00\n" ++
  "  V8 = 0x00  V9 = 0x00  VA = 0x00  VB = 0x00\n" ++
  "  VC = 0x00  VD = 0x00  VE = 0x00  VF = 0x00\n" ++
  "  PC = 0x202  I = 0x000  SP = 0\n" ++
  "  DT = 0  ST = 0  WAIT = -\n" ++
  "  Instructions: 1  Frames: 1  Last: LD V0, 0x07\n"

theorem messages_strictNext :
    "[chip8] fatal: " ++ (Fault.invalidOpcode 0x202 0xFFFF).message ++ "\n" ++
      (strictNext.report ++ "\n") = strictMessages := by
  decide +kernel

theorem not_goes_strictStart : ¬ (strictStart.paced 1).Goes := by
  rintro ⟨result, e', hstep⟩
  rw [paced_strictStart, step_strictNext] at hstep
  cases hstep

/-- A lenient run of the file prints both numbers. A strict one is stopped in its second frame. -/
theorem carryOut_headless_skipping :
    readWords ["skip.ch8"] = .ok [.argument "skip.ch8"] ∧ "skip.ch8".contains '\x00' = false ∧
      skippingFile "skip.ch8" = .ok [0x60, 0x07, 0xFF, 0xFF] ∧
      (skippingSettings.headless = true ∧ skippingSettings.frames = some (.number 1) ∧
        skippingSettings.hz = .number 120 ∧ (1 : Int) ≤ 120 ∧
        carryOut ["--hz", "120", "--lenient", "skip.ch8", "--headless", "--frames", "1"]
            skippingFile (.ofBytes []) =
          .ok { exit := 0, out := "[chip8] 1 frames, 1 instructions\n" ++
            "[chip8] skipped 1 invalid opcode(s)\n", messages := "" }) ∧
      (strictSettings.headless = true ∧ strictSettings.frames = some (.number 60) ∧
        strictSettings.hz = .number 60 ∧ (1 : Int) ≤ 60 ∧
        carryOut ["--hz", "60", "skip.ch8", "--headless", "--frames", "60"]
            skippingFile (.ofBytes []) =
          .ok { exit := 1, out := "", messages := strictMessages }) := by
  have hpath : readWords ["skip.ch8"] = .ok [.argument "skip.ch8"] :=
    readWords_of_no_dash (by decide)
  have hnull : "skip.ch8".contains '\x00' = false := by simp
  have hread : skippingFile "skip.ch8" = .ok [0x60, 0x07, 0xFF, 0xFF] := rfl
  refine ⟨hpath, hnull, hread, ⟨rfl, rfl, rfl, by decide, ?_⟩, ⟨rfl, rfl, rfl, by decide, ?_⟩⟩
  · rcases carryOut_headless [.hz twoSteps, .lenient] [.headless, .frames oneFrame] rfl rfl rfl rfl
      (by decide) hpath hnull hread (by decide) (.ofBytes []) with
      ⟨-, hout⟩ | ⟨k, hk, -, fault, e', hstop, -⟩
    · refine hout.trans ?_
      show Except.ok (Outcome.mk 0
        (totals 1 ((List.range 2).countP fun k => (skippingStart.paced k).executes)
          ((List.range 2).countP fun k => (skippingStart.paced k).meetsInvalid)) "") = _
      rw [count_skippingStart.1, count_skippingStart.2]
      rfl
    · -- Neither of the two steps is stopped.
      have hstep : Emulator.step (skippingStart.paced k) = .error fault e' := hstop
      have htwo : k < 2 := hk
      obtain rfl | rfl : k = 0 ∨ k = 1 := by omega
      · cases step_skippingStart.symm.trans hstep
      · rw [paced_skippingStart, step_skippingNext] at hstep
        cases hstep
  · rcases carryOut_headless [.hz sixty] [.headless, .frames sixty] rfl rfl rfl rfl
      (by decide) hpath hnull hread (by decide) (.ofBytes []) with
      ⟨hgoes, -⟩ | ⟨k, -, hbefore, fault, e', hstop, -, -, -, hout⟩
    · exact absurd (hgoes 1 (by decide)) not_goes_strictStart
    · -- The first step that is stopped is the second one.
      have hstep : Emulator.step (strictStart.paced k) = .error fault e' := hstop
      have hone : ¬ 1 < k := fun hlt => not_goes_strictStart (hbefore 1 hlt)
      obtain rfl | rfl : k = 0 ∨ k = 1 := by omega
      · cases step_strictStart.symm.trans hstep
      · rw [paced_strictStart, step_strictNext] at hstep
        cases hstep
        rw [← messages_strictNext]
        exact hout

end ChipEight.CommandLine
