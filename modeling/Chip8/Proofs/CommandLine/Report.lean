import Chip8.CommandLine
import Chip8.Proofs.Error.Wording
import Chip8.Proofs.Host.Loading
import Chip8.Proofs.Options.Grammar
import Chip8.Proofs.Options.Reading
import Chip8.Proofs.Runner.FirstStop
import Chip8.Proofs.Runner.Terminal

/-!
# The report on an invocation

What an invocation answers is told here from the arguments, the files and the machine with
the program in it: which code, which text on either side, and for a program that is run the
frames of its cycles in front of the last line. The run itself goes by its batch of cycles
and by its first stop. Nothing is assumed of the files: any path may hold any bytes, or may
not be read for any reason.
-/

namespace Chip8

theorem Failure.eq_mapState_of_mapState_eq {σ τ α : Type} {f : σ → τ} {g : σ → σ}
    {first second : EStateM.Result Failure σ α} (h : mapState f first = mapState f second)
    (hstate : f (stateOf first) = f (stateOf second) -> stateOf first = g (stateOf second)) :
    first = mapState g second := by
  cases first with
  | ok value s =>
      cases second with
      | ok other t =>
          injection h with hvalue hsame
          subst hvalue
          exact congrArg (EStateM.Result.ok value) (hstate hsame)
      | error failure t => cases h
  | error failure s =>
      cases second with
      | ok other t => cases h
      | error other t =>
          injection h with hfailure hsame
          subst hfailure
          exact congrArg (EStateM.Result.error failure) (hstate hsame)

namespace Machine

variable {m : Machine} {count : Nat}

def Reaches (m : Machine) (count : Nat) : Prop :=
  forall k, k < count -> forall stop, ¬ (m.afterCycles k).Stops stop

/-- Of the first `count` cycles, none that a run comes to draws a sprite without rows from
behind the end of memory. -/
def DrawsInside (m : Machine) (count : Nat) : Prop :=
  forall k, k < count -> m.Reaches k -> ¬ (m.afterCycles k).DrawsNothingBeyond

theorem DrawsInside.of_le {limit : Nat} (h : m.DrawsInside limit) (hcount : count ≤ limit) :
    m.DrawsInside count := by
  intro k hk
  exact h k (Nat.lt_of_lt_of_le hk hcount)

theorem Reaches.passes (h : m.Reaches count) (hinside : m.DrawsInside count) :
    forall k, k < count -> (m.afterCycles k).Passes := by
  intro k hk
  apply passes_of_not_stops
  · intro after hcycle
    have hreached : m.Reaches k := fun earlier hearlier =>
      h earlier (Nat.lt_trans hearlier hk)
    exact hinside k hk hreached (drawsNothingBeyond_of_cycle hcycle)
  · exact h k hk

end Machine

namespace Runner

variable {r last : Runner} {limit : UInt64} {options : Options} {program : List UInt8}

def prepared (options : Options) (program : List UInt8) : Runner where
  options := options
  machine := Machine.loaded program

theorem toNat_cycles_prepared : (prepared options program).cycles.toNat = 0 :=
  rfl

theorem room_prepared (options : Options) (program : List UInt8) (limit : UInt64) :
    (prepared options program).cycles.toNat + limit.toNat < UInt64.size := by
  rw [toNat_cycles_prepared, Nat.zero_add]
  exact limit.toNat_lt

theorem runFor_prepared_of_firstStop {count : Nat} {stop : Except Error Halt}
    (hinside : (Machine.loaded program).DrawsInside limit.toNat)
    (hcount : count < limit.toNat) (h : (Machine.loaded program).FirstStop count stop) :
    runFor limit.toNat (prepared options program) =
      (prepared options program).ended count stop := by
  have hreached : (Machine.loaded program).Reaches count := h.before
  have hpasses := hreached.passes (hinside.of_le (Nat.le_of_lt hcount))
  exact runFor_of_passes_of_stops hcount (room_prepared options program limit) hpasses h.stops

def shown (options : Options) (program : List UInt8) (count : Nat) : String :=
  if options.render then (Machine.loaded program).frames count else ""

/-!
## What a run shows

A failing cycle is not counted and shows nothing, so the frames are those of the counted
cycles. With them on its terminal, the runner of a batch is that of the run.
-/

theorem terminal_of_progress {count : Nat} (h : r.Progress last count) :
    last.terminal =
      r.terminal ++
        if r.options.render then r.machine.frames (last.cycles.toNat - r.cycles.toNat)
        else "" := by
  rcases h.cycles with hall | ⟨earlier, cause, after, rfl, hcounted, hfault⟩
  · rw [h.terminal, hall, Nat.add_sub_cancel_left]
  · have hframe : (r.machine.afterCycles earlier).frame = "" := by
      rw [Machine.frame, Machine.executedWord?_of_error hfault]
    rw [h.terminal, hcounted, Nat.add_sub_cancel_left, Machine.frames, hframe,
      String.append_empty]

theorem terminal_of_visits (h : (prepared options program).Visits last) :
    last.terminal = shown options program last.cycles.toNat := by
  rcases progress_of_visits h with ⟨count, hprogress⟩
  rw [terminal_of_progress hprogress]
  exact String.empty_append

theorem visits_run (htrap : forall after, run r ≠ .error .trap after) :
    r.Visits (Failure.stateOf (run r)) := by
  cases hrun : run r with
  | ok reason after => exact .returned hrun
  | error failure after =>
      cases failure with
      | error cause => exact .failed hrun
      | trap => exact absurd hrun (htrap after)

def showing (options : Options) (program : List UInt8) (last : Runner) : Runner :=
  { last with terminal := shown options program last.cycles.toNat }

theorem eq_showing_of_muted (hmuted : r.muted = last.muted)
    (hterminal : r.terminal = shown options program r.cycles.toNat) :
    r = showing options program last := by
  have hcycles : r.cycles = last.cycles := by
    show r.muted.cycles = last.muted.cycles
    rw [hmuted]
  have hshown : r.terminal = shown options program last.cycles.toNat := by
    rw [hterminal, hcycles]
  calc
    r = { r.muted with terminal := r.terminal } := rfl
    _ = showing options program last := by
      rw [hmuted, hshown]
      rfl

theorem run_of_batch {ending : EStateM.Result Failure Runner Halt} (hrate : options.rate ≠ 0)
    (hlimit : options.limit = some limit)
    (hbatch : runFor limit.toNat (prepared options program) = ending)
    (htrap : forall last, ending ≠ .error .trap last) :
    run (prepared options program) = Failure.mapState (showing options program) ending := by
  have hsame : Failure.mapState muted (run (prepared options program)) =
      Failure.mapState muted ending := by
    rw [← hbatch]
    exact run_muted hrate hlimit
  apply Failure.eq_mapState_of_mapState_eq hsame
  intro hmuted
  apply eq_showing_of_muted hmuted
  apply terminal_of_visits
  apply visits_run
  intro after hrun
  rw [hrun] at hsame
  cases ending with
  | ok reason last => cases hsame
  | error failure last =>
      injection hsame with hfailure
      subst hfailure
      exact htrap last rfl

end Runner

namespace CommandLine

open Machine Runner

variable {files : String → Except FileFault (List UInt8)} {args : List String}
variable {options : Options} {program : List UInt8} {limit : UInt64} {report : Report}

/-!
## Loading
-/

inductive Unloadable : Except FileFault (List UInt8) → Error → Prop where
  | unread {fault : FileFault} : Unloadable (.error fault) (.file fault)
  | tooLong {program : List UInt8} (hlong : 3584 < program.length) :
      Unloadable (.ok program) (.programTooLong program.length 3584)

theorem loadAndRun_of_unloadable {content : Except FileFault (List UInt8)} {cause : Error}
    (h : Unloadable content cause) (r : Runner) :
    loadAndRun content r = .error (.error cause) r := by
  have hload : Machine.loadFile content r.machine = .error (.error cause) r.machine := by
    cases h with
    | unread => exact loadFile_of_fault _ _
    | tooLong hlong => exact loadFile_of_long hlong
  exact Failure.bind_of_error (onMachine_error hload)

theorem loadAndRun_of_fit (hfit : program.length ≤ 3584) :
    loadAndRun (.ok program) { options } = run (prepared options program) :=
  Failure.bind_of_ok (onMachine_ok (loadFile_of_fit hfit))

/-!
## What an invocation answers
-/

structure Starts (files : String → Except FileFault (List UInt8)) (args : List String)
    (options : Options) (program : List UInt8) : Prop where
  parsed : Options.parse args = .ok options
  read : files options.program = .ok program
  fits : program.length ≤ 3584

def Bounded (files : String → Except FileFault (List UInt8)) (args : List String) : Prop :=
  forall options program, Starts files args options program ->
    exists limit, options.limit = some limit ∧
      (Machine.loaded program).DrawsInside limit.toNat

/-- The name of a reason in the last line. Waiting for a key has a line of its own. -/
inductive Named : Halt → String → Prop where
  | finished : Named .finished "Finished"
  | counterOutside : Named .counterOutside "ProgramCounterOutOfBounds"
  | cycleLimit : Named .cycleLimit "CycleLimit"

inductive Answers (files : String → Except FileFault (List UInt8)) (args : List String) :
    Report → Prop where
  | refused {text : String} (hparse : Options.parse args = .error (.usage text)) :
      Answers files args
        { code := 2
          output := ""
          errors := text ++ "\n" ++
            "Usage: chip8vm <rom> [--hz N] [--cycles N] [--no-render]" ++ "\n" }
  | unloaded {options : Options} {cause : Error} {text : String}
      (hparse : Options.parse args = .ok options)
      (hload : Unloadable (files options.program) cause) (htext : cause.Told text) :
      Answers files args
        { code := 1
          output := ""
          errors := "\nExecution error: " ++ text ++ "\n" }
  | faulted {options : Options} {program : List UInt8} {limit : UInt64} {count : Nat}
      {cause : Error} {text : String} (hstarts : Starts files args options program)
      (hlimit : options.limit = some limit) (hcount : count < limit.toNat)
      (hfault : (Machine.loaded program).FirstStop count (.error cause))
      (htext : cause.Told text) :
      Answers files args
        { code := 1
          output := shown options program count
          errors := "\nExecution error: " ++ text ++ "\n" }
  | waiting {options : Options} {program : List UInt8} {limit : UInt64} {last : Runner}
      (hstarts : Starts files args options program)
      (hlimit : options.limit = some limit)
      (hbatch : runFor limit.toNat (prepared options program) = .ok .awaitingKey last)
      (hcycles : last.cycles ≤ limit) :
      Answers files args
        { code := 0
          output := shown options program last.cycles.toNat ++ "\n" ++
            "Program is waiting for a key; this runner has no keyboard. Exiting." ++ "\n"
          errors := "" }
  | stopped {options : Options} {program : List UInt8} {limit : UInt64} {last : Runner}
      {reason : Halt} {name count : String} (hstarts : Starts files args options program)
      (hlimit : options.limit = some limit) (hname : Named reason name)
      (hcount : Numeral.Written 10 0 count.toList last.cycles.toNat)
      (hbatch : runFor limit.toNat (prepared options program) = .ok reason last)
      (hcycles : last.cycles ≤ limit) :
      Answers files args
        { code := 0
          output := shown options program last.cycles.toNat ++ "\n" ++
            ("Program stopped (" ++ name ++ ") after " ++ count ++ " cycles.") ++ "\n"
          errors := "" }

/-!
## Answering

Every case of an answer is what an invocation gives, and one of the cases there is.
-/

theorem farewell_of_named {reason : Halt} {name count : String} {cycles : UInt64}
    (hname : Named reason name)
    (hcount : Numeral.Written 10 0 count.toList cycles.toNat) :
    farewell reason cycles = "Program stopped (" ++ name ++ ") after " ++ count ++ " cycles." := by
  rw [Numeral.Form.written_decimal_iff.mp hcount]
  cases hname <;> rfl

theorem invoke_of_refused {cause : Error} (h : Options.parse args = .error cause) :
    invoke files args = refusal cause := by
  rw [invoke, h]

theorem invoke_of_parsed (h : Options.parse args = .ok options) :
    invoke files args =
      conclusion (loadAndRun (files options.program) { options }) := by
  rw [invoke, h]

theorem invoke_of_batch {ending : EStateM.Result Failure Runner Halt}
    (hstarts : Starts files args options program) (hlimit : options.limit = some limit)
    (hbatch : runFor limit.toNat (prepared options program) = ending)
    (htrap : forall last, ending ≠ .error .trap last) :
    invoke files args =
      conclusion (Failure.mapState (showing options program) ending) := by
  have hrate : options.rate ≠ 0 := Options.rate_ne_zero_of_parse hstarts.parsed
  rw [invoke_of_parsed hstarts.parsed, hstarts.read, loadAndRun_of_fit hstarts.fits,
    run_of_batch hrate hlimit hbatch htrap]

theorem invoke_of_batch_ok {reason : Halt} {last : Runner}
    (hstarts : Starts files args options program) (hlimit : options.limit = some limit)
    (hbatch : runFor limit.toNat (prepared options program) = .ok reason last) :
    invoke files args =
      { code := 0
        output := shown options program last.cycles.toNat ++ "\n" ++
          farewell reason last.cycles ++ "\n"
        errors := "" } := by
  rw [invoke_of_batch hstarts hlimit hbatch fun after htrap => by cases htrap]
  rfl

theorem invoke_of_fault {count : Nat} {cause : Error}
    (hstarts : Starts files args options program) (hlimit : options.limit = some limit)
    (hinside : (Machine.loaded program).DrawsInside limit.toNat)
    (hcount : count < limit.toNat)
    (hfault : (Machine.loaded program).FirstStop count (.error cause)) :
    invoke files args =
      { code := 1
        output := shown options program count
        errors := "\nExecution error: " ++ cause.message ++ "\n" } := by
  have hbatch : runFor limit.toNat (prepared options program) =
      (prepared options program).ended count (.error cause) :=
    runFor_prepared_of_firstStop hinside hcount hfault
  have hroom := room_prepared options program limit
  have hcounted (m : Machine) :
      ((prepared options program).advanced count m).cycles.toNat = count := by
    rw [toNat_cycles_advanced (Nat.lt_trans (Nat.add_lt_add_left hcount _) hroom),
      toNat_cycles_prepared, Nat.zero_add]
  rw [invoke_of_batch hstarts hlimit hbatch fun after htrap => by cases htrap]
  dsimp only [ended, Failure.mapState, showing, conclusion]
  rw [hcounted]

theorem invoke_of_answers (hbounded : Bounded files args)
    (h : Answers files args report) : invoke files args = report := by
  cases h with
  | refused hparse =>
      rw [invoke_of_refused hparse, refusal, usage]
      rfl
  | unloaded hparse hload htext =>
      rw [invoke_of_parsed hparse, loadAndRun_of_unloadable hload, htext.eq_message]
      rfl
  | faulted hstarts hlimit hcount hfault htext =>
      rcases hbounded _ _ hstarts with ⟨limit, hsame, hinside⟩
      rw [hlimit] at hsame
      cases hsame
      rw [invoke_of_fault hstarts hlimit hinside hcount hfault, htext.eq_message]
  | waiting hstarts hlimit hbatch _ => rw [invoke_of_batch_ok hstarts hlimit hbatch, farewell]
  | stopped hstarts hlimit hname hcount hbatch _ =>
      rw [invoke_of_batch_ok hstarts hlimit hbatch, farewell_of_named hname hcount]

theorem exists_answers_of_batch {reason : Halt} {last : Runner}
    (hstarts : Starts files args options program) (hlimit : options.limit = some limit)
    (hbatch : runFor limit.toNat (prepared options program) = .ok reason last) :
    exists report, Answers files args report := by
  have hcycles : last.cycles ≤ limit := by
    have hcount := cycles_runFor_le limit.toNat (prepared options program)
    rw [hbatch, toNat_cycles_prepared, Nat.zero_add] at hcount
    exact UInt64.le_iff_toNat_le.mpr hcount
  have hwritten := Numeral.Form.written_decimal_iff.mpr
    (Eq.refl (Numeral.Decimal.render last.cycles.toNat))
  cases reason with
  | awaitingKey => exact ⟨_, .waiting hstarts hlimit hbatch hcycles⟩
  | finished => exact ⟨_, .stopped hstarts hlimit .finished hwritten hbatch hcycles⟩
  | counterOutside => exact ⟨_, .stopped hstarts hlimit .counterOutside hwritten hbatch hcycles⟩
  | cycleLimit => exact ⟨_, .stopped hstarts hlimit .cycleLimit hwritten hbatch hcycles⟩

theorem exists_answers_of_starts (hstarts : Starts files args options program)
    (hlimit : options.limit = some limit)
    (hinside : (Machine.loaded program).DrawsInside limit.toNat) :
    exists report, Answers files args report := by
  rcases (Machine.loaded program).exists_firstStop limit.toNat with
    hnone | ⟨count, hcount, stop, hfirst⟩
  · have hreached : (Machine.loaded program).Reaches limit.toNat := hnone
    exact exists_answers_of_batch hstarts hlimit
      (runFor_of_passes limit.toNat (room_prepared options program limit)
        (hreached.passes hinside))
  · cases stop with
    | error cause => exact ⟨_, .faulted hstarts hlimit hcount hfirst (Error.told_message cause)⟩
    | ok halt =>
        exact exists_answers_of_batch hstarts hlimit
          (runFor_prepared_of_firstStop hinside hcount hfirst)

theorem exists_answers_of_unloadable {cause : Error} (hparse : Options.parse args = .ok options)
    (hload : Unloadable (files options.program) cause) :
    exists report, Answers files args report :=
  ⟨_, .unloaded hparse hload (Error.told_message cause)⟩

theorem exists_answers (hbounded : Bounded files args) :
    exists report, Answers files args report := by
  cases hparse : Options.parse args with
  | error cause =>
      rcases Options.usage_of_parse_error hparse with ⟨text, rfl⟩
      exact ⟨_, .refused hparse⟩
  | ok options =>
      cases hread : files options.program with
      | error fault =>
          have hload : Unloadable (files options.program) (.file fault) := by
            rw [hread]
            exact .unread
          exact exists_answers_of_unloadable hparse hload
      | ok program =>
          rcases Nat.lt_or_ge 3584 program.length with hlong | hfits
          · have hload : Unloadable (files options.program)
                (.programTooLong program.length 3584) := by
              rw [hread]
              exact .tooLong hlong
            exact exists_answers_of_unloadable hparse hload
          · have hstarts : Starts files args options program := ⟨hparse, hread, hfits⟩
            rcases hbounded options program hstarts with ⟨limit, hlimit, hinside⟩
            exact exists_answers_of_starts hstarts hlimit hinside

/-!
## The code
-/

theorem Starts.unique {other : Options} {content : List UInt8}
    (h : Starts files args options program) (h' : Starts files args other content) :
    options = other ∧ program = content := by
  have hoptions : options = other := by
    have hparsed := h.parsed
    rw [h'.parsed] at hparsed
    cases hparsed
    rfl
  subst hoptions
  have hread := h.read
  rw [h'.read] at hread
  cases hread
  exact ⟨rfl, rfl⟩

theorem Starts.not_unloadable {cause : Error} (h : Starts files args options program) :
    ¬ Unloadable (files options.program) cause := by
  intro hload
  rw [h.read] at hload
  cases hload with
  | tooLong hlong => exact absurd h.fits (Nat.not_le_of_lt hlong)

theorem code_of_answers (hstarts : Starts files args options program)
    (hlimit : options.limit = some limit) (h : Answers files args report) :
    (exists count cause, count < limit.toNat ∧
      (Machine.loaded program).FirstStop count (.error cause)) ∨ report.code = 0 := by
  cases h with
  | refused hparse =>
      rw [hstarts.parsed] at hparse
      cases hparse
  | unloaded hparse hload _ =>
      rw [hstarts.parsed] at hparse
      cases hparse
      exact absurd hload hstarts.not_unloadable
  | faulted hstarted hlimited hcount hfault _ =>
      rcases hstarts.unique hstarted with ⟨rfl, rfl⟩
      rw [hlimit] at hlimited
      cases hlimited
      exact Or.inl ⟨_, _, hcount, hfault⟩
  | waiting _ _ _ _ | stopped _ _ _ _ _ _ => exact Or.inr rfl

theorem code_of_fault {count : Nat} {cause : Error} (hbounded : Bounded files args)
    (hstarts : Starts files args options program) (hlimit : options.limit = some limit)
    (hcount : count < limit.toNat)
    (hfault : (Machine.loaded program).FirstStop count (.error cause)) :
    (invoke files args).code = 1 := by
  rw [invoke_of_answers hbounded
    (.faulted hstarts hlimit hcount hfault (Error.told_message cause))]

/-- If every program that is started has a limit and never draws a sprite without rows from
behind the end of memory, the report on an invocation is the one that its arguments, its file
and the run of the program call for. A file that cannot be loaded is told before any cycle.
A program that is started ends with code 1 if one of its cycles fails with nothing to stop
the run before, and with code 0 if not. -/
theorem invoke_eq_iff_answers (files : String → Except FileFault (List UInt8))
    (args : List String) (hbounded : Bounded files args) :
    (forall report, invoke files args = report ↔ Answers files args report) ∧
    (forall options cause, Options.parse args = .ok options ->
      Unloadable (files options.program) cause ->
      loadAndRun (files options.program) { options } =
        .error (.error cause) { options }) ∧
    (forall options program limit, Starts files args options program ->
      options.limit = some limit ->
      ((exists count cause, count < limit.toNat ∧
          (Machine.loaded program).FirstStop count (.error cause)) ∧
        (invoke files args).code = 1) ∨
      ((forall count cause, count < limit.toNat ->
          ¬ (Machine.loaded program).FirstStop count (.error cause)) ∧
        (invoke files args).code = 0)) := by
  have hanswer : Answers files args (invoke files args) := by
    rcases exists_answers hbounded with ⟨report, hreport⟩
    rw [invoke_of_answers hbounded hreport]
    exact hreport
  refine ⟨?_, ?_, ?_⟩
  · intro report
    constructor
    · rintro rfl
      exact hanswer
    · exact invoke_of_answers hbounded
  · intro options cause _ hload
    exact loadAndRun_of_unloadable hload _
  · intro options program limit hstarts hlimit
    rcases code_of_answers hstarts hlimit hanswer with ⟨count, cause, hcount, hfault⟩ | hcode
    · exact Or.inl ⟨⟨count, cause, hcount, hfault⟩,
        code_of_fault hbounded hstarts hlimit hcount hfault⟩
    · refine Or.inr ⟨?_, hcode⟩
      intro count cause hcount hfault
      have hone := code_of_fault hbounded hstarts hlimit hcount hfault
      rw [hcode] at hone
      cases hone

def returning : List UInt8 :=
  [0x00, 0xE0, 0x00, 0xEE]

def returningOnly (path : String) : Except FileFault (List UInt8) :=
  if path = "a.ch8" then .ok returning else .error .notFound

theorem starts_returning :
    Starts returningOnly ["a.ch8", "--cycles", "9"] { program := "a.ch8", limit := some 9 }
      returning where
  parsed := rfl
  read := if_pos rfl
  fits := by decide

theorem word?_returning :
    (Machine.loaded returning).memory.word? (Machine.loaded returning).pc = some 0x00E0 := by
  have hplace : (Machine.loaded returning).pc.toNat = 512 + 0 := rfl
  have hhigh : returning[0]? = some 0x00 := rfl
  have hlow : returning[0 + 1]? = some 0xE0 := rfl
  exact word?_loaded starts_returning.fits hplace hhigh hlow

theorem cycle_returning :
    (Machine.loaded returning).cycle =
      .ok .executed ((Machine.loaded returning).executed 0x00E0 .clearScreen) := by
  have hspelled : Instruction.clearScreen.SpelledBy 0x00E0 := ⟨by decide, by decide⟩
  have hfailure : Instruction.clearScreen.failure? (Machine.loaded returning) = none := rfl
  rw [cycle_of_known word?_returning (Instruction.ofWord?_of_spelledBy hspelled),
    hfailure]
  rfl

theorem passes_returning : (Machine.loaded returning).Passes := by
  have hwaits : ¬ (Machine.loaded returning).Waits 0x00E0 := by decide
  have hjumps : ¬ (Machine.loaded returning).JumpsToItself 0x00E0 := by decide
  refine ⟨⟨_, _, cycle_returning⟩, ?_⟩
  rw [halt?_of_not_waits word?_returning hwaits, if_neg hjumps]

theorem word?_after_returning :
    ((Machine.loaded returning).afterCycles 1).memory.word?
      ((Machine.loaded returning).afterCycles 1).pc = some 0x00EE := by
  have hplace : (0x202 : UInt16).toNat = 512 + 2 := rfl
  have hhigh : returning[2]? = some 0x00 := rfl
  have hlow : returning[2 + 1]? = some 0xEE := rfl
  rw [afterCycles_succ, afterCycles_zero, cycled_of_ok cycle_returning]
  exact word?_loaded starts_returning.fits hplace hhigh hlow

theorem firstStop_returning : (Machine.loaded returning).FirstStop 1 (.error .stackEmpty) where
  stops := by
    have hempty : ((Machine.loaded returning).afterCycles 1).stack.depth = 0 := by
      rw [afterCycles_succ, afterCycles_zero, cycled_of_ok cycle_returning]
      rfl
    exact .fault (cycle_of_fault word?_after_returning
      (.emptyReturn (by decide) (by decide) hempty))
  before := by
    intro k hk
    rw [Nat.lt_one_iff.mp hk]
    exact passes_returning.not_stops

theorem bounded_returning : Bounded returningOnly ["a.ch8", "--cycles", "9"] := by
  intro options program hstarts
  rcases starts_returning.unique hstarts with ⟨rfl, rfl⟩
  refine ⟨9, rfl, ?_⟩
  intro k _ hreached hdraws
  rcases hdraws with ⟨_, word, hword, hfamily, _⟩
  rcases Nat.lt_or_ge 1 k with hbehind | hbefore
  · exact hreached 1 hbehind _ firstStop_returning.stops
  · rcases Nat.le_one_iff_eq_zero_or_eq_one.mp hbefore with rfl | rfl
    · rw [afterCycles_zero, word?_returning] at hword
      cases hword
      exact absurd hfamily (by decide)
    · rw [word?_after_returning] at hword
      cases hword
      exact absurd hfamily (by decide)

theorem frames_returning :
    (Machine.loaded returning).frames 1 =
      clearSequence ++ (clearSequence ++ Screen.blank.picture) := by
  have hclears : Opcode.family 0x00E0 = 0x0 ∧ (Opcode.low 0x00E0).val = 0x0 :=
    ⟨by decide, by decide⟩
  rw [frames_one, frame, executedWord?_of_executed word?_returning cycle_returning]
  dsimp only
  rw [if_pos hclears]

theorem returning_answered :
    Bounded returningOnly ["a.ch8", "--cycles", "9"] ∧
    invoke returningOnly ["a.ch8", "--cycles", "9"] =
      { code := 1
        output := "\x1b[2J\x1b[H" ++ ("\x1b[2J\x1b[H" ++ Screen.blank.picture)
        errors :=
          "\nExecution error: stack underflow: return with an empty call stack\n" } := by
  have htold : Error.stackEmpty.Told "stack underflow: return with an empty call stack" :=
    Error.told_message .stackEmpty
  have hline : "\nExecution error: stack underflow: return with an empty call stack\n" =
      "\nExecution error: " ++ "stack underflow: return with an empty call stack" ++ "\n" := by
    decide
  have hshown : shown { program := "a.ch8", limit := some 9 } returning 1 =
      "\x1b[2J\x1b[H" ++ ("\x1b[2J\x1b[H" ++ Screen.blank.picture) :=
    (if_pos rfl).trans frames_returning
  refine ⟨bounded_returning, ?_⟩
  rw [← hshown, hline]
  apply ((invoke_eq_iff_answers _ _ bounded_returning).1 _).mpr
  exact .faulted starts_returning rfl (by decide) firstStop_returning htold

end CommandLine

end Chip8
