import Brainfuck.CommandLine.Report
import Brainfuck.Proofs.Structured

/-!
# The command line says what the library gives

The command line goes the whole way from a file to a report by itself.  It says of
every file what `runFile` gives for it.

* `Agrees` is what there is to be said of an outcome and of what the library gives.
  `Job.conclude_agrees` is the end of a run, and `Job.outcome_agrees` the whole of a
  program that was built.
* `Settings.gap?` is the trouble that a switch makes which is set to nothing.  There
  are no options for it in the library.
* `Timed` says what notes on times add to an outcome.
* `Selection.take_withStats`, by induction on the words, says that asking for these
  notes first changes nothing else in what the arguments mean.
-/

namespace Brainfuck.CommandLine

/-! ## What is said -/

/-- What a report says beside the output, apart from times. -/
def Report.remarks (r : Report) : List String :=
  r.notes.filterMap fun
    | .text s => some s
    | .built _ => none
    | .executed _ => none

/-- The outcome is a report with this exit code, this output and these remarks. -/
def Outcome.Says (o : Outcome) (code : Nat) (output : List UInt8) (remarks : List String) : Prop :=
  ∃ r, o = .report r ∧ r.code = code ∧ r.output = output ∧ r.remarks = remarks

/-- The line that reports on a failure of the machine. -/
def failureLine (e : Failure) : String :=
  s!"{e.message} (ip={e.ip}, cursor={e.cursor})" ++ "\n"

/-- The outcome says what the library gives.  A result comes with its output, and with
the exit code zero if and only if nothing failed.  Any other trouble that the command
line knows of leaves no output. -/
inductive Agrees (o : Outcome) : Except Refusal Result → Prop where
  /-- A result, whether the run failed or not. -/
  | result {r : Result}
    (told : o.Says (if r.failure = none then 0 else 1) r.output
      (r.failure.toList.map failureLine)) : Agrees o (.ok r)
  /-- The text is no program. -/
  | loops {e : LoopError} (told : o.Says 1 [] [e.message ++ "\n"]) : Agrees o (.error (.loops e))
  /-- There is no such tape. -/
  | tape {e : Tape.Error} (held : e ≠ .capacity .memory)
    (told : o.Says 1 [] ["Error: " ++ e.message ++ "\n"]) : Agrees o (.error (.tape e))
  /-- Memory does not hold such a tape. -/
  | tapeRoom (breaks : o = .breakdown .tapeRoom) : Agrees o (.error (.tape (.capacity .memory)))
  /-- The run breaks down. -/
  | defect {d : Defect} (breaks : o = .breakdown (.defect d)) : Agrees o (.error (.defect d))
  /-- The run has not come to an end. -/
  | unfinished (breaks : o = .breakdown .unfinished) : Agrees o (.error .unfinished)

/-- The note on a build, if it succeeded. -/
def builtNotes : Except LoopError Program → List Note
  | .ok p => [.built p.size]
  | .error _ => []

/-- The note on a run, if it succeeded. -/
def executedNotes : Except Refusal Result → List Note
  | .ok r => [.executed r.steps]
  | .error _ => []

/-- The second outcome is the first one with notes on times: on the build if it
succeeded, and on the run if the exit code is zero. -/
inductive Timed (program : Except LoopError Program) (given : Except Refusal Result) :
    Outcome → Outcome → Prop where
  /-- Code and output are the same, and the notes stand around the remarks. -/
  | report {r r' : Report} (code : r'.code = r.code) (output : r'.output = r.output)
    (plain : r.notes = r.remarks.map .text)
    (notes : r'.notes = builtNotes program ++ r.notes ++
      if r.code = 0 then executedNotes given else []) : Timed program given (.report r) (.report r')
  /-- There is no report to add to. -/
  | breakdown (b : Breakdown) : Timed program given (.breakdown b) (.breakdown b)

/-! ## Settings -/

/-- The options are those that the settings stand for.  They may be anything where a
switch is set to nothing. -/
structure Settings.Gives (s : Settings) (o : Options) : Prop where
  tapeSize : ∀ n, s.tapeSize = .number n → o.tapeSize = n
  limit : s.limit ≠ some .void → o.limit = s.limit.bind Setting.number?
  fold : o.fold = s.fold

/-- The trouble that a program meets because a switch is set to nothing.  The number of
cells is always needed, and the limit if there is a tape and an instruction. -/
def Settings.gap? (s : Settings) (p : Program) (host : Host := .standard) : Option Breakdown :=
  match s.tapeSize with
  | .void => some .tapeSizeVoid
  | .number n =>
    match Tape.ofSize n host with
    | .error _ => none
    | .ok _ => if s.limit = some .void ∧ 0 < p.size then some .limitVoid else none

theorem Settings.options?_eq_some {s : Settings} {o : Options} (h : s.options? = some o) :
    s.tapeSize = .number o.tapeSize ∧ s.limit ≠ some .void ∧
      o.limit = s.limit.bind Setting.number? ∧ o.fold = s.fold := by
  unfold options? at h
  split at h
  · rename_i size hsize hlimit
    cases h
    rw [hsize, hlimit]
    exact ⟨rfl, nofun, rfl, rfl⟩
  · rename_i size limit hsize hlimit
    cases h
    rw [hsize, hlimit]
    exact ⟨rfl, nofun, rfl, rfl⟩
  · cases h

/-- If every switch that is set is set to a number, the settings stand for options. -/
theorem Settings.gives_of_options? {s : Settings} {o : Options} (h : s.options? = some o) :
    s.Gives o := by
  obtain ⟨hsize, -, hlimit, hfold⟩ := options?_eq_some h
  refine ⟨?_, fun _ => hlimit, hfold⟩
  intro n hn
  exact Setting.number.inj (hsize.symm.trans hn)

/-- Then there is no trouble for any program. -/
theorem Settings.gap?_of_options? {s : Settings} {o : Options} (h : s.options? = some o)
    (p : Program) (host : Host) : s.gap? p host = none := by
  obtain ⟨hsize, hvoid, -, -⟩ := options?_eq_some h
  unfold gap?
  rw [hsize]
  dsimp only
  split
  · rfl
  · exact if_neg fun hlimit => hvoid hlimit.1

/-! ## Reports -/

/-- Notes on times are no remarks. -/
theorem Job.says_withBuilt (j : Job) (r : Report) :
    (j.withBuilt r).Says r.code r.output r.remarks := by
  refine ⟨_, rfl, rfl, rfl, ?_⟩
  unfold Report.remarks
  cases j.settings.stats <;> rfl

theorem Job.says_failure (j : Job) (message : String) (output : List UInt8) :
    (j.withBuilt (.failure message output)).Says 1 output [message ++ "\n"] :=
  j.says_withBuilt (.failure message output)

/-- A tape that there is not is reported as the library does, unless it is for want of memory. -/
theorem Job.refuse_agrees (j : Job) (e : Tape.Error) :
    Agrees (j.refuse e) (.error (.tape e)) := by
  by_cases hroom : e = .capacity .memory
  · subst hroom
    exact .tapeRoom rfl
  · have hrefuse : j.refuse e = j.withBuilt (.failure ("Error: " ++ e.message)) := by
      unfold refuse
      split
      · exact absurd rfl hroom
      · rfl
    rw [hrefuse]
    exact .tape hroom (j.says_failure _ _)

/-- The end of a run is told as its result. -/
theorem Job.conclude_agrees (j : Job) (r : Run) : Agrees (j.conclude r) r.result := by
  unfold conclude Run.result
  cases r.ending with
  | none => exact .unfinished rfl
  | some e =>
    cases e with
    | finished =>
      let report : Report :=
        { code := 0, output := r.written.toList.flatten,
          notes := if j.settings.stats then [.executed r.machine.steps] else [] }
      have hremarks : report.remarks = [] := by
        show (if j.settings.stats then [Note.executed r.machine.steps] else []).filterMap _ = []
        cases j.settings.stats <;> rfl
      have hsays := j.says_withBuilt report
      rw [hremarks] at hsays
      exact .result hsays
    | failed e => exact .result (j.says_failure _ _)
    | broken d => exact .defect rfl

/-- Without instructions a limit has no part in a run. -/
theorem result_run_of_empty {p : Program} (hp : p.size = 0) (m : Machine) (limit : Option Int)
    (io : Streams) (rounds : Nat) :
    ({ m with limit }.run p io rounds).result = (m.run p io rounds).result := by
  have hstop (limit : Option Int) : m.start.step p io limit = .stop m.start .finished := by
    have hend : (p.size : Int) ≤ m.start.ip := by
      rw [hp]
      exact Int.le_refl 0
    rw [State.step, if_pos hend]
  have hstart : ({ m with limit } : Machine).start = m.start := rfl
  unfold Machine.run
  rw [hstart]
  cases rounds with
  | zero => rfl
  | succ rounds =>
    rw [State.run_of_stop (hstop limit), State.run_of_stop (hstop m.limit)]
    rfl

/-! ## Jobs -/

/-- A job with notes on times, or without them. -/
def Job.withStats (p : Program) (s : Settings) (stats : Bool) : Job :=
  { program := p, settings := { s with stats } }

section Jobs

variable {p : Program} {s : Settings} {o : Options} (input : Array UInt8) (rounds : Nat)

theorem Job.outcome_of_gap {host : Host} {b : Breakdown} (h : s.gap? p host = some b)
    (stats : Bool) : (withStats p s stats).outcome input rounds host = .breakdown b := by
  unfold Settings.gap? at h
  unfold outcome withStats
  cases hsize : s.tapeSize with
  | void =>
    rw [hsize] at h
    cases h
    rfl
  | number n =>
    simp only [hsize] at h
    cases htape : Tape.ofSize n host with
    | error e =>
      rw [htape] at h
      cases h
    | ok t =>
      simp only [htape] at h
      by_cases hlimit : s.limit = some .void ∧ 0 < p.size
      · rw [if_pos hlimit] at h
        cases h
        simp only [Machine.ofSize, htape, Except.map, if_pos hlimit]
      · rw [if_neg hlimit] at h
        cases h

/-- A job either has no tape, or ends as a run does.  It is the run of the library. -/
theorem Job.outcome_cases (ho : s.Gives o) (h : s.gap? p o.host = none) :
    (∃ e, p.run (.bytes input) o rounds = .error (.tape e) ∧ ∀ stats,
      (withStats p s stats).outcome input rounds o.host = (withStats p s stats).refuse e) ∨
    ∃ r : Run, p.run (.bytes input) o rounds = r.result ∧ ∀ stats,
      (withStats p s stats).outcome input rounds o.host = (withStats p s stats).conclude r := by
  unfold Settings.gap? at h
  unfold outcome Program.run
  cases hsize : s.tapeSize with
  | void =>
    rw [hsize] at h
    cases h
  | number n =>
    simp only [hsize] at h
    simp only [ho.tapeSize n hsize, withStats, hsize, Machine.ofSize]
    cases htape : Tape.ofSize n o.host with
    | error e => exact Or.inl ⟨e, rfl, fun _ => rfl⟩
    | ok t =>
      right
      simp only [htape] at h
      have hgap : ¬ (s.limit = some .void ∧ 0 < p.size) := by
        intro hvoid
        rw [if_pos hvoid] at h
        cases h
      simp only [Except.map, if_neg hgap]
      by_cases hlimit : s.limit = some .void
      · -- The limit is not looked at, since there is nothing to be carried out.
        have hempty : p.size = 0 := by
          have hpos : ¬ 0 < p.size := fun hpos => hgap ⟨hlimit, hpos⟩
          omega
        rw [← result_run_of_empty hempty _ (s.limit.bind Setting.number?)]
        exact ⟨_, rfl, fun _ => rfl⟩
      · rw [ho.limit hlimit]
        exact ⟨_, rfl, fun _ => rfl⟩

/-- A program that was built is reported on as the library gives it. -/
theorem Job.outcome_agrees (ho : s.Gives o) (h : s.gap? p o.host = none) (stats : Bool) :
    Agrees ((withStats p s stats).outcome input rounds o.host) (p.run (.bytes input) o rounds) := by
  obtain ⟨e, hrun, houtcome⟩ | ⟨r, hrun, houtcome⟩ := outcome_cases input rounds ho h
  · rw [hrun, houtcome]
    exact refuse_agrees _ e
  · rw [hrun, houtcome]
    exact conclude_agrees _ r

/-- Notes on times add the build in front, and the run behind if it succeeded. -/
theorem Job.timed_conclude (p : Program) (s : Settings) (r : Run) :
    Timed (.ok p) r.result ((withStats p s false).conclude r)
      ((withStats p s true).conclude r) := by
  unfold conclude Run.result
  cases r.ending with
  | none => exact .breakdown .unfinished
  | some e =>
    cases e with
    | finished => exact .report rfl rfl rfl rfl
    | failed e => exact .report rfl rfl rfl rfl
    | broken d => exact .breakdown (.defect d)

theorem Job.timed_refuse (p : Program) (s : Settings) (e : Tape.Error) :
    Timed (.ok p) (.error (.tape e)) ((withStats p s false).refuse e)
      ((withStats p s true).refuse e) := by
  unfold refuse
  split
  · exact .breakdown .tapeRoom
  · exact .report rfl rfl rfl rfl

theorem Job.timed_outcome (ho : s.Gives o) :
    Timed (.ok p) (p.run (.bytes input) o rounds)
      ((withStats p s false).outcome input rounds o.host)
      ((withStats p s true).outcome input rounds o.host) := by
  cases h : s.gap? p o.host with
  | some b =>
    rw [outcome_of_gap input rounds h, outcome_of_gap input rounds h]
    exact .breakdown b
  | none =>
    obtain ⟨e, hrun, houtcome⟩ | ⟨r, hrun, houtcome⟩ := outcome_cases input rounds ho h
    · rw [hrun, houtcome, houtcome]
      exact timed_refuse p s e
    · rw [hrun, houtcome, houtcome]
      exact timed_conclude p s r

end Jobs

/-! ## Asking for notes on times -/

namespace Selection

/-- The same with notes on times asked for. -/
def withStats (r : Selection) : Selection :=
  { r with settings := { r.settings with stats := true } }

theorem plain_withStats (r : Selection) (s : String) :
    r.withStats.plain s = (r.plain s).withStats := by
  unfold plain
  cases hpath : r.path <;> simp [withStats, leave, hpath]

theorem setValue_withStats (r : Selection) (s : Switch) (value : String) :
    r.withStats.setValue s value = (r.setValue s value).map withStats := by
  unfold setValue
  cases Setting.ofString? value with
  | none => rfl
  | some n => cases s <;> rfl

theorem turnOn_withStats (r : Selection) (s : Switch) :
    r.withStats.turnOn s = (r.turnOn s).map withStats := by
  cases s <;> rfl

/-- A value is set, and the words behind it are taken. -/
theorem setValue_bind_withStats {rest : List Word}
    (ih : ∀ r, take rest (withStats r) = (take rest r).map (Option.map withStats)) (r : Selection)
    (s : Switch) (value : String) :
    (r.withStats.setValue s value >>= take rest) =
      (r.setValue s value >>= take rest).map (Option.map withStats) := by
  rw [setValue_withStats]
  cases r.setValue s value with
  | error e => rfl
  | ok r => exact ih r

/-- Asking for notes on times beforehand changes nothing else. -/
theorem take_withStats (words : List Word) (r : Selection) :
    take words r.withStats = (take words r).map (Option.map withStats) := by
  fun_induction take words r with
  | case1 r => rfl
  | case2 s rest r ih =>
    rw [take, plain_withStats]
    exact ih
  | case3 rest r h ih =>
    have hbelongs : (r.withStats.atPath || r.withStats.path.isNone && !rest.isEmpty) = true := h
    rw [take, if_pos hbelongs]
    exact ih
  | case4 rest r h ih =>
    have hleft : ¬ (r.withStats.atPath || r.withStats.path.isNone && !rest.isEmpty) = true := h
    rw [take, if_neg hleft]
    exact ih
  | case5 s rest r ih =>
    rw [take]
    exact ih
  | case6 s r h value rest ih =>
    rw [take, if_pos h]
    exact setValue_bind_withStats ih r s value
  | case7 s r h value rest ih =>
    rw [take, if_pos h]
    exact setValue_bind_withStats ih r s value
  | case8 s rest r h hplain =>
    rw [take, if_pos h]
    · rfl
    · exact hplain
  | case9 s rest r h value =>
    rw [take, if_neg h]
    rfl
  | case10 s rest r h r' hr ih =>
    rw [take.eq_def]
    simp only [if_neg h, turnOn_withStats, hr, Option.map_some]
    exact ih
  | case11 s rest r h hr =>
    rw [take.eq_def]
    simp only [if_neg h, turnOn_withStats, hr]
    rfl

end Selection

/-- A program is run if the words are understood and leave a path and nothing else. -/
theorem Request.ofArguments_eq_run_iff {args : List String} {path : String} {s : Settings} :
    ofArguments args = .ok (.run path s) ↔ ∃ words r, Word.ofArguments args = .ok words ∧
      Selection.take words {} = .ok (some r) ∧ r.path = some path ∧ r.extra = [] ∧
      r.settings = s := by
  constructor
  · intro h
    unfold ofArguments at h
    cases hwords : Word.ofArguments args with
    | error e =>
      rw [hwords] at h
      cases h
    | ok words =>
      simp only [hwords, bind, Except.bind] at h
      split at h
      · cases h
      · rename_i selected hselected
        split at h
        · cases h
        · rename_i r
          split at h
          · cases h
          · rename_i hpath hextra
            cases h
            exact ⟨words, r, rfl, hselected, hpath, hextra, rfl⟩
          · cases h
  · intro ⟨words, r, hwords, hselected, hpath, hextra, hsettings⟩
    simp only [ofArguments, hwords, bind, Except.bind, hselected, hpath, hextra, hsettings]
    rfl

/-- The switch in front asks for notes on times, and changes nothing else. -/
theorem Request.ofArguments_stats {args : List String} {path : String} {s : Settings}
    (h : ofArguments args = .ok (.run path s)) :
    ofArguments ("--stats" :: args) = .ok (.run path { s with stats := true }) := by
  obtain ⟨words, r, hwords, hselected, hpath, hextra, hsettings⟩ := ofArguments_eq_run_iff.1 h
  refine ofArguments_eq_run_iff.2 ⟨.switch .stats none :: words, r.withStats, ?_, ?_, hpath, hextra,
    ?_⟩
  · rw [Word.ofArguments, hwords]
    rfl
  · rw [Selection.take.eq_def]
    have htake := Selection.take_withStats words {}
    rw [hselected] at htake
    exact htake
  · rw [← hsettings]
    rfl

/-! ## The result -/

theorem runFile_utf8 (file : List UInt8) (input : Input) (o : Options) (rounds : Nat) :
    runFile file input o "utf-8" rounds = runText (textOfFile .utf8 file) input o rounds :=
  runFile_eq (by decide) (by decide +kernel) file input o rounds

/-- Arguments that lead to a file build it, and a program that was built is run. -/
theorem outcome_eq {args : List String} {openFile : String → Except OpenError (List UInt8)}
    {path : String} {s : Settings} {file : List UInt8}
    (hargs : Request.ofArguments args = .ok (.run path s)) (hpath : '\x00' ∉ path.toList)
    (hopen : openFile path = .ok file) (input : Array UInt8) (rounds : Nat) (host : Host) :
    outcome args openFile input rounds host =
      match Program.ofText (textOfFile .utf8 file) s.fold with
      | .error e => .report (.failure e.message)
      | .ok p => (Job.withStats p s s.stats).outcome input rounds host := by
  have hnull : path.toList.contains '\x00' = false := by simpa using hpath
  unfold outcome Job.ofArguments
  simp only [hargs, hnull, hopen, Bool.false_eq_true, if_false]
  cases Program.ofText (textOfFile .utf8 file) s.fold with
  | error e => rfl
  | ok p => rfl

/-- The command line says of a file that can be opened what the library gives for it, with
the same options and on the same host.  It breaks down only as the library does, or at a
switch that is set to nothing when its number is needed.  Asking for notes on times, in
front of the other arguments or in any way that is understood, adds these notes and
nothing else. -/
theorem outcome_agrees_runFile {args : List String}
    {openFile : String → Except OpenError (List UInt8)} {path : String} {s : Settings}
    {file : List UInt8} (hargs : Request.ofArguments args = .ok (.run path s))
    (hpath : '\x00' ∉ path.toList) (hopen : openFile path = .ok file) {o : Options}
    (ho : s.Gives o) (input : Array UInt8) (rounds : Nat) :
    let program := Program.ofText (textOfFile .utf8 file) o.fold
    let given := runFile file (.bytes input) o "utf-8" rounds
    ((∀ p, program = .ok p → s.gap? p o.host = none) →
      Agrees (outcome args openFile input rounds o.host) given) ∧
    (∀ p b, program = .ok p → s.gap? p o.host = some b →
      outcome args openFile input rounds o.host = .breakdown b) ∧
    (s.stats = false →
      Request.ofArguments ("--stats" :: args) = .ok (.run path { s with stats := true }) ∧
      ∀ args', Request.ofArguments args' = .ok (.run path { s with stats := true }) →
        Timed program given (outcome args openFile input rounds o.host)
          (outcome args' openFile input rounds o.host)) := by
  intro program given
  have hgiven : given = match program with
      | .ok p => p.run (.bytes input) o rounds
      | .error e => .error (.loops e) :=
    runFile_utf8 file (.bytes input) o rounds
  have hprogram : program = Program.ofText (textOfFile .utf8 file) s.fold := by rw [← ho.fold]
  refine ⟨?_, ?_, ?_⟩
  · intro hgap
    rw [outcome_eq hargs hpath hopen, ← hprogram, hgiven]
    cases hp : program with
    | error e => exact .loops ⟨_, rfl, rfl, rfl, rfl⟩
    | ok p => exact Job.outcome_agrees input rounds ho (hgap p hp) s.stats
  · intro p b hp hgap
    rw [outcome_eq hargs hpath hopen, ← hprogram, hp]
    exact Job.outcome_of_gap input rounds hgap s.stats
  · intro hstats
    refine ⟨Request.ofArguments_stats hargs, ?_⟩
    intro args' hargs'
    rw [outcome_eq hargs hpath hopen, outcome_eq hargs' hpath hopen, ← hprogram, hgiven, hstats]
    cases program with
    | error e => exact .report rfl rfl rfl rfl
    | ok p => exact Job.timed_outcome input rounds ho

/-- A byte is written, and the next instruction leaves the tape.  The report says both,
and with notes on times it tells of the build too. -/
theorem outcome_agrees_runFile_partial :
    let args := ["--tape-size", "1", "p.bf"]
    let s : Settings := { tapeSize := .number 1 }
    let file : List UInt8 := [0x2E, 0x3C]
    let openFile (_ : String) : Except OpenError (List UInt8) := .ok file
    let o : Options := { tapeSize := 1 }
    (Request.ofArguments args = .ok (.run "p.bf" s) ∧ '\x00' ∉ "p.bf".toList ∧
      openFile "p.bf" = .ok file ∧ s.Gives o ∧ s.stats = false) ∧
    Agrees (outcome args openFile #[] 3) (runFile file (.bytes #[]) o "utf-8" 3) ∧
    Timed (Program.ofText (textOfFile .utf8 file)) (runFile file (.bytes #[]) o "utf-8" 3)
      (outcome args openFile #[] 3) (outcome ("--stats" :: args) openFile #[] 3) ∧
    outcome ("--stats" :: args) openFile #[] 3 = .report
      { code := 1
        output := [0]
        notes := [.built 2,
          .text "TapeBoundsError: cursor moved to -1, outside [0, 1) (ip=1, cursor=0)\n"] } := by
  intro args s file openFile o
  have hargs : Request.ofArguments args = .ok (.run "p.bf" s) := by decide +kernel
  have hpath : '\x00' ∉ "p.bf".toList := by decide
  have hopen : openFile "p.bf" = .ok file := rfl
  have hoptions : s.options? = some o := rfl
  have ho : s.Gives o := Settings.gives_of_options? hoptions
  obtain ⟨hagrees, -, htimed⟩ := outcome_agrees_runFile hargs hpath hopen ho #[] 3
  obtain ⟨hstats, htimed⟩ := htimed rfl
  have hgap (p : Program) : s.gap? p o.host = none :=
    Settings.gap?_of_options? hoptions p o.host
  exact ⟨⟨hargs, hpath, hopen, ho, rfl⟩, hagrees fun p _ => hgap p, htimed _ hstats,
    by decide +kernel⟩

end Brainfuck.CommandLine
