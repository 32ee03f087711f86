import ScriptLexer.CommandLine.Program
import ScriptLexer.Proofs.Performances

/-! How a run of the program ends. Its status tells whether the work could be done and whether a
source has an invalid token; nothing that settles only how diagnostics appear has a part in it. -/

namespace ScriptLexer.CommandLine

/-- The same work, though one may keep diagnostics back and the other not. -/
inductive Work.Alike : Work → Work → Prop
  | tokens (paths : List String) (format : Option OutputFormat) (noComments quiet silent : Bool) :
      Alike (.tokens paths format noComments quiet) (.tokens paths format noComments silent)
  | check (paths : List String) (quiet silent : Bool) :
      Alike (.check paths quiet) (.check paths silent)
  | codes (code : Option String) : Alike (.codes code) (.codes code)

inductive Blocked (world : World) (invocation : Invocation) : Prop
  | config {failure : Failure} (unloaded : loadConfig world invocation = .error failure)
  | source {path : String} {fault : ReadFault} (among : path ∈ invocation.sourcePaths)
      (unread : world.input.read path = .error fault)
  | code {text : String} (asked : invocation.work = .codes (some text))
      (unknown : Command.Codes.parse? text = none)

/-- What is in the way of the work under any configuration: the first source that cannot be read, or
the text that no code is known by. -/
def obstacle? (input : Input) (invocation : Invocation) : Option Failure :=
  match invocation.work with
  | .codes (some text) =>
      if (Command.Codes.parse? text).isNone then some (.unknownCode text) else none
  | _ => (input.stop? invocation.sourcePaths).map fun stop => .read stop.1 stop.2

def reportLines (color : Bool) (sources : List Source) : List String :=
  sources.flatMap fun source => source.lexer.reports.map (Console.printing color).render

inductive Course (world : World) (invocation : Invocation) : Outcome → Prop
  | unconfigured {failure : Failure} (unloaded : loadConfig world invocation = .error failure) :
      Course world invocation (.ended 2 "" (errorLine failure))
  | obstructed {path? : Option String} {config : Config} {failure : Failure}
      (loaded : loadConfig world invocation = .ok (path?, config))
      (obstacle : obstacle? world.input invocation = some failure) :
      Course world invocation
        (.ended 2 "" ((conduct world invocation).told ++ errorLine failure))
  | finished {path? : Option String} {config : Config} {product : Product}
      (loaded : loadConfig world invocation = .ok (path?, config))
      (free : obstacle? world.input invocation = none)
      (result : (perform config world.input invocation.work).result = .ok product)
      (clean : product.summary.isClean = true ↔
        ∀ path ∈ invocation.sourcePaths, ¬world.input.Invalid path) :
      Course world invocation (.ended (if product.summary.isClean then 0 else 1) product.text
        (conduct world invocation).told)

section Obstacles

variable {input : Input} {invocation : Invocation} (config : Config)

theorem perform_obstructed {failure : Failure}
    (obstacle : obstacle? input invocation = some failure) :
    (perform config input invocation.work).result = .error failure := by
  obtain ⟨verbose, noColor, path?, work⟩ := invocation
  cases work with
  | tokens paths format noComments quiet =>
      obtain ⟨⟨path, fault⟩, stopped, rfl⟩ := Option.map_eq_some_iff.mp obstacle
      exact Command.Tokens.perform_stopped stopped
  | check paths quiet =>
      obtain ⟨⟨path, fault⟩, stopped, rfl⟩ := Option.map_eq_some_iff.mp obstacle
      exact Command.Check.perform_stopped stopped
  | codes code =>
      cases code with
      | none => cases obstacle
      | some text =>
          cases known : Command.Codes.parse? text with
          | some code => simp [obstacle?, known] at obstacle
          | none =>
              simp only [obstacle?, known, Option.isNone_none, if_true] at obstacle
              cases obstacle
              exact Command.Codes.perform_unknown known

theorem clean_of_reads {paths : List String} {sources : List Source}
    (reads : input.Reads paths sources) :
    (Summary.counting sources).isClean = true ↔ ∀ path ∈ paths, ¬input.Invalid path := by
  have invalid := Input.exists_invalid_of_reads reads
  rw [Summary.isClean_counting]
  simpa using not_congr invalid

theorem perform_free (free : obstacle? input invocation = none) :
    ∃ product, (perform config input invocation.work).result = .ok product ∧
      (product.summary.isClean = true ↔ ∀ path ∈ invocation.sourcePaths, ¬input.Invalid path) := by
  obtain ⟨verbose, noColor, path?, work⟩ := invocation
  cases work with
  | tokens paths format noComments quiet =>
      obtain ⟨sources, reads⟩ := Input.exists_reads (Option.map_eq_none_iff.mp free)
      exact ⟨_, Command.Tokens.perform_reads reads, clean_of_reads reads⟩
  | check paths quiet =>
      obtain ⟨sources, reads⟩ := Input.exists_reads (Option.map_eq_none_iff.mp free)
      exact ⟨_, Command.Check.perform_reads reads, clean_of_reads reads⟩
  | codes code =>
      have clean : Summary.empty.isClean = true ↔
          ∀ path ∈ ([] : List String), ¬input.Invalid path := by
        simp [Summary.isClean, Summary.empty]
      cases code with
      | none => exact ⟨_, rfl, clean⟩
      | some text =>
          cases known : Command.Codes.parse? text with
          | none => simp [obstacle?, known] at free
          | some code => exact ⟨_, Command.Codes.perform_known known, clean⟩

theorem stop?_of_free (free : obstacle? input invocation = none) :
    input.stop? invocation.sourcePaths = none := by
  obtain ⟨verbose, noColor, path?, work⟩ := invocation
  cases work with
  | tokens paths format noComments quiet => exact Option.map_eq_none_iff.mp free
  | check paths quiet => exact Option.map_eq_none_iff.mp free
  | codes code => rfl

end Obstacles

section Blocked

variable {world : World} {invocation : Invocation}

theorem blocked_of_stop {path : String} {fault : ReadFault}
    (stopped : world.input.stop? invocation.sourcePaths = some (path, fault)) :
    Blocked world invocation := by
  obtain ⟨before, after, parts, _, unread⟩ := Input.stop?_eq_some_iff.mp stopped
  exact .source (parts ▸ List.mem_append_right before List.mem_cons_self) unread

theorem blocked_of_obstacle {failure : Failure}
    (obstacle : obstacle? world.input invocation = some failure) : Blocked world invocation := by
  rw [obstacle?] at obstacle
  split at obstacle
  · rename_i text asked
    have unknown : Command.Codes.parse? text = none := by
      by_contra known
      simp [known] at obstacle
    exact .code asked unknown
  · obtain ⟨⟨path, fault⟩, stopped, _⟩ := Option.map_eq_some_iff.mp obstacle
    exact blocked_of_stop stopped

theorem not_blocked {path? : Option String} {config : Config}
    (loaded : loadConfig world invocation = .ok (path?, config))
    (free : obstacle? world.input invocation = none) : ¬Blocked world invocation := by
  rintro (unloaded | ⟨among, unread⟩ | ⟨asked, unknown⟩)
  · cases loaded.symm.trans unloaded
  · obtain ⟨source, read⟩ := Input.stop?_eq_none_iff.mp (stop?_of_free free) _ among
    cases read.symm.trans unread
  · simp [obstacle?, asked, unknown] at free

end Blocked

section Told

variable {console : Console} (enabled : console.enabled = true)
include enabled

theorem lines_reported (reports : List Diagnostic) :
    (reports.map Event.reported).flatMap (Event.lines false console) =
      reports.map console.render := by
  induction reports with
  | nil => rfl
  | cons report reports ih =>
      rw [List.map_cons, List.flatMap_cons, ih]
      simp [Event.lines, enabled]

theorem lines_listed (source : Source) :
    (Command.Tokens.events (.ofSource source)).flatMap (Event.lines false console) =
      source.lexer.reports.map console.render :=
  lines_reported enabled source.lexer.reports

theorem lines_checked (source : Source) :
    (Command.Check.events (.ofSource source)).flatMap (Event.lines false console) =
      source.lexer.reports.map console.render := by
  rw [Command.Check.events, List.flatMap_append]
  exact (List.append_nil _).trans (lines_reported enabled source.lexer.reports)

/-- Without log lines, lexing tells the reports, one source after the other. -/
theorem lines_perform (config : Config) (input : Input) (invocation : Invocation) :
    ∃ sources, input.Reads (input.readable invocation.sourcePaths) sources ∧
      (perform config input invocation.work).events.flatMap (Event.lines false console) =
        sources.flatMap fun source => source.lexer.reports.map console.render := by
  obtain ⟨verbose, noColor, path?, work⟩ := invocation
  cases work with
  | tokens paths format noComments quiet =>
      obtain ⟨sources, reads, lexed⟩ := input.lex_reads paths
      refine ⟨sources, reads, ?_⟩
      simp only [perform, Command.Tokens.perform, lexed, List.flatMap_assoc, List.flatMap_map,
        lines_listed enabled]
  | check paths quiet =>
      obtain ⟨sources, reads, lexed⟩ := input.lex_reads paths
      refine ⟨sources, reads, ?_⟩
      simp only [perform, Command.Check.perform, lexed, List.flatMap_assoc, List.flatMap_map,
        lines_checked enabled]
  | codes code => exact ⟨[], .nil input, rfl⟩

end Told

theorem told_eq {world : World} {invocation : Invocation} {path? : Option String} {config : Config}
    (loaded : loadConfig world invocation = .ok (path?, config))
    (heard : isQuiet config invocation.work = false)
    (live : world.environment.mode ≠ some Console.testMode) (terse : invocation.verbose = false) :
    ∃ sources, world.input.Reads (world.input.readable invocation.sourcePaths) sources ∧
      (conduct world invocation).told = String.join
        ((reportLines (config.color && !invocation.noColor) sources).map Listing.endLine) := by
  have printing : console world.environment config invocation =
      .printing (config.color && !invocation.noColor) := by
    simp [console, Console.forCommand, heard, Console.ofMode, Console.printing, live]
  have unlogged : (path?.toList.map Event.configured).flatMap
      (Event.lines false (.printing (config.color && !invocation.noColor))) = [] := by
    cases path? <;> rfl
  have enabled : (Console.printing (config.color && !invocation.noColor)).enabled = true := rfl
  obtain ⟨sources, reads, lines⟩ := lines_perform enabled config world.input invocation
  refine ⟨sources, reads, ?_⟩
  rw [conduct, loaded]
  simp only [terse, printing, List.flatMap_append, unlogged, lines, List.nil_append, reportLines]

theorem writeTo_failed {conduct : Conduct} {failure : Failure}
    (failed : conduct.result = .error failure) :
    conduct.writeTo .unbounded = .ended 2 "" (conduct.told ++ errorLine failure) := by
  rw [Conduct.writeTo, failed]
  rfl

theorem writeTo_done {conduct : Conduct} {product : Product}
    (done : conduct.result = .ok product) :
    conduct.writeTo .unbounded =
      .ended (if product.summary.isClean then 0 else 1) product.text conduct.told := by
  have written : (conduct.result >>= fun product => product.writeTo .unbounded) =
      .ok (product.text, product.summary) := by
    rw [done]
    exact product.writeTo_unbounded
  rw [Conduct.writeTo, written]
  rfl

theorem conduct_result {world : World} {invocation : Invocation} {path? : Option String}
    {config : Config} (loaded : loadConfig world invocation = .ok (path?, config)) :
    (conduct world invocation).result = (perform config world.input invocation.work).result := by
  rw [conduct, loaded]

theorem course_run {world : World} {arguments : List String} {invocation : Invocation}
    (parsed : Invocation.parse world.environment arguments = .ok invocation) :
    Course world invocation (run world arguments .unbounded) := by
  rw [run, parsed]
  change Course world invocation ((conduct world invocation).writeTo .unbounded)
  cases config : loadConfig world invocation with
  | error failure =>
      have failed : conduct world invocation = ⟨"", .error failure⟩ := by rw [conduct, config]
      rw [failed]
      exact .unconfigured config
  | ok loaded =>
      have result := conduct_result config
      cases obstacle : obstacle? world.input invocation with
      | some failure =>
          rw [perform_obstructed loaded.2 obstacle] at result
          rw [writeTo_failed result]
          exact .obstructed config obstacle
      | none =>
          obtain ⟨product, performed, clean⟩ := perform_free loaded.2 obstacle
          rw [writeTo_done (result.trans performed)]
          exact .finished config obstacle performed clean

namespace Course

variable {world : World} {invocation : Invocation} {outcome : Outcome}
  (course : Course world invocation outcome)
include course

theorem blocked_iff : outcome.status = 2 ↔ Blocked world invocation := by
  cases course with
  | unconfigured unloaded => exact iff_of_true rfl (.config unloaded)
  | obstructed loaded obstacle => exact iff_of_true rfl (blocked_of_obstacle obstacle)
  | @finished _ _ product loaded free _ _ =>
      apply iff_of_false ?_ (not_blocked loaded free)
      cases product.summary.isClean <;> simp [Outcome.status]

theorem silent (blocked : Blocked world invocation) : outcome.out = "" := by
  cases course with
  | unconfigured unloaded => rfl
  | obstructed loaded obstacle => rfl
  | finished loaded free result clean => exact absurd blocked (not_blocked loaded free)

theorem clean_iff : outcome.status = 0 ↔ ¬Blocked world invocation ∧
    ∀ path ∈ invocation.sourcePaths, ¬world.input.Invalid path := by
  cases course with
  | unconfigured unloaded => exact iff_of_false nofun fun free => free.1 (.config unloaded)
  | obstructed loaded obstacle =>
      exact iff_of_false nofun fun free => free.1 (blocked_of_obstacle obstacle)
  | @finished _ _ product loaded free _ clean =>
      rw [← clean, Outcome.status]
      simp [not_blocked loaded free]

theorem faulty_iff : outcome.status = 1 ↔ ¬Blocked world invocation ∧
    ∃ path ∈ invocation.sourcePaths, world.input.Invalid path := by
  cases course with
  | unconfigured unloaded => exact iff_of_false nofun fun free => free.1 (.config unloaded)
  | obstructed loaded obstacle =>
      exact iff_of_false nofun fun free => free.1 (blocked_of_obstacle obstacle)
  | @finished _ _ product loaded free _ clean =>
      have faulty := not_congr clean
      simp only [not_forall, not_not, exists_prop] at faulty
      rw [← faulty, Outcome.status]
      simp [not_blocked loaded free]

theorem out_eq {path? : Option String} {config : Config}
    (known : loadConfig world invocation = .ok (path?, config)) :
    outcome.out =
      match (perform config world.input invocation.work).result with
      | .ok product => product.text
      | .error _ => "" := by
  cases course with
  | unconfigured unloaded => cases known.symm.trans unloaded
  | obstructed loaded obstacle =>
      rw [perform_obstructed config obstacle]
      rfl
  | finished loaded free result clean =>
      cases known.symm.trans loaded
      rw [result]
      rfl

theorem err_eq {path? : Option String} {config : Config}
    (known : loadConfig world invocation = .ok (path?, config)) :
    outcome.err = (conduct world invocation).told ++
      (obstacle? world.input invocation).elim "" errorLine := by
  cases course with
  | unconfigured unloaded => cases known.symm.trans unloaded
  | obstructed loaded obstacle => simp [obstacle, Outcome.err]
  | finished loaded free result clean => simp [free, Outcome.err]

theorem err_unconfigured {failure : Failure}
    (unloaded : loadConfig world invocation = .error failure) :
    outcome.err = errorLine failure := by
  cases course with
  | unconfigured known =>
      cases unloaded.symm.trans known
      rfl
  | obstructed loaded obstacle => cases unloaded.symm.trans loaded
  | finished loaded free result clean => cases unloaded.symm.trans loaded

end Course

section Alike

variable {invocation other : Invocation} (alike : invocation.work.Alike other.work) (input : Input)
include alike

theorem sourcePaths_alike : other.sourcePaths = invocation.sourcePaths := by
  obtain ⟨_, _, _, work⟩ := invocation
  obtain ⟨_, _, _, known⟩ := other
  cases alike <;> rfl

theorem obstacle?_alike : obstacle? input other = obstacle? input invocation := by
  obtain ⟨_, _, _, work⟩ := invocation
  obtain ⟨_, _, _, known⟩ := other
  cases alike <;> rfl

end Alike

theorem result_alike {first second : Work} (alike : first.Alike second) (config : Config)
    (input : Input) {paths : List String} {format : Option OutputFormat} {noComments quiet : Bool}
    (listing : first = .tokens paths format noComments quiet) :
    (perform config input second).result = (perform config input first).result := by
  cases alike with
  | tokens => rfl
  | check => cases listing
  | codes => rfl

/-- Two invocations, each in its world, ask for the same work on the same input, and find the same
configuration. All else in their worlds and invocations may differ. -/
structure Alike (world : World) (invocation : Invocation) (other : World) (known : Invocation) :
    Prop where
  input : other.input = world.input
  work : invocation.work.Alike known.work
  config : ∃ path? otherPath? config, loadConfig world invocation = .ok (path?, config) ∧
    loadConfig other known = .ok (otherPath?, config)

namespace Alike

variable {world other : World} {invocation known : Invocation} {outcome last : Outcome}
  (alike : Alike world invocation other known) (first : Course world invocation outcome)
  (second : Course other known last)
include alike first second

theorem status_eq : last.status = outcome.status := by
  obtain ⟨path?, otherPath?, config, loaded, found⟩ := alike.config
  have obstacles : obstacle? other.input known = obstacle? world.input invocation := by
    rw [alike.input, obstacle?_alike alike.work]
  cases obstacle : obstacle? world.input invocation with
  | some failure =>
      have halted : Blocked other known := blocked_of_obstacle (obstacles.trans obstacle)
      rw [second.blocked_iff.mpr halted, first.blocked_iff.mpr (blocked_of_obstacle obstacle)]
  | none =>
      have free := not_blocked loaded obstacle
      have clear := not_blocked found (obstacles.trans obstacle)
      have status := second.clean_iff
      have faulty := second.faulty_iff
      rw [alike.input, sourcePaths_alike alike.work] at status faulty
      by_cases clean : ∀ path ∈ invocation.sourcePaths, ¬world.input.Invalid path
      · rw [status.mpr ⟨clear, clean⟩, first.clean_iff.mpr ⟨free, clean⟩]
      · simp only [not_forall, not_not, exists_prop] at clean
        rw [faulty.mpr ⟨clear, clean⟩, first.faulty_iff.mpr ⟨free, clean⟩]

theorem out_eq {paths : List String} {format : Option OutputFormat} {noComments quiet : Bool}
    (listing : invocation.work = .tokens paths format noComments quiet) :
    last.out = outcome.out := by
  obtain ⟨path?, otherPath?, config, loaded, found⟩ := alike.config
  rw [second.out_eq found, first.out_eq loaded, alike.input,
    result_alike alike.work config world.input listing]

end Alike

/-- How a run on `invocation` ends: with status 2 and nothing written where the work cannot be done,
else with 1 where a source has an invalid token and with 0 where none has. Alike runs end alike.
Where nothing is kept back or logged, what is told are all reports, and then what is in the way. -/
structure Ends (world : World) (invocation : Invocation) (outcome : Outcome) : Prop where
  blocked : outcome.status = 2 ↔ Blocked world invocation
  silent : Blocked world invocation → outcome.out = ""
  faulty : outcome.status = 1 ↔ ¬Blocked world invocation ∧
    ∃ path ∈ invocation.sourcePaths, world.input.Invalid path
  clean : outcome.status = 0 ↔ ¬Blocked world invocation ∧
    ∀ path ∈ invocation.sourcePaths, ¬world.input.Invalid path
  codes : ∀ code, invocation.work = .codes code → ¬Blocked world invocation → outcome.status = 0
  alike : ∀ other arguments known, Invocation.parse other.environment arguments = .ok known →
    Alike world invocation other known →
      (run other arguments .unbounded).status = outcome.status ∧
        ∀ paths format noComments quiet, invocation.work = .tokens paths format noComments quiet →
          (run other arguments .unbounded).out = outcome.out
  unconfigured : ∀ failure, loadConfig world invocation = .error failure →
    outcome.err = errorLine failure
  reported : ∀ path? config, loadConfig world invocation = .ok (path?, config) →
    isQuiet config invocation.work = false → world.environment.mode ≠ some Console.testMode →
    invocation.verbose = false →
      ∃ sources, world.input.Reads (world.input.readable invocation.sourcePaths) sources ∧
        outcome.err = String.join
            ((reportLines (config.color && !invocation.noColor) sources).map Listing.endLine) ++
          (obstacle? world.input invocation).elim "" errorLine

theorem run_ends {world : World} {arguments : List String} {invocation : Invocation}
    (parsed : Invocation.parse world.environment arguments = .ok invocation) :
    Ends world invocation (run world arguments .unbounded) := by
  have course := course_run parsed
  constructor
  case blocked => exact course.blocked_iff
  case silent => exact course.silent
  case faulty => exact course.faulty_iff
  case clean => exact course.clean_iff
  case codes =>
    intro code asked free
    apply course.clean_iff.mpr ⟨free, ?_⟩
    rw [Invocation.sourcePaths, asked]
    exact nofun
  case alike =>
    intro other others known parsed alike
    have second := course_run parsed
    exact ⟨alike.status_eq course second, fun _ _ _ _ => alike.out_eq course second⟩
  case unconfigured => exact fun failure => course.err_unconfigured
  case reported =>
    intro path? config loaded heard live terse
    obtain ⟨sources, reads, told⟩ := told_eq loaded heard live terse
    refine ⟨sources, reads, ?_⟩
    rw [course.err_eq loaded, told]

theorem run_ends_missing :
    let files : FileSystem := fun path =>
      if path = "a.ts" then .ok "let n = 1__0;".toUTF8 else .error .notFound
    let world : World := ⟨fun _ => none, ⟨files, .empty⟩⟩
    let arguments := ["--no-color", "check", "a.ts", "b.ts"]
    let invocation : Invocation := ⟨false, true, none, .check ["a.ts", "b.ts"] false⟩
    Invocation.parse world.environment arguments = .ok invocation ∧
      Ends world invocation (run world arguments .unbounded) := by
  intro files world arguments invocation
  have parsed : Invocation.parse world.environment arguments = .ok invocation := by rfl
  exact ⟨parsed, run_ends parsed⟩

end ScriptLexer.CommandLine
