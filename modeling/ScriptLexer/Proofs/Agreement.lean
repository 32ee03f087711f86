import ScriptLexer.CommandLine.Program
import ScriptLexer.Proofs.Performances

/-! Listing and checking the same files. Both fail at the first file that is not text, and want
nothing written then; or both end with one summary, which counts the files, those with an invalid
token, and the lines with a report. -/

namespace ScriptLexer.CommandLine

inductive Agree (files : FileSystem) (paths : List String) (listed checked : Performance) : Prop
  | stopped {path : String} {fault : ReadFault} (first : files.StopsAt paths path fault)
      (listing : listed.Fails (.read path fault)) (checking : checked.Fails (.read path fault))
  | finished {sources : List Source} {summary : Summary} (found : files.Holds paths sources)
      (listing : listed.Succeeds summary) (checking : checked.Succeeds summary)
      (all : summary.files = paths.length)
      (faulty : summary.filesWithErrors = sources.countP Source.hasInvalid)
      (lines : summary.errorLines = (sources.map Source.errorLines).sum)
      (clean : summary.isClean = true ↔ ∀ source ∈ sources, source.hasInvalid = false)

theorem tokens_check_agree {input : Input} {paths : List String}
    (files : Input.stdinPath ∉ paths) (config other : Config) (format : Option OutputFormat)
    (noComments quiet silent : Bool) :
    Agree input.files paths (perform config input (.tokens paths format noComments quiet))
      (perform other input (.check paths silent)) := by
  cases stop : input.stop? paths with
  | some stopped =>
      apply Agree.stopped (Input.stopsAt_of_stop? files stop)
      · apply Performance.fails_of_result
        exact Command.Tokens.perform_stopped stop
      · apply Performance.fails_of_result
        exact Command.Check.perform_stopped stop
  | none =>
      obtain ⟨sources, reads⟩ := Input.exists_reads stop
      have found := (Input.reads_files files).mp reads
      have total := Command.total_of_reads reads
      apply Agree.finished found (total.tokens _ _) (total.check _)
      case all => rw [← found.names, List.length_map, Summary.counting]
      case faulty => rfl
      case lines => rfl
      case clean => exact Summary.isClean_counting sources

theorem tokens_check_agree_twice :
    let files : FileSystem := fun path =>
      if path = "a.ts" then .ok "let n = 1__0;".toUTF8 else .error .notFound
    let config : Config := ⟨.json, false, false, true⟩
    Input.stdinPath ∉ ["a.ts", "a.ts"] ∧
      Agree files ["a.ts", "a.ts"]
        (perform config ⟨files, .empty⟩ (.tokens ["a.ts", "a.ts"] none true true))
        (perform .default ⟨files, .empty⟩ (.check ["a.ts", "a.ts"] false)) := by
  intro files config
  have named : Input.stdinPath ∉ ["a.ts", "a.ts"] := by decide
  exact ⟨named, @tokens_check_agree ⟨files, .empty⟩ _ named config .default none true true false⟩

end ScriptLexer.CommandLine
