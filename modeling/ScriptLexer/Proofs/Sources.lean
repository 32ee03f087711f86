import Mathlib.Algebra.GroupWithZero.Nat
import Mathlib.Data.List.TakeWhile
import ScriptLexer.Proofs.LineReports
import ScriptLexer.Proofs.Stream
import ScriptLexer.Summary

/-! Sources and what lexing them tells. A list of paths stands for the sources that are read there
in order, up to the first path that cannot be read; a summary counts the sources, those with an
invalid token, and their lines with a report. -/

namespace ScriptLexer

namespace Lexer

theorem any_isInvalid_tokens (lexer : Lexer) :
    lexer.tokens.any Token.isInvalid = true ↔ lexer.reports ≠ [] := by
  fun_induction drain lexer with
  | case1 lexer pull found left ih =>
      obtain ⟨c, text, visible⟩ := exists_visible found
      obtain ⟨reported, _⟩ := next_report?_of_found found
      change lexer.next.lexer.tokens.any _ = true ↔ lexer.next.lexer.reports ≠ [] at ih
      rw [tokens_of_found found, reports_of_visible visible, List.any_cons, Bool.or_eq_true,
        reported, ih]
      cases lexer.next.report? <;> simp
  | case2 lexer pull finished =>
      rw [tokens_of_end finished, reports_of_blank (blank_of_end finished)]
      simp

theorem drain_source (lexer : Lexer) : lexer.drain.2.source = lexer.source := by
  rw [← pull_of_length_lt (Nat.lt_succ_self _)]
  exact pull_source _ lexer

end Lexer

namespace Source

def lexer (source : Source) : Lexer := .ofText source.text.toList source.name

def hasInvalid (source : Source) : Bool := source.lexer.tokens.any Token.isInvalid

def errorLines (source : Source) : Nat := (source.lexer.reports.map Diagnostic.line).dedup.length

theorem hasInvalid_iff (source : Source) : source.hasInvalid = true ↔ source.lexer.reports ≠ [] :=
  source.lexer.any_isInvalid_tokens

theorem failure?_lexed (source : Source) : (LexedSource.ofSource source).failure? =
    if source.hasInvalid then some ⟨source.name, .ofReports source.lexer.reports⟩ else none := by
  have name : source.lexer.drain.2.source = source.name := source.lexer.drain_source
  have errors : source.lexer.drain.2.errors = .ofReports source.lexer.reports := by
    rw [Lexer.drain_errors]
    exact LineErrors.note_empty _
  have nothing := LineErrors.isEmpty_ofReports source.lexer.reports
  have invalid := source.hasInvalid_iff
  change source.lexer.drain.2.failure? = _
  rw [Lexer.failure?, name, errors]
  by_cases clean : source.lexer.reports = []
  · rw [if_pos (nothing.mpr clean), if_neg fun some => invalid.mp some clean]
  · rw [if_neg fun empty => clean (nothing.mp empty), if_pos (invalid.mpr clean)]

end Source

namespace Summary

def counting (sources : List Source) : Summary :=
  ⟨sources.length, sources.countP Source.hasInvalid, (sources.map Source.errorLines).sum⟩

theorem add_assoc (first second third : Summary) :
    (first.add second).add third = first.add (second.add third) := by
  simp only [add, Nat.add_assoc]

theorem counting_append (first second : List Source) :
    counting (first ++ second) = (counting first).add (counting second) := by
  simp [counting, add]

theorem record_failure? (summary : Summary) (source : Source) :
    summary.record (LexedSource.ofSource source).failure? = summary.add (counting [source]) := by
  have invalid := source.hasInvalid_iff
  have lines := LineErrors.count_ofReports source.lexer.reports
  rw [Source.failure?_lexed]
  by_cases found : source.hasInvalid = true
  · simp [found, record, add, counting, lines, Source.errorLines]
  · have clean : source.lexer.reports = [] := by
      by_contra reported
      exact found (invalid.mpr reported)
    simp [found, record, add, counting, clean, Source.errorLines]

theorem ofSources_lexed (sources : List Source) :
    ofSources (sources.map .ofSource) = counting sources := by
  suffices ∀ summary : Summary, (sources.map LexedSource.ofSource).foldl
      (fun summary lexed => summary.record lexed.failure?) summary =
        summary.add (counting sources) by
    rw [ofSources, this]
    simp [add, empty]
  induction sources with
  | nil => exact fun summary => rfl
  | cons source sources ih =>
      intro summary
      calc
        _ = (summary.add (counting [source])).add (counting sources) := by
          rw [List.map_cons, List.foldl_cons, record_failure?, ih]
        _ = summary.add ((counting [source]).add (counting sources)) := add_assoc _ _ _
        _ = summary.add (counting (source :: sources)) := by
          rw [← counting_append, List.singleton_append]

theorem isClean_counting (sources : List Source) :
    (counting sources).isClean = true ↔ ∀ source ∈ sources, source.hasInvalid = false := by
  simp [isClean, counting, List.countP_eq_zero]

end Summary

theorem decodeText_toUTF8 (text : String) : decodeText text.toUTF8 = .ok text := by
  have valid : text.toUTF8.IsValidUTF8 := text.isValidUTF8
  rw [decodeText, String.fromUTF8?, dif_pos valid]
  rfl

namespace FileSystem

def StopsAt (files : FileSystem) (paths : List String) (path : String) (fault : ReadFault) : Prop :=
  ∃ before after, paths = before ++ path :: after ∧
    (∀ earlier ∈ before, ∃ text, files.readText earlier = .ok text) ∧
    files.readText path = .error fault

structure Holds (files : FileSystem) (paths : List String) (sources : List Source) : Prop where
  names : sources.map Source.name = paths
  texts : ∀ source ∈ sources, files.readText source.name = .ok source.text

theorem holds_cons (files : FileSystem) (path : String) (paths : List String) (source : Source)
    (sources : List Source) : files.Holds (path :: paths) (source :: sources) ↔
      (source.name = path ∧ files.readText path = .ok source.text) ∧
        files.Holds paths sources := by
  constructor
  · rintro ⟨names, texts⟩
    obtain ⟨rfl, rfl⟩ := List.cons.inj names
    have here := texts source List.mem_cons_self
    exact ⟨⟨rfl, here⟩, rfl, fun other member => texts other (List.mem_cons_of_mem _ member)⟩
  · rintro ⟨⟨rfl, here⟩, rfl, texts⟩
    exact ⟨rfl, List.forall_mem_cons.mpr ⟨here, texts⟩⟩

theorem exists_holds {files : FileSystem} {paths : List String}
    (readable : ∀ path ∈ paths, ∃ text, files.readText path = .ok text) :
    ∃ sources, files.Holds paths sources := by
  induction paths with
  | nil => exact ⟨[], rfl, nofun⟩
  | cons path paths ih =>
      obtain ⟨⟨text, found⟩, others⟩ := List.forall_mem_cons.mp readable
      obtain ⟨sources, holds⟩ := ih others
      exact ⟨⟨path, text⟩ :: sources, (holds_cons ..).mpr ⟨⟨rfl, found⟩, holds⟩⟩

theorem Holds.append {files : FileSystem} {first second : List String}
    {sources others : List Source} (left : files.Holds first sources)
    (right : files.Holds second others) :
    files.Holds (first ++ second) (sources ++ others) := by
  constructor
  case names => rw [List.map_append, left.names, right.names]
  case texts => exact List.forall_mem_append.mpr ⟨left.texts, right.texts⟩

end FileSystem

namespace Input

def unreadable? (input : Input) (path : String) : Option (String × ReadFault) :=
  match input.read path with
  | .ok _ => none
  | .error fault => some (path, fault)

def stop? (input : Input) (paths : List String) : Option (String × ReadFault) :=
  paths.findSome? input.unreadable?

def readable (input : Input) (paths : List String) : List String :=
  paths.takeWhile fun path => (input.unreadable? path).isNone

inductive Reads : Input → List String → List Source → Prop
  | nil (input : Input) : Reads input [] []
  | cons {input : Input} {path : String} {source : Source} {paths : List String}
      {sources : List Source} (read : input.read path = .ok source)
      (others : Reads (input.afterRead path) paths sources) :
      Reads input (path :: paths) (source :: sources)

theorem unreadable?_eq_none (input : Input) (path : String) :
    input.unreadable? path = none ↔ ∃ source, input.read path = .ok source := by
  rw [unreadable?]
  cases input.read path <;> simp

theorem unreadable?_eq_some (input : Input) (path other : String) (fault : ReadFault) :
    input.unreadable? path = some (other, fault) ↔
      other = path ∧ input.read path = .error fault := by
  rw [unreadable?]
  cases input.read path <;> simp [eq_comm]

theorem unreadable?_of_read {input : Input} {path : String} {source : Source}
    (read : input.read path = .ok source) : input.unreadable? path = none :=
  (input.unreadable?_eq_none path).mpr ⟨source, read⟩

theorem stop?_eq_none_iff {input : Input} {paths : List String} :
    input.stop? paths = none ↔ ∀ path ∈ paths, ∃ source, input.read path = .ok source := by
  simp only [stop?, List.findSome?_eq_none_iff, unreadable?_eq_none]

theorem stop?_eq_some_iff {input : Input} {paths : List String} {path : String}
    {fault : ReadFault} :
    input.stop? paths = some (path, fault) ↔
      ∃ before after, paths = before ++ path :: after ∧
        (∀ earlier ∈ before, ∃ source, input.read earlier = .ok source) ∧
        input.read path = .error fault := by
  simp only [stop?, List.findSome?_eq_some_iff, unreadable?_eq_some, unreadable?_eq_none]
  constructor
  · rintro ⟨before, _, after, parts, ⟨rfl, unread⟩, passed⟩
    exact ⟨before, after, parts, passed, unread⟩
  · rintro ⟨before, after, parts, passed, unread⟩
    exact ⟨before, path, after, parts, ⟨rfl, unread⟩, passed⟩

/-- What has been read can be read again, though standard input is empty then. -/
theorem unreadable?_afterRead {input : Input} {path : String} {source : Source}
    (read : input.read path = .ok source) (other : String) :
    (input.afterRead path).unreadable? other = input.unreadable? other := by
  by_cases standard : path = stdinPath
  · subst path
    by_cases again : other = stdinPath
    · subst other
      have empty : (input.afterRead stdinPath).read stdinPath = .ok ⟨stdinName, ""⟩ := rfl
      rw [unreadable?_of_read read, unreadable?_of_read empty]
    · simp [unreadable?, Input.read, afterRead, again]
  · rw [afterRead, if_neg standard]

theorem stop?_afterRead {input : Input} {path : String} {source : Source}
    (read : input.read path = .ok source) (paths : List String) :
    (input.afterRead path).stop? paths = input.stop? paths :=
  congrArg paths.findSome? (funext (unreadable?_afterRead read))

theorem readable_afterRead {input : Input} {path : String} {source : Source}
    (read : input.read path = .ok source) (paths : List String) :
    (input.afterRead path).readable paths = input.readable paths := by
  simp only [readable, unreadable?_afterRead read]

theorem lex_reads (input : Input) (paths : List String) :
    ∃ sources, input.Reads (input.readable paths) sources ∧
      input.lex paths = (sources.map .ofSource, input.stop? paths) := by
  -- The induction is over all inputs, since reading a path changes what is left to be read.
  induction paths generalizing input with
  | nil => exact ⟨[], .nil input, rfl⟩
  | cons path paths ih =>
      cases found : input.read path with
      | error fault =>
          have stopped := (input.unreadable?_eq_some path path fault).mpr ⟨rfl, found⟩
          refine ⟨[], ?_, ?_⟩
          · simpa [readable, stopped] using Reads.nil input
          · simp [lex, found, stop?, stopped]
      | ok source =>
          have passed := unreadable?_of_read found
          obtain ⟨sources, reads, lexed⟩ := ih (input.afterRead path)
          rw [readable_afterRead found] at reads
          rw [stop?_afterRead found] at lexed
          refine ⟨source :: sources, ?_, ?_⟩
          · simpa [readable, passed] using Reads.cons found reads
          · simp [lex, found, lexed, stop?, passed]

theorem lex_of_reads {input : Input} {paths : List String} {sources : List Source}
    (reads : input.Reads paths sources) : input.lex paths = (sources.map .ofSource, none) := by
  induction reads with
  | nil => rfl
  | cons read _ ih => simp [lex, read, ih]

theorem exists_reads {input : Input} {paths : List String} (unstopped : input.stop? paths = none) :
    ∃ sources, input.Reads paths sources := by
  obtain ⟨sources, reads, _⟩ := input.lex_reads paths
  have all : input.readable paths = paths := by
    apply List.takeWhile_eq_self_iff.mpr
    intro path member
    rw [List.findSome?_eq_none_iff.mp unstopped path member]
    rfl
  rw [all] at reads
  exact ⟨sources, reads⟩

def Invalid (input : Input) (path : String) : Prop :=
  ∃ source, input.read path = .ok source ∧ source.hasInvalid = true

theorem invalid_of_read {input : Input} {path : String} {source : Source}
    (read : input.read path = .ok source) : input.Invalid path ↔ source.hasInvalid = true := by
  simp [Invalid, read]

theorem hasInvalid_empty (name : String) : (⟨name, ""⟩ : Source).hasInvalid = false := by
  rw [Source.hasInvalid, Lexer.tokens_of_blank rfl]
  rfl

theorem invalid_afterRead {input : Input} {path : String} {source : Source}
    (read : input.read path = .ok source) (other : String) :
    source.hasInvalid = true ∨ (input.afterRead path).Invalid other ↔
      source.hasInvalid = true ∨ input.Invalid other := by
  by_cases standard : path = stdinPath
  · subst path
    by_cases again : other = stdinPath
    · subst other
      have empty : (input.afterRead stdinPath).read stdinPath = .ok ⟨stdinName, ""⟩ := rfl
      rw [invalid_of_read read, invalid_of_read empty, hasInvalid_empty]
      simp
    · simp [Invalid, Input.read, afterRead, again]
  · rw [afterRead, if_neg standard]

theorem exists_invalid_of_reads {input : Input} {paths : List String} {sources : List Source}
    (reads : input.Reads paths sources) :
    (∃ source ∈ sources, source.hasInvalid = true) ↔ ∃ path ∈ paths, input.Invalid path := by
  induction reads with
  | nil => simp
  | @cons input path source paths sources read _ ih =>
      have later := invalid_afterRead read
      rw [List.exists_mem_cons_iff, List.exists_mem_cons_iff, ih, invalid_of_read read]
      by_cases found : source.hasInvalid = true
      · simp [found]
      · simp only [found, Bool.false_eq_true, false_or] at later ⊢
        simp only [later]

theorem exists_reads_of_readable {input : Input} {paths : List String}
    (readable : ∀ path ∈ paths, ∃ source, input.read path = .ok source) :
    ∃ sources, input.Reads paths sources :=
  exists_reads (stop?_eq_none_iff.mpr readable)

theorem name_of_read {input : Input} {path : String} {source : Source}
    (read : input.read path = .ok source) : source.name = path ∨ source.name = stdinName := by
  rw [Input.read] at read
  split at read
  · cases found : decodeText input.stdin <;> rw [found] at read <;> cases read
    exact .inr rfl
  · cases found : input.files.readText path <;> rw [found] at read <;> cases read
    exact .inl rfl

theorem Reads.name_of_mem {input : Input} {paths : List String} {sources : List Source}
    (reads : input.Reads paths sources) :
    ∀ source ∈ sources, source.name ∈ paths ∨ source.name = stdinName := by
  induction reads with
  | nil => exact nofun
  | @cons input path source paths sources read _ ih =>
      intro other member
      rcases List.mem_cons.mp member with rfl | later
      · rcases name_of_read read with rfl | standard
        · exact .inl List.mem_cons_self
        · exact .inr standard
      · exact (ih other later).imp_left (List.mem_cons_of_mem path)

section Files

variable {input : Input} {paths : List String} (files : stdinPath ∉ paths)
include files

theorem read_file {path : String} (member : path ∈ paths) :
    input.read path = (input.files.readText path).map (⟨path, ·⟩) := by
  have file : path ≠ stdinPath := fun same => files (same ▸ member)
  rw [Input.read, if_neg file]

theorem read_file_ok {path : String} (member : path ∈ paths) (source : Source) :
    input.read path = .ok source ↔
      source.name = path ∧ input.files.readText path = .ok source.text := by
  rw [read_file files member]
  cases input.files.readText path with
  | error fault => simp [Except.map]
  | ok text =>
      cases source
      simp [Except.map, eq_comm]

theorem read_file_error {path : String} (member : path ∈ paths) (fault : ReadFault) :
    input.read path = .error fault ↔ input.files.readText path = .error fault := by
  rw [read_file files member]
  cases input.files.readText path <;> simp [Except.map]

theorem readable_of_texts
    (texts : ∀ path ∈ paths, ∃ text, input.files.readText path = .ok text) :
    ∀ path ∈ paths, ∃ source, input.read path = .ok source := by
  intro path member
  obtain ⟨text, found⟩ := texts path member
  exact ⟨⟨path, text⟩, (read_file_ok files member _).mpr ⟨rfl, found⟩⟩

theorem reads_files {sources : List Source} :
    input.Reads paths sources ↔ input.files.Holds paths sources := by
  induction paths generalizing sources with
  | nil =>
      constructor
      · rintro ⟨⟩
        exact ⟨rfl, nofun⟩
      · rintro ⟨names, _⟩
        rw [List.map_eq_nil_iff.mp names]
        exact .nil input
  | cons path paths ih =>
      have first := @read_file_ok input _ files path List.mem_cons_self
      have others := @ih fun member => files (List.mem_cons_of_mem path member)
      have file : path ≠ stdinPath := fun equal => files (equal ▸ List.mem_cons_self)
      have same : input.afterRead path = input := if_neg file
      cases sources with
      | nil => exact ⟨nofun, fun holds => nomatch holds.names⟩
      | cons source sources =>
          rw [FileSystem.holds_cons, ← first, ← others]
          constructor
          · rintro ⟨⟩
            rename_i read reads
            exact ⟨read, same ▸ reads⟩
          · rintro ⟨read, reads⟩
            exact .cons read (same.symm ▸ reads)

theorem stopsAt_of_stop? {path : String} {fault : ReadFault}
    (stopped : input.stop? paths = some (path, fault)) :
    input.files.StopsAt paths path fault := by
  obtain ⟨before, after, rfl, passed, unread⟩ := stop?_eq_some_iff.mp stopped
  refine ⟨before, after, rfl, ?_, ?_⟩
  · intro earlier front
    have member := List.mem_append_left (path :: after) front
    obtain ⟨source, read⟩ := passed earlier front
    exact ⟨source.text, ((read_file_ok files member source).mp read).2⟩
  · have member := List.mem_append_right before (List.mem_cons_self (l := after) (a := path))
    exact (read_file_error files member fault).mp unread

end Files

end Input
end ScriptLexer
