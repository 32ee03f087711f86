import ScriptLexer.Proofs.Performances

/-! A batch of files and its files one by one. What is written for the batch is put together from
what is written for each file alone, and its summary is the sum of theirs. -/

namespace ScriptLexer

def Summary.sum (summaries : List Summary) : Summary :=
  ⟨(summaries.map files).sum, (summaries.map filesWithErrors).sum, (summaries.map errorLines).sum⟩

theorem Summary.sum_counting (sources : List Source) :
    sum (sources.map fun source => counting [source]) = counting sources := by
  induction sources with
  | nil => rfl
  | cons source sources ih =>
      calc
        _ = (counting [source]).add (sum (sources.map fun source => counting [source])) := rfl
        _ = (counting [source]).add (counting sources) := by rw [ih]
        _ = counting (source :: sources) := (counting_append [source] sources).symm

namespace Listing

theorem join_flatMap (parts : Listing → List String) (listings : List Listing) :
    String.join (listings.flatMap parts) =
      String.join (listings.map fun listing => String.join (parts listing)) := by
  induction listings with
  | nil => rfl
  | cons listing listings ih => simp [ih]

theorem text_single (listing : Listing) :
    text [listing] = String.join (listing.tokenLines.map endLine) := by
  simp [text, lines]

theorem text_several {listings : List Listing} (several : 1 < listings.length) :
    text listings = String.join (listings.map fun listing =>
      "==> " ++ listing.source ++ " <==\n" ++ text [listing]) := by
  have headed (listing : Listing) :
      String.join ((header listing.source :: listing.tokenLines).map endLine) =
        "==> " ++ listing.source ++ " <==\n" ++ text [listing] := by
    have ended : " <==\n" = " <==" ++ "\n" := by decide
    simp [text_single, header, endLine, ended, String.append_assoc]
  simp only [text, lines, several, if_true, List.map_flatMap, join_flatMap, headed]

end Listing

namespace Command

structure Single where
  path : String
  text : String
  element : Json
  summary : Summary

namespace Single

structure Alone (input : Input) (includeComments : Bool) (single : Single) : Prop where
  text : ((Tokens.mk [single.path] .text includeComments).perform input).Gives
    single.text single.summary
  document : ((Tokens.mk [single.path] .json includeComments).perform input).Gives
    ((Json.list [single.element]).print ++ "\n") single.summary
  total : Total input [single.path] single.summary

/-- The runs on `paths` give together what the runs on each path give alone, whatever the other
files are. -/
structure Together (input : Input) (includeComments : Bool) (paths : List String)
    (singles : List Single) : Prop where
  named : singles.map path = paths
  alone : ∀ single ∈ singles, ∀ other : Input,
    other.files.readText single.path = input.files.readText single.path →
      single.Alone other includeComments
  text : ((Tokens.mk paths .text includeComments).perform input).Gives
    (String.join (singles.map fun single => "==> " ++ single.path ++ " <==\n" ++ single.text))
    (.sum (singles.map summary))
  document : ((Tokens.mk paths .json includeComments).perform input).Gives
    ((Json.list (singles.map element)).print ++ "\n") (.sum (singles.map summary))
  total : Total input paths (.sum (singles.map summary))
  additive : ∀ first second, paths = first ++ second → ∃ left right,
    Total input first left ∧ Total input second right ∧ Total input paths (left.add right)

def ofSource (includeComments : Bool) (source : Source) : Single :=
  let listing := Listing.ofSource includeComments (.ofSource source)
  ⟨source.name, Listing.text [listing], listing.toJson, .counting [source]⟩

theorem sum_ofSource (includeComments : Bool) (sources : List Source) :
    Summary.sum ((sources.map (ofSource includeComments)).map summary) = .counting sources := by
  rw [List.map_map]
  exact Summary.sum_counting sources

section Reads

variable {input : Input} {paths : List String} {sources : List Source} (includeComments : Bool)
  (reads : input.Reads paths sources)
include reads

theorem gives_text : ((Tokens.mk paths .text includeComments).perform input).Gives
    (Listing.text (sources.map fun source => Listing.ofSource includeComments (.ofSource source)))
    (.counting sources) := by
  have done := @Tokens.perform_reads _ _ ⟨paths, .text, includeComments⟩ reads
  simpa [Product.text, Tokens.pieces, Piece.content, Function.comp_def] using
    Performance.gives_of_result done

theorem gives_document : ((Tokens.mk paths .json includeComments).perform input).Gives
    ((Json.list ((sources.map (ofSource includeComments)).map element)).print ++ "\n")
    (.counting sources) := by
  have done := @Tokens.perform_reads _ _ ⟨paths, .json, includeComments⟩ reads
  simpa [Product.text, Tokens.pieces, Piece.content, Function.comp_def, Listing.document,
    ofSource] using Performance.gives_of_result done

theorem text_together (several : 2 ≤ sources.length) :
    ((Tokens.mk paths .text includeComments).perform input).Gives
      (String.join ((sources.map (ofSource includeComments)).map fun single =>
        "==> " ++ single.path ++ " <==\n" ++ single.text))
      (.counting sources) := by
  have several : 1 < (sources.map fun source =>
      Listing.ofSource includeComments (.ofSource source)).length := by
    rwa [List.length_map]
  have written := gives_text includeComments reads
  rw [Listing.text_several several, List.map_map] at written
  rw [List.map_map]
  exact written

end Reads

theorem alone_ofSource {input : Input} (includeComments : Bool) {source : Source}
    (reads : input.Reads [source.name] [source]) :
    Alone input includeComments (ofSource includeComments source) := by
  constructor
  case text => exact gives_text includeComments reads
  case document =>
    have written := gives_document includeComments reads
    rw [List.map_singleton, List.map_singleton] at written
    exact written
  case total => exact total_of_reads reads

end Single

theorem total_append {input : Input} {paths : List String} (files : Input.stdinPath ∉ paths)
    (readable : ∀ path ∈ paths, ∃ text, input.files.readText path = .ok text)
    {first second : List String} (parts : paths = first ++ second) :
    ∃ left right, Total input first left ∧ Total input second right ∧
      Total input paths (left.add right) := by
  subst parts
  obtain ⟨begins, ends⟩ := List.forall_mem_append.mp readable
  obtain ⟨sources, left⟩ := FileSystem.exists_holds begins
  obtain ⟨others, right⟩ := FileSystem.exists_holds ends
  have whole := (Input.reads_files files).mpr (left.append right)
  rw [List.mem_append, not_or] at files
  refine ⟨.counting sources, .counting others, ?_, ?_, ?_⟩
  · exact total_of_reads ((Input.reads_files files.1).mpr left)
  · exact total_of_reads ((Input.reads_files files.2).mpr right)
  · rw [← Summary.counting_append]
    exact total_of_reads whole

/-- A batch of files gives what its files give alone, put together. -/
theorem batch_together {input : Input} {paths : List String} (includeComments : Bool)
    (several : 2 ≤ paths.length) (files : Input.stdinPath ∉ paths)
    (readable : ∀ path ∈ paths, ∃ text, input.files.readText path = .ok text) :
    ∃ singles, Single.Together input includeComments paths singles := by
  obtain ⟨sources, found⟩ := FileSystem.exists_holds readable
  have reads := (Input.reads_files files).mpr found
  refine ⟨sources.map (Single.ofSource includeComments), ?_⟩
  constructor
  case named =>
    rw [List.map_map]
    exact found.names
  case alone =>
    intro single member other same
    obtain ⟨source, among, rfl⟩ := List.mem_map.mp member
    have listed : source.name ∈ paths := found.names ▸ List.mem_map_of_mem among
    have named : Input.stdinPath ∉ [source.name] :=
      fun equal => files (List.eq_of_mem_singleton equal ▸ listed)
    -- A run on one path reads nothing else, so any input that has the same text there will do.
    apply Single.alone_ofSource
    apply (Input.reads_files named).mpr
    constructor
    case names => rfl
    case texts =>
      rw [List.forall_mem_singleton]
      exact same.trans (found.texts source among)
  case text =>
    rw [Single.sum_ofSource]
    apply Single.text_together includeComments reads
    rwa [← List.length_map Source.name, found.names]
  case document =>
    rw [Single.sum_ofSource]
    exact Single.gives_document includeComments reads
  case total =>
    rw [Single.sum_ofSource]
    exact total_of_reads reads
  case additive => exact fun first second parts => total_append files readable parts

theorem batch_together_pair :
    let files : FileSystem := fun path =>
      if path = "a.ts" then .ok "let a; // a".toUTF8 else .ok "1__0".toUTF8
    2 ≤ ["a.ts", "b.ts"].length ∧ Input.stdinPath ∉ ["a.ts", "b.ts"] ∧
      (∀ path ∈ ["a.ts", "b.ts"], ∃ text, files.readText path = .ok text) ∧
      ∃ singles, Single.Together ⟨files, .empty⟩ false ["a.ts", "b.ts"] singles := by
  intro files
  have several : 2 ≤ ["a.ts", "b.ts"].length := by decide
  have named : Input.stdinPath ∉ ["a.ts", "b.ts"] := by decide
  have readable : ∀ path ∈ ["a.ts", "b.ts"], ∃ text, files.readText path = .ok text := by
    rw [List.forall_mem_cons, List.forall_mem_singleton]
    exact ⟨⟨_, decodeText_toUTF8 "let a; // a"⟩, ⟨_, decodeText_toUTF8 "1__0"⟩⟩
  exact ⟨several, named, readable, @batch_together ⟨files, .empty⟩ _ false several named readable⟩

end Command
end ScriptLexer
