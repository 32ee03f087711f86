import ScriptLexer.Proofs.Batch
import ScriptLexer.Proofs.Records

/-! The text of a list of sources, line by line. A line is a header or stands for one token, whose
kind and lexeme are read back from it. Lexemes have their line breaks spelled out, so that the text
cut behind every line feed gives its lines back, unless the name of a source breaks one. -/

namespace ScriptLexer

def Unbroken (text : List Char) : Prop := '\n' ∉ text ∧ '\r' ∉ text

instance (text : List Char) : Decidable (Unbroken text) := inferInstanceAs (Decidable (_ ∧ _))

theorem unbroken_append {front back : List Char} (first : Unbroken front)
    (second : Unbroken back) : Unbroken (front ++ back) := by
  constructor
  · exact List.not_mem_append first.1 second.1
  · exact List.not_mem_append first.2 second.2

theorem splitOn_ended {lines : List (List Char)} (inline : ∀ line ∈ lines, '\n' ∉ line) :
    (lines.flatMap fun line => line ++ ['\n']).splitOn '\n' = lines ++ [[]] := by
  induction lines with
  | nil => rfl
  | cons line lines ih =>
      obtain ⟨here, later⟩ := List.forall_mem_cons.mp inline
      calc
        _ = (line ++ '\n' :: lines.flatMap fun line => line ++ ['\n']).splitOn '\n' := by
          rw [List.flatMap_cons, List.append_assoc, List.singleton_append]
        _ = line :: (lines ++ [[]]) := by
          rw [List.splitOn_append_cons_self_of_not_mem here, ih later]

namespace TokenKind

theorem isAlpha_of_mem_name (kind : TokenKind) : ∀ c ∈ kind.name.toList, c.isAlpha = true := by
  have table : ∀ kind ∈ all, kind.name.toList.all Char.isAlpha = true := by decide +kernel
  exact List.all_eq_true.mp (table kind (mem_all kind))

theorem unbroken_name (kind : TokenKind) : Unbroken kind.name.toList := by
  constructor
  · exact fun member => Bool.false_ne_true (isAlpha_of_mem_name kind '\n' member)
  · exact fun member => Bool.false_ne_true (isAlpha_of_mem_name kind '\r' member)

end TokenKind

namespace Listing

def replaced (old : Char) (new text : List Char) : List Char :=
  text.flatMap fun c => if c = old then new else [c]

/-- The returns can be spelled out first, since that brings in no line feed. -/
theorem flatMap_onOneLine (text : List Char) :
    text.flatMap onOneLine = replaced '\n' ['\\', 'n'] (replaced '\r' ['\\', 'r'] text) := by
  have each (c : Char) : onOneLine c = (if c = '\r' then ['\\', 'r'] else [c]).flatMap
      fun c => if c = '\n' then ['\\', 'n'] else [c] := by
    by_cases returns : c = '\r' <;> simp [onOneLine, returns]
  rw [replaced, replaced, List.flatMap_assoc]
  simp only [← each]

theorem unbroken_flatMap_onOneLine (text : List Char) : Unbroken (text.flatMap onOneLine) := by
  have each (c : Char) : Unbroken (onOneLine c) := by
    by_cases returns : c = '\r'
    · simp [Unbroken, onOneLine, returns]
    · by_cases feeds : c = '\n'
      · simp [Unbroken, onOneLine, feeds]
      · simp [Unbroken, onOneLine, returns, feeds, eq_comm]
  constructor
  · simpa using fun c _ => (each c).1
  · simpa using fun c _ => (each c).2

def lexemeText (token : Token) : List Char :=
  token.lexeme.elim [] fun lexeme => ' ' :: lexeme.toList.flatMap onOneLine

theorem tokenLine_toList (token : Token) :
    (tokenLine token).toList = token.kind.name.toList ++ lexemeText token := by
  cases present : token.lexeme with
  | none => simp [tokenLine, lexemeText, present]
  | some lexeme => simp [tokenLine, lexemeText, present, oneLine]

theorem unbroken_tokenLine (token : Token) : Unbroken (tokenLine token).toList := by
  have behind : Unbroken (lexemeText token) := by
    cases present : token.lexeme with
    | none => simp [lexemeText, present, Unbroken]
    | some lexeme =>
        have spelled := unbroken_flatMap_onOneLine lexeme.toList
        simpa [lexemeText, present, Unbroken] using spelled
  rw [tokenLine_toList]
  exact unbroken_append token.kind.unbroken_name behind

theorem unbroken_header {source : String} (name : Unbroken source.toList) :
    Unbroken (header source).toList := by
  simpa [header, Unbroken] using name

/-- `line` is the line of `token`: up to its first space it names the kind, and behind that space, if
there is one, stands the lexeme with its line breaks spelled out, be it together or one after the
other. -/
structure Shows (line : List Char) (token : Token) : Prop where
  kind : line.takeWhile (· != ' ') = token.kind.name.toList
  lexeme : line.dropWhile (· != ' ') =
    token.lexeme.elim [] fun lexeme => ' ' :: lexeme.toList.flatMap onOneLine
  spelled : ∀ lexeme ∈ token.lexeme, lexeme.toList.flatMap onOneLine =
    replaced '\n' ['\\', 'n'] (replaced '\r' ['\\', 'r'] lexeme.toList)

theorem shows_tokenLine (token : Token) : Shows (tokenLine token).toList token := by
  have word : ∀ c ∈ token.kind.name.toList, (c != ' ') = true := by
    intro c member
    have letter := token.kind.isAlpha_of_mem_name c member
    apply bne_iff_ne.mpr
    rintro rfl
    cases letter
  have stops : Stops (· != ' ') (lexemeText token) := by
    cases present : token.lexeme with
    | none => simp only [lexemeText, present, Option.elim_none, stops_nil]
    | some lexeme =>
        simp only [lexemeText, present, Option.elim_some]
        exact stops_cons rfl
  have parts := takeWhile_run word stops
  rw [← tokenLine_toList] at parts
  exact ⟨parts.1, parts.2, fun lexeme _ => flatMap_onOneLine lexeme.toList⟩

end Listing

inductive Entry
  | header (source : String)
  | token (shown : Token)
  deriving DecidableEq, Repr

namespace Entry

def line : Entry → String
  | header source => Listing.header source
  | token shown => Listing.tokenLine shown

def lines (entries : List Entry) : List (List Char) := entries.map fun entry => entry.line.toList

def text (entries : List Entry) : String :=
  String.join (entries.map fun entry => entry.line ++ "\n")

/-- What `sources` are listed by: the tokens of each that are kept, one source after the other, under
headers if there are several. -/
def ofSources (keeps : Token → Bool) (sources : List Source) : List Entry :=
  sources.flatMap fun source =>
    (if 2 ≤ sources.length then [header source.name] else []) ++
      (source.lexer.tokens.filter keeps).map token

theorem lines_ofSources (includeComments : Bool) (sources : List Source) :
    Listing.lines (sources.map fun source => Listing.ofSource includeComments (.ofSource source)) =
      (ofSources (Listing.keeps includeComments) sources).map line := by
  have shown (source : Source) :
      (Listing.ofSource includeComments (.ofSource source)).tokenLines =
        ((source.lexer.tokens.filter (Listing.keeps includeComments)).map token).map line := by
    rw [List.map_map]
    rfl
  rw [ofSources, List.map_flatMap, Listing.lines, List.flatMap_map, List.length_map]
  congr 1
  funext source
  rw [shown, List.map_append]
  by_cases several : 1 < sources.length
  · have enough : 2 ≤ sources.length := several
    rw [if_pos several, if_pos enough]
    rfl
  · have few : ¬2 ≤ sources.length := several
    rw [if_neg several, if_neg few]
    rfl

theorem text_ofSources (includeComments : Bool) (sources : List Source) :
    Listing.text (sources.map fun source => Listing.ofSource includeComments (.ofSource source)) =
      text (ofSources (Listing.keeps includeComments) sources) := by
  rw [Listing.text, lines_ofSources, List.map_map]
  rfl

theorem toList_text (entries : List Entry) :
    (text entries).toList = (lines entries).flatMap fun line => line ++ ['\n'] := by
  simp [text, lines, String.toList_join, List.flatMap_map]

theorem splitOn_text {entries : List Entry}
    (inline : ∀ entry ∈ entries, Unbroken entry.line.toList) :
    (text entries).toList.splitOn '\n' = lines entries ++ [[]] := by
  rw [toList_text]
  apply splitOn_ended
  exact List.forall_mem_map.mpr fun entry member => (inline entry member).1

theorem unreturned_text {entries : List Entry}
    (inline : ∀ entry ∈ entries, Unbroken entry.line.toList) : '\r' ∉ (text entries).toList := by
  rw [toList_text]
  intro member
  obtain ⟨line, among, inside⟩ := List.mem_flatMap.mp member
  obtain ⟨entry, listed, rfl⟩ := List.mem_map.mp among
  rcases List.mem_append.mp inside with within | behind
  · exact (inline entry listed).2 within
  · cases List.mem_singleton.mp behind

theorem unbroken_ofSources {keeps : Token → Bool} {sources : List Source}
    (named : ∀ source ∈ sources, Unbroken source.name.toList) :
    ∀ entry ∈ ofSources keeps sources, Unbroken entry.line.toList := by
  intro entry member
  obtain ⟨source, among, listed⟩ := List.mem_flatMap.mp member
  rcases List.mem_append.mp listed with headed | shown
  · obtain rfl := List.mem_singleton.mp (List.mem_ite_nil_right.mp headed).2
    exact Listing.unbroken_header (named source among)
  · obtain ⟨token, _, rfl⟩ := List.mem_map.mp shown
    exact Listing.unbroken_tokenLine token

end Entry

theorem Input.Reads.unbroken {input : Input} {paths : List String} {sources : List Source}
    (reads : input.Reads paths sources) (named : ∀ path ∈ paths, Unbroken path.toList) :
    ∀ source ∈ sources, Unbroken source.name.toList := by
  have standard : Unbroken Input.stdinName.toList := by decide
  intro source member
  rcases reads.name_of_mem source member with listed | equal
  · exact named _ listed
  · exact equal ▸ standard

namespace Command

structure OneLineEach (sources : List Source) (includeComments : Bool) (out : String) : Prop where
  cut : out.toList.splitOn '\n' =
    Entry.lines (Entry.ofSources (Listing.keeps includeComments) sources) ++ [[]]
  unreturned : '\r' ∉ out.toList
  shown : ∀ token, Entry.token token ∈ Entry.ofSources (Listing.keeps includeComments) sources →
    Listing.Shows (Entry.token token).line.toList token

/-- Where no name of a file breaks a line, listing the files in text keeps each token on a line. -/
theorem Tokens.text_one_line_each {input : Input} {paths : List String}
    (readable : ∀ path ∈ paths, ∃ source, input.read path = .ok source)
    (named : ∀ path ∈ paths, Unbroken path.toList) (includeComments : Bool) :
    ∃ sources out summary, input.Reads paths sources ∧
      ((Tokens.mk paths .text includeComments).perform input).Gives out summary ∧
      OneLineEach sources includeComments out := by
  obtain ⟨sources, reads⟩ := Input.exists_reads_of_readable readable
  have written := Single.gives_text includeComments reads
  rw [Entry.text_ofSources] at written
  refine ⟨sources, _, _, reads, written, ?_⟩
  have inline := reads.unbroken named
  have unbroken := @Entry.unbroken_ofSources (Listing.keeps includeComments) _ inline
  constructor
  case cut => exact Entry.splitOn_text unbroken
  case unreturned => exact Entry.unreturned_text unbroken
  case shown => exact fun token _ => Listing.shows_tokenLine token

theorem Tokens.text_one_line_each_breaks :
    let files : FileSystem := fun path =>
      if path = "a.ts" then .ok "'a\r\nb' /* \\n\n */ x".toUTF8 else .ok "1__0 //".toUTF8
    let input : Input := ⟨files, .empty⟩
    (∀ path ∈ ["a.ts", "b.ts"], ∃ source, input.read path = .ok source) ∧
      (∀ path ∈ ["a.ts", "b.ts"], Unbroken path.toList) ∧
      ∃ sources out summary, input.Reads ["a.ts", "b.ts"] sources ∧
        ((Tokens.mk ["a.ts", "b.ts"] .text true).perform input).Gives out summary ∧
        OneLineEach sources true out := by
  intro files input
  have given : Input.stdinPath ∉ ["a.ts", "b.ts"] := by decide
  have texts : ∀ path ∈ ["a.ts", "b.ts"], ∃ text, files.readText path = .ok text := by
    rw [List.forall_mem_cons, List.forall_mem_singleton]
    exact ⟨⟨_, decodeText_toUTF8 "'a\r\nb' /* \\n\n */ x"⟩, ⟨_, decodeText_toUTF8 "1__0 //"⟩⟩
  have readable := @Input.readable_of_texts input _ given texts
  have named : ∀ path ∈ ["a.ts", "b.ts"], Unbroken path.toList := by decide
  exact ⟨readable, named, text_one_line_each readable named true⟩

end Command
end ScriptLexer
