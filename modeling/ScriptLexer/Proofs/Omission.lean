import ScriptLexer.Proofs.Selection
import ScriptLexer.Proofs.TextLines

/-! Listings without comments. The sources are read and drained as if all tokens were kept; of what
is written then, exactly the entries of comments are left out: their lines in text, their elements in
a document. -/

namespace ScriptLexer

def commentKinds : List TokenKind := [.singleLineComment, .multiLineComment]

namespace TokenKind

theorem isComment_eq (kind : TokenKind) : kind.isComment = commentKinds.contains kind := by
  cases kind <;> rfl

theorem contains_name (kind : TokenKind) :
    (commentKinds.map name).contains kind.name = kind.isComment := by
  have table : ∀ kind ∈ all, (commentKinds.map name).contains kind.name = kind.isComment := by
    decide +kernel
  exact table kind (mem_all kind)

end TokenKind

namespace Json

def mapItems (change : Json → Json) : Json → Json
  | list items => list (items.map change)
  | json => json

def filterItems (holds : Json → Bool) : Json → Json
  | list items => list (items.filter holds)
  | json => json

def mapMember (name : String) (change : Json → Json) : Json → Json
  | object members => object (members.map fun (key, value) =>
      (key, if key = name then change value else value))
  | json => json

def isComment (element : Json) : Bool :=
  ((element.member? "kind").bind text?).any (commentKinds.map TokenKind.name).contains

def withoutComments : Json → Json :=
  mapItems (mapMember "tokens" (filterItems fun element => !element.isComment))

end Json

namespace Listing

theorem isComment_tokenJson (token : Token) :
    (tokenJson token).isComment = token.kind.isComment := by
  rw [← TokenKind.contains_name]
  rfl

theorem ofSource_without (lexed : LexedSource) :
    (ofSource false lexed).tokens =
      (ofSource true lexed).tokens.filter fun token => !token.kind.isComment := by
  have all : (ofSource true lexed).tokens = lexed.tokens := List.filter_true _
  rw [all]
  rfl

theorem toJson_without (lexed : LexedSource) :
    (ofSource false lexed).toJson = (ofSource true lexed).toJson.mapMember "tokens"
      (Json.filterItems fun element => !element.isComment) := by
  have elements : ((ofSource true lexed).tokens.map tokenJson).filter
      (fun element => !element.isComment) = (ofSource false lexed).tokens.map tokenJson := by
    rw [List.filter_map, ofSource_without]
    simp only [Function.comp_def, isComment_tokenJson]
  simp only [toJson, Json.mapMember, Json.filterItems, List.map_cons, List.map_nil, elements]
  rfl

end Listing

namespace Entry

def isComment : Entry → Bool
  | header _ => false
  | token shown => commentKinds.contains shown.kind

def withoutComments (entries : List Entry) : List Entry :=
  entries.filter fun entry => !entry.isComment

theorem ofSources_without (sources : List Source) :
    ofSources (Listing.keeps false) sources =
      withoutComments (ofSources (Listing.keeps true) sources) := by
  rw [withoutComments, ofSources, ofSources, List.filter_flatMap]
  congr 1
  funext source
  have headed : (if 2 ≤ sources.length then [header source.name] else []).filter
      (fun entry => !entry.isComment) =
        if 2 ≤ sources.length then [header source.name] else [] := by
    split <;> rfl
  have shown : ((source.lexer.tokens.filter (Listing.keeps true)).map token).filter
      (fun entry => !entry.isComment) =
        (source.lexer.tokens.filter (Listing.keeps false)).map token := by
    have all : source.lexer.tokens.filter (Listing.keeps true) = source.lexer.tokens :=
      List.filter_true _
    rw [all, List.filter_map]
    simp only [Function.comp_def, isComment, ← TokenKind.isComment_eq]
    rfl
  rw [List.filter_append, headed, shown]

def isCommentLine (line : List Char) : Bool :=
  (commentKinds.map fun kind => kind.name.toList).contains (line.takeWhile (· != ' '))

def withoutCommentLines (out : String) : String :=
  String.ofList (['\n'].intercalate
    ((out.toList.splitOn '\n').filter fun line => !isCommentLine line))

theorem isCommentLine_line (entry : Entry) :
    isCommentLine entry.line.toList = entry.isComment := by
  cases entry with
  | header source =>
      have start : (Listing.header source).toList.takeWhile (· != ' ') = ['=', '=', '>'] := by
        simp [Listing.header]
      rw [isCommentLine, line, start]
      rfl
  | token shown =>
      have table : ∀ kind ∈ TokenKind.all,
          (commentKinds.map fun kind => kind.name.toList).contains kind.name.toList =
            commentKinds.contains kind := by
        decide +kernel
      rw [isCommentLine, line, (Listing.shows_tokenLine shown).kind]
      exact table shown.kind shown.kind.mem_all

theorem withoutCommentLines_text {entries : List Entry}
    (inline : ∀ entry ∈ entries, Unbroken entry.line.toList) :
    withoutCommentLines (text entries) = text (withoutComments entries) := by
  have kept : ∀ entry ∈ withoutComments entries, Unbroken entry.line.toList :=
    fun entry member => inline entry (List.mem_of_mem_filter member)
  have left : (lines entries ++ [[]]).filter (fun line => !isCommentLine line) =
      lines (withoutComments entries) ++ [[]] := by
    rw [List.filter_append, lines, List.filter_map]
    simp only [Function.comp_def, isCommentLine_line]
    rfl
  rw [withoutCommentLines, splitOn_text inline, left, ← splitOn_text kept,
    List.intercalate_splitOn, String.ofList_toList]

end Entry

namespace Command

/-- How listing `sources` with and without comments go together. -/
structure CommentsLeftOut (input : Input) (paths : List String) (sources : List Source)
    (summary : Summary) : Prop where
  gathered : ∀ source ∈ sources, ∀ includeComments,
    let gathered := source.lexer.gather (Listing.keeps includeComments)
    LexedSource.ofSource source = ⟨source, gathered.pulls, gathered.lexer⟩ ∧
      Listing.ofSource includeComments (.ofSource source) =
        ⟨source.name, gathered.tokens, gathered.lexer.errors⟩
  told : ∀ format, ((Tokens.mk paths format false).perform input).events =
    ((Tokens.mk paths format true).perform input).events
  text : ((Tokens.mk paths .text true).perform input).Gives
      (Entry.text (Entry.ofSources (Listing.keeps true) sources)) summary ∧
    ((Tokens.mk paths .text false).perform input).Gives
      (Entry.text (Entry.withoutComments (Entry.ofSources (Listing.keeps true) sources))) summary
  lines : (∀ path ∈ paths, Unbroken path.toList) → ∃ out,
    ((Tokens.mk paths .text true).perform input).Gives out summary ∧
      ((Tokens.mk paths .text false).perform input).Gives (Entry.withoutCommentLines out) summary
  document : ∃ out value, ((Tokens.mk paths .json true).perform input).Gives out summary ∧
    Json.parse? out = some value ∧
      ((Tokens.mk paths .json false).perform input).Gives (value.withoutComments.print ++ "\n")
        summary

theorem Single.withoutComments_elements (sources : List Source) :
    (Json.list ((sources.map (ofSource true)).map element)).withoutComments =
      .list ((sources.map (ofSource false)).map element) := by
  have each (source : Source) : (ofSource false source).element =
      (ofSource true source).element.mapMember "tokens"
        (Json.filterItems fun element => !element.isComment) :=
    Listing.toJson_without (.ofSource source)
  rw [Json.withoutComments, Json.mapItems, List.map_map, List.map_map, List.map_map]
  simp only [Function.comp_def, each]

theorem gathered_eq (source : Source) (includeComments : Bool) :
    source.lexer.gather (Listing.keeps includeComments) =
      ⟨(Listing.ofSource includeComments (.ofSource source)).tokens,
        (LexedSource.ofSource source).pulls, (LexedSource.ofSource source).lexer⟩ :=
  Lexer.gather_eq _ _

theorem Tokens.comments_left_out {input : Input} {paths : List String}
    (readable : ∀ path ∈ paths, ∃ source, input.read path = .ok source) :
    ∃ sources summary, input.Reads paths sources ∧
      CommentsLeftOut input paths sources summary := by
  obtain ⟨sources, reads⟩ := Input.exists_reads_of_readable readable
  have shown := fun includeComments => Single.gives_text includeComments reads
  simp only [Entry.text_ofSources] at shown
  refine ⟨sources, .counting sources, reads, ?_⟩
  constructor
  case gathered =>
    intro source _ includeComments
    rw [gathered_eq]
    exact ⟨rfl, rfl⟩
  case told => exact fun format => rfl
  case text => exact ⟨shown true, Entry.ofSources_without sources ▸ shown false⟩
  case lines =>
    intro named
    have inline := @Entry.unbroken_ofSources (Listing.keeps true) _ (reads.unbroken named)
    refine ⟨_, shown true, ?_⟩
    rw [Entry.withoutCommentLines_text inline, ← Entry.ofSources_without]
    exact shown false
  case document =>
    have written := fun includeComments => Single.gives_document includeComments reads
    refine ⟨_, _, written true, Json.parse?_print _ (List.forall_mem_singleton.mpr rfl), ?_⟩
    rw [Single.withoutComments_elements]
    exact written false

theorem Tokens.comments_left_out_places :
    let files : FileSystem := fun path =>
      if path = "a.ts" then .ok "/* a */// b\nx // c".toUTF8
      else if path = "b.ts" then .ok "// d".toUTF8 else .ok "1__0 /* e".toUTF8
    let input : Input := ⟨files, .empty⟩
    (∀ path ∈ ["a.ts", "b.ts", "c.ts"], ∃ source, input.read path = .ok source) ∧
      ∃ sources summary, input.Reads ["a.ts", "b.ts", "c.ts"] sources ∧
        CommentsLeftOut input ["a.ts", "b.ts", "c.ts"] sources summary := by
  intro files input
  have given : Input.stdinPath ∉ ["a.ts", "b.ts", "c.ts"] := by decide
  have texts : ∀ path ∈ ["a.ts", "b.ts", "c.ts"], ∃ text, files.readText path = .ok text := by
    rw [List.forall_mem_cons, List.forall_mem_cons, List.forall_mem_singleton]
    exact ⟨⟨_, decodeText_toUTF8 "/* a */// b\nx // c"⟩, ⟨_, decodeText_toUTF8 "// d"⟩,
      ⟨_, decodeText_toUTF8 "1__0 /* e"⟩⟩
  have readable := @Input.readable_of_texts input _ given texts
  exact ⟨readable, comments_left_out readable⟩

end Command
end ScriptLexer
