import ScriptLexer.Json
import ScriptLexer.Source

/-! The listing of a source: its tokens and the errors of its lines, as lines of text and as JSON.
-/

namespace ScriptLexer

structure Listing where
  source : String
  tokens : List Token
  errors : LineErrors
  deriving DecidableEq, Repr

namespace Listing

def keeps (includeComments : Bool) (token : Token) : Bool :=
  includeComments || !token.kind.isComment

def ofSource (includeComments : Bool) (lexed : LexedSource) : Listing :=
  ⟨lexed.source.name, lexed.tokens.filter (keeps includeComments), lexed.lexer.errors⟩

/-- Line breaks are spelled out, so that a lexeme stays on one line. -/
def onOneLine (c : Char) : List Char :=
  if c = '\r' then ['\\', 'r'] else if c = '\n' then ['\\', 'n'] else [c]

def oneLine (text : String) : String := String.ofList (text.toList.flatMap onOneLine)

def tokenLine (token : Token) : String :=
  match token.lexeme with
  | some lexeme => token.kind.name ++ " " ++ oneLine lexeme
  | none => token.kind.name

def header (source : String) : String := "==> " ++ source ++ " <=="

def tokenLines (listing : Listing) : List String := listing.tokens.map tokenLine

def lines (listings : List Listing) : List String :=
  listings.flatMap fun listing =>
    if 1 < listings.length then header listing.source :: listing.tokenLines
    else listing.tokenLines

def endLine (line : String) : String := line ++ "\n"

def text (listings : List Listing) : String := String.join ((lines listings).map endLine)

def tokenJson (token : Token) : Json :=
  .object [("kind", .text token.kind.name), ("lexeme", token.lexeme.elim .null .text)]

def diagnosticJson (diagnostic : Diagnostic) : Json :=
  .object [("source_name", .text diagnostic.source), ("code", .text diagnostic.code.name),
    ("line", .number diagnostic.line)]

def toJson (listing : Listing) : Json :=
  .object [("source", .text listing.source), ("tokens", .list (listing.tokens.map tokenJson)),
    ("errors", .list ((listing.errors.toDiagnostics listing.source).map diagnosticJson))]

def document (listings : List Listing) : String := (Json.list (listings.map toJson)).print

end Listing
end ScriptLexer
