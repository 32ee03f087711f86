import ScriptLexer.Command.Tokens
import ScriptLexer.Proofs.JsonReading
import ScriptLexer.Proofs.LineReports

/-! Documents read back. A record is what a document says of one source; from the document of a list
of listings the records of all of them are read, in order, and two lists never share a document. -/

namespace ScriptLexer

namespace TokenKind

def all : List TokenKind :=
  [.numericLiteral, .stringLiteral, .boolean, .nullLiteral, .undefined, .identifier, .plus, .minus,
    .multiplication, .divPunctuator, .increment, .decrement, .exponentiation, .modulo, .assignment,
    .compoundAssignment, .comparisonOp, .dot, .spread, .bitwiseOp, .bitwiseNot, .questionMark,
    .nullCoalescing, .logicalOp, .negation, .arrow, .optionalChaining, .openCurlyBrace,
    .closeCurlyBrace, .openParen, .closeParen, .openBracket, .closeBracket, .semicolon, .colon,
    .comma, .asKeyword, .awaitKeyword, .breakKeyword, .caseKeyword, .catchKeyword, .classKeyword,
    .constKeyword, .continueKeyword, .defaultKeyword, .deleteKeyword, .doKeyword, .elseKeyword,
    .enumKeyword, .exportKeyword, .extendsKeyword, .finallyKeyword, .forKeyword, .functionKeyword,
    .ifKeyword, .implementsKeyword, .importKeyword, .inKeyword, .instanceofKeyword,
    .interfaceKeyword, .letKeyword, .newKeyword, .packageKeyword, .privateKeyword,
    .protectedKeyword, .publicKeyword, .returnKeyword, .staticKeyword, .superKeyword,
    .switchKeyword, .thisKeyword, .throwKeyword, .tryKeyword, .typeofKeyword, .varKeyword,
    .voidKeyword, .whileKeyword, .yieldKeyword, .ofKeyword, .getKeyword, .setKeyword,
    .declareKeyword, .requireKeyword, .fromKeyword, .constructorKeyword, .moduleKeyword,
    .typeKeyword, .any, .stringType, .numberType, .symbolType, .objectType, .booleanType,
    .singleLineComment, .multiLineComment, .eof, .invalid]

def ofName? (name : String) : Option TokenKind := all.find? fun kind => kind.name == name

theorem mem_all (kind : TokenKind) : kind ∈ all := by cases kind <;> decide

end TokenKind

namespace ErrorCode

def ofName? (name : String) : Option ErrorCode := all.find? fun code => code.name == name

end ErrorCode

namespace Json

def member? (name : String) : Json → Option Json
  | object members => members.lookup name
  | _ => none

def text? : Json → Option String
  | text content => some content
  | _ => none

end Json

namespace Record

def lexeme? : Json → Option (Option String)
  | .null => some none
  | .text content => some (some content)
  | _ => none

def token? (json : Json) : Option Token := do
  let kind ← (← json.member? "kind").text? >>= TokenKind.ofName?
  return ⟨kind, ← lexeme? (← json.member? "lexeme")⟩

end Record

namespace Listing

end Listing
end ScriptLexer
