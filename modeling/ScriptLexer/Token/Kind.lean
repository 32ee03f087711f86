namespace ScriptLexer

inductive TokenKind
  | numericLiteral | stringLiteral | boolean | nullLiteral | undefined | identifier | plus
  | minus | multiplication | divPunctuator | increment | decrement | exponentiation | modulo
  | assignment | compoundAssignment | comparisonOp | dot | spread | bitwiseOp | bitwiseNot
  | questionMark | nullCoalescing | logicalOp | negation | arrow | optionalChaining
  | openCurlyBrace | closeCurlyBrace | openParen | closeParen | openBracket | closeBracket
  | semicolon | colon | comma | asKeyword | awaitKeyword | breakKeyword | caseKeyword
  | catchKeyword | classKeyword | constKeyword | continueKeyword | defaultKeyword | deleteKeyword
  | doKeyword | elseKeyword | enumKeyword | exportKeyword | extendsKeyword | finallyKeyword
  | forKeyword | functionKeyword | ifKeyword | implementsKeyword | importKeyword | inKeyword
  | instanceofKeyword | interfaceKeyword | letKeyword | newKeyword | packageKeyword
  | privateKeyword | protectedKeyword | publicKeyword | returnKeyword | staticKeyword
  | superKeyword | switchKeyword | thisKeyword | throwKeyword | tryKeyword | typeofKeyword
  | varKeyword | voidKeyword | whileKeyword | yieldKeyword | ofKeyword | getKeyword | setKeyword
  | declareKeyword | requireKeyword | fromKeyword | constructorKeyword | moduleKeyword
  | typeKeyword | any | stringType | numberType | symbolType | objectType | booleanType
  | singleLineComment | multiLineComment | eof | invalid
  deriving DecidableEq, Repr

namespace TokenKind

def name : TokenKind → String
  | numericLiteral => "NumericLiteral"
  | stringLiteral => "StringLiteral"
  | boolean => "Boolean"
  | nullLiteral => "NullLiteral"
  | undefined => "Undefined"
  | identifier => "Identifier"
  | plus => "Plus"
  | minus => "Minus"
  | multiplication => "Multiplication"
  | divPunctuator => "DivPunctuator"
  | increment => "Increment"
  | decrement => "Decrement"
  | exponentiation => "Exponentiation"
  | modulo => "Modulo"
  | assignment => "Assignment"
  | compoundAssignment => "CompoundAssignment"
  | comparisonOp => "ComparisonOp"
  | dot => "Dot"
  | spread => "Spread"
  | bitwiseOp => "BitwiseOp"
  | bitwiseNot => "BitwiseNot"
  | questionMark => "QuestionMark"
  | nullCoalescing => "NullCoalescing"
  | logicalOp => "LogicalOp"
  | negation => "Negation"
  | arrow => "Arrow"
  | optionalChaining => "OptionalChaining"
  | openCurlyBrace => "OpenCurlyBrace"
  | closeCurlyBrace => "CloseCurlyBrace"
  | openParen => "OpenParen"
  | closeParen => "CloseParen"
  | openBracket => "OpenBracket"
  | closeBracket => "CloseBracket"
  | semicolon => "Semicolon"
  | colon => "Colon"
  | comma => "Comma"
  | asKeyword => "As"
  | awaitKeyword => "Await"
  | breakKeyword => "Break"
  | caseKeyword => "Case"
  | catchKeyword => "Catch"
  | classKeyword => "Class"
  | constKeyword => "Const"
  | continueKeyword => "Continue"
  | defaultKeyword => "Default"
  | deleteKeyword => "Delete"
  | doKeyword => "Do"
  | elseKeyword => "Else"
  | enumKeyword => "Enum"
  | exportKeyword => "Export"
  | extendsKeyword => "Extends"
  | finallyKeyword => "Finally"
  | forKeyword => "For"
  | functionKeyword => "Function"
  | ifKeyword => "If"
  | implementsKeyword => "Implements"
  | importKeyword => "Import"
  | inKeyword => "In"
  | instanceofKeyword => "Instanceof"
  | interfaceKeyword => "Interface"
  | letKeyword => "Let"
  | newKeyword => "New"
  | packageKeyword => "Package"
  | privateKeyword => "Private"
  | protectedKeyword => "Protected"
  | publicKeyword => "Public"
  | returnKeyword => "Return"
  | staticKeyword => "Static"
  | superKeyword => "Super"
  | switchKeyword => "Switch"
  | thisKeyword => "This"
  | throwKeyword => "Throw"
  | tryKeyword => "Try"
  | typeofKeyword => "Typeof"
  | varKeyword => "Var"
  | voidKeyword => "Void"
  | whileKeyword => "While"
  | yieldKeyword => "Yield"
  | ofKeyword => "Of"
  | getKeyword => "Get"
  | setKeyword => "Set"
  | declareKeyword => "Declare"
  | requireKeyword => "Require"
  | fromKeyword => "From"
  | constructorKeyword => "Constructor"
  | moduleKeyword => "Module"
  | typeKeyword => "Type"
  | any => "Any"
  | stringType => "StringType"
  | numberType => "NumberType"
  | symbolType => "SymbolType"
  | objectType => "ObjectType"
  | booleanType => "BooleanType"
  | singleLineComment => "SingleLineComment"
  | multiLineComment => "MultiLineComment"
  | eof => "Eof"
  | invalid => "Invalid"

/-- Words of these kinds keep their text; every other word is known from its kind alone. -/
def carriesLexeme : TokenKind → Bool
  | boolean | any | stringType | numberType | symbolType | objectType | booleanType => true
  | _ => false

def isComment : TokenKind → Bool
  | singleLineComment | multiLineComment => true
  | _ => false

end TokenKind
end ScriptLexer
