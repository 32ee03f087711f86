import ScriptLexer.Token.Kind

/-! The vocabulary of the language: its words, its punctuators and its structural characters, each
table with the kind of every entry. A contextual word is looked up only after the reserved ones. -/

namespace ScriptLexer.Vocabulary

def reservedWords : List (String × TokenKind) :=
  [("await", .awaitKeyword), ("break", .breakKeyword), ("case", .caseKeyword),
    ("catch", .catchKeyword), ("class", .classKeyword), ("const", .constKeyword),
    ("continue", .continueKeyword), ("default", .defaultKeyword), ("delete", .deleteKeyword),
    ("do", .doKeyword), ("else", .elseKeyword), ("enum", .enumKeyword),
    ("export", .exportKeyword), ("extends", .extendsKeyword), ("false", .boolean),
    ("finally", .finallyKeyword), ("for", .forKeyword), ("function", .functionKeyword),
    ("if", .ifKeyword), ("implements", .implementsKeyword), ("import", .importKeyword),
    ("in", .inKeyword), ("instanceof", .instanceofKeyword), ("interface", .interfaceKeyword),
    ("let", .letKeyword), ("new", .newKeyword), ("null", .nullLiteral),
    ("package", .packageKeyword), ("private", .privateKeyword), ("protected", .protectedKeyword),
    ("public", .publicKeyword), ("return", .returnKeyword), ("static", .staticKeyword),
    ("super", .superKeyword), ("switch", .switchKeyword), ("this", .thisKeyword),
    ("throw", .throwKeyword), ("true", .boolean), ("try", .tryKeyword),
    ("typeof", .typeofKeyword), ("undefined", .undefined), ("var", .varKeyword),
    ("void", .voidKeyword), ("while", .whileKeyword), ("yield", .yieldKeyword),
    ("as", .asKeyword)]

def contextualWords : List (String × TokenKind) :=
  [("of", .ofKeyword), ("get", .getKeyword), ("set", .setKeyword), ("any", .any),
    ("declare", .declareKeyword), ("require", .requireKeyword), ("string", .stringType),
    ("number", .numberType), ("symbol", .symbolType), ("object", .objectType),
    ("boolean", .booleanType), ("from", .fromKeyword), ("constructor", .constructorKeyword),
    ("module", .moduleKeyword), ("type", .typeKeyword)]

def words : List (String × TokenKind) := reservedWords ++ contextualWords

def wordKind? (word : String) : Option TokenKind := words.lookup word

def bareWord? (kind : TokenKind) : Option String :=
  if kind.carriesLexeme then none
  else (words.find? fun entry => entry.2 == kind).map Prod.fst

def punctuators : List (String × TokenKind) :=
  [("+", .plus), ("-", .minus), ("*", .multiplication), ("/", .divPunctuator),
    ("++", .increment), ("--", .decrement), ("**", .exponentiation), ("%", .modulo),
    ("=", .assignment), ("+=", .compoundAssignment), ("-=", .compoundAssignment),
    ("*=", .compoundAssignment), ("/=", .compoundAssignment), ("%=", .compoundAssignment),
    ("<<=", .compoundAssignment), (">>=", .compoundAssignment), (">>>=", .compoundAssignment),
    ("**=", .compoundAssignment), ("&=", .compoundAssignment), ("|=", .compoundAssignment),
    ("^=", .compoundAssignment), ("&&=", .compoundAssignment), ("||=", .compoundAssignment),
    ("??=", .compoundAssignment), ("<", .comparisonOp), (">", .comparisonOp),
    ("<=", .comparisonOp), (">=", .comparisonOp), ("==", .comparisonOp), ("===", .comparisonOp),
    ("!=", .comparisonOp), ("!==", .comparisonOp), (".", .dot), ("...", .spread),
    (">>", .bitwiseOp), (">>>", .bitwiseOp), ("<<", .bitwiseOp), ("&", .bitwiseOp),
    ("|", .bitwiseOp), ("^", .bitwiseOp), ("~", .bitwiseNot), ("?", .questionMark),
    ("??", .nullCoalescing), ("&&", .logicalOp), ("||", .logicalOp), ("!", .negation),
    ("=>", .arrow), ("?.", .optionalChaining)]

def longestPunctuatorLength : Nat := 4

def punctuatorKind? (text : String) : Option TokenKind := punctuators.lookup text

def structuralCharacters : List (Char × TokenKind) :=
  [('\x7b', .openCurlyBrace), ('\x7d', .closeCurlyBrace), ('(', .openParen), (')', .closeParen),
    ('[', .openBracket), (']', .closeBracket), (';', .semicolon), (':', .colon), (',', .comma)]

def structuralKind? (c : Char) : Option TokenKind := structuralCharacters.lookup c

theorem length_le_of_mem_punctuators (entry : String × TokenKind) (member : entry ∈ punctuators) :
    entry.1.length ≤ longestPunctuatorLength := by
  revert entry
  decide

theorem bareWord?_of_mem (entry : String × TokenKind) (member : entry ∈ words)
    (bare : entry.2.carriesLexeme = false) : bareWord? entry.2 = some entry.1 := by
  revert entry
  decide

end ScriptLexer.Vocabulary
