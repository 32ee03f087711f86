import ScriptLexer.Token.Vocabulary

/-! Tokens. A token keeps the text it was read from, but for a word that its kind already gives. -/

namespace ScriptLexer

structure Token where
  kind : TokenKind
  lexeme : Option String
  deriving DecidableEq, Repr

namespace Token

def bare (kind : TokenKind) : Token := ⟨kind, none⟩

def ofText (kind : TokenKind) (text : List Char) : Token := ⟨kind, some (String.ofList text)⟩

def eof : Token := bare .eof

def invalid : Token := bare .invalid

def isEof (token : Token) : Bool := token.kind == .eof

def isInvalid (token : Token) : Bool := token.kind == .invalid

def ofKeyword? (word : String) : Option Token :=
  (Vocabulary.wordKind? word).map fun kind =>
    if kind.carriesLexeme then ⟨kind, some word⟩ else bare kind

def ofWord (text : List Char) : Token :=
  (ofKeyword? (String.ofList text)).getD (ofText .identifier text)

def spelling? (token : Token) : Option String :=
  token.lexeme <|> Vocabulary.bareWord? token.kind

def display (token : Token) : String :=
  match token.lexeme with
  | some lexeme => token.kind.name ++ " : " ++ lexeme
  | none => token.kind.name

end Token
end ScriptLexer
