import ScriptLexer.Command.Check
import ScriptLexer.Command.Codes
import ScriptLexer.Command.Tokens

/-! The command line. Flags stand in front of the command and behind its name; those of the program
are known in both places, and the later place decides. Arguments are read from the left, and the
first that is wrong, or asks for the version or for help, ends the reading. A value that is an
argument of its own stays unchecked until its place goes on behind it, or ends; the place in front
of the command's name ends only after the one behind it. -/

namespace ScriptLexer.CommandLine

inductive Flag
  | verbose
  | config
  | noColor
  | version
  | help
  | format
  | noComments
  | quiet
  deriving DecidableEq, Repr

inductive UsageError
  | unknownFlag (text : String)
  | unknownCommand (text : String)
  | unexpectedArgument (text : String)
  | missingValue (flag : Flag)
  | unneededValue (flag : Flag)
  | invalidValue (flag : Flag) (value : String)
  | repeated (flag : Flag)
  | emptyPath
  | missingFile
  | missingCommand
  | invalidVariable (name value : String)
  deriving DecidableEq, Repr

/-- Where flags are read: in front of the command's name, or behind it. -/
inductive Scope
  | program
  | command (name : CommandName)
  deriving DecidableEq, Repr

inductive Stop
  | usage (error : UsageError)
  | version (scope : Scope)
  | help (scope : Scope)
  deriving DecidableEq, Repr

namespace Flag

def longName : Flag → String
  | verbose => "verbose"
  | config => "config"
  | noColor => "no-color"
  | version => "version"
  | help => "help"
  | format => "format"
  | noComments => "no-comments"
  | quiet => "quiet"

def shortName? : Flag → Option Char
  | verbose => some 'v'
  | config => some 'c'
  | version => some 'V'
  | help => some 'h'
  | format => some 'F'
  | quiet => some 'q'
  | noColor | noComments => none

def takesValue : Flag → Bool
  | config | format => true
  | _ => false

end Flag

namespace UsageError

def message : UsageError → String
  | unknownFlag text => "unexpected argument '" ++ text ++ "' found"
  | unknownCommand text => "unrecognized subcommand '" ++ text ++ "'"
  | unexpectedArgument text => "unexpected argument '" ++ text ++ "' found"
  | missingValue flag => "a value is required for '--" ++ flag.longName ++ "' but none was supplied"
  | unneededValue flag => "unexpected value for '--" ++ flag.longName ++ "'"
  | invalidValue flag value =>
      "invalid value '" ++ value ++ "' for '--" ++ flag.longName ++ "'"
  | repeated flag =>
      "the argument '--" ++ flag.longName ++ "' cannot be used multiple times"
  | emptyPath => "a value is required for '<FILES>...' but none was supplied"
  | missingFile => "the following required arguments were not provided: <FILES>..."
  | missingCommand => "a subcommand is required but none was provided"
  | invalidVariable name value => "invalid value '" ++ value ++ "' for '" ++ name ++ "'"

end UsageError

namespace Scope

def flags : Scope → List Flag
  | program => [.verbose, .config, .noColor, .version, .help]
  | command .tokens =>
      [.verbose, .config, .noColor, .version, .help, .format, .noComments, .quiet]
  | command .check => [.verbose, .config, .noColor, .version, .help, .quiet]
  | command .codes => [.verbose, .config, .noColor, .version, .help]

def long? (scope : Scope) (name : String) : Option Flag :=
  scope.flags.find? fun flag => flag.longName == name

def short? (scope : Scope) (name : Char) : Option Flag :=
  scope.flags.find? fun flag => flag.shortName? == some name

end Scope

structure Draft where
  given : List Flag
  config : Option String
  format : Option OutputFormat
  operands : List String
  deriving DecidableEq, Repr

namespace Draft

def empty : Draft := ⟨[], none, none, []⟩

def has (draft : Draft) (flag : Flag) : Bool := draft.given.contains flag

def mark (draft : Draft) (flag : Flag) : Except Stop Draft :=
  if draft.has flag then .error (.usage (.repeated flag))
  else .ok { draft with given := draft.given ++ [flag] }

def addFlag (scope : Scope) (flag : Flag) (draft : Draft) : Except Stop Draft :=
  match flag with
  | .version => .error (.version scope)
  | .help => .error (.help scope)
  | flag => draft.mark flag

def addValue (flag : Flag) (value : String) (draft : Draft) : Except Stop Draft :=
  match flag with
  | .config =>
      if value.isEmpty then .error (.usage (.missingValue flag))
      else (draft.mark flag).map fun draft => { draft with config := some value }
  | .format =>
      match OutputFormat.ofName? value with
      | some format => (draft.mark flag).map fun draft => { draft with format := some format }
      | none => .error (.usage (.invalidValue flag value))
  | flag => .error (.usage (.unneededValue flag))

def addOperand (scope : Scope) (text : String) (draft : Draft) : Except Stop Draft :=
  match scope with
  | .program => .error (.usage (.unknownCommand text))
  | .command .codes =>
      if draft.operands.isEmpty then .ok { draft with operands := [text] }
      else .error (.usage (.unexpectedArgument text))
  | .command _ =>
      if text.isEmpty then .error (.usage .emptyPath)
      else .ok { draft with operands := draft.operands ++ [text] }

end Draft

/-- What the arguments read so far leave open: a flag whose value is to come, or a value that is yet
to be checked. -/
inductive Pending
  | nothing
  | awaiting (flag : Flag)
  | value (flag : Flag) (text : String)
  deriving DecidableEq, Repr

def Pending.settle (draft : Draft) : Pending → Except Stop Draft
  | nothing => .ok draft
  | awaiting flag => .error (.usage (.missingValue flag))
  | value flag text => draft.addValue flag text

def readLong (scope : Scope) (text : List Char) (draft : Draft) :
    Except Stop (Draft × Pending) :=
  let name := text.takeWhile (· != '=')
  match scope.long? (String.ofList name), text.drop name.length with
  | none, _ => .error (.usage (.unknownFlag (String.ofList ('-' :: '-' :: text))))
  | some flag, '=' :: value =>
      (draft.addValue flag (String.ofList value)).map fun draft => (draft, .nothing)
  | some flag, _ =>
      if flag.takesValue then .ok (draft, .awaiting flag)
      else (draft.addFlag scope flag).map fun draft => (draft, .nothing)

/-- The value attached to a short name, in front of which there may be an equals sign. -/
def attached : List Char → String
  | '=' :: value => String.ofList value
  | value => String.ofList value

/-- Flags by their short names. One that takes a value takes what is behind it, or the argument that
follows. -/
def readShort (scope : Scope) : List Char → Draft → Except Stop (Draft × Pending)
  | [], draft => .ok (draft, .nothing)
  | name :: names, draft =>
      match scope.short? name with
      | none => .error (.usage (.unknownFlag (String.ofList ['-', name])))
      | some flag =>
          if flag.takesValue then
            if names.isEmpty then .ok (draft, .awaiting flag)
            else (draft.addValue flag (attached names)).map fun draft => (draft, .nothing)
          else draft.addFlag scope flag >>= readShort scope names

inductive Shape
  | separator
  | long (text : List Char)
  | short (names : List Char)
  | operand
  deriving DecidableEq, Repr

def shape : List Char → Shape
  | ['-', '-'] => .separator
  | '-' :: '-' :: text => .long text
  | ['-'] => .operand
  | '-' :: names => .short names
  | _ => .operand

def readCommand (scope : Scope) (pending : Pending) (draft : Draft) :
    List String → Except Stop Draft
  | [] => pending.settle draft
  | argument :: arguments =>
      match shape argument.toList, pending with
      | .operand, .awaiting flag => readCommand scope (.value flag argument) draft arguments
      | .operand, pending => do
          let draft ← (← pending.settle draft).addOperand scope argument
          readCommand scope .nothing draft arguments
      | .separator, pending => do
          arguments.foldlM (fun draft text => draft.addOperand scope text) (← pending.settle draft)
      | .long text, pending => do
          let (draft, pending) ← readLong scope text (← pending.settle draft)
          readCommand scope pending draft arguments
      | .short names, pending => do
          let (draft, pending) ← readShort scope names (← pending.settle draft)
          readCommand scope pending draft arguments

def helpCommand : String := "help"

def readHelp : List String → Stop
  | [] => .help .program
  | name :: others =>
      match CommandName.ofText? name, others with
      | some name, [] => .help (.command name)
      | some _, other :: _ => .usage (.unknownCommand other)
      | none, [] => if name == helpCommand then .help .program else .usage (.unknownCommand name)
      | none, _ => .usage (.unknownCommand name)

structure Reading where
  program : Draft
  name : CommandName
  command : Draft
  deriving DecidableEq, Repr

def read (pending : Pending) (draft : Draft) : List String → Except Stop Reading
  | [] => do
      let _ ← pending.settle draft
      throw (.usage .missingCommand)
  | argument :: arguments =>
      match shape argument.toList, pending with
      | .operand, .awaiting flag => read (.value flag argument) draft arguments
      | .operand, pending =>
          match CommandName.ofText? argument with
          | some name => do
              let command ← readCommand (.command name) .nothing .empty arguments
              return ⟨← pending.settle draft, name, command⟩
          | none =>
              if argument == helpCommand then .error (readHelp arguments)
              else .error (.usage (.unknownCommand argument))
      | .separator, pending => do
          let _ ← pending.settle draft
          throw (.usage (arguments.head?.elim .missingCommand .unexpectedArgument))
      | .long text, pending => do
          let (draft, pending) ← readLong .program text (← pending.settle draft)
          read pending draft arguments
      | .short names, pending => do
          let (draft, pending) ← readShort .program names (← pending.settle draft)
          read pending draft arguments

end ScriptLexer.CommandLine
