/-! Files as values: what reading a path gives, and an in-memory tree of files to read from. -/

namespace ScriptLexer

inductive ReadFault
  | notFound
  | notDirectory
  | isDirectory
  | nameTooLong
  | nulInPath
  | notText
  | unreachable (detail : String)
  | unreadable (detail : String)
  deriving DecidableEq, Repr

namespace ReadFault

def message : ReadFault → String
  | notFound => "No such file or directory (os error 2)"
  | notDirectory => "Not a directory (os error 20)"
  | isDirectory => "Is a directory (os error 21)"
  | nameTooLong => "File name too long (os error 36)"
  | nulInPath => "file name contained an unexpected NUL byte"
  | notText => "stream did not contain valid UTF-8"
  | unreachable detail | unreadable detail => detail

/-- Whether the path leads nowhere. A path that cannot be followed to its end, for want of
permission on a directory or in a loop of links, is as absent as one that ends in nothing; a file
that only cannot be read is there. -/
def isAbsent : ReadFault → Bool
  | notFound | notDirectory | nameTooLong | nulInPath | unreachable _ => true
  | isDirectory | notText | unreadable _ => false

end ReadFault

abbrev FileSystem := String → Except ReadFault ByteArray

def decodeText (bytes : ByteArray) : Except ReadFault String :=
  match String.fromUTF8? bytes with
  | some text => .ok text
  | none => .error .notText

namespace FileSystem

def readText (files : FileSystem) (path : String) : Except ReadFault String :=
  files path >>= decodeText

def contains (files : FileSystem) (path : String) : Bool :=
  match files path with
  | .ok _ => true
  | .error fault => !fault.isAbsent

end FileSystem

/-- Files and empty directories below `directory`, which is where relative paths start. The
directories above it hold nothing else. -/
structure FileTree where
  directory : List String
  entries : List (List String × Option ByteArray)

namespace FileTree

def longestName : Nat := 255

def longestPath : Nat := 4095

def components (path : String) : List String := (path.splitOn "/").filter fun name => name != ""

def ofFiles (directory : List String) (files : List (String × Option ByteArray)) : FileTree :=
  ⟨directory, files.map fun file => (directory ++ components file.1, file.2)⟩

def entry? (tree : FileTree) (place : List String) : Option (Option ByteArray) :=
  match tree.entries.lookup place with
  | some entry => some entry
  | none =>
      if place.isPrefixOf tree.directory || tree.entries.any (fun entry => place.isPrefixOf entry.1)
      then some none else none

def step (tree : FileTree) (place : List String) (name : String) :
    Except ReadFault (List String) :=
  match tree.entry? place with
  | none => .error .notFound
  | some (some _) => .error .notDirectory
  | some none =>
      if name == "" || name == "." then .ok place
      else if name == ".." then .ok place.dropLast
      else if longestName < name.utf8ByteSize then .error .nameTooLong
      else if (tree.entry? (place ++ [name])).isSome then .ok (place ++ [name])
      else .error .notFound

def read (tree : FileTree) : FileSystem := fun path => do
  if path.toList.contains '\x00' then throw .nulInPath
  if path == "" then throw .notFound
  if longestPath < path.utf8ByteSize then throw .nameTooLong
  let start := if path.startsWith "/" then [] else tree.directory
  let place ← (path.splitOn "/").foldlM tree.step start
  match tree.entry? place with
  | some (some bytes) => .ok bytes
  | _ => .error .isDirectory

end FileTree
end ScriptLexer
