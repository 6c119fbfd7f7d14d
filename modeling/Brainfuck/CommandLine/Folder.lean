import Brainfuck.Text.Quoted

/-!
# Files by path

A folder of files held in memory, and what it means to open a path in it.  A
path is followed name by name: an empty name or a dot stays where it is, and
two dots lead back.  Nothing is known of what lies outside the folder except
that it is a folder too.  Names and paths have a greatest length, in UTF-8.
-/

namespace Brainfuck.CommandLine

/-- Why a path cannot be opened. -/
inductive OpenError where
  /-- There is nothing at the path. -/
  | missing
  /-- A name that the path leads through is that of a file. -/
  | notFolder
  /-- The path leads to a folder. -/
  | isFolder
  /-- The path, or a name in it, is longer than any file's. -/
  | tooLong
  /-- Any other trouble, with its number and in the words of the system. -/
  | other (number : Nat) (words : String)
deriving DecidableEq, Repr

/-- The report on a path that cannot be opened. -/
def OpenError.message (path : String) : OpenError → String
  | missing => s!"[Errno 2] No such file or directory: {Text.quoted path}"
  | notFolder => s!"[Errno 20] Not a directory: {Text.quoted path}"
  | isFolder => s!"[Errno 21] Is a directory: {Text.quoted path}"
  | tooLong => s!"[Errno 36] File name too long: {Text.quoted path}"
  | other number words => s!"[Errno {number}] {words}: {Text.quoted path}"

/-- The names of a path, which slashes stand between. -/
def namesOf (path : String) : List (List Char) :=
  path.toList.foldr
    (fun c names =>
      if c = '/' then [] :: names
      else match names with
        | [] => [[c]]
        | name :: names => (c :: name) :: names)
    [[]]

/-- A folder of files, each under the names that lead to it. -/
structure Folder where
  /-- The files. -/
  files : List (List (List Char) × List UInt8)

namespace Folder

/-- The folder of the files at these paths. -/
def ofList (files : List (String × List UInt8)) : Folder :=
  ⟨files.map fun (path, bytes) => (namesOf path, bytes)⟩

/-- The file under these names. -/
def file? (f : Folder) (names : List (List Char)) : Option (List UInt8) :=
  (f.files.find? fun (n, _) => n == names).map (·.2)

/-- Whether files lie below these names. -/
def hasFolder (f : Folder) (names : List (List Char)) : Bool :=
  f.files.any fun (n, _) => names.isPrefixOf n && n != names

/-- The largest number of bytes in a name. -/
def maxName : Nat := 255

/-- The largest number of bytes in a path. -/
def maxPath : Nat := 4095

/-- Follows names from a folder inside, which is given by the names that lead
to it, latest first. -/
def follow (f : Folder) : (inside : Option (List (List Char))) → List (List Char) →
    Except OpenError (List UInt8)
  | _, [] => .error .isFolder
  | inside, name :: rest =>
    if name = [] || name = ['.'] then f.follow inside rest
    else if name = ['.', '.'] then f.follow (inside.bind List.tail?) rest
    else if maxName < (String.ofList name).utf8ByteSize then .error .tooLong
    else match inside with
      | none => .error .missing
      | some inside =>
        let names := (name :: inside).reverse
        match f.file? names with
        | some bytes => if rest.isEmpty then .ok bytes else .error .notFolder
        | none =>
          if f.hasFolder names then f.follow (some (name :: inside)) rest else .error .missing

/-- The bytes of the file at a path. -/
def read (f : Folder) (path : String) : Except OpenError (List UInt8) :=
  if path.isEmpty then .error .missing
  else if maxPath < path.utf8ByteSize then .error .tooLong
  else f.follow (if path.toList.head? = some '/' then none else some []) (namesOf path)

end Folder

end Brainfuck.CommandLine
