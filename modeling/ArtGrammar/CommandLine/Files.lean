/-
  ArtGrammar.CommandLine.Files
  ────────────────────────────────
  **THE FILES THAT A SESSION CAN SEE.**

  Files are found by their paths, which are walked step by step from the working
  directory:

      g.ron   ./g.ron       the file
      .   ..                a directory
      g.ron/                no directory
      a/../g.ron            missing, if there is no directory `a`
-/

namespace ArtGrammar

/-! ## §1. Files by their paths. -/

/-- Why a file cannot be read. -/
inductive FileFault where
  | missing
  /-- The path is that of a directory. -/
  | isDirectory
  /-- The path goes on behind a file. -/
  | notDirectory
  | nameTooLong
  | stated (reason : String)
  deriving DecidableEq, Repr

/-- The wording of a file fault. -/
def FileFault.message : FileFault → String
  | .missing => "No such file or directory (os error 2)"
  | .isDirectory => "Is a directory (os error 21)"
  | .notDirectory => "Not a directory (os error 20)"
  | .nameTooLong => "File name too long (os error 36)"
  | .stated reason => reason

/-- The files that a session can see, by their paths. -/
abbrev Files := String → Except FileFault String

/-! ## §2. The files of one directory. -/

/-- Where a path has led. -/
inductive Place where
  /-- The working directory. -/
  | here
  /-- A directory around it, of which nothing else is known. -/
  | outside
  | file (text : String)
  deriving DecidableEq, Repr

/-- How many bytes a name in a path may have. -/
def nameLimit : Nat := 255

/-- How many bytes a path may have. -/
def pathLimit : Nat := 4095

/-- Goes one step along a path, in a working directory with the given files. -/
def Place.step (entries : List (String × String)) (place : Place) (name : String) :
    Except FileFault Place :=
  match place with
  | .file _ => .error .notDirectory
  | _ =>
    if name = "" ∨ name = "." then .ok place
    else if name = ".." then .ok .outside
    else if nameLimit < name.utf8ByteSize then .error .nameTooLong
    else
      match place, entries.lookup name with
      | .here, some text => .ok (.file text)
      | _, _ => .error .missing

/-- The files of a working directory that has no directories in it. -/
def Files.ofDirectory (entries : List (String × String)) : Files := fun path => do
  if path = "" then throw .missing
  if pathLimit < path.utf8ByteSize then throw .nameTooLong
  let start := if path.startsWith "/" then Place.outside else Place.here
  match ← (path.splitOn "/").foldlM (Place.step entries) start with
  | .file text => return text
  | _ => throw .isDirectory

end ArtGrammar
