import DocumentDb.Error
import DocumentDb.Text.Segment

/-!
# Directories

A directory holds files and folders under paths relative to it. What lies below a file cannot be
reached, and a folder is made with all folders around it.
-/

namespace DocumentDb

/-- The names on the way from a directory to something in it. -/
abbrev Path := List String

/-- The content of a directory; each file and each folder is listed once. -/
structure Directory where
  files : List (Path × String) := []
  folders : List Path := []
deriving Repr, Inhabited

/-- A change of a directory. -/
abbrev Change (α : Type) := ExceptT Error (StateM Directory) α

namespace Directory

/-- The path of a text with slashes between names; empty names and points lead nowhere. -/
def pathOf (text : String) : Path :=
  (Text.splitAt '/' text).filter fun name => !name.isEmpty && name ≠ "."

/-- The text of a path. -/
def pathText (path : Path) : String := Text.joinWith "/" path

/-- The text of a file, if there is one at a path. -/
def file? (directory : Directory) (path : Path) : Option String := directory.files.lookup path

/-- Whether there is a folder at a path. -/
def isFolder (directory : Directory) (path : Path) : Bool :=
  path.isEmpty || directory.folders.contains path

/-- Whether there is anything at a path. -/
def contains (directory : Directory) (path : Path) : Bool :=
  directory.isFolder path || (directory.file? path).isSome

/-- The text of the file at a path. -/
def readFile (directory : Directory) (path : Path) : Except Error String :=
  match directory.file? path with
  | some text => .ok text
  | none => .error .file

/-- The last name of a path if the rest of it is a given folder. -/
def childName? (folder path : Path) : Option String :=
  if path.dropLast = folder then path.getLast? else none

/-- The names of what is directly in a folder. -/
def children (directory : Directory) (folder : Path) : List String :=
  (directory.folders ++ directory.files.map (·.1)).filterMap (childName? folder)

/-- Put a file in the place of the one at its path, or at the end. -/
def putFile (path : Path) (text : String) : List (Path × String) → List (Path × String)
  | [] => [(path, text)]
  | file :: rest => if file.1 = path then (path, text) :: rest else file :: putFile path text rest

/-- The paths of the files with their texts, in alphabetical order. -/
def listing (directory : Directory) : List (String × String) :=
  (directory.files.map fun file => (pathText file.1, file.2)).mergeSort fun a b => a.1 ≤ b.1

/-- Make the folder at a path below `above` and all folders around it. -/
def makeFoldersFrom (above : Path) : Path → Change Unit
  | [] => pure ()
  | name :: rest => do
    let path := above ++ [name]
    let directory ← get
    if (directory.file? path).isSome then throw .file
    if !directory.isFolder path then
      set { directory with folders := directory.folders ++ [path] }
    makeFoldersFrom path rest

/-- Make the folder at a path and all folders around it. -/
def makeFolders (path : Path) : Change Unit := makeFoldersFrom [] path

/-- Write a file into a folder that exists, in the place of an earlier one. -/
def writeFile (folder : Path) (name text : String) : Change Unit := do
  let directory ← get
  let path := folder ++ [name]
  if directory.isFolder folder && !directory.isFolder path then
    set { directory with files := putFile path text directory.files }
  else throw .file

/-- Remove a file. -/
def removeFile (path : Path) : Change Unit := do
  let directory ← get
  if (directory.file? path).isSome then
    set { directory with files := directory.files.filter (·.1 ≠ path) }
  else throw .file

/-- The directory with a file and the folders around it. -/
def withFile (directory : Directory) (path text : String) : Directory :=
  let segments := pathOf path
  let change : Change Unit := do
    makeFolders segments.dropLast
    writeFile segments.dropLast (segments.getLast?.getD "") text
  (change.run directory).2

end Directory

end DocumentDb
