/-
  StackLint.Files.Basic
  ─────────────────────
  **FILES.**

  Files and folders as a value: each by the names that lead to it from the root
  directory.  Paths are walked name by name, so a path fails where its first
  name is missing, too long or no folder; two points lead one folder back, and
  from the root directory nowhere else.
-/
import StackLint.Path
import StackLint.Text.Quoted
import StackLint.Text.Utf8

namespace StackLint

/-! ## §1. Errors. -/

/-- Why nothing can be done with what a path leads to. -/
inductive FileError where
  | notFound
  | alreadyThere
  | notFolder
  | isFolder
  | nameTooLong
  deriving DecidableEq, Repr

namespace FileError

/-- The number of the error. -/
def number : FileError → Nat
  | .notFound => 2
  | .alreadyThere => 17
  | .notFolder => 20
  | .isFolder => 21
  | .nameTooLong => 36

/-- The error in words. -/
def message : FileError → Text
  | .notFound => "No such file or directory"
  | .alreadyThere => "File exists"
  | .notFolder => "Not a directory"
  | .isFolder => "Is a directory"
  | .nameTooLong => "File name too long"

/-- The error with its number and the path it is about. -/
def report (e : FileError) (path : Path) : Text :=
  "[Errno " ++ Text.ofNat e.number ++ "] " ++ e.message ++ ": " ++ path.text.quoted

end FileError

/-- An error that the system reports, by its number and in words.  The names
in the store need not give a reason for it: no space may be left, or a
permission may be missing. -/
structure SystemError where
  number : Nat
  words : Text
  deriving DecidableEq, Repr

/-- The error with its number and the paths it is about: none, one, or the two
of a move. -/
def SystemError.report (e : SystemError) (paths : List Path) : Text :=
  "[Errno " ++ Text.ofNat e.number ++ "] " ++ e.words ++
    match paths with
    | [] => []
    | paths => ": " ++ Text.join " -> " (paths.map fun path => path.text.quoted)

/-- The error as the system reports it. -/
def FileError.system (e : FileError) : SystemError where
  number := e.number
  words := e.message

/-! ## §2. The store. -/

/-- Where something lies: the names that lead to it from the root directory. -/
abbrev Location := List Text

/-- What is done with a file. -/
inductive FileAction where
  /-- Its bytes are read. -/
  | read
  /-- It is made. -/
  | create
  /-- It gets bytes. -/
  | fill
  /-- Its permissions are looked up. -/
  | inspect
  /-- It gets permissions. -/
  | permit
  /-- Another file takes its place. -/
  | replace
  /-- It is removed. -/
  | delete
  deriving DecidableEq, Repr

/-- Something that cannot be done with the file at a location. -/
structure FileFault where
  action : FileAction
  place : Location
  error : SystemError
  deriving DecidableEq, Repr

/-- What lies at a location. -/
inductive FileEntry where
  | folder
  | file (bytes : List UInt8)
  deriving DecidableEq, Repr

/-- Files and folders by their locations.  The root directory itself is always
a folder. -/
structure FileStore where
  /-- The working directory. -/
  home : Location
  entries : List (Location × FileEntry)
  /-- What goes wrong although no name is in the way. -/
  faults : List FileFault := []
  /-- What the names of temporary files are told apart by, in the order in
  which they are tried. -/
  tags : List Text := ["00000000"]
  deriving Repr

namespace FileStore

/-- The store without files.  Of folders it has those that lead to the working
directory. -/
def empty (home : Location) : FileStore where
  home := home
  entries := (List.range home.length).map fun n => (home.take (n + 1), .folder)

/-- The working directory as a path. -/
def homePath (store : FileStore) : Path where
  root := .top
  parts := store.home

/-- What lies at a location. -/
def entry? (store : FileStore) (l : Location) : Option FileEntry :=
  if l = [] then some .folder
  else (store.entries.find? fun pair => pair.1 = l).map Prod.snd

/-- What goes wrong with an action on the file at a location. -/
def fault? (store : FileStore) (action : FileAction) (l : Location) : Option SystemError :=
  (store.faults.find? fun fault => fault.action = action ∧ fault.place = l).map FileFault.error

/-! ## §3. Walking. -/

/-- The most bytes of one name. -/
def maxNameSize : Nat := 255

/-- The most bytes of a path. -/
def maxPathSize : Nat := 4095

/-- Where a path begins. -/
def origin (store : FileStore) (p : Path) : Except FileError Location :=
  if p.hasNul then .error .notFound
  else if maxPathSize < Utf8.size p.text then .error .nameTooLong
  else .ok (if p.root = .here then store.home else [])

/-- The location that a name leads to from another one, be there something or
not. -/
def step (store : FileStore) (here : Location) (name : Text) : Except FileError Location :=
  match store.entry? here with
  | none => .error .notFound
  | some (.file _) => .error .notFolder
  | some .folder =>
      if maxNameSize < Utf8.size name then .error .nameTooLong
      else if name = ".." then .ok here.dropLast
      else .ok (here ++ [name])

/-- The location that a path leads to, be there something or not. -/
def locate (store : FileStore) (p : Path) : Except FileError Location := do
  p.parts.foldlM store.step (← store.origin p)

/-- What a path leads to. -/
def find (store : FileStore) (p : Path) : Except FileError FileEntry := do
  match store.entry? (← store.locate p) with
  | some entry => return entry
  | none => throw .notFound

/-- Whether a path leads to a file or a folder.  Of a name that is too long
this cannot be told. -/
def exists? (store : FileStore) (p : Path) : Except FileError Bool :=
  match store.find p with
  | .ok _ => .ok true
  | .error .nameTooLong => .error .nameTooLong
  | .error _ => .ok false

/-! ## §4. Reading and writing. -/

/-- The bytes of the file that a path leads to. -/
def read (store : FileStore) (p : Path) : Except FileError (List UInt8) := do
  match ← store.find p with
  | .file bytes => return bytes
  | .folder => throw .isFolder

/-- What goes wrong with reading the file that a path leads to. -/
def readFault? (store : FileStore) (p : Path) : Option SystemError :=
  match store.locate p with
  | .error _ => none
  | .ok l => store.fault? .read l

/-- The store without what lies at a location. -/
def remove (store : FileStore) (l : Location) : FileStore :=
  { store with entries := store.entries.filter fun pair => pair.1 ≠ l }

/-- The store with an entry at a location, in place of what lies there. -/
def set (store : FileStore) (l : Location) (entry : FileEntry) : FileStore :=
  { store with entries := (store.remove l).entries ++ [(l, entry)] }

/-- The store with new bytes in the file that a path leads to.  The folder of
the file has to be there. -/
def write (store : FileStore) (p : Path) (bytes : List UInt8) : Except FileError FileStore := do
  let l ← store.locate p
  match store.entry? l with
  | some .folder => throw .isFolder
  | _ => return store.set l (.file bytes)

/-- The store with all folders that the names lead through, as far as they
lead. -/
def addFolders (store : FileStore) (here : Location) : List Text → FileStore
  | [] => store
  | name :: names =>
      match store.step here name with
      | .error _ => store
      | .ok next =>
          let added := if (store.entry? next).isSome then store else store.set next .folder
          addFolders added next names

/-- Makes the folder that a path leads to, and the missing ones on the way.
What is made before something stands in the way remains. -/
def makeFolder (store : FileStore) (p : Path) : FileStore × Except FileError Unit :=
  match store.origin p with
  | .error error => (store, .error error)
  | .ok here =>
      let made := store.addFolders here p.parts
      match made.find p with
      | .ok .folder => (made, .ok ())
      | .ok (.file _) => (made, .error .alreadyThere)
      | .error error => (made, .error error)

/-- All files below the working directory, by the names that lead to them from
there. -/
def files (store : FileStore) : List Location :=
  store.entries.filterMap fun (l, entry) =>
    match entry with
    | .file _ => if store.home <+: l then some (l.drop store.home.length) else none
    | .folder => none

end FileStore

/-! ## §5. Text files. -/

/-- Why a text file cannot be read. -/
inductive ReadFailure where
  | file (error : FileError)
  | system (error : SystemError)
  | encoding (failure : Utf8Failure)
  deriving DecidableEq, Repr

/-- The failure in words. -/
def ReadFailure.message : ReadFailure → Text
  | .file .notFound => "file not found"
  | .file error => "cannot read file: " ++ error.message
  | .system error => "cannot read file: " ++ error.words
  | .encoding failure => "file is not valid UTF-8: " ++ failure.message

/-- The text of the file that a path leads to. -/
def FileStore.readText (store : FileStore) (p : Path) : Except ReadFailure Text :=
  match store.read p with
  | .error error => .error (.file error)
  | .ok bytes =>
      match store.readFault? p with
      | some error => .error (.system error)
      | none =>
          match Utf8.decode bytes with
          | .error failure => .error (.encoding failure)
          | .ok text => .ok text

end StackLint
