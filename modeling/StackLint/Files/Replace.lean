/-
  StackLint.Files.Replace
  ───────────────────────
  **REPLACING FILES.**

  A file is replaced as a whole: the new bytes go to a temporary file beside
  it, which then takes its place.  Until then the file itself is not touched.
-/
import StackLint.Files.Basic

namespace StackLint

/-- Why a file is not replaced: the error and the paths that it names. -/
structure ReplaceFailure where
  error : SystemError
  paths : List Path
  deriving DecidableEq, Repr

/-- The failure in words. -/
def ReplaceFailure.message (f : ReplaceFailure) : Text :=
  f.error.report f.paths

/-- The path of a location. -/
def Location.path (l : Location) : Path where
  root := .top
  parts := l

namespace FileStore

/-- Whether an action on the file at a location can be done; if not, the paths
go into the failure. -/
def attempt (store : FileStore) (action : FileAction) (l : Location) (paths : List Path) :
    Except ReplaceFailure Unit :=
  match store.fault? action l with
  | some error => .error ⟨error, paths⟩
  | none => .ok ()

/-! ## §1. Temporary files. -/

/-- The path of a temporary file beside the file at a location. -/
def temporaryPath (l : Location) (tag : Text) : Path :=
  Location.path (l.dropLast ++ ["." ++ l.getLast?.getD [] ++ "." ++ tag ++ ".tmp"])

/-- The store with an empty file where a path leads to, and where that is.
Nothing may be there before. -/
def create (store : FileStore) (p : Path) : Except ReplaceFailure (Location × FileStore) := do
  let l ← (store.locate p).mapError fun error => ⟨error.system, [p]⟩
  match store.entry? l with
  | some _ => throw ⟨FileError.alreadyThere.system, [p]⟩
  | none =>
      store.attempt .create l [p]
      return (l, store.set l (.file []))

/-- The store with a temporary file beside the file at a location, under the
first of the tags whose name is free. -/
def createTemporary (store : FileStore) (l : Location) :
    (tags : List Text) → Except ReplaceFailure (Location × FileStore)
  | [] =>
      .error ⟨⟨FileError.alreadyThere.number, "No usable temporary file name found"⟩, []⟩
  | tag :: tags =>
      match store.create (temporaryPath l tag) with
      | .ok made => .ok made
      | .error failure =>
          if failure.error.number = FileError.alreadyThere.number then
            createTemporary store l tags
          else .error failure

/-- The store with a temporary file beside the one that a path leads to. -/
def temporaryBeside (store : FileStore) (p : Path) :
    Except ReplaceFailure (Location × FileStore) := do
  let l ← (store.locate p).mapError fun error => ⟨error.system, [p]⟩
  store.createTemporary l store.tags

/-- The store without a temporary file. -/
def discard (store : FileStore) (temporary : Location) : Except ReplaceFailure FileStore := do
  match store.entry? temporary with
  | none => return store
  | some _ =>
      store.attempt .delete temporary [Location.path temporary]
      return store.remove temporary

/-! ## §2. Taking the place of a file. -/

/-- The store with bytes in a temporary file. -/
def fill (store : FileStore) (temporary : Location) (bytes : List UInt8) :
    Except ReplaceFailure FileStore := do
  store.attempt .fill temporary []
  return store.set temporary (.file bytes)

/-- The store with a temporary file, which gets the permissions of the file
that a path leads to, in the place of that file. -/
def moveTo (store : FileStore) (temporary : Location) (p : Path) :
    Except ReplaceFailure FileStore := do
  let target ← (store.locate p).mapError fun error => ⟨error.system, [p]⟩
  store.attempt .inspect target [p]
  store.attempt .permit temporary [Location.path temporary]
  store.attempt .replace target [Location.path temporary, p]
  match store.entry? temporary, store.entry? target with
  | none, _ => throw ⟨FileError.notFound.system, [Location.path temporary, p]⟩
  | some _, some .folder => throw ⟨FileError.isFolder.system, [Location.path temporary, p]⟩
  | some entry, _ => return (store.remove temporary).set target entry

/-- Puts bytes into a temporary file and that in the place of the file that a
path leads to.  What is done before something goes wrong remains. -/
def fillAndMove (store : FileStore) (temporary : Location) (p : Path) (bytes : List UInt8) :
    FileStore × Except ReplaceFailure Unit :=
  match store.fill temporary bytes with
  | .error failure => (store, .error failure)
  | .ok filled =>
      match filled.moveTo temporary p with
      | .error failure => (filled, .error failure)
      | .ok moved => (moved, .ok ())

end FileStore

end StackLint
