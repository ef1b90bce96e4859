/-! Reading files: what a file holds, or why it cannot be read. -/
namespace LoraBridge

inductive FileError where
  | notFound
  | isDirectory
  | denied
  | invalidData (reason : String)
deriving DecidableEq

def FileError.message : FileError → String
  | .notFound => "No such file or directory (os error 2)"
  | .isDirectory => "Is a directory (os error 21)"
  | .denied => "Permission denied (os error 13)"
  | .invalidData reason => reason

abbrev Files := String → Except FileError (List UInt8)

def Files.readText (files : Files) (path : String) : Except FileError String := do
  let bytes ← files path
  match String.fromUTF8? ⟨bytes.toArray⟩ with
  | some text => .ok text
  | none => .error (.invalidData "stream did not contain valid UTF-8")

end LoraBridge
