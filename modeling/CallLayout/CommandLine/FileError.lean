/-!
# Files that cannot be read

Reading the text of a file fails for a reason that the system gives. The reasons are kept apart
only for their texts, which the program shows.
-/

namespace CallLayout.CommandLine

/-- Why a file could not be read. -/
inductive FileError where
  /-- There is no such file. -/
  | notFound
  /-- There is no device behind the file. -/
  | noDevice
  /-- The file may not be read. -/
  | denied
  /-- The path goes on after a file. -/
  | notDirectory
  /-- The path leads to a directory. -/
  | isDirectory
  /-- The path, or a name in it, is too long. -/
  | nameTooLong
  /-- The path leads over too many links. -/
  | tooManyLinks
  /-- What the file holds is no text. -/
  | notText
  /-- Some other reason, with its text. -/
  | other (message : String)
  deriving DecidableEq, Repr

/-- The text of a reason why a file could not be read. -/
def FileError.message : FileError → String
  | .notFound => "No such file or directory (os error 2)"
  | .noDevice => "No such device or address (os error 6)"
  | .denied => "Permission denied (os error 13)"
  | .notDirectory => "Not a directory (os error 20)"
  | .isDirectory => "Is a directory (os error 21)"
  | .nameTooLong => "File name too long (os error 36)"
  | .tooManyLinks => "Too many levels of symbolic links (os error 40)"
  | .notText => "stream did not contain valid UTF-8"
  | .other message => message

end CallLayout.CommandLine
