/-!
# The content of files

* `FileFault`, `FileFault.message` : why a file cannot be read;
* `FileContent` : the bytes of a file, if they can be had.
-/

namespace HttpRoutes

/-- Why the text of a file cannot be had. -/
inductive FileFault where
  | notFound
  | notDirectory
  | isDirectory
  | nameTooLong
  | nulInName
  | notUtf8
  /-- Any other reason, in the words of the system. -/
  | other (reason : String)
  deriving DecidableEq, Repr

def FileFault.message : FileFault → String
  | notFound => "No such file or directory (os error 2)"
  | notDirectory => "Not a directory (os error 20)"
  | isDirectory => "Is a directory (os error 21)"
  | nameTooLong => "File name too long (os error 36)"
  | nulInName => "file name contained an unexpected NUL byte"
  | notUtf8 => "stream did not contain valid UTF-8"
  | other reason => reason

/-- The bytes of a file, or why they cannot be had. -/
abbrev FileContent := Except FileFault (List UInt8)

end HttpRoutes
