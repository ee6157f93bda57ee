/-!
# Failures of the file system
-/

namespace WireSchema.Disk

/-- Why an operation on a file or a directory failed. -/
inductive OsError where
  | notFound
  | busy
  | alreadyExists
  | notDirectory
  | isDirectory
  | invalidArgument
  | nameTooLong
  /-- A path holds the character that ends texts for the system. -/
  | nulInPath
  /-- The contents are not text. -/
  | notUtf8
  /-- Any other failure, with its wording. -/
  | other (wording : String)
deriving Repr, DecidableEq

/-- The wording of a failure. -/
def OsError.message : OsError → String
  | .notFound => "No such file or directory (os error 2)"
  | .busy => "Device or resource busy (os error 16)"
  | .alreadyExists => "File exists (os error 17)"
  | .notDirectory => "Not a directory (os error 20)"
  | .isDirectory => "Is a directory (os error 21)"
  | .invalidArgument => "Invalid argument (os error 22)"
  | .nameTooLong => "File name too long (os error 36)"
  | .nulInPath => "file name contained an unexpected NUL byte"
  | .notUtf8 => "stream did not contain valid UTF-8"
  | .other wording => wording

end WireSchema.Disk
