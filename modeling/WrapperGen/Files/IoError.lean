/-!
# File system errors

Why an operation on files failed, with the wording and number of the operating system.
-/

namespace WrapperGen.Files

inductive IoError
  | notFound
  | denied
  | exists
  | notADirectory
  | isADirectory
  | invalidArgument
  | nameTooLong
  /-- The content is no text. -/
  | invalidText
  /-- An error that does not come from the operating system. -/
  | custom (message : String)
deriving DecidableEq, Repr

namespace IoError

def numbered (message : String) (number : Nat) : String :=
  message ++ " (os error " ++ toString number ++ ")"

def text : IoError → String
  | notFound => numbered "No such file or directory" 2
  | denied => numbered "Permission denied" 13
  | .exists => numbered "File exists" 17
  | notADirectory => numbered "Not a directory" 20
  | isADirectory => numbered "Is a directory" 21
  | invalidArgument => numbered "Invalid argument" 22
  | nameTooLong => numbered "File name too long" 36
  | invalidText => "stream did not contain valid UTF-8"
  | custom message => message

end IoError

end WrapperGen.Files
