/-!
Files as the commands see them: a path either leads to a text or to a reason why there is none.
-/

namespace Phrasebook

inductive FileFault where
  | missing
  | notDirectory
  | isDirectory
  | nameTooLong
  | zeroByte
  | denied
  | notText
  deriving DecidableEq, Repr

namespace FileFault

def message : FileFault → String
  | .missing => "No such file or directory (os error 2)"
  | .notDirectory => "Not a directory (os error 20)"
  | .isDirectory => "Is a directory (os error 21)"
  | .nameTooLong => "File name too long (os error 36)"
  | .zeroByte => "file name contained an unexpected NUL byte"
  | .denied => "Permission denied (os error 13)"
  | .notText => "stream did not contain valid UTF-8"

def isAbsence : FileFault → Bool
  | .missing | .notDirectory | .nameTooLong | .zeroByte => true
  | .isDirectory | .denied | .notText => false

end FileFault

abbrev FileContent := Except FileFault String

namespace FileContent

/-- Something is at the path, whether it can be read or not. -/
def isPresent : FileContent → Bool
  | .ok _ => true
  | .error fault => !fault.isAbsence

end FileContent

end Phrasebook
