/-!
# Faults of file operations

Why an operation on a file failed, and how that is said.
-/

namespace LicenseHeader

/-- Why an operation on a file failed. -/
inductive IoFault where
  /-- There is no entry at the path, or no directory on the way to it. -/
  | noEntry
  /-- Something on the way to the entry is no directory. -/
  | notDirectory
  /-- A file is needed where a directory is. -/
  | isDirectory
  /-- The entry cannot be replaced. -/
  | busy
  /-- A name, or the whole path, is too long. -/
  | nameTooLong
  /-- Too many symbolic links lead on to others. -/
  | manyLinks
  /-- The path holds a zero byte. -/
  | zeroByte
  /-- The content has to be text and is not. -/
  | notText
  /-- The device failed, in the words given. -/
  | device (words : String)
  deriving DecidableEq, Repr

/-- The fault in words. -/
def IoFault.message : IoFault → String
  | noEntry => "No such file or directory (os error 2)"
  | notDirectory => "Not a directory (os error 20)"
  | isDirectory => "Is a directory (os error 21)"
  | busy => "Device or resource busy (os error 16)"
  | nameTooLong => "File name too long (os error 36)"
  | manyLinks => "Too many levels of symbolic links (os error 40)"
  | zeroByte => "file name contained an unexpected NUL byte"
  | notText => "stream did not contain valid UTF-8"
  | device words => words

end LicenseHeader
