import PathShim.UnixPath

/-!
# Host values

Error numbers, `io::Error` and file metadata, as both the bind view and the
Linux backend use them.
-/

namespace PathShim

open UnixPath

abbrev Errno := Int

def ENOENT : Errno := 2
def EINTR : Errno := 4
def EIO : Errno := 5
def EACCES : Errno := 13
def EFAULT : Errno := 14
def EXDEV : Errno := 18
def ENOTDIR : Errno := 20
def EINVAL : Errno := 22
def ERANGE : Errno := 34
def ENAMETOOLONG : Errno := 36
def ENOTSUP : Errno := 95

inductive ErrorKind where
  | invalidInput
  | invalidData
  | writeZero
  | unexpectedEof
  | timedOut
  | brokenPipe
  | uncategorized
  deriving DecidableEq

/-- `io::Error`: a raw OS error, or a kind with a message. A message that ends
in a displayed path carries that path. -/
inductive IoError where
  | os (errno : Errno)
  | new (kind : ErrorKind) (message : String) (path : Option OsStr)
  deriving DecidableEq

def IoError.rawOsError : IoError → Option Errno
  | .os errno => some errno
  | .new .. => none

/-- `error.kind() == ErrorKind::NotFound`. -/
def IoError.isNotFound (e : IoError) : Bool := e.rawOsError == some ENOENT

abbrev IoResult (α : Type) := Except IoError α

inductive FileType where
  | dir
  | file
  | symlink
  | other
  deriving DecidableEq

structure Metadata where
  inode : UInt64
  fileType : FileType
  deriving DecidableEq

def Metadata.isDir (m : Metadata) : Bool := m.fileType == .dir

end PathShim
