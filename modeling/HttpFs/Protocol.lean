import HttpFs.Foundation.Text

namespace HttpFs

def HTTPFS_MAX_PATH : Nat := 4096

def HTTPFS_MAX_MESSAGE : Nat := 512

/-- What both sides skip in front of a header value. -/
def isHeaderBlank (c : UInt8) : Bool := c == byte ' ' || c == byte '\t'

namespace Errno

def ENOENT : Int := 2
def EINTR : Int := 4
def EIO : Int := 5
def ENOMEM : Int := 12
def EINVAL : Int := 22
def ENAMETOOLONG : Int := 36
def ENOSYS : Int := 38
def ENOBUFS : Int := 105

end Errno

/-- `httpfs_dir_entry`; the two strings are at most 255 and 7 bytes long. -/
structure HttpfsDirEntry where
  name : Bytes
  type : Bytes
  deriving Repr, DecidableEq

structure HttpfsMeta where
  path : Bytes
  type : Bytes
  mode : UInt32
  size : Int64
  uid : UInt32
  gid : UInt32
  nlink : UInt64
  atime : Int64
  mtime : Int64
  ctime : Int64
  deriving DecidableEq

/-- The fields of `struct stat` that are served and filled in. -/
structure Stat where
  mode : UInt32
  nlink : UInt64
  size : Int64
  uid : UInt32
  gid : UInt32
  atime : Int64
  mtime : Int64
  ctime : Int64
  deriving DecidableEq

structure HttpfsError where
  errnoValue : Int
  message : Bytes
  deriving Repr, DecidableEq

structure Timespec where
  tvSec : Int64
  tvNsec : Int64
  deriving DecidableEq

end HttpFs
