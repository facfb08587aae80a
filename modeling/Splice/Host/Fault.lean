import Splice.Net.Decimal
/-!
# Faults of the operating system

A system call that fails gives an error number; its text is the system's own. A
path or a text the system cannot take at all is refused before any call.
-/

namespace Splice.Host

/-- Texts of the error numbers of Linux, by number; blank where there is none. -/
def errorTexts : List String :=
  ["Success", "Operation not permitted", "No such file or directory", "No such process",
   "Interrupted system call", "Input/output error", "No such device or address", "Argument list too long",
   "Exec format error", "Bad file descriptor", "No child processes", "Resource temporarily unavailable",
   "Cannot allocate memory", "Permission denied", "Bad address", "Block device required",
   "Device or resource busy", "File exists", "Invalid cross-device link", "No such device", "Not a directory",
   "Is a directory", "Invalid argument", "Too many open files in system", "Too many open files",
   "Inappropriate ioctl for device", "Text file busy", "File too large", "No space left on device",
   "Illegal seek", "Read-only file system", "Too many links", "Broken pipe",
   "Numerical argument out of domain", "Numerical result out of range", "Resource deadlock avoided",
   "File name too long", "No locks available", "Function not implemented", "Directory not empty",
   "Too many levels of symbolic links", "", "No message of desired type", "Identifier removed",
   "Channel number out of range", "Level 2 not synchronized", "Level 3 halted", "Level 3 reset",
   "Link number out of range", "Protocol driver not attached", "No CSI structure available", "Level 2 halted",
   "Invalid exchange", "Invalid request descriptor", "Exchange full", "No anode", "Invalid request code",
   "Invalid slot", "", "Bad font file format", "Device not a stream", "No data available", "Timer expired",
   "Out of streams resources", "Machine is not on the network", "Package not installed", "Object is remote",
   "Link has been severed", "Advertise error", "Srmount error", "Communication error on send",
   "Protocol error", "Multihop attempted", "RFS specific error", "Bad message",
   "Value too large for defined data type", "Name not unique on network", "File descriptor in bad state",
   "Remote address changed", "Can not access a needed shared library", "Accessing a corrupted shared library",
   ".lib section in a.out corrupted", "Attempting to link in too many shared libraries",
   "Cannot exec a shared library directly", "Invalid or incomplete multibyte or wide character",
   "Interrupted system call should be restarted", "Streams pipe error", "Too many users",
   "Socket operation on non-socket", "Destination address required", "Message too long",
   "Protocol wrong type for socket", "Protocol not available", "Protocol not supported",
   "Socket type not supported", "Operation not supported", "Protocol family not supported",
   "Address family not supported by protocol", "Address already in use", "Cannot assign requested address",
   "Network is down", "Network is unreachable", "Network dropped connection on reset",
   "Software caused connection abort", "Connection reset by peer", "No buffer space available",
   "Transport endpoint is already connected", "Transport endpoint is not connected",
   "Cannot send after transport endpoint shutdown", "Too many references: cannot splice",
   "Connection timed out", "Connection refused", "Host is down", "No route to host",
   "Operation already in progress", "Operation now in progress", "Stale file handle",
   "Structure needs cleaning", "Not a XENIX named type file", "No XENIX semaphores available",
   "Is a named type file", "Remote I/O error", "Disk quota exceeded", "No medium found", "Wrong medium type",
   "Operation canceled", "Required key not available", "Key has expired", "Key has been revoked",
   "Key was rejected by service", "Owner died", "State not recoverable",
   "Operation not possible due to RF-kill", "Memory page has hardware error"]

/-- The text of an error number. -/
def errorText (code : Int) : String :=
  match code with
  | .ofNat n =>
    match errorTexts[n]? with
    | none => "Unknown error " ++ Decimal.text n
    | some "" => "Unknown error " ++ Decimal.text n
    | some s => s
  | .negSucc n => "Unknown error -" ++ Decimal.text (n + 1)

/-- An integer in decimal. -/
def integerText : Int → String
  | .ofNat n => Decimal.text n
  | .negSucc n => "-" ++ Decimal.text (n + 1)

/-- Why a request to the operating system failed. -/
inductive Fault where
  /-- An error number. -/
  | code (n : Int)
  /-- A path holds a zero octet. -/
  | zeroInPath
  /-- A C string holds a zero octet at `position`. -/
  | zeroAt (position : Nat)
  /-- A file that should be text is not UTF-8. -/
  | notUtf8
deriving DecidableEq, Inhabited, Repr

namespace Fault

def notPermitted : Fault := .code 1
def notFound : Fault := .code 2
def inputOutput : Fault := .code 5
def alreadyExists : Fault := .code 17
def notDirectory : Fault := .code 20
def isDirectory : Fault := .code 21
def invalid : Fault := .code 22
def nameTooLong : Fault := .code 36

def message : Fault → String
  | .code n => errorText n ++ " (os error " ++ integerText n ++ ")"
  | .zeroInPath => "file name contained an unexpected NUL byte"
  | .zeroAt position => "nul byte found in provided data at position: " ++ Decimal.text position
  | .notUtf8 => "stream did not contain valid UTF-8"

end Fault

end Splice.Host
