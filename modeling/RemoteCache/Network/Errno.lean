import RemoteCache.Bytes

/-!
# Reasons of the system

## Main definitions

* `Errno` — why a call on a socket fails
* `ResolveError` — why a name cannot be resolved
-/

namespace RemoteCache

/-- Why a call on a socket fails. -/
inductive Errno
  | connectionRefused
  | connectionReset
  | brokenPipe
  /-- A signal came in between; the call can be repeated. -/
  | interrupted
  | tooManyFiles
  | timedOut
  | hostUnreachable
  | networkUnreachable
  | badDescriptor
  | invalidArgument
  | noMemory
  | permissionDenied
  | protocolNotAvailable
deriving DecidableEq, Inhabited

/-- The wording of the system. -/
def Errno.text : Errno → Bytes
  | .connectionRefused => Bytes.ascii "Connection refused"
  | .connectionReset => Bytes.ascii "Connection reset by peer"
  | .brokenPipe => Bytes.ascii "Broken pipe"
  | .interrupted => Bytes.ascii "Interrupted system call"
  | .tooManyFiles => Bytes.ascii "Too many open files"
  | .timedOut => Bytes.ascii "Connection timed out"
  | .hostUnreachable => Bytes.ascii "No route to host"
  | .networkUnreachable => Bytes.ascii "Network is unreachable"
  | .badDescriptor => Bytes.ascii "Bad file descriptor"
  | .invalidArgument => Bytes.ascii "Invalid argument"
  | .noMemory => Bytes.ascii "Cannot allocate memory"
  | .permissionDenied => Bytes.ascii "Permission denied"
  | .protocolNotAvailable => Bytes.ascii "Protocol not available"

/-- Why a name cannot be resolved. -/
inductive ResolveError
  | unknownName
  | temporary
  | permanent
  | memory
  | service
  /-- The name has no address, and no reason is given. -/
  | noAddress
deriving DecidableEq, Inhabited

/-- The wording of the resolver. -/
def ResolveError.text : ResolveError → Bytes
  | .unknownName => Bytes.ascii "Name or service not known"
  | .temporary => Bytes.ascii "Temporary failure in name resolution"
  | .permanent => Bytes.ascii "Non-recoverable failure in name resolution"
  | .memory => Bytes.ascii "Memory allocation failure"
  | .service => Bytes.ascii "Servname not supported for ai_socktype"
  | .noAddress => Bytes.ascii "Unknown error"

end RemoteCache
