/-!
# Kinds of errors

The kinds of errors that the outside world and the program itself raise.  Families are predicates
on kinds; an error is caught by family, never by its message.
-/

namespace Testbed
namespace Fault

/-- The kind of a raised error. -/
inductive Kind where
  | engine
  | engineApi
  | notFound
  | imageNotFound
  | connect
  | connectTimeout
  | readTimeout
  | remoteProtocol
  | redirects
  | decoding
  | http
  | httpStatus
  | invalidUrl
  | database
  | databaseStarting
  | databasePassword
  | databaseUsage
  | os
  | timeout
  | connection
  | connectionRefused
  | connectionReset
  | permission
  | noSuchFile
  | fileExists
  | notADirectory
  | isADirectory
  | value
  | jsonDecode
  | unicodeDecode
  | key
  | wrongType
  | missingAttribute
  | runtime
  | cancelled
  | skipped
  | failed
  | other (name : String)
  deriving Repr, DecidableEq

namespace Kind

/-- The kinds that have a name of their own. -/
def named : List (Kind × String) := [
  (engine, "DockerException"), (engineApi, "APIError"), (notFound, "NotFound"),
  (imageNotFound, "ImageNotFound"), (connect, "ConnectError"),
  (connectTimeout, "ConnectTimeout"), (readTimeout, "ReadTimeout"),
  (remoteProtocol, "RemoteProtocolError"), (redirects, "TooManyRedirects"),
  (decoding, "DecodingError"), (http, "HTTPError"), (httpStatus, "HTTPStatusError"),
  (invalidUrl, "InvalidURL"), (database, "PostgresError"),
  (databaseStarting, "CannotConnectNowError"), (databasePassword, "InvalidPasswordError"),
  (databaseUsage, "InterfaceError"), (os, "OSError"), (timeout, "TimeoutError"),
  (connection, "ConnectionError"), (connectionRefused, "ConnectionRefusedError"),
  (connectionReset, "ConnectionResetError"), (permission, "PermissionError"),
  (noSuchFile, "FileNotFoundError"), (fileExists, "FileExistsError"),
  (notADirectory, "NotADirectoryError"), (isADirectory, "IsADirectoryError"),
  (value, "ValueError"), (jsonDecode, "JSONDecodeError"),
  (unicodeDecode, "UnicodeDecodeError"), (key, "KeyError"), (wrongType, "TypeError"),
  (missingAttribute, "AttributeError"), (runtime, "RuntimeError"), (cancelled, "CancelledError"),
  (skipped, "Skipped"), (failed, "Failed")]

/-- The name under which an error of this kind is reported. -/
def name : Kind → String
  | other n => n
  | k => ((named.find? fun p => p.1 == k).map Prod.snd).getD ""

/-- The kind with a given name. -/
def ofName (n : String) : Kind :=
  ((named.find? fun p => p.2 == n).map Prod.fst).getD (other n)

/-- Something that is not there. -/
def isNotFound : Kind → Bool
  | notFound | imageNotFound => true
  | _ => false

/-- Raised by the container engine. -/
def isEngine : Kind → Bool
  | engine | engineApi | notFound | imageNotFound => true
  | _ => false

/-- Raised by the operating system; answers of the engine's interface count as such too. -/
def isOs : Kind → Bool
  | os | timeout | connection | connectionRefused | connectionReset | permission | noSuchFile
  | fileExists | notADirectory | isADirectory | engineApi | notFound | imageNotFound => true
  | _ => false

/-- Raised by an HTTP exchange. -/
def isHttp : Kind → Bool
  | connect | connectTimeout | readTimeout | remoteProtocol | redirects | decoding | http
  | httpStatus => true
  | _ => false

/-- Raised by the database client. -/
def isDatabase : Kind → Bool
  | database | databaseStarting | databasePassword | databaseUsage => true
  | _ => false

/-- Raised for an unacceptable value. -/
def isValue : Kind → Bool
  | value | jsonDecode | unicodeDecode => true
  | _ => false

end Kind

end Fault
end Testbed
