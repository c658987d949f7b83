/-!
The kinds of errors that users see by name, and which of them count as system errors, lost
connections or failed requests.
-/

namespace BlockWorkbench

inductive ErrorKind where
  | exception
  | value
  | key
  | type
  | run
  | index
  | noAttribute
  | name
  | unboundLocal
  | zeroDivision
  | overflow
  | recursion
  | memory
  | systemExit
  | keyboardInterrupt
  | generatorExit
  | baseException
  | syntaxError
  | indentation
  | tab
  | script
  | duplicateModule
  | unresolvedInput
  | missingPackage
  | jsonDecode
  | queueEmpty
  | unicodeEncode
  | os
  | fileNotFound
  | permission
  | fileExists
  | isADirectory
  | notADirectory
  | blocking
  | childProcess
  | interrupted
  | processLookup
  | timeout
  | connection
  | brokenPipe
  | connectionAborted
  | connectionRefused
  | connectionReset
  | connectFailed
  | readFailed
  | connectTimeout
  | readTimeout
  | unsupportedProtocol
  | remoteProtocol
  | tooManyRedirects
  | httpFailure
  | invalidUrl
  /-- A kind that only its name is known of. -/
  | other (name : String)
  deriving DecidableEq, Repr

namespace ErrorKind

/-- The kinds with a name of their own. -/
def named : List (String × ErrorKind) := [
  ("Exception", .exception), ("ValueError", .value), ("KeyError", .key), ("TypeError", .type),
  ("RuntimeError", .run), ("IndexError", .index), ("AttributeError", .noAttribute),
  ("NameError", .name), ("UnboundLocalError", .unboundLocal), ("ZeroDivisionError", .zeroDivision),
  ("OverflowError", .overflow), ("RecursionError", .recursion), ("MemoryError", .memory),
  ("SystemExit", .systemExit), ("KeyboardInterrupt", .keyboardInterrupt),
  ("GeneratorExit", .generatorExit), ("BaseException", .baseException),
  ("SyntaxError", .syntaxError), ("IndentationError", .indentation), ("TabError", .tab),
  ("ScriptError", .script), ("DuplicateModuleError", .duplicateModule),
  ("UnresolvedInputError", .unresolvedInput), ("ModuleNotFoundError", .missingPackage),
  ("JSONDecodeError", .jsonDecode), ("Empty", .queueEmpty), ("UnicodeEncodeError", .unicodeEncode),
  ("OSError", .os), ("FileNotFoundError", .fileNotFound), ("PermissionError", .permission),
  ("FileExistsError", .fileExists), ("IsADirectoryError", .isADirectory),
  ("NotADirectoryError", .notADirectory), ("BlockingIOError", .blocking),
  ("ChildProcessError", .childProcess), ("InterruptedError", .interrupted),
  ("ProcessLookupError", .processLookup), ("TimeoutError", .timeout),
  ("ConnectionError", .connection), ("BrokenPipeError", .brokenPipe),
  ("ConnectionAbortedError", .connectionAborted), ("ConnectionRefusedError", .connectionRefused),
  ("ConnectionResetError", .connectionReset), ("ConnectError", .connectFailed),
  ("ReadError", .readFailed), ("ConnectTimeout", .connectTimeout), ("ReadTimeout", .readTimeout),
  ("UnsupportedProtocol", .unsupportedProtocol), ("RemoteProtocolError", .remoteProtocol),
  ("TooManyRedirects", .tooManyRedirects), ("HTTPError", .httpFailure), ("InvalidURL", .invalidUrl)]

def ofName (s : String) : ErrorKind := ((named.find? (·.1 == s)).map (·.2)).getD (.other s)

def text : ErrorKind → String
  | other s => s
  | kind => ((named.find? (·.2 == kind)).map (·.1)).getD ""

/-- Errors that only say that something went wrong. The others ask the program to end, or stand
for all errors. -/
def isException : ErrorKind → Bool
  | systemExit | keyboardInterrupt | generatorExit | baseException => false
  | _ => true

/-- Errors that leave a script and all that runs it: those that are no exceptions, but for the one
by which a script asks to exit. -/
def escapes (kind : ErrorKind) : Bool := !kind.isException && kind != systemExit

/-- Errors that mean the connection could not be made or was lost. -/
def isConnection : ErrorKind → Bool
  | connection | brokenPipe | connectionAborted | connectionRefused | connectionReset => true
  | _ => false

/-- Errors reported by the operating system. -/
def isSystem : ErrorKind → Bool
  | os | fileNotFound | permission | fileExists | isADirectory | notADirectory | blocking
  | childProcess | interrupted | processLookup | timeout => true
  | kind => kind.isConnection

/-- Errors of a request that was sent or answered wrongly. -/
def isHttp : ErrorKind → Bool
  | connectFailed | readFailed | connectTimeout | readTimeout | unsupportedProtocol
  | remoteProtocol | tooManyRedirects | httpFailure => true
  | _ => false

/-- The kind that a system error number stands for. -/
def ofErrno : Int → ErrorKind
  | 1 | 13 => permission
  | 2 => fileNotFound
  | 3 => processLookup
  | 4 => interrupted
  | 10 => childProcess
  | 11 | 114 | 115 => blocking
  | 17 => fileExists
  | 20 => notADirectory
  | 21 => isADirectory
  | 32 | 108 => brokenPipe
  | 103 => connectionAborted
  | 104 => connectionReset
  | 110 => timeout
  | 111 => connectionRefused
  | _ => os

end ErrorKind

end BlockWorkbench
