/-!
# Refusals of the operating system

The classes of errors by which the operating system refuses an operation. The
system tells its reason by a number, and most numbers in use have a class of
their own.
-/

namespace QueryJournal

/-- A class of refusals. -/
inductive SystemClass where
  /-- A refusal of no special kind. -/
  | general
  /-- An operation that would have to wait. -/
  | blocking
  /-- A child process that is not there. -/
  | childProcess
  /-- A connection that broke, in any way. -/
  | connection
  /-- A connection that nobody reads from any more. -/
  | brokenPipe
  /-- A connection that was given up. -/
  | connectionAborted
  /-- A connection that the other side did not take. -/
  | connectionRefused
  /-- A connection that the other side closed. -/
  | connectionReset
  /-- A file that exists already. -/
  | fileExists
  /-- A file that does not exist. -/
  | fileNotFound
  /-- A call that a signal ended. -/
  | interrupted
  /-- A directory in the place of a file. -/
  | isDirectory
  /-- A file in the place of a directory. -/
  | notDirectory
  /-- A right that is missing. -/
  | permission
  /-- A process that does not exist. -/
  | processLookup
  /-- An operation that took too long. -/
  | timeout
  deriving DecidableEq

namespace SystemClass

/-- The classes with their names. -/
def named : List (String × SystemClass) :=
  [("OSError", .general), ("BlockingIOError", .blocking),
    ("ChildProcessError", .childProcess),
    ("ConnectionError", .connection), ("BrokenPipeError", .brokenPipe),
    ("ConnectionAbortedError", .connectionAborted),
    ("ConnectionRefusedError", .connectionRefused),
    ("ConnectionResetError", .connectionReset),
    ("FileExistsError", .fileExists),
    ("FileNotFoundError", .fileNotFound), ("InterruptedError", .interrupted),
    ("IsADirectoryError", .isDirectory), ("NotADirectoryError", .notDirectory),
    ("PermissionError", .permission), ("ProcessLookupError", .processLookup),
    ("TimeoutError", .timeout)]

/-- Further names of the general class. -/
def synonyms : List (String × SystemClass) :=
  [("IOError", .general), ("EnvironmentError", .general)]

/-- The class with a name. -/
def ofName? (s : String) : Option SystemClass :=
  (named ++ synonyms).lookup s

/-- The name of a class. -/
def name (c : SystemClass) : String :=
  ((named.find? fun entry => entry.2 == c).map (·.1)).getD ""

/-- The numbers that have a class of their own. -/
def numbered : List (Int × SystemClass) :=
  [(1, .permission), (2, .fileNotFound), (3, .processLookup), (4, .interrupted),
    (10, .childProcess), (11, .blocking), (13, .permission), (17, .fileExists),
    (20, .notDirectory), (21, .isDirectory), (32, .brokenPipe),
    (103, .connectionAborted),
    (104, .connectionReset), (108, .brokenPipe), (110, .timeout),
    (111, .connectionRefused), (114, .blocking), (115, .blocking)]

/-- The class of a refusal with a number. A special class stays what it is. -/
def refine (c : SystemClass) (number : Int) : SystemClass :=
  match c with
  | .general => (numbered.lookup number).getD .general
  | c => c

end SystemClass

end QueryJournal
