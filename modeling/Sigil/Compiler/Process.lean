import Sigil.Disk.Basic

/-!
# Compiler processes

A compiler's process as seen from outside: what it changes in its directory, what it writes to its
log, and how it ends.
-/

namespace Sigil.Compiler

inductive Outcome where
  | exit (code : Nat)
  | signal (number : Nat)
  /-- The process does not end. -/
  | hang
  deriving DecidableEq, Repr

/-- What a process does. Names are paths in its directory. -/
structure Behaviour where
  writes : List (String × List UInt8) := []
  directories : List String := []
  removes : List String := []
  log : List UInt8 := []
  outcome : Outcome := .exit 0
  deriving DecidableEq, Repr

/-- The names of the signals from number one on. -/
def signalNames : List String :=
  ["SIGHUP", "SIGINT", "SIGQUIT", "SIGILL", "SIGTRAP", "SIGABRT", "SIGBUS", "SIGFPE", "SIGKILL",
    "SIGUSR1", "SIGSEGV", "SIGUSR2", "SIGPIPE", "SIGALRM", "SIGTERM", "SIGSTKFLT", "SIGCHLD",
    "SIGCONT", "SIGSTOP", "SIGTSTP", "SIGTTIN", "SIGTTOU", "SIGURG", "SIGXCPU", "SIGXFSZ",
    "SIGVTALRM", "SIGPROF", "SIGWINCH", "SIGIO", "SIGPWR", "SIGSYS"]

inductive Status where
  | exit (code : Nat)
  | signal (number : Nat)
  deriving DecidableEq, Repr

namespace Status

def isSuccess (s : Status) : Bool := s = exit 0

def text : Status → String
  | exit code => s!"exit status: {code}"
  | signal n =>
    match n with
    | 0 => "signal: 0"
    | k + 1 =>
      match signalNames[k]? with
      | some name => s!"signal: {n} ({name})"
      | none => s!"signal: {n}"

end Status

/-- A change to a disk that stays out if it fails. -/
def attempt {ε : Type} (d : Disk) (r : Except ε Disk) : Disk :=
  match r with
  | .ok d => d
  | .error _ => d

namespace Behaviour

/-- The disk after a process has changed its directory. -/
def change (b : Behaviour) (d : Disk) (folder : String) : Disk :=
  let at_ (name : String) : String := Path.append folder name
  let d := b.writes.foldl (fun d (name, bytes) => attempt d (d.write (at_ name) bytes)) d
  let d := b.directories.foldl (fun d name => (d.makeDirs (at_ name)).1) d
  b.removes.foldl (fun d name =>
    match d.place (at_ name) with
    | .ok p => d.eraseTree p
    | .error _ => d) d

/-- The disk after a process has also written its log over the start of a file, if it is there. -/
def run (b : Behaviour) (d : Disk) (folder logPath : String) : Disk :=
  let d := b.change d folder
  match d.read? logPath with
  | some old => attempt d (d.write logPath (b.log ++ old.drop b.log.length))
  | none => d

end Behaviour
end Sigil.Compiler
