/-!
# Options and logging

How much the compiler checks, how much code it may emit, and which events of a compile are
logged. Options can be given as text by name; what is not given keeps its default.
-/

namespace Speculation

/-- Which events are logged. Each level includes those before it. -/
inductive LogLevel where
  | off
  /-- Compiles that failed because of a fault in the compiler. -/
  | bug
  /-- Compiles that failed for ordinary reasons. -/
  | abandoned
  /-- The start and end of every compile. -/
  | compiles
deriving DecidableEq, Repr, Inhabited

namespace LogLevel

def all : List LogLevel := [.off, .bug, .abandoned, .compiles]

def text : LogLevel → String
  | off => "off"
  | bug => "bug"
  | abandoned => "abandoned"
  | compiles => "compiles"

def ofText? (s : String) : Option LogLevel := all.find? fun l => l.text == s

/-- Is a message of level `l` written by a log of level `log`? -/
def enables (log l : LogLevel) : Bool := l ≠ .off && l.ctorIdx ≤ log.ctorIdx

end LogLevel

/-- A log's level, and the file it goes to unless it goes to standard error. -/
structure Log where
  level : LogLevel := .bug
  path : Option String := none
deriving DecidableEq, Repr, Inhabited

/-- A message to the log. -/
structure Message where
  level : LogLevel
  text : String
deriving DecidableEq, Repr

def Message.line (m : Message) : String := "specjit-" ++ m.level.text ++ ": " ++ m.text

structure Options where
  /-- Check after every node that the ledger and the register banks agree. -/
  assertState : Bool := true
  /-- Emit a breakpoint for an unreachable block. -/
  breakUnreachable : Bool := true
  /-- How often an exit is taken before the code should be compiled anew. -/
  exitThreshold : UInt32 := 100
  /-- The most bytes of code in one compile. -/
  codeLimit : Nat := 16777216
  /-- How many compiles run at once, if that is given. -/
  jobs : Option Nat := none
  log : Log := {}
deriving DecidableEq, Repr, Inhabited

/-- Why the text of a number is refused. -/
inductive NumberFault where
  | empty | invalidDigit | tooLarge
deriving DecidableEq, Repr

def NumberFault.text : NumberFault → String
  | empty => "cannot parse integer from empty string"
  | invalidDigit => "invalid digit found in string"
  | tooLarge => "number too large to fit in target type"

/-- Why options cannot be read. -/
inductive OptionsError where
  | log (text : String)
  | number (name text : String) (fault : NumberFault)
deriving DecidableEq, Repr

def OptionsError.message : OptionsError → String
  | log s =>
    "SPECJIT_LOG must be `[<path|->:]<off|bug|abandoned|compiles>`, not '" ++ s ++ "'"
  | number name s fault => "Invalid value for " ++ name ++ " '" ++ s ++ "': " ++ fault.text

namespace Options

/-- Read digits onto a number below `bound`. The first fault from the left counts. -/
def readDigits (bound : Nat) : Nat → List Char → Except NumberFault Nat
  | n, [] => .ok n
  | n, c :: cs =>
    if c.isDigit then
      let n := 10 * n + (c.toNat - 48)
      if bound ≤ n then .error .tooLarge else readDigits bound n cs
    else .error .invalidDigit

/-- Read a number below `bound`: digits, with at most a plus sign in front. -/
def readNumber (bound : Nat) (s : String) : Except NumberFault Nat :=
  match s.toList with
  | [] => .error .empty
  | ['+'] | ['-'] => .error .invalidDigit
  | '+' :: cs => readDigits bound 0 cs
  | cs => readDigits bound 0 cs

/-- Split at the last colon. -/
def splitLast (cs : List Char) : Option (List Char × List Char) :=
  match cs.reverse.span (· != ':') with
  | (_, []) => none
  | (level, _ :: path) => some (path.reverse, level.reverse)

/-- Read a level, with a path and a colon in front or not. A dash stands for standard error. -/
def readLog (s : String) : Except OptionsError Log :=
  let (path, level) : Option String × String :=
    match splitLast s.toList with
    | none => (none, s)
    | some (['-'], level) => (none, String.ofList level)
    | some (path, level) => (some (String.ofList path), String.ofList level)
  match LogLevel.ofText? level with
  | some level => .ok { level, path }
  | none => .error (.log s)

/-- Read the number of the given name, if there is one. -/
def lookup (env : List (String × String)) (name : String) (bound : Nat) :
    Except OptionsError (Option Nat) :=
  match env.lookup name with
  | none => .ok none
  | some s =>
    match readNumber bound s with
    | .ok n => .ok (some n)
    | .error f => .error (.number name s f)

/-- The options that named texts give. The log is read first, then the numbers in order. -/
def ofEnv (env : List (String × String)) : Except OptionsError Options := do
  let log ← match env.lookup "SPECJIT_LOG" with
    | none => pure {}
    | some s => readLog s
  let o : Options := { log }
  let o ← (← lookup env "SPECJIT_ASSERT_STATE" UInt8.size).elim (pure o) fun n =>
    pure { o with assertState := n != 0 }
  let o ← (← lookup env "SPECJIT_EXIT_THRESHOLD" UInt32.size).elim (pure o) fun n =>
    pure { o with exitThreshold := UInt32.ofNat n }
  let o ← (← lookup env "SPECJIT_CODE_LIMIT" UInt64.size).elim (pure o) fun n =>
    pure { o with codeLimit := n }
  (← lookup env "SPECJIT_JOBS" UInt64.size).elim (pure o) fun n =>
    pure { o with jobs := some (max 1 n) }

end Options

end Speculation
