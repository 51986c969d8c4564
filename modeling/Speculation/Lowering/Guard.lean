import Speculation.Graph.Forward
import Speculation.Lowering.Registers

/-!
# Guards, exits and calls
-/

namespace Speculation
namespace Lowering

/-- Record a new exit of the current node. -/
def newExit (kind : ExitKind) : Lower Nat := do
  let stub ← newLabel
  let origin := (← currentNode).origin
  modifyGet fun s =>
    let x : Exit :=
      { kind, origin, streamIndex := s.exitStream.getD s.events.size, node := s.current, stub }
    (s.exits.size,
      { s with exits := s.exits.push x, views := s.views.push (s.exitLedger.getD s.ledger) })

def modifyExit (x : Nat) (f : Exit → Exit) : Lower Unit :=
  modify fun s => { s with exits := s.exits.modify x f }

/-- Leave through an exit if the condition holds. -/
def jccExit (c : Cond) (x : Nat) : Lower Unit := do
  jcc c (← assume (Breach.get (← get).exits x)).stub

/-- Leave through a new exit if the condition holds. -/
def guard (kind : ExitKind) (c : Cond) : Lower Nat := do
  let x ← newExit kind
  jccExit c x
  return x

def guard' (kind : ExitKind) (c : Cond) : Lower Unit := discard (guard kind c)

/-- Leave if the condition holds, undoing what the guard did to a register. -/
def guardUndo (kind : ExitKind) (c : Cond) (undo : Undo) : Lower Unit := do
  let x ← newExit kind
  modifyExit x fun e => { e with undo := some undo }
  jccExit c x

/-- The speculation of the current node can never succeed: leave, and stop lowering it. -/
def terminate {α : Type} (kind : ExitKind) : Lower α := do
  let x ← newExit kind
  jmp (← assume (Breach.get (← get).exits x)).stub
  throw .terminated

/-- Emit a no-op that firing a watchpoint turns into a jump to a new exit. -/
def guardWatchpoint (kind : ExitKind) : Lower Unit := do
  let x ← newExit kind
  modifyExit x fun e => { e with isWatchpoint := true }
  let offset ← emit (.watchpoint (UInt32.ofNat x))
  modify fun s => { s with watchpoints := s.watchpoints.push { offset, exit := x } }

/-- Make an exit resume after the store of the current node's value, with the stored local recovered
by `recovery`, if there is a place to resume. -/
def makeForward (x : Nat) (recovery : Recovery) : Lower Unit := do
  let g ← graph
  let s ← get
  let store ←
    match (← currentNode).forwardTarget with
    | some t => pure ((← assume (g.block s.block)).nodes.findIdx? (· == t))
    | none => assume (g.findForwardStore s.block s.position)
  if let some store := store then
    if let some (origin, operand) ← assume (g.forwardResume s.block s.position store) then
      modifyExit x fun e =>
        { e with origin, isForward := true, override := some (operand, recovery) }

/-- Order moves so that no destination is overwritten while it is still needed as a source; a cycle
is broken through the scratch register. Each round emits a move or breaks a cycle, so twice as many
rounds as there are moves are enough. -/
def sequentialize {R : Type} [DecidableEq R] (scratch : R) :
    Nat → List (R × R) → List (R × R)
  | 0, _ => []
  | _, [] => []
  | fuel + 1, (d, s) :: rest =>
    let moves := (d, s) :: rest
    match moves.findIdx? fun m => !moves.any fun k => k.2 = m.1 with
    | some i =>
      match moves[i]? with
      | some m => m :: sequentialize scratch fuel (moves.eraseIdx i)
      | none => []
    | none =>
      (scratch, s) ::
        sequentialize scratch fuel (moves.map fun m => if m.2 = s then (m.1, scratch) else m)

/-- Moves, each a destination and a source, as a sequence with the effect of all at once. -/
def parallelMoves {R : Type} [DecidableEq R] (scratch : R) (moves : List (R × R)) :
    List (R × R) :=
  let moves := moves.filter fun m => m.1 ≠ m.2
  sequentialize scratch (2 * moves.length) moves

/-- The moves and immediates that pass arguments in the argument registers. -/
structure ArgumentMoves where
  gprs : List (Gpr × Gpr) := []
  fprs : List (Fpr × Fpr) := []
  imms : List (Gpr × UInt64) := []

def assignArguments : List Argument → List Gpr → List Fpr → Except CompileError ArgumentMoves
  | [], _, _ => .ok {}
  | .gpr _ :: _, [], _ => .error (.internal .tooManyIntegerArguments)
  | .imm _ :: _, [], _ => .error (.internal .tooManyIntegerArguments)
  | .fpr _ :: _, _, [] => .error (.internal .tooManyDoubleArguments)
  | .gpr r :: args, d :: gs, fs =>
    (assignArguments args gs fs).map fun m => { m with gprs := (d, r) :: m.gprs }
  | .imm x :: args, d :: gs, fs =>
    (assignArguments args gs fs).map fun m => { m with imms := (d, x) :: m.imms }
  | .fpr r :: args, gs, d :: fs =>
    (assignArguments args gs fs).map fun m => { m with fprs := (d, r) :: m.fprs }

/-- Move arguments into the argument registers. -/
def setupArguments (args : List Argument) : Lower Unit := do
  let m ← check (assignArguments args Gpr.arguments Fpr.arguments)
  for (d, s) in parallelMoves Gpr.scratch m.gprs do
    emit' (.mov d s)
  for (d, s) in parallelMoves Fpr.scratch m.fprs do
    emit' (.dmov d s)
  for (d, x) in m.imms do
    discard (movImm d x)

def emitCall (h : Helper) : Lower Unit :=
  discard (emitReloc (.call 0) (.external (.helper h)))

/-- Go to the exception handler if the last call left an exception pending. -/
def exceptionCheck : Lower Unit := do
  discard (movImm .scratch (← read).context)
  load64 .scratch (.ofBase .scratch (Int32.ofNat Context.exception))
  test64 .scratch (.reg .scratch)
  jcc .ne (← read).exceptionLabel

/-- Call a helper on the main path. All values leave their registers first. -/
def callHelper (h : Helper) (args : List Argument) : Lower Unit := do
  flushRegisters
  setupArguments args
  emitCall h
  if h.mayThrow then exceptionCheck

/-- Take the register with the result of a call, which stays where it is unless an operand still
holds that register. -/
def callResultGpr : Lower Gpr := do
  let r ← allocGprPreferring .result
  mov r .result
  return r

def callResultFpr : Lower Fpr := do
  let r ← allocFprPreferring .result
  dmov r .result
  return r

/-- Register a slow path of the current node. All bound registers but those excluded are
preserved. -/
def addSlowPath (entry done : Label) (exclude : List Gpr) (work : SlowWork) : Lower Unit :=
  modify fun s =>
    let path : SlowPath :=
      { entry
        done
        gprs := (s.gprs.bound.map Prod.fst).filter fun r => !exclude.contains r
        fprs := s.fprs.bound.map Prod.fst
        node := s.current
        streamIndex := s.events.size
        ledger := s.ledger
        work }
    { s with slowPaths := s.slowPaths.push path }

/-- Jump to a block, unless it is emitted next. -/
def jumpToBlock (b : BlockId) : Lower Unit := do
  unless b = (← get).block + 1 do jmp (← blockLabel b)

/-- Branch on a condition, falling through where possible. -/
def branch (c : Cond) (taken notTaken : BlockId) : Lower Unit := do
  if taken = (← get).block + 1 then
    jcc c.invert (← blockLabel notTaken)
  else
    jcc c (← blockLabel taken)
    jumpToBlock notTaken

end Lowering

end Speculation
