import Speculation.TypeSet
import Speculation.Breach
import Speculation.Machine.Convention

/-!
# The dataflow graph

A graph is an arena of nodes and a list of blocks, each an ordered list of node indexes. Every
edge says what the consumer requires of the value, and every node how many generated nodes
consume it. Values pass from one block to another only through frame slots, by `setLocal` and
`getLocal`.
-/

namespace Speculation

/-- A slot of the frame, counted in words from the frame register. Arguments lie above the header,
locals and temporaries below the register. -/
structure Slot where
  index : Int
deriving DecidableEq, Repr, Inhabited, Hashable

namespace Slot

/-- A count as a signed word of 32 bits, the width in which slots are counted. -/
def signed (i : Nat) : Int := (i : Int).bmod 4294967296

def ofArgument (i : Nat) : Slot := ⟨Frame.headerSize + signed i⟩

def ofLocal (i : Nat) : Slot := ⟨-signed i - 1⟩

def argument? (s : Slot) : Option Nat :=
  if (Frame.headerSize : Int) ≤ s.index then some (s.index - Frame.headerSize).toNat else none

def local? (s : Slot) : Option Nat :=
  if s.index < 0 then some (-s.index - 1).toNat else none

/-- The byte offset from the frame register. -/
def offset (s : Slot) : Int32 := Int32.ofInt (s.index * 8)

def text (s : Slot) : String :=
  match s.argument?, s.local? with
  | some i, _ => "arg" ++ toString i
  | none, some i => "loc" ++ toString i
  | none, none => "hdr" ++ toString s.index

/-- Read a number that follows a word. -/
def numberAfter? (word s : String) : Option Nat :=
  if s.startsWith word then (String.ofList (s.toList.drop word.length)).toNat? else none

/-- Read an argument or local. -/
def ofText? (s : String) : Option Slot :=
  match numberAfter? "arg" s with
  | some i => some (ofArgument i)
  | none => (numberAfter? "loc" s).map ofLocal

end Slot

/-- Where in the source program a node comes from: a bytecode index, in an inlined function or, if
`inlineFrame` is `none`, in the outermost one. -/
structure Origin where
  bytecode : Nat
  inlineFrame : Option Nat := none
deriving DecidableEq, Repr, Inhabited

def Origin.text (o : Origin) : String :=
  "bc#" ++ toString o.bytecode ++
    match o.inlineFrame with
    | some f => "@if" ++ toString f
    | none => ""

structure InlineFrame where
  callee : String
  caller : Origin
deriving Repr, Inhabited

/-- What a consumer requires of a value. The `known` kinds need no check. -/
inductive UseKind where
  | untyped | int32 | knownInt32 | number | boolean | cell | knownCell | object | objectOrOther
  | string
deriving DecidableEq, Repr, Inhabited

namespace UseKind

def all : List UseKind :=
  [.untyped, .int32, .knownInt32, .number, .boolean, .cell, .knownCell, .object, .objectOrOther,
    .string]

def text : UseKind → String
  | untyped => "Untyped"
  | int32 => "Int32"
  | knownInt32 => "KnownInt32"
  | number => "Number"
  | boolean => "Boolean"
  | cell => "Cell"
  | knownCell => "KnownCell"
  | object => "Object"
  | objectOrOther => "ObjectOrOther"
  | string => "String"

def ofText? (s : String) : Option UseKind := all.find? fun k => k.text == s

/-- The kinds a value has once a use of this kind has executed. -/
def filter : UseKind → TypeSet
  | untyped => .top
  | int32 | knownInt32 => .int32
  | number => .number
  | boolean => .boolean
  | cell | knownCell => .cell
  | object => .object
  | objectOrOther => TypeSet.object.union .other
  | string => .string

end UseKind

abbrev NodeId := Nat
abbrev BlockId := Nat
abbrev VarId := Nat

structure Edge where
  node : NodeId
  kind : UseKind := .untyped
deriving DecidableEq, Repr, Inhabited

structure NodeFlags where
  /-- Consumers look at the low 32 bits only, so overflow needs no check. -/
  canTruncate : Bool := false
  /-- Consumers tell negative zero from zero. -/
  needsNegZero : Bool := false
  /-- Generate the node also if nothing uses it. -/
  mustGenerate : Bool := false
  canExit : Bool := false
deriving DecidableEq, Repr, Inhabited

def NodeFlags.union (a b : NodeFlags) : NodeFlags where
  canTruncate := a.canTruncate || b.canTruncate
  needsNegZero := a.needsNegZero || b.needsNegZero
  mustGenerate := a.mustGenerate || b.mustGenerate
  canExit := a.canExit || b.canExit

def NodeFlags.ofText? : String → Option NodeFlags
  | "CanTruncate" => some { canTruncate := true }
  | "NeedsNegZero" => some { needsNegZero := true }
  | "MustGenerate" => some { mustGenerate := true }
  | "CanExit" => some { canExit := true }
  | _ => none

/-- The element representation a heap access speculates on: boxed values or raw doubles in an
array, or the elements of a typed array or string. A hole among raw doubles is a NaN. -/
inductive ArrayMode where
  | contiguous | double | int32Array | float64Array | string
deriving DecidableEq, Repr, Inhabited

namespace ArrayMode

def all : List ArrayMode := [.contiguous, .double, .int32Array, .float64Array, .string]

def text : ArrayMode → String
  | contiguous => "Contiguous"
  | double => "Double"
  | int32Array => "Int32Array"
  | float64Array => "Float64Array"
  | string => "String"

def ofText? (s : String) : Option ArrayMode := all.find? fun m => m.text == s

def typeSet : ArrayMode → TypeSet
  | contiguous | double => .object
  | int32Array => .int32Array
  | float64Array => .float64Array
  | string => .string

end ArrayMode

inductive SwitchKind where
  | imm | string
deriving DecidableEq, Repr, Inhabited

def SwitchKind.ofText? : String → Option SwitchKind
  | "Imm" => some imm
  | "String" => some string
  | _ => none

inductive SwitchCase where
  | imm (i : Int32)
  | string (s : String)
deriving DecidableEq, Repr, Inhabited

structure SwitchData where
  kind : SwitchKind
  /-- Which of the code block's jump tables of this kind the switch goes through. -/
  table : Nat
  cases : List (SwitchCase × BlockId)
  fallthrough : BlockId
deriving DecidableEq, Repr, Inhabited

inductive BitOp where
  | and | or | xor | lShift | rShift | uRShift
deriving DecidableEq, Repr, Inhabited

/-- What a node computes. -/
inductive Op where
  | constant (v : Value)
  | doubleConstant (d : Double)
  | getLocal (v : VarId)
  | setLocal (v : VarId)
  /-- The local now holds the child's value, though it may not have been stored. -/
  | movHint (v : VarId)
  | flush (v : VarId)
  | phantom
  | phi (v : VarId)
  | arithAdd | arithSub | arithMul | arithNegate | arithDiv | arithMod
  | arithAbs | arithMin | arithMax | arithSqrt
  | valueAdd
  | bit (op : BitOp)
  | valueToInt32 | uint32ToNumber | int32ToDouble | doubleAsInt32
  | compare (op : Comparison)
  | logicalNot
  /-- Child: a cell, whose structure has to be one of the set. -/
  | checkStructure (set : List UInt64)
  | checkArray (mode : ArrayMode)
  | arrayify (mode : ArrayMode)
  | getStorage (mode : ArrayMode)
  /-- Children: base, index, storage. -/
  | getByVal (mode : ArrayMode)
  /-- Children: base, index, value, storage. -/
  | putByVal (mode : ArrayMode)
  /-- Children: base and, for arrays, storage. -/
  | getArrayLength (mode : ArrayMode)
  /-- Children: string, index, storage. -/
  | stringCharCodeAt
  | stringCharAt
  | getById (ident : Nat)
  | putById (ident : Nat)
  | checkHasInstance
  /-- Children: value, prototype. -/
  | instanceOf
  /-- Children: callee, this, further arguments. -/
  | call
  | jump (target : BlockId)
  | branch (taken notTaken : BlockId)
  | switch (data : SwitchData)
  | ret
  | throw
  | forceExit
deriving DecidableEq, Repr, Inhabited

namespace Op

/-- Does the node produce a value? -/
def hasResult : Op → Bool
  | setLocal _ | movHint _ | flush _ | phantom | phi _ | checkStructure _ | checkArray _
  | arrayify _ | putByVal _ | putById _ | checkHasInstance | jump _ | branch .. | switch _
  | ret | throw | forceExit => false
  | _ => true

def isConstant : Op → Bool
  | constant _ | doubleConstant _ => true
  | _ => false

/-- The value of a constant. -/
def value? : Op → Option Value
  | constant v => some v
  | doubleConstant d => some (.ofDouble d)
  | _ => none

/-- The value of a constant integer. -/
def int32? : Op → Option Int32
  | constant v => v.int32?
  | _ => none

def isTerminal : Op → Bool
  | jump _ | branch .. | switch _ | ret | throw => true
  | _ => false

def isCompare : Op → Bool
  | compare _ => true
  | _ => false

/-- Is the node generated whether or not its result is used? -/
def hasSideEffects (op : Op) : Bool :=
  !op.hasResult ||
    match op with
    | getById _ | call | valueAdd | getByVal _ => true
    | _ => false

end Op

structure Node where
  op : Op
  children : Array Edge := #[]
  /-- The frame slot the value is spilled to, if the node produces one. -/
  slot : Option Slot := none
  prediction : TypeSet := .empty
  /-- What was proven of the result beforehand. -/
  proven : TypeSet := .top
  flags : NodeFlags := {}
  origin : Origin
  /-- How many edges of generated nodes lead here. -/
  refCount : Nat := 0
  /-- For a node that may exit forward, the store of its value. -/
  forwardTarget : Option NodeId := none
deriving DecidableEq, Repr, Inhabited

namespace Node

def child (n : Node) (i : Nat) : Except Breach Edge := Breach.get n.children i

def shouldGenerate (n : Node) : Bool := 0 < n.refCount || n.flags.mustGenerate

end Node

/-- How a variable is kept in its frame slot: boxed with a known kind, or as a raw double. -/
inductive FlushFormat where
  | value | int32 | double | boolean | cell
deriving DecidableEq, Repr, Inhabited

namespace FlushFormat

def all : List FlushFormat := [.value, .int32, .double, .boolean, .cell]

def text : FlushFormat → String
  | value => "JSValue"
  | int32 => "Int32"
  | double => "Double"
  | boolean => "Boolean"
  | cell => "Cell"

def ofText? (s : String) : Option FlushFormat := all.find? fun f => f.text == s

def useKind : FlushFormat → UseKind
  | value => .untyped
  | int32 => .int32
  | double => .number
  | boolean => .boolean
  | cell => .cell

/-- What a value loaded from such a slot is known to be. -/
def proven? : FlushFormat → Option TypeSet
  | value => none
  | int32 => some .int32
  | double => some .number
  | boolean => some .boolean
  | cell => some .cell

end FlushFormat

structure Variable where
  operand : Slot
  prediction : TypeSet
  format : FlushFormat
deriving DecidableEq, Repr, Inhabited

structure Block where
  nodes : Array NodeId := #[]
  reachable : Bool := true
  /-- May execution enter at the start of this block? -/
  osrTarget : Bool := false
  /-- The variables that are live in their frame slots at the start. -/
  liveAtHead : Array VarId := #[]
deriving DecidableEq, Repr, Inhabited

/-- Program code takes no arguments and so has no arity check. -/
inductive GraphKind where
  | function | program
deriving DecidableEq, Repr, Inhabited

def GraphKind.ofText? : String → Option GraphKind
  | "Function" => some function
  | "Program" => some program
  | _ => none

structure Graph where
  name : String
  kind : GraphKind
  nodes : Array Node
  blocks : Array Block
  vars : Array Variable
  /-- The argument variables, `this` first. -/
  arguments : Array VarId
  identifiers : Array String
  inlineFrames : Array InlineFrame
  /-- How many locals the interpreter sees; those beyond are temporaries. -/
  numVars : Nat
  numLocals : Nat
  profiling : Bool
deriving Repr, Inhabited

namespace Graph

def node (g : Graph) (n : NodeId) : Except Breach Node := Breach.get g.nodes n

def block (g : Graph) (b : BlockId) : Except Breach Block := Breach.get g.blocks b

def op? (g : Graph) (n : NodeId) : Option Op := g.nodes[n]?.map Node.op

def int32Constant (g : Graph) (n : NodeId) : Except Breach (Option Int32) :=
  return (← g.node n).op.int32?

def valueConstant (g : Graph) (n : NodeId) : Except Breach (Option Value) :=
  return (← g.node n).op.value?

/-- The most arguments, `this` among them, that a call of the graph passes. A call without a callee
has no count. -/
def maxCallArgs (g : Graph) : Except Breach Nat :=
  g.nodes.foldlM (fun most n =>
    match n.op with
    | .call =>
      if n.children.isEmpty then .error .overflow else .ok (max most (n.children.size - 1))
    | _ => .ok most) 0

end Graph

end Speculation
