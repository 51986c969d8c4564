import Speculation.Graph.Basic
import Speculation.Text.Lines

/-!
# Graph listings

One line for the graph, one for each block, and one for each node with its operation, children,
slot, prediction, use count and origin.
-/

namespace Speculation

def BitOp.text : BitOp → String
  | .and => "BitAnd"
  | .or => "BitOr"
  | .xor => "BitXor"
  | .lShift => "BitLShift"
  | .rShift => "BitRShift"
  | .uRShift => "BitURShift"

def Comparison.text : Comparison → String
  | .less => "CompareLess"
  | .lessEq => "CompareLessEq"
  | .greater => "CompareGreater"
  | .greaterEq => "CompareGreaterEq"
  | .eq => "CompareEq"
  | .strictEq => "CompareStrictEq"

/-- The name of an operation, without its data. -/
def Op.name : Op → String
  | .constant _ => "JSConstant"
  | .doubleConstant _ => "DoubleConstant"
  | .getLocal _ => "GetLocal"
  | .setLocal _ => "SetLocal"
  | .movHint _ => "MovHint"
  | .flush _ => "Flush"
  | .phantom => "Phantom"
  | .phi _ => "Phi"
  | .arithAdd => "ArithAdd"
  | .arithSub => "ArithSub"
  | .arithMul => "ArithMul"
  | .arithNegate => "ArithNegate"
  | .arithDiv => "ArithDiv"
  | .arithMod => "ArithMod"
  | .arithAbs => "ArithAbs"
  | .arithMin => "ArithMin"
  | .arithMax => "ArithMax"
  | .arithSqrt => "ArithSqrt"
  | .valueAdd => "ValueAdd"
  | .bit op => op.text
  | .valueToInt32 => "ValueToInt32"
  | .uint32ToNumber => "UInt32ToNumber"
  | .int32ToDouble => "Int32ToDouble"
  | .doubleAsInt32 => "DoubleAsInt32"
  | .compare op => op.text
  | .logicalNot => "LogicalNot"
  | .checkStructure _ => "CheckStructure"
  | .checkArray _ => "CheckArray"
  | .arrayify _ => "Arrayify"
  | .getStorage _ => "GetIndexedPropertyStorage"
  | .getByVal _ => "GetByVal"
  | .putByVal _ => "PutByVal"
  | .getArrayLength _ => "GetArrayLength"
  | .stringCharCodeAt => "StringCharCodeAt"
  | .stringCharAt => "StringCharAt"
  | .getById _ => "GetById"
  | .putById _ => "PutById"
  | .checkHasInstance => "CheckHasInstance"
  | .instanceOf => "InstanceOf"
  | .call => "Call"
  | .jump _ => "Jump"
  | .branch .. => "Branch"
  | .switch _ => "Switch"
  | .ret => "Return"
  | .throw => "Throw"
  | .forceExit => "ForceOSRExit"

/-- The operations that carry no data, which a name alone determines. -/
def Op.plain : List Op :=
  [.phantom, .arithAdd, .arithSub, .arithMul, .arithNegate, .arithDiv, .arithMod, .arithAbs,
    .arithMin, .arithMax, .arithSqrt, .valueAdd, .bit .and, .bit .or, .bit .xor, .bit .lShift,
    .bit .rShift, .bit .uRShift, .valueToInt32, .uint32ToNumber, .int32ToDouble, .doubleAsInt32,
    .logicalNot, .stringCharCodeAt, .stringCharAt, .checkHasInstance, .instanceOf, .call, .ret,
    .throw, .forceExit] ++ Comparison.all.map Op.compare

def Op.ofName? (s : String) : Option Op := plain.find? fun op => op.name == s

def Edge.text (e : Edge) : String :=
  let node := "@" ++ toString e.node
  if e.kind = .untyped then node else e.kind.text ++ ":" ++ node

namespace Graph

def blockName (b : BlockId) : String := "bb" ++ toString b

def operationText (g : Graph) (n : Node) : String :=
  let args := ", ".intercalate (n.children.toList.map Edge.text)
  let operand (v : VarId) : String := (g.vars[v]?.map fun x => x.operand.text).getD ""
  match n.op with
  | .constant v => "JSConstant(" ++ v.text ++ ")"
  | .doubleConstant d => "DoubleConstant(" ++ d.debugText ++ ")"
  | .getLocal v | .setLocal v | .movHint v | .flush v | .phi v =>
    n.op.name ++ "(" ++ operand v ++ ", " ++ args ++ ")"
  | .jump t => "Jump(" ++ blockName t ++ ")"
  | .branch t f => "Branch(" ++ args ++ ", " ++ blockName t ++ ", " ++ blockName f ++ ")"
  | op => op.name ++ "(" ++ args ++ ")"

def nodeLine (g : Graph) (id : NodeId) (n : Node) : String :=
  let slot :=
    match n.slot with
    | some s => " -> " ++ s.text
    | none => ""
  "  @" ++ toString id ++ ": " ++ g.operationText n ++ slot ++
    " [" ++ n.prediction.text ++ ", rc=" ++ toString n.refCount ++ ", " ++ n.origin.text ++ "]"

def blockLines (g : Graph) (id : BlockId) (b : Block) : List String :=
  (blockName id ++ ":" ++ (if b.reachable then "" else " unreachable") ++
    if b.osrTarget then " osr-target" else "") ::
  b.nodes.toList.filterMap fun n => g.nodes[n]?.map (g.nodeLine n)

/-- The head of the listing. -/
def headText (g : Graph) : String :=
  "; " ++ g.name ++ " (" ++ toString g.arguments.size ++ " args, " ++ toString g.numVars ++
    " vars, " ++ toString g.numLocals ++ " locals)"

/-- The lines of the listing. The name in its head may hold line breaks. -/
def lines (g : Graph) : List String :=
  Lines.split g.headText ++ (g.blocks.toList.zipIdx.map fun (b, i) => g.blockLines i b).flatten

end Graph

end Speculation
