import Speculation.Lowering.Guard

/-!
# Filling operands

An operand is brought into a register in the representation its consumer needs. Where the facts
do not already prove it, a guard checks that the value has the required kind. The register of a
filled operand is locked.
-/

namespace Speculation
namespace Lowering

/-- A value in a general purpose register. -/
structure GprOperand where
  reg : Gpr
  format : DataFormat
deriving Repr

/-- Where a node's value is. -/
def locate (n : NodeId) : Lower Residence := do
  match ← assume ((← graph).valueConstant n) with
  | some v => return .constant v
  | none =>
    let x ← info n
    if !x.isAlive then internal (.notLive n)
    else
      match x.location with
      | .gpr r => return .gpr r x.registerFormat
      | .fpr r => return .fpr r
      | .none => if x.isSpilled then return .spilled x.spillFormat else internal (.nowhere n)

/-- The value is now also in a register. -/
def bindGpr (n : NodeId) (r : Gpr) (format : DataFormat) : Lower Unit := do
  let s ← slotOf n
  let x ← assume ((← info n).fillGpr r format)
  setInfo n x
  modifyGprs (·.retain r s x.spillOrder)
  event (.fill n (.gpr r) format)

def bindFpr (n : NodeId) (r : Fpr) : Lower Unit := do
  let s ← slotOf n
  let x := (← info n).fillFpr r
  setInfo n x
  modifyFprs (·.retain r s x.spillOrder)
  event (.fill n (.fpr r) .double)

/-- The value in a register is now known, or was made, to be in another format. -/
def refine (n : NodeId) (r : Gpr) (format : DataFormat) : Lower Unit := do
  let x ← info n
  unless x.registerFormat = format do
    let y ← assume (x.fillGpr r format)
    setInfo n y
    modifyGprs (·.setOrder r y.spillOrder)
    event (.fill n (.gpr r) format)

/-- Load a spilled value. -/
def fillSpilledGpr (n : NodeId) (format : DataFormat) : Lower Gpr := do
  let r ← allocGpr
  let a := FrameLayout.address (← slotOf n)
  match format with
  | .int32 | .boolean => load .w32 r a
  | .double | .none => internal (.fillFormat format)
  | _ => load64 r a
  bindGpr n r format
  return r

def fillSpilledFpr (n : NodeId) : Lower Fpr := do
  let r ← allocFpr
  emit' (.loadD r (FrameLayout.address (← slotOf n)))
  bindFpr n r
  return r

/-- What is known of the value at an edge. -/
def proven (e : Edge) : Lower TypeSet := do assume ((← get).facts.provenOf e.node)

def provenIs (e : Edge) (t : TypeSet) : Lower Bool := return (← proven e).subset t

def mayBe (e : Edge) (t : TypeSet) : Lower Bool := return (← proven e).intersects t

/-- A value of known location in a register, made an integer. -/
def intFromGpr (e : Edge) (r : Gpr) (format : DataFormat) : Lower GprOperand := do
  match format with
  | .int32 | .jsInt32 => return ⟨r, format⟩
  | .js =>
    unless e.kind = .knownInt32 || (← provenIs e .int32) do
      cmp64 r (.reg .numberTag)
      guard' .badType .b
    refine e.node r .jsInt32
    return ⟨r, .jsInt32⟩
  | _ => terminate .badType

/-- Fill an integer, raw or boxed: its low half is the integer either way. -/
def fillInt (e : Edge) : Lower GprOperand := do
  unless ← mayBe e .int32 do terminate .badType
  match ← locate e.node with
  | .constant v =>
    match v.int32? with
    | some i =>
      let r ← allocGpr
      discard (movImm r i.toUInt32.toUInt64)
      return ⟨r, .int32⟩
    | none => terminate .badType
  | .gpr r format =>
    lockGpr r
    intFromGpr e r format
  | .fpr _ | .spilled .double => terminate .badType
  | .spilled format => intFromGpr e (← fillSpilledGpr e.node format) format

/-- Fill a raw integer, whose high half is clear. A register that someone else holds is not
changed. -/
def fillStrictInt (e : Edge) : Lower GprOperand := do
  let shared ←
    match ← locate e.node with
    | .gpr r _ => isLockedGpr r
    | _ => pure false
  let op ← fillInt e
  if op.format = .int32 then return op
  else if shared then
    let t ← allocGpr
    emit' (.zext32 t op.reg)
    unlockGpr op.reg
    return ⟨t, .int32⟩
  else
    emit' (.zext32 op.reg op.reg)
    refine e.node op.reg .int32
    return ⟨op.reg, .int32⟩

/-- A value in a general purpose register, as a double. -/
def doubleFromGpr (e : Edge) (r : Gpr) (format : DataFormat) : Lower Fpr := do
  match format with
  | .int32 | .jsInt32 =>
    let f ← allocFpr
    emit' (.cvtIntToD f r)
    return f
  | .js | .jsDouble =>
    let f ← allocFpr
    let isInt ← newLabel
    let done ← newLabel
    if format = .js then
      cmp64 r (.reg .numberTag)
      jcc .ae isInt
      unless ← provenIs e .number do
        test64 r (.reg .numberTag)
        guard' .badType .e
    mov .scratch r
    alu64 .add .scratch (.reg .numberTag)
    emit' (.movGToD f .scratch)
    if format = .js then
      jmp done
      attach isInt
      emit' (.cvtIntToD f r)
      attach done
    return f
  | _ => terminate .badType

/-- Fill a double, converting an integer. -/
def fillDouble (e : Edge) : Lower Fpr := do
  unless ← mayBe e .number do terminate .badType
  match ← locate e.node with
  | .constant v =>
    match v.number? with
    | some d =>
      let f ← allocFpr
      loadDoubleConstant f d
      return f
    | none => terminate .badType
  | .fpr r =>
    lockFpr r
    return r
  | .spilled .double => fillSpilledFpr e.node
  | .gpr r format =>
    lockGpr r
    let f ← doubleFromGpr e r format
    unlockGpr r
    return f
  | .spilled format =>
    let r ← fillSpilledGpr e.node format
    let f ← doubleFromGpr e r format
    unlockGpr r
    return f

def cellFromGpr (e : Edge) (r : Gpr) (format : DataFormat) : Lower GprOperand := do
  match format with
  | .cell | .jsCell => return ⟨r, format⟩
  | .js =>
    unless e.kind = .knownCell || (← provenIs e .cell) do
      test64 r (.reg .tagMask)
      guard' .badType .ne
    refine e.node r .jsCell
    return ⟨r, .jsCell⟩
  | _ => terminate .badType

/-- Fill a cell. -/
def fillCell (e : Edge) : Lower GprOperand := do
  unless ← mayBe e .cell do terminate .badType
  match ← locate e.node with
  | .constant v =>
    match v.cell? with
    | some c =>
      let r ← allocGpr
      discard (movImm r c)
      return ⟨r, .jsCell⟩
    | none => terminate .badType
  | .gpr r format =>
    lockGpr r
    cellFromGpr e r format
  | .fpr _ | .spilled .double => terminate .badType
  | .spilled format => cellFromGpr e (← fillSpilledGpr e.node format) format

/-- Leave unless the cell has (or, if not `want`, has not) the given type. -/
def guardCellType (cell : Gpr) (type : CellType) (want : Bool) (kind : ExitKind) : Lower Unit := do
  load64 .scratch (.ofBase cell (Int32.ofNat Layout.cellStructure))
  load .w8 .scratch (.ofBase .scratch (Int32.ofNat Layout.structureCellType))
  cmp32 .scratch (.imm (Int32.ofNat type.code.toNat))
  guard' kind (if want then .ne else .e)

/-- Fill a cell that is no string. -/
def fillObject (e : Edge) : Lower GprOperand := do
  unless ← mayBe e .object do terminate .badType
  let c ← fillCell e
  unless ← provenIs e .object do guardCellType c.reg .string false .badType
  return c

/-- Fill a cell that is a string. -/
def fillString (e : Edge) : Lower GprOperand := do
  unless ← mayBe e .string do terminate .badType
  let c ← fillCell e
  unless ← provenIs e .string do guardCellType c.reg .string true .badType
  return c

/-- A boxed boolean has all bits but the lowest in common with false. The check is made in place,
and undone by its exit, unless someone else holds the register. -/
def booleanFromGpr (e : Edge) (r : Gpr) (format : DataFormat) (shared : Bool) :
    Lower GprOperand := do
  match format with
  | .boolean | .jsBoolean => return ⟨r, format⟩
  | .js =>
    if ← provenIs e .boolean then
      refine e.node r .jsBoolean
      return ⟨r, .jsBoolean⟩
    else if shared then
      mov .scratch r
      alu64 .xor .scratch falseImm
      test64 .scratch (.imm (-2))
      guard' .badType .ne
      refine e.node r .jsBoolean
      return ⟨r, .jsBoolean⟩
    else
      alu64 .xor r falseImm
      test64 r (.imm (-2))
      guardUndo .badType .ne (.boolean r)
      refine e.node r .boolean
      return ⟨r, .boolean⟩
  | _ => terminate .badType

/-- Fill a boolean, raw or boxed: its lowest bit is the truth value either way. -/
def fillBoolean (e : Edge) : Lower GprOperand := do
  unless ← mayBe e .boolean do terminate .badType
  match ← locate e.node with
  | .constant v =>
    match v.boolean? with
    | some b =>
      let r ← allocGpr
      discard (movImm r (Value.ofBool b).bits)
      return ⟨r, .jsBoolean⟩
    | none => terminate .badType
  | .gpr r format =>
    let shared ← isLockedGpr r
    lockGpr r
    booleanFromGpr e r format shared
  | .fpr _ | .spilled .double => terminate .badType
  | .spilled format => booleanFromGpr e (← fillSpilledGpr e.node format) format false

/-- Fill the storage of an object. Only storage can be used as such. -/
def fillStorage (e : Edge) : Lower Gpr := do
  match ← locate e.node with
  | .gpr r .storage =>
    lockGpr r
    return r
  | .spilled .storage => fillSpilledGpr e.node .storage
  | r => internal (.notStorage e.node r)

/-- Box a raw value by combining it with a tag. A register that someone else holds is not
changed. -/
def boxGpr (n : NodeId) (r : Gpr) (shared : Bool) (tag : Operand) (boxed : DataFormat) :
    Lower GprOperand := do
  if shared then
    let t ← allocGpr
    mov t r
    alu64 .or t tag
    unlockGpr r
    return ⟨t, boxed⟩
  else
    alu64 .or r tag
    refine n r boxed
    return ⟨r, boxed⟩

def boxInt (n : NodeId) (r : Gpr) (shared : Bool) : Lower GprOperand :=
  boxGpr n r shared (.reg .numberTag) .jsInt32

def boxBoolean (n : NodeId) (r : Gpr) (shared : Bool) : Lower GprOperand :=
  boxGpr n r shared falseImm .jsBoolean

/-- Fill a boxed value. -/
def fillValue (e : Edge) : Lower GprOperand := do
  let n := e.node
  match ← locate n with
  | .constant v =>
    let r ← allocGpr
    discard (movImm r v.bits)
    return ⟨r, .js⟩
  | .gpr r format =>
    let shared ← isLockedGpr r
    lockGpr r
    match format with
    | .js | .jsInt32 | .jsDouble | .jsCell | .jsBoolean => return ⟨r, format⟩
    | .cell =>
      refine n r .jsCell
      return ⟨r, .jsCell⟩
    | .int32 => boxInt n r shared
    | .boolean => boxBoolean n r shared
    | .double | .storage | .none => internal (.cannotBox n format)
  | .fpr f =>
    lockFpr f
    let t ← allocGpr
    emit' (.movDToG t f)
    alu64 .sub t (.reg .numberTag)
    unlockFpr f
    return ⟨t, .jsDouble⟩
  | .spilled .double =>
    let t ← allocGpr
    load64 t (FrameLayout.address (← slotOf n))
    alu64 .sub t (.reg .numberTag)
    return ⟨t, .jsDouble⟩
  | .spilled format =>
    let r ← fillSpilledGpr n format
    match format with
    | .int32 => boxInt n r false
    | .boolean => boxBoolean n r false
    | .cell =>
      refine n r .jsCell
      return ⟨r, .jsCell⟩
    | _ => return ⟨r, format⟩

end Lowering

end Speculation
