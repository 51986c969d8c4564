import Speculation.Machine.Assembler
import Speculation.JumpTable

/-!
# Linking

Once the address of the code is known, the recorded fields are filled in, and so are the jump
tables of the switches that the code contains.
-/

namespace Speculation

/-- The offset a label is attached to. -/
def Assembler.labelOffset (a : Assembler) (l : Label) : Except Failure Nat := do
  match ← Breach.lift (Breach.get a.labels l) with
  | some offset => return offset
  | none => .error (.compile (.internal (.labelUnattached l)))

namespace Link

/-- Write an address into the absolute field of the instruction at an offset. -/
def fillAddress (code : ByteArray) (offset : Nat) (i : Inst) (target : UInt64) :
    Except Failure ByteArray :=
  match i.abs64Field? with
  | some field => .ok (Bytes.overwrite code (offset + field) (Encoding.uint64 target))
  | none => .error (.compile (.internal (.noAbsoluteField i)))

/-- Write the distance to `target` into the relative field of an instruction. -/
def fillDistance (code : ByteArray) (r : Reloc) (i : Inst) (target : Except Failure Nat) :
    Except Failure ByteArray := do
  match i.rel32Field? with
  | none => .error (.compile (.internal (.noRelativeField i)))
  | some field =>
    let distance : Int := ((← target : Nat) : Int) - (r.offset + r.length : Nat)
    if distance < -2147483648 ∨ 2147483647 < distance then
      .error (.compile (.limit .jumpOutOfRange))
    else
      return Bytes.overwrite code (r.offset + field) (Encoding.int32 (Int32.ofInt distance))

/-- Fill in one field of code that will be at `base`. -/
def fillField (a : Assembler) (base : UInt64) (code : ByteArray) (r : Reloc) :
    Except Failure ByteArray := do
  match Inst.decodeAt code r.offset with
  | .error e => .error (.compile (.internal (.undecodable r.offset e)))
  | .ok (i, _) =>
    match r.target with
    | .label l => fillDistance code r i (a.labelOffset l)
    | .labelAddress l =>
      fillAddress code r.offset i (base + UInt64.ofNat (← a.labelOffset l))
    | .external t => fillAddress code r.offset i t.address

/-- The assembled code with every recorded field filled in. -/
def fillFields (a : Assembler) (base : UInt64) : Except Failure ByteArray :=
  a.relocs.foldlM (fillField a base) a.code

/-- A step of linking the tables of a code block. What is written before a failure stays. -/
abbrev TableLink := ExceptT Failure (StateM CodeBlock)

def fail {α : Type} (f : GraphFault) : TableLink α := throw (.compile (.graph f))

def address (a : BlockId → Except Failure UInt64) (b : BlockId) : TableLink UInt64 :=
  match a b with
  | .ok x => pure x
  | .error e => throw e

def modifyDense (table : Nat) (f : DenseTable → DenseTable) : TableLink Unit :=
  modify fun b => { b with dense := b.dense.modify table f }

/-- Set the entries of a dense table, case by case. Of two cases of one integer the last counts. -/
def linkDenseCases (blockAddress : BlockId → Except Failure UInt64) (table : Nat)
    (t : DenseTable) : List (SwitchCase × BlockId) → TableLink Unit
  | [] => pure ()
  | (.string _, _) :: _ => fail .stringCase
  | (.imm i, target) :: rest => do
    match (t.index? i).filter (· < t.length) with
    | none => fail (.caseOutside i table)
    | some k =>
      let x ← address blockAddress target
      modifyDense table fun t => { t with targets := t.targets.setIfInBounds k x }
      linkDenseCases blockAddress table t rest

/-- The targets of the cases of a string switch, the last first. Every case has to be a key. -/
def stringTargets (blockAddress : BlockId → Except Failure UInt64) (table : Nat)
    (t : StringTable) (found : List (String × UInt64)) :
    List (SwitchCase × BlockId) → TableLink (List (String × UInt64))
  | [] => pure found
  | (.imm _, _) :: _ => fail .integerCase
  | (.string s, target) :: rest => do
    if t.entries.any fun e => e.1 == s then
      let x ← address blockAddress target
      stringTargets blockAddress table t ((s, x) :: found) rest
    else fail (.caseMissing s table)

/-- Fill in the table of one switch. All entries without a case lead to the fallthrough block. -/
def linkSwitch (blockAddress : BlockId → Except Failure UInt64) (data : SwitchData) :
    TableLink Unit := do
  let fallthrough ← address blockAddress data.fallthrough
  match data.kind with
  | .imm =>
    match (← get).dense[data.table]? with
    | none => fail (.noJumpTable data.table)
    | some t =>
      modifyDense data.table fun t =>
        { t with targets := Array.replicate t.length fallthrough, default := fallthrough }
      linkDenseCases blockAddress data.table t data.cases
  | .string =>
    match (← get).strings[data.table]? with
    | none => fail (.noStringTable data.table)
    | some t =>
      let targets ← stringTargets blockAddress data.table t [] data.cases
      modify fun b =>
        { b with
          strings := b.strings.setIfInBounds data.table
            { entries := t.entries.map fun e => (e.1, (targets.lookup e.1).getD fallthrough)
              default := fallthrough } }

def linkSwitches (g : Graph) (blockAddress : BlockId → Except Failure UInt64) :
    List NodeId → TableLink Unit
  | [] => pure ()
  | n :: rest => do
    match g.op? n with
    | some (.switch data) => linkSwitch blockAddress data
    | _ => throw (.compile (.internal (.notSwitch n)))
    linkSwitches g blockAddress rest

/-- Does one of the switches go through this dense table? -/
def usesDense (g : Graph) (switches : List NodeId) (table : Nat) : Bool :=
  switches.any fun n =>
    match g.op? n with
    | some (.switch data) => data.kind == .imm && data.table == table
    | _ => false

/-- Fill in the tables of all switches. Dense tables that no switch uses are emptied, so that no
address of earlier code stays in one. -/
def linkTables (g : Graph) (blockAddress : BlockId → Except Failure UInt64)
    (switches : List NodeId) : TableLink Unit := do
  linkSwitches g blockAddress switches
  modify fun b =>
    { b with
      dense := b.dense.mapIdx fun i t =>
        if usesDense g switches i then t else { t with targets := #[] } }

end Link

end Speculation
