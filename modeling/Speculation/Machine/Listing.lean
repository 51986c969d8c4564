import Speculation.Breach
import Speculation.Machine.Encoding
import Speculation.Machine.Convention

/-!
# Instruction listings

The text of an instruction, and listings of whole code. A branch is written with its own
displacement unless the writer knows a better name for its target.
-/

namespace Speculation

def AluOp.text : AluOp → String
  | .add => "add"
  | .sub => "sub"
  | .mul => "mul"
  | .and => "and"
  | .or => "or"
  | .xor => "xor"
  | .shl => "shl"
  | .sar => "sar"
  | .shr => "shr"

def DoubleOp.text : DoubleOp → String
  | .add => "add"
  | .sub => "sub"
  | .mul => "mul"
  | .div => "div"
  | .min => "min"
  | .max => "max"

def DoubleUnary.text : DoubleUnary → String
  | .sqrt => "sqrt"
  | .abs => "abs"
  | .neg => "neg"

def Cond.text : Cond → String
  | .e => "e"
  | .ne => "ne"
  | .l => "l"
  | .le => "le"
  | .g => "g"
  | .ge => "ge"
  | .b => "b"
  | .be => "be"
  | .a => "a"
  | .ae => "ae"
  | .o => "o"
  | .no => "no"
  | .s => "s"
  | .ns => "ns"
  | .dEq => "deq"
  | .dNeOrUnordered => "dneorunordered"
  | .dLt => "dlt"
  | .dGeOrUnordered => "dgeorunordered"
  | .dLe => "dle"
  | .dGtOrUnordered => "dgtorunordered"
  | .dGt => "dgt"
  | .dLeOrUnordered => "dleorunordered"
  | .dGe => "dge"
  | .dLtOrUnordered => "dltorunordered"
  | .dUnordered => "dunordered"
  | .dOrdered => "dordered"

def Width.text (w : Width) : String := toString (8 * w.bytes)

def Size.text : Size → String
  | .s32 => "32"
  | .s64 => "64"

def Address.text (a : Address) : String :=
  let index :=
    match a.index with
    | some (i, scale) => "+" ++ i.text ++ "*" ++ toString (1 <<< scale.val)
    | none => ""
  let disp := if a.disp = 0 then "" else Hex.signed "+" a.disp.toInt
  "[" ++ a.base.text ++ index ++ disp ++ "]"

def Operand.text : Operand → String
  | .reg r => r.text
  | .imm i => Hex.signed "" i.toInt

/-- An absolute target: the name of a helper or thunk, or the plain address. -/
def targetText (a : UInt64) : String :=
  match ExternalTarget.at? a with
  | some t => t.text
  | none => Hex.number a.toNat

namespace Inst

/-- The text of an instruction, `target` standing in for its own branch or call target. -/
def render (i : Inst) (target : Option String := none) : String :=
  let aimed (own : String) : String := target.getD own
  let relative (rel : Int32) : String := aimed (Hex.signed "+" rel.toInt)
  let two (name a b : String) : String := name ++ " " ++ a ++ ", " ++ b
  match i with
  | nop => "nop"
  | breakpoint => "brk"
  | ret => "ret"
  | mov dst src => two "mov" dst.text src.text
  | zext32 dst src => two "zext32" dst.text src.text
  | movImm dst imm => two "mov" dst.text (aimed (Hex.number imm.toNat))
  | load width signed dst addr =>
    two ("load" ++ width.text ++ if signed then "s" else "") dst.text addr.text
  | store width src addr => two ("store" ++ width.text) addr.text src.text
  | loadD dst addr => two "loadd" dst.text addr.text
  | storeD src addr => two "stored" addr.text src.text
  | loadDConst dst rel => two "loaddc" dst.text (relative rel)
  | alu size op dst src => two (op.text ++ size.text) dst.text src.text
  | neg32 dst => "neg32 " ++ dst.text
  | div32 rem dst src => two (if rem then "rem32" else "div32") dst.text src.text
  | cmp size lhs rhs => two ("cmp" ++ size.text) lhs.text rhs.text
  | test size lhs rhs => two ("test" ++ size.text) lhs.text rhs.text
  | setCond cond dst => "set" ++ cond.text ++ " " ++ dst.text
  | jcc cond rel => "j" ++ cond.text ++ " " ++ relative rel
  | jmp rel => "jmp " ++ relative rel
  | jmpAbs t => "jmpabs " ++ aimed (targetText t)
  | jmpReg src => "jmp " ++ src.text
  | jmpTable table index => two "jmptable" (toString table.toNat) index.text
  | call t => "call " ++ aimed (targetText t)
  | setExit index => "setexit " ++ toString index.toNat
  | watchpoint id => "watchpoint " ++ toString id.toNat
  | dalu op dst src => two (op.text ++ "d") dst.text src.text
  | dunary op dst src => two (op.text ++ "d") dst.text src.text
  | dmov dst src => two "movd" dst.text src.text
  | dcmp lhs rhs => two "cmpd" lhs.text rhs.text
  | cvtIntToD dst src => two "cvti2d" dst.text src.text
  | cvtDToInt dst src => two "cvttd2i" dst.text src.text
  | movGToD dst src => two "movgd" dst.text src.text
  | movDToG dst src => two "movdg" dst.text src.text

/-- The displacement of an instruction that refers to a place in the code. -/
def displacement? : Inst → Option Int32
  | jcc _ rel | jmp rel | loadDConst _ rel => some rel
  | _ => none

end Inst

def DecodeError.message (e : DecodeError) : String :=
  let place := "at offset " ++ toString e.offset
  match e.fault with
  | .truncated => "Truncated instruction " ++ place
  | .invalidOpcode b => "Invalid opcode 0x" ++ Hex.padded 2 b.toNat ++ " " ++ place
  | .invalidOperand => "Invalid operand in instruction " ++ place

/-- The class of the error. -/
def DecodeError.title (e : DecodeError) : String :=
  match e.fault with
  | .truncated => "Truncated"
  | .invalidOpcode _ => "InvalidOpcode"
  | .invalidOperand => "InvalidOperand"

/-- One line of a listing: where it starts, how many bytes it stands for, and what it holds. -/
inductive ListingEntry where
  | inst (offset length : Nat) (inst : Inst)
  | data (offset length : Nat)
deriving Repr

namespace Listing

/-- Split code into instructions up to the first offset that does not decode; all that is left is
data. -/
def split (code : ByteArray) (offset : Nat) : Nat → List ListingEntry
  | 0 => []
  | fuel + 1 =>
    if code.size ≤ offset then []
    else
      match Inst.decodeAt code offset with
      | .ok (inst, length) => .inst offset length inst :: split code (offset + length) fuel
      | .error _ => [.data offset (code.size - offset)]

def entries (code : ByteArray) : List ListingEntry := split code 0 code.size

/-- The offset in the code that a displacement at an address aims at. Both the addresses and the
offset have to stay in the range of words: a target before the start of the code has no offset. -/
def targetOffset (base : UInt64) (offset length : Nat) (rel : Int32) : Except Breach Nat :=
  if UInt64.size ≤ base.toNat + offset + length then .error .overflow
  else
    let target : Int := ((base.toNat + offset + length : Nat) + rel.toInt) % UInt64.size
    if target < base.toNat then .error .overflow else .ok (target - base.toNat).toNat

/-- The text of an entry of code that starts at `base`, with its address and offset in front if
`addresses`. -/
def line (base : UInt64) (addresses : Bool) (e : ListingEntry) : Except Breach String := do
  let place (offset : Nat) : Except Breach String :=
    if UInt64.size ≤ base.toNat + offset then .error .overflow
    else .ok <| if addresses then
        Hex.padded 16 (base.toNat + offset) ++ " " ++ Hex.padded 5 offset ++ ": "
      else ""
  match e with
  | .inst offset length inst =>
    let start ← place offset
    match inst.displacement? with
    | some rel =>
      let target ← targetOffset base offset length rel
      return start ++ inst.render (some (Hex.number target))
    | none => return start ++ inst.render
  | .data offset length => return (← place offset) ++ ".data " ++ toString length ++ " bytes"

/-- The listing of code that starts at `base`. -/
def disassemble (code : ByteArray) (base : UInt64) (addresses : Bool) :
    Except Breach (List String) :=
  (entries code).mapM (line base addresses)

end Listing

end Speculation
