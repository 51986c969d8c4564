import Speculation.Lowering.Arith

/-!
# Heap accesses

Checks of structures and of array representations, indexed and named accesses, strings, and walks
along prototype chains.
-/

namespace Speculation
namespace Lowering

/-- The structure of a cell. -/
def structureOf (cell : Gpr) : Address := .ofBase cell (Int32.ofNat Layout.cellStructure)

/-- The indexing shape an array representation requires. -/
def indexingShape? : ArrayMode → Option UInt8
  | .contiguous => some Indexing.contiguous
  | .double => some Indexing.double
  | _ => none

def cellType? : ArrayMode → Option CellType
  | .int32Array => some .int32Array
  | .float64Array => some .float64Array
  | .string => some .string
  | _ => none

/-- Are the elements in an array's own storage? -/
def inArrayStorage (mode : ArrayMode) : Bool := (indexingShape? mode).isSome

/-- Compare the indexing shape of an object. -/
def compareShape (cell : Gpr) (shape : UInt8) : Lower Unit := do
  load64 .scratch (structureOf cell)
  load .w8 .scratch (.ofBase .scratch (Int32.ofNat Layout.structureIndexing))
  alu32 .and .scratch (.imm (Int32.ofNat Indexing.shapeMask.toNat))
  cmp32 .scratch (.imm (Int32.ofNat shape.toNat))

/-- Test the type flags of an object. -/
def testFlags (cell : Gpr) (flags : UInt8) : Lower Unit := do
  load64 .scratch (structureOf cell)
  load .w8 .scratch (.ofBase .scratch (Int32.ofNat Layout.structureFlags))
  test32 .scratch (.imm (Int32.ofNat flags.toNat))

/-- Compare the loaded structure with each of a set, leaving if it is none of them. -/
def guardStructures (t : Gpr) (ok : Label) : List UInt64 → Lower Unit
  | [] => pure ()
  | [s] => do
    discard (movImm t s)
    cmp64 .scratch (.reg t)
    guard' .badCache .ne
  | s :: rest => do
    discard (movImm t s)
    cmp64 .scratch (.reg t)
    jcc .e ok
    guardStructures t ok rest

def lowerCheckStructure (set : List UInt64) : Lower Unit := do
  let base ← child 0
  unless (← get).facts.isStructureChecked base.node set do
    if set.isEmpty then terminate .badCache
    let c ← fillCell base
    let t ← allocGpr
    let ok ← newLabel
    load64 .scratch (structureOf c.reg)
    guardStructures t ok set
    attach ok

def lowerCheckArray (mode : ArrayMode) : Lower Unit := do
  let base ← child 0
  unless ← assume ((← get).facts.isArrayValidated base.node mode) do
    unless ← mayBe base mode.typeSet do terminate .badType
    let c ← fillCell base
    match indexingShape? mode, cellType? mode with
    | some shape, _ =>
      compareShape c.reg shape
      guard' .badIndexingType .ne
    | none, some type =>
      unless ← provenIs base mode.typeSet do guardCellType c.reg type true .badType
    | none, none => pure ()

/-- Make sure that an object has the required elements, converting them in a slow path. -/
def lowerArrayify (mode : ArrayMode) : Lower Unit := do
  let target : Option (UInt8 × Helper) :=
    match mode with
    | .contiguous => some (Indexing.contiguous, .ensureContiguous)
    | .double => some (Indexing.double, .ensureDouble)
    | _ => none
  match target with
  | none => fail (.graph (.cannotArrayify mode))
  | some (shape, helper) =>
    let c ← fillCell (← child 0)
    let slow ← newLabel
    let done ← newLabel
    compareShape c.reg shape
    jcc .ne slow
    attach done
    addSlowPath slow done [] (.convert helper c.reg shape)

def lowerGetStorage : Lower Unit := do
  let c ← fillCell (← child 0)
  let r ← allocGpr
  load64 r (.ofBase c.reg (Int32.ofNat Layout.cellStorage))
  gprResult r .storage

def lengthOf (cell : Gpr) : Address := .ofBase cell (Int32.ofNat Layout.cellLength)

def lowerGetArrayLength (mode : ArrayMode) : Lower Unit := do
  let r ← allocGpr
  if inArrayStorage mode then
    let st ← fillStorage (← child 1)
    load .w32 r (.ofBase st Layout.publicLength)
  else
    let c ← fillCell (← child 0)
    load .w32 r (lengthOf c.reg)
  gprResult r .int32

/-- Leave unless a raw index is in bounds. The comparison is unsigned, so a negative index is out of
bounds as well. -/
def guardBounds (mode : ArrayMode) (base storage index : Gpr) : Lower Unit := do
  if inArrayStorage mode then load .w32 .scratch (.ofBase storage Layout.publicLength)
  else load .w32 .scratch (lengthOf base)
  cmp32 index (.reg .scratch)
  guard' .outOfBounds .ae

/-- Fill a string, an index into it and its units, and check the index. The string itself is not
needed any further, so its register is free again. -/
def stringAccess : Lower (Gpr × Gpr) := do
  let s ← fillString (← child 0)
  let i ← fillStrictInt (← child 1)
  let st ← fillStorage (← child 2)
  load .w32 .scratch (lengthOf s.reg)
  cmp32 i.reg (.reg .scratch)
  guard' .outOfBounds .ae
  unlockGpr s.reg
  return (i.reg, st)

def lowerCharCodeAt : Lower Unit := do
  let (i, st) ← stringAccess
  let r ← allocGpr
  load .w16 r (.indexed st i 1 0)
  gprResult r .int32

/-- The string of one unit: from the table of small ones, or made by a helper. -/
def lowerCharAt : Lower Unit := do
  let (i, st) ← stringAccess
  let r ← allocGpr
  let slow ← newLabel
  let done ← newLabel
  load .w16 .scratch (.indexed st i 1 0)
  cmp32 .scratch (.imm 0x100)
  jcc .ae slow
  discard (movImm r (← read).context)
  load64 r (.ofBase r (Int32.ofNat Context.singleCharacters))
  load64 r (.indexed r .scratch 3 0)
  attach done
  addSlowPath slow done [r] (.call .singleCharacterString [.gpr .scratch] (some r))
  gprResult r .jsCell

/-- Load an element. A hole is an empty value among boxed elements and a NaN among doubles. -/
def lowerGetByVal (mode : ArrayMode) : Lower Unit := do
  if mode = .string then lowerCharAt
  else
    let b ← fillCell (← child 0)
    let i ← fillStrictInt (← child 1)
    let st ← fillStorage (← child 2)
    guardBounds mode b.reg st i.reg
    match mode with
    | .contiguous =>
      let r ← allocGpr
      load64 r (.indexed st i.reg 3 0)
      test64 r (.reg r)
      guard' .loadFromHole .e
      gprResult r .js
    | .double =>
      let f ← allocFpr
      emit' (.loadD f (.indexed st i.reg 3 0))
      emit' (.dcmp f f)
      guard' .loadFromHole .dUnordered
      fprResult f
    | .int32Array =>
      let r ← allocGpr
      load .w32 r (.indexed st i.reg 2 0)
      gprResult r .int32
    | .float64Array =>
      let f ← allocFpr
      emit' (.loadD f (.indexed st i.reg 3 0))
      fprResult f
    | .string => internal (.loweredElsewhere mode)

/-- Store an element. A NaN among doubles would be a hole. -/
def lowerPutByVal (mode : ArrayMode) : Lower Unit := do
  if mode = .string then terminate .badType
  let b ← fillCell (← child 0)
  let i ← fillStrictInt (← child 1)
  let st ← fillStorage (← child 3)
  let v ← child 2
  match mode with
  | .contiguous =>
    let j ← fillValue v
    guardBounds mode b.reg st i.reg
    store64 j.reg (.indexed st i.reg 3 0)
  | .double | .float64Array =>
    let f ← fillDouble v
    if mode = .double then
      emit' (.dcmp f f)
      guard' .badType .dUnordered
    guardBounds mode b.reg st i.reg
    emit' (.storeD f (.indexed st i.reg 3 0))
  | .int32Array =>
    let x ← fillInt v
    guardBounds mode b.reg st i.reg
    emit' (.store .w32 x.reg (.indexed st i.reg 2 0))
  | .string => internal (.loweredElsewhere mode)

/-- The structure check of an inline cache. The expected structure starts as zero, which no object
has, and is patched in when the cache is filled; the result is the offset of that immediate. -/
def cacheCheck (base tmp : Gpr) (slow : Label) : Lower Nat := do
  load64 .scratch (structureOf base)
  let imm ← movImm tmp 0
  cmp64 .scratch (.reg tmp)
  jcc .ne slow
  return imm

def isCellUse (e : Edge) : Bool := e.kind = .cell || e.kind = .knownCell

def addCache (kind : CacheKind) (ident structureImm access : Nat) (base expected value : Gpr) :
    Lower Unit := do
  let origin := (← currentNode).origin
  modify fun s =>
    { s with
      caches := s.caches.push { kind, ident, structureImm, access, origin, base, expected, value } }

/-- The first inline property of a cell. -/
def propertyOf (cell : Gpr) : Address := .ofBase cell (Int32.ofNat Layout.inlineStorage)

def lowerGetById (ident : Nat) : Lower Unit := do
  let base ← child 0
  let name : Argument := .imm (UInt64.ofNat ident)
  if isCellUse base then
    let b ← fillCell base
    let r ← allocGpr
    let slow ← newLabel
    let done ← newLabel
    let imm ← cacheCheck b.reg r slow
    let access ← emit (.load .w64 false r (propertyOf b.reg))
    attach done
    addCache .getById ident imm access b.reg r r
    addSlowPath slow done [r] (.call .getById [.gpr b.reg, name] (some r))
    gprResult r .js
  else
    let j ← fillValue base
    callHelper .getByIdGeneric [.gpr j.reg, name]
    valueResult [j.reg]

def lowerPutById (ident : Nat) : Lower Unit := do
  let base ← child 0
  let value ← child 1
  let name : Argument := .imm (UInt64.ofNat ident)
  if isCellUse base then
    let b ← fillCell base
    let v ← fillValue value
    let t ← allocGpr
    let slow ← newLabel
    let done ← newLabel
    let imm ← cacheCheck b.reg t slow
    let access ← emit (.store .w64 v.reg (propertyOf b.reg))
    attach done
    addCache .putById ident imm access b.reg t v.reg
    addSlowPath slow done [] (.call .putById [.gpr b.reg, name, .gpr v.reg] none)
  else
    let jb ← fillValue base
    let jv ← fillValue value
    callHelper .putById [.gpr jb.reg, name, .gpr jv.reg]

def lowerCheckHasInstance : Lower Unit := do
  let c ← fillCell (← child 0)
  testFlags c.reg TypeFlag.defaultHasInstance
  guard' .badType .e

/-- Walk the prototype chain of a cell in search of a prototype. A prototype that is no cell ends the
chain. -/
def walkPrototypes (r cell proto : Gpr) (isTrue isFalse done : Label) : Lower Unit := do
  load64 r (structureOf cell)
  let loop ← here
  load64 r (.ofBase r (Int32.ofNat Layout.structurePrototype))
  cmp64 r (.reg proto)
  jcc .e isTrue
  test64 r (.reg .tagMask)
  jcc .ne isFalse
  load64 r (structureOf r)
  jmp loop
  attach isTrue
  discard (movImm r Value.trueBits)
  jmp done
  attach isFalse
  discard (movImm r Value.falseBits)
  attach done
  gprResult r .jsBoolean

def lowerInstanceOf : Lower Unit := do
  let v ← child 0
  let p ← child 1
  let proto ← fillCell p
  let r ← allocGpr
  let isTrue ← newLabel
  let isFalse ← newLabel
  let done ← newLabel
  if isCellUse v || (← provenIs v .cell) then
    walkPrototypes r (← fillCell v).reg proto.reg isTrue isFalse done
  else
    let j ← fillValue v
    test64 j.reg (.reg .tagMask)
    jcc .ne isFalse
    walkPrototypes r j.reg proto.reg isTrue isFalse done

end Lowering

end Speculation
