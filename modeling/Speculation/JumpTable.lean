import Speculation.CompileError

/-!
# Code blocks and their jump tables

A code block describes a function to all tiers of the system. It owns the jump tables of its
switches, which compiled code fills in when it is linked: dense tables over a range of integers,
and tables keyed by strings.
-/

namespace Speculation

/-- Entry `i` of the table is the target for `min + i`. There are no targets before the table is
linked. -/
structure DenseTable where
  min : Int32
  length : Nat
  targets : Array UInt64 := #[]
  default : UInt64 := 0
deriving DecidableEq, Repr, Inhabited

/-- The keys are fixed; linking changes only their targets. -/
structure StringTable where
  entries : List (String × UInt64)
  default : UInt64 := 0
deriving DecidableEq, Repr, Inhabited

structure CodeBlock where
  name : String
  /-- The number of declared parameters, `this` among them. -/
  numParameters : Nat
  dense : Array DenseTable := #[]
  strings : Array StringTable := #[]
deriving DecidableEq, Repr, Inhabited

/-- A table over `keys`, each key once. -/
def StringTable.ofKeys (keys : List String) : StringTable :=
  { entries := keys.eraseDups.map fun k => (k, 0) }

def DenseTable.index? (t : DenseTable) (i : Int32) : Option Nat :=
  let d := i.toInt - t.min.toInt
  if d < 0 then none else some d.toNat

namespace CodeBlock

def addDense (b : CodeBlock) (min : Int32) (length : Nat) : CodeBlock :=
  { b with dense := b.dense.push { min, length } }

def addStrings (b : CodeBlock) (keys : List String) : CodeBlock :=
  { b with strings := b.strings.push (.ofKeys keys) }

def setTargets (b : CodeBlock) (table : Nat) (targets : Array UInt64) : CodeBlock :=
  { b with dense := b.dense.modify table fun t => { t with targets } }

/-- Set the target of a key, adding the key if it is new. -/
def setStringTarget (b : CodeBlock) (table : Nat) (key : String) (target : UInt64) : CodeBlock :=
  { b with
    strings := b.strings.modify table fun t =>
      { t with entries := (key, target) :: t.entries.filter fun e => e.1 != key } }

def setStringDefault (b : CodeBlock) (table : Nat) (target : UInt64) : CodeBlock :=
  { b with strings := b.strings.modify table fun t => { t with default := target } }

/-- The target for an integer, if the table is linked and covers it. -/
def denseTarget? (b : CodeBlock) (table : Nat) (i : Int32) : Option UInt64 := do
  let t ← b.dense[table]?
  t.targets[← t.index? i]?

/-- The target for a string, which is the default for one that is no key. -/
def stringTarget? (b : CodeBlock) (table : Nat) (key : String) : Option UInt64 :=
  b.strings[table]?.map fun t => (t.entries.lookup key).getD t.default

end CodeBlock

end Speculation
