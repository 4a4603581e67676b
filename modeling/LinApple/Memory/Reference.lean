import LinApple.Lib.Machine
import LinApple.Memory.Paging

/-!
# The reference memory

What bank-switched memory is for, with no image, no copies and no dirty
marks: 64 K of main RAM, 64 K of auxiliary RAM, a ROM, and two maps from
addresses to cells that the switches select – one for reading and one for
writing. Language card bank 1 has no cells of its own: it is the RAM behind
`$C000-$CFFF` of its bank, which nothing else reaches.

Both memories are machines over the same accesses, and a read is the only
access that shows anything.
-/

namespace LinApple.Memory

/-- **A cell of the reference memory.** -/
inductive Loc where
  /-- A byte of main RAM. -/
  | main (a : UInt16)
  /-- A byte of auxiliary RAM. -/
  | aux (a : UInt16)
  /-- A byte of ROM. -/
  | rom (a : UInt16)
deriving DecidableEq, Repr

/-- The byte of one of the two banks of RAM. -/
def ramLoc (aux : Bool) (a : UInt16) : Loc := if aux then .aux a else .main a

/-- The language card RAM behind an address from `$D000` up. -/
def lcLoc (m : MemMode) (a : UInt16) : Loc :=
  if a.toNat < 0xE000 && !m.hramBank2 then ramLoc m.altzp (a - 0x1000)
  else ramLoc m.altzp a

/-- Whether an address is of a display page, which `80STORE` puts under
`PAGE2`. -/
def isDisplay (m : MemMode) (a : UInt16) : Bool :=
  (0x400 ≤ a.toNat && a.toNat < 0x800)
    || (m.hires && (0x2000 ≤ a.toNat && a.toNat < 0x4000))

/-- **The read map**, outside the I/O pages. -/
def readMap (m : MemMode) (a : UInt16) : Loc :=
  if a.toNat < 0x200 then ramLoc m.altzp a
  else if a.toNat < 0xC000 then
    ramLoc (if m.store80 && isDisplay m a then m.page2 else m.auxread) a
  else if m.highram then lcLoc m a
  else .rom a

/-- **The write map**, outside the I/O pages; `none` where a write is
ignored. -/
def writeMap (m : MemMode) (a : UInt16) : Option Loc :=
  if a.toNat < 0x200 then some (ramLoc m.altzp a)
  else if a.toNat < 0xC000 then
    some (ramLoc (if m.store80 && isDisplay m a then m.page2
      else m.auxwrite) a)
  else if m.hramWrite then some (lcLoc m a)
  else none

/-- **The reference memory**: the switches and the cells. It has no live image
and no dirty marks. A read looks up which cell the switches show at an
address, and a write changes that cell, which is all that a program can know
of the memory. -/
structure RefMemory where
  /-- The paging switches. -/
  mode : MemMode
  /-- What each cell holds. -/
  cells : Loc → UInt8

/-- A write to the reference memory. -/
def RefMemory.write (t : RefMemory) (a : UInt16) (v : UInt8) : RefMemory :=
  match writeMap t.mode a with
  | some l => { t with cells := Function.update t.cells l v }
  | none => t

/-- The reference memory after a reset, with the ROM given. -/
def RefMemory.reset (pattern : MemoryInitPattern) (rom : UInt16 → UInt8) :
    RefMemory where
  mode := MemMode.reset
  cells := fun
    | .main a => initByte pattern (pageOf a) (offsetOf a)
    | .aux _ => 0
    | .rom a => rom a

/-! ## The two machines -/

/-- **The reference machine.** -/
def refMachine (ty : Apple2Type) : Machine RefMemory Access UInt8 where
  next t
    | .read _ => t
    | .write _ a v => t.write a v
    | .switch _ addr =>
      { t with mode := switchMode ty t.mode (addr.toNat % 0x100) }
  out t
    | .read a => some (t.cells (readMap t.mode a))
    | _ => none

/-- **The machine that runs**, on the image and its stores. -/
def memoryMachine (ty : Apple2Type) :
    Machine MemoryInstance Access UInt8 where
  next s
    | .read _ => s
    | .write pc a v => writeByte ty s pc a v
    | .switch pc addr => memSetPaging ty s pc addr
  out s
    | .read a => some (s.memByte a)
    | _ => none

/-- **The runs compared**: the CPU reads and writes outside the I/O pages,
the switches are the paging ones, and one that is held off is followed at
once by another switch, such as the one it waits for. -/
def Allowed (s : MemoryInstance) : Access → List Access → Prop
  | .read a, _ => isIoRegion a = false
  | .write _ a _, _ => isIoRegion a = false
  | .switch pc addr, rest => isPagingSwitch addr = true
    ∧ (s.holdsOff pc (addr.toNat % 0x100) = true →
      ∃ pc' addr' rest', rest = .switch pc' addr' :: rest')

/-- The accesses of a program: the soft switches are the paging ones. Reads
and writes may be of any address. -/
def Access.OfProgram : Access → Prop
  | .switch _ addr => isPagingSwitch addr = true
  | _ => True

end LinApple.Memory
