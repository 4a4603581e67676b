import Mathlib.Logic.Function.Basic
import Mathlib.Tactic.Common
import LinApple.Lib.Sizes

/-!
# The memory of the machine

The 6502 reads and writes one 64 K image, `mem`. Behind it stand the
stores the image is copied from and to: main and auxiliary RAM, the ROM at
`$D000-$FFFF`, and the two pictures of the `$Cx00` ROM pages. `memshadow`
names, for each page of the image, the stored page it is a copy of;
`memwrite` names where the CPU's writes to that page go, which is not
always the image; `memdirty` marks the pages written to.

Every pointer the paging code keeps is the start of a page of some
allocation, so a pointer is the allocation and the page number in it
(`PagePtr`). The model is of a machine between `mem_initialize` and
`mem_destroy`, where no allocation is missing.
-/

namespace LinApple

/-- The machine models. Only whether one is a //e matters for the memory, and
the other things a model decides are found where they are used. -/
inductive Apple2Type where
  | apple2
  | apple2Plus
  | apple2JPlus
  | clonePravets82
  | clonePravets8m
  | cloneBase64a
  | apple2e
  | apple2eEnhanced
  | clonePravets8c
  | cloneTk3000e
deriving DecidableEq, Repr

/-- `is_apple2`: a machine without the //e's memory management unit. -/
def Apple2Type.isApple2 : Apple2Type → Bool
  | .apple2 | .apple2Plus | .apple2JPlus => true
  | .clonePravets82 | .clonePravets8m | .cloneBase64a => true
  | .apple2e | .apple2eEnhanced | .clonePravets8c | .cloneTk3000e => false

namespace Memory

/-- The paging switches, one field for each bit of `mem_mode`. -/
structure MemMode where
  /-- `MF_80STORE` -/
  store80 : Bool
  /-- `MF_ALTZP` -/
  altzp : Bool
  /-- `MF_AUXREAD` -/
  auxread : Bool
  /-- `MF_AUXWRITE` -/
  auxwrite : Bool
  /-- `MF_HRAM_BANK2` -/
  hramBank2 : Bool
  /-- `MF_HIGHRAM` -/
  highram : Bool
  /-- `MF_HIRES` -/
  hires : Bool
  /-- `MF_PAGE2` -/
  page2 : Bool
  /-- `MF_SLOTC3ROM` -/
  slotc3rom : Bool
  /-- `MF_SLOTCXROM` -/
  slotcxrom : Bool
  /-- `MF_HRAM_WRITE` -/
  hramWrite : Bool
deriving DecidableEq, Repr

/-- The mode `reset_paging` leaves. -/
def MemMode.reset : MemMode where
  store80 := false
  altzp := false
  auxread := false
  auxwrite := false
  hramBank2 := true
  highram := false
  hires := false
  page2 := false
  slotc3rom := false
  slotcxrom := true
  hramWrite := true

/-- A page number of a 64 K range. -/
abbrev Page := Fin 256

/-- The 256 bytes of a page. -/
abbrev PageData := Fin 256 → UInt8

/-- The allocations the image is copied from and to. -/
inductive Bank where
  | memmain
  | memaux
  | memrom
  | cxRomInternal
  | cxRomPeripheral
deriving DecidableEq, Repr

/-- A pointer to the start of a page of an allocation. -/
structure PagePtr where
  /-- The allocation. -/
  bank : Bank
  /-- The page in it. -/
  page : Page
deriving DecidableEq, Repr

/-- An entry of `memwrite`: no direct write, the page of the live image
itself (`mem + (page << 8)`), or a stored page the image does not show. -/
inductive WritePtr where
  | null
  | live
  | store (l : PagePtr)
deriving DecidableEq, Repr

/-- `ExpansionRomType` -/
inductive ExpansionRomType where
  | null
  | internal
  | peripheral
deriving DecidableEq, Repr

/-- **The memory of a machine** (`MemoryInstance`), less the I/O dispatch
tables. -/
structure MemoryInstance where
  /-- The live image the CPU reads, `mem`. -/
  mem : Page → PageData
  /-- The contents of the allocations. -/
  stores : PagePtr → PageData
  /-- The stored page each page of the image is a copy of. -/
  memshadow : Page → PagePtr
  /-- Where writes to each page go. -/
  memwrite : Page → WritePtr
  /-- The dirty marks. -/
  memdirty : Page → UInt8
  lastWriteRam : Bool
  memMode : MemMode
  modeChanging : Bool
  expansionRomType : ExpansionRomType
  peripheralRomSlot : Nat

/-! ## Addresses -/

/-- `addr >> 8` -/
def pageOf (a : UInt16) : Page := ⟨a.toNat / 256, by
  have := a.toNat_lt
  omega⟩

theorem pageOf_val (a : UInt16) : (pageOf a).val = a.toNat / 256 := rfl

/-- `addr & 0xFF` -/
def offsetOf (a : UInt16) : Fin 256 := ⟨a.toNat % 256, by omega⟩

/-- The address of a byte of a page. -/
def addrOf (p : Page) (o : Fin 256) : UInt16 :=
  UInt16.ofNat (p.val * 256 + o.val)

@[simp] theorem pageOf_addrOf (p : Page) (o : Fin 256) :
    pageOf (addrOf p o) = p := by
  apply Fin.ext
  have hp := p.isLt
  have ho := o.isLt
  simp only [pageOf, addrOf, UInt16.toNat_ofNat']
  omega

@[simp] theorem offsetOf_addrOf (p : Page) (o : Fin 256) :
    offsetOf (addrOf p o) = o := by
  apply Fin.ext
  have hp := p.isLt
  have ho := o.isLt
  simp only [offsetOf, addrOf, UInt16.toNat_ofNat']
  omega

/-- The page numbers of `[$C000, $CFFF]`, where the CPU's accesses are
dispatched to the I/O handlers (`addr & IO_REGION_MASK`). -/
def isIoPage (p : Page) : Bool := 0xC0 ≤ p.val && p.val < 0xD0

theorem isIoPage_iff {p : Page} :
    isIoPage p = true ↔ 0xC0 ≤ p.val ∧ p.val < 0xD0 := by
  simp only [isIoPage, Bool.and_eq_true, decide_eq_true_eq]

/-- `(a & IO_REGION_MASK) == IO_REGION_START` -/
def isIoRegion (a : UInt16) : Bool := isIoPage (pageOf a)

theorem of_isIoRegion_eq_false {a : UInt16} (h : isIoRegion a = false) :
    a.toNat < 0xC000 ∨ 0xD000 ≤ a.toNat := by
  by_contra hno
  refine Bool.false_ne_true (h.symm.trans (isIoPage_iff.mpr ?_))
  rw [pageOf_val]
  omega

/-- A byte of the live image: `*(mem + a)`. -/
def MemoryInstance.memByte (s : MemoryInstance) (a : UInt16) : UInt8 :=
  s.mem (pageOf a) (offsetOf a)

/-- One byte of one page replaced. -/
def setByte {L : Type} [DecidableEq L] (m : L → PageData) (l : L)
    (o : Fin 256) (v : UInt8) : L → PageData :=
  Function.update m l (Function.update (m l) o v)

theorem setByte_self {L : Type} [DecidableEq L] (m : L → PageData) (l : L)
    (o : Fin 256) (v : UInt8) : setByte m l o v l o = v := by
  rw [setByte, Function.update_self, Function.update_self]

theorem setByte_page_of_ne {L : Type} [DecidableEq L] (m : L → PageData)
    {l k : L} (o : Fin 256) (v : UInt8) (h : k ≠ l) :
    setByte m l o v k = m k := Function.update_of_ne h _ _

theorem setByte_page_self {L : Type} [DecidableEq L] (m : L → PageData)
    (l : L) (o : Fin 256) (v : UInt8) :
    setByte m l o v l = Function.update (m l) o v :=
  Function.update_self _ _ _

/-- A memory with nothing in it yet, ROM included. -/
def MemoryInstance.blank : MemoryInstance where
  mem := fun _ _ => 0
  stores := fun _ _ => 0
  memshadow := fun p => ⟨.memmain, p⟩
  memwrite := fun _ => .null
  memdirty := fun _ => 0
  lastWriteRam := false
  memMode := MemMode.reset
  modeChanging := false
  expansionRomType := .null
  peripheralRomSlot := 0

end Memory

end LinApple
