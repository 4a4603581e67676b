import LinApple.Cpu.Types
import LinApple.Lib.Bytes
import LinApple.Memory.Keeping

/-!
# Programs from files

The loader tells three kinds of files apart, and lays the program of one down in the live image
behind the back of the CPU, with the page marks that keep it there. It also leaves the address and
the length where `BLOAD` of DOS 3.3 would, in the same image and after the program, so that a
program that covers these words is in the machine but for four of its bytes (`program_loader`).

The host is not assumed to be kind. A `HostFile` may not be a regular file, its size may not be
known, `fseek` may fail and `fread` may come back with less than was asked for; all that is taken
for granted is that what is read stands in the file at that place. A load that fails leaves the
machine as it was, all of it, and a load that does not is `LoadedAs` what the header says: all of
the program fits, every byte of it is there, no other byte has changed but the words of `BLOAD`,
and the processor starts at its first byte.

The last condition of `LoadedAs` is about the future. The loader writes to the image alone, and
the stored copy of a page is stale until paging saves the live one. What it has to get right for
that is the mark of every page it touches, and the statement is therefore about every run of
accesses that leaves the page alone and comes back to the mode of memory, with anything switched
in between. It ends at `$C000`, since above it the image shows what the slots put there.

A raw load writes no words of `BLOAD`, and is right in every case.
-/

namespace LinApple.Memory

open Byte (word readU16Le readU32Le)
open Cpu (CpuRegisters)

/-! ## Files and programs -/

/-- **A file as the host gives it.** What is read of it may fall short, and where it ends may not
be known. -/
structure HostFile where
  /-- `S_ISREG(st.st_mode)`, if `fstat` succeeds. -/
  isRegular : Bool
  /-- The contents. -/
  bytes : List UInt8
  /-- Whether `Path::file_size` succeeds. -/
  isSizeKnown : Bool
  /-- Whether `fseek` succeeds. -/
  canSeek : Bool
  /-- `fread`, from an offset, of a number of bytes. -/
  read : Nat → Nat → List UInt8
  /-- What is read is in the file. -/
  read_prefix : ∀ offset n, read offset n <+: (bytes.drop offset).take n

/-- `ProgramLoadResult`, but for `program_load_ok`. -/
inductive ProgramLoadError where
  | fileError
  | notAProgram
  | invalid
deriving DecidableEq, Repr

/-- `ProgramFormat` -/
inductive ProgramFormat where
  | apl
  | prg
  | rawBinary
deriving DecidableEq, Repr

/-- `ProgramInfo` -/
structure ProgramInfo where
  format : ProgramFormat
  loadAddr : UInt16
  length : Nat
  offset : Nat
deriving DecidableEq, Repr

/-- `Path::file_size` -/
def HostFile.fileSize (f : HostFile) : Option Nat :=
  if f.isSizeKnown then some f.bytes.length else none

/-- `max_program_file_size` -/
def maxProgramFileSize : Nat := 0x10000 + 128

/-- The header of a program in a file of a size. -/
def inspectHeader (header : List UInt8) (fileSize : Nat) :
    Except ProgramLoadError ProgramInfo :=
  let bounded (info : ProgramInfo) : Except ProgramLoadError ProgramInfo :=
    if fileSize < info.offset + info.length then .error .invalid else .ok info
  if header.length < 4 then .error .notAProgram
  else if 9 ≤ header.length ∧ readU32Le header = 0x214C470A then
    bounded ⟨.prg, readU16Le (header.drop 5), (readU16Le (header.drop 7)).toNat * 2, 128⟩
  else
    let aplLen := (readU16Le (header.drop 2)).toNat
    let exactSize := aplLen + 4
    let pad := (256 - exactSize % 256) % 256
    if exactSize = fileSize ∨ exactSize + pad = fileSize then
      bounded ⟨.apl, readU16Le header, aplLen, 4⟩
    else .error .notAProgram

/-- `program_loader_inspect` -/
def programLoaderInspect (f : HostFile) : Except ProgramLoadError ProgramInfo :=
  if !f.isRegular then .error .fileError
  else
    match f.fileSize with
    | none => .error .fileError
    | some size =>
      if size = 0 ∨ size > maxProgramFileSize then .error .notAProgram
      else inspectHeader (f.read 0 128) size

/-! ## The machine -/

/-- What a program is loaded into: the memory, and the registers, of which the program counter is
set. -/
structure LoadTarget where
  /-- The memory of the machine. -/
  memory : MemoryInstance
  /-- `cpu_get_registers()` -/
  regs : CpuRegisters

/-- `memcpy` into the live image. -/
def copyIn (mem : Page → PageData) (start : Nat) (bytes : List UInt8) : Page → PageData :=
  fun p o =>
    if start ≤ p.val * 256 + o.val ∧ p.val * 256 + o.val < start + bytes.length then
      bytes.getD (p.val * 256 + o.val - start) 0
    else mem p o

/-- `write_u16_le` into the live image. -/
def writeU16 (mem : Page → PageData) (start : Nat) (v : UInt16) : Page → PageData :=
  copyIn mem start [v.toUInt8, (v >>> 8).toUInt8]

namespace LoadTarget

variable (m : LoadTarget)

/-- The image is replaced, and `memset(memdirty, 0xFF, NUM_PAGES_48K)`. -/
def marked (mem : Page → PageData) : MemoryInstance :=
  { m.memory with
    mem := mem
    memdirty := fun p => if p.val < 0xC0 then 0xFF else m.memory.memdirty p }

/-- What is left of a program with a header. -/
def withProgram (info : ProgramInfo) (staging : List UInt8) : LoadTarget where
  memory := m.marked (writeU16
    (writeU16 (copyIn m.memory.mem info.loadAddr.toNat staging) 0xAA72 info.loadAddr)
    0xAA60 (UInt16.ofNat info.length))
  regs := { m.regs with pc := info.loadAddr }

/-- What is left of a raw program. -/
def withRaw (loadAddr : UInt16) (staging : List UInt8) : LoadTarget where
  memory := m.marked (copyIn m.memory.mem loadAddr.toNat staging)
  regs := { m.regs with pc := loadAddr }

end LoadTarget

/-- `program_loader_try_load`, with the file of a path, if there is one that opens. -/
def programLoaderTryLoad (file : Option HostFile) (m : LoadTarget) :
    Except ProgramLoadError ProgramInfo × LoadTarget :=
  match file with
  | none => (.error .fileError, m)
  | some f =>
    match programLoaderInspect f with
    | .error e => (.error e, m)
    | .ok info =>
      if info.length = 0 ∨ info.loadAddr.toNat + info.length > 0xC000 then (.error .invalid, m)
      else if !f.canSeek then (.error .fileError, m)
      else
        let staging := f.read info.offset info.length
        if staging.length ≠ info.length then (.error .fileError, m)
        else (.ok info, m.withProgram info staging)

/-- Where a raw program goes: all 64K of a machine go where they belong. -/
def actualLoadAddr (loadAddr : UInt16) (size : Nat) : UInt16 :=
  if loadAddr = 0x0800 ∧ size = 65536 then 0 else loadAddr

/-- `program_loader_load_raw` -/
def programLoaderLoadRaw (file : Option HostFile) (loadAddr : UInt16) (m : LoadTarget) :
    Except ProgramLoadError ProgramInfo × LoadTarget :=
  match file with
  | none => (.error .fileError, m)
  | some f =>
    if !f.isRegular then (.error .fileError, m)
    else
      match f.fileSize with
      | none => (.error .fileError, m)
      | some size =>
        if size = 0 ∨ size > 65536 then (.error .notAProgram, m)
        else
          let actual := actualLoadAddr loadAddr size
          if actual.toNat + size > 65536 then (.error .invalid, m)
          else
            let staging := f.read 0 size
            if staging.length ≠ size then (.error .fileError, m)
            else (.ok ⟨.rawBinary, actual, size, 0⟩, m.withRaw actual staging)

/-! ## What a program is -/

namespace ProgramInfo

variable (info : ProgramInfo) (file : List UInt8) (a : UInt16)

/-- An address of the program. -/
def Covers : Prop := info.loadAddr.toNat ≤ a.toNat ∧ a.toNat < info.loadAddr.toNat + info.length

instance : Decidable (info.Covers a) := inferInstanceAs (Decidable (_ ∧ _))

/-- The byte of the file for an address of the program. -/
def byteAt : UInt8 := file.getD (info.offset + (a.toNat - info.loadAddr.toNat)) 0

/-- **What a file says**: its kind, and with it where the program lies in the file, its length and
where it goes; `loadAddr` is where a raw program is asked for. -/
def Describes (loadAddr : UInt16) : Prop :=
  match info.format with
  | .prg => readU32Le file = 0x214C470A ∧ info.loadAddr = readU16Le (file.drop 5)
      ∧ info.length = (readU16Le (file.drop 7)).toNat * 2 ∧ info.offset = 128
  | .apl => info.loadAddr = readU16Le file ∧ info.length = (readU16Le (file.drop 2)).toNat
      ∧ info.offset = 4
      ∧ file.length ∈ [info.length + 4, info.length + 4 + (256 - (info.length + 4) % 256) % 256]
  | .rawBinary => info.loadAddr = actualLoadAddr loadAddr file.length
      ∧ info.length = file.length ∧ info.offset = 0

/-- The byte of a word of `BLOAD` at an address. -/
def bloadByte : Option UInt8 :=
  match a with
  | 0xAA72 => some info.loadAddr.toUInt8
  | 0xAA73 => some (info.loadAddr >>> 8).toUInt8
  | 0xAA60 => some (UInt16.ofNat info.length).toUInt8
  | 0xAA61 => some (UInt16.ofNat info.length >>> 8).toUInt8
  | _ => none

end ProgramInfo

/-- **A program is in the machine as it is in the file**, and stays there: `m` is the machine
before it is loaded, and `m'` after. -/
structure LoadedAs (info : ProgramInfo) (file : List UInt8) (m m' : LoadTarget) : Prop where
  /-- All of it is in the file and in the image. -/
  fits : info.offset + info.length ≤ file.length
    ∧ info.loadAddr.toNat + info.length ≤ 0x10000
  /-- Every byte of it. -/
  covered : ∀ a, info.Covers a → m'.memory.memByte a = info.byteAt file a
  /-- No other byte is changed, but for the words of `BLOAD`. -/
  others : ∀ a, ¬ info.Covers a → info.bloadByte a = none →
    m'.memory.memByte a = m.memory.memByte a
  /-- The program starts where it was loaded. -/
  regs : m'.regs = { m.regs with pc := info.loadAddr }
  /-- Below `$C000` it is there whenever the mode of memory is the same again, whatever is
  switched in between. -/
  stays : ∀ (ty : Apple2Type) (as : List Access) (a : UInt16), info.Covers a →
    a.toNat < 0xC000 → (∀ x ∈ as, x.SparesPage (pageOf a)) →
    ((memoryMachine ty).run m'.memory as).memMode = m'.memory.memMode →
    ((memoryMachine ty).run m'.memory as).memByte a = info.byteAt file a

/-- **What loading a program does**: nothing, unless it succeeds. If it does, the answer describes
the file, and the memory and the registers are those the description asks for. -/
def LoadsOrNot (file : Option HostFile) (loadAddr : UInt16) (m : LoadTarget)
    (r : Except ProgramLoadError ProgramInfo × LoadTarget) : Prop :=
  match r.1 with
  | .error _ => r.2 = m
  | .ok info => ∃ f, file = some f ∧ info.Describes f.bytes loadAddr
      ∧ LoadedAs info f.bytes m r.2

/-- The program of a file with a header is loaded. -/
def HostFile.Loads (f : HostFile) (info : ProgramInfo) : Prop :=
  programLoaderInspect f = .ok info ∧ info.length ≠ 0
    ∧ info.loadAddr.toNat + info.length ≤ 0xC000 ∧ f.canSeek
    ∧ (f.read info.offset info.length).length = info.length

/-- **The program has the words of `BLOAD` where it covers them.** The loader stores these words
after it has loaded the program, so a program that lies over them keeps its bytes only where they
are the same. -/
def HostFile.SparesBload (f : HostFile) : Prop :=
  ∀ info, f.Loads info → ∀ a v, info.Covers a → info.bloadByte a = some v →
    info.byteAt f.bytes a = v

/-! ## What is read -/

namespace HostFile

variable {f : HostFile} {offset n : Nat}

/-- A byte that is read is in the file. -/
theorem getElem?_of_read {i : Nat} (hi : i < (f.read offset n).length) :
    (f.read offset n)[i]? = f.bytes[offset + i]? := by
  obtain ⟨rest, hrest⟩ := f.read_prefix offset n
  have htake : i < n := by
    have hlen := congrArg List.length hrest
    rw [List.length_append, List.length_take] at hlen
    omega
  have happend : (f.read offset n)[i]? = (f.read offset n ++ rest)[i]? :=
    (List.getElem?_append_left hi).symm
  rw [happend, hrest, List.getElem?_take_of_lt htake, List.getElem?_drop]

theorem getD_of_read {i : Nat} (hi : i < (f.read offset n).length) :
    (f.read offset n).getD i 0 = f.bytes.getD (offset + i) 0 := by
  rw [List.getD_eq_getElem?_getD, getElem?_of_read hi, List.getD_eq_getElem?_getD]

theorem length_of_read : offset + (f.read offset n).length ≤ max offset f.bytes.length := by
  have hlen := (f.read_prefix offset n).length_le
  rw [List.length_take, List.length_drop] at hlen
  omega

/-- Words that are read whole are those of the file. -/
theorem readU16Le_of_read {i : Nat} (hi : i + 1 < (f.read 0 n).length) :
    readU16Le ((f.read 0 n).drop i) = readU16Le (f.bytes.drop i) := by
  simp only [readU16Le, List.getD_eq_getElem?_getD, List.getElem?_drop]
  rw [getElem?_of_read (by omega), getElem?_of_read (by omega), Nat.zero_add, Nat.zero_add]

theorem readU32Le_of_read (hi : 3 < (f.read 0 n).length) :
    readU32Le (f.read 0 n) = readU32Le f.bytes := by
  simp only [readU32Le, List.getD_eq_getElem?_getD]
  rw [getElem?_of_read (by omega), getElem?_of_read (by omega), getElem?_of_read (by omega),
    getElem?_of_read hi]

end HostFile

/-- **What is inspected is what the file says.** -/
theorem describes_of_inspect {f : HostFile} {info : ProgramInfo}
    (h : programLoaderInspect f = .ok info) (loadAddr : UInt16) :
    info.Describes f.bytes loadAddr ∧ info.offset + info.length ≤ f.bytes.length := by
  unfold programLoaderInspect at h
  split at h
  · cases h
  split at h
  · cases h
  rename_i size hsize
  have hlen : size = f.bytes.length := by
    unfold HostFile.fileSize at hsize
    split at hsize <;> cases hsize
    rfl
  subst hlen
  split at h
  · cases h
  have hword := fun i => HostFile.readU16Le_of_read (f := f) (n := 128) (i := i)
  unfold inspectHeader at h
  dsimp only at h
  split at h
  · cases h
  rename_i hfour
  split at h
  -- a PRG header has its magic word; without it the bytes are read as an APL header
  · rename_i hmagic
    split at h
    · cases h
    · rename_i hfits
      cases h
      refine ⟨⟨?_, hword 5 (by omega), ?_, rfl⟩, Nat.not_lt.1 hfits⟩
      · rw [← HostFile.readU32Le_of_read (n := 128) (by omega)]
        exact hmagic.2
      · exact congrArg (·.toNat * 2) (hword 7 (by omega))
  · split at h
    · rename_i hsize
      split at h
      · cases h
      · rename_i hfits
        cases h
        refine ⟨⟨hword 0 (by omega), congrArg UInt16.toNat (hword 2 (by omega)), rfl, ?_⟩,
          Nat.not_lt.1 hfits⟩
        rw [List.mem_cons, List.mem_singleton]
        exact hsize.imp Eq.symm Eq.symm
    · cases h

/-! ## What is copied -/

section Copies

variable (mem : Page → PageData) (start : Nat) (bytes : List UInt8) (a : UInt16)

/-- A byte of an image. -/
def imageByte : UInt8 := mem (pageOf a) (offsetOf a)

theorem imageByte_copyIn : imageByte (copyIn mem start bytes) a
    = if start ≤ a.toNat ∧ a.toNat < start + bytes.length then bytes.getD (a.toNat - start) 0
      else imageByte mem a := by
  have hsplit : (pageOf a).val * 256 + (offsetOf a).val = a.toNat := by
    rw [pageOf_val]
    exact Nat.div_add_mod' _ _
  unfold imageByte copyIn
  rw [hsplit]

theorem imageByte_writeU16 (v : UInt16) : imageByte (writeU16 mem start v) a
    = if a.toNat = start then v.toUInt8
      else if a.toNat = start + 1 then (v >>> 8).toUInt8
      else imageByte mem a := by
  rw [writeU16, imageByte_copyIn]
  by_cases hlow : a.toNat = start
  · rw [if_pos hlow, if_pos ⟨hlow.ge, by simp [hlow]⟩, hlow, Nat.sub_self]
    rfl
  · by_cases hhigh : a.toNat = start + 1
    · rw [if_neg hlow, if_pos hhigh, if_pos ⟨by omega, by simp [hhigh]⟩, hhigh,
        Nat.add_sub_cancel_left]
      rfl
    · rw [if_neg hlow, if_neg hhigh, if_neg]
      simp only [List.length_cons, List.length_nil]
      omega

end Copies

namespace LoadTarget

variable (m : LoadTarget) (info : ProgramInfo) (staging : List UInt8)

theorem memByte_marked (mem : Page → PageData) (a : UInt16) :
    (m.marked mem).memByte a = imageByte mem a := rfl

/-- **The words of `BLOAD` come last.** -/
theorem memByte_withProgram (a : UInt16) : (m.withProgram info staging).memory.memByte a
    = (info.bloadByte a).getD (imageByte (copyIn m.memory.mem info.loadAddr.toNat staging) a) := by
  rw [withProgram, memByte_marked, imageByte_writeU16, imageByte_writeU16]
  by_cases h60 : a = 0xAA60
  · subst h60
    rfl
  by_cases h61 : a = 0xAA61
  · subst h61
    rfl
  by_cases h72 : a = 0xAA72
  · subst h72
    rfl
  by_cases h73 : a = 0xAA73
  · subst h73
    rfl
  have hne : ∀ n : Nat, n < 65536 → a ≠ UInt16.ofNat n → a.toNat ≠ n := fun n hn hno heq =>
    hno (UInt16.toNat_inj.1 (by rw [heq, UInt16.toNat_ofNat', Nat.mod_eq_of_lt hn]))
  rw [if_neg (hne _ (by decide) h60), if_neg (hne _ (by decide) h61),
    if_neg (hne _ (by decide) h72), if_neg (hne _ (by decide) h73)]
  have hnone : info.bloadByte a = none := by
    unfold ProgramInfo.bloadByte
    split <;> first | contradiction | rfl
  rw [hnone]
  rfl

/-- The tables do not change. -/
theorem hasTables_marked (h : HasTables m.memory) (mem : Page → PageData) :
    HasTables (m.marked mem) := by
  obtain ⟨n, hn, hmode⟩ := h
  exact ⟨n, ⟨hn.memshadow_eq, hn.memwrite_eq⟩, hmode⟩

end LoadTarget

/-- Below `$C000` a page shows what the current mode says, even while a switch is held off. -/
theorem HasTables.memshadow_low {s : MemoryInstance} (h : HasTables s) {p : Page}
    (hp : p.val < 0xC0) : s.memshadow p = shadowTable s.memMode p := by
  obtain ⟨n, hn, hdefers, -⟩ := h
  rw [hn.memshadow_eq, hdefers.shadowTable_eq (by omega)]

theorem HasTables.run (ty : Apple2Type) (as : List Access) {s : MemoryInstance}
    (h : HasTables s) : HasTables ((memoryMachine ty).run s as) := by
  induction as generalizing s with
  | nil => exact h
  | cons a as ih => exact ih (h.next ty a)

/-- **What is marked below `$C000` stays**, whatever is switched until the mode is the same
again. -/
theorem memByte_of_marked (ty : Apple2Type) {s : MemoryInstance} (h : HasTables s)
    {a : UInt16} (ha : a.toNat < 0xC000) (hdirty : s.memdirty (pageOf a) &&& 1 ≠ 0)
    {as : List Access} (has : ∀ x ∈ as, x.SparesPage (pageOf a))
    (hmode : ((memoryMachine ty).run s as).memMode = s.memMode) :
    ((memoryMachine ty).run s as).memByte a = s.memByte a := by
  have hlow : (pageOf a).val < 0xC0 := by
    rw [pageOf_val]
    omega
  have hexp : isExpansionPage (pageOf a) = false := by
    simp only [isExpansionPage, Bool.and_eq_false_iff, decide_eq_false_iff_not]
    omega
  refine congrFun (mem_of_dirty ty h hdirty hexp has ?_) (offsetOf a)
  rw [(h.run ty as).memshadow_low hlow, h.memshadow_low hlow, hmode]

/-! ## What is loaded -/

section Loaded

variable {f : HostFile} {info : ProgramInfo} {m : LoadTarget}

/-- A byte of the program is copied where it belongs. -/
theorem imageByte_covered (hread : (f.read info.offset info.length).length = info.length)
    {a : UInt16} (ha : info.Covers a) :
    imageByte (copyIn m.memory.mem info.loadAddr.toNat (f.read info.offset info.length)) a
      = info.byteAt f.bytes a := by
  obtain ⟨hge, hlt⟩ := ha
  rw [imageByte_copyIn, if_pos ⟨hge, by omega⟩]
  exact HostFile.getD_of_read (by omega)

theorem imageByte_other (hread : (f.read info.offset info.length).length = info.length)
    {a : UInt16} (ha : ¬ info.Covers a) :
    imageByte (copyIn m.memory.mem info.loadAddr.toNat (f.read info.offset info.length)) a
      = m.memory.memByte a := by
  rw [imageByte_copyIn, hread]
  exact if_neg ha

/-- **What is laid down with its marks stays.** -/
theorem stays_marked (h : HasTables m.memory) {mem : Page → PageData} {a : UInt16}
    (ha : a.toNat < 0xC000) (ty : Apple2Type) {as : List Access}
    (has : ∀ x ∈ as, x.SparesPage (pageOf a))
    (hmode : ((memoryMachine ty).run (m.marked mem) as).memMode = (m.marked mem).memMode) :
    ((memoryMachine ty).run (m.marked mem) as).memByte a = imageByte mem a := by
  refine memByte_of_marked ty (m.hasTables_marked h mem) ha ?_ has hmode
  have hpage : (pageOf a).val < 0xC0 := by
    rw [pageOf_val]
    omega
  show (if (pageOf a).val < 0xC0 then (0xFF : UInt8) else _) &&& 1 ≠ 0
  rw [if_pos hpage]
  decide

/-- **A program with a header is in the machine as it is in the file** if it has the words of
`BLOAD` where it covers them. -/
theorem loadedAs_withProgram_iff (h : HasTables m.memory) (hloads : f.Loads info) :
    LoadedAs info f.bytes m (m.withProgram info (f.read info.offset info.length))
      ↔ ∀ a v, info.Covers a → info.bloadByte a = some v → info.byteAt f.bytes a = v := by
  obtain ⟨hinspect, -, hlimit, -, hread⟩ := hloads
  have hbyte := m.memByte_withProgram info (f.read info.offset info.length)
  constructor
  · intro hloaded a v ha hv
    rw [← hloaded.covered a ha, hbyte, hv]
    rfl
  · intro hspared
    have hcovered : ∀ a, info.Covers a →
        (m.withProgram info (f.read info.offset info.length)).memory.memByte a
          = info.byteAt f.bytes a := fun a ha => by
      rw [hbyte]
      cases hv : info.bloadByte a with
      | none => exact imageByte_covered hread ha
      | some v => exact (hspared a v ha hv).symm
    refine ⟨⟨(describes_of_inspect hinspect 0).2, by omega⟩, hcovered, fun a ha hv => ?_, rfl,
      fun ty as a ha hlow has hmode => ?_⟩
    · rw [hbyte, hv]
      exact imageByte_other hread ha
    · exact (stays_marked h hlow ty has hmode).trans (hcovered a ha)

/-- **A raw program is in the machine as it is in the file.** -/
theorem loadedAs_withRaw (h : HasTables m.memory) (hraw : info.offset = 0)
    (hread : (f.read info.offset info.length).length = info.length)
    (hlimit : info.loadAddr.toNat + info.length ≤ 0x10000) :
    LoadedAs info f.bytes m (m.withRaw info.loadAddr (f.read info.offset info.length)) where
  fits := by
    have hlen : info.offset + (f.read info.offset info.length).length
        ≤ max info.offset f.bytes.length := f.length_of_read
    exact ⟨by omega, hlimit⟩
  covered _ ha := imageByte_covered hread ha
  others _ ha _ := imageByte_other hread ha
  regs := rfl
  stays ty _ _ ha hlow has hmode :=
    (stays_marked h hlow ty has hmode).trans (imageByte_covered hread ha)

end Loaded

/-- A file is loaded, or the machine is left alone. -/
theorem programLoaderTryLoad_cases (f : HostFile) (m : LoadTarget) :
    (∃ info, f.Loads info ∧ programLoaderTryLoad (some f) m
        = (.ok info, m.withProgram info (f.read info.offset info.length)))
      ∨ (∀ info, ¬ f.Loads info) ∧ ∃ e, programLoaderTryLoad (some f) m = (.error e, m) := by
  unfold programLoaderTryLoad
  dsimp only
  cases hinspect : programLoaderInspect f with
  | error e =>
    refine .inr ⟨fun info hloads => ?_, e, rfl⟩
    rw [HostFile.Loads, hinspect] at hloads
    cases hloads.1
  | ok info =>
    -- a file has one header, so what `Loads` asks of some header it asks of this one
    have hunique : ∀ {info'}, f.Loads info' → info' = info := fun hloads =>
      (Except.ok.inj (hinspect.symm.trans hloads.1)).symm
    dsimp only
    split
    · rename_i hlimit
      refine .inr ⟨fun info' hloads => ?_, _, rfl⟩
      obtain rfl := hunique hloads
      exact hlimit.elim hloads.2.1 (Nat.not_lt.2 hloads.2.2.1)
    rename_i hlimit
    split
    · rename_i hseek
      refine .inr ⟨fun info' hloads => ?_, _, rfl⟩
      rw [hloads.2.2.2.1] at hseek
      cases hseek
    rename_i hseek
    split
    · rename_i hread
      refine .inr ⟨fun info' hloads => ?_, _, rfl⟩
      obtain rfl := hunique hloads
      exact hread hloads.2.2.2.2
    · rename_i hread
      rw [not_or] at hlimit
      exact .inl ⟨info, ⟨hinspect, hlimit.1, Nat.not_lt.1 hlimit.2, by simpa using hseek,
        not_not.1 hread⟩, rfl⟩

theorem loadsOrNot_tryLoad_iff (file : Option HostFile) (loadAddr : UInt16) {m : LoadTarget}
    (h : HasTables m.memory) :
    LoadsOrNot file loadAddr m (programLoaderTryLoad file m) ↔ ∀ f ∈ file, f.SparesBload := by
  cases file with
  | none => exact iff_of_true rfl fun _ hf => nomatch hf
  | some f =>
    have hall : (∀ g ∈ some f, g.SparesBload) ↔ f.SparesBload :=
      ⟨fun hg => hg f rfl, fun hf _ hg => Option.some.inj hg ▸ hf⟩
    rw [hall]
    rcases programLoaderTryLoad_cases f m with ⟨info, hloads, heq⟩ | ⟨hnone, e, heq⟩
    · have hunique : ∀ info', f.Loads info' → info' = info := fun info' hloads' =>
        Except.ok.inj (hloads'.1.symm.trans hloads.1)
      rw [heq]
      constructor
      · rintro ⟨g, hg, -, hloaded⟩ info' hloads'
        obtain rfl := hunique info' hloads'
        obtain rfl := Option.some.inj hg
        exact (loadedAs_withProgram_iff h hloads).1 hloaded
      · intro hspared
        exact ⟨f, rfl, (describes_of_inspect hloads.1 loadAddr).1,
          (loadedAs_withProgram_iff h hloads).2 (hspared info hloads)⟩
    · rw [heq]
      exact iff_of_true rfl fun info hloads => absurd hloads (hnone info)

theorem loadsOrNot_loadRaw (file : Option HostFile) (loadAddr : UInt16) {m : LoadTarget}
    (h : HasTables m.memory) :
    LoadsOrNot file loadAddr m (programLoaderLoadRaw file loadAddr m) := by
  unfold programLoaderLoadRaw
  cases file with
  | none => rfl
  | some f =>
    dsimp only
    split
    · rfl
    split
    · rfl
    rename_i size hsize
    have hlen : size = f.bytes.length := by
      unfold HostFile.fileSize at hsize
      split at hsize <;> cases hsize
      rfl
    split
    · rfl
    split
    · rfl
    rename_i hlimit
    split
    · rfl
    rename_i hread
    subst hlen
    have hraw : (⟨.rawBinary, loadAddr, f.bytes.length, 0⟩ : ProgramInfo).offset = 0 := rfl
    exact ⟨f, rfl, ⟨rfl, rfl, rfl⟩, loadedAs_withRaw h hraw (not_not.1 hread)
      (Nat.not_lt.1 hlimit)⟩

/-- **A loaded program is in the machine as it is in the file**: always for a raw one, and for one
with a header just if its bytes in the words of `BLOAD`, where it covers them, are those the
loader leaves there. A load that fails changes nothing. -/
theorem program_loader (file : Option HostFile) (loadAddr : UInt16) (m : LoadTarget)
    (h : HasTables m.memory) :
    (LoadsOrNot file loadAddr m (programLoaderTryLoad file m) ↔ ∀ f ∈ file, f.SparesBload)
      ∧ LoadsOrNot file loadAddr m (programLoaderLoadRaw file loadAddr m) :=
  ⟨loadsOrNot_tryLoad_iff file loadAddr h, loadsOrNot_loadRaw file loadAddr h⟩

/-! ## Two programs of a byte -/

/-- A file that is read whole. -/
def HostFile.whole (bytes : List UInt8) : HostFile where
  isRegular := true
  bytes := bytes
  isSizeKnown := true
  canSeek := true
  read offset n := (bytes.drop offset).take n
  read_prefix _ _ := List.prefix_refl _

/-- A program of one byte at an address. -/
def HostFile.ofByte (loadAddr : UInt16) (v : UInt8) : HostFile :=
  .whole [loadAddr.toUInt8, (loadAddr >>> 8).toUInt8, 1, 0, v]

/-- A machine that was just reset. -/
def LoadTarget.afterReset : LoadTarget := ⟨memReset .zero MemoryInstance.blank,
  ⟨0, 0, 0, 0, 0, 0x1FF, false⟩⟩

theorem LoadTarget.hasTables_afterReset : HasTables LoadTarget.afterReset.memory := by
  dsimp only [LoadTarget.afterReset]
  exact (sound_memReset .zero MemoryInstance.blank).1.tables

/-- A program at `$0800`, and an image of one byte at `$0900`, are in the machine. -/
theorem program_loader_ofByte :
    LoadsOrNot (some (.ofByte 0x800 0x60)) 0x900 .afterReset
        (programLoaderTryLoad (some (.ofByte 0x800 0x60)) .afterReset)
      ∧ LoadsOrNot (some (.ofByte 0x800 0x60)) 0x900 .afterReset
        (programLoaderLoadRaw (some (.ofByte 0x800 0x60)) 0x900 .afterReset) := by
  obtain ⟨hiff, hraw⟩ := program_loader (some (.ofByte 0x800 0x60)) 0x900 .afterReset
    LoadTarget.hasTables_afterReset
  refine ⟨hiff.2 fun f hf info hloads a v ha hv => ?_, hraw⟩
  obtain rfl := Option.some.inj hf
  have hinfo : programLoaderInspect (.ofByte 0x800 0x60) = .ok ⟨.apl, 0x800, 1, 4⟩ := by rfl
  obtain rfl := Except.ok.inj (hinfo.symm.trans hloads.1)
  obtain ⟨hge, hlt⟩ := ha
  obtain rfl : a = 0x800 := UInt16.toNat_inj.1 (Nat.le_antisymm (Nat.le_of_lt_succ hlt) hge)
  cases hv

/-- A program of one byte where the length is left. -/
theorem not_program_loader :
    ¬ ∀ (file : Option HostFile) (loadAddr : UInt16) (m : LoadTarget), HasTables m.memory →
      LoadsOrNot file loadAddr m (programLoaderTryLoad file m) := by
  intro h
  obtain ⟨f, hf, -, hloaded⟩ := h (some (.ofByte 0xAA60 0x60)) 0 .afterReset
    LoadTarget.hasTables_afterReset
  obtain rfl := Option.some.inj hf
  exact absurd (hloaded.covered 0xAA60 (by decide)) (by decide +kernel)

end LinApple.Memory
