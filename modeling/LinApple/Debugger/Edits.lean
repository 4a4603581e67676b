import LinApple.Debugger.Image
import LinApple.Lib.Bytes
import LinApple.Memory.Keeping

/-!
# Edits that a page swap does not lose

A byte the debugger changes survives the next paging change if it lies in the image and its page
is dirty. What a command stores, and where, and what it marks is found for each loop first; then
whether the marks cover the stores is a condition on the arguments and on the state before.

The marks of the two commands for ranges always cover what they change: a fill marks from its
start to its end, and a move never moves anything. The others mark one page, that of their first
byte, or none, or one too few.

That an edit is kept (`Kept`) is a statement about the state after the command: each byte that has
changed, outside the part of memory that belongs to the slots, lies in the image and in a dirty
page. What follows from it over whole runs of accesses is `covered_edit_comes_back`. A byte that
is stored with the value it had already has not changed, and nothing is lost with it; so the
condition (`Covers`) has to look at what was there, and the stores of a command are told as a
function of the place and not as a list.

Some of the commands go on where they should have stopped. `MEB` and `MEW` ask for help when their
second argument is not a number, which clears the arguments, and then store these: zeros at the
beginning of memory, and the page they mark is the first one then. This is one of the cases of
`Covers`, and so is an address that runs past the end of memory, where a byte is stored behind the
image. Nothing is left out of the arguments for being unlikely: their number and their values are
arbitrary, and where a loop would run over the end of the array the clause for it says what is
read there.
-/

namespace LinApple.Debugger

open Memory (MemoryInstance Access memoryMachine HasTables mem_of_dirty)

namespace Debugged

/-! ## Kept changes -/

/-- A place below `$C000` or from `$D000` up. -/
def OutsideIo (i : Nat) : Prop := i < 0xC000 ∨ 0xD000 ≤ i

/-- **No change is lost**: every byte outside the I/O region that is not what
it was lies in the image, and its page is dirty. -/
def Kept (s s' : Debugged) : Prop :=
  ∀ i, OutsideIo i → s'.byte i ≠ s.byte i → i < 0x10000 ∧ s'.isDirty (i / 256)

/-- Storing a byte loses nothing where it changes nothing, and where it lies in
the image in a page that is dirty or going to be marked. -/
def Safe (s : Debugged) (marked : Nat → Prop) (i : Nat) (v : UInt8) : Prop :=
  OutsideIo i → v ≠ s.byte i → i < 0x10000 ∧ (marked (i / 256) ∨ s.isDirty (i / 256))

variable {s s' : Debugged}

/-- **The marks have to cover the stores.** -/
theorem kept_iff (value : Nat → Option UInt8) (marked : Nat → Prop)
    (hbyte : ∀ i, s'.byte i = (value i).getD (s.byte i))
    (hdirty : ∀ page, s'.isDirty page ↔ marked page ∨ s.isDirty page) :
    s.Kept s' ↔ ∀ i v, value i = some v → s.Safe marked i v := by
  constructor
  · intro h i v hv ho hne
    have hchanged : s'.byte i ≠ s.byte i := by rwa [hbyte, hv]
    exact ⟨(h i ho hchanged).1, (hdirty _).mp (h i ho hchanged).2⟩
  · intro h i ho hne
    rw [hbyte] at hne
    cases hv : value i with
    | none => exact absurd (by rw [hv]; rfl) hne
    | some v =>
      rw [hv] at hne
      exact ⟨(h i v hv ho hne).1, (hdirty _).mpr (h i v hv ho hne).2⟩

/-- Nothing is lost where nothing is changed. -/
theorem kept_of_byte_eq (h : ∀ i, s'.byte i = s.byte i) : s.Kept s' :=
  fun i _ hne => absurd (h i) hne

end Debugged

open Debugged

/-! ## What the loops store and mark -/

section Pages

variable (lo hi : Nat) (v : UInt8) (s : Debugged)

private theorem foldl_mark (n : Nat) : ∀ (lo : Nat) (s : Debugged),
    (∀ i, ((List.range' lo n).foldl (fun s page => s.mark page v) s).byte i = s.byte i) ∧
      ∀ page, ((List.range' lo n).foldl (fun s page => s.mark page v) s).dirty page
        = if lo ≤ page ∧ page < lo + n then v else s.dirty page := by
  induction n with
  | zero => exact fun lo s => ⟨fun _ => rfl, fun page => (if_neg (by omega)).symm⟩
  | succ n ih =>
    intro lo s
    obtain ⟨hbyte, hdirty⟩ := ih (lo + 1) (s.mark lo v)
    refine ⟨fun i => (hbyte i).trans (byte_mark _ _ _ _), fun page => (hdirty page).trans ?_⟩
    rw [dirty_mark]
    split_ifs <;> first | rfl | omega

@[simp] theorem byte_markPages (i : Nat) : (markPages lo hi v s).byte i = s.byte i :=
  (foldl_mark v (hi - lo) lo s).1 i

theorem isDirty_markPages {v : UInt8} (hv : v &&& 1 ≠ 0) (page : Nat) :
    (markPages lo hi v s).isDirty page
      ↔ (lo ≤ page ∧ page < hi) ∨ s.isDirty page := by
  have h := (foldl_mark v (hi - lo) lo s).2 page
  simp only [isDirty, bne_iff_ne]
  rw [markPages, h]
  split
  · exact iff_of_true hv (.inl (by omega))
  · exact (or_iff_right (by omega)).symm

end Pages

/-- A byte that is stored, or the one that was there. -/
theorem getD_ite {p : Prop} [Decidable p] (v w : UInt8) (o : Option UInt8) :
    (if p then some v else o).getD w = if p then v else o.getD w := by
  split <;> rfl

section Enter

variable (wide : UInt16 → Bool) (marked : UInt8 → UInt8) (address : UInt16)
  (args : Nat → Arg)

/-- What is stored at a distance from the first address: the high byte of the
argument before, if it is a wide one, and else the low byte of its own. -/
def enterValue (n k : Nat) : Option UInt8 :=
  if 1 ≤ k ∧ k ≤ n ∧ wide (args (k + 1)).value then
    some ((args (k + 1)).value >>> 8).toUInt8
  else if k < n then some (args (k + 2)).value.toUInt8
  else none

theorem enterLoop_byte_before (n : Nat) {i : Nat} (hi : i < address.toNat) :
    ∀ s : Debugged, (enterLoop wide marked address args n s).byte i = s.byte i := by
  induction n with
  | zero => exact fun s => rfl
  | succ n ih =>
    intro s
    rw [enterLoop, ih, byte_mark]
    split
    · rw [byte_poke, byte_poke, if_neg (by omega), if_neg (by omega)]
    · rw [byte_poke, if_neg (by omega)]

theorem enterLoop_byte (n k : Nat) : ∀ s : Debugged,
    (enterLoop wide marked address args n s).byte (address.toNat + k)
      = (enterValue wide args n k).getD (s.byte (address.toNat + k)) := by
  induction n with
  | zero =>
    intro s
    rw [enterLoop, enterValue, if_neg (by omega), if_neg (by omega)]
    rfl
  | succ n ih =>
    intro s
    rw [enterLoop, ih, byte_mark]
    have hstored : (if wide (args (n + 2)).value then
          (s.poke (address.toNat + n) (args (n + 2)).value.toUInt8).poke (address.toNat + n + 1)
            ((args (n + 2)).value >>> 8).toUInt8
        else s.poke (address.toNat + n) (args (n + 2)).value.toUInt8).byte (address.toNat + k)
          = if k = n + 1 ∧ wide (args (n + 2)).value then ((args (n + 2)).value >>> 8).toUInt8
            else if k = n then (args (n + 2)).value.toUInt8
            else s.byte (address.toNat + k) := by
      split <;> simp only [byte_poke] <;> grind
    rw [hstored]
    -- the argument stored first is the last one, and what the next ones
    -- store lies below it, but for one byte
    unfold enterValue
    rcases Nat.lt_trichotomy k n with hk | rfl | hk
    · grind
    · grind
    · grind

theorem enterLoop_isDirty (hmarked : ∀ v, marked v &&& 1 ≠ 0) (n page : Nat) :
    ∀ s : Debugged, (enterLoop wide marked address args n s).isDirty page
      ↔ (0 < n ∧ page = (address >>> 8).toNat) ∨ s.isDirty page := by
  induction n with
  | zero => exact fun s => (or_iff_right fun h => absurd h.1 (Nat.lt_irrefl 0)).symm
  | succ n ih =>
    intro s
    rw [enterLoop, ih, isDirty_mark _ _ _ (hmarked _)]
    have hstored : (if wide (args (n + 2)).value then
          (s.poke (address.toNat + n) (args (n + 2)).value.toUInt8).poke (address.toNat + n + 1)
            ((args (n + 2)).value >>> 8).toUInt8
        else s.poke (address.toNat + n) (args (n + 2)).value.toUInt8).isDirty page
          = s.isDirty page := by
      split <;> simp only [isDirty_poke]
    rw [hstored]
    constructor
    · rintro (⟨-, hp⟩ | hp | hp)
      · exact .inl ⟨n.succ_pos, hp⟩
      · exact .inl ⟨n.succ_pos, hp⟩
      · exact .inr hp
    · rintro (⟨-, hp⟩ | hp)
      · exact .inr (.inl hp)
      · exact .inr (.inr hp)

end Enter

section Loops

variable (s : Debugged) (i page : Nat)

/-- A fill that does not pass the end of the image stores its value over its
range. -/
theorem fillLoop_byte (value : UInt8) {address2 : UInt16} (h2 : isNotIo address2) (n : Nat) :
    ∀ (start : UInt16) (s : Debugged), start.toNat + n ≤ 0x10000 →
      (fillLoop value address2 n start s).byte i
        = if start.toNat ≤ i ∧ i < start.toNat + n then value else s.byte i := by
  induction n with
  | zero => exact fun start s _ => (if_neg (by omega)).symm
  | succ n ih =>
    intro start s hend
    rw [fillLoop, if_pos h2]
    cases n with
    | zero =>
      rw [fillLoop, byte_poke]
      exact if_congr (by omega) rfl rfl
    | succ n =>
      have hnext : (start + 1).toNat = start.toNat + 1 := by
        rw [UInt16.toNat_add]
        show (start.toNat + 1) % 2 ^ 16 = _
        omega
      rw [ih _ _ (by omega), hnext, byte_poke]
      split_ifs <;> first | rfl | omega

theorem fillLoop_isDirty (value : UInt8) (address2 : UInt16) (n : Nat) :
    ∀ (start : UInt16) (s : Debugged),
      (fillLoop value address2 n start s).isDirty page = s.isDirty page := by
  induction n with
  | zero => exact fun _ _ => rfl
  | succ n ih =>
    intro start s
    rw [fillLoop, ih]
    split
    · exact isDirty_poke _ _ _ _
    · rfl

theorem storeBytes_byte (bytes : List UInt8) : ∀ (start : Nat) (s : Debugged),
    (storeBytes start bytes s).byte i
      = (if i < start then none else bytes[i - start]?).getD (s.byte i) := by
  induction bytes with
  | nil =>
    intro start s
    split <;> rfl
  | cons b bytes ih =>
    intro start s
    rw [storeBytes, ih, byte_poke]
    rcases Nat.lt_trichotomy i start with hi | rfl | hi
    · rw [if_pos (by omega), if_neg (by omega), if_pos hi]
    · rw [if_pos (by omega), if_pos rfl, if_neg (by omega), Nat.sub_self]
      rfl
    · rw [if_neg (by omega), if_neg (by omega), if_neg (by omega),
        show i - start = i - (start + 1) + 1 by omega, List.getElem?_cons_succ]

theorem storeBytes_isDirty (bytes : List UInt8) : ∀ (start : Nat) (s : Debugged),
    (storeBytes start bytes s).isDirty page = s.isDirty page := by
  induction bytes with
  | nil => exact fun _ _ => rfl
  | cons b bytes ih => exact fun start s => (ih _ _).trans (isDirty_poke _ _ _ _)

theorem nopLoop_byte (pc : UInt16) (n : Nat) : ∀ s : Debugged,
    (nopLoop pc n s).byte i
      = if pc.toNat ≤ i ∧ i < pc.toNat + n then opcodeNop else s.byte i := by
  induction n with
  | zero => exact fun s => (if_neg (by omega)).symm
  | succ n ih =>
    intro s
    rw [nopLoop, ih, byte_poke]
    split_ifs <;> first | rfl | omega

theorem nopLoop_isDirty (pc : UInt16) (n : Nat) : ∀ s : Debugged,
    (nopLoop pc n s).isDirty page = s.isDirty page := by
  induction n with
  | zero => exact fun s => rfl
  | succ n ih => exact fun s => (ih _).trans (isDirty_poke _ _ _ _)

/-- What the assembler stores of an operand. -/
def operandValue (opmode : AddressingMode) (base offset : UInt16) : Option UInt8 :=
  if i = base.toNat + 1 ∧ opmode.bytes > 1 then some offset.toUInt8
  else if i = base.toNat + 2 ∧ opmode.bytes > 2 then some (offset >>> 8).toUInt8
  else none

theorem assemblerPokeAddress_byte (opmode : AddressingMode) (base offset : UInt16) :
    (assemblerPokeAddress opmode base offset s).byte i
      = (operandValue i opmode base offset).getD (s.byte i) := by
  unfold assemblerPokeAddress operandValue
  by_cases h1 : opmode.bytes > 1 <;> by_cases h2 : opmode.bytes > 2 <;>
    simp only [h1, h2, if_true, if_false, byte_poke, byte_mark, and_true, and_false]
  · rcases eq_or_ne i (base.toNat + 1) with rfl | hi
    · simp
    · rw [if_neg hi]
      split <;> simp [*]
  · split <;> rfl
  · omega
  · rfl

theorem or_one_and_one (v : UInt8) : (v ||| 1) &&& 1 ≠ 0 := by
  revert v
  refine Byte.forall_byte ?_
  decide +kernel

theorem assemblerPokeAddress_isDirty (opmode : AddressingMode) (base offset : UInt16) :
    (assemblerPokeAddress opmode base offset s).isDirty page
      ↔ page = (base >>> 8).toNat ∨ s.isDirty page := by
  unfold assemblerPokeAddress
  rw [← isDirty_mark s (base >>> 8).toNat page (or_one_and_one (s.dirty (base >>> 8).toNat))]
  split <;> split <;> simp only [isDirty_poke]

end Loops

/-! ## The commands -/

/-- **The commands that change memory**, with their arguments, which may be any. A load is one of
a file that the host may fail to open, and into active memory, for any other bank is no part of
what the processor sees. -/
inductive Command where
  /-- `MEB` -/
  | enterByte (args : Nat → Arg) (nArgs : Nat)
  /-- `MEW` -/
  | enterWord (args : Nat → Arg) (nArgs : Nat)
  /-- `F` -/
  | fill (args : Nat → Arg) (nArgs : Nat)
  /-- `M` -/
  | move (args : Nat → Arg) (nArgs : Nat)
  /-- `BLOAD` into active memory, with the file if it can be opened. -/
  | load (args : Nat → Arg) (nArgs : Nat) (file : Option (List UInt8))
    (active : ∀ range ∈ loadRange args nArgs, range.bank = none)
  /-- `NOP`, with the data that has been declared. -/
  | nop (disassemblerData : List DisasmData)
  /-- `JSR` -/
  | jsr (args : Nat → Arg) (nArgs : Nat)
  /-- A line of the mini-assembler. -/
  | assemble (delayed : Option DelayedTarget) (line : Option AssemblerLine)
    (address : UInt16)

/-- What a command does. -/
def Command.run (s : Debugged) : Command → Debugged
  | .enterByte args nArgs => cmdMemoryEnterByte args nArgs s
  | .enterWord args nArgs => cmdMemoryEnterWord args nArgs s
  | .fill args nArgs => cmdMemoryFill args nArgs s
  | .move args nArgs => cmdMemoryMove args nArgs s
  | .load args nArgs file _ => cmdMemoryLoad args nArgs file s
  | .nop disassemblerData => cmdNop disassemblerData s
  | .jsr args nArgs => cmdJsr args nArgs s
  | .assemble delayed line address => Debugger.assemble delayed line address s

/-! ## What has to be covered -/

/-- The page of an address. -/
def onPageOf (address : UInt16) (page : Nat) : Prop := page = (address >>> 8).toNat

/-- What a line of the mini-assembler stores at a place, and what the symbol it
settles has stored there if it does not. -/
def assembleValue (delayed : Option DelayedTarget) (line : Option AssemblerLine)
    (address : UInt16) (i : Nat) : Option UInt8 :=
  let fixed := delayed.bind fun target =>
    operandValue i (opcodes target.opcode).addressMode target.baseAddress target.targetValue
  match line.bind fun line => line.opcode.map (line, ·) with
  | none => fixed
  | some (line, opcode) =>
    (operandValue i (opcodes opcode).addressMode address line.targetValue).or
      (if i = address.toNat then some opcode else fixed)

/-- The pages a line of the mini-assembler marks. -/
def assembleMarks (delayed : Option DelayedTarget) (line : Option AssemblerLine)
    (address : UInt16) (page : Nat) : Prop :=
  (∃ target ∈ delayed, onPageOf target.baseAddress page)
    ∨ ((line.bind AssemblerLine.opcode).isSome ∧ onPageOf address page)

/-- What is entered is covered by the page of the first address. -/
def CoversEnter (s : Debugged) (wide : UInt16 → Bool) (args : Nat → Arg) (n : Nat) : Prop :=
  ∀ k v, enterValue wide args n k = some v →
    s.Safe (onPageOf (args 1).value) ((args 1).value.toNat + k) v

/-- **The marks of a command cover what it stores**: for the bytes and words
that are entered, the page of the first address alone, which is the address that
was typed or, where the second argument is missing, the number the help has left
(`enterArgs`); for a fill and a move, always; for a file, the pages before the
one its last byte ends in; for `NOP`, none; for `JSR`, the page of the stack
pointer; and for the mini-assembler, the pages of the two opcodes. -/
def Covers (s : Debugged) : Command → Prop
  | .enterByte args nArgs => CoversEnter s isWideByte (enterArgs args nArgs) (nArgs - 1)
  | .enterWord args nArgs => CoversEnter s (fun _ => true) (enterArgs args nArgs) (nArgs - 1)
  | .fill _ _ | .move _ _ => True
  | .load args nArgs file _ => ∀ range ∈ loadRange args nArgs, ∀ bytes ∈ file, ∀ k v,
      (bytes.take (loadLen range bytes))[k]? = some v →
        s.Safe (fun page => (range.addressStart >>> 8).toNat ≤ page
          ∧ page < loadPageEnd range bytes) (range.addressStart.toNat + k) v
  | .nop disassemblerData => ∀ k : Nat,
      k < (getOpmodeOpbyte s.byte s.regs.pc (isDataAddress disassemblerData s.regs.pc)).opbyte →
        s.Safe (fun _ => False) (s.regs.pc.toNat + k) opcodeNop
  | .jsr _ nArgs => nArgs ≠ 0 →
      s.Safe (onPageOf s.regs.sp) (s.regs.sp - 1).toNat (s.regs.pc - 1).toUInt8
  | .assemble delayed line address => ∀ i v,
      assembleValue delayed line address i = some v →
        s.Safe (assembleMarks delayed line address) i v

/-! ## The marks cover the stores, or a change is lost -/

section Commands

variable (s : Debugged)

/-- The page of an address, as the number of its first byte is divided. -/
theorem toNat_shiftRight_eight (address : UInt16) :
    (address >>> 8).toNat = address.toNat / 256 := by
  rw [UInt16.toNat_shiftRight, Nat.shiftRight_eq_div_pow]
  rfl

theorem onPageOf_self (address : UInt16) : onPageOf address (address.toNat / 256) :=
  (toNat_shiftRight_eight address).symm

theorem kept_enterLoop_iff (wide : UInt16 → Bool) {marked : UInt8 → UInt8}
    (hmarked : ∀ v, marked v &&& 1 ≠ 0) (address : UInt16) (args : Nat → Arg) (n : Nat) :
    s.Kept (enterLoop wide marked address args n s)
      ↔ ∀ k v, enterValue wide args n k = some v →
        s.Safe (onPageOf address) (address.toNat + k) v := by
  rcases Nat.eq_zero_or_pos n with rfl | hn
  · refine iff_of_true (kept_of_byte_eq fun _ => rfl) fun k v hv => ?_
    rw [enterValue, if_neg (by omega), if_neg (by omega)] at hv
    cases hv
  · refine (kept_iff (fun i => if i < address.toNat then none
      else enterValue wide args n (i - address.toNat)) (onPageOf address) (fun i => ?_)
      fun page => ?_).trans ?_
    · rcases Nat.lt_or_ge i address.toNat with hi | hi
      · rw [enterLoop_byte_before _ _ _ _ n hi, if_pos hi]
        rfl
      · obtain ⟨k, rfl⟩ := Nat.exists_eq_add_of_le hi
        rw [enterLoop_byte, if_neg (by omega), Nat.add_sub_cancel_left]
    · rw [enterLoop_isDirty _ _ _ _ hmarked, and_iff_right hn]
      rfl
    · constructor
      · intro h k v hv
        refine h _ v ?_
        rw [if_neg (by omega), Nat.add_sub_cancel_left, hv]
      · intro h i v hv
        split at hv
        · cases hv
        · have := h _ v hv
          rwa [Nat.add_sub_cancel' (by omega)] at this

/-- **Where the second argument is missing, zeros are entered**, one for each argument behind the
first, over the page zero from the number of the command on which help was shown. -/
theorem byte_cmdMemoryEnterByte_of_missing {args : Nat → Arg} {nArgs : Nat}
    (hmissing : isArg2Missing args nArgs = true) (i : Nat) :
    (cmdMemoryEnterByte args nArgs s).byte i
      = if 110 ≤ i ∧ i < 110 + (nArgs - 1) then 0 else s.byte i := by
  have hargs : enterArgs args nArgs = helpArg1 cmdMemoryEnterWordId "MEW".toList := if_pos hmissing
  have hzero (j : Nat) : (helpArg1 cmdMemoryEnterWordId "MEW".toList (j + 2)).value = 0 := by
    unfold helpArg1
    rw [if_neg (by omega)]
    rfl
  unfold cmdMemoryEnterByte
  rw [hargs]
  show (enterLoop isWideByte (fun _ => 1) cmdMemoryEnterWordId _ _ s).byte i = _
  rcases Nat.lt_or_ge i 110 with hi | hi
  · rw [enterLoop_byte_before _ _ _ _ _ hi, if_neg (by omega)]
  · obtain ⟨k, rfl⟩ := Nat.exists_eq_add_of_le hi
    refine (enterLoop_byte _ _ cmdMemoryEnterWordId _ _ k s).trans ?_
    have hnarrow : ¬ (1 ≤ k ∧ k ≤ nArgs - 1
        ∧ isWideByte (helpArg1 cmdMemoryEnterWordId "MEW".toList (k + 1)).value = true) := by
      rintro ⟨hk, -, hwide⟩
      obtain ⟨j, rfl⟩ := Nat.exists_eq_add_of_le' hk
      rw [hzero] at hwide
      exact absurd hwide (by decide)
    unfold enterValue
    rw [if_neg hnarrow, hzero]
    by_cases hk : k < nArgs - 1
    · rw [if_pos hk, if_pos (by omega)]
      rfl
    · rw [if_neg hk, if_neg (by omega)]
      rfl

/-- A fill with a length does not pass its end. -/
theorem fillRange_eq_some {args : Nat → Arg} {nArgs : Nat} {start address2 : UInt16}
    {endLen : RangeEndLen} (h : fillRange args nArgs = some (start, address2, endLen))
    (hlen : endLen.addressLen > 0) :
    address2 = 0 ∧ start.toNat + endLen.addressLen.toNat ≤ endLen.addressEnd.toNat + 1 := by
  unfold fillRange at h
  split at h
  · cases h
  · split at h
    · cases h
      exact ⟨rfl, by dsimp only at hlen ⊢; omega⟩
    · dsimp only at h
      split at h
      · cases h
        exact absurd hlen (by decide)
      · cases h

/-- **A fill marks what it fills.** -/
theorem kept_cmdMemoryFill (args : Nat → Arg) (nArgs : Nat) :
    s.Kept (cmdMemoryFill args nArgs s) := by
  unfold cmdMemoryFill
  split
  · exact kept_of_byte_eq fun _ => rfl
  · rename_i start address2 endLen hrange
    split
    · rename_i hlen
      obtain ⟨rfl, hend⟩ := fillRange_eq_some hrange hlen.1
      have hstop := endLen.addressEnd.toNat_lt
      intro i _ hne
      rw [fillLoop_byte _ _ rfl _ _ _ (by omega)] at hne
      have hi : start.toNat ≤ i ∧ i < start.toNat + endLen.addressLen.toNat := by
        by_contra hno
        rw [if_neg hno] at hne
        exact hne (byte_markPages _ _ _ _ _)
      refine ⟨by omega, ?_⟩
      rw [fillLoop_isDirty, memMarkDirty, isDirty_markPages _ _ _ (by decide),
        toNat_shiftRight_eight, toNat_shiftRight_eight]
      exact .inl (by omega)
    · exact kept_of_byte_eq fun _ => rfl

/-- A move moves nothing. -/
theorem cmdMemoryMove_eq (args : Nat → Arg) (nArgs : Nat) : cmdMemoryMove args nArgs s = s := by
  unfold cmdMemoryMove
  split
  · rfl
  · dsimp only
    split
    · rfl
    · exact if_neg fun h => absurd h.1 (by decide)

theorem kept_loadActive_iff (range : LoadRange) (bytes : List UInt8) :
    s.Kept (loadActive range (some bytes) s)
      ↔ ∀ k v, (bytes.take (loadLen range bytes))[k]? = some v →
        s.Safe (fun page => (range.addressStart >>> 8).toNat ≤ page
          ∧ page < loadPageEnd range bytes) (range.addressStart.toNat + k) v := by
  refine (kept_iff (fun i => if i < range.addressStart.toNat then none
    else (bytes.take (loadLen range bytes))[i - range.addressStart.toNat]?)
    (fun page => (range.addressStart >>> 8).toNat ≤ page
      ∧ page < loadPageEnd range bytes) (fun i => ?_) fun page => ?_).trans ?_
  · rw [loadActive, byte_markPages, storeBytes_byte]
  · rw [loadActive, isDirty_markPages _ _ _ (by decide), storeBytes_isDirty]
  · constructor
    · intro h k v hv
      refine h _ v ?_
      rw [if_neg (by omega), Nat.add_sub_cancel_left, hv]
    · intro h i v hv
      split at hv
      · cases hv
      · have := h _ v hv
        rwa [Nat.add_sub_cancel' (by omega)] at this

theorem kept_cmdNop_iff (disassemblerData : List DisasmData) :
    s.Kept (cmdNop disassemblerData s) ↔ Covers s (.nop disassemblerData) := by
  unfold cmdNop Covers
  generalize hlen : (getOpmodeOpbyte s.byte s.regs.pc
    (isDataAddress disassemblerData s.regs.pc)).opbyte = len
  refine (kept_iff (fun i => if s.regs.pc.toNat ≤ i ∧ i < s.regs.pc.toNat + len.toNat then
    some opcodeNop else none) (fun _ => False) (fun i => ?_) fun page => ?_).trans ?_
  · rw [nopLoop_byte, getD_ite, hlen]
    rfl
  · rw [nopLoop_isDirty, false_or]
  · constructor
    · exact fun h k hk => h _ _ (if_pos (by omega))
    · intro h i v hv
      split at hv
      · cases hv
        have := h (i - s.regs.pc.toNat) (by omega)
        rwa [Nat.add_sub_cancel' (by omega)] at this
      · cases hv

theorem kept_cmdJsr_iff (args : Nat → Arg) (nArgs : Nat) :
    s.Kept (cmdJsr args nArgs s) ↔ Covers s (.jsr args nArgs) := by
  unfold cmdJsr Covers
  by_cases hn : nArgs = 0
  · rw [if_pos hn]
    exact iff_of_true (kept_of_byte_eq fun _ => rfl) fun h => absurd hn h
  · rw [if_neg hn]
    refine (kept_iff (fun i => if i = (s.regs.sp - 1).toNat then
        some (s.regs.pc - 1).toUInt8
      else if i = s.regs.sp.toNat then some (s.regs.pc >>> 8).toUInt8 else none)
      (onPageOf s.regs.sp) (fun i => ?_) fun page => ?_).trans ?_
    · rw [getD_ite, getD_ite]
      show (((s.mark _ _).poke _ _).poke _ _).byte i = _
      rw [byte_poke, byte_poke, byte_mark]
      rfl
    · show (((s.mark _ _).poke _ _).poke _ _).isDirty page ↔ _
      rw [isDirty_poke, isDirty_poke, isDirty_mark _ _ _ (by decide)]
      rfl
    · constructor
      · exact fun h _ => h _ _ (if_pos rfl)
      · intro h i v hv
        split at hv
        · cases hv
          subst i
          exact h hn
        · split at hv
          · cases hv
            subst i
            exact fun _ _ => ⟨s.regs.sp.toNat_lt, .inl (onPageOf_self _)⟩
          · cases hv

theorem assemblerPokeOpcodeAddress_byte (line : AssemblerLine) (address : UInt16) (i : Nat)
    {opcode : UInt8} (h : line.opcode = some opcode) :
    (assemblerPokeOpcodeAddress line address s).byte i
      = (operandValue i (opcodes opcode).addressMode address line.targetValue).getD
          (if i = address.toNat then opcode else s.byte i) := by
  unfold assemblerPokeOpcodeAddress
  rw [h]
  exact (assemblerPokeAddress_byte _ _ _ _ _).trans (by rw [byte_poke])

theorem assemblerPokeOpcodeAddress_isDirty (line : AssemblerLine) (address : UInt16)
    (page : Nat) :
    (assemblerPokeOpcodeAddress line address s).isDirty page
      ↔ (line.opcode.isSome ∧ onPageOf address page) ∨ s.isDirty page := by
  unfold assemblerPokeOpcodeAddress
  cases line.opcode with
  | none => simp
  | some opcode =>
    refine (assemblerPokeAddress_isDirty _ _ _ _ _).trans ?_
    rw [isDirty_poke]
    exact or_congr (and_iff_right rfl).symm Iff.rfl

theorem assemblerProcessDelayedSymbols_byte (delayed : Option DelayedTarget) (i : Nat) :
    (assemblerProcessDelayedSymbols delayed s).byte i
      = (delayed.bind fun target => operandValue i (opcodes target.opcode).addressMode
          target.baseAddress target.targetValue).getD (s.byte i) := by
  cases delayed with
  | none => rfl
  | some target => exact (byte_mark _ _ _ _).trans (assemblerPokeAddress_byte _ _ _ _ _)

theorem assemblerProcessDelayedSymbols_isDirty (delayed : Option DelayedTarget) (page : Nat) :
    (assemblerProcessDelayedSymbols delayed s).isDirty page
      ↔ (∃ target ∈ delayed, onPageOf target.baseAddress page) ∨ s.isDirty page := by
  cases delayed with
  | none => simp [assemblerProcessDelayedSymbols]
  | some target =>
    refine (isDirty_mark _ _ _ (or_one_and_one _)).trans ?_
    rw [assemblerPokeAddress_isDirty, ← or_assoc, or_self]
    simp [onPageOf]

theorem kept_assemble_iff (delayed : Option DelayedTarget) (line : Option AssemblerLine)
    (address : UInt16) :
    s.Kept (Debugger.assemble delayed line address s)
      ↔ Covers s (.assemble delayed line address) := by
  refine kept_iff (assembleValue delayed line address) (assembleMarks delayed line address)
    (fun i => ?_) fun page => ?_
  · unfold Debugger.assemble assembleValue
    cases line with
    | none => exact assemblerProcessDelayedSymbols_byte s delayed i
    | some line =>
      cases hop : line.opcode with
      | none =>
        simp only [Option.bind_some, hop, Option.map_none, assemblerPokeOpcodeAddress]
        exact assemblerProcessDelayedSymbols_byte s delayed i
      | some opcode =>
        simp only [Option.bind_some, hop, Option.map_some]
        rw [assemblerPokeOpcodeAddress_byte _ _ _ _ hop,
          assemblerProcessDelayedSymbols_byte s delayed i, Option.getD_or, getD_ite]
  · unfold Debugger.assemble assembleMarks
    cases line with
    | none =>
      refine (assemblerProcessDelayedSymbols_isDirty s delayed page).trans ?_
      simp
    | some line =>
      refine (assemblerPokeOpcodeAddress_isDirty _ _ _ _).trans ?_
      rw [assemblerProcessDelayedSymbols_isDirty, Option.bind_some]
      exact or_left_comm.trans or_assoc.symm

/-- **A command loses no change if and only if its marks cover what it stores.** The state and the
arguments are arbitrary. On the left the command is run and every byte looked at; on the right
stand the arguments and the state before. A byte that is stored over itself is no change on either
side. -/
theorem kept_run_iff (cmd : Command) : s.Kept (cmd.run s) ↔ Covers s cmd := by
  cases cmd with
  | enterByte args nArgs =>
    exact kept_enterLoop_iff s _ (fun _ => by decide) _ (enterArgs args nArgs) _
  | enterWord args nArgs => exact kept_enterLoop_iff s _ or_one_and_one _ (enterArgs args nArgs) _
  | fill args nArgs => exact iff_of_true (kept_cmdMemoryFill s args nArgs) trivial
  | move args nArgs =>
    refine iff_of_true (kept_of_byte_eq fun i => ?_) trivial
    exact congrArg (Debugged.byte · i) (cmdMemoryMove_eq s args nArgs)
  | load args nArgs file active =>
    show s.Kept (cmdMemoryLoad args nArgs file s) ↔ ∀ range ∈ loadRange args nArgs, _
    clear active
    unfold cmdMemoryLoad
    cases loadRange args nArgs with
    | none => exact iff_of_true (kept_of_byte_eq fun _ => rfl) fun _ h => by cases h
    | some range =>
      cases file with
      | none => exact iff_of_true (kept_of_byte_eq fun _ => rfl) fun _ _ _ h => by cases h
      | some bytes =>
        refine (kept_loadActive_iff s range bytes).trans ?_
        simp only [Option.mem_some_iff, forall_eq']
  | nop disassemblerData => exact kept_cmdNop_iff s disassemblerData
  | jsr args nArgs => exact kept_cmdJsr_iff s args nArgs
  | assemble delayed line address => exact kept_assemble_iff s delayed line address

end Commands

/-! ## A covered edit comes back -/

section Keeps

variable {P : MemoryInstance → Prop}
  (hpoke : ∀ s : Debugged, P s.memory → ∀ i v, P (s.poke i v).memory)
  (hmark : ∀ s : Debugged, P s.memory → ∀ page v, P (s.mark page v).memory)

include hmark in
theorem markPages_keeps (lo hi : Nat) (v : UInt8) {s : Debugged} (h : P s.memory) :
    P (markPages lo hi v s).memory := by
  unfold markPages
  generalize List.range' lo (hi - lo) = pages
  induction pages generalizing s with
  | nil => exact h
  | cons page pages ih => exact ih (hmark _ h _ _)

include hpoke hmark in
theorem enterLoop_keeps (wide : UInt16 → Bool) (marked : UInt8 → UInt8) (address : UInt16)
    (args : Nat → Arg) (n : Nat) {s : Debugged} (h : P s.memory) :
    P (enterLoop wide marked address args n s).memory := by
  induction n generalizing s with
  | zero => exact h
  | succ n ih =>
    refine ih (hmark _ ?_ _ _)
    split
    · exact hpoke _ (hpoke _ h _ _) _ _
    · exact hpoke _ h _ _

include hpoke in
theorem fillLoop_keeps (value : UInt8) (address2 : UInt16) (n : Nat) (start : UInt16)
    {s : Debugged} (h : P s.memory) : P (fillLoop value address2 n start s).memory := by
  induction n generalizing start s with
  | zero => exact h
  | succ n ih =>
    refine ih _ ?_
    split
    · exact hpoke _ h _ _
    · exact h

include hpoke in
theorem storeBytes_keeps (bytes : List UInt8) (start : Nat) {s : Debugged}
    (h : P s.memory) : P (storeBytes start bytes s).memory := by
  induction bytes generalizing start s with
  | nil => exact h
  | cons b bytes ih => exact ih _ (hpoke _ h _ _)

include hpoke in
theorem nopLoop_keeps (pc : UInt16) (n : Nat) {s : Debugged} (h : P s.memory) :
    P (nopLoop pc n s).memory := by
  induction n generalizing s with
  | zero => exact h
  | succ n ih => exact ih (hpoke _ h _ _)

include hpoke hmark in
theorem assemblerPokeAddress_keeps (opmode : AddressingMode) (base offset : UInt16)
    {s : Debugged} (h : P s.memory) :
    P (assemblerPokeAddress opmode base offset s).memory := by
  have hmarked := hmark s h (base >>> 8).toNat (s.dirty (base >>> 8).toNat ||| 1)
  unfold assemblerPokeAddress
  split <;> split
  · exact hpoke _ (hpoke _ hmarked _ _) _ _
  · exact hpoke _ hmarked _ _
  · exact hpoke _ hmarked _ _
  · exact hmarked

include hpoke hmark in
theorem assemble_keeps (delayed : Option DelayedTarget) (line : Option AssemblerLine)
    (address : UInt16) {s : Debugged} (h : P s.memory) :
    P (Debugger.assemble delayed line address s).memory := by
  have hdelayed : P (assemblerProcessDelayedSymbols delayed s).memory := by
    cases delayed with
    | none => exact h
    | some target => exact hmark _ (assemblerPokeAddress_keeps hpoke hmark _ _ _ h) _ _
  unfold Debugger.assemble assemblerPokeOpcodeAddress
  split
  · exact hdelayed
  · split
    · exact hdelayed
    · exact assemblerPokeAddress_keeps hpoke hmark _ _ _ (hpoke _ hdelayed _ _)

include hpoke hmark in
/-- **What every store and every mark keeps, every command keeps.** -/
theorem run_keeps (cmd : Command) {s : Debugged} (h : P s.memory) : P (cmd.run s).memory := by
  cases cmd with
  | enterByte args nArgs => exact enterLoop_keeps hpoke hmark _ _ _ _ _ h
  | enterWord args nArgs => exact enterLoop_keeps hpoke hmark _ _ _ _ _ h
  | fill args nArgs =>
    show P (cmdMemoryFill args nArgs s).memory
    unfold cmdMemoryFill
    split
    · exact h
    · split
      · exact fillLoop_keeps hpoke _ _ _ _ (markPages_keeps hmark _ _ _ h)
      · exact h
  | move args nArgs =>
    show P (cmdMemoryMove args nArgs s).memory
    rwa [cmdMemoryMove_eq]
  | load args nArgs file active =>
    show P (cmdMemoryLoad args nArgs file s).memory
    unfold cmdMemoryLoad loadActive
    split
    · exact h
    · split
      · exact h
      · exact markPages_keeps hmark _ _ _ (storeBytes_keeps hpoke _ _ h)
  | nop disassemblerData => exact nopLoop_keeps hpoke _ _ h
  | jsr args nArgs =>
    show P (cmdJsr args nArgs s).memory
    unfold cmdJsr
    split
    · exact h
    · exact hpoke _ (hpoke _ (hmark _ h _ _) _ _) _ _
  | assemble delayed line address => exact assemble_keeps hpoke hmark _ _ _ h

end Keeps

/-- The tables stand whatever the debugger stores. -/
theorem hasTables_run (cmd : Command) {s : Debugged} (h : HasTables s.memory) :
    HasTables (cmd.run s).memory := by
  refine run_keeps (P := HasTables) (fun s h i v => ?_) (fun s h page v => ?_) cmd h
  · obtain ⟨m, hm, hmode⟩ := h
    unfold poke
    split
    · exact ⟨m, ⟨hm.memshadow_eq, hm.memwrite_eq⟩, hmode⟩
    · exact ⟨m, hm, hmode⟩
  · obtain ⟨m, hm, hmode⟩ := h
    unfold mark
    split
    · exact ⟨m, ⟨hm.memshadow_eq, hm.memwrite_eq⟩, hmode⟩
    · exact ⟨m, hm, hmode⟩

/-- **A covered edit comes back**: a byte that was changed outside the I/O
region is shown again, whatever the program switches in between, when its
page shows the same stored page and was not written to. -/
theorem covered_edit_comes_back (ty : Apple2Type) {s : Debugged} {cmd : Command}
    (h : HasTables s.memory) (hcovers : Covers s cmd) {i : Nat} (hio : OutsideIo i)
    (hchanged : (cmd.run s).byte i ≠ s.byte i) :
    ∃ page offset : Fin 256, i = 256 * page + offset ∧ ∀ as : List Access,
      (∀ a ∈ as, a.SparesPage page) →
      ((memoryMachine ty).run (cmd.run s).memory as).memshadow page
        = (cmd.run s).memory.memshadow page →
      ((memoryMachine ty).run (cmd.run s).memory as).mem page offset = (cmd.run s).byte i := by
  obtain ⟨hi, hdirty⟩ := (kept_run_iff s cmd).mpr hcovers i hio hchanged
  refine ⟨⟨i / 256, by omega⟩, ⟨i % 256, by omega⟩, (Nat.div_add_mod i 256).symm,
    fun as has hshown => ?_⟩
  have hpage : i / 256 < 256 := by omega
  have hmark : (cmd.run s).memory.memdirty ⟨i / 256, hpage⟩ &&& 1 ≠ 0 := by
    simpa [isDirty, dirty, hpage] using hdirty
  have hexp : Memory.isExpansionPage ⟨i / 256, hpage⟩ = false := by
    unfold OutsideIo at hio
    simp only [Memory.isExpansionPage, Bool.and_eq_false_iff, decide_eq_false_iff_not]
    omega
  rw [mem_of_dirty ty (hasTables_run cmd h) hmark hexp has hshown, byte, dif_pos hi]

/-! ## An edit that is lost -/

/-- A blank memory with the processor at 0x300. -/
def Debugged.blank : Debugged where
  memory := MemoryInstance.blank
  behindImage := fun _ => 0
  behindDirty := fun _ => 0
  regs := ⟨0, 0, 0, 0, 0x300, 0x1FF, false⟩

/-- **`NOP` marks no page**: over a `BRK` at 0x300, in a page that is not
dirty, the instruction it stores is lost. -/
theorem not_kept_run : ¬ ∀ (s : Debugged) (cmd : Command), s.Kept (cmd.run s) := by
  intro h
  have := h .blank (.nop []) 0x300 (.inl (by decide)) (by decide +kernel)
  exact absurd this.2 (by decide +kernel)

end LinApple.Debugger
