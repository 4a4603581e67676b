import LinApple.Debugger.Targets

/-!
# Forward references of the mini-assembler

A line may name a symbol that is not defined yet. Its target is kept until a later line is
assembled, when the symbols that are defined by then are looked up and the operands patched. The
loop that does this is over after the first operand it patches (`processDelayedSymbols_eq`), and a
branch that is out of range stands in the way of the branches behind it, so the references are
resolved only where there is at most one to resolve (`resolves_iff`).

What it means that they are resolved is said of the list before and the list after. None that can
be resolved is left, and those that are gone use their addresses: an operand is used as the
processor would use it, so for a branch it is the distance that leads there, and otherwise one
byte or two, as the instruction has room for. That an address is stored at the right place is not
enough, since one that is too large for its operand is cut off there; `DelayedTarget.Uses` is
about what the instruction reaches.

The list and memory are arbitrary, and need not be what assembled lines leave. It may have a
reference twice, and two of them at one address, and patching the one would change what the other
uses. This does no harm where at most one is resolved, and it is why the converse is proved by
what the loop leaves and not by a count of its rounds.

The condition `AtMostOne` is about the state before: how many references can be resolved, and if
it is one, that its operand has room and does not begin at the end of memory. The second part of
the theorem is about branches by themselves. A distance is reported to be out of range exactly if
it is, and one that is in range leads to its target, round the end of memory as well.
-/

namespace LinApple.Debugger.MiniAssembler

open Cpu (CpuRegisters CpuState Bus opcodeDesc)
open Byte (word)

/-! ## Symbols -/

/-- A table of symbols, by address. -/
structure SymbolTable where
  /-- Its bit of `display_symbol_tables`. -/
  displayed : Bool
  /-- The symbols. -/
  symbols : List (UInt16 × List Char)

/-- `strcasecmp` finds no difference. -/
def sameSymbol (a b : List Char) : Bool := a.map Char.toLower = b.map Char.toLower

/-- **`FindAddressFromSymbol`**: the last table, which is the user's, comes first. -/
def findAddressFromSymbol (tables : List SymbolTable) (symbol : List Char) : Option UInt16 :=
  tables.reverse.findSome? fun table =>
    if table.displayed then (table.symbols.find? fun s => sameSymbol s.2 symbol).map (·.1)
    else none

/-! ## Pending targets -/

/-- `DelayedTarget`; `opmode` is not read. -/
structure DelayedTarget where
  /-- `address_str` -/
  addressStr : List Char
  /-- `base_address` -/
  baseAddress : UInt16
  /-- `opcode` -/
  opcode : UInt8
deriving DecidableEq, Repr

/-- What the pass over the pending targets reads and writes. The address mode is here only as far
as the pass looks at it. -/
structure AsmState where
  /-- `mem` -/
  mem : Nat → UInt8
  /-- `memdirty` -/
  memdirty : Nat → UInt8
  /-- `asm_address_mode == NUM_OPMODES` -/
  badMode : Bool
  /-- `delayed_targets` -/
  delayedTargets : List DelayedTarget
  /-- `delayed_targets_dirty` -/
  delayedTargetsDirty : Bool

/-- `IsOpcodeBranch` -/
def isOpcodeBranch (opcode : UInt8) : Bool :=
  opcode = 0x80 || (opcode &&& 0x1F = 0x10 && (opcode >>> 4) &&& 1 ≠ 0)

/-- The distance of a branch is one that a byte has room for. -/
def inRange (base target : UInt16) : Prop :=
  -128 ≤ (target.toNat : Int) - (base.toNat + 2) ∧ (target.toNat : Int) - (base.toNat + 2) ≤ 127

instance (base target : UInt16) : Decidable (inRange base target) :=
  inferInstanceAs (Decidable (_ ∧ _))

/-- **`CalcRelativeOffset`** of a branch: the offset, and whether it is reported to be out of
range. -/
def calcRelativeOffset (base target : UInt16) : UInt8 × Bool :=
  let distance : Int := target.toNat - base.toNat
  (UInt8.ofNat ((distance - 2) % 256).toNat, 127 < distance - 2 || distance - 2 < -128)

namespace AsmState

variable (tables : List SymbolTable) (s : AsmState)

/-- A byte is stored. -/
def poke (i : Nat) (v : UInt8) : AsmState :=
  { s with mem := fun j => if j = i then v else s.mem j }

/-- A page is marked dirty. -/
def markDirty (base : UInt16) : AsmState :=
  { s with memdirty := fun page =>
      if page = base.toNat / 256 then s.memdirty page ||| 1 else s.memdirty page }

/-- **`AssemblerPokeAddress`** -/
def pokeAddress (opmode : AddressingMode) (base target : UInt16) : AsmState :=
  let s := s.markDirty base
  let s := if 1 < opmode.bytes then s.poke (base.toNat + 1) target.toUInt8 else s
  if 2 < opmode.bytes then s.poke (base.toNat + 2) (target >>> 8).toUInt8 else s

/-- A target whose symbol is defined: whether it is resolved, and what comes of it. -/
def resolve (t : DelayedTarget) (address : UInt16) : AsmState × Bool :=
  let opmode := (opcodes t.opcode).addressMode
  if isOpcodeBranch t.opcode then
    let (offset, outOfRange) := calcRelativeOffset t.baseAddress address
    let s := { s with badMode := s.badMode || outOfRange }
    if s.badMode then (s, false)
    else ((s.pokeAddress opmode t.baseAddress offset.toUInt16).markDirty t.baseAddress, true)
  else ((s.pokeAddress opmode t.baseAddress address).markDirty t.baseAddress, true)

/-- The inner loop of `AssemblerProcessDelayedSymols`, with the targets it has passed and those
it has not reached: the state, and `bModified`. -/
def passTargets : List DelayedTarget → List DelayedTarget → AsmState → AsmState × Bool
  | _, [], s => (s, false)
  | passed, t :: rest, s =>
    match findAddressFromSymbol tables t.addressStr with
    | none => passTargets (passed ++ [t]) rest s
    | some address =>
      match s.resolve t address with
      | (s, true) => ({ s with delayedTargets := passed ++ rest }, true)
      | (s, false) => passTargets (passed ++ [t]) rest s

/-- The outer loop, `while (!bModified)`, which is left as well when nothing was modified. -/
def processRounds : Nat → AsmState → AsmState
  | 0, s => s
  | n + 1, s =>
    let (s, modified) := passTargets tables [] s.delayedTargets s
    if !modified then s
    else if !modified then processRounds n s
    else s

/-- **`AssemblerProcessDelayedSymols`** -/
def processDelayedSymbols : AsmState :=
  processRounds tables (s.delayedTargets.length + 1) { s with delayedTargetsDirty := false }

end AsmState

/-! ## What is to be resolved -/

/-- The symbol of a target is defined, and a branch reaches it. -/
def DelayedTarget.Resolvable (tables : List SymbolTable) (t : DelayedTarget) : Prop :=
  ∃ address, findAddressFromSymbol tables t.addressStr = some address ∧
    (isOpcodeBranch t.opcode = true → inRange t.baseAddress address)

/-- **The address in the operand of an instruction**, with the bytes where the processor reads
them: the opcode at `base`, and the operand behind it. -/
def operandAddress (mem : Nat → UInt8) (base : UInt16) (mode : AddressingMode) : Option UInt16 :=
  let place := (base + 1).toNat
  if mode = .r then some (base + 2 + Cpu.signExtend (mem place))
  else if mode.bytes = 2 then some (mem place).toUInt16
  else if mode.bytes = 3 then some (readWord mem place)
  else none

/-- The instruction of a target uses an address. -/
def DelayedTarget.Uses (t : DelayedTarget) (mem : Nat → UInt8) (address : UInt16) : Prop :=
  operandAddress mem t.baseAddress (opcodes t.opcode).addressMode = some address

instance (t : DelayedTarget) (mem : Nat → UInt8) (address : UInt16) :
    Decidable (t.Uses mem address) :=
  inferInstanceAs (Decidable (_ = _))

/-- **The references are resolved**: no pending target remains that is to be resolved, and the
others are gone with their operands patched. -/
structure Resolved (tables : List SymbolTable) (s s' : AsmState) : Prop where
  /-- None remains. -/
  none_left : ∀ t ∈ s'.delayedTargets, ¬ t.Resolvable tables
  /-- The others use their addresses. -/
  patched : ∃ resolved, s.delayedTargets.Perm (resolved ++ s'.delayedTargets) ∧
    ∀ t ∈ resolved, ∃ address, findAddressFromSymbol tables t.addressStr = some address ∧
      t.Uses s'.mem address

/-- The operand of a target has room for an address: it is a word, or a byte that the address
fits in, or a branch. At `$FFFF` it is not where the processor reads it. -/
def DelayedTarget.Fits (t : DelayedTarget) (mem : Nat → UInt8) (address : UInt16) : Prop :=
  if t.baseAddress = 0xFFFF then t.Uses mem address
  else isOpcodeBranch t.opcode = true ∨ (opcodes t.opcode).addressMode.bytes = 3 ∨
    (opcodes t.opcode).addressMode.bytes = 2 ∧ address < 0x100

/-- **There is at most one target to resolve**, with room for its address; and if it is a branch
then none is reported out of range yet, nor is one of those before it. -/
def AtMostOne (tables : List SymbolTable) (s : AsmState) : Prop :=
  (∀ t ∈ s.delayedTargets, ¬ t.Resolvable tables) ∨
  ∃ before t after address, s.delayedTargets = before ++ t :: after ∧
    (∀ u ∈ before ++ after, ¬ u.Resolvable tables) ∧
    findAddressFromSymbol tables t.addressStr = some address ∧
    (isOpcodeBranch t.opcode = true → inRange t.baseAddress address ∧ s.badMode = false ∧
      ∀ u ∈ before, isOpcodeBranch u.opcode = true →
        findAddressFromSymbol tables u.addressStr = none) ∧
    t.Fits s.mem address

/-! ## Patched operands -/

/-- The branches are the opcodes with a relative operand. -/
theorem isOpcodeBranch_iff (opcode : UInt8) :
    isOpcodeBranch opcode = true ↔ (opcodes opcode).addressMode = .r :=
  opcodes_of_zipIdx (P := fun opcode row => isOpcodeBranch opcode = true ↔ row.addressMode = .r)
    (by decide +kernel) opcode

/-- What is stored for a target: the offset of a branch, or the address. -/
def DelayedTarget.targetValue (t : DelayedTarget) (address : UInt16) : UInt16 :=
  if isOpcodeBranch t.opcode then (calcRelativeOffset t.baseAddress address).1.toUInt16
  else address

/-- The memory with the operand of a target patched. -/
def DelayedTarget.patch (t : DelayedTarget) (mem : Nat → UInt8) (address : UInt16) :
    Nat → UInt8 := fun i =>
  if 2 < (opcodes t.opcode).addressMode.bytes ∧ i = t.baseAddress.toNat + 2 then
    (t.targetValue address >>> 8).toUInt8
  else if 1 < (opcodes t.opcode).addressMode.bytes ∧ i = t.baseAddress.toNat + 1 then
    (t.targetValue address).toUInt8
  else mem i

/-- **Out of range is reported, and nothing else.** -/
theorem calcRelativeOffset_reports (base target : UInt16) :
    (calcRelativeOffset base target).2 = true ↔ ¬ inRange base target := by
  unfold calcRelativeOffset inRange
  simp only [Bool.or_eq_true, decide_eq_true_eq]
  omega

/-- **A branch with its offset reaches its target.** -/
theorem branch_reaches {base target : UInt16} (h : inRange base target) :
    base + 2 + Cpu.signExtend (calcRelativeOffset base target).1 = target := by
  obtain ⟨hlow, hhigh⟩ := h
  have hext : ∀ b : UInt8, (Cpu.signExtend b).toNat = if b.toNat < 128 then b.toNat else b.toNat + 65280 :=
    Byte.forall_byte (by decide +kernel)
  have hbase := base.toNat_lt
  have htarget := target.toNat_lt
  rw [← UInt16.toNat_inj, UInt16.toNat_add, UInt16.toNat_add, hext]
  unfold calcRelativeOffset
  dsimp only
  rw [UInt8.toNat_ofNat']
  simp only [UInt16.reduceToNat]
  split_ifs <;> omega

theorem toUInt16_toUInt8 (a : UInt16) : a.toUInt8.toUInt16 = a ↔ a < 0x100 := by
  rw [← UInt16.toNat_inj, UInt16.lt_iff_toNat_lt]
  simp

theorem word_bytes (a : UInt16) : word a.toUInt8 (a >>> 8).toUInt8 = a := by
  rw [← UInt16.toNat_inj, Byte.toNat_word]
  have hlt := a.toNat_lt
  simp [Nat.shiftRight_eq_div_pow]
  omega

theorem bytes_cases (mode : AddressingMode) : mode.bytes = 1 ∨ mode.bytes = 2 ∨ mode.bytes = 3 := by
  cases mode <;> decide

/-- **A patched operand is used if it fits, and only then.** -/
theorem DelayedTarget.uses_patch_iff {t : DelayedTarget} {address : UInt16}
    (hrange : isOpcodeBranch t.opcode = true → inRange t.baseAddress address) (mem : Nat → UInt8) :
    t.Uses (t.patch mem address) address ↔ t.Fits mem address := by
  unfold Fits
  by_cases hend : t.baseAddress = 0xFFFF
  · -- the patch lies behind the end of the image
    rw [if_pos hend]
    have hsame : ∀ i < 2, t.patch mem address i = mem i := by
      intro i hi
      unfold patch
      rw [hend]
      rw [if_neg (by rintro ⟨-, h⟩; simp at h; omega), if_neg (by rintro ⟨-, h⟩; simp at h; omega)]
    unfold Uses operandAddress readWord
    rw [hend]
    simp only [(by decide : ((0xFFFF : UInt16) + 1).toNat = 0), hsame 0 (by decide),
      hsame (0 + 1) (by decide)]
  rw [if_neg hend]
  have hplace : (t.baseAddress + 1).toNat = t.baseAddress.toNat + 1 := by
    have hne : t.baseAddress.toNat ≠ 0xFFFF := fun h => hend (UInt16.toNat_inj.1 h)
    have hlt := t.baseAddress.toNat_lt
    rw [UInt16.toNat_add]
    simp only [UInt16.reduceToNat]
    omega
  have hlow (h : 1 < (opcodes t.opcode).addressMode.bytes) :
      t.patch mem address (t.baseAddress.toNat + 1) = (t.targetValue address).toUInt8 := by
    unfold patch
    rw [if_neg (by omega), if_pos ⟨h, rfl⟩]
  have hhigh (h : 2 < (opcodes t.opcode).addressMode.bytes) :
      t.patch mem address (t.baseAddress.toNat + 1 + 1) = (t.targetValue address >>> 8).toUInt8 :=
    if_pos ⟨h, rfl⟩
  unfold Uses operandAddress readWord
  rw [hplace]
  dsimp only
  by_cases hmode : (opcodes t.opcode).addressMode = .r
  · have hbranch := (isOpcodeBranch_iff t.opcode).2 hmode
    have htwo : 1 < (opcodes t.opcode).addressMode.bytes := by
      rw [hmode]
      decide
    have hvalue : t.targetValue address
        = (calcRelativeOffset t.baseAddress address).1.toUInt16 := if_pos hbranch
    rw [if_pos hmode, hlow htwo, hvalue, UInt8.toUInt8_toUInt16, branch_reaches (hrange hbranch)]
    exact iff_of_true rfl (.inl hbranch)
  · have hbranch : isOpcodeBranch t.opcode ≠ true := fun h => hmode ((isOpcodeBranch_iff _).1 h)
    have hvalue : t.targetValue address = address := if_neg hbranch
    rw [hvalue] at hlow hhigh
    rw [if_neg hmode]
    rcases bytes_cases (opcodes t.opcode).addressMode with hone | htwo | hthree
    · rw [hone, if_neg (by decide), if_neg (by decide)]
      exact iff_of_false (by simp) (by simp [hbranch])
    · rw [htwo, if_pos rfl, hlow (by omega), Option.some_inj, toUInt16_toUInt8]
      simp [hbranch]
    · rw [hthree, if_neg (by decide), if_pos rfl, hlow (by omega), hhigh (by omega), word_bytes]
      exact iff_of_true rfl (.inr (.inl rfl))

namespace AsmState

variable {tables : List SymbolTable} {s : AsmState} {t : DelayedTarget} {address : UInt16}

/-- A target is resolved that is no branch, or one in range before any was reported. -/
theorem resolve_taken
    (h : isOpcodeBranch t.opcode = true → inRange t.baseAddress address ∧ s.badMode = false) :
    ∃ s', s.resolve t address = (s', true) ∧ s'.mem = t.patch s.mem address := by
  have hpatch (value : UInt16) (hvalue : t.targetValue address = value) (b : Bool) :
      ((({ s with badMode := b }).pokeAddress (opcodes t.opcode).addressMode t.baseAddress
        value).markDirty t.baseAddress).mem = t.patch s.mem address := by
    funext i
    subst hvalue
    unfold pokeAddress DelayedTarget.patch
    dsimp only
    split_ifs <;> simp_all [markDirty, poke]
  unfold resolve
  by_cases hbranch : isOpcodeBranch t.opcode = true
  · obtain ⟨hrange, hbad⟩ := h hbranch
    have hreport : (calcRelativeOffset t.baseAddress address).2 = false := by
      rw [← Bool.not_eq_true, calcRelativeOffset_reports]
      exact not_not_intro hrange
    simp only [hbranch, if_true, hbad, hreport, Bool.or_false, Bool.false_eq_true, if_false]
    exact ⟨_, rfl, hpatch _ (if_pos hbranch) _⟩
  · simp only [hbranch]
    exact ⟨_, rfl, hpatch _ (if_neg hbranch) s.badMode⟩

/-- A branch is refused if one was reported, or it is out of range itself. -/
theorem resolve_refused (s : AsmState) (address : UInt16) (hbranch : isOpcodeBranch t.opcode = true)
    (h : inRange t.baseAddress address → s.badMode = true) :
    s.resolve t address = ({ s with badMode := true }, false) := by
  have hbad : (s.badMode || (calcRelativeOffset t.baseAddress address).2) = true := by
    by_cases hrange : inRange t.baseAddress address
    · rw [h hrange, Bool.true_or]
    · rw [(calcRelativeOffset_reports _ _).2 hrange, Bool.or_true]
  unfold resolve
  simp only [hbranch, if_true, hbad]

/-! ## The pass -/

/-- **What the pass comes to**: every target stays, or one is resolved that is no branch, or a
branch in range that none was reported before. -/
theorem passTargets_cases (tables : List SymbolTable) (passed rest : List DelayedTarget)
    (s : AsmState) :
    (∃ s', passTargets tables passed rest s = (s', false) ∧
      s'.delayedTargets = s.delayedTargets) ∨
    ∃ before t after address s', rest = before ++ t :: after ∧
      findAddressFromSymbol tables t.addressStr = some address ∧
      (isOpcodeBranch t.opcode = true → inRange t.baseAddress address ∧ s.badMode = false ∧
        ∀ u ∈ before, isOpcodeBranch u.opcode = true →
          findAddressFromSymbol tables u.addressStr = none) ∧
      passTargets tables passed rest s = (s', true) ∧
      s'.delayedTargets = passed ++ (before ++ after) ∧ s'.mem = t.patch s.mem address := by
  -- on what is left of the pass: a target is passed over, taken, or refused, and a refusal of a
  -- branch sets `badMode`, which refuses every branch behind it
  induction rest generalizing passed s with
  | nil => exact .inl ⟨s, rfl, rfl⟩
  | cons t rest ih =>
    cases hfind : findAddressFromSymbol tables t.addressStr with
    | none =>
      have hpass : passTargets tables passed (t :: rest) s = passTargets tables (passed ++ [t]) rest s := by
        rw [passTargets, hfind]
      rw [hpass]
      refine (ih (passed ++ [t]) s).imp_right ?_
      rintro ⟨before, u, after, address, s', hrest, hu, hbranch, htaken, htargets, hmem⟩
      refine ⟨t :: before, u, after, address, s', by rw [hrest]; rfl, hu, fun hb => ?_, htaken,
        by rw [htargets]; simp, hmem⟩
      obtain ⟨hrange, hbad, hbefore⟩ := hbranch hb
      exact ⟨hrange, hbad, List.forall_mem_cons.2 ⟨fun _ => hfind, hbefore⟩⟩
    | some address =>
      by_cases htake : isOpcodeBranch t.opcode = true →
          inRange t.baseAddress address ∧ s.badMode = false
      · obtain ⟨s', hresolve, hmem⟩ := resolve_taken htake
        refine .inr ⟨[], t, rest, address, { s' with delayedTargets := passed ++ rest }, rfl, hfind,
          fun hb => ⟨(htake hb).1, (htake hb).2, by simp⟩, ?_, rfl, hmem⟩
        rw [passTargets, hfind]
        dsimp only
        rw [hresolve]
      · obtain ⟨hb, hrefused⟩ := Classical.not_imp.1 htake
        have hresolve := resolve_refused s address hb fun hrange => by
          by_contra hbad
          exact hrefused ⟨hrange, by simpa using hbad⟩
        have hpass : passTargets tables passed (t :: rest) s
            = passTargets tables (passed ++ [t]) rest { s with badMode := true } := by
          rw [passTargets, hfind]
          dsimp only
          rw [hresolve]
        rw [hpass]
        refine (ih (passed ++ [t]) { s with badMode := true }).imp_right ?_
        rintro ⟨before, u, after, address, s', hrest, hu, hbranch, htaken, htargets, hmem⟩
        refine ⟨t :: before, u, after, address, s', by rw [hrest]; rfl, hu, fun hb => ?_, htaken,
          by rw [htargets]; simp, hmem⟩
        exact absurd (hbranch hb).2.1 (by simp)

/-- **Targets that are not to be resolved are passed.** -/
theorem passTargets_skip (passed : List DelayedTarget) {before : List DelayedTarget}
    (hbefore : ∀ u ∈ before, ¬ u.Resolvable tables) (rest : List DelayedTarget) (s : AsmState) :
    ∃ b, passTargets tables passed (before ++ rest) s
        = passTargets tables (passed ++ before) rest { s with badMode := b } ∧
      ((∀ u ∈ before, isOpcodeBranch u.opcode = true →
        findAddressFromSymbol tables u.addressStr = none) → b = s.badMode) := by
  induction before generalizing passed s with
  | nil => exact ⟨s.badMode, by rw [List.append_nil]; rfl, fun _ => rfl⟩
  | cons u before ih =>
    have hu := hbefore u (List.mem_cons_self ..)
    have hlater := fun v hv => hbefore v (List.mem_cons_of_mem _ hv)
    have hsplit : passed ++ [u] ++ before = passed ++ u :: before := by simp
    cases hfind : findAddressFromSymbol tables u.addressStr with
    | none =>
      obtain ⟨b, hpass, hkept⟩ := ih (passed ++ [u]) hlater s
      refine ⟨b, ?_, fun hnone => hkept fun v hv => hnone v (List.mem_cons_of_mem _ hv)⟩
      rw [List.cons_append, passTargets, hfind]
      dsimp only
      rw [hpass, hsplit]
    | some address =>
      have hb : isOpcodeBranch u.opcode = true := by
        by_contra hb
        exact hu ⟨address, hfind, fun h => absurd h hb⟩
      have hresolve := resolve_refused s address hb
        fun hrange => absurd ⟨address, hfind, fun _ => hrange⟩ hu
      obtain ⟨b, hpass, -⟩ := ih (passed ++ [u]) hlater { s with badMode := true }
      refine ⟨b, ?_, fun hnone => ?_⟩
      · rw [List.cons_append, passTargets, hfind]
        dsimp only
        rw [hresolve]
        dsimp only
        rw [hpass, hsplit]
      · have hnone' := hnone u (List.mem_cons_self ..) hb
        rw [hfind] at hnone'
        cases hnone'

/-- **One pass is all there is**: the loop is over when it has patched an operand, and when it
has not. -/
theorem processDelayedSymbols_eq (tables : List SymbolTable) (s : AsmState) :
    s.processDelayedSymbols tables
      = (passTargets tables [] s.delayedTargets { s with delayedTargetsDirty := false }).1 := by
  unfold processDelayedSymbols processRounds
  dsimp only
  split_ifs <;> rfl

end AsmState

/-! ## What the processor does with an operand -/

/-- What an addressing mode of the processor makes of the address in the operand. -/
def addressThrough (mode : Cpu.AddressingMode) (image : Nat → UInt8) (regs : CpuRegisters)
    (address : UInt16) : UInt16 :=
  match mode with
  | .zpgx => (address + regs.x.toUInt16) &&& 0xFF
  | .zpgy => (address + regs.y.toUInt16) &&& 0xFF
  | .absx => address + regs.x.toUInt16
  | .absy => address + regs.y.toUInt16
  | .iabsNmos => wordAt image (Cpu.pointerPlaces address)
  | .iabsCmos => readWord image address.toNat
  | .iabsx => readWord image (address.toNat + regs.x.toNat)
  | .indx => wordAt image (Cpu.zeroPagePlaces ((address + regs.x.toUInt16) &&& 0xFF))
  | .indy => wordAt image (Cpu.zeroPagePlaces address) + regs.y.toUInt16
  | .izpg => wordAt image (Cpu.zeroPagePlaces address)
  | _ => address

/-- **The handler of an instruction that uses an address goes by that address.** -/
theorem DelayedTarget.Uses.handlerAddress {W : Type*} {bus : Bus W} {cmos : Bool} {s : CpuState W}
    {t : DelayedTarget} {address : UInt16} (h : t.Uses (bus.mem s.host.world) address)
    (hpc : s.regs.pc = t.baseAddress + 1) (hop : t.opcode ∈ documented cmos)
    (hm : hasMemoryOperand (opcodeDesc cmos t.opcode).mode) :
    LinApple.Debugger.handlerAddress bus (opcodeDesc cmos t.opcode) s
      = addressThrough (opcodeDesc cmos t.opcode).mode (bus.mem s.host.world) s.regs address := by
  unfold Uses operandAddress at h
  rw [(tables_agree_modes hop hm).1, ← hpc] at h
  rw [handlerAddress_eq bus hm]
  generalize (opcodeDesc cmos t.opcode).mode = mode at h hm ⊢
  cases mode with
  | none | imm => cases hm
  | rel =>
    have hnext : t.baseAddress + 2 = s.regs.pc + 1 := by
      rw [hpc, UInt16.add_assoc]
      rfl
    rw [hnext] at h
    exact Option.some.inj h
  | _ =>
    obtain rfl := Option.some.inj h
    rfl

/-- **The references are resolved exactly where there is at most one to resolve**; a branch is
reported to be out of range exactly if it is, and reaches its target if not. The list of
references is arbitrary, and so are the tables and memory; the second part is about all pairs of
addresses, the wrap at the end of memory with them. -/
theorem resolves_iff (tables : List SymbolTable) (s : AsmState) :
    (Resolved tables s (s.processDelayedSymbols tables) ↔ AtMostOne tables s) ∧
    ∀ base target : UInt16,
      ((calcRelativeOffset base target).2 = true ↔ ¬ inRange base target) ∧
      (inRange base target →
        base + 2 + Cpu.signExtend (calcRelativeOffset base target).1 = target) := by
  refine ⟨?_, fun base target => ⟨calcRelativeOffset_reports base target, branch_reaches⟩⟩
  rw [AsmState.processDelayedSymbols_eq]
  -- a pass takes no target or exactly one, and stops there: what is resolved is that one target
  constructor
  · rintro ⟨hleft, resolved, hperm, hresolved⟩
    rcases AsmState.passTargets_cases tables [] s.delayedTargets
        { s with delayedTargetsDirty := false } with
      ⟨s', hpass, htargets⟩ | ⟨before, t, after, address, s', hsplit, hfind, hbranch, hpass, htargets,
        hmem⟩
    · rw [hpass] at hleft
      exact .inl fun t ht => hleft t (htargets ▸ ht)
    · rw [hpass] at hleft hperm hresolved
      rw [List.nil_append] at htargets
      refine .inr ⟨before, t, after, address, hsplit, fun u hu => hleft u (htargets ▸ hu), hfind,
        hbranch, ?_⟩
      -- one target is gone from the list, and that is the only one there was a change for
      have hone : [t].Perm resolved := by
        rw [hsplit, htargets] at hperm
        have hmiddle : (before ++ t :: after).Perm ([t] ++ (before ++ after)) := List.perm_middle
        exact (List.perm_append_right_iff _).1 (hmiddle.symm.trans hperm)
      obtain ⟨address', hfind', huses⟩ := hresolved t (hone.subset (List.mem_singleton_self t))
      obtain rfl := Option.some.inj (hfind.symm.trans hfind')
      rw [hmem] at huses
      exact (DelayedTarget.uses_patch_iff (fun hb => (hbranch hb).1) _).1 huses
  · rintro (hnone | ⟨before, t, after, address, hsplit, hothers, hfind, hbranch, hfits⟩)
    · obtain ⟨b, hpass, -⟩ := AsmState.passTargets_skip [] hnone []
        { s with delayedTargetsDirty := false }
      rw [List.append_nil] at hpass
      rw [hpass]
      exact ⟨hnone, [], .refl _, by simp⟩
    · obtain ⟨b, hpass, hkept⟩ := AsmState.passTargets_skip []
        (fun u hu => hothers u (List.mem_append_left _ hu)) (t :: after)
        { s with delayedTargetsDirty := false }
      have htake : isOpcodeBranch t.opcode = true → inRange t.baseAddress address ∧ b = false :=
        fun hb => ⟨(hbranch hb).1, (hkept (hbranch hb).2.2).trans (hbranch hb).2.1⟩
      obtain ⟨s', hresolve, hmem⟩ := AsmState.resolve_taken
        (s := { s with delayedTargetsDirty := false, badMode := b }) htake
      rw [← hsplit] at hpass
      rw [hpass, AsmState.passTargets, hfind]
      dsimp only
      rw [hresolve]
      refine ⟨hothers, [t], ?_, ?_⟩
      · rw [hsplit]
        exact List.perm_middle
      · intro u hu
        obtain rfl := List.mem_singleton.1 hu
        refine ⟨address, hfind, ?_⟩
        change u.Uses s'.mem address
        rw [hmem]
        exact (DelayedTarget.uses_patch_iff (fun hb => (hbranch hb).1) _).2 hfits

/-! ## References that stay -/

/-- A table with two symbols. -/
def twoSymbols : List SymbolTable :=
  [⟨true, [(0x310, "FOO".toList), (0x1234, "BAR".toList)]⟩]

/-- What `LDA $FOO` and `LDA $BAR` leave at 0x300, before the symbols are defined. -/
def twoReferences : AsmState where
  mem := fun _ => 0
  memdirty := fun _ => 0
  badMode := false
  delayedTargets := [⟨"FOO".toList, 0x300, 0xAD⟩, ⟨"BAR".toList, 0x303, 0xAD⟩]
  delayedTargetsDirty := true

/-- What `BNE FOO` leaves there, when the line behind it was a branch out of range. -/
def branchReference : AsmState where
  mem := fun _ => 0
  memdirty := fun _ => 0
  badMode := true
  delayedTargets := [⟨"FOO".toList, 0x300, 0xD0⟩]
  delayedTargetsDirty := true

/-- **References stay that are to be resolved**: the second of two, and a branch in range after
another was reported. -/
theorem not_resolves :
    ¬ Resolved twoSymbols twoReferences (twoReferences.processDelayedSymbols twoSymbols) ∧
      ¬ Resolved twoSymbols branchReference (branchReference.processDelayedSymbols twoSymbols) := by
  constructor
  · intro h
    refine h.none_left ⟨"BAR".toList, 0x303, 0xAD⟩ (by decide +kernel) ⟨0x1234, ?_, ?_⟩
    · decide +kernel
    · decide +kernel
  · intro h
    refine h.none_left ⟨"FOO".toList, 0x300, 0xD0⟩ (by decide +kernel) ⟨0x310, ?_, ?_⟩
    · decide +kernel
    · decide +kernel

end LinApple.Debugger.MiniAssembler
