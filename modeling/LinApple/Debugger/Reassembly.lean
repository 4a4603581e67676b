import LinApple.Debugger.Assembler

/-!
# Assembling what was disassembled

An instruction in standard notation is read with the mode of its tokens. A number that starts with
a zero is taken for a symbol that is not defined yet, and an index or a parenthesis replaces the
mode of a pointer, so that the instructions with a pointer are not found. `NOP` has the hash of
the invalid instructions. Every other instruction is stored as it was (`reassembly`).

The line that is entered is not the text of the disassembler's window, which has columns and
symbols in it, but the instruction in the notation of the manuals (`notation65C02`), built from
pieces: a mnemonic, and the operand as its mode is written. That the pieces are cut apart again
where they were put together is a fact about spelled lines in general, and is taken from there.
The line starts with a space, since a word at its very beginning is a label.

Everything that the assembler could get wrong shows in what is left behind, so `Undone` asks for
all of it: the bytes of the instruction at the address and no others changed, no reference
left open, and the address moved on by the length of the instruction. For an absolute operand below
`$0100` the shorter instruction is just as good, and `Undone` allows for both. What is asked of
the state is that there are no symbols and no open references, as either could take a number for
something else; memory, the address and the rest are arbitrary.

The proof follows the pieces. For each mode there is a lemma for which mode the tokens and the
value of the operand lead to (`Infers`), and then one for whether the instruction is found under
it; the opcodes come in only there, through their mnemonics, and are gone through once. The
condition `Undoes` is read off these. It is about the opcode and the operand, and for a branch
about its target, which is what is written in the line.
-/

namespace LinApple.Debugger.MiniAssembler

open Byte (word)

/-! ## Numbers -/

theorem hexChar_facts : ∀ d < 16, hexDigit (hexChar d) = some d ∧ isWordChar (hexChar d)
    ∧ hexChar d ≠ '\t' ∧ hexChar d ≠ 'x' ∧ hexChar d ≠ 'X' ∧ (hexChar d = '0' ↔ d = 0) := by
  decide +kernel

theorem digitsNumber_hexChar {d : Nat} (hd : d < 16) (n : Nat) (text : List Char) :
    digitsNumber 16 n (hexChar d :: text) = digitsNumber 16 (n * 16 + d) text := by
  rw [digitsNumber, (hexChar_facts d hd).1]
  dsimp only
  rw [if_pos hd]

/-- A number that starts with a digit, and not with `0x`. -/
theorem strtoul_of_hexDigit {c : Char} {text : List Char} (hc : (hexDigit c).isSome)
    (hx : ∀ x ∈ text.head?, x ≠ 'x' ∧ x ≠ 'X') (hlt : digitsNumber 16 0 (c :: text) < 2 ^ 64) :
    strtoul 16 (c :: text) = digitsNumber 16 0 (c :: text) := by
  have hne : ∀ x, (hexDigit x).isNone → c ≠ x := by
    rintro x hnone rfl
    rw [Option.isNone_iff_eq_none.1 hnone] at hc
    cases hc
  have hspace : isSpace c = false := by
    unfold isSpace
    rw [decide_eq_false_iff_not]
    rintro (h | h | h | h | h | h) <;> exact hne _ (by decide +kernel) h
  have hsign : readSign (c :: text) = (false, c :: text) := by
    unfold readSign
    split
    · rename_i heq
      exact absurd (List.cons.inj heq).1 (hne '-' (by decide +kernel))
    · rename_i heq
      exact absurd (List.cons.inj heq).1 (hne '+' (by decide +kernel))
    · rfl
  have hskip : skipPrefix 16 (c :: text) = c :: text := by
    unfold skipPrefix
    split
    · rename_i x d rest heq
      obtain ⟨rfl, rfl⟩ := List.cons.inj heq
      obtain ⟨hlower, hupper⟩ := hx x rfl
      rw [if_neg fun h => h.2.1.elim hlower hupper]
    · rfl
  unfold strtoul
  rw [List.dropWhile_cons_of_neg (by rw [hspace]; exact Bool.false_ne_true), hsign]
  dsimp only
  rw [hskip, if_neg (Nat.not_le.2 hlt)]
  rfl

/-- **A byte is read from its two digits.** -/
theorem argsGetValue_hex2 (b : UInt8) (token : Token) :
    argsGetValue 16 (storeArg (hex2 b) token) = b.toUInt16 := by
  have hlt := b.toNat_lt
  have hhigh := hexChar_facts (b.toNat / 16) (by omega)
  have hlow := hexChar_facts (b.toNat % 16) (by omega)
  have hnumber : digitsNumber 16 0 (hex2 b) = b.toNat := by
    unfold hex2
    rw [digitsNumber_hexChar (by omega), digitsNumber_hexChar (by omega), digitsNumber]
    omega
  have htext : (storeArg (hex2 b) token).text = hex2 b := rfl
  unfold argsGetValue
  rw [htext]
  unfold hex2 at hnumber ⊢
  rw [strtoul_of_hexDigit (by rw [hhigh.1]; rfl)
      (by rintro x hx; cases hx; exact ⟨hlow.2.2.2.1, hlow.2.2.2.2.1⟩) (by omega),
    hnumber, Nat.mod_eq_of_lt (by omega), ← UInt16.toNat_inj]
  simp

/-- The four digits of a word. -/
theorem hex4_eq (v : UInt16) : hex4 v = [hexChar (v.toNat / 4096), hexChar (v.toNat / 256 % 16),
    hexChar (v.toNat / 16 % 16), hexChar (v.toNat % 16)] := by
  have hlt := v.toNat_lt
  have hhigh : ((v >>> 8).toUInt8).toNat = v.toNat / 256 := by
    simp [Nat.shiftRight_eq_div_pow]
    omega
  have hlow : (v.toUInt8).toNat = v.toNat % 256 := by simp
  unfold hex4 hex2
  have hfirst : v.toNat / 256 / 16 = v.toNat / 4096 := by omega
  have hthird : v.toNat % 256 / 16 = v.toNat / 16 % 16 := by omega
  have hlast : v.toNat % 256 % 16 = v.toNat % 16 := by omega
  rw [hhigh, hlow, hfirst, hthird, hlast]
  rfl

/-- **A word is read from its four digits.** -/
theorem argsGetValue_hex4 (v : UInt16) (token : Token) :
    argsGetValue 16 (storeArg (hex4 v) token) = v := by
  have hlt := v.toNat_lt
  have hhigh := hexChar_facts (v.toNat / 4096) (by omega)
  have hnext := hexChar_facts (v.toNat / 256 % 16) (by omega)
  have hnumber : digitsNumber 16 0 (hex4 v) = v.toNat := by
    rw [hex4_eq, digitsNumber_hexChar (by omega), digitsNumber_hexChar (by omega),
      digitsNumber_hexChar (by omega), digitsNumber_hexChar (by omega), digitsNumber]
    omega
  have htext : (storeArg (hex4 v) token).text = hex4 v := rfl
  unfold argsGetValue
  rw [htext]
  rw [hex4_eq] at hnumber ⊢
  rw [strtoul_of_hexDigit (by rw [hhigh.1]; rfl)
      (by rintro x hx; cases hx; exact ⟨hnext.2.2.2.1, hnext.2.2.2.2.1⟩) (by omega),
    hnumber, Nat.mod_eq_of_lt (by omega), ← UInt16.toNat_inj]
  simp

/-- **The number of a word is printed as its four digits** if and only if none of them is a leading
zero. -/
theorem formatHex_eq_hex4 (v : UInt16) : formatHex v = hex4 v ↔ 0x1000 ≤ v := by
  have hlt := v.toNat_lt
  have hzero := (hexChar_facts (v.toNat / 4096) (by omega)).2.2.2.2.2
  have hle : 0x1000 ≤ v ↔ ¬ v.toNat / 4096 = 0 := by
    rw [UInt16.le_iff_toNat_le]
    show 4096 ≤ v.toNat ↔ _
    omega
  rw [hle, ← hzero]
  unfold formatHex
  rw [hex4_eq]
  by_cases hc : hexChar (v.toNat / 4096) = '0'
  · rw [List.dropWhile_cons_of_pos (p := fun c => decide (c = '0')) (decide_eq_true hc)]
    refine iff_of_false (fun h => ?_) (not_not.2 hc)
    have hlen := congrArg List.length h
    have hdrop := (List.dropWhile_sublist (fun c => decide (c = '0'))
      (l := [hexChar (v.toNat / 256 % 16), hexChar (v.toNat / 16 % 16),
        hexChar (v.toNat % 16)])).length_le
    split at hlen
    · simp at hlen
    · simp only [List.length_cons, List.length_nil] at hlen hdrop
      omega
  · rw [List.dropWhile_cons_of_neg (p := fun c => decide (c = '0'))
      (by rw [decide_eq_true_eq]; exact hc)]
    exact iff_of_true rfl hc

/-- **The number of a byte is printed as its two digits** if and only if the first is no zero. -/
theorem formatHex_eq_hex2 : ∀ b : UInt8, formatHex b.toUInt16 = hex2 b ↔ 0x10 ≤ b :=
  Byte.forall_byte (by decide +kernel)

/-! ## Mnemonics -/

/-- An opcode with an upper-case mnemonic, which is an instruction. -/
def IsInstruction (opcode : UInt8) : Prop := ((mnemonic opcode).head?.any Char.isUpper) = true

instance (opcode : UInt8) : Decidable (IsInstruction opcode) :=
  inferInstanceAs (Decidable (_ = true))

/-- The hash of `NOP`, and of the invalid instructions. -/
def nopHash : UInt32 := 116304

/-- The hash of an opcode's mnemonic. -/
def hashOf (opcode : UInt8) : UInt32 := assemblerHashMnemonic (mnemonic opcode)

theorem mnemonics65C02_length : mnemonics65C02.length = 256 := by decide +kernel

theorem getElem_opcodesHash (opcode : UInt8) :
    opcodesHash[opcode.toNat]? = some (hashOf opcode) := by
  have hlt : opcode.toNat < mnemonics65C02.length := mnemonics65C02_length ▸ opcode.toNat_lt
  unfold opcodesHash hashOf mnemonic
  rw [List.getElem?_map, List.getElem?_eq_getElem hlt, List.getD_eq_getElem _ _ hlt]
  rfl

/-- The place of a row is the number of an opcode. -/
theorem mem_zipIdx_opcodesHash {p : UInt32 × Nat} (h : p ∈ opcodesHash.zipIdx) :
    ∃ opcode : UInt8, p = (hashOf opcode, opcode.toNat) := by
  obtain ⟨hash, i⟩ := p
  have hget := List.mk_mem_zipIdx_iff_getElem?.1 h
  have hlt : i < 256 := by
    have hi := (List.getElem?_eq_some_iff.1 hget).1
    unfold opcodesHash at hi
    rwa [List.length_map, mnemonics65C02_length] at hi
  have hnat : (UInt8.ofNat i).toNat = i := UInt8.toNat_ofNat_of_lt' hlt
  have hhash := getElem_opcodesHash (UInt8.ofNat i)
  rw [hnat, hget] at hhash
  exact ⟨UInt8.ofNat i, by rw [hnat, Option.some.inj hhash]⟩

theorem hashOf_of_mem_asmOpcodes {hash : UInt32} {opcode : UInt8} (h : opcode ∈ asmOpcodes hash) :
    hashOf opcode = hash := by
  unfold asmOpcodes at h
  obtain ⟨p, hmem, hop⟩ := List.mem_filterMap.1 h
  obtain ⟨other, rfl⟩ := mem_zipIdx_opcodesHash hmem
  dsimp only at hop
  split at hop
  · rename_i hhash
    rw [UInt8.ofNat_toNat] at hop
    rwa [← Option.some.inj hop]
  · cases hop

/-- Before `NOP` comes an invalid instruction. -/
theorem find_asmOpcodes_nop : ((asmOpcodes nopHash).find? fun other =>
    some (opcodes other).addressMode = some AddressingMode.implied) = some 0x03 := by
  decide +kernel

/-- A mnemonic is a word of three letters and digits. -/
theorem mnemonic_facts (opcode : UInt8) : (mnemonic opcode).length = 3
    ∧ ∀ c ∈ mnemonic opcode, c.isAlphanum := by
  have hall : mnemonics65C02.all fun m => m.toList.length == 3 && m.toList.all Char.isAlphanum := by
    decide +kernel
  have hlt : opcode.toNat < mnemonics65C02.length := mnemonics65C02_length ▸ opcode.toNat_lt
  obtain ⟨hlength, halpha⟩ :=
    Bool.and_eq_true_iff.1 (List.all_eq_true.1 hall _ (List.getElem_mem hlt))
  unfold mnemonic
  rw [List.getD_eq_getElem _ _ hlt]
  exact ⟨beq_iff_eq.1 hlength, List.all_eq_true.1 halpha⟩

theorem length_mnemonic (opcode : UInt8) : (mnemonic opcode).length = 3 := (mnemonic_facts opcode).1

theorem isWord_mnemonic (opcode : UInt8) : IsWord (mnemonic opcode) := by
  obtain ⟨hlength, halpha⟩ := mnemonic_facts opcode
  refine ⟨List.ne_nil_of_length_pos (by omega), fun c hc =>
    ⟨isWordChar_of_isAlphanum (halpha c hc), ?_⟩⟩
  rintro rfl
  exact absurd (halpha _ hc) (by decide)

/-- No opcode has one of the modes that are not those of instructions. -/
theorem addressMode_notMem (opcode : UInt8) :
    (opcodes opcode).addressMode ∉ [AddressingMode.am1, .am2, .am3, .data] :=
  opcodes_of_zipIdx
    (P := fun _ row => row.addressMode ∉ [AddressingMode.am1, .am2, .am3, .data])
    (by decide +kernel) opcode

/-- The hash of a mnemonic and its mode, as one number. -/
def opcodeKey (hash : UInt32) (mode : AddressingMode) : Nat := hash.toNat * 32 + mode.ctorIdx

/-- The keys of the opcodes. -/
def opcodeKeys : List Nat :=
  [ 3331424, 3757100, 3721732, 3721728, 3921990, 3757094, 3299718, 3721728, 3780096, 3757092,
    3299712, 3721728, 3921989, 3757093, 3299717, 3721728, 3329419, 3757102, 3757103, 3721728,
    3920966, 3757097, 3299721, 3721728, 3357792, 3757096, 3556448, 3721728, 3920965, 3757095,
    3299719, 3721728, 3594821, 3294348, 3721732, 3721728, 3322502, 3294342, 3852678, 3721728,
    3784192, 3294340, 3852672, 3721728, 3322501, 3294341, 3852677, 3721728, 3326251, 3294350,
    3294351, 3721728, 3322505, 3294345, 3852681, 3721728, 3874912, 3294344, 3383392, 3721728,
    3322503, 3294343, 3852679, 3721728, 3857696, 3426892, 3721732, 3721728, 3721734, 3426886,
    3660358, 3721728, 3779616, 3426884, 3660352, 3721728, 3588613, 3426885, 3660357, 3721728,
    3335275, 3426894, 3426895, 3721728, 3721737, 3426889, 3660361, 3721728, 3357984, 3426888,
    3780384, 3721728, 3721735, 3426887, 3660359, 3721728, 3858016, 3284076, 3721732, 3721728,
    3891014, 3284070, 3852870, 3721728, 3783712, 3284068, 3852864, 3721728, 3588624, 3284069,
    3852869, 3721728, 3335787, 3284078, 3284079, 3721728, 3891017, 3284073, 3852873, 3721728,
    3875104, 3284072, 3784480, 3721728, 3588621, 3284071, 3852871, 3721728, 3331115, 3890220,
    3721732, 3721728, 3890982, 3890214, 3890950, 3721728, 3384096, 3322500, 3927072, 3721728,
    3890981, 3890213, 3890949, 3721728, 3315819, 3890222, 3890223, 3721728, 3890985, 3890217,
    3890954, 3721728, 3928096, 3890216, 3927648, 3721728, 3891013, 3890215, 3891015, 3721728,
    3645220, 3644460, 3645188, 3721728, 3645222, 3644454, 3645190, 3721728, 3904288, 3644452,
    3904256, 3721728, 3645221, 3644453, 3645189, 3721728, 3316331, 3644462, 3644463, 3721728,
    3645225, 3644457, 3645194, 3721728, 3358400, 3644456, 3922688, 3721728, 3645223, 3644455,
    3645192, 3721728, 3362596, 3359244, 3721732, 3721728, 3362598, 3359238, 3383398, 3721728,
    3557152, 3359236, 3384064, 3721728, 3362597, 3359237, 3383397, 3721728, 3327147, 3359246,
    3359247, 3721728, 3721737, 3359241, 3383401, 3721728, 3357824, 3359240, 3780352, 3721728,
    3721735, 3359239, 3383399, 3721728, 3362564, 3871852, 3721732, 3721728, 3362566, 3871846,
    3556454, 3721728, 3557120, 3871844, 3721728, 3721728, 3362565, 3871845, 3556453, 3721728,
    3318315, 3871854, 3871855, 3721728, 3721737, 3871849, 3556457, 3721728, 3874944, 3871848,
    3784448, 3721728, 3721735, 3871847, 3556455, 3721728 ]

theorem opcodeKeys_eq :
    (opcodesHash.zip opcodes65C02).map (fun p => opcodeKey p.1 p.2.addressMode) = opcodeKeys := by
  decide +kernel

/-- Whether the keys but that of `NOP` differ, by the remainders seen so far, which are the
bits of a number. -/
def distinctKeys : Nat → List Nat → Bool
  | _, [] => true
  | seen, key :: keys =>
    if key / 32 = 116304 then distinctKeys seen keys
    else !seen.testBit (key % 1961) && distinctKeys (seen ||| 1 <<< (key % 1961)) keys

/-- A key that has been seen does not come again. -/
theorem notMem_of_distinctKeys {key : Nat} (hnop : key / 32 ≠ 116304) :
    ∀ {seen : Nat} {keys : List Nat}, seen.testBit (key % 1961) → distinctKeys seen keys →
      key ∉ keys
  | _, [], _, _ => List.not_mem_nil
  | seen, next :: keys, hseen, h => by
    unfold distinctKeys at h
    split at h
    · rename_i hnext
      rintro (_ | ⟨_, hmem⟩)
      · exact hnop hnext
      · exact notMem_of_distinctKeys hnop hseen h hmem
    · obtain ⟨hfresh, hrest⟩ := Bool.and_eq_true_iff.1 h
      have hkept : (seen ||| 1 <<< (next % 1961)).testBit (key % 1961) := by
        rw [Nat.testBit_or, hseen, Bool.true_or]
      rintro (_ | ⟨_, hmem⟩)
      · rw [hseen] at hfresh
        cases hfresh
      · exact notMem_of_distinctKeys hnop hkept hrest hmem

theorem pairwise_of_distinctKeys : ∀ {seen : Nat} {keys : List Nat}, distinctKeys seen keys →
    keys.Pairwise fun key other => key / 32 ≠ 116304 → key ≠ other
  | _, [], _ => .nil
  | seen, key :: keys, h => by
    unfold distinctKeys at h
    split at h
    · rename_i hnop
      exact .cons (fun _ _ hne => absurd hnop hne) (pairwise_of_distinctKeys h)
    · obtain ⟨-, hrest⟩ := Bool.and_eq_true_iff.1 h
      have hseen : (seen ||| 1 <<< (key % 1961)).testBit (key % 1961) := by
        rw [Nat.testBit_or, Nat.one_shiftLeft, Nat.testBit_two_pow_self, Bool.or_true]
      refine .cons (fun other hother hnop hsame => ?_) (pairwise_of_distinctKeys hrest)
      exact notMem_of_distinctKeys hnop hseen hrest (hsame ▸ hother)

/-- Among the others no key comes twice. -/
theorem pairwise_opcodeKeys :
    opcodeKeys.Pairwise fun key other => key / 32 ≠ 116304 → key ≠ other :=
  @pairwise_of_distinctKeys 0 _ (by decide +kernel)

theorem getElem_opcodeKeys (opcode : UInt8) :
    opcodeKeys[opcode.toNat]? = some (opcodeKey (hashOf opcode) (opcodes opcode).addressMode) := by
  have hrow : opcodes65C02[opcode.toNat]? = some (opcodes opcode) :=
    List.getElem?_eq_getElem (opcodes65C02_length ▸ opcode.toNat_lt)
  have hzip : (opcodesHash.zip opcodes65C02)[opcode.toNat]?
      = some (hashOf opcode, opcodes opcode) :=
    List.getElem?_zip_eq_some.2 ⟨getElem_opcodesHash opcode, hrow⟩
  rw [← opcodeKeys_eq, List.getElem?_map, hzip]
  rfl

/-- The key of an opcode has its hash. -/
theorem exists_opcodeKey (opcode : UInt8) :
    ∃ key, opcodeKeys[opcode.toNat]? = some key ∧ key / 32 = (hashOf opcode).toNat := by
  refine ⟨_, getElem_opcodeKeys opcode, ?_⟩
  have hmodes : (opcodes opcode).addressMode.ctorIdx < 32 := by
    cases (opcodes opcode).addressMode <;> decide
  unfold opcodeKey
  omega

/-- The hashes of the branches. -/
def branchHashes : List UInt32 :=
  [104044, 103945, 104227, 104243, 104097, 103619, 103635, 103973, 103697]

/-- **Branches are told by their hash.** -/
theorem isOpcodeBranch_iff_hashOf (opcode : UInt8) :
    isOpcodeBranch opcode = true ↔ hashOf opcode ∈ branchHashes := by
  have hall : opcodeKeys.zipIdx.all fun p =>
      isOpcodeBranch (UInt8.ofNat p.2) == (branchHashes.map UInt32.toNat).contains (p.1 / 32) := by
    decide +kernel
  obtain ⟨key, hkey, hhash⟩ := exists_opcodeKey opcode
  have hrow := beq_iff_eq.1 (List.all_eq_true.1 hall _ (List.mk_mem_zipIdx_iff_getElem?.2 hkey))
  dsimp only at hrow
  rw [UInt8.ofNat_toNat, hhash] at hrow
  rw [hrow, List.contains_iff_mem]
  exact List.mem_map_of_injective fun _ _ => UInt32.toNat_inj.1

/-- `NOP` is the one instruction with its hash. -/
theorem hashOf_eq_nopHash {opcode : UInt8} (h : IsInstruction opcode)
    (hhash : hashOf opcode = nopHash) : opcode = opcodeNop := by
  have hall : (opcodeKeys.zip mnemonics65C02).zipIdx.all fun p =>
      !(Nat.beq (p.1.1 / 32) 116304) || !p.1.2.toList.head?.any Char.isUpper
        || UInt8.ofNat p.2 == opcodeNop := by
    decide +kernel
  have hlt : opcode.toNat < mnemonics65C02.length := mnemonics65C02_length ▸ opcode.toNat_lt
  have hmnemonic : mnemonics65C02[opcode.toNat]? = some (mnemonics65C02.getD opcode.toNat "") := by
    rw [List.getElem?_eq_getElem hlt, List.getD_eq_getElem _ _ hlt]
  obtain ⟨key, hkey, hnat⟩ := exists_opcodeKey opcode
  have hzip : (opcodeKeys.zip mnemonics65C02)[opcode.toNat]?
      = some (key, mnemonics65C02.getD opcode.toNat "") :=
    List.getElem?_zip_eq_some.2 ⟨hkey, hmnemonic⟩
  have hrow := List.all_eq_true.1 hall _ (List.mk_mem_zipIdx_iff_getElem?.2 hzip)
  have hupper : ((mnemonics65C02.getD opcode.toNat "").toList.head?.any Char.isUpper) = true := h
  dsimp only at hrow
  rw [hnat, hhash, hupper, UInt8.ofNat_toNat] at hrow
  exact beq_iff_eq.1 hrow

/-- Two opcodes with one hash and one mode have one key. -/
theorem not_sameKey_of_lt {opcode other : UInt8} (hne : hashOf opcode ≠ nopHash)
    (hlt : other.toNat < opcode.toNat) :
    ¬ (hashOf other = hashOf opcode
      ∧ (opcodes other).addressMode = (opcodes opcode).addressMode) := by
  rintro ⟨hhash, hmode⟩
  have hkey := getElem_opcodeKeys opcode
  have hother := getElem_opcodeKeys other
  have hmodes : (opcodes opcode).addressMode.ctorIdx < 32 := by
    cases (opcodes opcode).addressMode <;> decide
  have hnop : opcodeKey (hashOf opcode) (opcodes opcode).addressMode / 32 ≠ 116304 := by
    intro h
    refine hne (UInt32.toNat_inj.1 ?_)
    unfold opcodeKey at h
    show _ = 116304
    omega
  obtain ⟨hlt', hkey⟩ := List.getElem?_eq_some_iff.1 hkey
  obtain ⟨hother', hother⟩ := List.getElem?_eq_some_iff.1 hother
  rw [hhash, hmode, ← hkey] at hother
  rw [← hkey, ← hother] at hnop
  exact List.pairwise_iff_getElem.1 pairwise_opcodeKeys _ _ hother' hlt' hlt hnop hother

/-- **The first opcode with the hash and the mode of an opcode is that opcode**, unless its
mnemonic has the hash of `NOP`. -/
theorem find_asmOpcodes {opcode : UInt8} (hne : hashOf opcode ≠ nopHash) :
    ((asmOpcodes (hashOf opcode)).find? fun other =>
      some (opcodes other).addressMode = some (opcodes opcode).addressMode) = some opcode := by
  have hget := List.getElem?_eq_some_iff.1 (getElem_opcodesHash opcode)
  obtain ⟨hlt, hhash⟩ := hget
  unfold asmOpcodes
  rw [List.find?_filterMap]
  have hfind : (opcodesHash.zipIdx.find? fun p =>
      (if p.1 = hashOf opcode then some (UInt8.ofNat p.2) else none).any fun other =>
        some (opcodes other).addressMode = some (opcodes opcode).addressMode)
      = some (hashOf opcode, opcode.toNat) := by
    refine List.find?_eq_some_iff_getElem.2 ⟨?_, opcode.toNat, ?_, ?_, fun j hj => ?_⟩
    · rw [if_pos rfl, UInt8.ofNat_toNat]
      exact decide_eq_true rfl
    · rwa [List.length_zipIdx]
    · rw [List.getElem_zipIdx, hhash, Nat.zero_add]
    · obtain ⟨other, hother⟩ := mem_zipIdx_opcodesHash (List.getElem_mem
        (by rw [List.length_zipIdx]; omega : j < opcodesHash.zipIdx.length))
      have hj' : j = other.toNat := by
        have hsnd := congrArg Prod.snd hother
        rw [List.getElem_zipIdx] at hsnd
        simpa using hsnd
      rw [hother, Bool.not_eq_true']
      dsimp only
      split
      · rename_i hsame
        rw [UInt8.ofNat_toNat, Option.any_some, decide_eq_false_iff_not]
        intro hmode
        exact not_sameKey_of_lt hne (hj' ▸ hj) ⟨hsame, Option.some.inj hmode⟩
      · rfl
  rw [hfind]
  show (if hashOf opcode = hashOf opcode then some (UInt8.ofNat opcode.toNat) else none) = _
  rw [if_pos rfl, UInt8.ofNat_toNat]

/-! ## Instructions in standard notation -/

/-- The address a branch goes to. -/
def branchTarget (base : UInt16) (lo : UInt8) : UInt16 := base + 2 + Cpu.signExtend lo

/-- The number in an operand: a byte or a word, or the target of a branch. -/
def operandText (mode : AddressingMode) (base : UInt16) (lo hi : UInt8) : List Char :=
  if mode = .r then hex4 (branchTarget base lo)
  else if mode.bytes = 2 then hex2 lo
  else hex4 (word lo hi)

/-- The tokens around the number of an operand. -/
def operandMarks : AddressingMode → List Char × List Char
  | .m => (['#', '$'], [])
  | .ax | .zx => (['$'], [',', 'X'])
  | .ay | .zy => (['$'], [',', 'Y'])
  | .izx | .iax => (['(', '$'], [',', 'X', ')'])
  | .nzy => (['(', '$'], [')', ',', 'Y'])
  | .nz | .na => (['(', '$'], [')'])
  | _ => (['$'], [])

/-- The operand, without blanks. -/
def operandTexts (mode : AddressingMode) (text : List Char) : List (List Char) :=
  if mode.bytes = 1 then []
  else
    (operandMarks mode).1.map (fun c => [c]) ++ text :: (operandMarks mode).2.map (fun c => [c])

/-- **An instruction in standard notation**: the mnemonic and the operand, each behind a space. -/
def notation65C02 (opcode : UInt8) (base : UInt16) (lo hi : UInt8) : List Piece :=
  ⟨[' '], mnemonic opcode⟩ ::
    match operandTexts (opcodes opcode).addressMode
        (operandText (opcodes opcode).addressMode base lo hi) with
    | [] => []
    | text :: texts => ⟨[' '], text⟩ :: texts.map fun text => ⟨[], text⟩

/-- The memory with an instruction at the base. -/
def storedAt (mem : Nat → UInt8) (base : UInt16) (opcode lo hi : UInt8) : Nat → UInt8 := fun i =>
  if i = base.toNat then opcode
  else if i = base.toNat + 1 ∧ 1 < (opcodes opcode).addressMode.bytes then lo
  else if i = base.toNat + 2 ∧ 2 < (opcodes opcode).addressMode.bytes then hi
  else mem i

/-- **An instruction is stored**: its bytes at the base, no pending target, and the address behind
it. -/
structure Stores (opcode lo hi : UInt8) (base : UInt16) (s s' : Assembler) : Prop where
  mem : s'.asm.mem = storedAt s.asm.mem base opcode lo hi
  noneLeft : s'.asm.delayedTargets = []
  advanced : s'.assemblerAddress = s.assemblerAddress + (opcodes opcode).addressMode.bytes

/-- The mode in the zero page. -/
def zeroPageMode : AddressingMode → Option AddressingMode
  | .a => some .z
  | .ax => some .zx
  | .ay => some .zy
  | _ => none

/-- **The disassembly is undone**: the instruction is stored, or for an operand below `$0100` the
one with the mnemonic and the mode in the zero page. -/
def Undone (opcode lo hi : UInt8) (base : UInt16) (s s' : Assembler) : Prop :=
  Stores opcode lo hi base s s'
    ∨ ∃ other, zeroPageMode (opcodes opcode).addressMode = some (opcodes other).addressMode
      ∧ mnemonic other = mnemonic opcode ∧ hi = 0 ∧ Stores other lo hi base s s'

/-- **The instructions that are undone**: those without a pointer, whose number does not start with
a zero, and branches whose distance is not counted across the ends of the memory; and `NOP` is
none of them. -/
def Undoes (opcode lo hi : UInt8) (base : UInt16) : Prop :=
  match (opcodes opcode).addressMode with
  | .implied => opcode ≠ opcodeNop
  | .m | .z | .zx | .zy => 0x10 ≤ lo
  | .a | .ax | .ay => 0x1000 ≤ word lo hi
  | .r => 0x1000 ≤ branchTarget base lo ∧ inRange base (branchTarget base lo)
  | _ => False

/-! ## How the line is read -/

theorem isWord_hexChars (ds : List Nat) (hne : ds ≠ []) (h : ∀ d ∈ ds, d < 16) :
    IsWord (ds.map hexChar) := by
  refine ⟨fun hnil => hne (List.map_eq_nil_iff.1 hnil), fun c hc => ?_⟩
  obtain ⟨d, hd, rfl⟩ := List.mem_map.1 hc
  obtain ⟨-, hword, htab, -⟩ := hexChar_facts d (h d hd)
  exact ⟨hword, htab⟩

theorem isWord_hex2 (b : UInt8) : IsWord (hex2 b) := by
  have hlt := b.toNat_lt
  refine isWord_hexChars [b.toNat / 16, b.toNat % 16] (List.cons_ne_nil _ _) ?_
  simp only [List.forall_mem_cons]
  exact ⟨by omega, by omega, nofun⟩

theorem isWord_hex4 (v : UInt16) : IsWord (hex4 v) := by
  have hlt := v.toNat_lt
  rw [hex4_eq]
  refine isWord_hexChars [v.toNat / 4096, v.toNat / 256 % 16, v.toNat / 16 % 16,
    v.toNat % 16] (List.cons_ne_nil _ _) ?_
  simp only [List.forall_mem_cons]
  exact ⟨by omega, by omega, by omega, by omega, nofun⟩

theorem isWord_operandText (mode : AddressingMode) (base : UInt16) (lo hi : UInt8) :
    IsWord (operandText mode base lo hi) := by
  unfold operandText
  split
  · exact isWord_hex4 _
  · split
    · exact isWord_hex2 lo
    · exact isWord_hex4 _

/-- The pieces without blanks: the marks, the number and the marks behind it. -/
theorem readable_texts {text : List Char} (htext : IsWord text) {before after : List Char}
    (hbefore : ∀ c ∈ before, IsMark [c])
    (hafter : Readable (after.map fun c => ⟨[], [c]⟩)
      ∧ EndsWord ((after.map fun c => (⟨[], [c]⟩ : Piece)).flatMap Piece.spelled)) :
    Readable ((before.map (fun c => [c]) ++ text :: after.map (fun c => [c])).map
      fun text => ⟨[], text⟩) := by
  induction before with
  | nil =>
    rw [List.map_nil, List.nil_append, List.map_cons, List.map_map]
    exact ⟨⟨nofun, .inl ⟨htext, hafter.2⟩⟩, hafter.1⟩
  | cons c before ih =>
    exact ⟨⟨nofun, .inr (hbefore c List.mem_cons_self)⟩,
      ih fun c hc => hbefore c (List.mem_cons_of_mem _ hc)⟩

theorem operandMarks_facts (mode : AddressingMode) :
    (∀ c ∈ (operandMarks mode).1, IsMark [c])
      ∧ Readable ((operandMarks mode).2.map fun c => ⟨[], [c]⟩)
      ∧ EndsWord (((operandMarks mode).2.map fun c => (⟨[], [c]⟩ : Piece)).flatMap
        Piece.spelled) := by
  have hmarks : (operandMarks mode).1.all fun c => decide (IsMark [c]) := by
    cases mode <;> decide +kernel
  refine ⟨fun c hc => of_decide_eq_true (List.all_eq_true.1 hmarks c hc), ?_⟩
  cases mode <;> decide +kernel

/-- **An instruction in standard notation is cut into its tokens.** -/
theorem readable_notation65C02 (opcode : UInt8) (base : UInt16) (lo hi : UInt8) :
    Readable (notation65C02 opcode base lo hi) := by
  have hblank : ∀ c ∈ [' '], c = ' ' ∨ c = '\t' := fun c hc => .inl (List.mem_singleton.1 hc)
  have hmnemonic := isWord_mnemonic opcode
  unfold notation65C02 operandTexts
  by_cases hbytes : (opcodes opcode).addressMode.bytes = 1
  · rw [if_pos hbytes]
    exact ⟨⟨hblank, .inl ⟨hmnemonic, nofun⟩⟩, trivial⟩
  · rw [if_neg hbytes]
    obtain ⟨hbefore, hafter⟩ := operandMarks_facts (opcodes opcode).addressMode
    have hread := readable_texts (isWord_operandText (opcodes opcode).addressMode base lo hi)
      hbefore hafter
    split
    · exact ⟨⟨hblank, .inl ⟨hmnemonic, nofun⟩⟩, trivial⟩
    · rename_i text texts htexts
      rw [htexts] at hread
      obtain ⟨⟨-, hone⟩, hrest⟩ := hread
      refine ⟨⟨hblank, .inl ⟨hmnemonic, ?_⟩⟩, ⟨hblank, hone⟩, hrest⟩
      rintro c hc
      cases hc
      decide

/-- The arguments of an instruction. -/
def notationArgs (opcode : UInt8) (base : UInt16) (lo hi : UInt8) : List ConsoleArg :=
  storeArg (mnemonic opcode) .alphanumeric ::
    (operandTexts (opcodes opcode).addressMode
      (operandText (opcodes opcode).addressMode base lo hi)).map fun text =>
        storeArg text (findTokenOrAlphaNumeric (text.headD ' '))

theorem map_arg_notation65C02 (opcode : UInt8) (base : UInt16) (lo hi : UInt8) :
    (notation65C02 opcode base lo hi).map Piece.arg = notationArgs opcode base lo hi := by
  obtain ⟨hne, hword⟩ := isWord_mnemonic opcode
  obtain ⟨c, text, hmnemonic⟩ := List.exists_cons_of_ne_nil hne
  have htoken : findTokenOrAlphaNumeric ((mnemonic opcode).headD ' ') = .alphanumeric := by
    rw [hmnemonic]
    exact findTokenOrAlphaNumeric_of_wordChar (hword c (hmnemonic ▸ List.mem_cons_self)).1
  unfold notation65C02 notationArgs
  rw [List.map_cons, Piece.arg, htoken]
  congr 1
  split
  · rename_i htexts
    rw [htexts]
    rfl
  · rename_i htexts
    rw [htexts, List.map_cons, List.map_cons, List.map_map]
    rfl

theorem length_operandTexts_le (mode : AddressingMode) (text : List Char) :
    (operandTexts mode text).length ≤ 6 := by
  cases mode <;> exact Nat.le_of_ble_eq_true rfl

/-- **What the assembler is given for the line.** -/
theorem enterLine_notation65C02 (symbols : Symbols) (opcode : UInt8) (base : UInt16)
    (lo hi : UInt8) (s : Assembler) :
    enterLine ((notation65C02 opcode base lo hi).flatMap Piece.spelled) symbols s
      = some (symbols, assemble (tablesOf symbols) (mnemonic opcode)
        (notationArgs opcode base lo hi) (UInt16.ofNat s.assemblerAddress) s) := by
  have hread := readable_notation65C02 opcode base lo hi
  have htrim := rdropWhile_spelled hread 0
  rw [List.replicate_zero, List.append_nil] at htrim
  have hroom : (notationArgs opcode base lo hi).length ≤ maxArgs := by
    have hlen := length_operandTexts_le (opcodes opcode).addressMode
      (operandText (opcodes opcode).addressMode base lo hi)
    unfold notationArgs maxArgs
    rw [List.length_cons, List.length_map]
    omega
  have hhead : ((notation65C02 opcode base lo hi).flatMap Piece.spelled).head? = some ' ' := rfl
  have htext : (mnemonic opcode).take (maxArgLen - 1) = mnemonic opcode :=
    List.take_of_length_le (by rw [length_mnemonic]; decide)
  have hname : ((notationArgs opcode base lo hi).getD 0 .cleared).text = mnemonic opcode := htext
  unfold enterLine
  dsimp only
  rw [htrim, argsGet_spelled hread, map_arg_notation65C02, List.take_of_length_le hroom]
  dsimp only
  unfold cmdAssemble
  rw [hhead, if_neg (by decide)]
  dsimp only
  rw [hname]

/-! ## How the operand is read -/

/-- No symbol is found where none is defined. -/
theorem findAddressFromSymbol_tablesOf {symbols : Symbols}
    (h : ∀ table, symbols.tables table = .empty) (symbol : List Char) :
    findAddressFromSymbol (tablesOf symbols) symbol = none := by
  unfold findAddressFromSymbol
  rw [List.findSome?_eq_none_iff]
  intro table htable
  obtain ⟨i, -, rfl⟩ := List.mem_map.1 (List.mem_reverse.1 htable)
  rw [h i]
  exact ite_self _

section GetArgs

variable {tables : List SymbolTable} {base : UInt16} {s : ArgState} {arg : ConsoleArg}

theorem getTarget_nextState : (s.getTarget tables base arg).nextState = s.nextState := by
  unfold ArgState.getTarget
  dsimp only
  split <;> split <;> (try split) <;> rfl

/-- A word where a target is expected. -/
theorem word_of_getTarget (h : s.nextState = .getTarget) :
    s.word tables base arg = s.getTarget tables base arg := by
  obtain ⟨mode, next, hash, dollar, left, right, comma, x, y, target, n, delayed, dirty⟩ := s
  obtain rfl : next = .getTarget := h
  refine if_neg ?_
  rintro ⟨hindex, -⟩
  exact nomatch getTarget_nextState.symm.trans hindex

/-- **A number that is printed as it was typed is the target.** -/
theorem getTarget_of_formatHex (hnone : findAddressFromSymbol tables arg.text = none)
    (hplain : formatHex (argsGetValue s.base arg) = arg.text) :
    s.getTarget tables base arg =
      if s.addressMode ≠ some .m ∧ s.addressMode ≠ some .implied ∧ ¬ s.delayedTargetsDirty
          ∧ argsGetValue s.base arg ≤ 0xFF then
        { s with targetAddress := argsGetValue s.base arg, addressMode := some .z }
      else { s with targetAddress := argsGetValue s.base arg } := by
  unfold ArgState.getTarget
  rw [hnone]
  dsimp only
  rw [if_pos hplain]

/-- **Another number is taken for a symbol that is to be defined.** -/
theorem getTarget_delayedTargets (hnone : findAddressFromSymbol tables arg.text = none)
    (hplain : formatHex (argsGetValue s.base arg) ≠ arg.text) :
    (s.getTarget tables base arg).delayedTargets ≠ [] := by
  unfold ArgState.getTarget
  rw [hnone]
  dsimp only
  rw [if_neg hplain]
  split
  · exact List.append_ne_nil_of_right_ne_nil _ (List.cons_ne_nil _ _)
  · exact List.append_ne_nil_of_right_ne_nil _ (List.cons_ne_nil _ _)

/-- A target never takes another out. -/
theorem getTarget_keeps (h : s.delayedTargets ≠ []) :
    (s.getTarget tables base arg).delayedTargets ≠ [] := by
  unfold ArgState.getTarget
  dsimp only
  split
  · split <;> split <;> exact h
  · split
    · split <;> exact h
    · split <;> exact List.append_ne_nil_of_left_ne_nil h _

theorem word_keeps (h : s.delayedTargets ≠ []) :
    (s.word tables base arg).delayedTargets ≠ [] := by
  by_cases hnext : s.nextState.word = .getTarget
  · have htarget : (ArgState.getTarget tables base { s with nextState := s.nextState.word }
        arg).delayedTargets ≠ [] := getTarget_keeps h
    unfold ArgState.word
    dsimp only
    rw [if_pos hnext]
    split <;> exact htarget
  · unfold ArgState.word
    dsimp only
    rw [if_neg hnext]
    split <;> exact h

/-- **Pending targets are not lost in the line.** -/
theorem assemblerGetArgs_keeps (args : List ConsoleArg) (h : s.delayedTargets ≠ []) :
    (assemblerGetArgs tables base args s).1.delayedTargets ≠ [] := by
  induction args generalizing s with
  | nil => exact h
  | cons arg args ih =>
    unfold assemblerGetArgs
    split
    · split
      · exact h
      · exact ih h
    · split
      · exact h
      · split
        · exact ih h
        · exact ih h
    · split
      · exact h
      · exact ih h
    · split
      · exact h
      · exact ih h
    · split
      · exact h
      · exact ih h
    · exact h
    · exact ih (word_keeps h)
    · exact ih h

end GetArgs

/-! ## What is stored -/

/-- A pass without pending targets. -/
theorem processDelayedSymbols_of_nil (tables : List SymbolTable) {s : AsmState}
    (h : s.delayedTargets = []) :
    s.processDelayedSymbols tables = { s with delayedTargetsDirty := false } := by
  obtain ⟨mem, memdirty, bad, targets, dirty⟩ := s
  obtain rfl : targets = [] := h
  rfl

theorem setLastOpcode_ne_nil (opcode : UInt8) {targets : List DelayedTarget}
    (h : targets ≠ []) : setLastOpcode opcode targets ≠ [] := by
  match targets with
  | [] => exact absurd rfl h
  | [_] => exact List.cons_ne_nil _ _
  | _ :: _ :: _ => exact List.cons_ne_nil _ _

/-- The pending targets of two states are the same. -/
def ArgState.SamePending (s t : ArgState) : Prop :=
  t.delayedTargets = s.delayedTargets ∧ t.delayedTargetsDirty = s.delayedTargetsDirty

theorem samePending_parenMode (s : ArgState) : s.SamePending s.parenMode := by
  unfold ArgState.parenMode
  dsimp only
  split <;> split <;> exact ⟨rfl, rfl⟩

theorem samePending_plainMode (s : ArgState) : s.SamePending s.plainMode := by
  unfold ArgState.plainMode
  dsimp only
  split <;> split <;> exact ⟨rfl, rfl⟩

/-- **The addressing mode is found without a look at the pending targets.** -/
theorem samePending_update (opcode : UInt8) (base : UInt16) (s : ArgState) :
    s.SamePending (assemblerUpdateAddressingMode opcode base s).1 := by
  have hparen : s.SamePending (if s.haveLeftParen ∧ s.haveComma then s.parenMode else s) := by
    split
    · exact samePending_parenMode s
    · exact ⟨rfl, rfl⟩
  unfold assemblerUpdateAddressingMode
  split
  · exact ⟨rfl, rfl⟩
  split
  · exact ⟨rfl, rfl⟩
  dsimp only
  generalize (if s.haveLeftParen ∧ s.haveComma then s.parenMode else s) = t at hparen ⊢
  have hplain : s.SamePending (if (t.addressMode = some .a ∨ t.addressMode = some .z)
      ∧ ¬ t.haveLeftParen then t.plainMode else t) := by
    split
    · obtain ⟨htargets, hdirty⟩ := samePending_plainMode t
      exact ⟨htargets.trans hparen.1, hdirty.trans hparen.2⟩
    · exact hparen
  generalize (if (t.addressMode = some .a ∨ t.addressMode = some .z)
      ∧ ¬ t.haveLeftParen then t.plainMode else t) = u at hplain ⊢
  split
  · split <;> split <;> exact hplain
  · exact hplain

section Assembled

variable {tables : List SymbolTable} {opcode lo hi : UInt8} {base : UInt16} {s : Assembler}
  {name : List Char} {args : List ConsoleArg} {read : ArgState × Bool}

theorem pokeAddress_delayedTargets (mode : AddressingMode) (asm : AsmState)
    (base target : UInt16) :
    (asm.pokeAddress mode base target).delayedTargets = asm.delayedTargets
      ∧ (asm.pokeAddress mode base target).delayedTargetsDirty = asm.delayedTargetsDirty := by
  unfold AsmState.pokeAddress
  dsimp only
  split <;> split <;> exact ⟨rfl, rfl⟩

theorem pokeOpcodeAddress_keeps {candidates : List UInt8} {mode : Option AddressingMode}
    {value : UInt16} (h : s.asm.delayedTargets ≠ []) :
    (assemblerPokeOpcodeAddress candidates mode base value s).asm.delayedTargets ≠ [] := by
  unfold assemblerPokeOpcodeAddress
  split
  · exact h
  · rename_i opcode _
    obtain ⟨htargets, -⟩ := pokeAddress_delayedTargets (opcodes opcode).addressMode
      (s.asm.poke base.toNat opcode) base value
    dsimp only
    split
    · rw [htargets]
      exact setLastOpcode_ne_nil opcode h
    · rw [htargets]
      exact h

/-- **A target that is taken for a symbol stays pending.** -/
theorem assemble_delayedTargets (hnil : s.asm.delayedTargets = [])
    (hops : asmOpcodes (assemblerHashMnemonic name) ≠ [])
    (hread : (assemblerGetArgs tables base args (.start [] false)).1.delayedTargets ≠ []) :
    (assemble tables name args base s).asm.delayedTargets ≠ [] := by
  obtain ⟨first, others, hcons⟩ := List.exists_cons_of_ne_nil hops
  unfold assemble
  rw [processDelayedSymbols_of_nil tables hnil, hcons]
  dsimp only
  rw [hnil]
  generalize assemblerGetArgs tables base args (.start [] false) = read at hread ⊢
  split
  · rw [← (samePending_update first base read.1).1] at hread
    split
    · exact hread
    · exact pokeOpcodeAddress_keeps hread
  · exact hread

/-- **What is poked**: the opcode, and the bytes of the value behind it. -/
theorem mem_pokeAddress (asm : AsmState) (opcode : UInt8) (base value : UInt16) :
    ((asm.poke base.toNat opcode).pokeAddress (opcodes opcode).addressMode base value).mem
      = storedAt asm.mem base opcode value.toUInt8 (value >>> 8).toUInt8 := by
  funext i
  unfold AsmState.pokeAddress storedAt
  dsimp only
  by_cases hone : 1 < (opcodes opcode).addressMode.bytes
  · by_cases htwo : 2 < (opcodes opcode).addressMode.bytes
    · simp only [if_pos hone, if_pos htwo, AsmState.poke, AsmState.markDirty]
      grind
    · simp only [if_pos hone, if_neg htwo, AsmState.poke, AsmState.markDirty]
      grind
  · have htwo : ¬ 2 < (opcodes opcode).addressMode.bytes := by omega
    simp only [if_neg hone, if_neg htwo, AsmState.poke, AsmState.markDirty]
    grind

theorem storedAt_one {mem : Nat → UInt8} (h : 1 < (opcodes opcode).addressMode.bytes) :
    storedAt mem base opcode lo hi (base.toNat + 1) = lo := by
  rw [storedAt, if_neg (by omega), if_pos ⟨rfl, h⟩]

theorem storedAt_two {mem : Nat → UInt8} (h : 2 < (opcodes opcode).addressMode.bytes) :
    storedAt mem base opcode lo hi (base.toNat + 2) = hi := by
  rw [storedAt, if_neg (by omega), if_neg (by omega), if_pos ⟨rfl, h⟩]

/-- Two instructions stored at a base are the same, where their bytes are. -/
theorem storedAt_eq_iff {mem : Nat → UInt8} {other lo' hi' : UInt8} :
    storedAt mem base other lo' hi' = storedAt mem base opcode lo hi
      ↔ other = opcode ∧ (1 < (opcodes opcode).addressMode.bytes → lo' = lo)
        ∧ (2 < (opcodes opcode).addressMode.bytes → hi' = hi) := by
  constructor
  · intro h
    have hfirst := congrFun h base.toNat
    rw [storedAt, storedAt, if_pos rfl, if_pos rfl] at hfirst
    subst hfirst
    refine ⟨rfl, fun hone => ?_, fun htwo => ?_⟩
    · exact (storedAt_one hone).symm.trans ((congrFun h _).trans (storedAt_one hone))
    · exact (storedAt_two htwo).symm.trans ((congrFun h _).trans (storedAt_two htwo))
  · rintro ⟨rfl, hone, htwo⟩
    funext i
    unfold storedAt
    split
    · rfl
    · split
      · rename_i h
        exact hone h.2
      · split
        · rename_i h
          exact htwo h.2
        · rfl

theorem one_le_bytes (mode : AddressingMode) : 1 ≤ mode.bytes := by
  cases mode <;> decide

/-- Where nothing is poked, no instruction is stored. -/
theorem not_stores_of_address {s' : Assembler} (h : s'.assemblerAddress = s.assemblerAddress) :
    ¬ Stores opcode lo hi base s s' := by
  intro hstores
  have hadvanced := hstores.advanced
  have hbytes := one_le_bytes (opcodes opcode).addressMode
  omega

/-- **When an instruction is stored**: its addressing mode is found, its opcode is the first that
has it, and its bytes are those of the value. -/
theorem stores_assemble_iff (hnil : s.asm.delayedTargets = []) {first : UInt8}
    {others : List UInt8} (hops : asmOpcodes (assemblerHashMnemonic name) = first :: others)
    {t : ArgState} (hread : assemblerGetArgs tables base args (.start [] false) = (t, true))
    (htargets : t.delayedTargets = []) (hdirty : t.delayedTargetsDirty = false) :
    Stores opcode lo hi base s (assemble tables name args base s)
      ↔ ∃ t' value, assemblerUpdateAddressingMode first base t = (t', some value)
        ∧ ((asmOpcodes (assemblerHashMnemonic name)).find? fun other =>
          some (opcodes other).addressMode = t'.addressMode) = some opcode
        ∧ (1 < (opcodes opcode).addressMode.bytes → value.toUInt8 = lo)
        ∧ (2 < (opcodes opcode).addressMode.bytes → (value >>> 8).toUInt8 = hi) := by
  obtain ⟨hsame, hsameDirty⟩ := samePending_update first base t
  unfold assemble
  rw [processDelayedSymbols_of_nil tables hnil, hops]
  dsimp only
  rw [hnil, hread]
  dsimp only
  rw [if_pos rfl]
  -- the mode is found from the first opcode of the name, then the opcode from the mode: a line is
  -- stored when both searches succeed, and as the line when they end at its opcode
  cases hupdate : assemblerUpdateAddressingMode first base t with
  | mk t' targetValue =>
    rw [hupdate] at hsame hsameDirty
    dsimp only at hsame hsameDirty ⊢
    cases targetValue with
    | none =>
      refine iff_of_false (not_stores_of_address rfl) ?_
      rintro ⟨u, value, hsome, -⟩
      cases hsome
    | some value =>
      dsimp only
      unfold assemblerPokeOpcodeAddress
      cases hfind : (first :: others).find? fun other =>
          some (opcodes other).addressMode = t'.addressMode with
      | none =>
        refine iff_of_false (not_stores_of_address rfl) ?_
        rintro ⟨u, v, hsome, hfound, -⟩
        cases hsome
        exact nomatch hfind.symm.trans hfound
      | some other =>
        obtain ⟨hpoked, hpokedDirty⟩ := pokeAddress_delayedTargets
          (opcodes other).addressMode
          (({ s.asm with
            badMode := t'.addressMode = none
            delayedTargets := t'.delayedTargets
            delayedTargetsDirty := t'.delayedTargetsDirty }).poke base.toNat other) base value
        dsimp only
        rw [if_neg (by rw [hpokedDirty]; exact ne_true_of_eq_false (hsameDirty.trans hdirty))]
        have hmem := mem_pokeAddress { s.asm with
            badMode := t'.addressMode = none
            delayedTargets := t'.delayedTargets
            delayedTargetsDirty := t'.delayedTargetsDirty } other base value
        constructor
        · intro hstores
          obtain ⟨rfl, hone, htwo⟩ := storedAt_eq_iff.1 (hmem.symm.trans hstores.mem)
          exact ⟨t', value, rfl, hfind, hone, htwo⟩
        · rintro ⟨u, v, hsome, hfound, hone, htwo⟩
          cases hsome
          obtain rfl : other = opcode := Option.some.inj (hfind.symm.trans hfound)
          exact ⟨hmem.trans (storedAt_eq_iff.2 ⟨rfl, hone, htwo⟩),
            hpoked.trans (hsame.trans htargets), rfl⟩

end Assembled

/-! ## The modes that are found -/

section Modes

variable {tables : List SymbolTable} {base : UInt16} {text : List Char} {v : UInt16}

/-- The state behind a target: the mode, and the tokens before. -/
def targetState (mode : AddressingMode) (hash dollar left : Bool) (v : UInt16) : ArgState :=
  { ArgState.start [] false with
    addressMode := some mode, nextState := .getTarget, haveHash := hash, haveDollar := dollar,
    haveLeftParen := left, targetAddress := v, base := 16 }

/-- The tokens before a target, for the three kinds of operands. -/
def beforeTarget (hash left : Bool) : List ConsoleArg :=
  if hash then [storeArg ['#'] .hash, storeArg ['$'] .dollar]
  else if left then [storeArg ['('] .parenL, storeArg ['$'] .dollar]
  else [storeArg ['$'] .dollar]

/-- **An operand up to its number.** -/
theorem getArgs_target (name : List Char) (arg : ConsoleArg) (rest : List ConsoleArg)
    (harg : arg.token = .alphanumeric) {hash left : Bool} (hone : hash = false ∨ left = false) :
    assemblerGetArgs tables base
        (storeArg name .alphanumeric :: (beforeTarget hash left ++ arg :: rest)) (.start [] false)
      = assemblerGetArgs tables base rest
        ((targetState (if hash then .m else .a) hash (!hash) left 0).getTarget tables base arg) := by
  have hstep : ∀ s : ArgState, s.nextState = .getTarget →
      assemblerGetArgs tables base (arg :: rest) s
        = assemblerGetArgs tables base rest (s.getTarget tables base arg) := by
    intro s hs
    rw [assemblerGetArgs, harg]
    dsimp only
    rw [word_of_getTarget hs]
  rw [← hstep _ rfl]
  cases hash
  · cases left <;> rfl
  · obtain rfl : left = false := hone.resolve_left (by decide)
    rfl

/-- **A number that is printed as it was typed**, behind the tokens before it. -/
theorem getTarget_targetState {arg : ConsoleArg} {mode : AddressingMode}
    (hnone : findAddressFromSymbol tables arg.text = none) (hvalue : argsGetValue 16 arg = v)
    (hplain : formatHex v = arg.text) (hmode : mode = .m ∨ mode = .a) (hash dollar left : Bool) :
    (targetState mode hash dollar left 0).getTarget tables base arg
      = targetState (if mode = .a ∧ v ≤ 0xFF then .z else mode) hash dollar left v := by
  have hbase : argsGetValue (targetState mode hash dollar left 0).base arg = v := hvalue
  rw [getTarget_of_formatHex hnone (by rw [hbase]; exact hplain), hbase]
  rcases hmode with rfl | rfl
  · rfl
  · by_cases hv : v ≤ 0xFF
    · rw [if_pos ⟨nofun, nofun, nofun, hv⟩, if_pos ⟨rfl, hv⟩]
      rfl
    · rw [if_neg (fun h => hv h.2.2.2), if_neg (fun h => hv h.2)]
      rfl

/-- **An operand up to its number, which is printed as it was typed.** -/
theorem getArgs_of_plain (name : List Char) (hnone : findAddressFromSymbol tables text = none)
    (hvalue : argsGetValue 16 (storeArg text .alphanumeric) = v) (hplain : formatHex v = text)
    (hlen : text.length < maxArgLen) {hash left : Bool} (hone : hash = false ∨ left = false)
    (rest : List ConsoleArg) :
    assemblerGetArgs tables base (storeArg name .alphanumeric ::
          (beforeTarget hash left ++ storeArg text .alphanumeric :: rest)) (.start [] false)
      = assemblerGetArgs tables base rest
        (targetState (if hash then .m else if v ≤ 0xFF then .z else .a) hash (!hash) left v) := by
  have htext : (storeArg text .alphanumeric).text = text :=
    List.take_of_length_le (Nat.le_sub_one_of_lt hlen)
  rw [getArgs_target name _ rest rfl hone, getTarget_targetState (htext.symm ▸ hnone) hvalue
    (hplain.trans htext.symm) (by cases hash <;> simp)]
  congr 2
  cases hash
  · by_cases hv : v ≤ 0xFF <;> simp [hv]
  · rfl

/-- The mode that is found for an operand in the notation of a mode. -/
def inferredMode (mode : AddressingMode) (v : UInt16) : Option AddressingMode :=
  match mode with
  | .m => some .m
  | .ax | .zx | .izx | .iax => some (if v ≤ 0xFF then .zx else .ax)
  | .ay | .zy | .nzy => some (if v ≤ 0xFF then .zy else .ay)
  | .nz | .na => none
  | _ => some (if v ≤ 0xFF then .z else .a)

/-- The state behind an operand: nothing is pending, and what is found for it. -/
structure Infers (base : UInt16) (mode : AddressingMode) (v : UInt16) (t : ArgState) : Prop where
  noTargets : t.delayedTargets = []
  notDirty : t.delayedTargetsDirty = false
  finds : ∀ first, isOpcodeBranch first = false →
    ∃ t', assemblerUpdateAddressingMode first base t = (t', some v)
      ∧ t'.addressMode = inferredMode mode v

/-- The marks behind the number of an operand. -/
def afterTarget (mode : AddressingMode) : List ConsoleArg :=
  (operandMarks mode).2.map fun c => storeArg [c] (findTokenOrAlphaNumeric c)

/-- The state behind the marks. -/
def behindMarks (mode : AddressingMode) (s : ArgState) : ArgState :=
  let left := decide ('(' ∈ (operandMarks mode).1)
  let comma := decide (',' ∈ (operandMarks mode).2)
  { s with
    addressMode := if left then none else s.addressMode
    nextState := if comma then .getIndex else s.nextState
    haveRightParen := left
    haveComma := comma
    haveRegisterX := decide ('X' ∈ (operandMarks mode).2)
    haveRegisterY := decide ('Y' ∈ (operandMarks mode).2) }

theorem getArgs_afterTarget (mode inner : AddressingMode) (hash dollar : Bool) :
    assemblerGetArgs tables base (afterTarget mode)
        (targetState inner hash dollar (decide ('(' ∈ (operandMarks mode).1)) v)
      = (behindMarks mode
        (targetState inner hash dollar (decide ('(' ∈ (operandMarks mode).1)) v), true) := by
  cases mode <;> rfl

/-- **What is found behind the number of an operand.** -/
theorem infers_behindMarks (base v : UInt16) (mode : AddressingMode) :
    Infers base mode v (behindMarks mode (targetState
      (if mode = .m then .m else if v ≤ 0xFF then .z else .a) (mode = .m) (mode ≠ .m)
      (decide ('(' ∈ (operandMarks mode).1)) v)) := by
  refine ⟨rfl, rfl, fun first hf => ?_⟩
  unfold assemblerUpdateAddressingMode
  rw [hf]
  by_cases hv : v ≤ 0xFF
  · cases mode <;>
      simp [behindMarks, targetState, ArgState.start, ArgState.parenMode, ArgState.plainMode,
        inferredMode, operandMarks, indexMode, hv]
  · cases mode <;>
      simp [behindMarks, targetState, ArgState.start, ArgState.parenMode, ArgState.plainMode,
        inferredMode, operandMarks, indexMode, hv]

end Modes

/-! ## Instructions that are undone -/

/-- The number in an operand. -/
def operandValue (mode : AddressingMode) (base : UInt16) (lo hi : UInt8) : UInt16 :=
  if mode = .r then branchTarget base lo
  else if mode.bytes = 2 then lo.toUInt16
  else word lo hi

section Undone

variable {tables : List SymbolTable} {opcode lo hi : UInt8} {base : UInt16} {s : Assembler}

theorem argsGetValue_operandText (mode : AddressingMode) (token : Token) :
    argsGetValue 16 (storeArg (operandText mode base lo hi) token)
      = operandValue mode base lo hi := by
  unfold operandText operandValue
  split
  · exact argsGetValue_hex4 _ _
  · split
    · exact argsGetValue_hex2 lo token
    · exact argsGetValue_hex4 _ _

theorem length_operandText_lt (mode : AddressingMode) :
    (operandText mode base lo hi).length < maxArgLen := by
  have hle : (operandText mode base lo hi).length ≤ 4 := by
    unfold operandText
    split
    · exact Nat.le_refl 4
    · split
      · exact Nat.le_of_ble_eq_true rfl
      · exact Nat.le_refl 4
  exact Nat.lt_of_le_of_lt hle (by decide)

/-- The arguments of an instruction with an operand. -/
theorem notationArgs_eq (hbytes : (opcodes opcode).addressMode.bytes ≠ 1) :
    notationArgs opcode base lo hi = storeArg (mnemonic opcode) .alphanumeric ::
      (beforeTarget ((opcodes opcode).addressMode = .m)
          (decide ('(' ∈ (operandMarks (opcodes opcode).addressMode).1))
        ++ storeArg (operandText (opcodes opcode).addressMode base lo hi) .alphanumeric
          :: afterTarget (opcodes opcode).addressMode) := by
  have hword := isWord_operandText (opcodes opcode).addressMode base lo hi
  obtain ⟨c, behind, htext⟩ := List.exists_cons_of_ne_nil hword.1
  have htoken : findTokenOrAlphaNumeric
      ((operandText (opcodes opcode).addressMode base lo hi).headD ' ') = .alphanumeric := by
    rw [htext] at hword ⊢
    exact findTokenOrAlphaNumeric_of_wordChar (hword.2 c List.mem_cons_self).1
  unfold notationArgs operandTexts
  rw [if_neg hbytes, List.map_append, List.map_cons, htoken]
  generalize operandText (opcodes opcode).addressMode base lo hi = text
  generalize (opcodes opcode).addressMode = mode
  cases mode <;> rfl

/-- There is no parenthesis behind a `#`. -/
theorem not_hash_and_paren (mode : AddressingMode) :
    decide (mode = .m) = false ∨ decide ('(' ∈ (operandMarks mode).1) = false := by
  cases mode <;> decide

/-- **The line of an instruction is read up to its number**, which is printed as it was typed. -/
theorem getArgs_notationArgs (hbytes : (opcodes opcode).addressMode.bytes ≠ 1)
    (hnone : ∀ symbol, findAddressFromSymbol tables symbol = none)
    (hplain : formatHex (operandValue (opcodes opcode).addressMode base lo hi)
      = operandText (opcodes opcode).addressMode base lo hi) :
    assemblerGetArgs tables base (notationArgs opcode base lo hi) (.start [] false)
      = (behindMarks (opcodes opcode).addressMode (targetState
          (if (opcodes opcode).addressMode = .m then .m
            else if operandValue (opcodes opcode).addressMode base lo hi ≤ 0xFF then .z else .a)
          ((opcodes opcode).addressMode = .m) ((opcodes opcode).addressMode ≠ .m)
          (decide ('(' ∈ (operandMarks (opcodes opcode).addressMode).1))
          (operandValue (opcodes opcode).addressMode base lo hi)), true) := by
  have hone := not_hash_and_paren (opcodes opcode).addressMode
  rw [notationArgs_eq hbytes, getArgs_of_plain _ (hnone _) (argsGetValue_operandText _ _) hplain
    (length_operandText_lt _) hone, ← getArgs_afterTarget]
  congr 2
  · simp
  · rw [Bool.eq_iff_iff]
    simp

theorem exists_asmOpcodes (opcode : UInt8) : ∃ first others,
    asmOpcodes (hashOf opcode) = first :: others
      ∧ isOpcodeBranch first = isOpcodeBranch opcode := by
  have hmem : opcode ∈ asmOpcodes (hashOf opcode) := by
    unfold asmOpcodes
    refine List.mem_filterMap.2 ⟨(hashOf opcode, opcode.toNat), ?_, ?_⟩
    · exact List.mk_mem_zipIdx_iff_getElem?.2 (getElem_opcodesHash opcode)
    · rw [if_pos rfl, UInt8.ofNat_toNat]
  obtain ⟨first, others, hcons⟩ := List.exists_cons_of_ne_nil (List.ne_nil_of_mem hmem)
  have hhash := hashOf_of_mem_asmOpcodes (hcons ▸ List.mem_cons_self : first ∈ asmOpcodes _)
  refine ⟨first, others, hcons, ?_⟩
  rw [Bool.eq_iff_iff, isOpcodeBranch_iff_hashOf, isOpcodeBranch_iff_hashOf, hhash]

/-- The bytes of the number in an operand are those of the instruction. -/
theorem operandValue_bytes {mode : AddressingMode} (hmode : mode ≠ .r) :
    (1 < mode.bytes → (operandValue mode base lo hi).toUInt8 = lo)
      ∧ (2 < mode.bytes → (operandValue mode base lo hi >>> 8).toUInt8 = hi) := by
  have hlow : (word lo hi).toUInt8 = lo := by
    have h := word_bytes (word lo hi)
    exact (Byte.word_inj.1 h).1
  have hhigh : (word lo hi >>> 8).toUInt8 = hi := by
    have h := word_bytes (word lo hi)
    exact (Byte.word_inj.1 h).2
  unfold operandValue
  rw [if_neg hmode]
  refine ⟨fun _ => ?_, fun htwo => ?_⟩
  · split
    · exact UInt8.toUInt8_toUInt16 lo
    · exact hlow
  · rw [if_neg (by omega)]
    exact hhigh

/-- A number that is not printed as it was typed stays pending, and nothing is undone. -/
theorem not_undone_of_delayed (hnil : s.asm.delayedTargets = [])
    (hbytes : (opcodes opcode).addressMode.bytes ≠ 1)
    (hnone : ∀ symbol, findAddressFromSymbol tables symbol = none)
    (hplain : formatHex (operandValue (opcodes opcode).addressMode base lo hi)
      ≠ operandText (opcodes opcode).addressMode base lo hi) :
    ¬ Undone opcode lo hi base s
      (assemble tables (mnemonic opcode) (notationArgs opcode base lo hi) base s) := by
  have hone := not_hash_and_paren (opcodes opcode).addressMode
  obtain ⟨first, others, hops, -⟩ := exists_asmOpcodes opcode
  have htext : (storeArg (operandText (opcodes opcode).addressMode base lo hi)
      .alphanumeric).text = operandText (opcodes opcode).addressMode base lo hi :=
    List.take_of_length_le (Nat.le_sub_one_of_lt (length_operandText_lt _))
  have hread : (assemblerGetArgs tables base (notationArgs opcode base lo hi)
      (.start [] false)).1.delayedTargets ≠ [] := by
    rw [notationArgs_eq hbytes, getArgs_target _ _ _ rfl hone]
    refine assemblerGetArgs_keeps _ (getTarget_delayedTargets (hnone _) ?_)
    have hbase : argsGetValue (targetState
        (if decide ((opcodes opcode).addressMode = .m) then .m else .a)
        (decide ((opcodes opcode).addressMode = .m))
        (!decide ((opcodes opcode).addressMode = .m))
        (decide ('(' ∈ (operandMarks (opcodes opcode).addressMode).1)) 0).base
        (storeArg (operandText (opcodes opcode).addressMode base lo hi) .alphanumeric)
          = operandValue (opcodes opcode).addressMode base lo hi :=
      argsGetValue_operandText _ _
    rw [hbase, htext]
    exact hplain
  have hpending := assemble_delayedTargets hnil (hops ▸ List.cons_ne_nil _ _ :
    asmOpcodes (assemblerHashMnemonic (mnemonic opcode)) ≠ []) hread
  rintro (hstores | ⟨other, -, -, -, hstores⟩) <;> exact hpending hstores.noneLeft

/-- **An instruction whose number is printed as it was typed** is stored if its mode is found. -/
theorem stores_of_plain (hinstr : IsInstruction opcode) (hnil : s.asm.delayedTargets = [])
    (hbytes : (opcodes opcode).addressMode.bytes ≠ 1) (hmode : (opcodes opcode).addressMode ≠ .r)
    (hnone : ∀ symbol, findAddressFromSymbol tables symbol = none)
    (hplain : formatHex (operandValue (opcodes opcode).addressMode base lo hi)
      = operandText (opcodes opcode).addressMode base lo hi) :
    Stores opcode lo hi base s
        (assemble tables (mnemonic opcode) (notationArgs opcode base lo hi) base s)
      ↔ inferredMode (opcodes opcode).addressMode
          (operandValue (opcodes opcode).addressMode base lo hi)
        = some (opcodes opcode).addressMode := by
  obtain ⟨first, others, hops, hfirst⟩ := exists_asmOpcodes opcode
  have hbranch : isOpcodeBranch first = false := by
    rw [hfirst, ← Bool.not_eq_true, isOpcodeBranch_iff]
    exact hmode
  have hinfers := infers_behindMarks base (operandValue (opcodes opcode).addressMode base lo hi)
    (opcodes opcode).addressMode
  obtain ⟨t', hupdate, hinferred⟩ := hinfers.finds first hbranch
  have hhash : hashOf opcode ≠ nopHash := by
    intro h
    obtain rfl := hashOf_eq_nopHash hinstr h
    exact hbytes rfl
  rw [stores_assemble_iff hnil hops (getArgs_notationArgs hbytes hnone hplain) hinfers.noTargets
    hinfers.notDirty]
  constructor
  · rintro ⟨u, value, hsome, hfound, -⟩
    obtain ⟨rfl, -⟩ := Prod.mk.inj (hupdate.symm.trans hsome)
    have hmodes := List.find?_some hfound
    rw [decide_eq_true_eq] at hmodes
    rw [← hinferred, hmodes]
  · intro h
    refine ⟨t', _, hupdate, ?_, operandValue_bytes hmode⟩
    rw [hinferred, h]
    exact find_asmOpcodes hhash

/-- The modes that are found. -/
theorem inferredMode_iff {mode : AddressingMode} (hbytes : mode.bytes ≠ 1) (hmode : mode ≠ .r)
    (hplain : formatHex (operandValue mode base lo hi) = operandText mode base lo hi)
    (hmodes : mode ∉ [AddressingMode.am1, .am2, .am3, .data]) :
    inferredMode mode (operandValue mode base lo hi) = some mode
      ↔ mode ∉ [AddressingMode.izx, .iax, .nzy, .nz, .na] := by
  have hbyte : lo.toUInt16 ≤ 0xFF := by
    have hlt := lo.toNat_lt
    rw [UInt16.le_iff_toNat_le, UInt8.toNat_toUInt16]
    show lo.toNat ≤ 255
    omega
  have hword : formatHex (word lo hi) = hex4 (word lo hi) → ¬ word lo hi ≤ 0xFF := by
    intro h hle
    have hge := (formatHex_eq_hex4 _).1 h
    exact absurd (UInt16.le_trans hge hle) (by decide)
  unfold operandValue operandText at *
  cases mode <;> simp_all [AddressingMode.bytes, inferredMode]
  split <;> decide

/-- The number of a word is printed as it was typed, if and only if it does not start with a
zero. -/
theorem formatHex_operandText (mode : AddressingMode) :
    formatHex (operandValue mode base lo hi) = operandText mode base lo hi
      ↔ if mode = .r then 0x1000 ≤ branchTarget base lo
        else if mode.bytes = 2 then 0x10 ≤ lo
        else 0x1000 ≤ word lo hi := by
  unfold operandValue operandText
  split
  · exact formatHex_eq_hex4 _
  · split
    · exact formatHex_eq_hex2 lo
    · exact formatHex_eq_hex4 _

/-- What is found for a branch. -/
theorem update_branch {first : UInt8} (hfirst : isOpcodeBranch first = true)
    (base v : UInt16) :
    (inRange base v → ∃ t', assemblerUpdateAddressingMode first base
        (behindMarks .r (targetState .a false true false v))
          = (t', some (calcRelativeOffset base v).1.toUInt16) ∧ t'.addressMode = some .r)
      ∧ (¬ inRange base v → (assemblerUpdateAddressingMode first base
        (behindMarks .r (targetState .a false true false v))).2 = none) := by
  have hreports := calcRelativeOffset_reports base v
  have htarget : (behindMarks .r (targetState .a false true false v)).targetAddress = v := rfl
  have hplain : assemblerUpdateAddressingMode first base
      (behindMarks .r (targetState .a false true false v))
        = if (calcRelativeOffset base v).2 then
            ({ behindMarks .r (targetState .a false true false v) with addressMode := none }, none)
          else
            ({ behindMarks .r (targetState .a false true false v) with addressMode := some .r },
              some (calcRelativeOffset base v).1.toUInt16) := by
    unfold assemblerUpdateAddressingMode
    rw [hfirst]
    cases hout : (calcRelativeOffset base v).2 <;>
      simp [behindMarks, targetState, ArgState.start, ArgState.plainMode, operandMarks, hout]
  rw [hplain]
  refine ⟨fun hrange => ?_, fun hrange => ?_⟩
  · rw [if_neg (fun h => hreports.1 h hrange)]
    exact ⟨_, rfl, rfl⟩
  · rw [if_pos (hreports.2 hrange)]

/-- The byte of a branch is the offset to its target. -/
theorem calcRelativeOffset_branchTarget (base : UInt16) (lo : UInt8) :
    (calcRelativeOffset base (branchTarget base lo)).1 = lo := by
  have hext : ∀ b : UInt8,
      (Cpu.signExtend b).toNat = if b.toNat < 128 then b.toNat else b.toNat + 65280 :=
    Byte.forall_byte (by decide +kernel)
  have hbase := base.toNat_lt
  have hlo := lo.toNat_lt
  have htwo : (2 : UInt16).toNat = 2 := rfl
  unfold calcRelativeOffset branchTarget
  dsimp only
  rw [← UInt8.toNat_inj, UInt8.toNat_ofNat', UInt16.toNat_add, UInt16.toNat_add, htwo, hext]
  split <;> omega

/-- **A branch is stored** if its distance is not counted across the ends of the memory. -/
theorem stores_branch (hinstr : IsInstruction opcode) (hnil : s.asm.delayedTargets = [])
    (hmode : (opcodes opcode).addressMode = .r)
    (hnone : ∀ symbol, findAddressFromSymbol tables symbol = none)
    (hplain : 0x1000 ≤ branchTarget base lo) :
    Stores opcode lo hi base s
        (assemble tables (mnemonic opcode) (notationArgs opcode base lo hi) base s)
      ↔ inRange base (branchTarget base lo) := by
  obtain ⟨first, others, hops, hfirst⟩ := exists_asmOpcodes opcode
  rw [(isOpcodeBranch_iff opcode).2 hmode] at hfirst
  have hbytes : (opcodes opcode).addressMode.bytes ≠ 1 := by
    rw [hmode]
    decide
  have hhash : hashOf opcode ≠ nopHash := by
    intro h
    obtain rfl := hashOf_eq_nopHash hinstr h
    exact hbytes rfl
  have hvalue : operandValue (opcodes opcode).addressMode base lo hi = branchTarget base lo :=
    if_pos hmode
  have htyped : formatHex (operandValue (opcodes opcode).addressMode base lo hi)
      = operandText (opcodes opcode).addressMode base lo hi :=
    (formatHex_operandText _).2 (by rw [if_pos hmode]; exact hplain)
  have hv : ¬ branchTarget base lo ≤ 0xFF := fun hle =>
    absurd (UInt16.le_trans hplain hle) (by decide)
  have hread := getArgs_notationArgs hbytes hnone htyped
  rw [hvalue, hmode, if_neg (by decide), if_neg hv] at hread
  obtain ⟨hin, hout⟩ := update_branch hfirst base (branchTarget base lo)
  -- the line names the target, and the assembler reckons the offset back from it
  rw [stores_assemble_iff hnil hops hread rfl rfl]
  constructor
  · rintro ⟨t', value, hupdate, -⟩
    by_contra hrange
    exact nomatch (congrArg Prod.snd hupdate).symm.trans (hout hrange)
  · intro hrange
    obtain ⟨t', hupdate, hmode'⟩ := hin hrange
    refine ⟨t', _, hupdate, ?_, fun _ => ?_, fun htwo => ?_⟩
    · rw [hmode', ← hmode]
      exact find_asmOpcodes hhash
    · rw [UInt8.toUInt8_toUInt16]
      exact calcRelativeOffset_branchTarget base lo
    · rw [hmode] at htwo
      exact absurd htwo (by decide)

/-- **An instruction without an operand is stored**, unless it is `NOP`. -/
theorem stores_implied (tables : List SymbolTable) (lo hi : UInt8) (base : UInt16)
    (hinstr : IsInstruction opcode) (hnil : s.asm.delayedTargets = [])
    (hmode : (opcodes opcode).addressMode = .implied) :
    Stores opcode lo hi base s
        (assemble tables (mnemonic opcode) (notationArgs opcode base lo hi) base s)
      ↔ opcode ≠ opcodeNop := by
  obtain ⟨first, others, hops, hfirst⟩ := exists_asmOpcodes opcode
  have hbranch : isOpcodeBranch first = false := by
    rw [hfirst, ← Bool.not_eq_true, isOpcodeBranch_iff, hmode]
    exact nofun
  have hargs : notationArgs opcode base lo hi = [storeArg (mnemonic opcode) .alphanumeric] := by
    unfold notationArgs operandTexts
    rw [hmode]
    rfl
  have hread : assemblerGetArgs tables base (notationArgs opcode base lo hi) (.start [] false)
      = ({ ArgState.start [] false with nextState := .getMnemonicParm }, true) := by
    rw [hargs]
    rfl
  have hupdate : assemblerUpdateAddressingMode first base
      { ArgState.start [] false with nextState := .getMnemonicParm }
        = ({ ArgState.start [] false with nextState := .getMnemonicParm }, some 0) := by
    unfold assemblerUpdateAddressingMode
    rw [hbranch]
    rfl
  rw [stores_assemble_iff hnil hops hread rfl rfl]
  constructor
  · rintro ⟨t', value, hsome, hfound, -⟩ rfl
    obtain ⟨rfl, -⟩ := Prod.mk.inj (hupdate.symm.trans hsome)
    exact nomatch find_asmOpcodes_nop.symm.trans hfound
  · intro hne
    have hhash : hashOf opcode ≠ nopHash := fun h => hne (hashOf_eq_nopHash hinstr h)
    refine ⟨_, _, hupdate, ?_, fun hone => ?_, fun htwo => ?_⟩
    · have hfind := find_asmOpcodes hhash
      rw [hmode] at hfind
      exact hfind
    · rw [hmode] at hone
      exact absurd hone (by decide)
    · rw [hmode] at htwo
      exact absurd htwo (by decide)

/-- No other instruction is stored for a number that is printed as it was typed. -/
theorem undone_iff_stores {s' : Assembler}
    (hplain : formatHex (operandValue (opcodes opcode).addressMode base lo hi)
      = operandText (opcodes opcode).addressMode base lo hi) :
    Undone opcode lo hi base s s' ↔ Stores opcode lo hi base s s' := by
  refine or_iff_left ?_
  rintro ⟨other, hzero, -, rfl, -⟩
  have hlt : ¬ 0x1000 ≤ word lo 0 := by
    have hlo := lo.toNat_lt
    have hword := Byte.toNat_word lo 0
    have hzero : (0 : UInt8).toNat = 0 := rfl
    intro hle
    have hle' : 4096 ≤ (word lo 0).toNat := UInt16.le_iff_toNat_le.1 hle
    omega
  rw [formatHex_operandText] at hplain
  revert hzero hplain
  cases (opcodes opcode).addressMode <;> simp [zeroPageMode, AddressingMode.bytes, hlt]

/-- **The mini-assembler undoes disassembly** for the instructions without a pointer whose number
does not start with a zero, for branches that do not cross the ends of the memory, and for the
instructions without an operand but `NOP`; and for no others. -/
theorem reassembly (symbols : Symbols) (hsymbols : ∀ table, symbols.tables table = .empty)
    (s : Assembler) (hnil : s.asm.delayedTargets = []) (opcode lo hi : UInt8)
    (hinstr : IsInstruction opcode) (base : UInt16)
    (hbase : base = UInt16.ofNat s.assemblerAddress) :
    ∃ s', enterLine ((notation65C02 opcode base lo hi).flatMap Piece.spelled) symbols s
        = some (symbols, s')
      ∧ (Undone opcode lo hi base s s' ↔ Undoes opcode lo hi base) := by
  have hnone := findAddressFromSymbol_tablesOf hsymbols
  have hmodes := addressMode_notMem opcode
  have hline := enterLine_notation65C02 symbols opcode base lo hi s
  rw [← hbase] at hline
  refine ⟨_, hline, ?_⟩
  -- an instruction without an operand has no mode to infer and fails only as a NOP
  by_cases hbytes : (opcodes opcode).addressMode.bytes = 1
  · have hmode : (opcodes opcode).addressMode = .implied := by
      revert hbytes hmodes
      cases (opcodes opcode).addressMode <;> decide
    have hstores := stores_implied (tablesOf symbols) lo hi base hinstr hnil hmode
    have hundoes : Undoes opcode lo hi base ↔ opcode ≠ opcodeNop := by
      unfold Undoes
      rw [hmode]
    rw [hundoes, ← hstores]
    refine or_iff_left ?_
    rintro ⟨other, hzero, -⟩
    rw [hmode] at hzero
    cases hzero
  have hundoes : Undoes opcode lo hi base
      ↔ formatHex (operandValue (opcodes opcode).addressMode base lo hi)
          = operandText (opcodes opcode).addressMode base lo hi
        ∧ (opcodes opcode).addressMode ∉ [AddressingMode.izx, .iax, .nzy, .nz, .na]
        ∧ ((opcodes opcode).addressMode = .r → inRange base (branchTarget base lo)) := by
    rw [formatHex_operandText]
    unfold Undoes
    revert hbytes hmodes
    cases (opcodes opcode).addressMode <;> simp [AddressingMode.bytes]
  rw [hundoes]
  -- an operand that the assembler would spell differently becomes a delayed target, and the line
  -- is not undone
  by_cases hplain : formatHex (operandValue (opcodes opcode).addressMode base lo hi)
      = operandText (opcodes opcode).addressMode base lo hi
  · rw [undone_iff_stores hplain, and_iff_right hplain]
    by_cases hmode : (opcodes opcode).addressMode = .r
    · have hhigh := (formatHex_operandText _).1 hplain
      rw [if_pos hmode] at hhigh
      rw [stores_branch hinstr hnil hmode hnone hhigh, forall_prop_of_true hmode, hmode]
      exact (and_iff_right (by decide)).symm
    · rw [stores_of_plain hinstr hnil hbytes hmode hnone hplain,
        inferredMode_iff hbytes hmode hplain hmodes]
      exact (and_iff_left fun h => absurd h hmode).symm
  · exact iff_of_false (not_undone_of_delayed hnil hbytes hnone hplain) fun h => hplain h.1

end Undone

/-- The assembler at `$0300`, without pending targets, over a blank memory. -/
def atStart : Assembler := ⟨⟨fun _ => 0, fun _ => 0, false, [], false⟩, 0x300⟩

/-- `LDA #$12` -/
theorem reassembly_lda : ∃ s', enterLine ((notation65C02 0xA9 0x300 0x12 0).flatMap Piece.spelled)
      noSymbols atStart = some (noSymbols, s')
    ∧ Undone 0xA9 0x12 0 0x300 atStart s' := by
  have hundoes : Undoes 0xA9 0x12 0 0x300 := by
    show (0x10 : UInt8) ≤ 0x12
    decide
  obtain ⟨s', hs, hiff⟩ := reassembly noSymbols (fun _ => rfl) atStart rfl 0xA9 0x12 0 (by decide)
    0x300 rfl
  exact ⟨s', hs, hiff.2 hundoes⟩

/-- `NOP` is stored as the first of the invalid instructions. -/
theorem not_reassembly : ¬ ∀ (symbols : Symbols), (∀ table, symbols.tables table = .empty) →
    ∀ s : Assembler, s.asm.delayedTargets = [] → ∀ opcode lo hi : UInt8, IsInstruction opcode →
      ∀ base : UInt16, base = UInt16.ofNat s.assemblerAddress → base < 0xFFFD →
        ∃ s', enterLine ((notation65C02 opcode base lo hi).flatMap Piece.spelled) symbols s
            = some (symbols, s')
          ∧ Undone opcode lo hi base s s' := by
  intro h
  obtain ⟨s', hs, hundone⟩ := h noSymbols (fun _ => rfl) atStart rfl 0xEA 0 0 (by decide) 0x300 rfl
    (by decide)
  have hmem : (enterLine ((notation65C02 0xEA 0x300 0 0).flatMap Piece.spelled) noSymbols
      atStart).map (fun r => r.2.asm.mem 0x300) = some 0x03 := by decide +kernel
  rw [hs, Option.map_some] at hmem
  rcases hundone with hstores | ⟨other, hzero, -⟩
  · rw [hstores.mem] at hmem
    exact absurd hmem (by decide)
  · cases hzero

end LinApple.Debugger.MiniAssembler
