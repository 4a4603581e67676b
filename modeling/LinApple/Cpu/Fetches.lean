import LinApple.Cpu.Timing

/-!
# Reads of the image

The processor reads its image of 64 KiB directly: opcodes and operands, the stack, pointers and
vectors. Most addresses are computed in 16 bits and wrap around by themselves. Two bytes are read
as the byte at a place and the one behind it, though, and that place is one too many where an
operand of two bytes starts at 0xFFFF, where the pointer of a jump is 0xFFFF, or where an index
leads a pointer past the end.

A place of the image is a natural number here and not an address, because the question is whether
it is one. The host keeps a list of every place that has been read (`fetched`); nothing in the
program does, and nothing looks at it. A place past the end can be read in the model, as it can in
the program, where what is found there is not said.

`turn_inside_iff` is about one turn of the loop, from any state whatever and on either processor:
the fetch of the opcode, the addressing mode, the operation, and the entry of an interrupt at
the end. It has no hypotheses. All the places are gone through once, mode by mode and operation by
operation, and nearly all of them are 16-bit numbers; what is left is the condition
`AddressingMode.Fits`, with one clause for each of the three places where two bytes are read from
a place that is not kept in bounds. Each clause is about the registers and the operand before the
instruction is executed. Since a turn that reads inside leaves the list inside, a run does.

Stack pointers outside page one are no exception. The places they lead to are odd but in the
image.
-/

namespace LinApple.Cpu

variable {W : Type*} (bus : Bus W) (cmos : Bool)

/-! ## Reads within the image -/

/-- The reads a host has added to a log, all within the image. The image has 65536 bytes and is
indexed with more than 16 bits in some places, which is why a place in the log is a number and not
an address. -/
def Inside (log : List Nat) (h : Host W) : Prop :=
  ∃ l, h.fetched = log ++ l ∧ ∀ i ∈ l, i < 65536

theorem Inside.append {log : List Nat} {h h' : Host W} (hh : Inside log h)
    {l : List Nat} (hl : ∀ i ∈ l, i < 65536) (he : h'.fetched = h.fetched ++ l) :
    Inside log h' := by
  obtain ⟨l₀, h₀, hl₀⟩ := hh
  refine ⟨l₀ ++ l, by rw [he, h₀, List.append_assoc], fun i hi => ?_⟩
  obtain hi | hi := List.mem_append.mp hi
  · exact hl₀ i hi
  · exact hl i hi

theorem Inside.congr {log : List Nat} {h h' : Host W} (hh : Inside log h)
    (he : h'.fetched = h.fetched) : Inside log h' :=
  hh.append (l := []) (fun _ => nofun) (by rw [he, List.append_nil])

theorem inside_self (h : Host W) : Inside h.fetched h :=
  ⟨[], (List.append_nil _).symm, fun _ => nofun⟩

/-- What a handler asks of the processor leaves the log alone. -/
theorem foldl_call_fetched (x : UInt32) (calls : List HostCall) (h : Host W) :
    (calls.foldl (Host.call x) h).fetched = h.fetched := by
  induction calls generalizing h with
  | nil => rfl
  | cons c calls ih =>
    refine (ih (h.call x c)).trans ?_
    cases c <;> rfl

theorem ioMapDispatch_fetched (h : Host W) (pc a : UInt16) (w : Bool) (v : UInt8)
    (x : UInt32) : (h.ioMapDispatch bus pc a w v x).2.fetched = h.fetched :=
  foldl_call_fetched x _ _

theorem writeByte_fetched (h : Host W) (pc a : UInt16) (v : UInt8) (x : UInt32) :
    (h.writeByte bus pc a v x).fetched = h.fetched := by
  unfold Host.writeByte
  simp only
  split
  · rfl
  · split
    · exact ioMapDispatch_fetched bus _ _ _ _ _ _
    · rfl

theorem forall_mem_pair {i j n : Nat} (hi : i < n) (hj : j < n) :
    ∀ k ∈ [i, j], k < n := by
  intro k hk
  obtain rfl | hk := List.mem_cons.mp hk
  · exact hi
  · exact (List.mem_singleton.mp hk) ▸ hj

/-- **The relation of a host with itself** while its reads stay within the
image. -/
def inside (log : List Nat) (x : UInt32) : Related bus bus x where
  rel h h' := h = h' ∧ Inside log h
  ok i := i < 65536
  ok_of_lt _ hi := hi
  read := by
    rintro h _ pc a ⟨rfl, hh⟩
    refine ⟨rfl, rfl, ?_⟩
    unfold Host.readByte
    split
    · exact hh.congr (ioMapDispatch_fetched bus _ _ _ _ _ _)
    · exact hh.append (l := [a.toNat])
        (fun i hi => (List.mem_singleton.mp hi) ▸ a.toNat_lt) rfl
  write := by
    rintro h _ pc a v ⟨rfl, hh⟩
    exact ⟨rfl, hh.congr (writeByte_fetched bus _ _ _ _ _)⟩
  poke := by
    rintro h _ a v ⟨rfl, hh⟩
    exact ⟨rfl, hh.congr rfl⟩
  fetch := by
    rintro h _ i hi ⟨rfl, hh⟩
    exact ⟨rfl, rfl, hh.append (fun j hj => (List.mem_singleton.mp hj) ▸ hi) rfl⟩
  fetch16 := by
    rintro h _ i hi hi' ⟨rfl, hh⟩
    exact ⟨rfl, rfl, hh.append (forall_mem_pair hi hi') rfl⟩

/-- A state is related to itself. -/
theorem same_self {log : List Nat} {s : CpuState W} (h : Inside log s.host) :
    Same (inside bus log s.ctx.executedCycles) s s :=
  ⟨rfl, rfl, rfl, Iff.rfl, Iff.rfl, rfl, rfl, rfl, h⟩

/-- An operation stays within the image. -/
theorem Inside.run {log : List Nat} {s : CpuState W} (h : Inside log s.host)
    (op : Operation) : Inside log (op.run bus s).host :=
  ((same_self bus h).run op (fun _ => rfl) (fun _ => rfl)).host.2

/-- The entry of an interrupt stays within the image. -/
theorem Inside.interrupt {log : List Nat} {s : CpuState W} (h : Inside log s.host)
    {vector : Nat} (hv : vector < 65535) :
    Inside log (s.interrupt bus cmos vector).host :=
  ((same_self bus h).enterInterrupt cmos hv).host.2.congr rfl

theorem Inside.checkNmi {log : List Nat} {s : CpuState W} (h : Inside log s.host) :
    Inside log (s.checkNmi bus cmos).host := by
  unfold CpuState.checkNmi
  split
  · exact Inside.interrupt bus cmos (s := s.clearFlank) (h.congr rfl) (by decide)
  · exact h

theorem Inside.checkIrq {log : List Nat} {s : CpuState W} (h : Inside log s.host) :
    Inside log (s.checkIrq bus cmos).host := by
  unfold CpuState.checkIrq
  split
  · exact h.interrupt bus cmos (by decide)
  · exact h

/-- **What follows the addressing mode in a turn stays within the image.** -/
theorem turn_inside (s : CpuState W) :
    Inside (s.located bus cmos).host.fetched (s.turn bus cmos).host := by
  have h := (inside_self (s.located bus cmos).host).run bus (s.desc bus cmos).op
  have ha : Inside (s.located bus cmos).host.fetched
      ((s.execute bus cmos).arrive bus).host := h.congr rfl
  exact (ha.checkNmi bus cmos).checkIrq bus cmos

/-! ## What an addressing mode reads -/

/-- The places of a pointer in the zero page. -/
def zeroPagePlaces (base : UInt16) : List Nat :=
  if base = 0xFF then [0xFF, 0] else [base.toNat, base.toNat + 1]

/-- The places of a pointer that wraps around in its page. -/
def pointerPlaces (base : UInt16) : List Nat :=
  if base &&& 0xFF = 0xFF then [base.toNat, (base &&& 0xFF00).toNat]
  else [base.toNat, base.toNat + 1]

/-- The operand of one byte. -/
def CpuState.operand (s : CpuState W) : UInt8 := (s.fetchPc bus).1

/-- The operand of two bytes. -/
def CpuState.operand16 (s : CpuState W) : UInt16 := (s.fetchPc16 bus).1

/-- **The places of the image an addressing mode reads**, in order. -/
def AddressingMode.places (mode : AddressingMode) (s : CpuState W) : List Nat :=
  let pc := s.regs.pc.toNat
  match mode with
  | .none | .imm => []
  | .zpg | .zpgx | .zpgy | .rel => [pc]
  | .abs | .absx | .absy => [pc, pc + 1]
  | .iabsNmos => [pc, pc + 1] ++ pointerPlaces (s.operand16 bus)
  | .iabsCmos =>
    [pc, pc + 1] ++ [(s.operand16 bus).toNat, (s.operand16 bus).toNat + 1]
  | .iabsx =>
    [pc, pc + 1] ++ [(s.operand16 bus).toNat + s.regs.x.toNat,
      (s.operand16 bus).toNat + s.regs.x.toNat + 1]
  | .indx =>
    [pc] ++ zeroPagePlaces (((s.operand bus).toUInt16 + s.regs.x.toUInt16) &&& 0xFF)
  | .indy =>
    [pc] ++ (if s.operand bus = 0xFF then [0xFF, 0]
      else [pc, (s.operand bus).toNat, (s.operand bus).toNat + 1])
  | .izpg => [pc] ++ zeroPagePlaces (s.operand bus).toUInt16

theorem readZeroPagePointer_fetched (s : CpuState W) (base : UInt16) :
    (readZeroPagePointer bus s base).2.host.fetched
      = s.host.fetched ++ zeroPagePlaces base := by
  unfold readZeroPagePointer zeroPagePlaces
  split
  · exact List.append_assoc _ [0xFF] [0]
  · rfl

theorem readPointerNmos_fetched (s : CpuState W) (base : UInt16) :
    (readPointerNmos bus s base).2.host.fetched
      = s.host.fetched ++ pointerPlaces base := by
  unfold readPointerNmos pointerPlaces
  split
  · exact List.append_assoc _ [base.toNat] [(base &&& 0xFF00).toNat]
  · rfl

theorem readPointerIndy_fetched (s : CpuState W) :
    (readPointerIndy bus s).2.host.fetched
      = s.host.fetched ++ AddressingMode.places bus .indy s := by
  have hp : AddressingMode.places bus .indy s = [s.regs.pc.toNat]
      ++ (if (s.fetch bus s.regs.pc.toNat).1 = 0xFF then [0xFF, 0]
        else [s.regs.pc.toNat, (s.operand bus).toNat, (s.operand bus).toNat + 1]) := rfl
  unfold readPointerIndy
  rw [hp]
  simp only
  split
  · exact (List.append_assoc _ [0xFF] [0]).trans (List.append_assoc _ _ _)
  · exact (List.append_assoc _ [s.regs.pc.toNat] _).trans (List.append_assoc _ _ _)

/-- **An addressing mode reads its places and no others.** -/
theorem AddressingMode.run_fetched (mode : AddressingMode) (s : CpuState W) :
    (mode.run bus s).host.fetched = s.host.fetched ++ mode.places bus s := by
  cases mode with
  | iabsNmos =>
    exact (readPointerNmos_fetched bus (s.fetchPc16 bus).2 _).trans (List.append_assoc _ _ _)
  | indx =>
    exact (readZeroPagePointer_fetched bus (s.fetchPc bus).2 _).trans (List.append_assoc _ _ _)
  | izpg =>
    exact (readZeroPagePointer_fetched bus (s.fetchPc bus).2 _).trans (List.append_assoc _ _ _)
  | indy => exact readPointerIndy_fetched bus s
  | none => exact (List.append_nil _).symm
  | imm => exact (List.append_nil _).symm
  | iabsCmos => exact List.append_assoc _ _ _
  | iabsx => exact List.append_assoc _ _ _
  | _ => rfl

/-! ## Where the places end -/

/-- The modes with an operand of two bytes. -/
def AddressingMode.readsTwo : AddressingMode → Bool
  | .abs | .absx | .absy | .iabsNmos | .iabsCmos | .iabsx => true
  | _ => false

/-- **The operand and the pointer of a mode do not pass the end of the
image.** -/
structure AddressingMode.Fits (mode : AddressingMode) (s : CpuState W) : Prop where
  operand : mode.readsTwo → s.regs.pc ≠ 0xFFFF
  pointer : mode = .iabsCmos → s.operand16 bus ≠ 0xFFFF
  indexed : mode = .iabsx → (s.operand16 bus).toNat + s.regs.x.toNat < 0xFFFF

theorem toNat_add_one_lt (a : UInt16) : a.toNat + 1 < 65536 ↔ a ≠ 0xFFFF := by
  rw [ne_eq, ← UInt16.toNat_inj]
  show _ ↔ ¬ a.toNat = 65535
  have := a.toNat_lt
  omega

theorem zeroPagePlaces_lt {base : UInt16} (h : base ≤ 0xFF) :
    ∀ i ∈ zeroPagePlaces base, i < 65536 := by
  have := UInt16.le_iff_toNat_le.mp h
  have : base.toNat ≤ 255 := this
  unfold zeroPagePlaces
  split
  · decide
  · exact forall_mem_pair (by omega) (by omega)

theorem pointerPlaces_lt (base : UInt16) : ∀ i ∈ pointerPlaces base, i < 65536 := by
  unfold pointerPlaces
  split
  · exact forall_mem_pair base.toNat_lt (UInt16.toNat_lt _)
  · rename_i h
    refine forall_mem_pair base.toNat_lt ((toNat_add_one_lt base).mpr ?_)
    rintro rfl
    exact h rfl

theorem forall_mem_append {l l' : List Nat} :
    (∀ i ∈ l ++ l', i < 65536) ↔ (∀ i ∈ l, i < 65536) ∧ ∀ i ∈ l', i < 65536 := by
  simp only [List.mem_append, or_imp, forall_and]

theorem forall_mem_word (a : Nat) :
    (∀ i ∈ [a, a + 1], i < 65536) ↔ a + 1 < 65536 := by
  simp only [List.mem_cons, List.not_mem_nil, or_false, forall_eq_or_imp, forall_eq]
  omega

theorem and_0xFF_le (v : UInt16) : v &&& 0xFF ≤ 0xFF := by
  rw [UInt16.le_iff_toNat_le, UInt16.toNat_and]
  exact Nat.and_le_right

theorem toUInt16_le (b : UInt8) : b.toUInt16 ≤ 0xFF := by
  rw [UInt16.le_iff_toNat_le, UInt8.toNat_toUInt16]
  exact Nat.le_of_lt_succ b.toNat_lt

/-- **A mode reads within the image if and only if its operand and its
pointer do not pass the end.** -/
theorem AddressingMode.places_lt_iff (mode : AddressingMode) (s : CpuState W) :
    (∀ i ∈ mode.places bus s, i < 65536) ↔ mode.Fits bus s := by
  have hpc := s.regs.pc.toNat_lt
  have hone : ∀ i ∈ [s.regs.pc.toNat], i < 65536 :=
    fun i hi => (List.mem_singleton.mp hi) ▸ hpc
  have htwo : (∀ i ∈ [s.regs.pc.toNat, s.regs.pc.toNat + 1], i < 65536)
      ↔ s.regs.pc ≠ 0xFFFF :=
    (forall_mem_word _).trans (toNat_add_one_lt _)
  -- only a word is read past its first byte: one at `$FFFF` reaches for the byte behind the memory
  cases mode with
  | none => exact ⟨fun _ => ⟨nofun, nofun, nofun⟩, fun _ => nofun⟩
  | imm => exact ⟨fun _ => ⟨nofun, nofun, nofun⟩, fun _ => nofun⟩
  | zpg => exact ⟨fun _ => ⟨nofun, nofun, nofun⟩, fun _ => hone⟩
  | zpgx => exact ⟨fun _ => ⟨nofun, nofun, nofun⟩, fun _ => hone⟩
  | zpgy => exact ⟨fun _ => ⟨nofun, nofun, nofun⟩, fun _ => hone⟩
  | rel => exact ⟨fun _ => ⟨nofun, nofun, nofun⟩, fun _ => hone⟩
  | abs => exact ⟨fun h => ⟨fun _ => htwo.mp h, nofun, nofun⟩, fun h => htwo.mpr (h.operand rfl)⟩
  | absx => exact ⟨fun h => ⟨fun _ => htwo.mp h, nofun, nofun⟩, fun h => htwo.mpr (h.operand rfl)⟩
  | absy => exact ⟨fun h => ⟨fun _ => htwo.mp h, nofun, nofun⟩, fun h => htwo.mpr (h.operand rfl)⟩
  | iabsNmos =>
    exact forall_mem_append.trans
      ⟨fun h => ⟨fun _ => htwo.mp h.1, nofun, nofun⟩,
        fun h => ⟨htwo.mpr (h.operand rfl), pointerPlaces_lt _⟩⟩
  | iabsCmos =>
    have hp : (∀ i ∈ [(s.operand16 bus).toNat, (s.operand16 bus).toNat + 1], i < 65536)
        ↔ s.operand16 bus ≠ 0xFFFF :=
      (forall_mem_word _).trans (toNat_add_one_lt _)
    exact forall_mem_append.trans
      ⟨fun h => ⟨fun _ => htwo.mp h.1, fun _ => hp.mp h.2, nofun⟩,
        fun h => ⟨htwo.mpr (h.operand rfl), hp.mpr (h.pointer rfl)⟩⟩
  | iabsx =>
    have hp := forall_mem_word ((s.operand16 bus).toNat + s.regs.x.toNat)
    exact forall_mem_append.trans
      ⟨fun h => ⟨fun _ => htwo.mp h.1, nofun, fun _ => Nat.lt_of_succ_lt_succ (hp.mp h.2)⟩,
        fun h => ⟨htwo.mpr (h.operand rfl), hp.mpr (Nat.succ_lt_succ (h.indexed rfl))⟩⟩
  | indx =>
    exact forall_mem_append.trans
      ⟨fun _ => ⟨nofun, nofun, nofun⟩,
        fun _ => ⟨hone, zeroPagePlaces_lt (and_0xFF_le _)⟩⟩
  | izpg =>
    exact forall_mem_append.trans
      ⟨fun _ => ⟨nofun, nofun, nofun⟩,
        fun _ => ⟨hone, zeroPagePlaces_lt (toUInt16_le _)⟩⟩
  | indy =>
    refine forall_mem_append.trans
      ⟨fun _ => ⟨nofun, nofun, nofun⟩, fun _ => ⟨hone, ?_⟩⟩
    have hb := (s.operand bus).toNat_lt
    split
    · decide
    · intro i hi
      obtain rfl | hi := List.mem_cons.mp hi
      · exact hpc
      · exact forall_mem_pair (by omega) (by omega) i hi

/-! ## A turn -/

/-- The opcode is read from the image at most once, within it. -/
theorem fetchOpcode_fetched (s : CpuState W) :
    ∃ l, (s.fetchOpcode bus).2.host.fetched = s.host.fetched ++ l ∧
      ∀ i ∈ l, i < 65536 :=
  ((same_self bus (inside_self s.host)).fetchOpcode).2.host.2

/-- The places read up to the operation of an instruction. -/
theorem located_fetched (s : CpuState W) :
    ∃ l, (s.located bus cmos).host.fetched = s.host.fetched ++ (l ++
        (s.desc bus cmos).mode.places bus (s.fetchOpcode bus).2) ∧
      ∀ i ∈ l, i < 65536 := by
  obtain ⟨l, hl, hlt⟩ := fetchOpcode_fetched bus s
  refine ⟨l, ?_, hlt⟩
  rw [← List.append_assoc, ← hl]
  exact AddressingMode.run_fetched bus _ ((s.fetchOpcode bus).2.setExtra 0)

/-- **A turn reads within the image if and only if the operand and the pointer of its instruction
do not run over its end** (`AddressingMode.Fits`). The fetch of the opcode itself is always
inside. So the condition is about the mode of what is fetched and where that stands, and not about
what the instruction does. -/
theorem turn_inside_iff (s : CpuState W) :
    Inside s.host.fetched (s.turn bus cmos).host ↔
      (s.desc bus cmos).mode.Fits bus (s.fetchOpcode bus).2 := by
  obtain ⟨l, hl, hlt⟩ := located_fetched bus cmos s
  obtain ⟨l', hl', hlt'⟩ := turn_inside bus cmos s
  rw [← AddressingMode.places_lt_iff]
  constructor
  · rintro ⟨all, hall, hlts⟩
    have he : all = l ++ (s.desc bus cmos).mode.places bus (s.fetchOpcode bus).2 ++ l' := by
      rw [hall, hl, List.append_assoc] at hl'
      exact List.append_cancel_left hl'
    intro i hi
    refine hlts i ?_
    rw [he]
    exact List.mem_append_left _ (List.mem_append_right _ hi)
  · intro hp
    refine ⟨l ++ (s.desc bus cmos).mode.places bus (s.fetchOpcode bus).2 ++ l', ?_, ?_⟩
    · rw [hl', hl, List.append_assoc]
    · exact forall_mem_append.mpr ⟨forall_mem_append.mpr ⟨hlt, hp⟩, hlt'⟩

/-- `JMP ($FFFF)` on the 65C02, and `LDA $1234` at 0xFFFE, read a byte behind
the image. -/
theorem reads_behind_image :
    ¬ Inside [] ((CpuInstance.flat 0x300 [0x6C, 0xFF, 0xFF] 0).enter.turn
        Bus.flat true).host ∧
      ¬ Inside [] ((CpuInstance.flat 0xFFFE [0xAD, 0x34, 0x12] 0).enter.turn
        Bus.flat false).host := by
  have hnot {h : Host (Nat → UInt8)} (hm : 65536 ∈ h.fetched) : ¬ Inside [] h := by
    rintro ⟨l, hl, hlt⟩
    rw [hl] at hm
    exact absurd (hlt _ hm) (by decide)
  exact ⟨hnot (by decide +kernel), hnot (by decide +kernel)⟩

end LinApple.Cpu
