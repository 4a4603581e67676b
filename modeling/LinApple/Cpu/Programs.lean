import LinApple.Cpu.Returns

/-!
# Programs

What a program does shows in the registers, the flags it branches on, and in what can be seen of
the machine around the processor. A `Setting` says what that is; a `Picture` is all of it at one
moment. What an instruction does is told as the picture it leaves (`Goes`), where nothing asks for
an interrupt, and the instructions of a program are put one behind the other (`Goes.trans`).
-/

namespace LinApple.Cpu

variable {W V : Type*} {bus : Bus W}

/-- The stack pointer stays in its page. -/
theorem onStack_popSp {sp : UInt16} (h : OnStack sp) : OnStack (popSp sp) := by
  have hsp := onStack_iff.1 h
  rw [onStack_iff, toNat_popSp h]
  split_ifs <;> omega

/-! ## What can be seen -/

/-- **What can be seen of the machine around the processor.** -/
structure Setting (bus : Bus W) (V : Type*) where
  /-- The states the machine can be in. -/
  Ok : W → Prop
  /-- What can be seen of them. -/
  view : W → V
  /-- Nothing asks for an interrupt. -/
  requests : ∀ k, bus.requests k = []

namespace Setting

variable (E : Setting bus V)

/-- **This is what is seen**, and no interrupt is asked for. -/
structure Sees (v : V) (h : Host W) : Prop where
  /-- The machine is in a state it can be in. -/
  ok : E.Ok h.world
  /-- What is seen. -/
  view : E.view h.world = v
  /-- No device asks for an interrupt. -/
  irq : h.lines.bmIrq = 0
  /-- Nor for the other one. -/
  nmi : h.lines.nmiFlank = false

/-- The image has a byte. -/
def Shows (v : V) (i : Nat) (b : UInt8) : Prop := ∀ w, E.Ok w → E.view w = v → bus.mem w i = b

/-- What is seen after an address has been read. -/
def Touches (v : V) (a : UInt16) (v' : V) : Prop :=
  ∀ h, E.Sees v h → ∀ pc x, E.Sees v' (h.readByte bus pc a x).2

/-- What is read at an address, and seen after it. -/
def Reads (v : V) (a : UInt16) (b : UInt8) (v' : V) : Prop :=
  E.Touches v a v' ∧ ∀ h, E.Sees v h → ∀ pc x, (h.readByte bus pc a x).1 = b

/-- What is seen after a byte has been written. -/
def Writes (v : V) (a : UInt16) (b : UInt8) (v' : V) : Prop :=
  ∀ h, E.Sees v h → ∀ pc x, E.Sees v' (h.writeByte bus pc a b x)

variable {E} {v v' : V} {a : UInt16} {b : UInt8}

/-- An address that a handler answers. -/
theorem readByte_of_isIoRegion (ha : isIoRegion a = true) (h : Host W) (pc : UInt16) (x : UInt32) :
    let access : IoAccess := ⟨pc, a, false, 0, x, h.clock.now x⟩
    h.readByte bus pc a x = ((bus.io h.world access).1, (bus.io h.world access).2.2.foldl
      (Host.call x)
      { h with world := (bus.io h.world access).2.1, accesses := h.accesses ++ [access] }) :=
  if_pos ha

/-- Calls among which none is to the interrupt lines leave these and the machine as they are. -/
theorem foldl_call {calls : List HostCall} (hcalls : ∀ c, HostCall.line c ∉ calls) (x : UInt32)
    (h : Host W) : (calls.foldl (Host.call x) h).world = h.world
      ∧ (calls.foldl (Host.call x) h).lines = h.lines := by
  induction calls generalizing h with
  | nil => exact ⟨rfl, rfl⟩
  | cons call calls ih =>
    obtain ⟨hworld, hlines⟩ := ih (fun c hc => hcalls c (List.mem_cons_of_mem _ hc)) (h.call x call)
    cases call with
    | calcCycles => exact ⟨hworld, hlines⟩
    | limitCycles => exact ⟨hworld, hlines⟩
    | line c => exact absurd (List.mem_cons_self ..) (hcalls c)

/-- A handler that calls no interrupt line. It may have the cycles counted, as the bridge to a card
does before anything else. -/
theorem touches_of_io (ha : isIoRegion a = true)
    (hio : ∀ w, E.Ok w → E.view w = v → ∀ access : IoAccess, access.addr = a →
      access.isWrite = false → ∃ b w' calls, bus.io w access = (b, w', calls) ∧
        (∀ c, HostCall.line c ∉ calls) ∧ E.Ok w' ∧ E.view w' = v') : E.Touches v a v' := by
  intro h hs pc x
  obtain ⟨b, w', calls, hanswer, hcalls, hok, hview⟩ :=
    hio h.world hs.ok hs.view ⟨pc, a, false, 0, x, h.clock.now x⟩ rfl rfl
  rw [readByte_of_isIoRegion ha, hanswer]
  obtain ⟨hworld, hlines⟩ := foldl_call hcalls x { h with
    world := w', accesses := h.accesses ++ [⟨pc, a, false, 0, x, h.clock.now x⟩] }
  exact ⟨hworld ▸ hok, (congrArg E.view hworld).trans hview,
    (congrArg InterruptLines.bmIrq hlines).trans hs.irq,
    (congrArg InterruptLines.nmiFlank hlines).trans hs.nmi⟩

/-- A handler that answers with a byte. -/
theorem reads_of_io (ha : isIoRegion a = true)
    (hio : ∀ w, E.Ok w → E.view w = v → ∀ access : IoAccess, access.addr = a →
      access.isWrite = false → ∃ w' calls, bus.io w access = (b, w', calls) ∧
        (∀ c, HostCall.line c ∉ calls) ∧ E.Ok w' ∧ E.view w' = v') : E.Reads v a b v' := by
  refine ⟨touches_of_io ha fun w hok hview access haddr hread =>
    ⟨b, hio w hok hview access haddr hread⟩, fun h hs pc x => ?_⟩
  obtain ⟨w', calls, hanswer, -⟩ :=
    hio h.world hs.ok hs.view ⟨pc, a, false, 0, x, h.clock.now x⟩ rfl rfl
  rw [readByte_of_isIoRegion ha, hanswer]

end Setting

/-- **What a program can see.** -/
structure Picture (V : Type*) where
  /-- The accumulator. -/
  a : UInt8
  /-- An index register. -/
  x : UInt8
  /-- An index register. -/
  y : UInt8
  /-- The program counter. -/
  pc : UInt16
  /-- The address of the stack pointer. -/
  sp : UInt16
  /-- The carry. -/
  flagc : UInt8
  /-- The zero flag. -/
  flagz : UInt8
  /-- What is around. -/
  view : V

/-- **A state shows a picture.** -/
structure Setting.Pictures (E : Setting bus V) (s : CpuState W) (p : Picture V) : Prop where
  a : s.regs.a = p.a
  x : s.regs.x = p.x
  y : s.regs.y = p.y
  pc : s.regs.pc = p.pc
  sp : s.regs.sp = p.sp
  flagc : s.ctx.flagc = p.flagc
  flagz : s.ctx.flagz = p.flagz
  sees : E.Sees p.view s.host

/-- **So many turns of the loop lead from one picture to another.** -/
def Setting.Goes (E : Setting bus V) (cmos : Bool) (n : Nat) (p q : Picture V) : Prop :=
  ∀ s, E.Pictures s p → E.Pictures ((CpuState.turn bus cmos)^[n] s) q

variable {E : Setting bus V} {cmos : Bool} {p q r : Picture V} {s : CpuState W}

theorem Setting.Goes.trans {m n : Nat} (h : E.Goes cmos m p q) (h' : E.Goes cmos n q r) :
    E.Goes cmos (m + n) p r := by
  intro s hs
  rw [Nat.add_comm, Function.iterate_add_apply]
  exact h' _ (h s hs)

theorem Setting.Goes.refl (p : Picture V) : E.Goes cmos 0 p p := fun _ hs => hs

/-! ## One turn -/

namespace Setting.Pictures

/-- What a turn does besides the instruction cannot be seen. -/
theorem finish {d : OpcodeDesc} (h : E.Pictures s p) :
    E.Pictures (((s.charge (s.cycles d)).packPs).arrive bus) p where
  a := h.a
  x := h.x
  y := h.y
  pc := h.pc
  sp := h.sp
  flagc := h.flagc
  flagz := h.flagz
  sees :=
    have hlines : (bus.requests s.host.turns).foldl InterruptLines.apply s.host.lines
        = s.host.lines := by
      rw [E.requests]
      rfl
    ⟨h.sees.ok, h.sees.view, (congrArg InterruptLines.bmIrq hlines).trans h.sees.irq,
      (congrArg InterruptLines.nmiFlank hlines).trans h.sees.nmi⟩

/-- No interrupt is taken. -/
theorem not_pending (h : E.Pictures s p) : ¬s.interruptPending := by
  rintro (hflank | hirq)
  · exact Bool.false_ne_true (h.sees.nmi.symm.trans hflank)
  · exact hirq.1 h.sees.irq

/-- Something is read. -/
theorem readByte {a : UInt16} {v : V} (h : E.Pictures s p) (hread : E.Touches p.view a v) :
    E.Pictures (s.readByte bus a).2 { p with view := v } :=
  ⟨h.a, h.x, h.y, h.pc, h.sp, h.flagc, h.flagz, hread _ h.sees _ _⟩

theorem readByte_fst {a : UInt16} {b : UInt8} {v : V} (h : E.Pictures s p)
    (hread : E.Reads p.view a b v) : (s.readByte bus a).1 = b :=
  hread.2 _ h.sees _ _

/-- Something is written. -/
theorem writeByte {a : UInt16} {b : UInt8} {v : V} (h : E.Pictures s p)
    (hwrite : E.Writes p.view a b v) :
    E.Pictures (s.writeByte bus a b) { p with view := v } :=
  ⟨h.a, h.x, h.y, h.pc, h.sp, h.flagc, h.flagz, hwrite _ h.sees _ _⟩

/-- An opcode is fetched. -/
theorem fetchOpcode {v : V} (h : E.Pictures s p) (hread : E.Touches p.view p.pc v) :
    E.Pictures ((s.fetchOpcode bus).2.setExtra 0) { p with pc := p.pc + 1, view := v } :=
  ⟨h.a, h.x, h.y, congrArg (· + 1) h.pc, h.sp, h.flagc, h.flagz, by
    have hsees := hread _ h.sees s.regs.pc s.ctx.executedCycles
    rwa [← h.pc] at hsees⟩

theorem opcode_eq {o : UInt8} {v : V} (h : E.Pictures s p) (hread : E.Reads p.view p.pc o v) :
    (s.fetchOpcode bus).1 = o := by
  have hbyte := hread.2 _ h.sees s.regs.pc s.ctx.executedCycles
  rwa [← h.pc] at hbyte

end Setting.Pictures

/-- **A turn is what the instruction does**, where no interrupt is asked for. -/
theorem turn_of_run (cmos : Bool) {o : UInt8} {v : V} (hs : E.Pictures s p)
    (hread : E.Reads p.view p.pc o v) :
    ∃ t, E.Pictures t { p with pc := p.pc + 1, view := v } ∧
      ∀ q, E.Pictures ((opcodeDesc cmos o).run bus t) q → E.Pictures (s.turn bus cmos) q := by
  refine ⟨_, hs.fetchOpcode hread.1, fun q hq => ?_⟩
  have hexecute : s.execute bus cmos
      = ((s.fetchOpcode bus).2.dispatch bus (opcodeDesc cmos o)).packPs := by
    unfold CpuState.execute
    dsimp only
    rw [hs.opcode_eq hread]
  have hfinished : E.Pictures ((s.execute bus cmos).arrive bus) q := by
    rw [hexecute]
    exact hq.finish
  rw [CpuState.turn_of_not_pending bus cmos s hfinished.not_pending]
  exact hfinished

theorem goes_of_run {o : UInt8} {v : V} (hread : E.Reads p.view p.pc o v)
    (hrun : ∀ t, E.Pictures t { p with pc := p.pc + 1, view := v } →
      E.Pictures ((opcodeDesc cmos o).run bus t) q) : E.Goes cmos 1 p q := by
  intro s hs
  obtain ⟨t, ht, hturn⟩ := turn_of_run cmos hs hread
  exact hturn q (hrun t ht)

/-! ## Addressing -/

namespace Setting.Pictures

/-- The operand is behind the opcode. -/
theorem addrImm (h : E.Pictures s p) :
    E.Pictures (addrImm s) { p with pc := p.pc + 1 } ∧ (addrImm s).ctx.addr = p.pc :=
  ⟨⟨h.a, h.x, h.y, congrArg (· + 1) h.pc, h.sp, h.flagc, h.flagz, h.sees⟩, h.pc⟩

/-- The operand is so far from the instruction behind. -/
theorem addrRel {b : UInt8} (h : E.Pictures s p) (hb : E.Shows p.view p.pc.toNat b) :
    E.Pictures (addrRel bus s) { p with pc := p.pc + 1 }
      ∧ (addrRel bus s).ctx.addr = signExtend b := by
  refine ⟨⟨h.a, h.x, h.y, congrArg (· + 1) h.pc, h.sp, h.flagc, h.flagz,
    ⟨h.sees.ok, h.sees.view, h.sees.irq, h.sees.nmi⟩⟩, ?_⟩
  show signExtend (bus.mem s.host.world s.regs.pc.toNat) = _
  rw [h.pc, hb _ h.sees.ok h.sees.view]

/-- The operand is an index away from the address behind the opcode. -/
theorem addrAbsIndexed {low high : UInt8} (h : E.Pictures s p)
    (hlow : E.Shows p.view p.pc.toNat low) (hhigh : E.Shows p.view (p.pc.toNat + 1) high)
    (index : UInt8) :
    E.Pictures (addrAbsIndexed bus s index) { p with pc := p.pc + 2 }
      ∧ (addrAbsIndexed bus s index).ctx.addr = Byte.word low high + index.toUInt16 := by
  refine ⟨⟨h.a, h.x, h.y, congrArg (· + 2) h.pc, h.sp, h.flagc, h.flagz,
    ⟨h.sees.ok, h.sees.view, h.sees.irq, h.sees.nmi⟩⟩, ?_⟩
  show Byte.word (bus.mem s.host.world s.regs.pc.toNat) (bus.mem s.host.world (s.regs.pc.toNat + 1))
    + _ = _
  rw [h.pc, hlow _ h.sees.ok h.sees.view, hhigh _ h.sees.ok h.sees.view]

/-! ## Registers and flags -/

theorem loadA (h : E.Pictures s p) (b : UInt8) :
    E.Pictures (loadA s b) { p with a := b, flagz := zeroOf b.toUInt16 } :=
  ⟨rfl, h.x, h.y, h.pc, h.sp, h.flagc, rfl, h.sees⟩

theorem loadX (h : E.Pictures s p) (b : UInt8) :
    E.Pictures (loadX s b) { p with x := b, flagz := zeroOf b.toUInt16 } :=
  ⟨h.a, rfl, h.y, h.pc, h.sp, h.flagc, rfl, h.sees⟩

theorem loadY (h : E.Pictures s p) (b : UInt8) :
    E.Pictures (loadY s b) { p with y := b, flagz := zeroOf b.toUInt16 } :=
  ⟨h.a, h.x, rfl, h.pc, h.sp, h.flagc, rfl, h.sees⟩

theorem compare (h : E.Pictures s p) (b : UInt8) (val : UInt16) :
    E.Pictures (compare s b val)
      { p with flagc := bit (b.toUInt16 ≥ val), flagz := zeroOf (b.toUInt16 - val) } :=
  ⟨h.a, h.x, h.y, h.pc, h.sp, rfl, rfl, h.sees⟩

/-- A branch that is taken or not. -/
theorem branchIf (h : E.Pictures s p) (taken : Bool) :
    E.Pictures (s.branchIf taken)
      { p with pc := if taken then p.pc + s.ctx.addr else p.pc } := by
  unfold CpuState.branchIf
  cases taken with
  | true =>
    exact ⟨h.a, h.x, h.y, congrArg (· + s.ctx.addr) h.pc, h.sp, h.flagc, h.flagz, h.sees⟩
  | false => exact h

/-- A byte comes off the stack. -/
theorem pop {b : UInt8} (h : E.Pictures s p) (hb : E.Shows p.view (popSp p.sp).toNat b) :
    (s.pop bus).1 = b ∧ E.Pictures (s.pop bus).2 { p with sp := popSp p.sp } := by
  refine ⟨?_, ⟨h.a, h.x, h.y, h.pc, congrArg popSp h.sp, h.flagc, h.flagz,
    ⟨h.sees.ok, h.sees.view, h.sees.irq, h.sees.nmi⟩⟩⟩
  show bus.mem s.host.world (popSp s.regs.sp).toNat = b
  rw [h.sp]
  exact hb _ h.sees.ok h.sees.view

/-! ## Operations -/

/-- A byte is loaded that can be seen before. -/
theorem opLda {b : UInt8} {v : V} (h : E.Pictures s p) (hread : E.Reads p.view s.ctx.addr b v) :
    E.Pictures (opLda bus s) { p with a := b, flagz := zeroOf b.toUInt16, view := v } := by
  show E.Pictures (LinApple.Cpu.loadA _ (s.readByte bus s.ctx.addr).1) _
  rw [h.readByte_fst hread]
  exact (h.readByte hread.1).loadA b

theorem opLdx {b : UInt8} {v : V} (h : E.Pictures s p) (hread : E.Reads p.view s.ctx.addr b v) :
    E.Pictures (opLdx bus s) { p with x := b, flagz := zeroOf b.toUInt16, view := v } := by
  show E.Pictures (LinApple.Cpu.loadX _ (s.readByte bus s.ctx.addr).1) _
  rw [h.readByte_fst hread]
  exact (h.readByte hread.1).loadX b

theorem opLdy {b : UInt8} {v : V} (h : E.Pictures s p) (hread : E.Reads p.view s.ctx.addr b v) :
    E.Pictures (opLdy bus s) { p with y := b, flagz := zeroOf b.toUInt16, view := v } := by
  show E.Pictures (LinApple.Cpu.loadY _ (s.readByte bus s.ctx.addr).1) _
  rw [h.readByte_fst hread]
  exact (h.readByte hread.1).loadY b

theorem opOra {b : UInt8} {v : V} (h : E.Pictures s p) (hread : E.Reads p.view s.ctx.addr b v) :
    E.Pictures (opOra bus s)
      { p with a := p.a ||| b, flagz := zeroOf (p.a ||| b).toUInt16, view := v } := by
  show E.Pictures (LinApple.Cpu.loadA _ (s.regs.a ||| (s.readByte bus s.ctx.addr).1)) _
  rw [h.readByte_fst hread, h.a]
  exact (h.readByte hread.1).loadA _

theorem opAnd {b : UInt8} {v : V} (h : E.Pictures s p) (hread : E.Reads p.view s.ctx.addr b v) :
    E.Pictures (opAnd bus s)
      { p with a := p.a &&& b, flagz := zeroOf (p.a &&& b).toUInt16, view := v } := by
  show E.Pictures (LinApple.Cpu.loadA _ (s.regs.a &&& (s.readByte bus s.ctx.addr).1)) _
  rw [h.readByte_fst hread, h.a]
  exact (h.readByte hread.1).loadA _

theorem opCmp {b : UInt8} {v : V} (h : E.Pictures s p) (hread : E.Reads p.view s.ctx.addr b v) :
    E.Pictures (opCmp bus s) { p with
      flagc := bit (p.a.toUInt16 ≥ b.toUInt16), flagz := zeroOf (p.a.toUInt16 - b.toUInt16)
      view := v } := by
  show E.Pictures (LinApple.Cpu.compare _ s.regs.a (s.readByte bus s.ctx.addr).1.toUInt16) _
  rw [h.readByte_fst hread, h.a]
  exact (h.readByte hread.1).compare _ _

/-- A routine goes back to behind where it was called. -/
theorem opRts {low high : UInt8} (h : E.Pictures s p)
    (hlow : E.Shows p.view (popSp p.sp).toNat low)
    (hhigh : E.Shows p.view (popSp (popSp p.sp)).toNat high) :
    E.Pictures (opRts bus s)
      { p with pc := Byte.word low high + 1, sp := popSp (popSp p.sp) } := by
  obtain ⟨hfirst, hpopped⟩ := h.pop hlow
  obtain ⟨hsecond, hall⟩ := hpopped.pop hhigh
  have hpc : Byte.word (s.pop bus).1 ((s.pop bus).2.pop bus).1 = Byte.word low high := by
    rw [hfirst, hsecond]
  exact ⟨hall.a, hall.x, hall.y, congrArg (· + 1) hpc, hall.sp, hall.flagc, hall.flagz, hall.sees⟩

/-- A byte is loaded that only its reading makes. -/
theorem exists_opLda {v : V} (h : E.Pictures s p) (htouch : E.Touches p.view s.ctx.addr v) :
    ∃ b, E.Pictures (LinApple.Cpu.opLda bus s)
      { p with a := b, flagz := zeroOf b.toUInt16, view := v } :=
  ⟨_, (h.readByte htouch).loadA _⟩

end Setting.Pictures

/-! ## Instructions -/

/-- **A program in a part of the image that can be executed**: fetching it changes nothing. -/
def Setting.Code (E : Setting bus V) (v : V) (pc : UInt16) (bytes : List UInt8) : Prop :=
  ∀ k, ∀ b ∈ bytes[k]?, E.Reads v (pc + UInt16.ofNat k) b v ∧ E.Shows v (pc.toNat + k) b

theorem Setting.Code.opcode {v : V} {pc : UInt16} {o : UInt8} {rest : List UInt8}
    (h : E.Code v pc (o :: rest)) : E.Reads v pc o v := by
  have hread := (h 0 o rfl).1
  rwa [show pc + UInt16.ofNat 0 = pc from UInt16.add_zero pc] at hread

/-- A part of a program. -/
theorem Setting.Code.part {v : V} {pc : UInt16} {bytes part rest : List UInt8} {k : Nat}
    (h : E.Code v pc bytes) (hpart : bytes.drop k = part ++ rest)
    (hpc : (pc + UInt16.ofNat k).toNat = pc.toNat + k) :
    E.Code v (pc + UInt16.ofNat k) part := by
  intro i b hb
  have hbyte : bytes[k + i]? = some b := by
    rw [← List.getElem?_drop, hpart, List.getElem?_append_left (List.getElem?_eq_some_iff.1 hb).1]
    exact hb
  obtain ⟨hread, hshow⟩ := h (k + i) b hbyte
  rw [UInt16.ofNat_add, ← UInt16.add_assoc] at hread
  rw [hpc, Nat.add_assoc]
  exact ⟨hread, hshow⟩

section Instructions

variable {o b low high : UInt8} {next : UInt16} {v : V}

/-- An instruction without an operand. -/
theorem goes_implied (op : Operation) (cycles : UInt8) (hcode : E.Code p.view p.pc [o])
    (hdesc : opcodeDesc cmos o = ⟨.none, op, cycles⟩) (hnext : p.pc + 1 = next)
    (hop : ∀ t, E.Pictures t { p with pc := next } → E.Pictures (op.run bus t) q) :
    E.Goes cmos 1 p q := by
  refine goes_of_run hcode.opcode fun t ht => ?_
  unfold OpcodeDesc.run
  rw [hdesc]
  rw [hnext] at ht
  exact hop t ht

/-- An instruction with a byte behind it. -/
theorem goes_immediate (op : Operation) (cycles : UInt8) (hcode : E.Code p.view p.pc [o, b])
    (hdesc : opcodeDesc cmos o = ⟨.imm, op, cycles⟩) (hnext : p.pc + 2 = next)
    (hop : ∀ t, E.Pictures t { p with pc := next } →
      E.Reads p.view t.ctx.addr b p.view → E.Pictures (op.run bus t) q) :
    E.Goes cmos 1 p q := by
  refine goes_of_run hcode.opcode fun t ht => ?_
  obtain ⟨himm, haddr⟩ := ht.addrImm
  have hpc : p.pc + 1 + 1 = next := (UInt16.add_assoc ..).trans hnext
  unfold OpcodeDesc.run
  rw [hdesc]
  refine hop _ ?_ ?_
  · rwa [hpc] at himm
  · show E.Reads p.view (LinApple.Cpu.addrImm t).ctx.addr b p.view
    rw [haddr]
    exact (hcode 1 b rfl).1

/-- The address behind an opcode that has been fetched, and an index. -/
theorem pictures_indexed (index : UInt8) (hcode : E.Code p.view p.pc [o, low, high])
    (hpc : (p.pc + 1).toNat = p.pc.toNat + 1) {t : CpuState W}
    (ht : E.Pictures t { p with pc := p.pc + 1 }) :
    E.Pictures (addrAbsIndexed bus t index) { p with pc := p.pc + 3 }
      ∧ (addrAbsIndexed bus t index).ctx.addr = Byte.word low high + index.toUInt16 := by
  have hlow : E.Shows p.view (p.pc + 1).toNat low := by
    rw [hpc]
    exact (hcode 1 low rfl).2
  have hhigh : E.Shows p.view ((p.pc + 1).toNat + 1) high := by
    rw [hpc]
    exact (hcode 2 high rfl).2
  obtain ⟨habs, haddr⟩ := ht.addrAbsIndexed hlow hhigh index
  have hthree : p.pc + 1 + 2 = p.pc + 3 := UInt16.add_assoc ..
  refine ⟨?_, haddr⟩
  rwa [hthree] at habs

theorem goes_nop (hcode : E.Code p.view p.pc [0xEA]) (hnext : p.pc + 1 = next) :
    E.Goes cmos 1 p { p with pc := next } :=
  goes_implied .nop 2 hcode (by cases cmos <;> rfl) hnext fun _ ht => ht

/-- Instructions that do nothing. -/
theorem goes_nops {n : Nat} (hcode : ∀ k < n, E.Code p.view (p.pc + UInt16.ofNat k) [0xEA]) :
    E.Goes cmos n p { p with pc := p.pc + UInt16.ofNat n } := by
  induction n with
  | zero =>
    have hpc : p.pc + UInt16.ofNat 0 = p.pc := UInt16.add_zero _
    rw [hpc]
    exact .refl p
  | succ n ih =>
    refine (ih fun k hk => hcode k (Nat.lt_succ_of_lt hk)).trans (goes_nop ?_ ?_)
    · exact hcode n (Nat.lt_succ_self n)
    · show p.pc + UInt16.ofNat n + UInt16.ofNat 1 = _
      rw [UInt16.add_assoc, ← UInt16.ofNat_add]

theorem goes_lda_imm (hcode : E.Code p.view p.pc [0xA9, b]) (hnext : p.pc + 2 = next) :
    E.Goes cmos 1 p { p with a := b, pc := next, flagz := zeroOf b.toUInt16 } :=
  goes_immediate .lda 2 hcode (by cases cmos <;> rfl) hnext fun _ ht hread => ht.opLda hread

theorem goes_ldx_imm (hcode : E.Code p.view p.pc [0xA2, b]) (hnext : p.pc + 2 = next) :
    E.Goes cmos 1 p { p with x := b, pc := next, flagz := zeroOf b.toUInt16 } :=
  goes_immediate .ldx 2 hcode (by cases cmos <;> rfl) hnext fun _ ht hread => ht.opLdx hread

theorem goes_ldy_imm (hcode : E.Code p.view p.pc [0xA0, b]) (hnext : p.pc + 2 = next) :
    E.Goes cmos 1 p { p with y := b, pc := next, flagz := zeroOf b.toUInt16 } :=
  goes_immediate .ldy 2 hcode (by cases cmos <;> rfl) hnext fun _ ht hread => ht.opLdy hread

theorem goes_ora_imm (hcode : E.Code p.view p.pc [0x09, b]) (hnext : p.pc + 2 = next) :
    E.Goes cmos 1 p
      { p with a := p.a ||| b, pc := next, flagz := zeroOf (p.a ||| b).toUInt16 } :=
  goes_immediate .ora 2 hcode (by cases cmos <;> rfl) hnext fun _ ht hread => ht.opOra hread

theorem goes_and_imm (hcode : E.Code p.view p.pc [0x29, b]) (hnext : p.pc + 2 = next) :
    E.Goes cmos 1 p
      { p with a := p.a &&& b, pc := next, flagz := zeroOf (p.a &&& b).toUInt16 } :=
  goes_immediate .and 2 hcode (by cases cmos <;> rfl) hnext fun _ ht hread => ht.opAnd hread

theorem goes_cmp_imm (hcode : E.Code p.view p.pc [0xC9, b]) (hnext : p.pc + 2 = next) :
    E.Goes cmos 1 p { p with
      pc := next
      flagc := bit (p.a.toUInt16 ≥ b.toUInt16), flagz := zeroOf (p.a.toUInt16 - b.toUInt16) } :=
  goes_immediate .cmp 2 hcode (by cases cmos <;> rfl) hnext fun _ ht hread => ht.opCmp hread

theorem goes_inx (hcode : E.Code p.view p.pc [0xE8]) (hnext : p.pc + 1 = next) :
    E.Goes cmos 1 p
      { p with x := p.x + 1, pc := next, flagz := zeroOf (p.x + 1).toUInt16 } := by
  refine goes_implied .inx 2 hcode (by cases cmos <;> rfl) hnext fun t ht => ?_
  show E.Pictures (loadX t (t.regs.x + 1)) _
  rw [ht.x]
  exact ht.loadX _

theorem goes_iny (hcode : E.Code p.view p.pc [0xC8]) (hnext : p.pc + 1 = next) :
    E.Goes cmos 1 p
      { p with y := p.y + 1, pc := next, flagz := zeroOf (p.y + 1).toUInt16 } := by
  refine goes_implied .iny 2 hcode (by cases cmos <;> rfl) hnext fun t ht => ?_
  show E.Pictures (loadY t (t.regs.y + 1)) _
  rw [ht.y]
  exact ht.loadY _

theorem goes_tya (hcode : E.Code p.view p.pc [0x98]) (hnext : p.pc + 1 = next) :
    E.Goes cmos 1 p { p with a := p.y, pc := next, flagz := zeroOf p.y.toUInt16 } := by
  refine goes_implied .tya 2 hcode (by cases cmos <;> rfl) hnext fun t ht => ?_
  show E.Pictures (loadA t t.regs.y) _
  rw [ht.y]
  exact ht.loadA _

/-- A byte is stored behind an address, as far as X says. -/
theorem goes_sta_absx (hcode : E.Code p.view p.pc [0x9D, low, high])
    (hpc : (p.pc + 1).toNat = p.pc.toNat + 1) (hnext : p.pc + 3 = next)
    (hwrite : E.Writes p.view (Byte.word low high + p.x.toUInt16) p.a v) :
    E.Goes cmos 1 p { p with pc := next, view := v } := by
  refine goes_of_run hcode.opcode fun t ht => ?_
  obtain ⟨habs, haddr⟩ := pictures_indexed t.regs.x hcode hpc ht
  rw [show opcodeDesc cmos 0x9D = ⟨.absx, .sta, 5⟩ by cases cmos <;> rfl]
  rw [hnext] at habs
  rw [← ht.x, ← haddr, ← habs.a] at hwrite
  exact habs.writeByte hwrite

/-- A byte is loaded from behind an address, as far as Y says. -/
theorem goes_lda_absy (hcode : E.Code p.view p.pc [0xB9, low, high])
    (hpc : (p.pc + 1).toNat = p.pc.toNat + 1) (hnext : p.pc + 3 = next)
    (hread : E.Reads p.view (Byte.word low high + p.y.toUInt16) b v) :
    E.Goes cmos 1 p { p with a := b, pc := next, flagz := zeroOf b.toUInt16, view := v } := by
  refine goes_of_run hcode.opcode fun t ht => ?_
  obtain ⟨habs, haddr⟩ := pictures_indexed t.regs.y hcode hpc ht
  rw [show opcodeDesc cmos 0xB9 = ⟨.absy, .lda, 4⟩ by cases cmos <;> rfl]
  rw [hnext] at habs
  rw [← ht.y, ← haddr] at hread
  exact habs.opLda hread

/-- The same, where the byte is known by its reading only. -/
theorem exists_lda_absy (cmos : Bool) (hs : E.Pictures s p)
    (hcode : E.Code p.view p.pc [0xB9, low, high]) (hpc : (p.pc + 1).toNat = p.pc.toNat + 1) (hnext : p.pc + 3 = next)
    (htouch : E.Touches p.view (Byte.word low high + p.y.toUInt16) v) :
    ∃ b, E.Pictures (s.turn bus cmos)
      { p with a := b, pc := next, flagz := zeroOf b.toUInt16, view := v } := by
  obtain ⟨t, ht, hturn⟩ := turn_of_run cmos hs hcode.opcode
  obtain ⟨habs, haddr⟩ := pictures_indexed t.regs.y hcode hpc ht
  rw [show opcodeDesc cmos 0xB9 = ⟨.absy, .lda, 4⟩ by cases cmos <;> rfl] at hturn
  rw [hnext] at habs
  rw [← ht.y, ← haddr] at htouch
  obtain ⟨b, hloaded⟩ := habs.exists_opLda htouch
  exact ⟨b, hturn _ hloaded⟩

/-- A branch: where it goes is decided by what is left in the flags. -/
theorem goes_relative (op : Operation) (cycles : UInt8) (taken : CpuState W → Bool)
    {branches : Bool} (hcode : E.Code p.view p.pc [o, b])
    (hpc : (p.pc + 1).toNat = p.pc.toNat + 1)
    (hdesc : opcodeDesc cmos o = ⟨.rel, op, cycles⟩)
    (hop : ∀ t, op.run bus t = t.branchIf (taken t))
    (htaken : ∀ t v, E.Pictures t { p with pc := v } → taken t = branches)
    (hnext : (if branches then p.pc + 2 + signExtend b else p.pc + 2) = next) :
    E.Goes cmos 1 p { p with pc := next } := by
  refine goes_of_run hcode.opcode fun t ht => ?_
  have hdistance : E.Shows p.view (p.pc + 1).toNat b := by
    rw [hpc]
    exact (hcode 1 b rfl).2
  obtain ⟨hrel, haddr⟩ := ht.addrRel hdistance
  have htwo : p.pc + 1 + 1 = p.pc + 2 := UInt16.add_assoc ..
  have hbranch := hrel.branchIf branches
  rw [haddr, htwo] at hbranch
  unfold OpcodeDesc.run
  rw [hdesc]
  show E.Pictures (op.run bus (addrRel bus t)) _
  rw [hop, htaken _ _ hrel, ← hnext]
  exact hbranch

theorem goes_bcc (hcode : E.Code p.view p.pc [0x90, b])
    (hpc : (p.pc + 1).toNat = p.pc.toNat + 1)
    (hnext : (if p.flagc == 0 then p.pc + 2 + signExtend b else p.pc + 2) = next) :
    E.Goes cmos 1 p { p with pc := next } :=
  goes_relative .bcc 2 (fun t => t.ctx.flagc == 0) hcode hpc (by cases cmos <;> rfl)
    (fun _ => rfl) (fun _ _ ht => congrArg (· == 0) ht.flagc) hnext

theorem goes_beq (hcode : E.Code p.view p.pc [0xF0, b])
    (hpc : (p.pc + 1).toNat = p.pc.toNat + 1)
    (hnext : (if p.flagz != 0 then p.pc + 2 + signExtend b else p.pc + 2) = next) :
    E.Goes cmos 1 p { p with pc := next } :=
  goes_relative .beq 2 (fun t => t.ctx.flagz != 0) hcode hpc (by cases cmos <;> rfl)
    (fun _ => rfl) (fun _ _ ht => congrArg (· != 0) ht.flagz) hnext

/-- The routine goes back. -/
theorem goes_rts (hcode : E.Code p.view p.pc [0x60])
    (hlow : E.Shows p.view (popSp p.sp).toNat low)
    (hhigh : E.Shows p.view (popSp (popSp p.sp)).toNat high) :
    E.Goes cmos 1 p { p with pc := Byte.word low high + 1, sp := popSp (popSp p.sp) } :=
  goes_implied .rts 6 hcode (by cases cmos <;> rfl) rfl fun _ ht => ht.opRts hlow hhigh

end Instructions

end LinApple.Cpu
