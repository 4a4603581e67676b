import LinApple.Cpu.Loop

/-!
# Related runs

Two machines may differ around the processor and in how a flag is written,
and still take the same steps. A relation between two hosts that every
access respects (`Related`) is respected by every operation: from states
that agree on the registers and on what the flags mean, an operation leads
to such states. An operation's part in the timing is separate from this; it
is a function of the registers and the flags.
-/

namespace LinApple.Cpu

variable {W W' : Type*}

/-! ## The relation of hosts -/

/-- **A relation between hosts that accesses respect** while the frame has
come to `x` cycles. Reads of the image are restricted to the places the
relation allows. -/
structure Related (bus : Bus W) (bus' : Bus W') (x : UInt32) where
  /-- The relation. -/
  rel : Host W → Host W' → Prop
  /-- The places of the image that may be read. -/
  ok : Nat → Prop
  /-- Every address is such a place. -/
  ok_of_lt : ∀ i < 65536, ok i
  /-- A read gives the same byte. -/
  read : ∀ {h h'} pc a, rel h h' →
    (h.readByte bus pc a x).1 = (h'.readByte bus' pc a x).1 ∧
      rel (h.readByte bus pc a x).2 (h'.readByte bus' pc a x).2
  /-- A write keeps the relation. -/
  write : ∀ {h h'} pc a v, rel h h' →
    rel (h.writeByte bus pc a v x) (h'.writeByte bus' pc a v x)
  /-- A byte put on the stack keeps the relation. -/
  poke : ∀ {h h'} a v, rel h h' → rel (h.poke bus a v) (h'.poke bus' a v)
  /-- A read of the image gives the same byte. -/
  fetch : ∀ {h h'} i, ok i → rel h h' →
    (h.fetch bus i).1 = (h'.fetch bus' i).1 ∧
      rel (h.fetch bus i).2 (h'.fetch bus' i).2
  /-- A read of two bytes of the image gives the same bytes. -/
  fetch16 : ∀ {h h'} i, ok i → ok (i + 1) → rel h h' →
    (h.fetch16 bus i).1 = (h'.fetch16 bus' i).1 ∧
      rel (h.fetch16 bus i).2 (h'.fetch16 bus' i).2

/-- **States that agree**: on the registers, on what the flags mean and on
the cycles of the frame. -/
structure Same {bus : Bus W} {bus' : Bus W'} {x : UInt32} (R : Related bus bus' x)
    (s : CpuState W) (t : CpuState W') : Prop where
  regs : s.regs = t.regs
  flagc : s.ctx.flagc = t.ctx.flagc
  flagn : s.ctx.flagn = t.ctx.flagn
  flagv : s.ctx.flagv = 0 ↔ t.ctx.flagv = 0
  flagz : s.ctx.flagz = 0 ↔ t.ctx.flagz = 0
  executed : s.ctx.executedCycles = x
  executed' : t.ctx.executedCycles = x
  host : R.rel s.host t.host

namespace Same

variable {bus : Bus W} {bus' : Bus W'} {x : UInt32} {R : Related bus bus' x}
variable {s : CpuState W} {t : CpuState W'}

/-! ## Registers and flags -/

theorem setA (h : Same R s t) (v : UInt8) : Same R (s.setA v) (t.setA v) :=
  { h with regs := by simp only [CpuState.setA, h.regs] }

theorem setX (h : Same R s t) (v : UInt8) : Same R (s.setX v) (t.setX v) :=
  { h with regs := by simp only [CpuState.setX, h.regs] }

theorem setY (h : Same R s t) (v : UInt8) : Same R (s.setY v) (t.setY v) :=
  { h with regs := by simp only [CpuState.setY, h.regs] }

theorem setSp (h : Same R s t) (v : UInt16) : Same R (s.setSp v) (t.setSp v) :=
  { h with regs := by simp only [CpuState.setSp, h.regs] }

theorem setPc (h : Same R s t) (v : UInt16) : Same R (s.setPc v) (t.setPc v) :=
  { h with regs := by simp only [CpuState.setPc, h.regs] }

theorem setPs (h : Same R s t) (v : UInt8) : Same R (s.setPs v) (t.setPs v) :=
  { h with regs := by simp only [CpuState.setPs, h.regs] }

theorem setFlagc (h : Same R s t) (v : UInt8) :
    Same R (s.setFlagc v) (t.setFlagc v) := { h with flagc := rfl }

theorem setFlagn (h : Same R s t) (v : UInt8) :
    Same R (s.setFlagn v) (t.setFlagn v) := { h with flagn := rfl }

theorem setFlagv (h : Same R s t) (v : UInt8) :
    Same R (s.setFlagv v) (t.setFlagv v) := { h with flagv := Iff.rfl }

theorem setFlagz (h : Same R s t) (v : UInt8) :
    Same R (s.setFlagz v) (t.setFlagz v) := { h with flagz := Iff.rfl }

/-- The address and the cycles of an instruction are left out. -/
theorem setAddr (h : Same R s t) (v w : UInt16) :
    Same R (s.setAddr v) (t.setAddr w) := { h with }

theorem setBase (h : Same R s t) (v w : UInt16) :
    Same R (s.setBase v) (t.setBase w) := { h with }

theorem setExtra (h : Same R s t) (v w : UInt16) :
    Same R (s.setExtra v) (t.setExtra w) := { h with }

theorem setNz (h : Same R s t) (v : UInt16) : Same R (s.setNz v) (t.setNz v) :=
  { h with flagn := rfl, flagz := Iff.rfl }

theorem setZ (h : Same R s t) (v : UInt16) : Same R (s.setZ v) (t.setZ v) :=
  { h with flagz := Iff.rfl }

theorem loadA (h : Same R s t) (v : UInt8) : Same R (loadA s v) (loadA t v) :=
  (h.setA v).setNz _

theorem loadX (h : Same R s t) (v : UInt8) : Same R (loadX s v) (loadX t v) :=
  (h.setX v).setNz _

theorem loadY (h : Same R s t) (v : UInt8) : Same R (loadY s v) (loadY t v) :=
  (h.setY v).setNz _

theorem compare (h : Same R s t) (r : UInt8) (val : UInt16) :
    Same R (compare s r val) (compare t r val) :=
  (h.setFlagc _).setNz _

theorem setArithmetic (h : Same R s t) (r : Arithmetic) :
    Same R (s.setArithmetic r) (t.setArithmetic r) :=
  { h with
    regs := by simp only [CpuState.setArithmetic, h.regs]
    flagc := rfl, flagn := rfl, flagv := Iff.rfl, flagz := Iff.rfl }

theorem packed (h : Same R s t) : s.packed = t.packed := by
  simp only [CpuState.packed, h.regs, h.flagc, h.flagn, ne_eq, h.flagv, h.flagz]

theorem packPs (h : Same R s t) : Same R s.packPs t.packPs := by
  unfold CpuState.packPs
  rw [h.packed]
  exact h.setPs _

theorem unpackPs (h : Same R s t) : Same R s.unpackPs t.unpackPs := by
  have e : s.regs.ps = t.regs.ps := congrArg CpuRegisters.ps h.regs
  exact { h with
    flagc := congrArg (· &&& afCarry) e
    flagn := congrArg (· &&& afSign) e
    flagv := by simp only [CpuState.unpackPs, e]
    flagz := by simp only [CpuState.unpackPs, e] }

theorem decimal (h : Same R s t) : s.decimal = t.decimal := by
  simp only [CpuState.decimal, h.regs]

/-- A charge leads from one relation to another. -/
theorem charge (h : Same R s t) {cycles : UInt32} {R' : Related bus bus' (x + cycles)}
    (hc : ∀ {h h'}, R.rel h h' →
      R'.rel { h with charges := h.charges ++ [cycles.toNat] }
        { h' with charges := h'.charges ++ [cycles.toNat] }) :
    Same R' (s.charge cycles) (t.charge cycles) :=
  { h with
    executed := congrArg (· + cycles) h.executed
    executed' := congrArg (· + cycles) h.executed'
    host := hc h.host }

/-- A branch goes to the same place from the same offset. -/
theorem branchIf (h : Same R s t) (ha : s.ctx.addr = t.ctx.addr) {b b' : Bool}
    (hb : b = b') : Same R (s.branchIf b) (t.branchIf b') := by
  subst hb
  cases b with
  | false => exact h
  | true =>
    exact { h with regs := by simp only [CpuState.branchIf, CpuState.branchTaken,
      if_true, h.regs, ha] }

/-! ## Accesses -/

/-- What depends on the registers and the carry alone. -/
theorem known (h : Same R s t) {f : CpuRegisters → UInt8 → CpuState W}
    {g : CpuRegisters → UInt8 → CpuState W'} (hfg : ∀ r c, Same R (f r c) (g r c)) :
    Same R (f s.regs s.ctx.flagc) (g t.regs t.ctx.flagc) := by
  rw [h.regs, h.flagc]
  exact hfg _ _

/-- **A read at the address**, and what is done with the byte, the registers
and the carry. -/
theorem read (h : Same R s t) (ha : s.ctx.addr = t.ctx.addr)
    {f : CpuRegisters → UInt8 → UInt8 → CpuState W → CpuState W}
    {g : CpuRegisters → UInt8 → UInt8 → CpuState W' → CpuState W'}
    (hfg : ∀ r c v {s t}, Same R s t → s.ctx.addr = t.ctx.addr →
      Same R (f r c v s) (g r c v t)) :
    Same R (f s.regs s.ctx.flagc (s.readByte bus s.ctx.addr).1
        (s.readByte bus s.ctx.addr).2)
      (g t.regs t.ctx.flagc (t.readByte bus' t.ctx.addr).1
        (t.readByte bus' t.ctx.addr).2) := by
  have hr := R.read t.regs.pc t.ctx.addr h.host
  have h' : Same R (s.readByte bus s.ctx.addr).2 (t.readByte bus' t.ctx.addr).2 := by
    refine { h with host := ?_ }
    show R.rel (s.host.readByte bus s.regs.pc s.ctx.addr s.ctx.executedCycles).2
      (t.host.readByte bus' t.regs.pc t.ctx.addr t.ctx.executedCycles).2
    rw [h.regs, ha, h.executed, h.executed']
    exact hr.2
  have hv : (s.readByte bus s.ctx.addr).1 = (t.readByte bus' t.ctx.addr).1 := by
    show (s.host.readByte bus s.regs.pc s.ctx.addr s.ctx.executedCycles).1 =
      (t.host.readByte bus' t.regs.pc t.ctx.addr t.ctx.executedCycles).1
    rw [h.regs, ha, h.executed, h.executed']
    exact hr.1
  rw [hv, h.regs, h.flagc]
  exact hfg _ _ _ h' ha

theorem write (h : Same R s t) {a a' : UInt16} (ha : a = a') (v : UInt8) :
    Same R (s.writeByte bus a v) (t.writeByte bus' a' v) := by
  subst ha
  refine { h with host := ?_ }
  show R.rel (s.host.writeByte bus s.regs.pc a v s.ctx.executedCycles)
    (t.host.writeByte bus' t.regs.pc a v t.ctx.executedCycles)
  rw [h.regs, h.executed, h.executed']
  exact R.write _ _ _ h.host

theorem push (h : Same R s t) (v : UInt8) :
    Same R (s.push bus v) (t.push bus' v) := by
  refine { h with regs := ?_, host := ?_ }
  · simp only [CpuState.push, h.regs]
  · show R.rel (s.host.poke bus s.regs.sp v) _
    rw [h.regs]
    exact R.poke _ _ h.host

/-- **A byte is popped**, and what is done with it. -/
theorem pop (h : Same R s t)
    {f : UInt8 → CpuState W → CpuState W} {g : UInt8 → CpuState W' → CpuState W'}
    (hfg : ∀ v {s t}, Same R s t → Same R (f v s) (g v t)) :
    Same R (f (s.pop bus).1 (s.pop bus).2) (g (t.pop bus').1 (t.pop bus').2) := by
  have hr := fun i hi => R.fetch i (R.ok_of_lt i hi) h.host
  have h' : Same R (s.pop bus).2 (t.pop bus').2 := by
    refine { h with regs := ?_, host := ?_ }
    · simp only [CpuState.pop, h.regs]
    · show R.rel (s.host.fetch bus _).2 (t.host.fetch bus' _).2
      rw [h.regs]
      exact (hr _ (UInt16.toNat_lt _)).2
  have hv : (s.pop bus).1 = (t.pop bus').1 := by
    show (s.host.fetch bus _).1 = (t.host.fetch bus' _).1
    rw [h.regs]
    exact (hr _ (UInt16.toNat_lt _)).1
  rw [hv]
  exact hfg _ h'

theorem pushPc (h : Same R s t) : Same R (pushPc bus s) (pushPc bus' t) := by
  unfold Cpu.pushPc
  rw [h.regs]
  exact (h.push _).push _

theorem popPc (h : Same R s t) : Same R (popPc bus s) (popPc bus' t) :=
  h.pop fun low _ _ h => h.pop fun high _ _ h =>
    h.setPc (low.toUInt16 ||| (high.toUInt16 <<< 8))

theorem popPs (h : Same R s t) : Same R (popPs bus s) (popPs bus' t) :=
  h.pop fun v _ _ h => (h.setPs (v ||| afReserved ||| afBreak)).unpackPs

theorem maskInterrupts (h : Same R s t) (cmos : Bool) :
    Same R (maskInterrupts s cmos) (maskInterrupts t cmos) := by
  unfold Cpu.maskInterrupts
  rw [h.regs]
  exact h.setPs _

theorem jumpVector (h : Same R s t) {vector : Nat} (hv : vector < 65535) :
    Same R (jumpVector bus s vector) (jumpVector bus' t vector) := by
  obtain ⟨hr, hh⟩ := R.fetch16 vector (R.ok_of_lt _ (by omega))
    (R.ok_of_lt _ (by omega)) h.host
  refine { h with regs := ?_, host := hh }
  show { s.regs with pc := (s.host.fetch16 bus vector).1 } = _
  rw [h.regs, hr]
  rfl

theorem storeHigh (h : Same R s t) (ha : s.ctx.addr = t.ctx.addr) (val : UInt16) :
    Same R (storeHigh bus s val) (storeHigh bus' t val) := by
  unfold Cpu.storeHigh
  rw [ha]
  exact (h.setAddr _ _).write rfl _

/-! ## Operations -/

theorem brk (h : Same R s t) (cmos : Bool) :
    Same R (opBrk bus s cmos) (opBrk bus' t cmos) := by
  have h' : Same R (Cpu.pushPc bus (s.setPc (s.regs.pc + 1))).packPs
      (Cpu.pushPc bus' (t.setPc (t.regs.pc + 1))).packPs :=
    (h.known fun r _ => (h.setPc (r.pc + 1)).pushPc).packPs
  exact ((h'.known fun r _ => h'.push r.ps).maskInterrupts cmos).jumpVector (by decide)

/-- **Every operation keeps states that agree in agreement.** -/
theorem run (h : Same R s t) (op : Operation)
    (ha : op.usesAddr → s.ctx.addr = t.ctx.addr)
    (hb : op.usesBase → s.ctx.base = t.ctx.base) :
    Same R (op.run bus s) (op.run bus' t) := by
  -- one case per handler: `known` for one that needs no operand, `read` for one that reads it,
  -- and then the register and flag lemmas in the order the handler writes them
  cases op with
  | nop => exact h
  | lda => exact h.read (ha rfl) fun _ _ v _ _ h _ => h.loadA v
  | ldx => exact h.read (ha rfl) fun _ _ v _ _ h _ => h.loadX v
  | ldy => exact h.read (ha rfl) fun _ _ v _ _ h _ => h.loadY v
  | sta => exact h.known fun r _ => h.write (ha rfl) r.a
  | stx => exact h.known fun r _ => h.write (ha rfl) r.x
  | sty => exact h.known fun r _ => h.write (ha rfl) r.y
  | stz => exact h.write (ha rfl) 0
  | tax => exact h.known fun r _ => h.loadX r.a
  | txa => exact h.known fun r _ => h.loadA r.x
  | tay => exact h.known fun r _ => h.loadY r.a
  | tya => exact h.known fun r _ => h.loadA r.y
  | tsx => exact h.known fun r _ => h.loadX (r.sp &&& 0xFF).toUInt8
  | txs => exact h.known fun r _ => h.setSp (0x100 ||| r.x.toUInt16)
  | and => exact h.read (ha rfl) fun r _ v _ _ h _ => h.loadA (r.a &&& v)
  | ora => exact h.read (ha rfl) fun r _ v _ _ h _ => h.loadA (r.a ||| v)
  | eor => exact h.read (ha rfl) fun r _ v _ _ h _ => h.loadA (r.a ^^^ v)
  | bit =>
    exact h.read (ha rfl) fun r _ v _ _ h _ =>
      ((h.setFlagz (bit (r.a &&& v == 0))).setFlagn (v &&& 0x80)).setFlagv (v &&& 0x40)
  | biti =>
    exact h.read (ha rfl) fun r _ v _ _ h _ => h.setFlagz (bit (r.a &&& v == 0))
  | cmp => exact h.read (ha rfl) fun r _ v _ _ h _ => h.compare r.a v.toUInt16
  | cpx => exact h.read (ha rfl) fun r _ v _ _ h _ => h.compare r.x v.toUInt16
  | cpy => exact h.read (ha rfl) fun r _ v _ _ h _ => h.compare r.y v.toUInt16
  | asla =>
    exact h.known fun r _ => ((h.setFlagc (bit (r.a.toUInt16 <<< 1 > 0xFF))).setNz
      (r.a.toUInt16 <<< 1)).setA (r.a.toUInt16 <<< 1).toUInt8
  | asl =>
    exact h.read (ha rfl) fun _ _ v _ _ h ha =>
      ((h.setFlagc (bit (v.toUInt16 <<< 1 > 0xFF))).setNz (v.toUInt16 <<< 1)).write ha
        (v.toUInt16 <<< 1).toUInt8
  | lsra =>
    exact h.known fun r _ => (((h.setFlagc (r.a &&& 1)).setFlagn 0).setA
      (r.a >>> 1)).setZ (r.a >>> 1).toUInt16
  | lsr =>
    exact h.read (ha rfl) fun _ _ v _ _ h ha =>
      (((h.setFlagc (v &&& 1)).setFlagn 0).setZ (v.toUInt16 >>> 1)).write ha
        (v.toUInt16 >>> 1).toUInt8
  | rola =>
    exact h.known fun r c =>
      (h.setFlagc (bit ((r.a.toUInt16 <<< 1) ||| c.toUInt16 > 0xFF))).loadA
        (((r.a.toUInt16 <<< 1) ||| c.toUInt16) &&& 0xFF).toUInt8
  | rol =>
    exact h.read (ha rfl) fun _ c v _ _ h ha =>
      ((h.setFlagc (bit ((v.toUInt16 <<< 1) ||| c.toUInt16 > 0xFF))).setNz
        ((v.toUInt16 <<< 1) ||| c.toUInt16)).write ha
        ((v.toUInt16 <<< 1) ||| c.toUInt16).toUInt8
  | rora =>
    exact h.known fun r c => (h.setFlagc (r.a &&& 1)).loadA
      (rotateRight r.a c &&& 0xFF).toUInt8
  | ror =>
    exact h.read (ha rfl) fun _ c v _ _ h ha =>
      ((h.setFlagc (v &&& 1)).setNz (rotateRight v c)).write ha
        (rotateRight v c).toUInt8
  | ina => exact h.known fun r _ => h.loadA (r.a + 1)
  | dea => exact h.known fun r _ => h.loadA (r.a - 1)
  | inc =>
    exact h.read (ha rfl) fun _ _ v _ _ h ha =>
      (h.setNz (v.toUInt16 + 1)).write ha (v.toUInt16 + 1).toUInt8
  | dec =>
    exact h.read (ha rfl) fun _ _ v _ _ h ha =>
      (h.setNz (v.toUInt16 - 1)).write ha (v.toUInt16 - 1).toUInt8
  | inx => exact h.known fun r _ => h.loadX (r.x + 1)
  | dex => exact h.known fun r _ => h.loadX (r.x - 1)
  | iny => exact h.known fun r _ => h.loadY (r.y + 1)
  | dey => exact h.known fun r _ => h.loadY (r.y - 1)
  -- the jumps take the effective address itself, not what lies there
  | jmp =>
    show Same R (s.setPc s.ctx.addr) (t.setPc t.ctx.addr)
    rw [ha rfl]
    exact h.setPc _
  | jsr =>
    have h' : Same R (Cpu.pushPc bus (s.setPc (s.regs.pc - 1)))
        (Cpu.pushPc bus' (t.setPc (t.regs.pc - 1))) :=
      h.known fun r _ => (h.setPc (r.pc - 1)).pushPc
    show Same R ((Cpu.pushPc bus _).setPc s.ctx.addr) ((Cpu.pushPc bus' _).setPc t.ctx.addr)
    rw [ha rfl]
    exact h'.setPc _
  | rts => exact h.popPc.known fun r _ => h.popPc.setPc (r.pc + 1)
  | rti => exact h.popPs.popPc
  | brkNmos => exact h.brk false
  | brkCmos => exact h.brk true
  | hlt =>
    exact { h with regs := by simp only [Operation.run, opHlt, h.regs] }
  | pha => exact h.known fun r _ => h.push r.a
  | php => exact h.packPs.known fun r _ => h.packPs.push r.ps
  | phx => exact h.known fun r _ => h.push r.x
  | phy => exact h.known fun r _ => h.push r.y
  | pla => exact h.pop fun v _ _ h => h.loadA v
  | plp => exact h.popPs
  | plx => exact h.pop fun v _ _ h => h.loadX v
  | ply => exact h.pop fun v _ _ h => h.loadY v
  | trb =>
    exact h.read (ha rfl) fun r _ v _ _ h ha =>
      (h.setFlagz (bit (r.a &&& v == 0))).write ha (v &&& ~~~r.a)
  | tsb =>
    exact h.read (ha rfl) fun r _ v _ _ h ha =>
      (h.setFlagz (bit (r.a &&& v == 0))).write ha (v ||| r.a)
  | adcNmos =>
    exact h.read (ha rfl) fun r c v _ _ h _ => h.setArithmetic
      (adcNmos (r.ps &&& afDecimal != 0) r.a.toUInt16 v.toUInt16 c.toUInt16)
  | adcCmos =>
    exact (h.read (ha rfl) fun r c v _ _ h _ => h.setArithmetic
      (adcCmos (r.ps &&& afDecimal != 0) r.a.toUInt16 v.toUInt16 c.toUInt16)).setExtra _ _
  | sbcNmos =>
    exact h.read (ha rfl) fun r c v _ _ h _ => h.setArithmetic
      (sbcNmos (r.ps &&& afDecimal != 0) r.a.toUInt16 v.toUInt16 c.toUInt16)
  | sbcCmos =>
    exact (h.read (ha rfl) fun r c v _ _ h _ => h.setArithmetic
      (sbcCmos (r.ps &&& afDecimal != 0) r.a.toUInt16 v.toUInt16 c.toUInt16)).setExtra _ _
  | bpl => exact h.branchIf (ha rfl) (by rw [h.flagn])
  | bmi => exact h.branchIf (ha rfl) (by rw [h.flagn])
  | bvc => exact h.branchIf (ha rfl) (by simp only [beq_eq_decide, h.flagv])
  | bvs => exact h.branchIf (ha rfl) (by simp only [bne, beq_eq_decide, h.flagv])
  | bcc => exact h.branchIf (ha rfl) (by rw [h.flagc])
  | bcs => exact h.branchIf (ha rfl) (by rw [h.flagc])
  | bne => exact h.branchIf (ha rfl) (by simp only [beq_eq_decide, h.flagz])
  | beq => exact h.branchIf (ha rfl) (by simp only [bne, beq_eq_decide, h.flagz])
  | bra => exact h.branchIf (ha rfl) (rfl : true = true)
  | alr =>
    exact h.read (ha rfl) fun r _ v _ _ h _ =>
      (((h.setFlagc (r.a &&& v &&& 1)).setFlagn 0).setA ((r.a &&& v) >>> 1)).setZ
        ((r.a &&& v) >>> 1).toUInt16
  | anc =>
    exact h.read (ha rfl) fun r _ v _ _ h _ => (h.loadA (r.a &&& v)).setFlagc
      (bit (((r.a &&& v).toUInt16 &&& 0x80).toUInt8 != 0))
  | arr =>
    exact h.read (ha rfl) fun r c v _ _ h _ => h.setArithmetic
      (Cpu.arr (r.ps &&& afDecimal != 0) (r.a &&& v).toUInt16 c)
  | aso =>
    exact h.read (ha rfl) fun r _ v _ _ h ha =>
      ((h.setFlagc (bit (v.toUInt16 <<< 1 > 0xFF))).write ha
        (v.toUInt16 <<< 1).toUInt8).loadA (r.a ||| (v.toUInt16 <<< 1).toUInt8)
  -- what these store depends on the high byte of the base, so `hb` is needed as well
  | axa =>
    show Same R (Cpu.storeHigh bus s _) (Cpu.storeHigh bus' t _)
    rw [h.regs, hb rfl]
    exact h.storeHigh (ha rfl) _
  | axs => exact h.known fun r _ => h.write (ha rfl) (r.a &&& r.x)
  | dcm =>
    exact h.read (ha rfl) fun r _ v _ _ h ha =>
      (h.write ha (v.toUInt16 - 1).toUInt8).compare r.a (v.toUInt16 - 1)
  | ins =>
    exact h.read (ha rfl) fun r c v _ _ h ha =>
      (h.write ha (v.toUInt16 + 1).toUInt8).setArithmetic
        (sbcNmos (r.ps &&& afDecimal != 0) r.a.toUInt16 (v.toUInt16 + 1) c.toUInt16)
  | las =>
    exact h.read (ha rfl) fun r _ v _ _ h _ =>
      (((h.setA (v &&& r.sp.toUInt8)).setX (v &&& r.sp.toUInt8)).setSp
        ((v &&& r.sp.toUInt8).toUInt16 ||| 0x100)).setNz (v &&& r.sp.toUInt8).toUInt16
  | lax => exact h.read (ha rfl) fun _ _ v _ _ h _ => (h.setX v).loadA v
  | lse =>
    exact h.read (ha rfl) fun r _ v _ _ h ha =>
      ((h.setFlagc (v &&& 1)).write ha (v >>> 1)).loadA (r.a ^^^ (v >>> 1))
  | oal =>
    exact h.read (ha rfl) fun r _ v _ _ h _ =>
      (h.setX ((r.a ||| 0xEE) &&& v)).loadA ((r.a ||| 0xEE) &&& v)
  | rla =>
    exact h.read (ha rfl) fun r c v _ _ h ha =>
      ((h.setFlagc (bit ((v.toUInt16 <<< 1) ||| c.toUInt16 > 0xFF))).write ha
        ((v.toUInt16 <<< 1) ||| c.toUInt16).toUInt8).loadA
        (r.a &&& ((v.toUInt16 <<< 1) ||| c.toUInt16).toUInt8)
  | rra =>
    exact h.read (ha rfl) fun r c v _ _ h ha =>
      ((h.setFlagc (v &&& 1)).write ha (rotateRight v c).toUInt8).setArithmetic
        (adcNmos (r.ps &&& afDecimal != 0) r.a.toUInt16 (rotateRight v c)
          (v &&& 1).toUInt16)
  | sax =>
    exact h.read (ha rfl) fun r _ v _ _ h _ =>
      (h.setFlagc (bit (r.a &&& r.x ≥ v))).loadX ((r.a &&& r.x) - v)
  | say =>
    show Same R (Cpu.storeHigh bus s _) (Cpu.storeHigh bus' t _)
    rw [h.regs, hb rfl]
    exact h.storeHigh (ha rfl) _
  | tas =>
    show Same R (Cpu.storeHigh bus (s.setSp _) _) (Cpu.storeHigh bus' (t.setSp _) _)
    rw [h.regs, hb rfl]
    exact (h.setSp (0x100 ||| t.regs.a.toUInt16 &&& t.regs.x.toUInt16)).storeHigh
      (ha rfl) _
  | xaa =>
    exact (h.known fun r _ => h.setA r.x).read (ha rfl) fun r _ v _ _ h _ =>
      h.loadA (r.a &&& v)
  | xas =>
    show Same R (Cpu.storeHigh bus s _) (Cpu.storeHigh bus' t _)
    rw [h.regs, hb rfl]
    exact h.storeHigh (ha rfl) _
  | clc => exact h.setFlagc 0
  | sec => exact h.setFlagc 1
  | clv => exact h.setFlagv 0
  | cli => exact h.known fun r _ => h.setPs (r.ps &&& ~~~afInterrupt)
  | sei => exact h.known fun r _ => h.setPs (r.ps ||| afInterrupt)
  | cld => exact h.known fun r _ => h.setPs (r.ps &&& ~~~afDecimal)
  | sed => exact h.known fun r _ => h.setPs (r.ps ||| afDecimal)

/-! ## Addressing modes -/

theorem fetchPc (h : Same R s t) (hok : ∀ i, R.ok i) :
    (s.fetchPc bus).1 = (t.fetchPc bus').1 ∧
      Same R (s.fetchPc bus).2 (t.fetchPc bus').2 := by
  have hr := R.fetch s.regs.pc.toNat (hok _) h.host
  refine ⟨?_, { h with regs := ?_, host := ?_ }⟩
  · show (s.host.fetch bus s.regs.pc.toNat).1 = (t.host.fetch bus' t.regs.pc.toNat).1
    rw [hr.1, h.regs]
  · simp only [CpuState.fetchPc, h.regs]
  · show R.rel (s.host.fetch bus s.regs.pc.toNat).2 (t.host.fetch bus' t.regs.pc.toNat).2
    rw [← h.regs]
    exact hr.2

theorem fetchPc16 (h : Same R s t) (hok : ∀ i, R.ok i) :
    (s.fetchPc16 bus).1 = (t.fetchPc16 bus').1 ∧
      Same R (s.fetchPc16 bus).2 (t.fetchPc16 bus').2 := by
  have hr := R.fetch16 s.regs.pc.toNat (hok _) (hok _) h.host
  refine ⟨?_, { h with regs := ?_, host := ?_ }⟩
  · show (s.host.fetch16 bus s.regs.pc.toNat).1 = (t.host.fetch16 bus' t.regs.pc.toNat).1
    rw [hr.1, h.regs]
  · simp only [CpuState.fetchPc16, h.regs]
  · show R.rel (s.host.fetch16 bus s.regs.pc.toNat).2
      (t.host.fetch16 bus' t.regs.pc.toNat).2
    rw [← h.regs]
    exact hr.2

theorem fetch (h : Same R s t) (hok : ∀ i, R.ok i) {i j : Nat} (hij : i = j) :
    (s.fetch bus i).1 = (t.fetch bus' j).1 ∧
      Same R (s.fetch bus i).2 (t.fetch bus' j).2 := by
  subst hij
  have hr := R.fetch i (hok _) h.host
  exact ⟨hr.1, { h with host := hr.2 }⟩

theorem fetch16 (h : Same R s t) (hok : ∀ i, R.ok i) {i j : Nat} (hij : i = j) :
    (s.fetch16 bus i).1 = (t.fetch16 bus' j).1 ∧
      Same R (s.fetch16 bus i).2 (t.fetch16 bus' j).2 := by
  subst hij
  have hr := R.fetch16 i (hok _) (hok _) h.host
  exact ⟨hr.1, { h with host := hr.2 }⟩

/-- The two bytes of a pointer that wraps around. -/
theorem fetchWrapped (h : Same R s t) (hok : ∀ i, R.ok i) (i j : Nat) :
    (s.fetch bus i).1.toUInt16 + (((s.fetch bus i).2.fetch bus j).1.toUInt16 <<< 8)
        = (t.fetch bus' i).1.toUInt16
          + (((t.fetch bus' i).2.fetch bus' j).1.toUInt16 <<< 8) ∧
      Same R ((s.fetch bus i).2.fetch bus j).2 ((t.fetch bus' i).2.fetch bus' j).2 := by
  obtain ⟨hl, h'⟩ := h.fetch hok (rfl : i = i)
  obtain ⟨hh, h''⟩ := h'.fetch hok (rfl : j = j)
  exact ⟨by rw [hl, hh], h''⟩

theorem readZeroPagePointer (h : Same R s t) (hok : ∀ i, R.ok i) {b b' : UInt16}
    (hb : b = b') :
    (readZeroPagePointer bus s b).1 = (readZeroPagePointer bus' t b').1 ∧
      Same R (readZeroPagePointer bus s b).2 (readZeroPagePointer bus' t b').2 := by
  subst hb
  unfold Cpu.readZeroPagePointer
  split
  · exact h.fetchWrapped hok 0xFF 0
  · exact h.fetch16 hok rfl

theorem readPointerNmos (h : Same R s t) (hok : ∀ i, R.ok i) {b b' : UInt16}
    (hb : b = b') :
    (readPointerNmos bus s b).1 = (readPointerNmos bus' t b').1 ∧
      Same R (readPointerNmos bus s b).2 (readPointerNmos bus' t b').2 := by
  subst hb
  unfold Cpu.readPointerNmos
  split
  · exact h.fetchWrapped hok b.toNat (b &&& 0xFF00).toNat
  · exact h.fetch16 hok rfl

theorem readPointerIndy (h : Same R s t) (hok : ∀ i, R.ok i) :
    (readPointerIndy bus s).1 = (readPointerIndy bus' t).1 ∧
      Same R (readPointerIndy bus s).2 (readPointerIndy bus' t).2 := by
  obtain ⟨hb, h'⟩ := h.fetch hok (congrArg (·.pc.toNat) h.regs)
  obtain ⟨hb', h''⟩ := h'.fetch hok (congrArg (·.pc.toNat) h'.regs)
  unfold Cpu.readPointerIndy
  simp only
  rw [hb]
  split
  · exact h'.fetchWrapped hok 0xFF 0
  · exact h''.fetch16 hok (congrArg UInt8.toNat hb')

/-- What an addressing mode leaves alike. -/
structure Found (mode : AddressingMode) (s : CpuState W) (t : CpuState W') :
    Prop where
  addr : mode ≠ .none → s.ctx.addr = t.ctx.addr
  base : mode.findsBase → s.ctx.base = t.ctx.base
  extra : s.ctx.extraCycles = t.ctx.extraCycles

/-- An address found behind a pointer. -/
theorem pointer {p : UInt16 × CpuState W} {q : UInt16 × CpuState W'}
    (h : Same R p.2 q.2) (hv : p.1 = q.1)
    (he : p.2.ctx.extraCycles = q.2.ctx.extraCycles) {b b' : UInt16} (hb : b = b')
    (mode : AddressingMode) :
    Same R ((p.2.setBase b).setAddr p.1) ((q.2.setBase b').setAddr q.1) ∧
      Found mode ((p.2.setBase b).setAddr p.1) ((q.2.setBase b').setAddr q.1) :=
  ⟨(h.setBase _ _).setAddr _ _, ⟨fun _ => hv, fun _ => hb, he⟩⟩

/-- An address indexed from a base. -/
theorem indexed {p : UInt16 × CpuState W} {q : UInt16 × CpuState W'}
    (h : Same R p.2 q.2) (hv : p.1 = q.1)
    (he : p.2.ctx.extraCycles = q.2.ctx.extraCycles) {i j : UInt8} (hij : i = j)
    (mode : AddressingMode) :
    Same R (((p.2.setBase p.1).setAddr (p.1 + i.toUInt16)).checkPageChange p.1
        (p.1 + i.toUInt16))
      (((q.2.setBase q.1).setAddr (q.1 + j.toUInt16)).checkPageChange q.1
        (q.1 + j.toUInt16)) ∧
    Found mode (((p.2.setBase p.1).setAddr (p.1 + i.toUInt16)).checkPageChange p.1
        (p.1 + i.toUInt16))
      (((q.2.setBase q.1).setAddr (q.1 + j.toUInt16)).checkPageChange q.1
        (q.1 + j.toUInt16)) := by
  subst hij
  refine ⟨{ h with }, ⟨fun _ => congrArg (· + i.toUInt16) hv, fun _ => hv, ?_⟩⟩
  show (if (p.1 ^^^ (p.1 + _)) &&& 0xFF00 ≠ 0 then 1 else p.2.ctx.extraCycles) = _
  rw [hv, he]
  rfl

theorem zeroPage (h : Same R s t) (hok : ∀ i, R.ok i)
    (he : s.ctx.extraCycles = t.ctx.extraCycles) (mode : AddressingMode)
    (f : CpuRegisters → UInt8 → UInt16) (hf : mode.findsBase = false) :
    Same R ((s.fetchPc bus).2.setAddr (f s.regs (s.fetchPc bus).1))
        ((t.fetchPc bus').2.setAddr (f t.regs (t.fetchPc bus').1)) ∧
      Found mode ((s.fetchPc bus).2.setAddr (f s.regs (s.fetchPc bus).1))
        ((t.fetchPc bus').2.setAddr (f t.regs (t.fetchPc bus').1)) := by
  obtain ⟨hv, h'⟩ := h.fetchPc hok
  refine ⟨h'.setAddr _ _, ⟨fun _ => ?_, ?_, he⟩⟩
  · show f s.regs (s.fetchPc bus).1 = f t.regs (t.fetchPc bus').1
    rw [hv, h.regs]
  · rw [hf]
    exact nofun

/-- **Every addressing mode keeps states that agree in agreement**, and
finds the same address. -/
theorem runMode (h : Same R s t) (hok : ∀ i, R.ok i)
    (he : s.ctx.extraCycles = t.ctx.extraCycles) (mode : AddressingMode) :
    Same R (mode.run bus s) (mode.run bus' t) ∧
      Found mode (mode.run bus s) (mode.run bus' t) := by
  -- one case per addressing mode: the operand's bytes are fetched alike, so the address is the
  -- same, and `Found` keeps it and the base for the handlers that use them
  cases mode with
  | none => exact ⟨h, ⟨nofun, nofun, he⟩⟩
  | imm =>
    refine ⟨{ h with regs := ?_ },
      ⟨fun _ => congrArg CpuRegisters.pc h.regs, nofun, he⟩⟩
    simp only [AddressingMode.run, addrImm, h.regs]
  | zpg => exact h.zeroPage hok he .zpg (fun _ b => b.toUInt16) rfl
  | zpgx =>
    exact h.zeroPage hok he .zpgx
      (fun r b => (b.toUInt16 + r.x.toUInt16) &&& 0xFF) rfl
  | zpgy =>
    exact h.zeroPage hok he .zpgy
      (fun r b => (b.toUInt16 + r.y.toUInt16) &&& 0xFF) rfl
  | rel => exact h.zeroPage hok he .rel (fun _ b => signExtend b) rfl
  | abs =>
    obtain ⟨hv, h'⟩ := h.fetchPc16 hok
    exact ⟨h'.setAddr _ _, ⟨fun _ => hv, nofun, he⟩⟩
  | absx =>
    have ⟨hv, h'⟩ := h.fetchPc16 hok
    exact indexed h' hv he (congrArg CpuRegisters.x h.regs) .absx
  | absy =>
    have ⟨hv, h'⟩ := h.fetchPc16 hok
    exact indexed h' hv he (congrArg CpuRegisters.y h.regs) .absy
  | iabsNmos =>
    have ⟨hb, h'⟩ := h.fetchPc16 hok
    have ⟨hv, h''⟩ := h'.readPointerNmos hok hb
    refine pointer h'' hv ?_ hb .iabsNmos
    rw [readPointerNmos_ctx, readPointerNmos_ctx]
    exact he
  -- the 65C02 pays a cycle here if the pointer's low byte is `$FF`, which both sides see alike
  | iabsCmos =>
    have ⟨hb, h'⟩ := h.fetchPc16 hok
    have ⟨hv, h''⟩ := h'.fetch16 hok (congrArg UInt16.toNat hb)
    refine ⟨{ h'' with }, ⟨fun _ => hv, fun _ => hb, ?_⟩⟩
    show (if (s.fetchPc16 bus).1 &&& 0xFF = 0xFF then 1 else s.ctx.extraCycles) = _
    rw [hb, he]
    rfl
  | iabsx =>
    have ⟨hb, h'⟩ := h.fetchPc16 hok
    have ⟨hv, h''⟩ := h'.fetch16 hok
      (congrArg₂ (· + ·) (congrArg UInt16.toNat hb) (congrArg (·.x.toNat) h'.regs))
    exact ⟨h''.setAddr _ _, ⟨fun _ => hv, nofun, he⟩⟩
  | indx =>
    have ⟨hb, h'⟩ := h.fetchPc hok
    have hb' : ((s.fetchPc bus).1.toUInt16 + (s.fetchPc bus).2.regs.x.toUInt16) &&& 0xFF
        = ((t.fetchPc bus').1.toUInt16 + (t.fetchPc bus').2.regs.x.toUInt16) &&& 0xFF := by
      rw [hb, h'.regs]
    have ⟨hv, h''⟩ := h'.readZeroPagePointer hok hb'
    refine pointer h'' hv ?_ hb' .indx
    rw [readZeroPagePointer_ctx, readZeroPagePointer_ctx]
    exact he
  | indy =>
    obtain ⟨hv, h'⟩ := h.readPointerIndy hok
    have he' : (Cpu.readPointerIndy bus s).2.ctx.extraCycles
        = (Cpu.readPointerIndy bus' t).2.ctx.extraCycles := by
      rw [readPointerIndy_ctx, readPointerIndy_ctx]
      exact he
    have h'' : Same R
        ((Cpu.readPointerIndy bus s).2.setPc ((Cpu.readPointerIndy bus s).2.regs.pc + 1))
        ((Cpu.readPointerIndy bus' t).2.setPc
          ((Cpu.readPointerIndy bus' t).2.regs.pc + 1)) :=
      h'.known fun r _ => h'.setPc (r.pc + 1)
    exact indexed (p := ((Cpu.readPointerIndy bus s).1, _))
      (q := ((Cpu.readPointerIndy bus' t).1, _)) h'' hv he'
      (congrArg CpuRegisters.y h'.regs) .indy
  | izpg =>
    have ⟨hb, h'⟩ := h.fetchPc hok
    have ⟨hv, h''⟩ := h'.readZeroPagePointer hok (congrArg UInt8.toUInt16 hb)
    refine pointer h'' hv ?_ (congrArg UInt8.toUInt16 hb) .izpg
    rw [readZeroPagePointer_ctx, readZeroPagePointer_ctx]
    exact he

/-! ## Instructions and interrupts -/

/-- The handler of an opcode whose operation finds what it uses. -/
theorem runDesc (h : Same R s t) (hok : ∀ i, R.ok i)
    (he : s.ctx.extraCycles = t.ctx.extraCycles) {d : OpcodeDesc} (hd : d.Provided) :
    Same R (d.run bus s) (d.run bus' t) := by
  obtain ⟨h', hf⟩ := h.runMode hok he d.mode
  exact h'.run d.op (fun hu => hf.addr (hd.addr hu)) (fun hu => hf.base (hd.base hu))

theorem fetchOpcode (h : Same R s t) :
    (s.fetchOpcode bus).1 = (t.fetchOpcode bus').1 ∧
      Same R (s.fetchOpcode bus).2 (t.fetchOpcode bus').2 := by
  have hr := R.read s.regs.pc s.regs.pc h.host
  have e : (s.host.readByte bus s.regs.pc s.regs.pc s.ctx.executedCycles).1
      = (t.host.readByte bus' t.regs.pc t.regs.pc t.ctx.executedCycles).1 := by
    rw [h.executed, h.executed', ← h.regs]
    exact hr.1
  refine ⟨e, { h with regs := ?_, host := ?_ }⟩
  · simp only [CpuState.fetchOpcode, h.regs]
  · show R.rel (s.host.readByte bus s.regs.pc s.regs.pc s.ctx.executedCycles).2
      (t.host.readByte bus' t.regs.pc t.regs.pc t.ctx.executedCycles).2
    rw [h.executed, h.executed', ← h.regs]
    exact hr.2

/-- The entry of an interrupt, up to its charge. -/
theorem enterInterrupt (h : Same R s t) (cmos : Bool) {vector : Nat}
    (hv : vector < 65535) :
    Same R (s.enterInterrupt bus cmos vector) (t.enterInterrupt bus' cmos vector) := by
  have h' := h.pushPc.packPs
  exact ((h'.known fun r _ => h'.push (r.ps &&& ~~~afBreak)).maskInterrupts
    cmos).jumpVector hv

end Same

end LinApple.Cpu
