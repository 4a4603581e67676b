import LinApple.Cpu.Flags
import LinApple.Cpu.Timing
import LinApple.Lib.Bytes

/-!
# Entry and return

What an interrupt or a `JSR` puts on the stack is what `RTI` or `RTS` takes off, wherever in its
page the stack pointer is: both walk round the page. The flags go through the packed register, and
mean the same when they come back. In between anything may be executed that leaves the stack
pointer, the registers and the bytes pushed as they were.

`Enters` names the three ways in, with the instruction that leads back, how many bytes were pushed
and where the program goes on. `AboutToReturn` says what the state must be like when the way back
is taken, and it compares it with the state after the entry, and not with the one before: the
routine may have run for as long as it likes and have changed all of memory but these bytes. They
are looked at after the opcode of the return has been fetched, since a fetch from the I/O region
may change the world. A routine that was called also has to leave the flags alone, for `RTS` does
not bring them back, and an interrupt's need not.

The flags are kept unpacked, and not in one form. An overflow that is set may be any number but
zero, and comes back from the packed register as another one. So flags are compared by what the
packed register would be (`SameFlags`), and the state has to be one in which the working flags fit
together (`Tidy`), which every instruction leaves behind.

Of the memory only this is asked: a byte that is put on the stack page is there, and the other
bytes of the page are what they were (`Bus.Stacks`).
-/

namespace LinApple.Cpu

variable {W : Type*} {bus : Bus W} {cmos : Bool}

/-! ## The stack pointer -/

/-- An address in the stack's page. The stack pointer is kept as an address, so this is also what
is asked of it. -/
def OnStack (sp : UInt16) : Prop := stackBegin ≤ sp ∧ sp ≤ stackEnd

instance (sp : UInt16) : Decidable (OnStack sp) := inferInstanceAs (Decidable (_ ∧ _))

/-- The stack pointer after a `push`. -/
def pushSp (sp : UInt16) : UInt16 := if sp - 1 < stackBegin then stackEnd else sp - 1

/-- The stack pointer after a `pop`. -/
def popSp (sp : UInt16) : UInt16 := if sp ≥ stackEnd then stackBegin else sp + 1

theorem onStack_iff {sp : UInt16} : OnStack sp ↔ 256 ≤ sp.toNat ∧ sp.toNat ≤ 511 := by
  unfold OnStack
  rw [UInt16.le_iff_toNat_le, UInt16.le_iff_toNat_le]
  rfl

theorem toNat_pushSp {sp : UInt16} (h : OnStack sp) :
    (pushSp sp).toNat = if sp.toNat = 256 then 511 else sp.toNat - 1 := by
  obtain ⟨hbegin, hend⟩ := onStack_iff.1 h
  have hsub : (sp - 1).toNat = sp.toNat - 1 := by
    rw [UInt16.toNat_sub, show UInt16.toNat 1 = 1 from rfl]
    omega
  have hlt : sp - 1 < stackBegin ↔ sp.toNat = 256 := by
    rw [UInt16.lt_iff_toNat_lt, hsub, show stackBegin.toNat = 256 from rfl]
    omega
  unfold pushSp
  simp only [hlt, apply_ite UInt16.toNat, hsub]
  rfl

theorem toNat_popSp {sp : UInt16} (h : OnStack sp) :
    (popSp sp).toNat = if sp.toNat = 511 then 256 else sp.toNat + 1 := by
  obtain ⟨hbegin, hend⟩ := onStack_iff.1 h
  have hadd : (sp + 1).toNat = sp.toNat + 1 := by
    rw [UInt16.toNat_add, show UInt16.toNat 1 = 1 from rfl]
    omega
  have hge : sp ≥ stackEnd ↔ sp.toNat = 511 := by
    rw [ge_iff_le, UInt16.le_iff_toNat_le, show stackEnd.toNat = 511 from rfl]
    omega
  unfold popSp
  simp only [hge, apply_ite UInt16.toNat, hadd]
  rfl

theorem onStack_pushSp {sp : UInt16} (h : OnStack sp) : OnStack (pushSp sp) := by
  have hsp := onStack_iff.1 h
  rw [onStack_iff, toNat_pushSp h]
  split <;> omega

/-- **A `pop` goes back to where the `push` was.** -/
theorem popSp_pushSp {sp : UInt16} (h : OnStack sp) : popSp (pushSp sp) = sp := by
  have hsp := onStack_iff.1 h
  rw [← UInt16.toNat_inj, toNat_popSp (onStack_pushSp h), toNat_pushSp h]
  split_ifs <;> omega

/-- A number of `pop`s, as far as a page goes. -/
theorem toNat_iterate_popSp {sp : UInt16} (h : OnStack sp) (n : ℕ) :
    (popSp^[n] sp).toNat = 256 + (sp.toNat - 256 + n) % 256 := by
  have hsp := onStack_iff.1 h
  induction n with
  | zero =>
    rw [Function.iterate_zero_apply]
    omega
  | succ n ih =>
    have hon : OnStack (popSp^[n] sp) := by
      rw [onStack_iff, ih]
      omega
    rw [Function.iterate_succ_apply', toNat_popSp hon, ih]
    split <;> omega

theorem iterate_popSp_ne {sp : UInt16} (h : OnStack sp) {n : ℕ} (hn : 0 < n) (hlt : n < 256) :
    popSp^[n] sp ≠ sp := fun hno => by
  have hsp := onStack_iff.1 h
  have hsame := toNat_iterate_popSp h n
  rw [hno] at hsame
  omega

/-! ## What is on the stack -/

/-- **What is put on the stack stays there**, and nothing else on it changes. It is asked of the
page of the stack alone, and it is how memory behaves there; a handler for an address of another
page may do what it likes. -/
structure Bus.Stacks (bus : Bus W) : Prop where
  mem_poke : ∀ (w : W) (a : UInt16) (v : UInt8) (b : UInt16), OnStack a →
    bus.mem (bus.poke w a.toNat v) b.toNat = if b = a then v else bus.mem w b.toNat

/-- **The bytes above the stack pointer**, the last one pushed first. -/
def Stacked (bus : Bus W) (w : W) (sp : UInt16) (bytes : List UInt8) : Prop :=
  ∀ k (hk : k < bytes.length), bus.mem w (popSp^[k + 1] sp).toNat = bytes[k]

theorem stacked_nil (w : W) (sp : UInt16) : Stacked bus w sp [] :=
  fun k hk => absurd hk (Nat.not_lt_zero k)

/-- A byte is pushed. -/
theorem Stacked.push (hbus : bus.Stacks) {w : W} {sp : UInt16} {bytes : List UInt8}
    (h : Stacked bus w sp bytes) (hsp : OnStack sp) (hlength : bytes.length < 255) (v : UInt8) :
    Stacked bus (bus.poke w sp.toNat v) (pushSp sp) (v :: bytes) := by
  intro k hk
  rw [Function.iterate_succ_apply, popSp_pushSp hsp, hbus.mem_poke _ _ _ _ hsp]
  cases k with
  | zero => exact if_pos rfl
  | succ k =>
    have hlt : k < bytes.length := Nat.lt_of_succ_lt_succ hk
    rw [if_neg (iterate_popSp_ne hsp (Nat.succ_pos k) (by omega))]
    exact h k hlt

/-- A byte is popped. -/
theorem Stacked.pop {w : W} {sp : UInt16} {v : UInt8} {bytes : List UInt8}
    (h : Stacked bus w sp (v :: bytes)) :
    bus.mem w (popSp sp).toNat = v ∧ Stacked bus w (popSp sp) bytes := by
  refine ⟨h 0 (Nat.succ_pos _), fun k hk => ?_⟩
  rw [← Function.iterate_succ_apply]
  exact h (k + 1) (Nat.succ_lt_succ hk)

namespace CpuState

/-- **The bytes a state has on the stack.** -/
def Stacked (bus : Bus W) (s : CpuState W) (bytes : List UInt8) : Prop :=
  Cpu.Stacked bus s.host.world s.regs.sp bytes

theorem Stacked.push (hbus : bus.Stacks) {s : CpuState W} {bytes : List UInt8}
    (h : s.Stacked bus bytes) (hsp : OnStack s.regs.sp) (hlength : bytes.length < 255)
    (v : UInt8) : (s.push bus v).Stacked bus (v :: bytes) :=
  Cpu.Stacked.push hbus h hsp hlength v

theorem onStack_push {s : CpuState W} (hsp : OnStack s.regs.sp) (v : UInt8) :
    OnStack (s.push bus v).regs.sp := onStack_pushSp hsp

theorem Stacked.pop {s : CpuState W} {v : UInt8} {bytes : List UInt8}
    (h : s.Stacked bus (v :: bytes)) :
    (s.pop bus).1 = v ∧ (s.pop bus).2.Stacked bus bytes := Cpu.Stacked.pop h

end CpuState

/-- The low and the high byte of an address make it up again. -/
theorem word_bytes (pc : UInt16) :
    Byte.word (pc &&& 0xFF).toUInt8 (pc >>> 8).toUInt8 = pc := by
  have hlow : (pc &&& 0xFF).toNat = pc.toNat % 256 := by
    rw [UInt16.toNat_and]
    exact Nat.and_two_pow_sub_one_eq_mod _ 8
  have hhigh : (pc >>> 8).toNat = pc.toNat / 256 := by
    rw [UInt16.toNat_shiftRight]
    exact Nat.shiftRight_eq_div_pow _ 8
  have hlt := pc.toNat_lt
  rw [← UInt16.toNat_inj, Byte.toNat_word, UInt16.toNat_toUInt8, UInt16.toNat_toUInt8, hlow,
    hhigh]
  omega

namespace CpuState

/-- The program counter on the stack. -/
theorem stacked_pushPc (hbus : bus.Stacks) {s : CpuState W} (hsp : OnStack s.regs.sp) :
    (pushPc bus s).Stacked bus
      [(s.regs.pc &&& 0xFF).toUInt8, (s.regs.pc >>> 8).toUInt8] :=
  have hhigh : (s.push bus (s.regs.pc >>> 8).toUInt8).Stacked bus [(s.regs.pc >>> 8).toUInt8] :=
    Stacked.push hbus (stacked_nil _ _) hsp (by decide) _
  hhigh.push hbus (onStack_push hsp _) (show 1 < 255 by decide) _

/-- **The program counter comes off the stack.** -/
theorem popPc_of_stacked {s : CpuState W} {low high : UInt8}
    (h : s.Stacked bus [low, high]) : (popPc bus s).regs.pc = Byte.word low high := by
  obtain ⟨hlow, hrest⟩ := h.pop
  obtain ⟨hhigh, -⟩ := hrest.pop
  show Byte.word (s.pop bus).1 ((s.pop bus).2.pop bus).1 = _
  rw [hlow, hhigh]

/-! ## The flags -/

/-- The break and the reserved bit are always packed. -/
theorem packed_and_not_break (s : CpuState W) :
    (s.packed &&& ~~~afBreak) ||| afReserved ||| afBreak = s.packed := by
  have hbits : ∀ v : UInt8, ((v ||| afReserved ||| afBreak) &&& ~~~afBreak) ||| afReserved
      ||| afBreak = v ||| afReserved ||| afBreak := Byte.forall_byte (by decide +kernel)
  exact hbits _

/-- The flags that are kept in the packed register only. -/
def keptFlags : UInt8 := afInterrupt ||| afDecimal

/-- **The flags mean the same.** -/
structure SameFlags (s u : CpuState W) : Prop where
  carry : u.ctx.flagc = s.ctx.flagc
  sign : u.ctx.flagn = s.ctx.flagn
  overflow : u.ctx.flagv = 0 ↔ s.ctx.flagv = 0
  zero : u.ctx.flagz = 0 ↔ s.ctx.flagz = 0
  kept : u.regs.ps &&& keptFlags = s.regs.ps &&& keptFlags

theorem SameFlags.trans {s t u : CpuState W} (h : SameFlags s t) (h' : SameFlags t u) :
    SameFlags s u :=
  ⟨h'.carry.trans h.carry, h'.sign.trans h.sign, h'.overflow.trans h.overflow,
    h'.zero.trans h.zero, h'.kept.trans h.kept⟩

/-- Packing leaves the kept flags as they are. -/
theorem packed_and_kept {s : CpuState W} (h : s.Tidy) :
    s.packed &&& keptFlags = s.regs.ps &&& keptFlags := by
  have hbits : ∀ c n v z : UInt8, IsCarry c → IsSign n → (v = afOverflow ∨ v = 0) →
      (z = afZero ∨ z = 0) → ∀ ps : UInt8,
      ((ps &&& ~~~(afCarry ||| afSign ||| afOverflow ||| afZero)) ||| c ||| n ||| v ||| z
        ||| afReserved ||| afBreak) &&& keptFlags = ps &&& keptFlags := by
    rintro _ _ _ _ (rfl | rfl) (rfl | rfl) (rfl | rfl) (rfl | rfl) <;>
      exact Byte.forall_byte (by decide +kernel)
  have hite (v m : UInt8) : (if v ≠ 0 then m else 0) = m ∨ (if v ≠ 0 then m else 0) = 0 := by
    split
    · exact .inl rfl
    · exact .inr rfl
  exact hbits _ _ _ _ h.carry h.sign (hite _ _) (hite _ _) _

theorem SameFlags.packPs {s : CpuState W} (h : s.Tidy) : SameFlags s s.packPs :=
  ⟨rfl, rfl, Iff.rfl, Iff.rfl, packed_and_kept h⟩

/-- **Flags that were packed and pulled** mean what they meant. -/
theorem sameFlags_unpackPs {s u : CpuState W} (h : s.Tidy) (hps : u.regs.ps = s.packed) :
    SameFlags s u.unpackPs := by
  have hsettled := h.packPs_settled
  refine ⟨?_, ?_, ?_, ?_, ?_⟩
  · show u.regs.ps &&& afCarry = _
    rw [hps]
    exact hsettled.carry
  · show u.regs.ps &&& afSign = _
    rw [hps]
    exact hsettled.sign
  · show u.regs.ps &&& afOverflow = 0 ↔ _
    rw [hps]
    exact hsettled.overflow
  · show u.regs.ps &&& afZero = 0 ↔ _
    rw [hps]
    exact hsettled.zero
  · show u.regs.ps &&& keptFlags = _
    rw [hps]
    exact packed_and_kept h

/-! ## Entry -/

/-- What an interrupt leaves of the registers, and on the stack. -/
structure Interrupted (bus : Bus W) (s t : CpuState W) : Prop where
  a : t.regs.a = s.regs.a
  x : t.regs.x = s.regs.x
  y : t.regs.y = s.regs.y
  sp : t.regs.sp = pushSp (pushSp (pushSp s.regs.sp))
  stacked : t.Stacked bus [s.packed &&& ~~~afBreak, (s.regs.pc &&& 0xFF).toUInt8,
    (s.regs.pc >>> 8).toUInt8]

theorem interrupt_keeps (bus : Bus W) (cmos : Bool) (s : CpuState W) (vector : Nat) :
    (s.interrupt bus cmos vector).regs.a = s.regs.a
      ∧ (s.interrupt bus cmos vector).regs.x = s.regs.x
      ∧ (s.interrupt bus cmos vector).regs.y = s.regs.y := by
  simp only [interrupt, enterInterrupt, charge, jumpVector, fetch16, setPc, maskInterrupts,
    setPs, push, packPs, pushPc, and_self]

theorem interrupted_interrupt (cmos : Bool) (hbus : bus.Stacks) {s : CpuState W}
    (hsp : OnStack s.regs.sp) (vector : Nat) :
    Interrupted bus s (s.interrupt bus cmos vector) := by
  obtain ⟨ha, hx, hy⟩ := interrupt_keeps bus cmos s vector
  have hpc := stacked_pushPc hbus hsp
  have hon : OnStack (pushPc bus s).regs.sp := onStack_pushSp (onStack_pushSp hsp)
  have hpushed := hpc.push hbus hon (show 2 < 255 by decide) (s.packed &&& ~~~afBreak)
  have hworld : (s.interrupt bus cmos vector).host.world
      = ((pushPc bus s).push bus (s.packed &&& ~~~afBreak)).host.world := rfl
  have hpushSp : (s.interrupt bus cmos vector).regs.sp
      = ((pushPc bus s).push bus (s.packed &&& ~~~afBreak)).regs.sp := rfl
  refine ⟨ha, hx, hy, hpushSp, ?_⟩
  unfold Stacked at hpushed ⊢
  rw [hworld, hpushSp]
  exact hpushed

/-- `RTI` -/
def opcodeRti : UInt8 := 0x40

/-- `RTS` -/
def opcodeRts : UInt8 := 0x60

/-- `JSR` -/
def opcodeJsr : UInt8 := 0x20

/-- **The ways into a routine**, with the instruction that leads back from it,
how many bytes are put on the stack and where it goes on afterwards. -/
inductive Enters (bus : Bus W) (cmos : Bool) (s : CpuState W) :
    UInt8 → ℕ → UInt16 → CpuState W → Prop where
  | nmi (h : s.host.lines.nmiFlank = true) :
    Enters bus cmos s opcodeRti 3 s.regs.pc (s.checkNmi bus cmos)
  | irq (h : s.irqPending) :
    Enters bus cmos s opcodeRti 3 s.regs.pc (s.checkIrq bus cmos)
  | jsr (h : s.opcode bus = opcodeJsr) :
    Enters bus cmos s opcodeRts 2 (s.regs.pc + 3) (s.execute bus cmos)

/-- **A routine that has been entered and is about to return**: the stack pointer
and the registers are as they were when it was entered, and so are the bytes
that were pushed. `RTS` needs the flags as well. -/
structure AboutToReturn (bus : Bus W) (opcode : UInt8) (pushed : ℕ) (t u : CpuState W) :
    Prop where
  instruction : u.opcode bus = opcode
  a : u.regs.a = t.regs.a
  x : u.regs.x = t.regs.x
  y : u.regs.y = t.regs.y
  sp : u.regs.sp = t.regs.sp
  stack : ∀ k < pushed, bus.mem (u.fetchOpcode bus).2.host.world (popSp^[k + 1] t.regs.sp).toNat
    = bus.mem t.host.world (popSp^[k + 1] t.regs.sp).toNat
  flags : opcode = opcodeRts → SameFlags t u ∧ u.Tidy

/-- **Everything is as it was before the routine was entered.** The memory is not among it. What
was pushed is still below the stack pointer, and the routine may have written anywhere. -/
structure Resumes (s : CpuState W) (pc : UInt16) (u : CpuState W) : Prop where
  pc : u.regs.pc = pc
  sp : u.regs.sp = s.regs.sp
  a : u.regs.a = s.regs.a
  x : u.regs.x = s.regs.x
  y : u.regs.y = s.regs.y
  flags : SameFlags s u

/-! ## Return -/

/-- What the stack holds is what was pushed. -/
theorem AboutToReturn.stacked {opcode : UInt8} {t u : CpuState W} {bytes : List UInt8}
    (h : AboutToReturn bus opcode bytes.length t u) (ht : t.Stacked bus bytes) :
    Cpu.Stacked bus (u.fetchOpcode bus).2.host.world t.regs.sp bytes :=
  fun k hk => (h.stack k hk).trans (ht k hk)

/-- What `RTI` does, up to where the flags are packed. -/
theorem execute_rti {u : CpuState W} (h : u.opcode bus = opcodeRti) :
    u.execute bus cmos
      = ((opRti bus ((u.fetchOpcode bus).2.setExtra 0)).charge
          ((opRti bus ((u.fetchOpcode bus).2.setExtra 0)).cycles ⟨.none, .rti, 6⟩)).packPs := by
  have hdesc : opcodeDesc cmos (u.fetchOpcode bus).1 = ⟨.none, .rti, 6⟩ := by
    rw [show (u.fetchOpcode bus).1 = opcodeRti from h]
    cases cmos <;> rfl
  unfold execute
  dsimp only
  rw [hdesc]
  rfl

/-- What `RTS` does, up to where the flags are packed. -/
theorem execute_rts {u : CpuState W} (h : u.opcode bus = opcodeRts) :
    u.execute bus cmos
      = ((opRts bus ((u.fetchOpcode bus).2.setExtra 0)).charge
          ((opRts bus ((u.fetchOpcode bus).2.setExtra 0)).cycles ⟨.none, .rts, 6⟩)).packPs := by
  have hdesc : opcodeDesc cmos (u.fetchOpcode bus).1 = ⟨.none, .rts, 6⟩ := by
    rw [show (u.fetchOpcode bus).1 = opcodeRts from h]
    cases cmos <;> rfl
  unfold execute
  dsimp only
  rw [hdesc]
  rfl

/-- The flags come off the stack. -/
theorem popPs_ps {s : CpuState W} {v : UInt8} {bytes : List UInt8}
    (h : s.Stacked bus (v :: bytes)) :
    (popPs bus s).regs.ps = v ||| afReserved ||| afBreak
      ∧ (popPs bus s).Stacked bus bytes := by
  obtain ⟨hv, hrest⟩ := h.pop
  refine ⟨?_, hrest⟩
  show (s.pop bus).1 ||| afReserved ||| afBreak = _
  rw [hv]

/-- The index registers and the accumulator are not on the stack. -/
theorem execute_rti_keeps (cmos : Bool) {u : CpuState W} (h : u.opcode bus = opcodeRti) :
    (u.execute bus cmos).regs.a = u.regs.a ∧ (u.execute bus cmos).regs.x = u.regs.x
      ∧ (u.execute bus cmos).regs.y = u.regs.y
      ∧ (u.execute bus cmos).regs.sp = popSp (popSp (popSp u.regs.sp)) := by
  rw [execute_rti h]
  simp only [opRti, popPc, popPs, pop, packPs, setPs, charge, unpackPs, setPc, setExtra,
    fetchOpcode, true_and]
  rfl

theorem execute_rts_keeps (cmos : Bool) {u : CpuState W} (h : u.opcode bus = opcodeRts) :
    (u.execute bus cmos).regs.a = u.regs.a ∧ (u.execute bus cmos).regs.x = u.regs.x
      ∧ (u.execute bus cmos).regs.y = u.regs.y
      ∧ (u.execute bus cmos).regs.sp = popSp (popSp u.regs.sp) := by
  rw [execute_rts h]
  simp only [opRts, popPc, pop, packPs, setPs, charge, setPc, setExtra, fetchOpcode, true_and]
  rfl

/-- **`RTI` undoes an interrupt.** -/
theorem resumes_rti {s t u : CpuState W} (htidy : s.Tidy) (hsp : OnStack s.regs.sp)
    (ht : Interrupted bus s t) (hu : AboutToReturn bus opcodeRti 3 t u) :
    Resumes s s.regs.pc (u.execute bus cmos) := by
  obtain ⟨ha, hx, hy, hpopped⟩ := execute_rti_keeps cmos hu.instruction
  have hstack : ((u.fetchOpcode bus).2.setExtra 0).Stacked bus [s.packed &&& ~~~afBreak,
      (s.regs.pc &&& 0xFF).toUInt8, (s.regs.pc >>> 8).toUInt8] := by
    have hbytes := AboutToReturn.stacked hu ht.stacked
    rw [← hu.sp] at hbytes
    exact hbytes
  obtain ⟨hps, hrest⟩ := popPs_ps hstack
  have hpc := popPc_of_stacked hrest
  rw [packed_and_not_break] at hps
  rw [word_bytes] at hpc
  have hflags : SameFlags s (popPs bus ((u.fetchOpcode bus).2.setExtra 0)) :=
    sameFlags_unpackPs (u := popPs bus ((u.fetchOpcode bus).2.setExtra 0)) htidy hps
  refine ⟨?_, ?_, ha.trans (hu.a.trans ht.a), hx.trans (hu.x.trans ht.x),
    hy.trans (hu.y.trans ht.y), ?_⟩
  · rw [execute_rti hu.instruction]
    exact hpc
  · rw [hpopped, hu.sp, ht.sp, popSp_pushSp (onStack_pushSp (onStack_pushSp hsp)),
      popSp_pushSp (onStack_pushSp hsp), popSp_pushSp hsp]
  · rw [execute_rti hu.instruction]
    have htidy' : (popPs bus ((u.fetchOpcode bus).2.setExtra 0)).Tidy := unpackPs_tidy _
    have hsame : SameFlags s ((opRti bus ((u.fetchOpcode bus).2.setExtra 0)).charge
        ((opRti bus ((u.fetchOpcode bus).2.setExtra 0)).cycles ⟨.none, .rti, 6⟩)) :=
      ⟨hflags.carry, hflags.sign, hflags.overflow, hflags.zero, hflags.kept⟩
    exact hsame.trans (.packPs ⟨htidy'.carry, htidy'.sign⟩)

/-- What a `JSR` leaves of the registers and the flags, and on the stack. -/
structure Called (bus : Bus W) (s t : CpuState W) : Prop where
  a : t.regs.a = s.regs.a
  x : t.regs.x = s.regs.x
  y : t.regs.y = s.regs.y
  sp : t.regs.sp = pushSp (pushSp s.regs.sp)
  stacked : t.Stacked bus [(s.regs.pc + 2 &&& 0xFF).toUInt8, ((s.regs.pc + 2) >>> 8).toUInt8]
  flags : SameFlags s t

/-- The state in which a `JSR` pushes the program counter. -/
def calling (bus : Bus W) (s : CpuState W) : CpuState W :=
  let s := addrAbs bus ((s.fetchOpcode bus).2.setExtra 0)
  s.setPc (s.regs.pc - 1)

theorem execute_jsr (cmos : Bool) {s : CpuState W} (h : s.opcode bus = opcodeJsr) :
    ∃ pc cycles, s.execute bus cmos
      = (((pushPc bus (s.calling bus)).setPc pc).charge cycles).packPs := by
  have hdesc : opcodeDesc cmos (s.fetchOpcode bus).1 = ⟨.abs, .jsr, 6⟩ := by
    rw [show (s.fetchOpcode bus).1 = opcodeJsr from h]
    cases cmos <;> rfl
  unfold execute
  dsimp only
  rw [hdesc]
  exact ⟨_, _, rfl⟩

/-- Up to the push nothing but the program counter has moved. -/
theorem calling_regs (bus : Bus W) (s : CpuState W) :
    (s.calling bus).regs = { s.regs with pc := s.regs.pc + 2 } := by
  have hpc : s.regs.pc + 1 + 2 - 1 = s.regs.pc + 2 := by
    rw [UInt16.add_assoc, UInt16.add_comm 1, ← UInt16.add_assoc, UInt16.add_sub_cancel]
  simp only [calling, addrAbs, setAddr, fetchPc16, setExtra, fetchOpcode, setPc, hpc]

theorem calling_ctx (bus : Bus W) (s : CpuState W) :
    (s.calling bus).ctx.flagc = s.ctx.flagc ∧ (s.calling bus).ctx.flagn = s.ctx.flagn
      ∧ (s.calling bus).ctx.flagv = s.ctx.flagv ∧ (s.calling bus).ctx.flagz = s.ctx.flagz := by
  simp only [calling, addrAbs, setAddr, fetchPc16, setExtra, fetchOpcode, setPc, and_self]

/-- A `JSR` leaves the flags as they are. -/
theorem sameFlags_calling (bus : Bus W) (s : CpuState W) (pc : UInt16) (cycles : UInt32) :
    SameFlags s (((pushPc bus (s.calling bus)).setPc pc).charge cycles) := by
  obtain ⟨hc, hn, hv, hz⟩ := calling_ctx bus s
  have hps : (s.calling bus).regs.ps = s.regs.ps := by rw [calling_regs]
  refine ⟨?_, ?_, ?_, ?_, ?_⟩ <;>
    simp only [charge, setPc, pushPc, push, hc, hn, hv, hz, hps]

theorem called_execute (cmos : Bool) (hbus : bus.Stacks) {s : CpuState W} (htidy : s.Tidy)
    (hsp : OnStack s.regs.sp) (h : s.opcode bus = opcodeJsr) :
    Called bus s (s.execute bus cmos) := by
  obtain ⟨pc, cycles, hexecute⟩ := execute_jsr cmos h
  have hregs := calling_regs bus s
  have hon : OnStack (s.calling bus).regs.sp := by
    rw [hregs]
    exact hsp
  have hstacked := stacked_pushPc hbus hon
  rw [hregs] at hstacked
  have hkeeps := sameFlags_calling bus s pc cycles
  have htidy' : (((pushPc bus (s.calling bus)).setPc pc).charge cycles).Tidy :=
    ⟨by rw [hkeeps.carry]; exact htidy.carry, by rw [hkeeps.sign]; exact htidy.sign⟩
  have hsp' : (pushPc bus (s.calling bus)).regs.sp = pushSp (pushSp s.regs.sp) := by
    show pushSp (pushSp (s.calling bus).regs.sp) = _
    rw [hregs]
  rw [hexecute]
  refine ⟨?_, ?_, ?_, hsp', hstacked, hkeeps.trans (.packPs htidy')⟩ <;>
    simp only [packPs, setPs, charge, setPc, pushPc, push, hregs]

/-- **`RTS` undoes a `JSR`.** -/
theorem resumes_rts {s t u : CpuState W} (hsp : OnStack s.regs.sp)
    (ht : Called bus s t) (hu : AboutToReturn bus opcodeRts 2 t u) :
    Resumes s (s.regs.pc + 3) (u.execute bus cmos) := by
  obtain ⟨ha, hx, hy, hpopped⟩ := execute_rts_keeps cmos hu.instruction
  obtain ⟨hflags, htidy⟩ := hu.flags rfl
  have hstack : ((u.fetchOpcode bus).2.setExtra 0).Stacked bus
      [(s.regs.pc + 2 &&& 0xFF).toUInt8, ((s.regs.pc + 2) >>> 8).toUInt8] := by
    have hbytes := AboutToReturn.stacked hu ht.stacked
    rw [← hu.sp] at hbytes
    exact hbytes
  have hpc := popPc_of_stacked hstack
  rw [word_bytes] at hpc
  refine ⟨?_, ?_, ha.trans (hu.a.trans ht.a), hx.trans (hu.x.trans ht.x),
    hy.trans (hu.y.trans ht.y), ?_⟩
  · rw [execute_rts hu.instruction]
    show (popPc bus ((u.fetchOpcode bus).2.setExtra 0)).regs.pc + 1 = _
    rw [hpc, UInt16.add_assoc]
    rfl
  · rw [hpopped, hu.sp, ht.sp, popSp_pushSp (onStack_pushSp hsp), popSp_pushSp hsp]
  · rw [execute_rts hu.instruction]
    have hsame : SameFlags u ((opRts bus ((u.fetchOpcode bus).2.setExtra 0)).charge
        ((opRts bus ((u.fetchOpcode bus).2.setExtra 0)).cycles ⟨.none, .rts, 6⟩)) :=
      ⟨rfl, rfl, Iff.rfl, Iff.rfl, rfl⟩
    exact (ht.flags.trans hflags).trans (hsame.trans (.packPs ⟨htidy.carry, htidy.sign⟩))

/-! ## There and back -/

/-- **Entry and return are inverse**: of either interrupt and of a subroutine, on either
processor. In between anything may happen (`AboutToReturn`), as long as the stack pointer and what
was pushed are as the entry left them when the return is executed. The address that is returned to
is one more for a subroutine than what was pushed, and is `pc` in each case. -/
theorem Enters.resumes (hbus : bus.Stacks) {s t u : CpuState W} {opcode : UInt8} {pushed : ℕ}
    {pc : UInt16} (h : Enters bus cmos s opcode pushed pc t) (htidy : s.Tidy)
    (hsp : OnStack s.regs.sp) (hu : AboutToReturn bus opcode pushed t u) :
    Resumes s pc (u.execute bus cmos) := by
  cases h with
  | nmi hflank =>
    unfold checkNmi at hu
    rw [if_pos hflank] at hu
    have hentered : Interrupted bus s (s.clearFlank.interrupt bus cmos nmiVectorAddr) := by
      obtain ⟨ha, hx, hy, hsp', hstacked⟩ :=
        interrupted_interrupt cmos (s := s.clearFlank) hbus hsp nmiVectorAddr
      exact ⟨ha, hx, hy, hsp', hstacked⟩
    exact resumes_rti htidy hsp hentered hu
  | irq hpending =>
    unfold checkIrq at hu
    rw [if_pos hpending] at hu
    exact resumes_rti htidy hsp (interrupted_interrupt cmos hbus hsp irqVectorAddr) hu
  | jsr hjsr => exact resumes_rts hsp (called_execute cmos hbus htidy hsp hjsr) hu

/-- In memory alone what is pushed stays. -/
theorem stacks_flat : Bus.flat.Stacks where
  mem_poke w a v b _ := by
    show (if b.toNat = a.toNat then v else w b.toNat) = if b = a then v else w b.toNat
    simp only [UInt16.toNat_inj]

/-- The processor in front of a call of the routine behind it, which only
returns, with the stack pointer at the beginning of its page. -/
def inFrontOfCall : CpuState (Nat → UInt8) :=
  let s := (CpuInstance.flat 0x300 [0x20, 0x03, 0x03, 0x60] 0).enter
  { s with regs := { s.regs with sp := stackBegin } }

/-- The call returns. -/
theorem resumes_call :
    Resumes inFrontOfCall 0x303
      ((inFrontOfCall.execute Bus.flat false).execute Bus.flat false) := by
  have htidy : inFrontOfCall.Tidy := ⟨.inl (by decide +kernel), .inl (by decide +kernel)⟩
  have hcalled : (inFrontOfCall.execute Bus.flat false).Tidy :=
    ⟨.inl (by decide +kernel), .inl (by decide +kernel)⟩
  have henters : Enters Bus.flat false inFrontOfCall opcodeRts 2 0x303
      (inFrontOfCall.execute Bus.flat false) := .jsr (by decide +kernel)
  have hreturns : AboutToReturn Bus.flat opcodeRts 2 (inFrontOfCall.execute Bus.flat false)
      (inFrontOfCall.execute Bus.flat false) :=
    ⟨by decide +kernel, Eq.refl _, Eq.refl _, Eq.refl _, Eq.refl _, by decide +kernel,
      fun _ => ⟨⟨Eq.refl _, Eq.refl _, Iff.rfl, Iff.rfl, Eq.refl _⟩, hcalled⟩⟩
  exact henters.resumes stacks_flat htidy (by decide +kernel) hreturns

end CpuState

end LinApple.Cpu
