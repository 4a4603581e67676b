import LinApple.Cpu.Flags

/-!
# Slices of a frame

A frame's cycles may be executed in one slice or in many, and a handler may cut a slice short. The
reference is the frame in one slice that no handler cuts short. A slice leaves the flags packed
and the cycle counts moved forward, and the next one starts from these; neither changes what the
flags mean, nor the cycle a frame-relative count stands for. So both executions take the same
turns.

Where the two differ is in the counts. A handler that asks for the cycles to be counted moves some
of them from one count to another, the end of a slice moves all of them, and the limit of a slice
is compared with a count that begins anew with each. What stays is a sum: the count of the frame
that was executed and the count so far stand for one cycle (`origin`), however they are divided.
Everything that is told the cycle is told that, and it is what `Alike` keeps fixed while the
counts go their own ways.

`Between` relates a processor between two slices to the loop of the reference in mid-run. The one
has its flags packed and its context thrown away; so the other must be in a state in which packing
and unpacking changes nothing that matters (`Tidy`, `Settled`), and every turn leaves such a
state.

The outcome is compared in full: registers, world, interrupt lines, every access with its cycle,
every place that was fetched, and every charge, in their order. The slices may be of any length,
and a slice that is cut short goes on in the next; each executes one instruction at least, so that
as many slices as the frame has cycles always come to its end. That both loops end is part of the
statement and is not assumed, since a turn is charged at least one cycle. The frame must leave a
little room below 2^32, for the instruction that goes past its end.
-/

namespace LinApple.Cpu

variable {W : Type*}

/-! ## The cycle counts -/

/-- The cycle at which the frame began. -/
def Clock.origin (clock : Clock) : UInt64 :=
  clock.cumulativeCycles - clock.cyclesExecuted.toUInt64

/-- The difference of two counts of a frame. -/
theorem toUInt64_sub {x y : UInt32} (h : y ≤ x) :
    (x - y).toUInt64 = x.toUInt64 - y.toUInt64 := by
  have h' := UInt32.le_iff_toNat_le.mp h
  have hx := x.toNat_lt
  rw [← UInt64.toNat_inj, UInt32.toNat_toUInt64, UInt32.toNat_sub_of_le _ _ h,
    UInt64.toNat_sub_of_le, UInt32.toNat_toUInt64, UInt32.toNat_toUInt64]
  rw [UInt64.le_iff_toNat_le, UInt32.toNat_toUInt64, UInt32.toNat_toUInt64]
  exact h'

/-- A count of the frame stands for one cycle. -/
theorem Clock.now_eq {clock : Clock} {x : UInt32} (h : clock.cyclesExecuted ≤ x) :
    clock.now x = clock.origin + x.toUInt64 := by
  unfold Clock.now Clock.origin
  rw [toUInt64_sub h]
  grind

theorem cpuCalcCycles_executed (clock : Clock) (x : UInt32) :
    (cpuCalcCycles x clock).cyclesExecuted = x := by
  show clock.cyclesExecuted + (x - clock.cyclesExecuted) = x
  grind

theorem cpuCalcCycles_origin {clock : Clock} {x : UInt32}
    (h : clock.cyclesExecuted ≤ x) :
    (cpuCalcCycles x clock).origin = clock.origin := by
  unfold Clock.origin
  rw [cpuCalcCycles_executed]
  show clock.cumulativeCycles + (x - clock.cyclesExecuted).toUInt64 - x.toUInt64 = _
  rw [toUInt64_sub h]
  grind

theorem cpuLimitCycles_origin (clock : Clock) (c : UInt64) :
    (cpuLimitCycles c clock).origin = clock.origin := by
  unfold cpuLimitCycles
  split <;> rfl

theorem cpuLimitCycles_executed (clock : Clock) (c : UInt64) :
    (cpuLimitCycles c clock).cyclesExecuted = clock.cyclesExecuted := by
  unfold cpuLimitCycles
  split <;> rfl

/-- The limit of a slice is only ever lowered. -/
theorem cpuLimitCycles_le (clock : Clock) (c : UInt64) :
    (cpuLimitCycles c clock).cyclesLimit ≤ clock.cyclesLimit := by
  unfold cpuLimitCycles
  split
  · exact UInt32.le_refl _
  · show (if _ then _ else _) ≤ _
    split
    · rename_i h
      have h' := UInt64.lt_iff_toNat_lt.mp h
      rw [UInt32.toNat_toUInt64] at h'
      rw [UInt32.le_iff_toNat_le, UInt64.toNat_toUInt32]
      exact Nat.le_trans (Nat.mod_le _ _) (Nat.le_of_lt h')
    · exact UInt32.le_refl _

/-! ## Two executions side by side -/

/-- A handler's request other than to end the slice. -/
def HostCall.isQuiet : HostCall → Bool
  | .limitCycles _ => false
  | _ => true

/-- **The machine whose handlers do not cut slices short.** -/
def Bus.quiet (bus : Bus W) : Bus W :=
  { bus with io := fun world access =>
      let r := bus.io world access
      (r.1, r.2.1, r.2.2.filter HostCall.isQuiet) }

/-- A frame: its cycles, and where the counts stood when it began. -/
structure Frame where
  /-- `frame_cycles` -/
  cycles : UInt32
  /-- What had been charged. -/
  charged : Nat
  /-- `cumulative_cycles` -/
  cumulative : UInt64

/-- **Two hosts at the same point of a frame**: the first may be in a slice
that ends before the frame does. -/
structure Alike (frame : Frame) (x : UInt32) (h h' : Host W) :
    Prop where
  world : h.world = h'.world
  lines : h.lines = h'.lines
  turns : h.turns = h'.turns
  accesses : h.accesses = h'.accesses
  fetched : h.fetched = h'.fetched
  charges : h.charges = h'.charges
  sum : h'.charges.sum = frame.charged + x.toNat
  origin : h.clock.origin = frame.cumulative
  origin' : h'.clock.origin = frame.cumulative
  counted : h.clock.cyclesExecuted ≤ x
  counted' : h'.clock.cyclesExecuted ≤ x
  limit : h.clock.cyclesLimit ≤ frame.cycles
  limit' : h'.clock.cyclesLimit = frame.cycles

namespace Alike

variable {frame : Frame} {x : UInt32} {h h' : Host W}

/-- What a handler asks of the processor. -/
theorem call (H : Alike frame x h h') (c : HostCall) (hc : c.isQuiet) :
    Alike frame x (h.call x c) (h'.call x c) := by
  cases c with
  | calcCycles =>
    exact { H with
      origin := (cpuCalcCycles_origin H.counted).trans H.origin
      origin' := (cpuCalcCycles_origin H.counted').trans H.origin'
      counted := (cpuCalcCycles_executed _ _).symm ▸ UInt32.le_refl _
      counted' := (cpuCalcCycles_executed _ _).symm ▸ UInt32.le_refl _ }
  | limitCycles c => cases hc
  | line c => exact { H with lines := congrArg (·.apply c) H.lines }

/-- A request to end the slice is heard on one side alone. -/
theorem limitCycles (H : Alike frame x h h') (c : UInt64) :
    Alike frame x (h.call x (.limitCycles c)) h' :=
  { H with
    origin := (cpuLimitCycles_origin _ _).trans H.origin
    counted := (cpuLimitCycles_executed _ _).symm ▸ H.counted
    limit := UInt32.le_trans (cpuLimitCycles_le _ _) H.limit }

theorem foldl_call (H : Alike frame x h h') (calls : List HostCall) :
    Alike frame x (calls.foldl (Host.call x) h)
      ((calls.filter HostCall.isQuiet).foldl (Host.call x) h') := by
  induction calls generalizing h h' with
  | nil => exact H
  | cons c calls ih =>
    by_cases hc : c.isQuiet
    · rw [List.filter_cons_of_pos hc]
      exact ih (H.call c hc)
    · rw [List.filter_cons_of_neg hc]
      cases c with
      | limitCycles c => exact ih (H.limitCycles c)
      | calcCycles => exact absurd rfl hc
      | line c => exact absurd rfl hc

/-- **An access of the handlers**: both see the same cycle. -/
theorem ioMapDispatch (bus : Bus W) (H : Alike frame x h h') (pc a : UInt16)
    (w : Bool) (v : UInt8) :
    (h.ioMapDispatch bus pc a w v x).1 = (h'.ioMapDispatch bus.quiet pc a w v x).1 ∧
      Alike frame x (h.ioMapDispatch bus pc a w v x).2
        (h'.ioMapDispatch bus.quiet pc a w v x).2 := by
  have hnow : h.clock.now x = h'.clock.now x := by
    rw [Clock.now_eq H.counted, Clock.now_eq H.counted', H.origin, H.origin']
  have step (world : W) (access : IoAccess) :
      Alike frame x { h with world, accesses := h.accesses ++ [access] }
        { h' with world, accesses := h'.accesses ++ [access] } :=
    { H with world := rfl, accesses := congrArg (· ++ [access]) H.accesses }
  unfold Host.ioMapDispatch
  simp only [hnow, H.world]
  exact ⟨rfl, (step _ _).foldl_call _⟩

theorem fetch (bus : Bus W) (H : Alike frame x h h') (i : Nat) :
    (h.fetch bus i).1 = (h'.fetch bus.quiet i).1 ∧
      Alike frame x (h.fetch bus i).2 (h'.fetch bus.quiet i).2 :=
  ⟨congrArg (bus.mem · i) H.world,
    { H with fetched := congrArg (· ++ [i]) H.fetched }⟩

theorem fetch16 (bus : Bus W) (H : Alike frame x h h') (i : Nat) :
    (h.fetch16 bus i).1 = (h'.fetch16 bus.quiet i).1 ∧
      Alike frame x (h.fetch16 bus i).2 (h'.fetch16 bus.quiet i).2 :=
  ⟨congrArg (fun w => (bus.mem w i).toUInt16 ||| ((bus.mem w (i + 1)).toUInt16 <<< 8))
      H.world,
    { H with fetched := congrArg (· ++ [i, i + 1]) H.fetched }⟩

theorem readByte (bus : Bus W) (H : Alike frame x h h') (pc a : UInt16) :
    (h.readByte bus pc a x).1 = (h'.readByte bus.quiet pc a x).1 ∧
      Alike frame x (h.readByte bus pc a x).2 (h'.readByte bus.quiet pc a x).2 := by
  unfold Host.readByte
  split
  · exact H.ioMapDispatch bus pc a false 0
  · exact H.fetch bus a.toNat

theorem writeByte (bus : Bus W) (H : Alike frame x h h') (pc a : UInt16)
    (v : UInt8) :
    Alike frame x (h.writeByte bus pc a v x) (h'.writeByte bus.quiet pc a v x) := by
  have hm : Alike frame x
      { h with world := bus.markDirty h'.world (a >>> 8).toUInt8 }
      { h' with world := bus.markDirty h'.world (a >>> 8).toUInt8 } :=
    { H with world := rfl }
  unfold Host.writeByte
  simp only [H.world, Bus.quiet]
  split
  · exact { H with world := rfl }
  · split
    · exact (hm.ioMapDispatch bus pc a true v).2
    · exact hm

/-- The reference by its own side. -/
theorem right (H : Alike frame x h h') : Alike frame x h' h' where
  world := rfl
  lines := rfl
  turns := rfl
  accesses := rfl
  fetched := rfl
  charges := rfl
  sum := H.sum
  origin := H.origin'
  origin' := H.origin'
  counted := H.counted'
  counted' := H.counted'
  limit := H.limit' ▸ UInt32.le_refl _
  limit' := H.limit'

end Alike

/-- **The relation of two executions of a frame.** -/
def alike (bus : Bus W) (frame : Frame) (x : UInt32) :
    Related bus bus.quiet x where
  rel := Alike frame x
  ok _ := True
  ok_of_lt _ _ := trivial
  read pc a H := H.readByte bus pc a
  write pc a v H := H.writeByte bus pc a v
  poke a v H := { H with world := congrArg (bus.poke · a.toNat v) H.world }
  fetch i _ H := H.fetch bus i
  fetch16 i _ _ H := H.fetch16 bus i

/-! ## One turn -/

section Turn

variable {bus : Bus W} (cmos : Bool) {frame : Frame} {x : UInt32}
  {s t : CpuState W}

/-- **A charge moves both frames forward.** -/
theorem alike_charge (h : Same (alike bus frame x) s t) {n : UInt32}
    (hn : x.toNat + n.toNat < 2 ^ 32) :
    Same (alike bus frame (x + n)) (s.charge n) (t.charge n) := by
  have hx : (x + n).toNat = x.toNat + n.toNat := by
    rw [UInt32.toNat_add, Nat.mod_eq_of_lt hn]
  have hle : x ≤ x + n := by
    rw [UInt32.le_iff_toNat_le, hx]
    exact Nat.le_add_right _ _
  refine h.charge fun {h h'} H => { H with
    charges := congrArg (· ++ [n.toNat]) H.charges
    sum := ?_
    counted := UInt32.le_trans H.counted hle
    counted' := UInt32.le_trans H.counted' hle }
  show (h'.charges ++ [n.toNat]).sum = _
  rw [List.sum_append, H.sum, hx, List.sum_singleton, Nat.add_assoc]

/-- The handler of an opcode moves both frames forward alike. -/
theorem alike_dispatch (h : Same (alike bus frame x) s t)
    (hx : x.toNat + 10 < 2 ^ 32) (opcode : UInt8) :
    ∃ n : UInt32, 2 ≤ n.toNat ∧ n.toNat ≤ 10 ∧
      Same (alike bus frame (x + n))
        (s.dispatch bus (opcodeDesc cmos opcode))
        (t.dispatch bus.quiet (opcodeDesc cmos opcode)) := by
  have hok (i : Nat) : (alike bus frame x).ok i := trivial
  have hp := opcodeDesc_provided cmos opcode
  have hb := charged_bounds bus cmos opcode s
  generalize opcodeDesc cmos opcode = d at hp hb ⊢
  have h0 : Same (alike bus frame x) (s.setExtra 0) (t.setExtra 0) := h.setExtra 0 0
  obtain ⟨hm, hf⟩ := h0.runMode hok rfl d.mode
  have hr := h0.runDesc hok rfl hp
  have he : (d.run bus (s.setExtra 0)).cycles d
      = (d.run bus.quiet (t.setExtra 0)).cycles d :=
    congrArg (d.baseCycles.toUInt32 + ·.toUInt32)
      (hm.run_extraCycles d.op (fun hu => hf.addr (hp.addr hu)) hf.extra)
  have hc := alike_charge hr (n := (d.run bus (s.setExtra 0)).cycles d)
    (Nat.lt_of_le_of_lt (Nat.add_le_add_left hb.2 _) hx)
  refine ⟨(d.run bus (s.setExtra 0)).cycles d, hb.1, hb.2, ?_⟩
  have ht : t.dispatch bus.quiet d = (d.run bus.quiet (t.setExtra 0)).charge
      ((d.run bus (s.setExtra 0)).cycles d) := by
    rw [he]
    rfl
  rw [ht]
  exact hc

/-- The requests at the end of an instruction reach both. -/
theorem alike_arrive (h : Same (alike bus frame x) s t) :
    Same (alike bus frame x) (s.arrive bus) (t.arrive bus.quiet) :=
  have H : Alike frame x s.host t.host := h.host
  { h with host := { H with
      lines := by
        show (bus.requests s.host.turns).foldl _ _ = (bus.requests t.host.turns).foldl _ _
        rw [H.turns, H.lines]
      turns := congrArg (· + 1) H.turns } }

/-- The entry of an interrupt moves both frames forward. -/
theorem alike_interrupt (h : Same (alike bus frame x) s t)
    (hx : x.toNat + 7 < 2 ^ 32) {vector : Nat} (hv : vector < 65535) :
    Same (alike bus frame (x + 7)) (s.interrupt bus cmos vector)
      (t.interrupt bus.quiet cmos vector) :=
  alike_charge (h.enterInterrupt cmos hv) hx

theorem toNat_add_seven {x : UInt32} (hx : x.toNat + 7 < 2 ^ 32) :
    (x + 7).toNat = x.toNat + 7 := by
  rw [UInt32.toNat_add]
  exact Nat.mod_eq_of_lt hx

theorem alike_checkNmi (h : Same (alike bus frame x) s t)
    (hx : x.toNat + 7 < 2 ^ 32) :
    ∃ y : UInt32, x.toNat ≤ y.toNat ∧ y.toNat ≤ x.toNat + 7 ∧
      Same (alike bus frame y) (s.checkNmi bus cmos) (t.checkNmi bus.quiet cmos) := by
  have H : Alike frame x s.host t.host := h.host
  have hc : Same (alike bus frame x) s.clearFlank t.clearFlank :=
    { h with host := { H with
        lines := congrArg (fun l : InterruptLines => { l with nmiFlank := false }) H.lines } }
  unfold CpuState.checkNmi
  rw [H.lines]
  split
  · exact ⟨x + 7, by rw [toNat_add_seven hx]; omega, by rw [toNat_add_seven hx],
      alike_interrupt cmos hc hx (by decide)⟩
  · exact ⟨x, Nat.le_refl _, Nat.le_add_right _ _, h⟩

theorem alike_checkIrq (h : Same (alike bus frame x) s t)
    (hx : x.toNat + 7 < 2 ^ 32) :
    ∃ y : UInt32, x.toNat ≤ y.toNat ∧ y.toNat ≤ x.toNat + 7 ∧
      Same (alike bus frame y) (s.checkIrq bus cmos) (t.checkIrq bus.quiet cmos) := by
  have H : Alike frame x s.host t.host := h.host
  have hp : s.irqPending ↔ t.irqPending := by
    unfold CpuState.irqPending
    rw [H.lines, h.regs]
  unfold CpuState.checkIrq
  by_cases hi : t.irqPending
  · rw [if_pos hi, if_pos (hp.mpr hi)]
    exact ⟨x + 7, by rw [toNat_add_seven hx]; omega, by rw [toNat_add_seven hx],
      alike_interrupt cmos h hx (by decide)⟩
  · rw [if_neg hi, if_neg (mt hp.mp hi)]
    exact ⟨x, Nat.le_refl _, Nat.le_add_right _ _, h⟩

/-- **A turn moves both frames forward alike**, by 2 to 24 cycles. -/
theorem alike_turn (h : Same (alike bus frame x) s t)
    (hx : x.toNat + 24 < 2 ^ 32) :
    ∃ y : UInt32, x.toNat + 2 ≤ y.toNat ∧ y.toNat ≤ x.toNat + 24 ∧
      Same (alike bus frame y) (s.turn bus cmos) (t.turn bus.quiet cmos) := by
  obtain ⟨ho, hf⟩ := h.fetchOpcode
  obtain ⟨n, hl, hu, hd⟩ := alike_dispatch cmos hf (by omega)
    (s.fetchOpcode bus).1
  have hn : (x + n).toNat = x.toNat + n.toNat := by
    rw [UInt32.toNat_add, Nat.mod_eq_of_lt (by omega)]
  have he : Same (alike bus frame (x + n)) (s.execute bus cmos)
      (t.execute bus.quiet cmos) := by
    have ht : t.execute bus.quiet cmos = ((t.fetchOpcode bus.quiet).2.dispatch bus.quiet
      (opcodeDesc cmos (s.fetchOpcode bus).1)).packPs := by
      rw [ho]
      rfl
    rw [ht]
    exact hd.packPs
  obtain ⟨y, hy, hy', hN⟩ := alike_checkNmi cmos (alike_arrive he) (by omega)
  obtain ⟨z, hz, hz', hI⟩ := alike_checkIrq cmos hN (by omega)
  exact ⟨z, by omega, by omega, hI⟩

end Turn

/-! ## Runs of turns -/

section Runs

variable {bus : Bus W} {cmos : Bool} {frame : Frame} {x : UInt32}
  {s t : CpuState W}

/-- In the reference the loop goes on while the frame does. -/
theorem goesOn_quiet (h : Same (alike bus frame x) s t) :
    t.goesOn ↔ x < frame.cycles := by
  have H : Alike frame x s.host t.host := h.host
  unfold CpuState.goesOn
  rw [h.executed', H.limit']

/-- A slice does not go on longer than the frame. -/
theorem lt_of_goesOn (h : Same (alike bus frame x) s t) (hs : s.goesOn) :
    x < frame.cycles := by
  have H : Alike frame x s.host t.host := h.host
  unfold CpuState.goesOn at hs
  rw [h.executed] at hs
  exact UInt32.lt_of_lt_of_le hs H.limit

/-- **The turns of a slice are turns of the frame.** -/
theorem alike_turns (hframe : frame.cycles.toNat + 24 ≤ 2 ^ 32) {s' : CpuState W}
    (hr : Turns bus cmos s s') (h : Same (alike bus frame x) s t)
    (hx : x < frame.cycles) (ht : t.Tidy) :
    ∃ (t' : CpuState W) (y : UInt32), Turns bus.quiet cmos t t' ∧ t'.Tidy ∧
      t'.Settled ∧ x.toNat + 2 ≤ y.toNat ∧ Same (alike bus frame y) s' t' := by
  induction hr generalizing t x with
  | last s =>
    have hx' := UInt32.lt_iff_toNat_lt.mp hx
    obtain ⟨y, hy, -, h'⟩ := alike_turn cmos h (by omega)
    exact ⟨_, y, .last t, ht.turn bus.quiet cmos, ht.turn_settled bus.quiet cmos, hy, h'⟩
  | more hs _ ih =>
    have hx' := UInt32.lt_iff_toNat_lt.mp hx
    obtain ⟨y, hy, -, h'⟩ := alike_turn cmos h (by omega)
    have hy' := lt_of_goesOn h' hs
    obtain ⟨t', z, hr', ht', hs', hz, h''⟩ := ih h' hy' (ht.turn bus.quiet cmos)
    exact ⟨t', z, .more ((goesOn_quiet h').mpr hy') hr', ht', hs', by omega, h''⟩

variable (cmos) in
/-- **Both loops end** within the frame. -/
theorem alike_loop (hframe : frame.cycles.toNat + 24 ≤ 2 ^ 32) {fuel : Nat}
    (h : Same (alike bus frame x) s t) (hx : x < frame.cycles)
    (hfuel : frame.cycles.toNat ≤ x.toNat + fuel) :
    (cpuExecuteLoop bus cmos fuel s).isSome ∧
      (cpuExecuteLoop bus.quiet cmos fuel t).isSome := by
  induction fuel generalizing s t x with
  | zero =>
    have := UInt32.lt_iff_toNat_lt.mp hx
    omega
  | succ fuel ih =>
    have hx' := UInt32.lt_iff_toNat_lt.mp hx
    obtain ⟨y, hy, -, h'⟩ := alike_turn cmos h (by omega)
    simp only [cpuExecuteLoop]
    by_cases hyf : y < frame.cycles
    · obtain ⟨hi, hi'⟩ := ih h' hyf (by omega)
      refine ⟨?_, ?_⟩
      · split
        · exact hi
        · rfl
      · rw [if_pos ((goesOn_quiet h').mpr hyf)]
        exact hi'
    · rw [if_neg (mt (lt_of_goesOn h') hyf), if_neg (mt (goesOn_quiet h').mp hyf)]
      exact ⟨rfl, rfl⟩

end Runs

/-! ## Between slices -/

/-- **The processor between slices, and the reference inside its slice**: the
registers are the same, and the packed flags say what the flags mean. -/
structure Between (frame : Frame) (x : UInt32) (p : CpuInstance W)
    (t : CpuState W) : Prop where
  regs : p.regs = t.regs
  tidy : t.Tidy
  settled : t.Settled
  executed : p.host.clock.cyclesExecuted = x
  executed' : t.ctx.executedCycles = x
  host : Alike frame x
    { p.host with clock := { p.host.clock with cyclesLimit := frame.cycles } } t.host

section Between

variable (bus : Bus W) (cmos : Bool) {frame : Frame} {x : UInt32}
  {p : CpuInstance W} {t : CpuState W}

/-- What a slice begins with. -/
def beginSlice (cycles : UInt32) (untilCycle : UInt64) (p : CpuInstance W) :
    CpuInstance W :=
  p.mapClock fun clock => cpuLimitCycles untilCycle
    { clock with inSlice := true, cyclesLimit := cycles }

/-- A slice begins where the reference stands. -/
theorem Between.enter (h : Between frame x p t) (untilCycle : UInt64) :
    Same (alike bus frame x) (beginSlice frame.cycles untilCycle p).enter t := by
  have H := h.host
  have hexec : (beginSlice frame.cycles untilCycle p).host.clock.cyclesExecuted = x :=
    (cpuLimitCycles_executed _ _).trans h.executed
  refine ⟨h.regs, ?_, ?_, ?_, ?_, hexec, h.executed', ?_⟩
  · exact (congrArg (·.ps &&& afCarry) h.regs).trans h.settled.carry
  · exact (congrArg (·.ps &&& afSign) h.regs).trans h.settled.sign
  · show p.regs.ps &&& afOverflow = 0 ↔ _
    rw [h.regs]
    exact h.settled.overflow
  · show p.regs.ps &&& afZero = 0 ↔ _
    rw [h.regs]
    exact h.settled.zero
  · exact { H with
      origin := (cpuLimitCycles_origin _ _).trans H.origin
      counted := hexec.symm ▸ UInt32.le_refl _
      limit := cpuLimitCycles_le _ _ }

/-- The cycles that are left are counted when a slice ends. -/
theorem Between.leave {s : CpuState W} (hr : s.regs = t.regs)
    (he : s.ctx.executedCycles = x) (he' : t.ctx.executedCycles = x)
    (H : Alike frame x s.host t.host) (ht : t.Tidy) (hs : t.Settled) :
    Between frame x s.leave t :=
  { regs := hr
    tidy := ht
    settled := hs
    executed := he
    executed' := he'
    host := { H with
      origin := by
        have ho := (cpuCalcCycles_origin H.counted).trans H.origin
        unfold Clock.origin at ho
        rw [cpuCalcCycles_executed] at ho
        show s.host.clock.cumulativeCycles
            + (s.ctx.executedCycles - s.host.clock.cyclesExecuted).toUInt64
          - s.ctx.executedCycles.toUInt64 = _
        rw [he]
        exact ho
      counted := he ▸ UInt32.le_refl _
      limit := UInt32.le_refl _ } }

/-- **A slice takes turns of the frame**, at least one. -/
theorem Between.slice (h : Between frame x p t)
    (hframe : frame.cycles.toNat + 24 ≤ 2 ^ 32) (hx : x < frame.cycles) {fuel : Nat}
    (hfuel : frame.cycles.toNat ≤ fuel) (untilCycle : UInt64) :
    ∃ (q : CpuInstance W) (t' : CpuState W) (y : UInt32),
      cpuExecuteSlice bus cmos fuel frame.cycles untilCycle p = some q ∧
      Turns bus.quiet cmos t t' ∧ Between frame y q t' ∧ x.toNat + 2 ≤ y.toNat := by
  have hs := h.enter bus untilCycle
  obtain ⟨s', hs'⟩ := Option.isSome_iff_exists.mp
    (alike_loop cmos hframe hs hx (Nat.le_trans hfuel (Nat.le_add_left _ _))).1
  obtain ⟨t', y, hr, ht, hst, hy, h'⟩ :=
    alike_turns hframe (turns_of_loop hs').1 hs hx h.tidy
  refine ⟨s'.leave, t', y, ?_, hr,
    .leave h'.regs h'.executed h'.executed' h'.host ht hst, hy⟩
  show (cpuExecuteLoop bus cmos fuel (beginSlice frame.cycles untilCycle p).enter).map _ = _
  rw [hs']
  rfl

/-- **Slices take turns of the frame**, until they are spent or it is. -/
theorem Between.runSlices (h : Between frame x p t)
    (hframe : frame.cycles.toNat + 24 ≤ 2 ^ 32) (hx : x < frame.cycles) {fuel : Nat}
    (hfuel : frame.cycles.toNat ≤ fuel) (untilCycles : List UInt64) :
    ∃ (q : CpuInstance W) (t' : CpuState W) (y : UInt32),
      runSlices bus cmos fuel frame.cycles untilCycles p = some q ∧
      (t' = t ∧ y = x ∨ Turns bus.quiet cmos t t') ∧ Between frame y q t' ∧
      min frame.cycles.toNat (x.toNat + untilCycles.length) ≤ y.toNat := by
  induction untilCycles generalizing x p t with
  | nil =>
    exact ⟨p, t, x, rfl, .inl ⟨rfl, rfl⟩, h, Nat.min_le_right _ _⟩
  | cons untilCycle rest ih =>
    obtain ⟨q, t', y, hq, hr, h', hy⟩ := h.slice bus cmos hframe hx hfuel
      untilCycle
    have hrun : LinApple.Cpu.runSlices bus cmos fuel frame.cycles (untilCycle :: rest) p
        = if y < frame.cycles then LinApple.Cpu.runSlices bus cmos fuel frame.cycles rest q
          else some q := by
      simp only [LinApple.Cpu.runSlices, hq, Option.bind_eq_bind, Option.bind_some,
        h'.executed]
    by_cases hyf : y < frame.cycles
    · obtain ⟨r, t'', z, hrest, hr', h'', hz⟩ := ih h' hyf
      have hg : t'.goesOn := by
        show t'.ctx.executedCycles < t'.host.clock.cyclesLimit
        rw [h'.executed', h'.host.limit']
        exact hyf
      refine ⟨r, t'', z, ?_, ?_, h'', ?_⟩
      · rw [hrun, if_pos hyf, hrest]
      · rcases hr' with ⟨rfl, -⟩ | hr'
        · exact .inr hr
        · exact .inr (hr.append hg hr')
      · rw [List.length_cons]
        omega
    · refine ⟨q, t', y, by rw [hrun, if_neg hyf], .inr hr, h', ?_⟩
      have := mt UInt32.lt_iff_toNat_lt.mpr hyf
      omega

end Between

/-! ## A frame at once -/

/-- The frame that begins. -/
def Frame.of (cycles : UInt32) (p : CpuInstance W) : Frame :=
  ⟨cycles, p.host.charges.sum, p.host.clock.cumulativeCycles⟩

/-- A slice without a bound. -/
theorem beginSlice_unbounded (cycles : UInt32) (p : CpuInstance W) :
    beginSlice cycles 0xFFFFFFFFFFFFFFFF p
      = p.mapClock fun clock => { clock with inSlice := true, cyclesLimit := cycles } :=
  congrArg p.mapClock (funext fun _ => if_pos (Or.inr rfl))

/-- Unpacked flags are what the packed ones say. -/
theorem unpackPs_settled (s : CpuState W) : s.unpackPs.Settled :=
  ⟨rfl, rfl, Iff.rfl, Iff.rfl⟩

/-- **A frame begins** with the reference at its first slice. -/
theorem Between.begin (cycles : UInt32) (p : CpuInstance W) :
    Between (.of cycles p) 0 (cpuBeginFrame p)
      (beginSlice cycles 0xFFFFFFFFFFFFFFFF (cpuBeginFrame p)).enter := by
  rw [beginSlice_unbounded]
  have ho : p.host.clock.cumulativeCycles - (0 : UInt32).toUInt64
      = p.host.clock.cumulativeCycles := by
    show p.host.clock.cumulativeCycles - 0 = _
    grind
  exact
    { regs := rfl
      tidy := CpuState.unpackPs_tidy _
      settled := unpackPs_settled _
      executed := rfl
      executed' := rfl
      host := ⟨rfl, rfl, rfl, rfl, rfl, rfl, rfl, ho, ho, UInt32.le_refl _,
        UInt32.le_refl _, UInt32.le_refl _, rfl⟩ }

/-- **Executions with one outcome**: the registers and their flags, the
machine, the lines, the accesses with their cycles, and what was charged. -/
structure SameOutcome (p q : CpuInstance W) : Prop where
  regs : p.regs = q.regs
  world : p.host.world = q.host.world
  lines : p.host.lines = q.host.lines
  turns : p.host.turns = q.host.turns
  accesses : p.host.accesses = q.host.accesses
  fetched : p.host.fetched = q.host.fetched
  charges : p.host.charges = q.host.charges
  cumulative : p.host.clock.cumulativeCycles = q.host.clock.cumulativeCycles

/-- What the charges since have added to `cumulative_cycles`. The sum is taken modulo 2^64 as the
counter is, so nothing has to be asked of how long the machine has run. -/
def CountsCharges (p q : CpuInstance W) : Prop :=
  ∃ charged : Nat, q.host.charges.sum = p.host.charges.sum + charged ∧
    q.host.clock.cumulativeCycles
      = p.host.clock.cumulativeCycles + UInt64.ofNat charged

namespace Between

variable {frame : Frame} {x : UInt32} {p q : CpuInstance W} {t : CpuState W}

/-- The cycles of the frame are those that were charged. -/
theorem cumulative (h : Between frame x p t) :
    p.host.clock.cumulativeCycles = frame.cumulative + x.toUInt64 := by
  have ho : p.host.clock.cumulativeCycles - p.host.clock.cyclesExecuted.toUInt64
      = frame.cumulative := h.host.origin
  rw [h.executed] at ho
  rw [← ho]
  grind

theorem countsCharges {cycles : UInt32} (h : Between (.of cycles q) x p t) :
    CountsCharges q p := by
  refine ⟨x.toNat, ?_, ?_⟩
  · have hc : p.host.charges = t.host.charges := h.host.charges
    rw [hc]
    exact h.host.sum
  · rw [h.cumulative, UInt64.ofNat_uInt32ToNat]
    rfl

/-- The reference's outcome, when both have come as far. -/
theorem sameOutcome (h : Between frame x p t) (hq : Between frame x q t) :
    SameOutcome p q :=
  { regs := h.regs.trans hq.regs.symm
    world := h.host.world.trans hq.host.world.symm
    lines := h.host.lines.trans hq.host.lines.symm
    turns := h.host.turns.trans hq.host.turns.symm
    accesses := h.host.accesses.trans hq.host.accesses.symm
    fetched := h.host.fetched.trans hq.host.fetched.symm
    charges := h.host.charges.trans hq.host.charges.symm
    cumulative := h.cumulative.trans hq.cumulative.symm }

/-- The reference, when its own slice has ended. -/
theorem reference (h : Between frame x p t) : Between frame x t.leave t :=
  .leave rfl h.executed' h.executed' h.host.right h.tidy h.settled

end Between

/-- **A frame in slices is the frame at once.** However the frame's cycles
are cut, by the bounds of the slices and by what the handlers ask, every
slice ends; once the frame's cycles have been executed, the outcome is that
of one slice that nothing cuts short. What `cumulative_cycles` has grown by
is what was charged. A frame is far shorter than the counts reach. -/
theorem runSlices_sameOutcome (bus : Bus W) (cmos : Bool) {fuel : Nat}
    {frameCycles : UInt32} (hpos : 0 < frameCycles)
    (hfuel : frameCycles.toNat ≤ fuel) (hframe : frameCycles.toNat + 24 ≤ 2 ^ 32)
    (untilCycles : List UInt64) (p : CpuInstance W) :
    ∃ q r : CpuInstance W,
      runSlices bus cmos fuel frameCycles untilCycles (cpuBeginFrame p) = some q ∧
      cpuExecuteSlice bus.quiet cmos fuel frameCycles 0xFFFFFFFFFFFFFFFF
        (cpuBeginFrame p) = some r ∧
      (frameCycles.toNat ≤ untilCycles.length →
        frameCycles ≤ q.host.clock.cyclesExecuted) ∧
      (frameCycles ≤ q.host.clock.cyclesExecuted → SameOutcome q r) ∧
      CountsCharges p q := by
  have hb := Between.begin frameCycles p
  obtain ⟨q, t, x, hq, ht, h, hx⟩ := hb.runSlices bus cmos hframe hpos hfuel
    untilCycles
  obtain ⟨t', ht'⟩ := Option.isSome_iff_exists.mp
    (alike_loop cmos hframe (hb.enter bus 0) hpos
      (Nat.le_trans hfuel (Nat.le_add_left _ _))).2
  refine ⟨q, t'.leave, hq, congrArg (Option.map CpuState.leave) ht', ?_, ?_,
    h.countsCharges⟩
  · intro hlen
    rw [h.executed, UInt32.le_iff_toNat_le]
    exact Nat.le_trans (Nat.le_min.mpr ⟨Nat.le_refl _, by omega⟩) hx
  · intro hreached
    rw [h.executed] at hreached
    -- the reference has taken the turns of the slices and does not go on
    have hrun : Turns bus.quiet cmos _ t := ht.resolve_left fun h0 =>
      absurd hpos (UInt32.not_lt.mpr (h0.2 ▸ hreached))
    have hend : ¬ t.goesOn := by
      show ¬ t.ctx.executedCycles < t.host.clock.cyclesLimit
      rw [h.executed', h.host.limit']
      exact UInt32.not_lt.mpr hreached
    rw [hrun.loop_unique hend ht']
    exact h.sameOutcome h.reference

/-- Two loads and a branch back to them, in a frame of six cycles. -/
theorem runSlices_sameOutcome_loop :
    let p := CpuInstance.flat 0x300 [0xA9, 0x80, 0xA2, 0x01, 0xD0, 0xFA] 0
    ∃ q r : CpuInstance (Nat → UInt8),
      runSlices Bus.flat true 6 6 [1, 2, 3, 4, 5, 6] (cpuBeginFrame p) = some q ∧
      cpuExecuteSlice Bus.flat.quiet true 6 6 0xFFFFFFFFFFFFFFFF (cpuBeginFrame p)
        = some r ∧
      SameOutcome q r ∧ CountsCharges p q := by
  intro p
  obtain ⟨q, r, hq, hr, hreached, hsame, hcounts⟩ :=
    @runSlices_sameOutcome _ Bus.flat true 6 6 (by decide) (by decide) (by decide)
      [1, 2, 3, 4, 5, 6] p
  exact ⟨q, r, hq, hr, hsame (hreached (by decide)), hcounts⟩

end LinApple.Cpu
