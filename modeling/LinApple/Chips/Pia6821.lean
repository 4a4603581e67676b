import Mathlib.Tactic.Common
import LinApple.Lib.Sizes

/-!
# The 6821

A peripheral interface adapter: two ports of eight lines, each with a data
direction register behind its output register. Its control lines are not
connected on the cards here, so their inputs never change.
-/

namespace LinApple.Chips

/-! ## The chip -/

/-- **`Pia6821`** -/
structure Pia6821 where
  /-- `ora` -/
  ora : UInt8
  /-- `orb` -/
  orb : UInt8
  /-- `ddra` -/
  ddra : UInt8
  /-- `ddrb` -/
  ddrb : UInt8
  /-- `cra` -/
  cra : UInt8
  /-- `crb` -/
  crb : UInt8
  /-- `port_a_in` -/
  portAIn : UInt8
  /-- `port_b_in` -/
  portBIn : UInt8
  /-- `oca2` -/
  oca2 : Bool
  /-- `ocb2` -/
  ocb2 : Bool
  /-- `irq_a_state` -/
  irqAState : Bool
  /-- `irq_b_state` -/
  irqBState : Bool
deriving DecidableEq, Repr

/-- `pia_6821_reset` -/
def Pia6821.reset : Pia6821 := ⟨0, 0, 0, 0, 0, 0, 0xFF, 0xFF, false, false, false, false⟩

/-- What a port's listener is told of. -/
inductive PiaOutput where
  /-- `out_a` -/
  | a (data : UInt8)
  /-- `out_b` -/
  | b (data : UInt8)

/-- `cra_mask::irq1`, which is also `crb_mask::irq1`; so with the others. -/
def piaIrq1 : UInt8 := 0x80
/-- `cra_mask::irq2` -/
def piaIrq2 : UInt8 := 0x40
/-- `cra_mask::ca2_out` -/
def piaC2Out : UInt8 := 0x20
/-- `cra_mask::ca2_sel` -/
def piaC2Sel : UInt8 := 0x10
/-- `cra_mask::ca2_lvl` -/
def piaC2Lvl : UInt8 := 0x08
/-- `cra_mask::ddr_sel` -/
def piaDdrSel : UInt8 := 0x04
/-- `cra_mask::ca1_en` -/
def piaC1En : UInt8 := 0x01

/-- The interrupt output of a port, by its control register. -/
def piaIrq (cr : UInt8) : Bool :=
  (cr &&& piaIrq1 ≠ 0 && cr &&& piaC1En ≠ 0) ||
    (cr &&& piaIrq2 ≠ 0 && cr &&& piaC2Out = 0 && cr &&& piaC2Lvl ≠ 0)

namespace Pia6821

variable (p : Pia6821)

/-- `update_interrupts` -/
def updateInterrupts : Pia6821 :=
  { p with irqAState := piaIrq p.cra, irqBState := piaIrq p.crb }

/-- The pulse of CA2 or CB2 after an access of its port. -/
def pulse (cr : UInt8) (pin : Bool) : Bool :=
  if cr &&& (piaC2Out ||| piaC2Sel) = piaC2Out then cr &&& piaC2Lvl ≠ 0 else pin

/-- The level that a control register puts on CA2 or CB2. -/
def drive (cr : UInt8) (pin : Bool) : Bool :=
  if cr &&& piaC2Out ≠ 0 ∧ cr &&& piaC2Sel ≠ 0 then cr &&& piaC2Lvl ≠ 0 else pin

/-- A control register after `val` has been written to it. -/
def control (cr val : UInt8) : UInt8 := (cr &&& 0xC0) ||| (val &&& 0x3F)

/-- **`pia_6821_read`** -/
def pia6821Read (addr : Fin 4) : UInt8 × Pia6821 :=
  match addr with
  | 0 =>
    if p.cra &&& piaDdrSel = 0 then (p.ddra, p)
    else
      let p := { p with cra := p.cra &&& ~~~(piaIrq1 ||| piaIrq2) }.updateInterrupts
      (p.portAIn, { p with oca2 := pulse p.cra p.oca2 })
  | 1 => (if p.cra &&& piaC2Out ≠ 0 then p.cra &&& ~~~piaIrq2 else p.cra, p)
  | 2 =>
    if p.crb &&& piaDdrSel = 0 then (p.ddrb, p)
    else
      let p := { p with crb := p.crb &&& ~~~(piaIrq1 ||| piaIrq2) }.updateInterrupts
      ((p.orb &&& p.ddrb) ||| (p.portBIn &&& ~~~p.ddrb), p)
  | 3 => (if p.crb &&& piaC2Out ≠ 0 then p.crb &&& ~~~piaIrq2 else p.crb, p)

/-- **`pia_6821_write`**, and what it tells a listener. CB2, whose pin no listener
looks at, is seen to first. -/
def pia6821Write (addr : Fin 4) (val : UInt8) : Pia6821 × Option PiaOutput :=
  match addr with
  | 0 =>
    if p.cra &&& piaDdrSel = 0 then ({ p with ddra := val }, none)
    else ({ p with ora := val }, some (.a (val &&& p.ddra)))
  | 1 =>
    let p := { p with cra := control p.cra val }
    ({ p with oca2 := drive p.cra p.oca2 }.updateInterrupts, none)
  | 2 =>
    if p.crb &&& piaDdrSel = 0 then ({ p with ddrb := val }, none)
    else ({ p with orb := val, ocb2 := pulse p.crb p.ocb2 }, some (.b (val &&& p.ddrb)))
  | 3 =>
    let p := { p with crb := control p.crb val }
    ({ p with ocb2 := drive p.crb p.ocb2 }.updateInterrupts, none)

/-- `pia_6821_set_port_a` -/
def pia6821SetPortA (val : UInt8) : Pia6821 := { p with portAIn := val }

/-- `pia_6821_set_port_b` -/
def pia6821SetPortB (val : UInt8) : Pia6821 := { p with portBIn := val }

variable {p} in
/-- Port A's direction is written. -/
theorem pia6821Write_direction (h : p.cra &&& piaDdrSel = 0) (val : UInt8) :
    p.pia6821Write 0 val = ({ p with ddra := val }, none) := if_pos h

variable {p} in
/-- Port A's data are written. -/
theorem pia6821Write_data (h : p.cra &&& piaDdrSel ≠ 0) (val : UInt8) :
    p.pia6821Write 0 val = ({ p with ora := val }, some (.a (val &&& p.ddra))) := if_neg h

variable {p} in
/-- Port B's data are written. -/
theorem pia6821Write_dataB (h : p.crb &&& piaDdrSel ≠ 0) (val : UInt8) : p.pia6821Write 2 val
    = ({ p with orb := val, ocb2 := pulse p.crb p.ocb2 }, some (.b (val &&& p.ddrb))) := if_neg h

variable {p} in
/-- Port B's direction is written. -/
theorem pia6821Write_directionB (h : p.crb &&& piaDdrSel = 0) (val : UInt8) :
    p.pia6821Write 2 val = ({ p with ddrb := val }, none) := if_pos h

/-! ## What an access leaves alone -/

/-- A read leaves what the card drives alone. -/
theorem pia6821Read_ports (addr : Fin 4) :
    (p.pia6821Read addr).2.portBIn = p.portBIn := by
  unfold pia6821Read
  split
  · split_ifs <;> rfl
  · rfl
  · split_ifs <;> rfl
  · rfl

/-- So does a write. -/
theorem pia6821Write_ports (addr : Fin 4) (val : UInt8) :
    (p.pia6821Write addr val).1.portBIn = p.portBIn := by
  unfold pia6821Write
  split
  · split_ifs <;> rfl
  · rfl
  · split_ifs <;> rfl
  · rfl

end Pia6821

end LinApple.Chips
