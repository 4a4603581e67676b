import LinApple.Video.Refresh
import Mathlib.Algebra.Group.Nat.Defs

/-!
# The video scanner

The scanner counts clocks and lines in two counters whose bits, through an adder,
are the address of the byte it fetches. The renderer finds the same byte by its
row and its column. In the visible part of a line the two are one address
(`counterAddress_visible`).
-/

namespace LinApple.Video

/-! ## The counters -/

/-- `h_clock_0_state` -/
def hClock0State : Nat := 0x18
/-- `h_clocks` -/
def hClocks : Nat := 65
/-- `h_pe_clock` -/
def hPeClock : Nat := 40
/-- `h_preset_clock` -/
def hPresetClock : Nat := 41
/-- `ntsc_scan_lines` -/
def ntscScanLines : Nat := 262
/-- `pal_scan_lines` -/
def palScanLines : Nat := 312
/-- `v_line_0_state` -/
def vLine0State : Nat := 0x100
/-- `v_preset_line` -/
def vPresetLine : Nat := 256

/-- What `system_state` has of the display standard. -/
structure SystemState where
  /-- `video_scanner_ntsc` -/
  videoScannerNtsc : Bool
  /-- `clks_per_frame` -/
  clksPerFrame : Nat
deriving DecidableEq, Repr

/-- The standard the configuration asks for. -/
def SystemState.configured (isPal : Bool) : SystemState :=
  if isPal then { videoScannerNtsc := false, clksPerFrame := 20280 }
  else { videoScannerNtsc := true, clksPerFrame := 17030 }

/-- A bit of a counter. -/
def bit (n k : Nat) : Nat := (n >>> k) &&& 1

/-- `h_clock` -/
def hClock (cycles : Nat) : Nat := (cycles + hPeClock) % hClocks

/-- `h_state` -/
def hState (cycles : Nat) : Nat :=
  if hPresetClock ≤ hClock cycles then hClock0State + hClock cycles - 1
  else hClock0State + hClock cycles

/-- `v_line` -/
def vLine (cycles : Nat) : Nat := cycles / hClocks

/-- `v_state` -/
def vState (sys : SystemState) (cycles : Nat) : Nat :=
  if vPresetLine ≤ vLine cycles then
    vLine0State + vLine cycles - (if sys.videoScannerNtsc then ntscScanLines else palScanLines)
  else vLine0State + vLine cycles

/-- `sum`, the address bits the adder makes of the counters. -/
def scannerSum (h v : Nat) : Nat :=
  let addend0 := 0x68
  let addend1 := (bit h 5 <<< 5) ||| (bit h 4 <<< 4) ||| (bit h 3 <<< 3)
  let addend2 := (bit v 7 <<< 6) ||| (bit v 6 <<< 5) ||| (bit v 7 <<< 4) ||| (bit v 6 <<< 3)
  (addend0 + addend1 + addend2) &&& (0x0F <<< 3)

/-- `address`, from the two counters, of a picture of high resolution or another. -/
def counterAddress (hires page2 hbl : Bool) (h v : Nat) : Nat :=
  let address := bit h 0 <<< 0
  let address := address ||| bit h 1 <<< 1
  let address := address ||| bit h 2 <<< 2
  let address := address ||| scannerSum h v
  let address := address ||| bit v 3 <<< 7
  let address := address ||| bit v 4 <<< 8
  let address := address ||| bit v 5 <<< 9
  let address := address ||| (if hires then bit v 0 else 1 ^^^ page2.toNat) <<< 10
  let address := address ||| (if hires then bit v 1 else page2.toNat) <<< 11
  if hires then
    address ||| bit v 2 <<< 12 ||| (1 ^^^ page2.toNat) <<< 13 ||| page2.toNat <<< 14
  -- an Apple ][ fetches from elsewhere while the beam returns
  else if hbl then address ||| 1 <<< 12
  else address

/-! ## The scanner -/

section Scanner

variable (sys : SystemState) (ty : Apple2Type) (m : VideoMode) (store80 : Bool)
  (videoCyclesInFrame executedCycles : UInt32)

/-- `cycles`, where in the frame the scanner is. -/
def cyclesInFrame : Nat := (videoCyclesInFrame + executedCycles).toNat % sys.clksPerFrame

/-- Whether the scanner shows a picture of high resolution. -/
def scansHires (cycles : Nat) : Bool :=
  m.hires && !m.text
    && !(m.mixed && bit (vState sys cycles) 7 &&& bit (vState sys cycles) 5 ≠ 0)

/-- **`video_get_scanner_address`**: the address, and what is stored in `vbl_bar_out`,
if anything. -/
def videoGetScannerAddress : UInt16 × Option Bool :=
  if sys.clksPerFrame = 0 then (0, none)
  else
    let cycles := cyclesInFrame sys videoCyclesInFrame executedCycles
    let h := hState cycles
    let v := vState sys cycles
    let hbl := ty.isApple2 && hPeClock ≤ hClock cycles && hClock cycles ≤ hClocks - 1
    (UInt16.ofNat (counterAddress (scansHires sys m cycles) (m.page2 && !store80) hbl h v),
      some (bit v 7 &&& bit v 6 = 0))

/-- `video_get_vbl` -/
def videoGetVbl : Bool :=
  if sys.clksPerFrame = 0 then false
  else 12480 ≤ cyclesInFrame sys videoCyclesInFrame executedCycles

/-- The level `video_check_vbl` puts on the bus: `vbl_bar`. -/
def vblBar : Bool :=
  (videoGetScannerAddress sys ty m store80 videoCyclesInFrame executedCycles).2.getD false

end Scanner

/-! ## Bits and sums -/

theorem bit_eq (n k : Nat) : bit n k = n / 2 ^ k % 2 := by
  rw [bit, Nat.shiftRight_eq_div_pow, Nat.and_one_is_mod]

theorem bit_lt (n k : Nat) : bit n k < 2 := by
  rw [bit_eq]
  exact Nat.mod_lt _ Nat.two_pos

/-- A bit above all the others is added. -/
theorem or_bit_above {a i : Nat} (h : a < 2 ^ i) (b : Nat) :
    a ||| b * 2 ^ i = a + b * 2 ^ i := by
  rw [← Nat.shiftLeft_eq, Nat.or_comm, ← Nat.shiftLeft_add_eq_or_of_lt h, Nat.add_comm]

/-- The seven low bits are the column, in the third of the screen the line is in. -/
theorem low_bits {x v : Nat} (hx : x < 40) (hv : v / 64 % 4 < 3) :
    bit (hClock0State + x) 0 <<< 0 ||| bit (hClock0State + x) 1 <<< 1
        ||| bit (hClock0State + x) 2 <<< 2 ||| scannerSum (hClock0State + x) v
      = 40 * (v / 64 % 4) + x := by
  have hall : ∀ x < 40, ∀ k < 3, bit (hClock0State + x) 0 <<< 0
      ||| bit (hClock0State + x) 1 <<< 1 ||| bit (hClock0State + x) 2 <<< 2
      ||| ((0x68 + ((bit (hClock0State + x) 5 <<< 5) ||| (bit (hClock0State + x) 4 <<< 4)
          ||| (bit (hClock0State + x) 3 <<< 3))
        + (((k / 2) <<< 6) ||| ((k % 2) <<< 5) ||| ((k / 2) <<< 4) ||| ((k % 2) <<< 3)))
        &&& (0x0F <<< 3)) = 40 * k + x := by decide +kernel
  have h6 : bit v 6 = v / 64 % 4 % 2 := by
    rw [bit_eq]
    omega
  have h7 : bit v 7 = v / 64 % 4 / 2 := by
    rw [bit_eq]
    omega
  unfold scannerSum
  rw [h6, h7]
  exact hall x hx _ hv

/-- The page the picture begins at. -/
def pageBase (hires page2 : Bool) : Nat := (if hires then 0x2000 else 0x400) <<< page2.toNat

/-- The three lowest bits of the line are the line of a cell, and the three above them the
row in a third of the screen. -/
theorem rowOffset_eq (line : Nat) :
    rowOffset (line / 8) = line / 8 % 8 * 128 + line / 64 * 40 := by
  have hand : ∀ n, n &&& 7 = n % 8 := fun n => Nat.and_two_pow_sub_one_eq_mod n 3
  rw [rowOffset, hand, Nat.shiftLeft_eq, Nat.shiftRight_eq_div_pow]
  omega

/-- **The counters name the address the renderer finds by row and column.** -/
theorem counterAddress_visible (hires page2 : Bool) {line x : Nat} (hline : line < 192)
    (hx : x < 40) :
    counterAddress hires page2 false (hClock0State + x) (vLine0State + line)
      = pageBase hires page2 + (rowOffset (line / 8) + x)
        + if hires then 0x400 * (line % 8) else 0 := by
  have hthird : (vLine0State + line) / 64 % 4 = line / 64 := by
    unfold vLine0State
    omega
  have hlow := @low_bits x (vLine0State + line) hx (by omega)
  rw [hthird] at hlow
  have hfits : 40 * (line / 64) + x < 128 := by omega
  have hlt := bit_lt (vLine0State + line)
  have hlt0 := hlt 0
  have hlt1 := hlt 1
  have hlt2 := hlt 2
  have hlt3 := hlt 3
  have hlt4 := hlt 4
  have hlt5 := hlt 5
  have hcell : bit (vLine0State + line) 0 + 2 * bit (vLine0State + line) 1
      + 4 * bit (vLine0State + line) 2 = line % 8 := by
    simp only [bit_eq, vLine0State]
    omega
  have hrow : bit (vLine0State + line) 3 + 2 * bit (vLine0State + line) 4
      + 4 * bit (vLine0State + line) 5 = line / 8 % 8 := by
    simp only [bit_eq, vLine0State]
    omega
  unfold counterAddress
  dsimp only
  rw [hlow, rowOffset_eq, ← hcell, ← hrow]
  cases hires <;> cases page2 <;>
    simp (disch := omega) only [or_bit_above, pageBase, Bool.toNat_true, Bool.toNat_false,
      Nat.xor_zero, Nat.xor_self, if_true, if_false, Bool.false_eq_true, Nat.shiftLeft_eq] <;>
    omega

/-! ## The visible part -/

/-- **The scanner is at a column of a line of the picture**: 25 clocks of each line pass
before the first column. -/
def ScansAt (cycles line x : Nat) : Prop :=
  line < 192 ∧ x < 40 ∧ cycles = hClocks * line + 25 + x

section Visible

variable {sys : SystemState} {cycles line x : Nat}

theorem ScansAt.hState_eq (h : ScansAt cycles line x) : hState cycles = hClock0State + x := by
  obtain ⟨-, hx, rfl⟩ := h
  have hclock : hClock (hClocks * line + 25 + x) = x := by
    unfold hClock hClocks hPeClock
    omega
  unfold hState
  rw [hclock, if_neg (by unfold hPresetClock; omega)]

theorem ScansAt.vState_eq (h : ScansAt cycles line x) :
    vState sys cycles = vLine0State + line := by
  obtain ⟨hline, hx, rfl⟩ := h
  have hv : vLine (hClocks * line + 25 + x) = line := by
    unfold vLine hClocks
    omega
  unfold vState
  rw [hv, if_neg (by unfold vPresetLine; omega)]

/-- The last four rows are those where two bits of the line counter are set. -/
theorem bits_mixed (h : line < 192) :
    (bit (vLine0State + line) 7 &&& bit (vLine0State + line) 5 ≠ 0) ↔ 20 ≤ line / 8 := by
  have h5 := bit_eq (vLine0State + line) 5
  have h7 := bit_eq (vLine0State + line) 7
  unfold vLine0State at *
  by_cases hrow : 20 ≤ line / 8
  · rw [show bit (0x100 + line) 5 = 1 by omega, show bit (0x100 + line) 7 = 1 by omega]
    simp [hrow]
  · refine iff_of_false (fun hne => hne ?_) hrow
    rcases Nat.lt_or_ge line 128 with hlt | hge
    · rw [show bit (0x100 + line) 7 = 0 by omega, Nat.zero_and]
    · rw [show bit (0x100 + line) 5 = 0 by omega, Nat.and_zero]

/-! ## The vertical blanking -/

/-- **The blanking is where the two counters say**: the line counter's two upper bits are
both set from line 192 on. -/
theorem vbl_bits (isPal : Bool)
    (h : cycles < (SystemState.configured isPal).clksPerFrame) :
    bit (vState (SystemState.configured isPal) cycles) 7
        &&& bit (vState (SystemState.configured isPal) cycles) 6 = 0
      ↔ cycles < 12480 := by
  have hlines : vState (SystemState.configured isPal) cycles =
      if 256 ≤ cycles / 65 then 256 + cycles / 65 - (if isPal then 312 else 262)
      else 256 + cycles / 65 := by
    cases isPal <;> rfl
  have hclks : (SystemState.configured isPal).clksPerFrame = if isPal then 20280 else 17030 := by
    cases isPal <;> rfl
  have hand : ∀ a < 2, ∀ b < 2, a &&& b = 0 ↔ a + b < 2 := by decide
  rw [hand _ (bit_lt _ _) _ (bit_lt _ _), bit_eq, bit_eq]
  rw [hclks] at h
  cases isPal <;> simp only [if_true, if_false, Bool.false_eq_true] at h hlines <;>
    split_ifs at hlines <;> omega

/-- **`video_get_vbl` and the level at `$C019` agree.** -/
theorem videoGetVbl_eq (isPal : Bool) (ty : Apple2Type) (m : VideoMode) (store80 : Bool)
    (videoCyclesInFrame executedCycles : UInt32) :
    videoGetVbl (SystemState.configured isPal) videoCyclesInFrame executedCycles =
      !vblBar (SystemState.configured isPal) ty m store80 videoCyclesInFrame executedCycles := by
  have hclks : (SystemState.configured isPal).clksPerFrame ≠ 0 := by cases isPal <;> decide
  have hbits := @vbl_bits (cyclesInFrame (SystemState.configured isPal) videoCyclesInFrame
    executedCycles) isPal (Nat.mod_lt _ (Nat.pos_of_ne_zero hclks))
  unfold videoGetVbl vblBar videoGetScannerAddress
  rw [if_neg hclks, if_neg hclks]
  dsimp only [Option.getD_some]
  rw [decide_eq_decide.mpr hbits, ← decide_not, decide_eq_decide, Nat.not_lt]

end Visible

end LinApple.Video
