import LinApple.Debugger.Edits

/-!
# Fills and moves

A range is given in one of three ways. The commands for ranges work two of them out in a copy and
never look into it, so that a fill of such a range and every move do nothing; they do what they
say just where there is nothing to do. A fill from a start to an end does fill the range, the
addresses of the I/O page with the rest, but for the last of all 64K.

How a range is spelled (`RangeForm.Spelled`) says which arguments there are and of which kind, for
the form with two addresses, the one with a length, and the one with a colon, whose ends may come
in either order. What it means is told from the form and the two numbers alone: how many addresses
it has, and which they are (`count`, `place`). The code has its own way from the arguments to the
numbers, and another from the numbers to the loop; the first is right in all forms, and the second
is where the values are left in the copy.

The theorem gives for each command the exact condition, and the conditions look odd because the
commands do. A command that does nothing has done what it should wherever its result was there
before, and no other condition could be exact. For a move the source and the destination are kept
apart, so that there is no question in which order the bytes are moved; and it goes round the end
of memory as addresses do.

A fill leaves alone the I/O page, where a byte cannot be stored, and everything outside the range.
That it also should not touch what lies there otherwise is part of `Filled`, and is where the form
with two addresses fails if its range meets that page.
-/

namespace LinApple.Debugger

open Debugged

/-! ## Ranges as they are typed -/

/-- The ways to give a range. The three are worked out differently, and so each has its own notion
of where the range ends. -/
inductive RangeForm where
  /-- `start end` -/
  | startEnd
  /-- `start,length` -/
  | startLen
  /-- `start:end`, in either order. -/
  | startColonEnd
deriving DecidableEq, Repr

namespace RangeForm

/-- How many arguments give the range. -/
def width : RangeForm → Nat
  | startEnd => 2
  | startLen | startColonEnd => 3

/-- **The arguments give a range**, from one of them on. Only the values and the separators are
asked for: how the numbers were typed is the parser's matter. -/
def Spelled (form : RangeForm) (args : Nat → Arg) (iArg : Nat) (a b : UInt16) : Prop :=
  (args iArg).value = a ∧
    match form with
    | startEnd => (args (iArg + 1)).value = b ∧ (args (iArg + 1)).token = .other
    | startLen => (args (iArg + 1)).token = .comma ∧ (args (iArg + 2)).value = b
    | startColonEnd => (args (iArg + 1)).token = .colon ∧ (args (iArg + 2)).value = b

/-- The first address of a range. -/
def first (form : RangeForm) (a b : UInt16) : Nat :=
  match form with
  | startEnd | startLen => a.toNat
  | startColonEnd => min a.toNat b.toNat

/-- How many addresses a range has. -/
def count (form : RangeForm) (a b : UInt16) : Nat :=
  match form with
  | startEnd => b.toNat + 1 - a.toNat
  | startLen => b.toNat
  | startColonEnd => max a.toNat b.toNat + 1 - min a.toNat b.toNat

/-- **An address of a range**, by its distance from the first. -/
def place (form : RangeForm) (a b : UInt16) (i : Nat) : Nat := (form.first a b + i) % 0x10000

end RangeForm

/-- An address in `[DBG_6502_IO_BEGIN, DBG_6502_IO_END]`. -/
def IsIoPage (i : Nat) : Prop := 0xC000 ≤ i ∧ i ≤ 0xC0FF

instance (i : Nat) : Decidable (IsIoPage i) := inferInstanceAs (Decidable (_ ∧ _))

/-! ## Fills -/

/-- **A range is filled**: each of its addresses outside the I/O page holds the value, and every
other address what it held. -/
def Filled (form : RangeForm) (a b : UInt16) (value : UInt8) (s s' : Debugged) : Prop :=
  (∀ i < form.count a b, ¬ IsIoPage (form.place a b i) → s'.byte (form.place a b i) = value)
    ∧ ∀ j < 0x10000, (∀ i < form.count a b, form.place a b i = j → IsIoPage j) →
      s'.byte j = s.byte j

/-- **Where a fill does what it says**: from a start to an end, where the addresses of the I/O
page hold the value already, and the last address of all 64K; in the other ways, where all of the
range does. -/
def FillFits (form : RangeForm) (a b : UInt16) (value : UInt8) (s : Debugged) : Prop :=
  match form with
  | .startEnd =>
    (∀ i < form.count a b, IsIoPage (form.place a b i) → s.byte (form.place a b i) = value)
      ∧ (a = 0 → b = 0xFFFF → s.byte 0xFFFF = value)
  | .startLen | .startColonEnd =>
    ∀ i < form.count a b, ¬ IsIoPage (form.place a b i) → s.byte (form.place a b i) = value

theorem filled_self_iff (form : RangeForm) (a b : UInt16) (value : UInt8) (s : Debugged) :
    Filled form a b value s s
      ↔ ∀ i < form.count a b, ¬ IsIoPage (form.place a b i) →
        s.byte (form.place a b i) = value :=
  and_iff_left fun _ _ _ => rfl

theorem toUInt8_and_low (v : UInt16) : (v &&& 0xFF).toUInt8 = v.toUInt8 := by
  rw [← UInt8.toNat_inj, UInt16.toNat_toUInt8, UInt16.toNat_toUInt8, UInt16.toNat_and]
  show (v.toNat &&& (2 ^ 8 - 1)) % 256 = _
  rw [Nat.and_two_pow_sub_one_eq_mod]
  exact Nat.mod_mod _ _

/-- A range that is worked out in a copy is not filled. -/
theorem cmdMemoryFill_four (args : Nat → Arg) (s : Debugged) : cmdMemoryFill args 4 s = s := by
  unfold cmdMemoryFill
  split
  · rfl
  · rename_i start address2 endLen hrange
    refine if_neg fun hlen => ?_
    unfold fillRange at hrange
    rw [if_neg (by omega), if_neg (by omega)] at hrange
    dsimp only at hrange
    split at hrange
    · cases hrange
      exact absurd hlen.1 (by decide)
    · cases hrange

/-- **What a fill from a start to an end leaves**: the value in the whole range, but for the last
of 64K. -/
theorem byte_cmdMemoryFill_three (args : Nat → Arg) (s : Debugged) (j : Nat) :
    (cmdMemoryFill args 3 s).byte j
      = if (args 1).value.toNat ≤ j ∧ j ≤ (args 2).value.toNat
          ∧ j < (args 1).value.toNat + 0xFFFF then (args 3).value.toUInt8
        else s.byte j := by
  have hrange : fillRange args 3 = some ((args 1).value, 0, ⟨(args 2).value,
      min 0xFFFF ((args 2).value.toNat - (args 1).value.toNat + 1)⟩) := rfl
  have hend := (args 2).value.toNat_lt
  unfold cmdMemoryFill
  rw [hrange]
  dsimp only
  by_cases hlen : min (0xFFFF : Int) ((args 2).value.toNat - (args 1).value.toNat + 1) > 0
  · rw [if_pos ⟨hlen, UInt16.le_iff_toNat_le.2 (Nat.le_of_lt_succ hend)⟩,
      fillLoop_byte _ _ rfl _ _ _ (by omega), memMarkDirty, byte_markPages, toUInt8_and_low]
    exact if_congr (by omega) rfl rfl
  · rw [if_neg fun h => hlen h.1, if_neg (by omega)]

theorem filled_startEnd_iff (args : Nat → Arg) (s : Debugged) :
    Filled .startEnd (args 1).value (args 2).value (args 3).value.toUInt8 s
        (cmdMemoryFill args 3 s)
      ↔ FillFits .startEnd (args 1).value (args 2).value (args 3).value.toUInt8 s := by
  have hbyte := byte_cmdMemoryFill_three args s
  generalize (args 3).value.toUInt8 = value at hbyte ⊢
  generalize cmdMemoryFill args 3 s = s' at hbyte ⊢
  generalize hgeneric : (args 1).value = a at hbyte ⊢
  generalize hgeneric' : (args 2).value = b at hbyte ⊢
  have ha := a.toNat_lt
  have hb := b.toNat_lt
  have hcount : RangeForm.startEnd.count a b = b.toNat + 1 - a.toNat := rfl
  -- from a start to an end the range cannot wrap: its places are the addresses themselves
  have hplace : ∀ i < RangeForm.startEnd.count a b,
      RangeForm.startEnd.place a b i = a.toNat + i := fun i hi => by
    have hlt : a.toNat + i < 0x10000 := by omega
    exact Nat.mod_eq_of_lt hlt
  have hlast : a = 0 ∧ b = 0xFFFF ↔ a.toNat = 0 ∧ b.toNat = 0xFFFF :=
    and_congr UInt16.toNat_inj.symm UInt16.toNat_inj.symm
  -- the loop stores into the I/O page as well, and stops before `$FFFF` for the whole memory
  constructor
  · rintro ⟨hfilled, hrest⟩
    refine ⟨fun i hi hio => ?_, fun ha0 hbF => ?_⟩
    · have hkept := hrest (RangeForm.startEnd.place a b i) (Nat.mod_lt _ (by decide))
        fun _ _ _ => hio
      rw [← hkept, hbyte, if_pos]
      rw [hplace i hi] at hio ⊢
      unfold IsIoPage at hio
      omega
    · obtain ⟨hzero, hfull⟩ := hlast.1 ⟨ha0, hbF⟩
      have hi : 0xFFFF < RangeForm.startEnd.count a b := by omega
      have hval := hfilled 0xFFFF hi
      rw [hplace _ hi, hzero, Nat.zero_add, hbyte, if_neg (by omega)] at hval
      exact hval (by decide)
  · rintro ⟨hio, hfull⟩
    refine ⟨fun i hi hnot => ?_, fun j hj hout => ?_⟩
    · rw [hbyte]
      split
      · rfl
      · rename_i hout
        rw [hplace i hi] at hout ⊢
        rw [show a.toNat + i = 0xFFFF by omega]
        exact hfull (hlast.2 (by omega)).1 (hlast.2 (by omega)).2
    · rw [hbyte]
      split
      · rename_i hin
        have hi : j - a.toNat < RangeForm.startEnd.count a b := by omega
        have heq : RangeForm.startEnd.place a b (j - a.toNat) = j := by
          rw [hplace _ hi]
          omega
        have hval := hio _ hi (heq.symm ▸ hout _ hi heq)
        rw [heq] at hval
        exact hval.symm
      · rfl

/-! ## Moves -/

/-- Where a byte of the range goes. -/
def moveTarget (dst : UInt16) (i : Nat) : Nat := (dst.toNat + i) % 0x10000

/-- **A range is moved**: the bytes are at the destination, and no other byte is changed. -/
def Moved (form : RangeForm) (a b dst : UInt16) (s s' : Debugged) : Prop :=
  (∀ i < form.count a b, s'.byte (moveTarget dst i) = s.byte (form.place a b i))
    ∧ ∀ j < 0x10000, (∀ i < form.count a b, moveTarget dst i ≠ j) → s'.byte j = s.byte j

/-- The destination does not meet the range, nor the I/O page. A move goes upwards one byte at a
time, so it would read what it has written where the two meet; and a byte that is stored in the
I/O page is not one that can be read there. -/
def Apart (form : RangeForm) (a b dst : UInt16) : Prop :=
  ∀ i < form.count a b, ¬ IsIoPage (moveTarget dst i)
    ∧ ∀ k < form.count a b, moveTarget dst i ≠ form.place a b k

/-- **Fills and moves do what they say** just where their ways of doing nothing, or too much, do
not show: a fill from a start to an end where the I/O page in the range, and the last address of a
fill of all 64K, hold the value already; every other fill and every move where there is nothing to
do. -/
theorem fill_and_move (form : RangeForm) (args : Nat → Arg) (a b : UInt16) (s : Debugged) :
    (form.Spelled args 1 a b →
        (Filled form a b (args (form.width + 1)).value.toUInt8 s
            (cmdMemoryFill args (form.width + 1) s)
          ↔ FillFits form a b (args (form.width + 1)).value.toUInt8 s))
      ∧ (form.Spelled args 2 a b → Apart form a b (args 1).value →
        (Moved form a b (args 1).value s (cmdMemoryMove args (form.width + 1) s)
          ↔ ∀ i < form.count a b,
            s.byte (moveTarget (args 1).value i) = s.byte (form.place a b i))) := by
  constructor
  · intro hspelled
    cases form with
    | startEnd =>
      obtain ⟨rfl, rfl, -⟩ := hspelled
      exact filled_startEnd_iff args s
    | startLen =>
      show Filled _ _ _ _ s (cmdMemoryFill args 4 s) ↔ _
      rw [cmdMemoryFill_four]
      exact filled_self_iff ..
    | startColonEnd =>
      show Filled _ _ _ _ s (cmdMemoryFill args 4 s) ↔ _
      rw [cmdMemoryFill_four]
      exact filled_self_iff ..
  · rintro - -
    rw [cmdMemoryMove_eq]
    exact and_iff_left fun _ _ _ => rfl

/-- The arguments `300 3FF 41`. -/
def pageArgs : Nat → Arg
  | 1 => ⟨0x300, .other, false, false, []⟩
  | 2 => ⟨0x3FF, .other, false, false, []⟩
  | _ => ⟨0x41, .other, false, false, []⟩

/-- The arguments `2000 300:3FF`. -/
def moveArgs : Nat → Arg
  | 1 => ⟨0x2000, .other, false, false, []⟩
  | 2 => ⟨0x300, .other, false, false, []⟩
  | 3 => ⟨0, .colon, false, false, []⟩
  | _ => ⟨0x3FF, .other, false, false, []⟩

/-- A blank memory with a value at `$0300`. -/
def Debugged.marked : Debugged := Debugged.blank.poke 0x300 0x55

/-- A page of the marked memory is filled, but it is not moved. -/
theorem fill_and_move_page :
    Filled .startEnd 0x300 0x3FF 0x41 .marked (cmdMemoryFill pageArgs 3 .marked)
      ∧ ¬ Moved .startColonEnd 0x300 0x3FF 0x2000 .marked (cmdMemoryMove moveArgs 4 .marked) := by
  have hcount : RangeForm.startColonEnd.count 0x300 0x3FF = 0x100 := rfl
  refine ⟨((fill_and_move .startEnd pageArgs 0x300 0x3FF .marked).1 ⟨rfl, rfl, rfl⟩).2
      ⟨fun i hi hio => absurd hio ?_, fun h => absurd h (by decide)⟩,
    fun hmoved => absurd (((fill_and_move .startColonEnd moveArgs 0x300 0x3FF .marked).2
      ⟨rfl, rfl, rfl⟩ fun i hi => ⟨?_, fun k hk => ?_⟩).1 hmoved 0 (by decide)) (by decide)⟩
  · revert i
    decide +kernel
  · show ¬ (0xC000 ≤ (0x2000 + i) % 0x10000 ∧ (0x2000 + i) % 0x10000 ≤ 0xC0FF)
    omega
  · show (0x2000 + i) % 0x10000 ≠ (0x300 + k) % 0x10000
    omega

/-- The arguments `300,2`, and a comma before a number. -/
def lengthArgs : Nat → Arg
  | 1 => ⟨0x300, .other, false, false, []⟩
  | 2 => ⟨0, .comma, false, false, []⟩
  | 3 => ⟨2, .other, false, false, []⟩
  | _ => ⟨0x41, .other, false, false, []⟩

/-- `F 300,2 41` does not store anything. -/
theorem not_fill_and_move :
    ¬ ∀ (form : RangeForm) (args : Nat → Arg) (a b : UInt16) (s : Debugged),
      (form.Spelled args 1 a b →
          Filled form a b (args (form.width + 1)).value.toUInt8 s
            (cmdMemoryFill args (form.width + 1) s))
        ∧ (form.Spelled args 2 a b → Apart form a b (args 1).value →
          Moved form a b (args 1).value s (cmdMemoryMove args (form.width + 1) s)) := by
  intro h
  have hfilled := (h .startLen lengthArgs 0x300 2 .blank).1 ⟨rfl, rfl, rfl⟩
  have hbyte := hfilled.1 0 (by decide) (by decide)
  rw [show cmdMemoryFill lengthArgs (RangeForm.startLen.width + 1) .blank = .blank from
    cmdMemoryFill_four ..] at hbyte
  exact absurd hbyte (by decide)

end LinApple.Debugger
