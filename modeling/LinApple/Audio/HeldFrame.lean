import LinApple.Audio.SampleQueue
import Mathlib.Logic.Function.Iterate

/-!
# What the audio thread puts out

A drain mixes in what it has taken, and fades the last frame into what is left. It looks for that
frame in the ring after it has given it back, while the emulation goes on uploading; still, what
it puts out is what the samples it took and the frame it held say (`plays_run`).

`Plays` goes through what a run shows from its beginning, and keeps two things: the frame that is
held, and the samples that have been taken since the last drain was over. A drain must put out
exactly its destination with those samples mixed in, and behind them the held frame, faded once
more for each frame put out; the last frame taken becomes the one that is held. A silencing
puts zero in its place, and what an upload, a skip or a flush shows changes neither. So what is
right is told by the outputs alone, from the front, and the state of the program does not come in.

The frame is looked up by its cells and not by its samples. By then the drain has stored its read
index, and the emulation may write to whatever lies behind it, in the time between the two reads
as well. That it does not write to these two cells is not luck: an upload leaves a frame of room
in front of the read index, always, and the frame lies there. This is the part that rests on the
module before, and the reason why a run is cut into single accesses here too.

How samples are added and faded is a parameter (`SampleArithmetic`), of which nothing is assumed;
counts at 16-bit scale are the instance that the example plays. Calls carry whole frames, and the
rate is one for which there is a ring.
-/

namespace LinApple.Audio

variable {F : Type} {arith : SampleArithmetic F}

/-- **The frame that fades**: the last that was taken, or the one that was held. -/
def fadingFrame (held : F × F) (got : List F) : F × F :=
  ((got[got.length - 2]?).getD held.1, (got[got.length - 1]?).getD held.2)

/-- **What a drain is to put out**: the samples it took, and then the frame, decayed once more
with each frame that goes out. -/
def played (arith : SampleArithmetic F) (held : F × F) (dest got : List F) : List F :=
  List.zipWith arith.mix dest got ++ (dest.drop got.length).mapIdx fun i x =>
    arith.mix x (arith.decay^[i / 2 + 1]
      (if i % 2 = 0 then (fadingFrame held got).1 else (fadingFrame held got).2))

/-- The frame that is held after a drain. -/
def heldAfter (arith : SampleArithmetic F) (held : F × F) (dest got : List F) : F × F :=
  (arith.decay^[((dest.drop got.length).length + 1) / 2] (fadingFrame held got).1,
    arith.decay^[((dest.drop got.length).length + 1) / 2] (fadingFrame held got).2)

/-- **Outputs that are as they should be**, for a frame that is held and samples that a drain
under way has taken. -/
def Plays (arith : SampleArithmetic F) : F × F → List F → List (Output F) → Prop
  | _, _, [] => True
  | _, took, .silenced :: os => Plays arith (arith.zero, arith.zero) took os
  | held, _, .taken xs :: os => Plays arith held xs os
  | held, took, .drained dest got mixed :: os =>
    got = took ∧ mixed = played arith held dest took
      ∧ Plays arith (heldAfter arith held dest took) [] os
  | held, took, .accepted _ :: os => Plays arith held took os
  | held, took, .skipped _ :: os => Plays arith held took os
  | held, took, .flushed :: os => Plays arith held took os

/-! ## The tail -/

/-- **The tail**, sample by sample. -/
theorem fade_eq (left right : F) (rest : List F) :
    fade arith left right rest
      = ((arith.decay^[(rest.length + 1) / 2] left, arith.decay^[(rest.length + 1) / 2] right),
        rest.mapIdx fun i x =>
          arith.mix x (arith.decay^[i / 2 + 1] (if i % 2 = 0 then left else right))) := by
  induction left, right, rest using fade.induct arith with
  | case1 left right => simp [fade]
  | case2 left right x => simp [fade]
  | case3 left right x y rest ih =>
    have hlength : (rest.length + 1 + 1 + 1) / 2 = (rest.length + 1) / 2 + 1 := by omega
    have hplace : ∀ i, (i + 1 + 1) / 2 = i / 2 + 1 ∧ (i + 1 + 1) % 2 = i % 2 := by omega
    rw [fade, ih]
    simp [hlength, hplace, Function.iterate_succ_apply, apply_ite arith.decay]

/-! ## The frame that is held -/

/-- **The audio thread holds the frame**, or has what it took to find the next. -/
def Mixing.Holds (s : Mixing F) (held : F × F) (took : List F) : Prop :=
  match s.consumer with
  | .released _ _ got => got = took
  | .leftRead _ _ got => got = took
  | _ => (s.sb.lastLeft, s.sb.lastRight) = held ∧ took = []

namespace Mixing.Sound

variable {s : Mixing F} {lag : Nat} {q : List F} {held : F × F} {took : List F}

/-- **The end of a drain.** -/
theorem holds_finish (arith : SampleArithmetic F) (s : Mixing F) (sb : SampleBuffer F)
    {dest got : List F} (hdest : got.length ≤ dest.length)
    (hframe : (sb.lastLeft, sb.lastRight) = fadingFrame held got) :
    ∃ held' took', (s.finish arith sb dest (mixedInto arith dest got) got).1.Holds held' took'
      ∧ ∀ os, Plays arith held' took' os → Plays arith held got
        ((s.finish arith sb dest (mixedInto arith dest got) got).2.toList ++ os) := by
  have hleft : sb.lastLeft = (fadingFrame held got).1 := congrArg Prod.fst hframe
  have hright : sb.lastRight = (fadingFrame held got).2 := congrArg Prod.snd hframe
  have hzip : (List.zipWith arith.mix dest got).length = got.length := by
    rw [List.length_zipWith]
    omega
  have hdrop : (mixedInto arith dest got).drop got.length = dest.drop got.length :=
    List.drop_left' hzip
  have htake : (mixedInto arith dest got).take got.length = List.zipWith arith.mix dest got :=
    List.take_left' hzip
  refine ⟨heldAfter arith held dest got, [], ?_, fun os hos => ⟨rfl, ?_, hos⟩⟩
  · refine ⟨?_, rfl⟩
    show ((fade arith _ _ _).1.1, (fade arith _ _ _).1.2) = _
    rw [fade_eq, hdrop, hleft, hright]
    rfl
  · rw [fade_eq, hdrop, htake, hleft, hright]
    rfl

theorem holds_consume (hs : s.Sound arith lag q) (h : s.Holds held took) :
    ∃ held' took', (s.consume arith).1.Holds held' took'
      ∧ ∀ os, Plays arith held' took' os → Plays arith held took ((s.consume arith).2.toList ++ os) := by
  obtain ⟨sb, p, c⟩ := s
  cases c with
  | idle => exact ⟨held, took, h, fun os hos => hos⟩
  | flushing => exact ⟨held, took, h, fun os hos => hos⟩
  | flushTo w => exact ⟨(arith.zero, arith.zero), took, ⟨rfl, h.2⟩, fun os hos => hos⟩
  | skipping num => exact ⟨held, took, h, fun os hos => hos⟩
  | draining dest mixed num got =>
    rw [Mixing.consume]
    dsimp only
    split
    · exact ⟨held, took, h, fun os hos => hos⟩
    · exact ⟨held, got, rfl, fun os hos => hos⟩
  | released dest mixed got => exact ⟨held, took, h, fun os hos => hos⟩
  | leftRead dest mixed got =>
    obtain rfl : got = took := h
    obtain ⟨rfl, heven, hpos, hdest, rfl, hleft, hright⟩ := hs.consumer
    refine holds_finish arith _ _ hdest ?_
    have hread : sb.readIndex < sb.size := hs.read_lt
    rw [fadingFrame, hleft, ← hright, SampleBuffer.lastRIdx_eq hread, List.getD_eq_getElem?_getD]
    dsimp only at hright ⊢
    rw [hright, List.getElem?_eq_getElem (by omega : got.length - 1 < got.length)]
    rfl

/-- **One step** puts out what it should. -/
theorem holds_step (hs : s.Sound arith lag q) (h : s.Holds held took) (a : Act F) :
    ∃ held' took', (s.step arith a).1.Holds held' took'
      ∧ ∀ os, Plays arith held' took' os → Plays arith held took ((s.step arith a).2.toList ++ os) := by
  obtain ⟨sb, p, c⟩ := s
  have hsame : ∃ held' took', (⟨sb, p, c⟩ : Mixing F).Holds held' took'
      ∧ ∀ os, Plays arith held' took' os → Plays arith held took os :=
    ⟨held, took, h, fun os hos => hos⟩
  -- the producer's steps leave the ring's consumed side alone, so the held frame is the same; only
  -- the consumer's own steps move it
  cases a with
  | upload src =>
    cases p with
    | copying samples left => exact hsame
    | idle =>
      rw [Mixing.step]
      dsimp only
      split <;> exact hsame
  | copy i =>
    cases p with
    | idle => exact hsame
    | copying samples left =>
      rw [Mixing.step]
      dsimp only
      split <;> exact hsame
  | publish =>
    cases p with
    | idle => exact hsame
    | copying samples left => cases left <;> exact hsame
  | requestFlush => exact hsame
  | consume => exact hs.holds_consume h
  | checkFlush =>
    cases c with
    | idle =>
      rw [Mixing.step]
      dsimp only
      split <;> exact hsame
    | _ => exact hsame
  | skip len =>
    cases c with
    | idle =>
      rw [Mixing.step]
      dsimp only
      split <;> exact hsame
    | _ => exact hsame
  | silence =>
    cases c with
    | idle => exact ⟨(arith.zero, arith.zero), took, ⟨rfl, h.2⟩, fun os hos => hos⟩
    | _ => exact hsame
  | drain dest =>
    cases c with
    | idle =>
      rw [Mixing.step]
      dsimp only
      split
      case isFalse => exact hsame
      case isTrue =>
        obtain ⟨hheld, rfl⟩ := h
        have hnone : ([] : List F).length ≤ dest.length := Nat.zero_le _
        have hfinish := holds_finish arith ⟨sb, p, .idle⟩ sb hnone hheld
        rwa [mixedInto_nil] at hfinish
    | _ => exact hsame

end Mixing.Sound

/-- **What the audio thread puts out** is what the samples it took and the frame it held say,
whatever the emulation does meanwhile. The outputs are taken from the whole run, interleaved as
they come; those of uploads, skips and flushes tell `Plays` nothing, so what is heard is a function
of the drains. -/
theorem plays_run (arith : SampleArithmetic F) {rate : UInt32} (hrate : capacitySamples rate ≠ 0)
    {as : List (Act F)} (has : ∀ a ∈ as, a.Frames) :
    Plays arith (arith.zero, arith.zero) []
      ((mixingMachine arith).shows (.new arith (capacitySamples rate)) as) := by
  have hrun : ∀ (s : Mixing F) (lag : Nat) (q : List F) (held : F × F) (took : List F),
      s.Sound arith lag q → s.Holds held took → Plays arith held took ((mixingMachine arith).shows s as) := by
    induction as with
    | nil => exact fun s lag q held took hs h => trivial
    | cons a as ih =>
      intro s lag q held took hs h
      obtain ⟨held', took', hnext, hplays⟩ := hs.holds_step h a
      obtain ⟨ess, q', -, -, lag', hs'⟩ := hs.step (has a (List.mem_cons_self ..))
      exact hplays _ (ih (fun b hb => has b (List.mem_cons_of_mem _ hb)) _ lag' q' held' took' hs' hnext)
  exact hrun _ 0 [] _ [] (.new (Nat.pos_of_ne_zero hrate) (capacitySamples_mod rate)) ⟨rfl, rfl⟩

/-- A drain with a sample too many to play, between two frames. -/
theorem plays_run_frames : Plays pcmArithmetic (0, 0) []
    ((mixingMachine pcmArithmetic).shows (.new pcmArithmetic (capacitySamples 22)) twoFrames) :=
  plays_run pcmArithmetic (by decide) (by decide)

example : (mixingMachine pcmArithmetic).shows (.new pcmArithmetic (capacitySamples 22)) twoFrames
    = [.accepted [3000, -3000], .taken [3000, -3000], .accepted [5000, 5000],
      .drained [0, 0, 0, 0] [3000, -3000] [3000, -3000, 2200, -2200]] := by decide

end LinApple.Audio
