import LinApple.Lib.Fifo

/-!
# The ring between the emulation and the audio thread

The emulation uploads samples to a ring and the audio thread drains them, with no lock between
them: each index has one thread that stores it. What one thread does between two looks at what the
other may change is a step, and the steps of the two come in any order.

A thread's own index is loaded with the next thing it does, since no other thread stores it. The
arithmetic of samples is a parameter.
-/

namespace LinApple.Audio

variable {F : Type}

/-! ## The ring -/

/-- **The arithmetic of samples.** Floating point is a parameter, since what is proved of the ring
holds whatever the sums are. No law is asked of the operations. -/
structure SampleArithmetic (F : Type) where
  /-- `0.0F` -/
  zero : F
  /-- `flush_denormal` of a sum. -/
  mix : F → F → F
  /-- `decay_sample` by `fade_step`. -/
  decay : F → F

/-- **`SampleBuffer`** -/
structure SampleBuffer (F : Type) where
  /-- `buffer` -/
  buffer : List F
  /-- `read_index` -/
  readIndex : Nat
  /-- `write_index` -/
  writeIndex : Nat
  /-- `flush_gen` -/
  flushGen : UInt32
  /-- `acked_flush_gen` -/
  ackedFlushGen : UInt32
  /-- `last_left` -/
  lastLeft : F
  /-- `last_right` -/
  lastRight : F
deriving DecidableEq

/-- `n & ~1` -/
def evenPart (n : Nat) : Nat := n - n % 2

/-- `capacity_samples` at an output rate. -/
def capacitySamples (rate : UInt32) : Nat := evenPart (rate.toNat * 185 / 1000 * 2)

namespace SampleBuffer

/-- `sample_buffer_reinit` -/
def reinit (arith : SampleArithmetic F) (capacity : Nat) : SampleBuffer F where
  buffer := List.replicate capacity arith.zero
  readIndex := 0
  writeIndex := 0
  flushGen := 0
  ackedFlushGen := 0
  lastLeft := arith.zero
  lastRight := arith.zero

variable (sb : SampleBuffer F)

/-- `buffer.size()` -/
abbrev size : Nat := sb.buffer.length

/-- `sample_buffer_get_filled` -/
def getFilled : Nat :=
  if sb.size = 0 then 0
  else if sb.readIndex ≤ sb.writeIndex then sb.writeIndex - sb.readIndex
  else sb.size + sb.writeIndex - sb.readIndex

/-- `sample_buffer_get_free` -/
def getFree : Nat :=
  if sb.size = 0 then 0
  else if sb.getFilled ≥ sb.size - 1 then 0
  else sb.size - 1 - sb.getFilled

/-- The samples that an upload takes, of so many. -/
def uploadCount (len : Nat) : Nat := if len < sb.getFree then len else evenPart sb.getFree

/-- The samples that a drain takes, of so many. -/
def drainCount (len : Nat) : Nat := if len < sb.getFilled then len else evenPart sb.getFilled

/-- The samples that `sample_buffer_skip` skips, of so many. -/
def skipCount (len : Nat) : Nat := evenPart (if len < sb.getFilled then len else sb.getFilled)

/-- The cell of a sample, of those from an index on: the second piece is from the
beginning on. -/
def cellFrom (index i : Nat) : Nat :=
  if i < sb.size - index then index + i else i - (sb.size - index)

/-- The index after so many samples. -/
def indexAfter (index num : Nat) : Nat :=
  if index + num < sb.size then index + num else num - (sb.size - index)

/-- `buffer[cell] = x` -/
def store (cell : Nat) (x : F) : SampleBuffer F := { sb with buffer := sb.buffer.set cell x }

section Store

variable (cell : Nat) (x : F)

@[simp] theorem size_store : (sb.store cell x).size = sb.size := List.length_set

@[simp] theorem readIndex_store : (sb.store cell x).readIndex = sb.readIndex := rfl

@[simp] theorem writeIndex_store : (sb.store cell x).writeIndex = sb.writeIndex := rfl

@[simp] theorem lastLeft_store : (sb.store cell x).lastLeft = sb.lastLeft := rfl

end Store

/-- `last_r_idx` -/
def lastRIdx : Nat := if sb.readIndex > 0 then sb.readIndex - 1 else sb.size - 1

/-- `last_l_idx` -/
def lastLIdx : Nat := if sb.lastRIdx > 0 then sb.lastRIdx - 1 else sb.size - 1

end SampleBuffer

/-- **The tail of a drain**, which fades from the frame that is held: the frame that is held
then, and what is put out. -/
def fade (arith : SampleArithmetic F) : F → F → List F → (F × F) × List F
  | left, right, [] => ((left, right), [])
  | left, right, [x] =>
    ((arith.decay left, arith.decay right), [arith.mix x (arith.decay left)])
  | left, right, x :: y :: rest =>
    let faded := fade arith (arith.decay left) (arith.decay right) rest
    (faded.1, arith.mix x (arith.decay left) :: arith.mix y (arith.decay right) :: faded.2)

/-! ## The threads -/

/-- **Where the emulation is**, in an upload or between uploads. -/
inductive Producer (F : Type) where
  /-- Between uploads. -/
  | idle
  /-- `memcpy` of the samples that are taken, in any order: these are left. -/
  | copying (samples : List F) (left : List Nat)
deriving DecidableEq

/-- **Where the audio thread is.** A drain keeps what it was given to mix into, what has been
mixed, and what has been read. -/
inductive Consumer (F : Type) where
  /-- Between operations. -/
  | idle
  /-- `sample_buffer_check_flush`, before the load of `write_index`. -/
  | flushing
  /-- `sample_buffer_check_flush`, before the store of `read_index`. -/
  | flushTo (w : Nat)
  /-- `sample_buffer_skip`, before the store of `read_index`. -/
  | skipping (num : Nat)
  /-- `sample_buffer_drain_to`, reading so many samples. -/
  | draining (dest mixed : List F) (num : Nat) (got : List F)
  /-- `sample_buffer_drain_to`, before the read of `last_left`. -/
  | released (dest mixed got : List F)
  /-- `sample_buffer_drain_to`, before the read of `last_right`. -/
  | leftRead (dest mixed got : List F)
deriving DecidableEq

/-- **The ring and its two threads.** -/
structure Mixing (F : Type) where
  /-- The ring. -/
  sb : SampleBuffer F
  /-- The emulation. -/
  producer : Producer F
  /-- The audio thread. -/
  consumer : Consumer F
deriving DecidableEq

/-- **What a thread does next.** A call is cut where another thread can come between: where it
looks at an index, at each sample it copies, and where it stores an index. So a step is an action
on one shared variable, and a run of steps is any order in which the two threads may meet. -/
inductive Act (F : Type) where
  /-- `sample_buffer_upload` is called, and looks how much room there is. -/
  | upload (src : List F)
  /-- One of the samples is copied. -/
  | copy (i : Nat)
  /-- `write_index` is stored. -/
  | publish
  /-- `sample_buffer_request_flush` -/
  | requestFlush
  /-- `sample_buffer_check_flush` is called, and looks at `flush_gen`. -/
  | checkFlush
  /-- `sample_buffer_skip` is called, and looks how much there is. -/
  | skip (len : Nat)
  /-- `sample_buffer_drain_to` is called to mix, and looks how much there is. -/
  | drain (dest : List F)
  /-- The frame that is held is silenced, as where no source has samples. -/
  | silence
  /-- The audio thread goes on with what it was called for. -/
  | consume
deriving DecidableEq

/-- **What is heard of it.** These are the points at which a call has an effect on the contents of
the ring; the steps between them, such as the copy of a single sample, are not heard. -/
inductive Output (F : Type) where
  /-- The samples that an upload has put in. -/
  | accepted (xs : List F)
  /-- The samples that a drain has taken out. -/
  | taken (xs : List F)
  /-- So many samples were skipped. -/
  | skipped (num : Nat)
  /-- What there is goes. -/
  | flushed
  /-- The frame that is held is silenced. -/
  | silenced
  /-- A drain is over: what it was given, what it took and what it put out. -/
  | drained (dest got mixed : List F)
deriving DecidableEq

namespace Mixing

variable (arith : SampleArithmetic F) (s : Mixing F)

/-- The threads with a ring that is new. -/
def new (capacity : Nat) : Mixing F := ⟨.reinit arith capacity, .idle, .idle⟩

/-- The end of a drain: what is left is faded. -/
def finish (sb : SampleBuffer F) (dest mixed got : List F) : Mixing F × Option (Output F) :=
  let faded := fade arith sb.lastLeft sb.lastRight (mixed.drop got.length)
  ({ s with
      sb := { sb with lastLeft := faded.1.1, lastRight := faded.1.2 }
      consumer := .idle },
    some (.drained dest got (mixed.take got.length ++ faded.2)))

/-- **The audio thread goes on.** -/
def consume : Mixing F × Option (Output F) :=
  match s.consumer with
  | .idle => (s, none)
  | .flushing => ({ s with consumer := .flushTo s.sb.writeIndex }, some .flushed)
  | .flushTo w =>
    ({ s with
        sb := { s.sb with readIndex := w, lastLeft := arith.zero, lastRight := arith.zero }
        consumer := .idle }, some .silenced)
  | .skipping num =>
    ({ s with
        sb := { s.sb with readIndex := (s.sb.readIndex + num) % s.sb.size }
        consumer := .idle }, some (.skipped num))
  | .draining dest mixed num got =>
    if got.length < num then
      let x := s.sb.buffer.getD (s.sb.cellFrom s.sb.readIndex got.length) arith.zero
      ({ s with
          consumer := .draining dest
            (mixed.set got.length (arith.mix (mixed.getD got.length arith.zero) x)) num
            (got ++ [x]) }, none)
    else
      ({ s with
          sb := { s.sb with readIndex := s.sb.indexAfter s.sb.readIndex num }
          consumer := .released dest mixed got }, some (.taken got))
  | .released dest mixed got =>
    ({ s with
        sb := { s.sb with lastLeft := s.sb.buffer.getD s.sb.lastLIdx arith.zero }
        consumer := .leftRead dest mixed got }, none)
  | .leftRead dest mixed got =>
    s.finish arith { s.sb with lastRight := s.sb.buffer.getD s.sb.lastRIdx arith.zero }
      dest mixed got

/-- **The step of a thread.** What cannot be done now is not done. -/
def step : Act F → Mixing F × Option (Output F)
  | .upload src =>
    match s.producer with
    | .idle =>
      let num := s.sb.uploadCount src.length
      if num = 0 then (s, none)
      else ({ s with producer := .copying (src.take num) (List.range num) }, none)
    | _ => (s, none)
  | .copy i =>
    match s.producer with
    | .copying samples left =>
      if i ∈ left then
        ({ s with
            sb := s.sb.store (s.sb.cellFrom s.sb.writeIndex i) (samples.getD i arith.zero)
            producer := .copying samples (left.erase i) }, none)
      else (s, none)
    | _ => (s, none)
  | .publish =>
    match s.producer with
    | .copying samples [] =>
      ({ s with
          sb := { s.sb with writeIndex := s.sb.indexAfter s.sb.writeIndex samples.length }
          producer := .idle }, some (.accepted samples))
    | _ => (s, none)
  | .requestFlush => ({ s with sb := { s.sb with flushGen := s.sb.flushGen + 1 } }, none)
  | .checkFlush =>
    match s.consumer with
    | .idle =>
      if s.sb.ackedFlushGen = s.sb.flushGen then (s, none)
      else
        ({ s with
            sb := { s.sb with ackedFlushGen := s.sb.flushGen }
            consumer := .flushing }, none)
    | _ => (s, none)
  | .skip len =>
    match s.consumer with
    | .idle =>
      if s.sb.skipCount len = 0 then (s, none)
      else ({ s with consumer := .skipping (s.sb.skipCount len) }, none)
    | _ => (s, none)
  | .drain dest =>
    match s.consumer with
    | .idle =>
      if s.sb.drainCount dest.length = 0 then s.finish arith s.sb dest dest []
      else ({ s with consumer := .draining dest dest (s.sb.drainCount dest.length) [] }, none)
    | _ => (s, none)
  | .silence =>
    match s.consumer with
    | .idle =>
      ({ s with sb := { s.sb with lastLeft := arith.zero, lastRight := arith.zero } },
        some .silenced)
    | _ => (s, none)
  | .consume => s.consume arith

end Mixing

/-- What a call is given are whole frames: the mixer counts samples of two channels, and its
callers hand over pairs. Only the two calls that are given a piece of memory have anything to be
asked. -/
def Act.Frames : Act F → Prop
  | .upload src => src.length % 2 = 0
  | .drain dest => dest.length % 2 = 0
  | _ => True

instance (a : Act F) : Decidable a.Frames :=
  match a with
  | .upload src => inferInstanceAs (Decidable (src.length % 2 = 0))
  | .drain dest => inferInstanceAs (Decidable (dest.length % 2 = 0))
  | .copy _ | .publish | .requestFlush | .checkFlush | .skip _ | .silence | .consume =>
    inferInstanceAs (Decidable True)

/-- **The ring and its threads, as a machine.** -/
def mixingMachine (arith : SampleArithmetic F) : Machine (Mixing F) (Act F) (Output F) where
  next s a := (s.step arith a).1
  out s a := (s.step arith a).2

/-- The arithmetic of samples that are counts at 16-bit scale. -/
def pcmArithmetic : SampleArithmetic Int where
  zero := 0
  mix a b := a + b
  decay x := if 0 < x then (if 800 < x then x - 800 else 0)
    else if x < 0 then (if x < -800 then x + 800 else 0) else 0

/-- A frame that is uploaded, drained and overtaken by another. -/
def twoFrames : List (Act Int) :=
  [.upload [3000, -3000], .copy 1, .copy 0, .publish, .drain [0, 0, 0, 0], .consume,
    .upload [5000, 5000], .consume, .copy 0, .consume, .copy 1, .publish, .consume, .consume]

end LinApple.Audio
