import LinApple.Lib.Transducer
import Mathlib.Data.Rat.Floor
import Mathlib.Tactic.Linarith
import Mathlib.Tactic.FieldSimp
import Mathlib.Tactic.Common
import LinApple.Lib.Sizes

/-!
# Resampling

The mixer takes the samples of a source at the rate of the source and makes frames of them at
the rate of the device: averages over windows where the source is faster, values between two
samples where it is slower. An upload is cut into chunks, and what a chunk leaves unfinished is
kept for the next. The numbers here are rational.
-/

namespace LinApple.Audio

/-! ## Constants of the source -/

/-- `resample_chunk_frames` -/
def resampleChunkFrames : Nat := 512

/-- `resample_scratch_frames` -/
def resampleScratchFrames : Nat := resampleChunkFrames + 2

/-- `max_channels_per_slot` -/
def maxChannelsPerSlot : Nat := 16

/-- How much of a window may be missing. -/
def windowTolerance : ℚ := 1 / 10 ^ 9

/-! ## A channel -/

/-- `ResamplerState` -/
structure ResamplerState where
  /-- `window_sum` -/
  windowSum : ℚ := 0
  /-- `window_span` -/
  windowSpan : ℚ := 0
  /-- `phase` -/
  phase : ℚ := 0
  /-- `previous` -/
  previous : ℚ := 0
  /-- `primed` -/
  primed : Bool := false
deriving DecidableEq

/-- The inner loop of `resample_downsample`, with so many rounds at most, what remains of the
sample and the room for frames. -/
def downsampleLoop (step x : ℚ) :
    Nat → ℚ → Nat → ResamplerState → ResamplerState × List ℚ
  | 0, _, _, state => (state, [])
  | n + 1, remaining, room, state =>
    if 0 < remaining ∧ 0 < room then
      let take := min (step - state.windowSpan) remaining
      let state := { state with
        windowSum := state.windowSum + x * take
        windowSpan := state.windowSpan + take }
      if step - windowTolerance ≤ state.windowSpan then
        let (state', frames) := downsampleLoop step x n (remaining - take) (room - 1)
          { state with windowSum := 0, windowSpan := 0 }
        (state', state.windowSum / state.windowSpan :: frames)
      else downsampleLoop step x n (remaining - take) room state
    else (state, [])

/-- **`resample_downsample`**: a round of the inner loop either makes a frame or uses the sample
up, so there is one more of them than there is room at most. -/
def resampleDownsample (step : ℚ) : List ℚ → Nat → ResamplerState → ResamplerState × List ℚ
  | [], _, state => (state, [])
  | x :: input, room, state =>
    if room = 0 then (state, [])
    else
      let (state, frames) := downsampleLoop step x (room + 1) 1 room state
      let (state, later) := resampleDownsample step input (room - frames.length) state
      (state, frames ++ later)

/-- The inner loop of `resample_upsample`, with the room for frames. -/
def upsampleLoop (step previous current : ℚ) : Nat → ℚ → ℚ × List ℚ
  | 0, phase => (phase, [])
  | room + 1, phase =>
    if phase < 1 then
      let (phase', frames) := upsampleLoop step previous current room (phase + step)
      (phase', (previous + (current - previous) * phase) :: frames)
    else (phase, [])

/-- **`resample_upsample`** -/
def resampleUpsample (step : ℚ) : List ℚ → Nat → ResamplerState → ResamplerState × List ℚ
  | [], _, state => (state, [])
  | current :: input, room, state =>
    if room = 0 then (state, [])
    else
      let previous := if state.primed then state.previous else current
      let (phase, frames) := upsampleLoop step previous current room state.phase
      let (state, later) := resampleUpsample step input (room - frames.length)
        { state with phase := phase - 1, previous := current, primed := true }
      (state, frames ++ later)

/-- **`resample_channel`** -/
def resampleChannel (step : ℚ) (input : List ℚ) (room : Nat) (state : ResamplerState) :
    ResamplerState × List ℚ :=
  if 1 ≤ step then resampleDownsample step input room state
  else resampleUpsample step input room state

/-! ## A source -/

/-- What the mixer has of a source that is active, with `k + 1` channels. A source without
channels is never active, so the type leaves it out. Rates and gains are rationals, as the
rounding of floating point is not what is asked about here. -/
structure AudioSource (k : Nat) where
  /-- `source_rate_hz` -/
  sourceRate : ℚ
  /-- `gain` -/
  gain : ℚ
  /-- `pan`, to the left and to the right -/
  pan : Fin (k + 1) → ℚ × ℚ

/-- Frames of stereo out of the frames of the channels. -/
def AudioSource.mix {k : Nat} (source : AudioSource k) (resampled : Fin (k + 1) → List ℚ)
    (produced : Nat) : List (ℚ × ℚ) :=
  (List.range produced).map fun i =>
    (((List.finRange (k + 1)).map fun c =>
        (resampled c).getD i 0 * source.gain * (source.pan c).1).sum,
      ((List.finRange (k + 1)).map fun c =>
        (resampled c).getD i 0 * source.gain * (source.pan c).2).sum)

/-- `in_chunk` -/
def inChunk (step : ℚ) : Nat := max 1 ⌊(resampleChunkFrames : ℚ) * min step 1⌋₊

section Upload

variable {k : Nat} (source : AudioSource k) (step : ℚ) (scratch : Nat)

/-- A chunk of an upload, with a scratch buffer of a size: the count of frames is the last
channel's. -/
def uploadChunk (states : Fin (k + 1) → ResamplerState) (chunk : List (Fin (k + 1) → ℚ)) :
    (Fin (k + 1) → ResamplerState) × List (ℚ × ℚ) :=
  let resampled := fun c => resampleChannel step (chunk.map (· c)) scratch (states c)
  (fun c => (resampled c).1,
    source.mix (fun c => (resampled c).2) (resampled (Fin.last k)).2.length)

/-- The loop over the chunks of an upload, so many at most. -/
def uploadChunks : Nat → (Fin (k + 1) → ResamplerState) → List (Fin (k + 1) → ℚ) →
    (Fin (k + 1) → ResamplerState) × List (ℚ × ℚ)
  | 0, states, _ => (states, [])
  | n + 1, states, samples =>
    if samples = [] then (states, [])
    else
      let (states, frames) := uploadChunk source step scratch states (samples.take (inChunk step))
      let (states, later) := uploadChunks n states (samples.drop (inChunk step))
      (states, frames ++ later)

/-- **`audio_mixer_upload_channels`**, of a source that is active: the frames that go to its
buffer. A sample is what it is in every channel; an upload of more channels than a source has
room for is not taken, and neither is one without samples. -/
def uploadChannels (outputRate : ℚ) (states : Fin (k + 1) → ResamplerState)
    (samples : List (Fin (k + 1) → ℚ)) : (Fin (k + 1) → ResamplerState) × List (ℚ × ℚ) :=
  if maxChannelsPerSlot < k + 1 ∨ samples = [] then (states, [])
  else if 0 < source.sourceRate / outputRate then
    uploadChunks source (source.sourceRate / outputRate) scratch samples.length states samples
  else (states, [])

/-- One upload after another. -/
def uploads (outputRate : ℚ) : (Fin (k + 1) → ResamplerState) → List (List (Fin (k + 1) → ℚ)) →
    (Fin (k + 1) → ResamplerState) × List (ℚ × ℚ) :=
  Transducer.produce (uploadChannels source scratch outputRate)

end Upload

end LinApple.Audio
