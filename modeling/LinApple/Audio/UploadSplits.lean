import LinApple.Audio.ResamplerSplits
import Mathlib.Data.List.GetD

/-!
# Uploads of several channels, however they are cut

The channels of a source are in step: their windows have the same span and their phases are the
same, so the count of the last channel is that of all of them. An upload is therefore one sample
of all channels after another (`uploads_eq`), and its frames are counted in one channel.

The program cuts an upload into chunks, so that what comes of one fits a scratch buffer, resamples
a chunk channel by channel, and takes the number of frames from the last one. A sample is here
what it is in every channel, a function on them, and the channels are resampled from states of
their own; that they stay in step (`Together`) is proved and not assumed.

The result has three parts, because the code has three kinds of sources. More channels than there
is room for are not taken, and nothing comes of any upload. Below a step of 1/514 one sample makes
more frames than the scratch holds, and what does not fit is lost; nothing is said about how many
frames there are then, but cutting still makes no difference, since chunks of one sample are cut
the same way in any case. Otherwise no scratch of any larger size would give another result, and
the frames can be counted: up-sampling, a frame for every multiple of the step that lies before
the end of the input; down-sampling, what the division gives, or one more where the tolerance of
the window lets it end early.

The arithmetic is that of rational numbers. The tolerance is in the code on purpose, and is the
one in the statement.
-/

namespace LinApple.Audio

open Transducer

/-! ## Counting the frames of a faster source -/

section Count

variable {step : ℚ} {state : ResamplerState}

/-- A window is shorter than a step by the tolerance at most. -/
theorem span_downsample (step : ℚ) (state : ResamplerState) (x : ℚ) :
    state.windowSpan + 1 ≤ (downsample step state x).1.windowSpan
        + (downsample step state x).2.length * step
      ∧ (downsample step state x).1.windowSpan
        + (downsample step state x).2.length * (step - windowTolerance) ≤ state.windowSpan + 1 := by
  unfold downsample
  split_ifs with hsmall
  · simp
  · have htake : min (step - state.windowSpan) 1 ≤ step - state.windowSpan := min_le_left _ _
    have hfull : step - windowTolerance ≤ state.windowSpan + min (step - state.windowSpan) 1 := by
      have htol := windowTolerance_pos
      rcases min_choice (step - state.windowSpan) 1 with h | h <;> rw [h] <;> linarith
    simp only [List.length_singleton, Nat.cast_one, one_mul]
    constructor <;> linarith

/-- **The windows of a faster source** have a step or less, by the tolerance at most. -/
theorem span_samples (hstep : 1 ≤ step) (hready : state.Ready step) (input : List ℚ) :
    state.windowSpan + input.length ≤ (samples step state input).1.windowSpan
        + (samples step state input).2.length * step
      ∧ (samples step state input).1.windowSpan
        + (samples step state input).2.length * (step - windowTolerance)
          ≤ state.windowSpan + input.length := by
  induction input generalizing state with
  | nil => simp [samples]
  | cons x input ih =>
    have hsample : sample step state x = downsample step state x := if_pos hstep
    obtain ⟨hlow, hhigh⟩ := ih (hready.downsample (x := x) hstep)
    obtain ⟨hlow', hhigh'⟩ := span_downsample step state x
    rw [samples_cons, hsample]
    dsimp only
    rw [List.length_append, List.length_cons]
    push_cast
    constructor <;> linarith

/-- The state that a source begins with is between samples. -/
theorem ready_start (hstep : 0 < step) : ({} : ResamplerState).Ready step :=
  ⟨le_rfl, fun h => by linarith [windowTolerance_lt], fun _ => le_rfl, fun _ => hstep⟩

/-- **How many frames a slower source makes**: one for each instant before the end. -/
theorem lt_length_slow_iff (hstep : 0 < step) (hslow : step < 1) (input : List ℚ) (i : Nat) :
    i < (samples step {} input).2.length ↔ (i * step : ℚ) < input.length := by
  have hcount : ((samples step {} input).2.length * step : ℚ)
      = input.length + (samples step {} input).1.phase - 0 := length_samples_slow hslow {} input
  have hready := (ready_start hstep).samples hstep input
  have hnonneg := hready.phase_nonneg hslow
  have hlt := hready.phase_lt hslow
  constructor
  · intro hi
    have hle : ((i + 1 : Nat) * step : ℚ) ≤ (samples step {} input).2.length * step :=
      mul_le_mul_of_nonneg_right (Nat.cast_le.2 hi) hstep.le
    push_cast at hle
    linarith
  · intro hi
    by_contra hover
    have hle : ((samples step {} input).2.length * step : ℚ) ≤ i * step :=
      mul_le_mul_of_nonneg_right (Nat.cast_le.2 (not_lt.1 hover)) hstep.le
    linarith

/-- **How many frames a faster source makes**: one for each step, and a frame more only where
the tolerance comes to a step. -/
theorem length_fast_bounds (hstep : 1 ≤ step) (input : List ℚ) :
    ⌊(input.length / step : ℚ)⌋₊ ≤ (samples step {} input).2.length
      ∧ (samples step {} input).2.length ≤ ⌊(input.length / (step - windowTolerance) : ℚ)⌋₊ := by
  have hpos : 0 < step := by linarith
  have htol := windowTolerance_lt
  have hready := (ready_start hpos).samples hpos input
  obtain ⟨hlow, hhigh⟩ := span_samples hstep (ready_start hpos) input
  have hlow' : ((0 : ℚ) + input.length : ℚ) ≤ (samples step {} input).1.windowSpan
      + (samples step {} input).2.length * step := hlow
  have hhigh' : (samples step {} input).1.windowSpan
      + (samples step {} input).2.length * (step - windowTolerance) ≤ ((0 : ℚ) + input.length) :=
    hhigh
  have hlt := hready.span_lt hstep
  have hnonneg := hready.span_nonneg
  constructor
  · rw [← Nat.lt_succ_iff, Nat.floor_lt' (by omega), div_lt_iff₀ hpos]
    push_cast
    linarith [windowTolerance_pos]
  · refine Nat.le_floor ?_
    rw [le_div_iff₀ (by linarith)]
    linarith

/-- **Exactly one for each step**, where no step ends within the tolerance after a sample. -/
theorem length_fast_eq (hstep : 1 ≤ step) (input : List ℚ)
    (hexact : ∀ k m : Nat, m ≤ input.length →
      ¬ ((0 : ℚ) < k * step - m ∧ k * step - m ≤ windowTolerance)) :
    (samples step {} input).2.length = ⌊(input.length / step : ℚ)⌋₊ := by
  have hpos : 0 < step := by linarith
  have hready := (ready_start hpos).samples hpos input
  have hspan : (samples step {} input).1.windowSpan
      = (0 + input.length : Nat) - (0 + (samples step {} input).2.length : Nat) * step :=
    length_samples_fast hstep (by simpa using hexact) (by simp)
  rw [Nat.zero_add, Nat.zero_add] at hspan
  refine le_antisymm (Nat.le_floor ?_) (length_fast_bounds hstep input).1
  rw [le_div_iff₀ hpos]
  linarith [hready.span_nonneg]

end Count

/-! ## Channels together -/

section Channels

variable {k : Nat} {source : AudioSource k} {step : ℚ} {scratch : Nat}
  {states : Fin (k + 1) → ResamplerState}

/-- **The states of a source between samples**: each is between samples, and all are in step. -/
structure Together (step : ℚ) (states : Fin (k + 1) → ResamplerState) : Prop where
  /-- Each channel is between samples. -/
  between : ∀ c, (states c).Between step
  /-- The channels are in step. -/
  inStep : ∀ c d, (states c).InStep (states d)

/-- Frames of channels that are equally many are mixed one after another. -/
theorem mix_append {first later : Fin (k + 1) → List ℚ} {n : Nat}
    (hn : ∀ c, (first c).length = n) (m : Nat) :
    source.mix (fun c => first c ++ later c) (n + m)
      = source.mix first n ++ source.mix later m := by
  unfold AudioSource.mix
  rw [List.range_add, List.map_append, List.map_map]
  congr 1
  · refine List.map_congr_left fun i hi => ?_
    have hget (c : Fin (k + 1)) : (first c ++ later c).getD i 0 = (first c).getD i 0 :=
      List.getD_append _ _ _ _ (by rw [hn]; exact List.mem_range.1 hi)
    simp only [hget]
  · refine List.map_congr_left fun i _ => ?_
    have hget (c : Fin (k + 1)) : (first c ++ later c).getD (n + i) 0 = (later c).getD i 0 := by
      rw [List.getD_append_right _ _ _ _ (by rw [hn]; omega), hn, Nat.add_sub_cancel_left]
    simp only [Function.comp_apply, hget]

theorem Together.uploadSample (source : AudioSource k) (hroom : resampleScratchFrames ≤ scratch) (h : Together step states)
    (s : Fin (k + 1) → ℚ) : Together step (uploadChunk source step scratch states [s]).1 :=
  ⟨fun c => (h.between c).within hroom (s c), fun c d => (within_inStep (h.inStep c d)).1⟩

/-- **Channel by channel**: one sample of all channels after another is one after another in each
channel. -/
theorem produce_uploadSample (hroom : resampleScratchFrames ≤ scratch) (h : Together step states)
    (chunk : List (Fin (k + 1) → ℚ)) :
    produce (fun states s => uploadChunk source step scratch states [s]) states chunk
      = (fun c => (produce (within step scratch) (states c) (chunk.map (· c))).1,
        source.mix (fun c => (produce (within step scratch) (states c) (chunk.map (· c))).2)
          (produce (within step scratch) (states (Fin.last k))
            (chunk.map (· (Fin.last k)))).2.length) := by
  induction chunk generalizing states with
  | nil => rfl
  | cons s chunk ih =>
    have hcount (c : Fin (k + 1)) : (within step scratch (states c) (s c)).2.length
        = (within step scratch (states (Fin.last k)) (s (Fin.last k))).2.length :=
      (within_inStep (h.inStep c _)).2
    rw [produce_cons, ih (h.uploadSample source hroom s)]
    simp only [List.map_cons, produce_cons, List.length_append]
    rw [mix_append hcount]
    rfl

/-- **A chunk is one sample of all channels after another.** -/
theorem uploadChunk_eq (hroom : resampleScratchFrames ≤ scratch) (h : Together step states)
    {chunk : List (Fin (k + 1) → ℚ)} (hchunk : chunk.length ≤ inChunk step) :
    uploadChunk source step scratch states chunk
      = produce (fun states s => uploadChunk source step scratch states [s]) states chunk := by
  have hchannel (c : Fin (k + 1)) :
      resampleChannel step (chunk.map (· c)) scratch (states c)
        = produce (within step scratch) (states c) (chunk.map (· c)) :=
    resampleChannel_eq_produce (by rwa [List.length_map]) (h.between c) hroom
  rw [produce_uploadSample hroom h]
  unfold uploadChunk
  simp only [hchannel]

/-- **So is an upload**, cut into chunks. -/
theorem uploadChunks_eq (hroom : resampleScratchFrames ≤ scratch) (h : Together step states)
    {n : Nat} {samples : List (Fin (k + 1) → ℚ)} (hn : samples.length ≤ n) :
    uploadChunks source step scratch n states samples
      = produce (fun states s => uploadChunk source step scratch states [s]) states samples := by
  induction n generalizing states samples with
  | zero =>
    rw [List.eq_nil_of_length_eq_zero (Nat.le_zero.1 hn)]
    rfl
  | succ n ih =>
    rw [uploadChunks]
    split_ifs with hnone
    · rw [hnone]
      rfl
    · have hone := one_le_inChunk step
      have hrest : (samples.drop (inChunk step)).length ≤ n := by
        rw [List.length_drop]
        omega
      have hchunk : (samples.take (inChunk step)).length ≤ inChunk step := List.length_take_le _ _
      have hnext := produce_invariant (fun states s (hs : Together step states) =>
        hs.uploadSample source hroom s) h (samples.take (inChunk step))
      rw [uploadChunk_eq hroom h hchunk]
      dsimp only
      rw [ih hnext hrest, ← produce_append, List.take_append_drop]

/-- **Uploads of more channels than there is room for** come to nothing. -/
theorem uploads_of_lt {outputRate : ℚ} (hmany : maxChannelsPerSlot < k + 1)
    (inputs : List (List (Fin (k + 1) → ℚ))) :
    uploads source scratch outputRate states inputs = (states, []) := by
  induction inputs with
  | nil => rfl
  | cons samples inputs ih =>
    have hrefused : uploadChannels source scratch outputRate states samples = (states, []) :=
      if_pos (.inl hmany)
    unfold uploads at ih ⊢
    rw [produce_cons, hrefused, ih]
    rfl

/-- **Uploads are one sample of all channels after another.** -/
theorem uploads_eq {outputRate : ℚ} (hroom : resampleScratchFrames ≤ scratch)
    (hfew : k + 1 ≤ maxChannelsPerSlot) (hrate : 0 < source.sourceRate / outputRate)
    (h : Together (source.sourceRate / outputRate) states)
    (inputs : List (List (Fin (k + 1) → ℚ))) :
    uploads source scratch outputRate states inputs
      = produce (fun states s => uploadChunk source (source.sourceRate / outputRate) scratch
          states [s]) states inputs.flatten := by
  refine produce_flatten (P := Together (source.sourceRate / outputRate))
    (fun states s hs => hs.uploadSample source hroom s) (fun states samples hs => ?_) h inputs
  unfold uploadChannels
  by_cases hnone : samples = []
  · rw [if_pos (.inr hnone), hnone]
    rfl
  · rw [if_neg (fun h => h.elim (fun hmany => absurd hfew (Nat.not_le.2 hmany)) hnone),
      if_pos hrate, uploadChunks_eq hroom hs le_rfl]

/-! ## The frames of a source -/

/-- The frames that uploads come to, of a source that has just begun. -/
def AudioSource.frames (source : AudioSource k) (scratch : Nat) (outputRate : ℚ)
    (inputs : List (List (Fin (k + 1) → ℚ))) : List (ℚ × ℚ) :=
  (uploads source scratch outputRate (fun _ => {}) inputs).2

theorem together_start (hstep : 0 < step) :
    Together step (fun _ : Fin (k + 1) => ({} : ResamplerState)) :=
  ⟨fun _ _ => ready_start hstep, fun _ _ => ⟨rfl, rfl⟩⟩

/-- The frames, where the ratio leaves room for those of a sample. -/
theorem frames_eq {outputRate : ℚ} (hroom : resampleScratchFrames ≤ scratch)
    (hfew : k + 1 ≤ maxChannelsPerSlot) (hstep : 1 / 514 ≤ source.sourceRate / outputRate)
    (inputs : List (List (Fin (k + 1) → ℚ))) :
    source.frames scratch outputRate inputs
      = source.mix (fun c => (samples (source.sourceRate / outputRate) {}
            (inputs.flatten.map (· c))).2)
          (samples (source.sourceRate / outputRate) {}
            (inputs.flatten.map (· (Fin.last k)))).2.length := by
  have hpos : 0 < source.sourceRate / outputRate := lt_of_lt_of_le (by norm_num) hstep
  have hchannel (input : List ℚ) : produce (within (source.sourceRate / outputRate) scratch) {} input
      = samples (source.sourceRate / outputRate) {} input :=
    produce_within hstep (ready_start hpos) hroom input
  unfold AudioSource.frames
  rw [uploads_eq hroom hfew hpos (together_start hpos), produce_uploadSample hroom (together_start hpos)]
  simp only [hchannel]

@[simp] theorem length_mix (resampled : Fin (k + 1) → List ℚ) (n : Nat) :
    (source.mix resampled n).length = n := by
  simp [AudioSource.mix]

/-- **Resampling does not depend on how the input is cut**, at every ratio that is positive and for
every number of channels. The mixer has room for 16 of them: an upload of more is not taken, so
there the frames are none however it is cut, and what is said of their number is said of sources
with 16 channels or fewer. Where the ratio is 1/514 at least, no frame is lost to the scratch
buffer, however large it is, and the frames are counted: a slower source has made one for each
instant before the end of its samples, and a faster one for each step of them — no fewer, more only
where the tolerance of the windows comes to a step, and exactly as many where no step ends within
the tolerance after a sample. -/
theorem frames_cut (source : AudioSource k) (outputRate : ℚ)
    (hrate : 0 < source.sourceRate / outputRate) (inputs : List (List (Fin (k + 1) → ℚ))) :
    source.frames resampleScratchFrames outputRate inputs
        = source.frames resampleScratchFrames outputRate [inputs.flatten]
      ∧ (maxChannelsPerSlot < k + 1 →
        source.frames resampleScratchFrames outputRate inputs = [])
      ∧ (k + 1 ≤ maxChannelsPerSlot → 1 / 514 ≤ source.sourceRate / outputRate →
        (∀ scratch, resampleScratchFrames ≤ scratch → source.frames scratch outputRate inputs
            = source.frames resampleScratchFrames outputRate inputs)
        ∧ (source.sourceRate / outputRate < 1 → ∀ i : Nat,
          i < (source.frames resampleScratchFrames outputRate inputs).length
            ↔ i * (source.sourceRate / outputRate) < inputs.flatten.length)
        ∧ (1 ≤ source.sourceRate / outputRate →
          ⌊inputs.flatten.length / (source.sourceRate / outputRate)⌋₊
              ≤ (source.frames resampleScratchFrames outputRate inputs).length
            ∧ (source.frames resampleScratchFrames outputRate inputs).length
              ≤ ⌊inputs.flatten.length / (source.sourceRate / outputRate - windowTolerance)⌋₊
            ∧ ((∀ j m : Nat, m ≤ inputs.flatten.length →
                ¬ (0 < j * (source.sourceRate / outputRate) - m
                  ∧ j * (source.sourceRate / outputRate) - m ≤ windowTolerance)) →
              (source.frames resampleScratchFrames outputRate inputs).length
                = ⌊inputs.flatten.length / (source.sourceRate / outputRate)⌋₊))) := by
  -- an upload of too many channels is refused, and any other resamples what comes in, however it
  -- was cut
  refine ⟨?_, fun hmany => ?_, fun hfew hstep => ⟨fun scratch hscratch => ?_, fun hslow i => ?_,
    fun hfast => ?_⟩⟩
  · unfold AudioSource.frames
    rcases Nat.lt_or_ge maxChannelsPerSlot (k + 1) with hmany | hfew
    · rw [uploads_of_lt hmany, uploads_of_lt hmany]
    · rw [uploads_eq le_rfl hfew hrate (together_start hrate),
        uploads_eq le_rfl hfew hrate (together_start hrate), List.flatten_singleton]
  · unfold AudioSource.frames
    rw [uploads_of_lt hmany]
  · rw [frames_eq hscratch hfew hstep, frames_eq le_rfl hfew hstep]
  · rw [frames_eq le_rfl hfew hstep, length_mix, lt_length_slow_iff hrate hslow, List.length_map]
  · rw [frames_eq le_rfl hfew hstep, length_mix]
    have hbounds := length_fast_bounds hfast (inputs.flatten.map (· (Fin.last k)))
    rw [List.length_map] at hbounds
    refine ⟨hbounds.1, hbounds.2, fun hexact => ?_⟩
    rw [length_fast_eq hfast, List.length_map]
    rwa [List.length_map]

/-! ### A source of two channels -/

/-- A source of two channels at 22050 Hz. -/
def stereo : AudioSource 1 := ⟨22050, 1, fun c => if c = 0 then (1, 0) else (0, 1)⟩

/-- **Two uploads** of it, of a sample and of two, come to what one of all three does: at 44100 Hz
there are six frames. -/
theorem frames_cut_stereo :
    stereo.frames resampleScratchFrames 44100 [[fun _ => 1], [fun _ => 2, fun _ => 3]]
        = stereo.frames resampleScratchFrames 44100 [[fun _ => 1, fun _ => 2, fun _ => 3]]
      ∧ 5 < (stereo.frames resampleScratchFrames 44100
          [[fun _ => 1], [fun _ => 2, fun _ => 3]]).length := by
  have hrate : 0 < stereo.sourceRate / 44100 := by norm_num [stereo]
  obtain ⟨hcut, -, hroom⟩ := frames_cut stereo 44100 hrate
    [[fun _ => 1], [fun _ => 2, fun _ => 3]]
  obtain ⟨-, hslow, -⟩ := hroom (by decide) (by norm_num [stereo])
  exact ⟨hcut, (hslow (by norm_num [stereo]) 5).2 (by norm_num [stereo])⟩

/-- A source of one channel at a rate. -/
def mono (rate : ℚ) : AudioSource 0 := ⟨rate, 1, fun _ => (1, 1)⟩

/-- **Not every ratio leaves room for the frames of a sample**, and the tolerance can make a frame
early: at a ratio of 1/1000 a sample comes to 514 frames and not to 1000, and at one just over 1
a sample comes to a frame although a step has not ended. -/
theorem frames_lost :
    (((514 : Nat) * (1 / 1000) : ℚ) < 1
        ∧ ¬ 514 < ((mono 1).frames resampleScratchFrames 1000 [[fun _ => 1]]).length)
      ∧ ((mono 10000000001).frames resampleScratchFrames 10000000000 [[fun _ => 1]]).length
        ≠ ⌊(1 / (10000000001 / 10000000000) : ℚ)⌋₊ := by
  refine ⟨⟨by norm_num, by decide +kernel⟩, ?_⟩
  have hone : ((mono 10000000001).frames resampleScratchFrames 10000000000 [[fun _ => 1]]).length
      = 1 := by decide +kernel
  have hnone : ⌊(1 / (10000000001 / 10000000000) : ℚ)⌋₊ = 0 := by
    rw [Nat.floor_eq_zero]
    norm_num
  rw [hone, hnone]
  exact one_ne_zero

end Channels

end LinApple.Audio
