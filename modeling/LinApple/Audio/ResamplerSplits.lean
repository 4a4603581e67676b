import LinApple.Audio.Resampler

/-!
# Resampling, however the input is cut

As long as there is room for its frames, a chunk is worked through sample by sample
(`resampleChannel_eq`): there is, since a faster source makes one frame out of a sample at most
and the chunks of a slower one are cut by the ratio. Only a ratio below 1/514 makes more frames of
a sample than there is room for, and then the chunks are of one sample anyway
(`resampleChannel_eq_produce`).
-/

namespace LinApple.Audio

open Transducer

/-! ## A sample with all the room it needs -/

/-- What a faster source makes of a sample: the window has room for it, or ends in it. -/
def downsample (step : ℚ) (state : ResamplerState) (x : ℚ) : ResamplerState × List ℚ :=
  if state.windowSpan + 1 < step - windowTolerance then
    ({ state with windowSum := state.windowSum + x, windowSpan := state.windowSpan + 1 }, [])
  else
    let take := min (step - state.windowSpan) 1
    ({ state with windowSum := x * (1 - take), windowSpan := 1 - take },
      [(state.windowSum + x * take) / (state.windowSpan + take)])

/-- How many frames a slower source makes of a sample. -/
def instants (step phase : ℚ) : Nat := ⌈(1 - phase) / step⌉₊

/-- What a slower source makes of a sample. -/
def upsample (step : ℚ) (state : ResamplerState) (x : ℚ) : ResamplerState × List ℚ :=
  let previous := if state.primed then state.previous else x
  ({ state with
      phase := state.phase + instants step state.phase * step - 1
      previous := x
      primed := true },
    (List.range (instants step state.phase)).map fun i : Nat =>
      previous + (x - previous) * (state.phase + i * step))

/-- What a source makes of a sample. -/
def sample (step : ℚ) (state : ResamplerState) (x : ℚ) : ResamplerState × List ℚ :=
  if 1 ≤ step then downsample step state x else upsample step state x

/-- What a source makes of samples, one after another. -/
def samples (step : ℚ) : ResamplerState → List ℚ → ResamplerState × List ℚ :=
  produce (sample step)

theorem samples_cons (step : ℚ) (state : ResamplerState) (x : ℚ) (input : List ℚ) :
    samples step state (x :: input) = ((samples step (sample step state x).1 input).1,
      (sample step state x).2 ++ (samples step (sample step state x).1 input).2) := rfl

/-- **A state between samples**: the window is not full, and the phase is in its range. -/
structure ResamplerState.Ready (step : ℚ) (state : ResamplerState) : Prop where
  /-- The window has begun, or not. -/
  span_nonneg : 0 ≤ state.windowSpan
  /-- It is not full. -/
  span_lt : 1 ≤ step → state.windowSpan < step - windowTolerance
  /-- The next instant is not in the past. -/
  phase_nonneg : step < 1 → 0 ≤ state.phase
  /-- Nor is it further off than a frame. -/
  phase_lt : step < 1 → state.phase < step

variable {step x : ℚ} {state : ResamplerState} {room : Nat}

theorem windowTolerance_pos : 0 < windowTolerance := by
  unfold windowTolerance
  norm_num

theorem windowTolerance_lt : windowTolerance < 1 := by
  unfold windowTolerance
  norm_num

/-! ### Faster sources -/

/-- **A faster source works a sample through** if there is room for two frames. -/
theorem downsampleLoop_eq (hstep : 1 ≤ step) (hready : state.Ready step) (hroom : 2 ≤ room) :
    downsampleLoop step x (room + 1) 1 room state = downsample step state x := by
  obtain ⟨n, rfl⟩ : ∃ n, room = n + 2 := ⟨room - 2, by omega⟩
  have htol := windowTolerance_pos
  have hspan := hready.span_lt hstep
  unfold downsample
  rw [downsampleLoop, if_pos ⟨one_pos, by omega⟩]
  dsimp only
  by_cases hsmall : state.windowSpan + 1 < step - windowTolerance
  · -- the window takes the whole sample
    have htake : min (step - state.windowSpan) 1 = 1 := min_eq_right (by linarith)
    rw [htake, if_pos hsmall, if_neg (by linarith), downsampleLoop, if_neg (by simp)]
    simp
  · rw [if_neg hsmall]
    have hfull : step - windowTolerance ≤ state.windowSpan + min (step - state.windowSpan) 1 := by
      rcases min_choice (step - state.windowSpan) 1 with h | h <;> rw [h] <;> linarith
    rw [if_pos hfull, downsampleLoop]
    dsimp only
    by_cases hrest : 0 < 1 - min (step - state.windowSpan) 1
    · -- what remains of the sample begins the next window, and does not fill it
      have htake : min (step - state.windowSpan) 1 = step - state.windowSpan := by
        rcases min_choice (step - state.windowSpan) 1 with h | h
        · exact h
        · rw [h] at hrest
          exact absurd hrest (by norm_num)
      rw [htake] at hrest ⊢
      have hwhole : min (step - 0) (1 - (step - state.windowSpan)) = 1 - (step - state.windowSpan) :=
        min_eq_right (by linarith [hready.span_nonneg])
      rw [if_pos ⟨hrest, by omega⟩, hwhole, if_neg (by linarith), downsampleLoop, if_neg (by simp)]
      simp
    · have hzero : 1 - min (step - state.windowSpan) 1 = 0 :=
        le_antisymm (not_lt.1 hrest) (sub_nonneg.2 (min_le_right _ _))
      rw [if_neg (fun h => hrest h.1), hzero]
      simp

theorem ResamplerState.Ready.downsample (hstep : 1 ≤ step) (hready : state.Ready step) :
    (downsample step state x).1.Ready step := by
  have htol := windowTolerance_lt
  have hspan := hready.span_lt hstep
  have hnonneg := hready.span_nonneg
  unfold LinApple.Audio.downsample
  split_ifs with hsmall
  · exact ⟨by dsimp only; linarith, fun _ => hsmall, fun h => absurd h (not_lt.2 hstep),
      fun h => absurd h (not_lt.2 hstep)⟩
  · refine ⟨sub_nonneg.2 (min_le_right _ _), fun _ => ?_, fun h => absurd h (not_lt.2 hstep),
      fun h => absurd h (not_lt.2 hstep)⟩
    dsimp only
    rcases min_choice (step - state.windowSpan) 1 with h | h <;> rw [h] <;> linarith

/-- A faster source makes one frame of a sample at most. -/
theorem length_downsample_le : (downsample step state x).2.length ≤ 1 := by
  unfold downsample
  split_ifs <;> simp

/-! ### Slower sources -/

/-- **The instants in a sample are gone through** if there is room for their frames. -/
theorem upsampleLoop_eq {p c t : ℚ} {n : Nat} (hroom : n ≤ room)
    (hbefore : ∀ i < n, t + i * step < 1) (hafter : 1 ≤ t + n * step) :
    upsampleLoop step p c room t
      = (t + n * step, (List.range n).map fun i : Nat => p + (c - p) * (t + i * step)) := by
  induction n generalizing room t with
  | zero =>
    have hover : ¬ t < 1 := not_lt.2 (by simpa using hafter)
    cases room with
    | zero => simp [upsampleLoop]
    | succ room => simp [upsampleLoop, hover]
  | succ n ih =>
    obtain ⟨room, rfl⟩ : ∃ r, room = r + 1 := ⟨room - 1, by omega⟩
    have hfirst : t < 1 := by simpa using hbefore 0 n.succ_pos
    have hshift (i : Nat) : t + step + i * step = t + ((i + 1 : Nat) : ℚ) * step := by
      push_cast
      ring
    rw [upsampleLoop, if_pos hfirst, ih (by omega)
      (fun i hi => by rw [hshift]; exact hbefore (i + 1) (by omega)) (by rw [hshift]; exact hafter)]
    simp only [hshift, List.range_succ_eq_map, List.map_cons, List.map_map, Nat.cast_zero, zero_mul,
      add_zero]
    rfl

/-- The instants of a sample are those before its end. -/
theorem lt_instants_iff (hstep : 0 < step) (t : ℚ) (i : Nat) :
    i < instants step t ↔ t + i * step < 1 := by
  unfold instants
  rw [Nat.lt_ceil, lt_div_iff₀ hstep]
  constructor <;> intro h <;> linarith

theorem instants_spec (hstep : 0 < step) (t : ℚ) :
    (∀ i < instants step t, t + i * step < 1) ∧ 1 ≤ t + instants step t * step := by
  refine ⟨fun i hi => (lt_instants_iff hstep t i).1 hi, ?_⟩
  by_contra hlt
  exact absurd ((lt_instants_iff hstep t _).2 (not_le.1 hlt)) (lt_irrefl _)

theorem ResamplerState.Ready.upsample (hstep : 0 < step) (hslow : step < 1) (hready : state.Ready step) :
    (upsample step state x).1.Ready step := by
  obtain ⟨hbefore, hafter⟩ := instants_spec hstep state.phase
  have hphase := hready.phase_lt hslow
  refine ⟨hready.span_nonneg, fun h => absurd hslow (not_lt.2 h), fun _ => ?_, fun _ => ?_⟩
  · change 0 ≤ state.phase + instants step state.phase * step - 1
    linarith
  · change state.phase + instants step state.phase * step - 1 < step
    rcases Nat.eq_zero_or_pos (instants step state.phase) with hnone | hsome
    · rw [hnone] at hafter ⊢
      simp only [Nat.cast_zero, zero_mul, add_zero] at hafter ⊢
      linarith
    · have hlast := hbefore (instants step state.phase - 1) (by omega)
      rw [Nat.cast_sub hsome, Nat.cast_one, sub_mul, one_mul] at hlast
      linarith

/-- A slower source makes a frame of every sample. -/
theorem instants_pos (hstep : 0 < step) (hslow : step < 1) (hready : state.Ready step) :
    0 < instants step state.phase := by
  rw [lt_instants_iff hstep]
  have hphase := hready.phase_lt hslow
  simp only [Nat.cast_zero, zero_mul, add_zero]
  linarith

/-! ## Samples with all the room they need -/

theorem ResamplerState.Ready.sample (hstep : 0 < step) (hready : state.Ready step) :
    (sample step state x).1.Ready step := by
  unfold LinApple.Audio.sample
  split_ifs with hfast
  · exact hready.downsample hfast
  · exact hready.upsample hstep (not_le.1 hfast)

theorem ResamplerState.Ready.samples (hstep : 0 < step) (input : List ℚ) (hready : state.Ready step) :
    (samples step state input).1.Ready step :=
  produce_invariant (fun _ _ h => h.sample hstep) hready input

/-- **A faster source works a chunk through** if there is room for a frame more than it has
samples. -/
theorem resampleDownsample_eq (hstep : 1 ≤ step) (input : List ℚ) (hready : state.Ready step)
    (hroom : input.length + 1 ≤ room) :
    resampleDownsample step input room state = samples step state input := by
  induction input generalizing state room with
  | nil => rfl
  | cons x input ih =>
    rw [List.length_cons] at hroom
    have hsample : sample step state x = downsample step state x := if_pos hstep
    have hone : (downsample step state x).2.length ≤ 1 := length_downsample_le
    rw [resampleDownsample, if_neg (by omega), downsampleLoop_eq hstep hready (by omega),
      samples_cons, hsample]
    dsimp only
    rw [ih (hready.downsample hstep) (by omega)]

/-- **A slower source does** if there is room for its frames. -/
theorem resampleUpsample_eq (hstep : 0 < step) (hslow : step < 1) (input : List ℚ)
    (hready : state.Ready step) (hroom : (samples step state input).2.length ≤ room) :
    resampleUpsample step input room state = samples step state input := by
  induction input generalizing state room with
  | nil => rfl
  | cons x input ih =>
    have hsample : sample step state x = upsample step state x := if_neg (not_le.2 hslow)
    obtain ⟨hbefore, hafter⟩ := instants_spec hstep state.phase
    have hsome := instants_pos hstep hslow hready
    have hcount : (upsample step state x).2.length = instants step state.phase := by simp [upsample]
    rw [samples_cons, hsample] at hroom ⊢
    dsimp only at hroom ⊢
    rw [List.length_append, hcount] at hroom
    rw [resampleUpsample, if_neg (by omega)]
    dsimp only
    rw [upsampleLoop_eq (by omega) hbefore hafter]
    dsimp only
    rw [List.length_map, List.length_range]
    have hlater := @ih _ (room - instants step state.phase)
      (hready.upsample (x := x) hstep hslow) (by omega)
    unfold upsample at hlater ⊢
    dsimp only at hlater ⊢
    rw [hlater]

/-! ## How many frames there are -/

/-- **The frames of a slower source**: their instants are as many steps as there are samples, but
for the phases. -/
theorem length_samples_slow (hslow : step < 1) (state : ResamplerState) (input : List ℚ) :
    (samples step state input).2.length * step
      = input.length + (samples step state input).1.phase - state.phase := by
  induction input generalizing state with
  | nil => simp [samples]
  | cons x input ih =>
    have hsample : sample step state x = upsample step state x := if_neg (not_le.2 hslow)
    have hcount : (upsample step state x).2.length = instants step state.phase := by simp [upsample]
    have hphase : (upsample step state x).1.phase
        = state.phase + instants step state.phase * step - 1 := rfl
    rw [samples_cons, hsample]
    dsimp only
    rw [List.length_append, hcount, Nat.cast_add, add_mul, ih, hphase, List.length_cons]
    push_cast
    ring

/-- **The frames of a faster source**: their windows are as many steps as there are samples, but
for the window that is not full, where none ends early. -/
theorem length_samples_fast (hstep : 1 ≤ step) {input : List ℚ} {a l : Nat}
    (hexact : ∀ k m : Nat, m ≤ a + input.length →
      ¬ (0 < k * step - m ∧ k * step - m ≤ windowTolerance))
    (hspan : state.windowSpan = a - l * step) :
    (samples step state input).1.windowSpan
      = (a + input.length : Nat) - (l + (samples step state input).2.length : Nat) * step := by
  induction input generalizing state a l with
  | nil => simpa [samples] using hspan
  | cons x input ih =>
    have hsample : sample step state x = downsample step state x := if_pos hstep
    rw [List.length_cons] at hexact
    rw [samples_cons, hsample]
    dsimp only
    rw [List.length_append, List.length_cons, ← Nat.add_assoc, Nat.add_right_comm a]
    have hend := hexact (l + 1) (a + 1) (by omega)
    push_cast at hend
    by_cases hsmall : state.windowSpan + 1 < step - windowTolerance
    · have hnone : (downsample step state x).2.length = 0 := by simp [downsample, hsmall]
      have hmore : (downsample step state x).1.windowSpan = state.windowSpan + 1 := by
        simp [downsample, hsmall]
      rw [hnone, Nat.zero_add]
      refine ih (a := a + 1) (l := l) (fun k m hm => hexact k m (by omega)) ?_
      rw [hmore, hspan]
      push_cast
      ring
    · have hone : (downsample step state x).2.length = 1 := by simp [downsample, hsmall]
      have htake : min (step - state.windowSpan) 1 = step - state.windowSpan := by
        refine min_eq_left ?_
        by_contra hover
        refine hend ⟨?_, ?_⟩ <;> rw [hspan] at hover hsmall <;> linarith
      have hnext : (downsample step state x).1.windowSpan = 1 - (step - state.windowSpan) := by
        simp [downsample, hsmall, htake]
      rw [hone, ← Nat.add_assoc]
      refine ih (a := a + 1) (l := l + 1) (fun k m hm => hexact k m (by omega)) ?_
      rw [hnext, hspan]
      push_cast
      ring

/-! ## Chunks -/

theorem inChunk_of_fast (hstep : 1 ≤ step) : inChunk step = resampleChunkFrames := by
  unfold inChunk
  rw [min_eq_right hstep, mul_one, Nat.floor_natCast]
  rfl

/-- A chunk of a slower source is a sample, or not longer than its frames. -/
theorem le_inChunk_of_slow (hstep : 0 < step) (hslow : step < 1) {m : Nat}
    (hm : m ≤ inChunk step) : m ≤ 1 ∨ (m : ℚ) ≤ 512 * step := by
  unfold inChunk at hm
  rw [min_eq_left hslow.le] at hm
  rcases le_max_iff.1 hm with h | h
  · exact .inl h
  · refine .inr ((Nat.cast_le.2 h).trans ((Nat.floor_le ?_).trans_eq ?_))
    · exact mul_nonneg (Nat.cast_nonneg _) hstep.le
    · norm_num [resampleChunkFrames]

/-- **There is room for the frames of a chunk**, where the ratio is 1/514 at least. -/
theorem resampleChannel_eq (hstep : 1 / 514 ≤ step) {chunk : List ℚ}
    (hchunk : chunk.length ≤ inChunk step) (hready : state.Ready step)
    (hroom : resampleScratchFrames ≤ room) :
    resampleChannel step chunk room state = samples step state chunk := by
  have hpos : 0 < step := lt_of_lt_of_le (by norm_num) hstep
  unfold resampleScratchFrames resampleChunkFrames at hroom
  unfold resampleChannel
  split_ifs with hfast
  · rw [inChunk_of_fast hfast] at hchunk
    unfold resampleChunkFrames at hchunk
    exact resampleDownsample_eq hfast chunk hready (by omega)
  · have hslow := not_le.1 hfast
    refine resampleUpsample_eq hpos hslow chunk hready (le_trans ?_ hroom)
    have hcount := length_samples_slow hslow state chunk
    have hnext := (hready.samples hpos chunk).phase_lt hslow
    have hphase := hready.phase_nonneg hslow
    by_contra hmany
    have hover : (515 : ℚ) ≤ (samples step state chunk).2.length := by
      exact_mod_cast (by omega : 515 ≤ (samples step state chunk).2.length)
    have hlong : 515 * step ≤ (samples step state chunk).2.length * step :=
      mul_le_mul_of_nonneg_right hover hpos.le
    rcases le_inChunk_of_slow hpos hslow hchunk with hone | hshort
    · have hone' : (chunk.length : ℚ) ≤ 1 := by exact_mod_cast hone
      linarith
    · linarith

/-! ## Sample by sample -/

/-- What a sample makes alone, where there is room for so many frames. -/
def within (step : ℚ) (room : Nat) (state : ResamplerState) (x : ℚ) : ResamplerState × List ℚ :=
  resampleChannel step [x] room state

/-- A state is between samples, where the ratio leaves room for the frames of one. -/
def ResamplerState.Between (step : ℚ) (state : ResamplerState) : Prop :=
  1 / 514 ≤ step → state.Ready step

theorem one_le_inChunk (step : ℚ) : 1 ≤ inChunk step := le_max_left _ _

theorem within_eq_sample (hstep : 1 / 514 ≤ step) (hready : state.Ready step)
    (hroom : resampleScratchFrames ≤ room) (x : ℚ) :
    within step room state x = sample step state x := by
  unfold within
  have hchunk : [x].length ≤ inChunk step := one_le_inChunk step
  rw [resampleChannel_eq hstep hchunk hready hroom]
  exact produce_singleton _ _

theorem ResamplerState.Between.within (hroom : resampleScratchFrames ≤ room)
    (h : state.Between step) (x : ℚ) : (within step room state x).1.Between step := by
  intro hstep
  rw [within_eq_sample hstep (h hstep) hroom]
  exact (h hstep).sample (lt_of_lt_of_le (by norm_num) hstep)

/-- **Where the ratio leaves room, what samples make is not cut.** -/
theorem produce_within (hstep : 1 / 514 ≤ step) (hready : state.Ready step)
    (hroom : resampleScratchFrames ≤ room) (input : List ℚ) :
    produce (within step room) state input = samples step state input := by
  refine produce_congr (P := fun state => state.Ready step) (fun s x hs => ?_)
    (fun s x hs => within_eq_sample hstep hs hroom x) hready input
  rw [within_eq_sample hstep hs hroom]
  exact hs.sample (lt_of_lt_of_le (by norm_num) hstep)

/-- A small ratio leaves no room for two samples in a chunk. -/
theorem inChunk_of_small (hsmall : step < 1 / 514) : inChunk step = 1 := by
  unfold inChunk
  refine max_eq_left ?_
  rw [min_eq_left (by linarith), ← Nat.lt_succ_iff, Nat.floor_lt' (by norm_num)]
  unfold resampleChunkFrames
  push_cast
  linarith

/-- **A chunk is worked through sample by sample**, at every ratio. -/
theorem resampleChannel_eq_produce {chunk : List ℚ} (hchunk : chunk.length ≤ inChunk step)
    (hbetween : state.Between step) (hroom : resampleScratchFrames ≤ room) :
    resampleChannel step chunk room state = produce (within step room) state chunk := by
  by_cases hstep : 1 / 514 ≤ step
  · rw [resampleChannel_eq hstep hchunk (hbetween hstep) hroom,
      produce_within hstep (hbetween hstep) hroom]
  · rw [inChunk_of_small (not_le.1 hstep)] at hchunk
    match chunk, hchunk with
    | [], _ => unfold resampleChannel; split_ifs <;> rfl
    | [x], _ => rw [produce_singleton]; rfl

/-! ## Channels in step -/

/-- The channels of a source: their windows have the same span, their phases are the same. -/
structure ResamplerState.InStep (state other : ResamplerState) : Prop where
  /-- The windows. -/
  span : state.windowSpan = other.windowSpan
  /-- The phases. -/
  phase : state.phase = other.phase

theorem downsampleLoop_inStep (x y : ℚ) (n room : Nat) (remaining : ℚ) {other : ResamplerState}
    (h : state.InStep other) :
    (downsampleLoop step x n remaining room state).1.InStep
        (downsampleLoop step y n remaining room other).1
      ∧ (downsampleLoop step x n remaining room state).2.length
        = (downsampleLoop step y n remaining room other).2.length := by
  induction n generalizing remaining room state other with
  | zero => exact ⟨h, rfl⟩
  | succ n ih =>
    simp only [downsampleLoop, h.span]
    split_ifs with hmore hfull
    · have hempty : ({ state with windowSum := 0, windowSpan := 0 } : ResamplerState).InStep
          { other with windowSum := 0, windowSpan := 0 } := ⟨rfl, h.phase⟩
      obtain ⟨hs, hl⟩ := ih _ _ hempty
      exact ⟨hs, by simpa using hl⟩
    · exact ih _ _ ⟨rfl, h.phase⟩
    · exact ⟨h, rfl⟩

theorem upsampleLoop_inStep (step : ℚ) (room : Nat) (p c p' c' t : ℚ) :
    (upsampleLoop step p c room t).1 = (upsampleLoop step p' c' room t).1
      ∧ (upsampleLoop step p c room t).2.length = (upsampleLoop step p' c' room t).2.length := by
  induction room generalizing t with
  | zero => exact ⟨rfl, rfl⟩
  | succ room ih =>
    simp only [upsampleLoop]
    split_ifs
    · exact ⟨(ih _).1, by simpa using (ih _).2⟩
    · exact ⟨rfl, rfl⟩

/-- **Channels stay in step**, and make equally many frames. -/
theorem within_inStep {y : ℚ} {other : ResamplerState} (h : state.InStep other) :
    (within step room state x).1.InStep (within step room other y).1
      ∧ (within step room state x).2.length = (within step room other y).2.length := by
  unfold within resampleChannel
  by_cases hroom : room = 0
  · subst hroom
    split_ifs <;> exact ⟨h, rfl⟩
  by_cases hfast : 1 ≤ step
  · obtain ⟨hs, hl⟩ :
        (downsampleLoop step x (room + 1) 1 room state).1.InStep
            (downsampleLoop step y (room + 1) 1 room other).1
          ∧ (downsampleLoop step x (room + 1) 1 room state).2.length
            = (downsampleLoop step y (room + 1) 1 room other).2.length :=
      downsampleLoop_inStep x y (room + 1) room 1 h
    simp only [if_pos hfast, resampleDownsample, if_neg hroom, List.append_nil]
    exact ⟨hs, hl⟩
  · simp only [if_neg hfast, resampleUpsample, if_neg hroom, List.append_nil, h.phase]
    obtain ⟨hp, hl⟩ := upsampleLoop_inStep step room
      (if state.primed then state.previous else x) x (if other.primed then other.previous else y)
      y other.phase
    exact ⟨⟨h.span, by dsimp only; rw [hp]⟩, hl⟩

end LinApple.Audio
