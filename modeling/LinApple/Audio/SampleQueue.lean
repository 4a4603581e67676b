import LinApple.Audio.SampleBuffer

/-!
# The ring is a queue

Whatever order the threads take their steps in, the audio thread takes out what the emulation has
put in, in its order, and each sample once (`queue_run`). What a thread is about to write is not
what the other is about to read (`apart_run`), and that holds for the two cells in front of the
read index, which a drain looks at after it has given them back, because a ring of frames always
has a frame of room.

An upload is not one step here. It looks at the read index, copies its samples one cell at a time,
in any order, and only then moves the write index; a drain does the like on its side. A step of
the machine is one access to something both threads can see, so that every interleaving of the two
is a run. What is taken for granted is that each access is seen whole, and that the stores before
an index is moved are seen by whoever sees it moved, which is what the program's memory orders are
for.

`Mixing.Sound` is the invariant. There is a queue that neither index has: the samples from the
read index on, as far as the upload that has been announced last. `lag` is what the audio thread
has taken and not given back yet. The indices are where these say, both counts are even, and there
is a frame of room. What a thread knows from an earlier look at the other's index may be old, and
old knowledge is on the safe side, as each index only moves one way; that is the second half of
the invariant, one condition for each place a thread can stand at.

The history is the one of `Fifo`. A flush drops what is in the queue when it loads the write
index, and an upload under way then is not dropped.
-/

namespace LinApple.Audio

open Circular

variable {F : Type} {arith : SampleArithmetic F}

/-! ## Even counts -/

theorem evenPart_le (n : Nat) : evenPart n ≤ n := Nat.sub_le _ _

theorem evenPart_mod (n : Nat) : evenPart n % 2 = 0 := by
  unfold evenPart
  omega

/-! ## What a drain has mixed so far -/

/-- The samples that were read are mixed in, and the rest is left. -/
def mixedInto (arith : SampleArithmetic F) (dest got : List F) : List F :=
  List.zipWith arith.mix dest got ++ dest.drop got.length

@[simp] theorem mixedInto_nil (dest : List F) : mixedInto arith dest [] = dest := by
  simp [mixedInto]

/-- One sample more. -/
theorem mixedInto_concat {dest got : List F} (h : got.length < dest.length) (x : F) :
    (mixedInto arith dest got).set got.length
        (arith.mix ((mixedInto arith dest got).getD got.length arith.zero) x)
      = mixedInto arith dest (got ++ [x]) := by
  induction dest generalizing got with
  | nil => exact absurd h (Nat.not_lt_zero _)
  | cons d dest ih =>
    cases got with
    | nil => simp [mixedInto]
    | cons g got => exact congrArg (arith.mix d g :: ·) (ih (Nat.lt_of_succ_lt_succ h))

/-! ## Places on the ring -/

namespace SampleBuffer

variable {sb : SampleBuffer F}

theorem cellFrom_eq {index i : Nat} (hindex : index < sb.size) (hi : i < sb.size) :
    sb.cellFrom index i = slot sb.size index i := by
  rw [cellFrom, slot_eq hindex (Nat.le_of_lt hi)]
  split_ifs <;> omega

theorem indexAfter_eq {index num : Nat} (hindex : index < sb.size) (hnum : num ≤ sb.size) :
    sb.indexAfter index num = slot sb.size index num := by
  rw [indexAfter, slot_eq hindex hnum]
  split_ifs <;> omega

theorem lastRIdx_eq (hread : sb.readIndex < sb.size) :
    sb.lastRIdx = slot sb.size sb.readIndex (sb.size - 1) := by
  rw [lastRIdx, slot_eq hread (Nat.sub_le _ _)]
  split_ifs <;> omega

theorem lastLIdx_eq (hread : sb.readIndex < sb.size) (hsize : 2 ≤ sb.size) :
    sb.lastLIdx = slot sb.size sb.readIndex (sb.size - 2) := by
  rw [lastLIdx, lastRIdx, slot_eq hread (Nat.sub_le _ _)]
  split_ifs <;> omega

/-- **What is filled** is the length of what is kept. -/
theorem getFilled_eq {n : Nat} (hread : sb.readIndex < sb.size) (hn : n < sb.size)
    (hwrite : sb.writeIndex = slot sb.size sb.readIndex n) : sb.getFilled = n := by
  rw [getFilled, if_neg (by omega), hwrite]
  exact distance_eq hread hn

end SampleBuffer

/-! ## What the threads keep to -/

/-- **The emulation has room for what it copies**, and has copied what is not left. -/
def Producer.Sound (sb : SampleBuffer F) (used : Nat) : Producer F → Prop
  | .idle => True
  | .copying samples left =>
    used + samples.length + 2 ≤ sb.size ∧ samples.length % 2 = 0 ∧ left.Nodup
      ∧ (∀ i ∈ left, i < samples.length)
      ∧ ∀ i, i < samples.length → i ∉ left →
        sb.buffer[slot sb.size sb.writeIndex i]? = samples[i]?

/-- **The audio thread knows what it may take**, and what it has read was in front. Of what it
has given back it still finds the last frame. -/
def Consumer.Sound (arith : SampleArithmetic F) (sb : SampleBuffer F) (lag : Nat) (q : List F) :
    Consumer F → Prop
  | .idle => lag = 0
  | .flushing => lag = 0
  | .flushTo w => w = slot sb.size sb.readIndex lag
  | .skipping num => lag = 0 ∧ num ≤ q.length ∧ num % 2 = 0
  | .draining dest mixed num got =>
    lag = 0 ∧ num ≤ q.length ∧ num % 2 = 0 ∧ 0 < num ∧ num ≤ dest.length
      ∧ got <+: q ∧ got.length ≤ num ∧ mixed = mixedInto arith dest got
  | .released dest mixed got =>
    lag = 0 ∧ got.length % 2 = 0 ∧ 0 < got.length ∧ got.length ≤ dest.length
      ∧ mixed = mixedInto arith dest got
      ∧ sb.buffer[slot sb.size sb.readIndex (sb.size - 2)]? = got[got.length - 2]?
      ∧ sb.buffer[slot sb.size sb.readIndex (sb.size - 1)]? = got[got.length - 1]?
  | .leftRead dest mixed got =>
    lag = 0 ∧ got.length % 2 = 0 ∧ 0 < got.length ∧ got.length ≤ dest.length
      ∧ mixed = mixedInto arith dest got
      ∧ got[got.length - 2]? = some sb.lastLeft
      ∧ sb.buffer[slot sb.size sb.readIndex (sb.size - 1)]? = got[got.length - 1]?

/-- **The ring keeps a queue.** The queue begins behind what a flush is about to pass over. -/
structure Mixing.Sound (arith : SampleArithmetic F) (s : Mixing F) (lag : Nat) (q : List F) :
    Prop where
  /-- The read index is one. -/
  read_lt : s.sb.readIndex < s.sb.size
  /-- The ring is one of frames. -/
  even : s.sb.size % 2 = 0 ∧ lag % 2 = 0 ∧ q.length % 2 = 0
  /-- The write index is behind the queue. -/
  write_eq : s.sb.writeIndex = slot s.sb.size s.sb.readIndex (lag + q.length)
  /-- There is a frame of room. -/
  fits : lag + q.length + 2 ≤ s.sb.size
  /-- The queue is in the ring. -/
  keeps : Keeps s.sb.buffer (slot s.sb.size s.sb.readIndex lag) q
  /-- The emulation. -/
  producer : s.producer.Sound s.sb (lag + q.length)
  /-- The audio thread. -/
  consumer : s.consumer.Sound arith s.sb lag q

/-- **What an output tells of the queue.** A flush says only that what there was is gone, and not
what it was: the contents are the queue's to know. A skip says how many. -/
def Output.Told : Output F → List (Fifo.Event F) → Prop
  | .accepted xs, es => es = [.accept xs]
  | .taken xs, es => es = [.take xs]
  | .skipped num, es => ∃ xs, xs.length = num ∧ es = [.drop xs]
  | .flushed, es => ∃ xs, es = [.clear xs]
  | .silenced, es => es = []
  | .drained .., es => es = []

/-- **One step of the ring is one of the queue**: its outputs tell of the events that lead to the
queue that is kept then. -/
def Mixing.Tells (arith : SampleArithmetic F) (r : Mixing F × Option (Output F)) (q : List F) :
    Prop :=
  ∃ ess q', List.Forall₂ Output.Told r.2.toList ess ∧ Fifo.Serves q ess.flatten q'
    ∧ ∃ lag, r.1.Sound arith lag q'

namespace Producer.Sound

variable {sb sb' : SampleBuffer F} {used used' : Nat} {p : Producer F}

/-- What the audio thread does is nothing to the emulation, which keeps its room. -/
theorem congr (h : p.Sound sb used) (hbuffer : sb'.buffer = sb.buffer)
    (hwrite : sb'.writeIndex = sb.writeIndex) (hused : used' ≤ used) : p.Sound sb' used' := by
  have hsize : sb'.size = sb.size := congrArg List.length hbuffer
  cases p with
  | idle => trivial
  | copying samples left =>
    obtain ⟨hroom, hrest⟩ := h
    rw [Producer.Sound, hsize, hwrite, hbuffer]
    exact ⟨by omega, hrest⟩

end Producer.Sound

namespace Consumer.Sound

variable {sb sb' : SampleBuffer F} {lag : Nat} {q : List F} {c : Consumer F}

/-- The audio thread looks at the cells, the read index and the frame that is held. -/
theorem congr (h : c.Sound arith sb lag q) (hbuffer : sb'.buffer = sb.buffer)
    (hread : sb'.readIndex = sb.readIndex) (hleft : sb'.lastLeft = sb.lastLeft) :
    c.Sound arith sb' lag q := by
  have hsize : sb'.size = sb.size := congrArg List.length hbuffer
  cases c with
  | idle => exact h
  | flushing => exact h
  | flushTo w => rwa [Consumer.Sound, hsize, hread]
  | skipping num => exact h
  | draining dest mixed num got => exact h
  | released dest mixed got => rwa [Consumer.Sound, hsize, hread, hbuffer]
  | leftRead dest mixed got => rwa [Consumer.Sound, hsize, hread, hbuffer, hleft]

/-- More samples behind the queue are nothing to the audio thread. -/
theorem append (h : c.Sound arith sb lag q) (xs : List F) : c.Sound arith sb lag (q ++ xs) := by
  cases c with
  | idle => exact h
  | flushing => exact h
  | flushTo w => exact h
  | skipping num =>
    obtain ⟨hlag, hle, heven⟩ := h
    exact ⟨hlag, by rw [List.length_append]; omega, heven⟩
  | draining dest mixed num got =>
    obtain ⟨hlag, hle, heven, hpos, hdest, hgot, hrest⟩ := h
    exact ⟨hlag, by rw [List.length_append]; omega, heven, hpos, hdest,
      hgot.trans (List.prefix_append q xs), hrest⟩
  | released dest mixed got => exact h
  | leftRead dest mixed got => exact h

end Consumer.Sound

namespace Mixing.Sound

variable {s : Mixing F} {lag : Nat} {q : List F}

/-- Nothing happens to the queue. -/
theorem quiet {s' : Mixing F} (h : s'.Sound arith lag q) : Tells arith (s', none) q :=
  ⟨[], q, .nil, rfl, lag, h⟩

/-- Something is heard, and nothing happens to the queue. -/
theorem silent {s' : Mixing F} {o : Output F} (ho : o.Told []) (h : s'.Sound arith lag q) :
    Tells arith (s', some o) q :=
  ⟨[[]], q, .cons ho .nil, rfl, lag, h⟩

/-- Something happens to the queue. -/
theorem told {s' : Mixing F} {o : Output F} {e : Fifo.Event F} {r : List F} {l : Nat}
    (ho : o.Told [e]) (he : Fifo.Step q e r) (h : s'.Sound arith l r) :
    Tells arith (s', some o) q :=
  ⟨[[e]], r, .cons ho .nil, ⟨r, he, rfl⟩, l, h⟩

/-- Only the flags and the frame that is held may change, for an audio thread to which they are
nothing. -/
theorem withSb (h : s.Sound arith lag q) {sb : SampleBuffer F} {c : Consumer F}
    (hbuffer : sb.buffer = s.sb.buffer) (hread : sb.readIndex = s.sb.readIndex)
    (hwrite : sb.writeIndex = s.sb.writeIndex) (hc : c.Sound arith sb lag q) :
    Mixing.Sound arith ⟨sb, s.producer, c⟩ lag q := by
  have hsize : sb.size = s.sb.size := congrArg List.length hbuffer
  constructor
  case read_lt => exact hread ▸ hsize ▸ h.read_lt
  case even => exact hsize ▸ h.even
  case write_eq =>
    show sb.writeIndex = slot sb.size sb.readIndex (lag + q.length)
    rw [hwrite, hsize, hread, h.write_eq]
  case fits => exact hsize ▸ h.fits
  case keeps =>
    show Keeps sb.buffer (slot sb.size sb.readIndex lag) q
    rw [hbuffer, hsize, hread]
    exact h.keeps
  case producer => exact h.producer.congr hbuffer hwrite (Nat.le_refl _)
  case consumer => exact hc

/-- What is filled is what is kept. -/
theorem getFilled_eq (h : s.Sound arith lag q) : s.sb.getFilled = lag + q.length :=
  SampleBuffer.getFilled_eq h.read_lt (by have := h.fits; omega) h.write_eq

theorem getFree_eq (h : s.Sound arith lag q) :
    s.sb.getFree = s.sb.size - 1 - (lag + q.length) := by
  have hfits := h.fits
  rw [SampleBuffer.getFree, h.getFilled_eq, if_neg (by omega), if_neg (by omega)]

/-! ## The emulation -/

/-- **An upload keeps a frame of room.** -/
theorem uploadCount_spec (h : s.Sound arith lag q) {len : Nat} (hlen : len % 2 = 0) :
    lag + q.length + s.sb.uploadCount len + 2 ≤ s.sb.size ∧ s.sb.uploadCount len % 2 = 0
      ∧ s.sb.uploadCount len ≤ len := by
  obtain ⟨hsize, hlag, hq⟩ := h.even
  have hfits := h.fits
  rw [SampleBuffer.uploadCount, h.getFree_eq]
  unfold evenPart
  split_ifs <;> omega

theorem upload (h : s.Sound arith lag q) {src : List F} (hsrc : src.length % 2 = 0) :
    Tells arith (s.step arith (.upload src)) q := by
  obtain ⟨sb, p, c⟩ := s
  cases p with
  | copying samples left => exact h.quiet
  | idle =>
    obtain ⟨hroom, heven, hle⟩ := h.uploadCount_spec hsrc
    rw [Mixing.step]
    dsimp only at hroom heven hle ⊢
    split
    · exact h.quiet
    · have hlength : (src.take (sb.uploadCount src.length)).length = sb.uploadCount src.length := by
        rw [List.length_take]
        exact Nat.min_eq_left hle
      refine quiet { h with producer := ⟨by rwa [hlength], by rwa [hlength], List.nodup_range, ?_, ?_⟩ }
      · intro i hi
        rw [hlength]
        exact List.mem_range.1 hi
      · intro i hi hnot
        rw [hlength] at hi
        exact absurd (List.mem_range.2 hi) hnot

/-- **The cell that is written** is behind the queue, and there is a frame of room behind it. -/
theorem copyCell_eq (h : s.Sound arith lag q) {i n : Nat} (hi : i < n)
    (hroom : lag + q.length + n + 2 ≤ s.sb.size) :
    s.sb.cellFrom s.sb.writeIndex i = slot s.sb.size s.sb.readIndex (lag + q.length + i) := by
  have hwrite : s.sb.writeIndex < s.sb.size := by
    rw [h.write_eq]
    exact slot_lt (by omega)
  rw [SampleBuffer.cellFrom_eq hwrite (by omega), h.write_eq, slot_slot]

/-- **A sample that is written behind the queue** is nothing to the queue and to the audio
thread. -/
theorem store (h : s.Sound arith lag q) {d : Nat} (hd : lag + q.length ≤ d)
    (hroom : d + 2 < s.sb.size) (x : F) {p : Producer F}
    (hp : p.Sound (s.sb.store (slot s.sb.size s.sb.readIndex d) x) (lag + q.length)) :
    Mixing.Sound arith ⟨s.sb.store (slot s.sb.size s.sb.readIndex d) x, p, s.consumer⟩ lag q := by
  -- the cell stored is past all that the queue holds, and every other cell stays
  have hother : ∀ j, j < s.sb.size → j ≠ d →
      (s.sb.store (slot s.sb.size s.sb.readIndex d) x).buffer[slot s.sb.size s.sb.readIndex j]?
        = s.sb.buffer[slot s.sb.size s.sb.readIndex j]? := fun j hj hne =>
    List.getElem?_set_ne (slot_ne h.read_lt hj (by omega) hne).symm
  have hfits := h.fits
  constructor
  case read_lt =>
    rw [SampleBuffer.size_store]
    exact h.read_lt
  case even =>
    rw [SampleBuffer.size_store]
    exact h.even
  case write_eq =>
    rw [SampleBuffer.size_store]
    exact h.write_eq
  case fits =>
    rw [SampleBuffer.size_store]
    exact hfits
  case producer => exact hp
  case keeps =>
    rw [SampleBuffer.size_store]
    refine h.keeps.set (fun j hj => ?_) x
    show slot s.sb.size (slot s.sb.size s.sb.readIndex lag) j ≠ _
    rw [slot_slot]
    exact slot_ne h.read_lt (by omega) (by omega) (by omega)
  case consumer =>
    obtain ⟨sb, p', c⟩ := s
    have hc := h.consumer
    cases c with
    -- the two cells read back lie behind the read index, at the ring's far end
    | released dest mixed got =>
      obtain ⟨hlag, heven, hpos, hdest, hmixed, hleft, hright⟩ := hc
      refine ⟨hlag, heven, hpos, hdest, hmixed, ?_, ?_⟩
      · rw [SampleBuffer.size_store, SampleBuffer.readIndex_store, hother _ (by omega) (by omega)]
        exact hleft
      · rw [SampleBuffer.size_store, SampleBuffer.readIndex_store, hother _ (by omega) (by omega)]
        exact hright
    | leftRead dest mixed got =>
      obtain ⟨hlag, heven, hpos, hdest, hmixed, hleft, hright⟩ := hc
      refine ⟨hlag, heven, hpos, hdest, hmixed, hleft, ?_⟩
      rw [SampleBuffer.size_store, SampleBuffer.readIndex_store, hother _ (by omega) (by omega)]
      exact hright
    | flushTo w =>
      show w = slot (sb.store _ x).size sb.readIndex lag
      rw [SampleBuffer.size_store]
      exact hc
    | idle => exact hc
    | flushing => exact hc
    | skipping num => exact hc
    | draining dest mixed num got => exact hc

theorem copy (h : s.Sound arith lag q) (i : Nat) : Tells arith (s.step arith (.copy i)) q := by
  obtain ⟨sb, p, c⟩ := s
  cases p with
  | idle => exact h.quiet
  | copying samples left =>
    rw [Mixing.step]
    dsimp only
    split
    case isFalse => exact h.quiet
    case isTrue hmem =>
      obtain ⟨hroom, heven, hnodup, hleft, hdone⟩ := h.producer
      have hi : i < samples.length := hleft i hmem
      have hread : sb.readIndex < sb.size := h.read_lt
      have hwrite : sb.writeIndex = slot sb.size sb.readIndex (lag + q.length) := h.write_eq
      have hcell : sb.cellFrom sb.writeIndex i = slot sb.size sb.readIndex (lag + q.length + i) :=
        h.copyCell_eq hi hroom
      dsimp only at hroom hdone
      rw [hcell]
      refine quiet (h.store (Nat.le_add_right _ i) (by dsimp only; omega) _ ?_)
      refine ⟨by rwa [SampleBuffer.size_store], heven, hnodup.erase i,
        fun j hj => hleft j (List.mem_of_mem_erase hj), fun j hj hnot => ?_⟩
      rw [SampleBuffer.size_store, SampleBuffer.writeIndex_store, hwrite, slot_slot]
      show (sb.buffer.set _ _)[_]? = _
      by_cases hij : j = i
      · subst hij
        have hslot : slot sb.size sb.readIndex (lag + q.length + j) < sb.buffer.length :=
          slot_lt (show 0 < sb.size by omega)
        rw [List.getElem?_set_self hslot, List.getD_eq_getElem?_getD, List.getElem?_eq_getElem hj]
        rfl
      · have hne : j ∉ left := fun hin => hnot ((hnodup.mem_erase_iff).2 ⟨hij, hin⟩)
        rw [List.getElem?_set_ne (slot_ne hread (by omega) (by omega) (by omega)), ← hdone j hj hne,
          hwrite, slot_slot]

theorem publish (h : s.Sound arith lag q) : Tells arith (s.step arith .publish) q := by
  obtain ⟨sb, p, c⟩ := s
  cases p with
  | idle => exact h.quiet
  | copying samples left =>
    cases left with
    | cons i left => exact h.quiet
    | nil =>
      obtain ⟨hroom, heven, -, -, hdone⟩ := h.producer
      obtain ⟨hsize, hlag, hq⟩ := h.even
      have hread : sb.readIndex < sb.size := h.read_lt
      have hwrite : sb.writeIndex = slot sb.size sb.readIndex (lag + q.length) := h.write_eq
      dsimp only at hroom hdone hsize
      have hlt : sb.writeIndex < sb.size := hwrite ▸ slot_lt (by omega)
      refine told (r := q ++ samples) (l := lag) rfl (.accept q samples) ?_
      constructor
      case read_lt => exact hread
      case even => exact ⟨hsize, hlag, by rw [List.length_append]; omega⟩
      case write_eq =>
        show sb.indexAfter sb.writeIndex samples.length = _
        rw [SampleBuffer.indexAfter_eq hlt (by omega), hwrite, slot_slot, List.length_append,
          Nat.add_assoc]
      case fits =>
        rw [List.length_append, ← Nat.add_assoc]
        exact hroom
      case keeps =>
        refine h.keeps.append fun i hi => ?_
        show sb.buffer[slot sb.size (slot sb.size (slot sb.size sb.readIndex lag) q.length) i]? = _
        have hget := hdone i hi List.not_mem_nil
        rw [hwrite, slot_slot] at hget
        rw [slot_slot, slot_slot, ← Nat.add_assoc]
        exact hget
      case producer => trivial
      case consumer => exact (h.consumer.append samples).congr rfl rfl rfl

theorem requestFlush (h : s.Sound arith lag q) : Tells arith (s.step arith .requestFlush) q :=
  quiet (h.withSb rfl rfl rfl (h.consumer.congr rfl rfl rfl))

/-! ## The audio thread -/

theorem checkFlush (h : s.Sound arith lag q) : Tells arith (s.step arith .checkFlush) q := by
  obtain ⟨sb, p, c⟩ := s
  cases c with
  | idle =>
    rw [Mixing.step]
    dsimp only
    split
    · exact h.quiet
    · exact quiet (h.withSb (c := .flushing) rfl rfl rfl h.consumer)
  | _ => exact h.quiet

theorem silence (h : s.Sound arith lag q) : Tells arith (s.step arith .silence) q := by
  obtain ⟨sb, p, c⟩ := s
  cases c with
  | idle => exact silent rfl (h.withSb (c := .idle) rfl rfl rfl h.consumer)
  | _ => exact h.quiet

theorem skip (h : s.Sound arith lag q) (len : Nat) : Tells arith (s.step arith (.skip len)) q := by
  obtain ⟨sb, p, c⟩ := s
  cases c with
  | idle =>
    rw [Mixing.step]
    dsimp only
    split
    · exact h.quiet
    · obtain rfl : lag = 0 := h.consumer
      have hfilled : sb.getFilled = q.length := h.getFilled_eq.trans (Nat.zero_add _)
      refine quiet (h.withSb (c := .skipping _) rfl rfl rfl ⟨rfl, ?_, evenPart_mod _⟩)
      refine Nat.le_trans (evenPart_le _) ?_
      rw [hfilled]
      split_ifs
      · omega
      · exact Nat.le_refl _
  | _ => exact h.quiet

/-- **The end of a drain** is nothing to the queue. -/
theorem finish (h : s.Sound arith 0 q) (sb : SampleBuffer F) (hbuffer : sb.buffer = s.sb.buffer)
    (hread : sb.readIndex = s.sb.readIndex) (hwrite : sb.writeIndex = s.sb.writeIndex)
    (dest mixed got : List F) : Tells arith (s.finish arith sb dest mixed got) q :=
  silent rfl (h.withSb hbuffer hread hwrite (c := .idle) rfl)

theorem drain (h : s.Sound arith lag q) {dest : List F} (hdest : dest.length % 2 = 0) :
    Tells arith (s.step arith (.drain dest)) q := by
  obtain ⟨sb, p, c⟩ := s
  cases c with
  | idle =>
    obtain rfl : lag = 0 := h.consumer
    have hfilled : sb.getFilled = q.length := h.getFilled_eq.trans (Nat.zero_add _)
    have hcount : sb.drainCount dest.length ≤ q.length ∧ sb.drainCount dest.length % 2 = 0
        ∧ sb.drainCount dest.length ≤ dest.length := by
      rw [SampleBuffer.drainCount, hfilled]
      unfold evenPart
      split_ifs <;> omega
    obtain ⟨hle, heven, hfits⟩ := hcount
    rw [Mixing.step]
    dsimp only
    split
    case isTrue => exact h.finish sb rfl rfl rfl dest dest []
    case isFalse hsome =>
      exact quiet (h.withSb (c := .draining dest dest _ []) rfl rfl rfl
        ⟨rfl, hle, heven, Nat.pos_of_ne_zero hsome, hfits, List.nil_prefix, Nat.zero_le _,
          (mixedInto_nil dest).symm⟩)
  | _ => exact h.quiet

/-- **The read index moves on**, over what goes from the queue. -/
theorem pass {xs : List F} (h : s.Sound arith lag (xs ++ q)) (hxs : xs.length % 2 = 0)
    {sb : SampleBuffer F} {c : Consumer F} (hbuffer : sb.buffer = s.sb.buffer)
    (hread : sb.readIndex = slot s.sb.size s.sb.readIndex (lag + xs.length))
    (hwrite : sb.writeIndex = s.sb.writeIndex) (hc : c.Sound arith sb 0 q) :
    Mixing.Sound arith ⟨sb, s.producer, c⟩ 0 q := by
  have hsize : sb.size = s.sb.size := congrArg List.length hbuffer
  obtain ⟨heven, hlag, hq⟩ := h.even
  have hfits := h.fits
  rw [List.length_append] at hq hfits
  constructor
  case read_lt =>
    show sb.readIndex < sb.size
    rw [hread, hsize]
    exact slot_lt (by omega)
  case even => exact ⟨hsize ▸ heven, rfl, by omega⟩
  case write_eq =>
    show sb.writeIndex = slot sb.size sb.readIndex (0 + q.length)
    rw [hwrite, hsize, hread, h.write_eq, slot_slot, List.length_append, Nat.zero_add,
      Nat.add_assoc]
  case fits =>
    show 0 + q.length + 2 ≤ sb.size
    omega
  case keeps =>
    have hkeeps := h.keeps.drop
    show Keeps sb.buffer (slot sb.size sb.readIndex 0) q
    rw [slot_slot] at hkeeps
    rwa [hbuffer, hsize, hread, slot_slot, Nat.add_zero]
  case producer =>
    refine h.producer.congr hbuffer hwrite ?_
    rw [List.length_append]
    omega
  case consumer => exact hc

/-- **What is flushed is what is there** when the audio thread looks. -/
theorem consume_flushing {sb : SampleBuffer F} {p : Producer F}
    (h : Mixing.Sound arith ⟨sb, p, .flushing⟩ lag q) :
    Tells arith (Mixing.consume arith ⟨sb, p, .flushing⟩) q := by
  obtain rfl : lag = 0 := h.consumer
  refine told (r := []) (l := q.length) ⟨q, rfl⟩ (.clear q) ?_
  obtain ⟨heven, -, hq⟩ := h.even
  have hwrite : sb.writeIndex = slot sb.size sb.readIndex q.length :=
    h.write_eq.trans (by rw [Nat.zero_add])
  exact
    { read_lt := h.read_lt
      even := ⟨heven, hq, rfl⟩
      write_eq := hwrite
      fits := (Nat.zero_add q.length ▸ h.fits :)
      keeps := Keeps.nil _ _
      producer := h.producer.congr rfl rfl (Nat.le_of_eq (Nat.zero_add _).symm)
      consumer := hwrite }

theorem consume_flushTo {sb : SampleBuffer F} {p : Producer F} {w : Nat}
    (h : Mixing.Sound arith ⟨sb, p, .flushTo w⟩ lag q) :
    Tells arith (Mixing.consume arith ⟨sb, p, .flushTo w⟩) q := by
  have hnothing : Mixing.Sound arith ⟨sb, p, .flushTo w⟩ lag ([] ++ q) := h
  exact silent rfl (pass hnothing rfl rfl h.consumer rfl rfl)

theorem consume_skipping {sb : SampleBuffer F} {p : Producer F} {num : Nat}
    (h : Mixing.Sound arith ⟨sb, p, .skipping num⟩ lag q) :
    Tells arith (Mixing.consume arith ⟨sb, p, .skipping num⟩) q := by
  obtain ⟨rfl, hle, heven⟩ := h.consumer
  have hlength : (q.take num).length = num := by
    rw [List.length_take]
    exact Nat.min_eq_left hle
  rw [← List.take_append_drop num q] at h ⊢
  refine told (r := q.drop num) ⟨q.take num, hlength, rfl⟩ (.drop _ _) (pass h ?_ rfl ?_ rfl rfl)
  · rwa [hlength]
  · rw [hlength, Nat.zero_add]
    rfl

/-- **What a drain reads** is what is in front, and what it gives back it still finds in front of
the read index. -/
theorem consume_draining {sb : SampleBuffer F} {p : Producer F} {dest mixed got : List F} {num : Nat}
    (h : Mixing.Sound arith ⟨sb, p, .draining dest mixed num got⟩ lag q) :
    Tells arith (Mixing.consume arith ⟨sb, p, .draining dest mixed num got⟩) q := by
  obtain ⟨rfl, hle, heven, hpos, hdest, ⟨rest, rfl⟩, hcount, hmixed⟩ := h.consumer
  have hread : sb.readIndex < sb.size := h.read_lt
  have hfits : 0 + (got ++ rest).length + 2 ≤ sb.size := h.fits
  have hcell : ∀ i, i < (got ++ rest).length →
      sb.buffer[slot sb.size sb.readIndex i]? = (got ++ rest)[i]? := fun i hi => by
    have hkeeps := h.keeps i hi
    rwa [slot_slot, Nat.zero_add] at hkeeps
  rw [List.length_append] at hle hfits
  rw [Mixing.consume]
  dsimp only
  split
  -- one more sample is taken from its cell into the mix, and the read index stays
  case isTrue hmore =>
    cases rest with
    | nil => exact absurd hle (by rw [List.length_nil]; omega)
    | cons x rest =>
      have hget : sb.buffer[slot sb.size sb.readIndex got.length]? = some x := by
        rw [hcell _ (by simp), List.getElem?_append_right (Nat.le_refl _), Nat.sub_self]
        rfl
      rw [SampleBuffer.cellFrom_eq hread (by omega), List.getD_eq_getElem?_getD (l := sb.buffer),
        hget, Option.getD_some]
      refine quiet (h.withSb rfl rfl rfl ⟨rfl, ?_, heven, hpos, hdest, ⟨rest, ?_⟩, ?_, ?_⟩)
      · rwa [List.length_append]
      · rw [List.append_assoc]
        rfl
      · rw [List.length_append]
        exact hmore
      · rw [hmixed]
        exact mixedInto_concat (by omega) x
  -- all samples are mixed, and the read index passes them in one store
  case isFalse hdone =>
    obtain rfl : got.length = num := by omega
    have hindex : sb.indexAfter sb.readIndex got.length = slot sb.size sb.readIndex got.length :=
      SampleBuffer.indexAfter_eq hread (by omega)
    -- the last frame mixed, read backwards from the new read index
    have hheld : ∀ i, 0 < i → i ≤ got.length →
        sb.buffer[slot sb.size (slot sb.size sb.readIndex got.length) (sb.size - i)]?
          = got[got.length - i]? := fun i hi hle => by
      have hturn : slot sb.size (slot sb.size sb.readIndex got.length) (sb.size - i)
          = slot sb.size sb.readIndex (got.length - i) := by
        have hsum : sb.readIndex + (got.length + (sb.size - i))
            = sb.readIndex + (got.length - i) + sb.size := by omega
        rw [slot_slot, slot, slot, hsum, Nat.add_mod_right]
      rw [hturn, hcell _ (by rw [List.length_append]; omega), List.getElem?_append_left (by omega)]
    refine told (r := rest) rfl (.take got rest) (pass h heven rfl ?_ rfl ?_)
    · rw [Nat.zero_add]
      exact hindex
    · refine ⟨rfl, heven, hpos, hdest, hmixed, ?_, ?_⟩
      · show sb.buffer[slot sb.size (sb.indexAfter sb.readIndex got.length) (sb.size - 2)]? = _
        rw [hindex]
        exact hheld 2 (by decide) (by omega)
      · show sb.buffer[slot sb.size (sb.indexAfter sb.readIndex got.length) (sb.size - 1)]? = _
        rw [hindex]
        exact hheld 1 (by decide) (by omega)

theorem consume_released {sb : SampleBuffer F} {p : Producer F} {dest mixed got : List F}
    (h : Mixing.Sound arith ⟨sb, p, .released dest mixed got⟩ lag q) :
    Tells arith (Mixing.consume arith ⟨sb, p, .released dest mixed got⟩) q := by
  obtain ⟨rfl, heven, hpos, hdest, hmixed, hleft, hright⟩ := h.consumer
  have hread : sb.readIndex < sb.size := h.read_lt
  have hlt : got.length - 2 < got.length := by omega
  have hlast : sb.buffer.getD sb.lastLIdx arith.zero = got[got.length - 2] := by
    have hfits : 0 + q.length + 2 ≤ sb.size := h.fits
    rw [SampleBuffer.lastLIdx_eq hread (by omega), List.getD_eq_getElem?_getD, hleft,
      List.getElem?_eq_getElem hlt]
    rfl
  refine quiet (h.withSb rfl rfl rfl ⟨rfl, heven, hpos, hdest, hmixed, ?_, hright⟩)
  rw [List.getElem?_eq_getElem hlt, ← hlast]

theorem consume_leftRead {sb : SampleBuffer F} {p : Producer F} {dest mixed got : List F}
    (h : Mixing.Sound arith ⟨sb, p, .leftRead dest mixed got⟩ lag q) :
    Tells arith (Mixing.consume arith ⟨sb, p, .leftRead dest mixed got⟩) q := by
  obtain ⟨rfl, -⟩ := h.consumer
  exact h.finish { sb with lastRight := sb.buffer.getD sb.lastRIdx arith.zero } rfl rfl rfl dest mixed got

theorem consume (h : s.Sound arith lag q) : Tells arith (s.step arith .consume) q := by
  obtain ⟨sb, p, c⟩ := s
  cases c with
  | idle => exact h.quiet
  | flushing => exact h.consume_flushing
  | flushTo w => exact h.consume_flushTo
  | skipping num => exact h.consume_skipping
  | draining dest mixed num got => exact h.consume_draining
  | released dest mixed got => exact h.consume_released
  | leftRead dest mixed got => exact h.consume_leftRead

/-- **One step of the ring is one of the queue**, whichever thread takes it. -/
theorem step (h : s.Sound arith lag q) {a : Act F} (ha : a.Frames) :
    Tells arith (s.step arith a) q := by
  cases a with
  | upload src => exact h.upload ha
  | copy i => exact h.copy i
  | publish => exact h.publish
  | requestFlush => exact h.requestFlush
  | checkFlush => exact h.checkFlush
  | skip len => exact h.skip len
  | drain dest => exact h.drain ha
  | silence => exact h.silence
  | consume => exact h.consume

/-- A ring that is new is empty. -/
theorem new {capacity : Nat} (hpos : 0 < capacity) (heven : capacity % 2 = 0) :
    (Mixing.new arith capacity).Sound arith 0 [] := by
  have hsize : (Mixing.new arith capacity).sb.size = capacity := List.length_replicate
  constructor
  case read_lt =>
    show 0 < (Mixing.new arith capacity).sb.size
    rwa [hsize]
  case even =>
    rw [hsize]
    exact ⟨heven, rfl, rfl⟩
  case write_eq =>
    rw [hsize]
    exact (slot_zero hpos).symm
  case fits =>
    rw [hsize, List.length_nil]
    omega
  case keeps => exact Keeps.nil _ _
  case producer => trivial
  case consumer => rfl

end Mixing.Sound

/-! ## Whole runs -/

theorem Mixing.size_consume (s : Mixing F) : (s.consume arith).1.sb.size = s.sb.size := by
  obtain ⟨sb, p, c⟩ := s
  cases c with
  | draining dest mixed num got =>
    rw [Mixing.consume]
    dsimp only
    split <;> rfl
  | _ => rfl

/-- The ring keeps its size. -/
theorem Mixing.size_step (s : Mixing F) (a : Act F) : (s.step arith a).1.sb.size = s.sb.size := by
  obtain ⟨sb, p, c⟩ := s
  -- no step sizes the ring anew, and `store` is the only one that touches the buffer at all
  cases a with
  | upload src =>
    cases p with
    | copying samples left => rfl
    | idle =>
      rw [Mixing.step]
      dsimp only
      split <;> rfl
  | copy i =>
    cases p with
    | idle => rfl
    | copying samples left =>
      rw [Mixing.step]
      dsimp only
      split
      · exact SampleBuffer.size_store ..
      · rfl
  | publish =>
    cases p with
    | idle => rfl
    | copying samples left => cases left <;> rfl
  | requestFlush => rfl
  | consume => exact size_consume ⟨sb, p, c⟩
  | silence => cases c <;> rfl
  | checkFlush =>
    cases c with
    | idle =>
      rw [Mixing.step]
      dsimp only
      split <;> rfl
    | _ => rfl
  | skip len =>
    cases c with
    | idle =>
      rw [Mixing.step]
      dsimp only
      split <;> rfl
    | _ => rfl
  | drain dest =>
    cases c with
    | idle =>
      rw [Mixing.step]
      dsimp only
      split <;> rfl
    | _ => rfl

theorem capacitySamples_mod (rate : UInt32) : capacitySamples rate % 2 = 0 := evenPart_mod _

/-- **After a run** the ring keeps a queue. -/
theorem sound_run (arith : SampleArithmetic F) {rate : UInt32} (hrate : capacitySamples rate ≠ 0) {as : List (Act F)}
    (has : ∀ a ∈ as, a.Frames) :
    ∃ ess q, List.Forall₂ Output.Told
        ((mixingMachine arith).shows (.new arith (capacitySamples rate)) as) ess
      ∧ Fifo.Serves [] ess.flatten q
      ∧ ∃ lag, ((mixingMachine arith).run (.new arith (capacitySamples rate)) as).Sound arith lag q :=
  Fifo.serves_of_simulation (mixingMachine arith) (R := fun s q => ∃ lag, s.Sound arith lag q)
    (fun _ _ _ h ha => h.elim fun _ h => h.step ha)
    ⟨0, Mixing.Sound.new (Nat.pos_of_ne_zero hrate) (capacitySamples_mod rate)⟩ has

namespace Output

/-- What an output says has been put in. -/
def putIn : Output F → List F
  | .accepted xs => xs
  | _ => []

/-- What an output says has been taken out. -/
def takenOut : Output F → List F
  | .taken xs => xs
  | _ => []

theorem Told.putIn_eq {o : Output F} {es : List (Fifo.Event F)} (h : o.Told es) :
    o.putIn = es.flatMap Fifo.Event.accepted := by
  cases o with
  | accepted xs => rw [show es = [.accept xs] from h]; exact (List.append_nil xs).symm
  | taken xs => rw [show es = [.take xs] from h]; rfl
  | skipped num => obtain ⟨xs, -, rfl⟩ := h; rfl
  | flushed => obtain ⟨xs, rfl⟩ := h; rfl
  | silenced => rw [show es = [] from h]; rfl
  | drained dest got mixed => rw [show es = [] from h]; rfl

theorem Told.takenOut_eq {o : Output F} {es : List (Fifo.Event F)} (h : o.Told es) :
    o.takenOut = es.flatMap Fifo.Event.taken := by
  cases o with
  | accepted xs => rw [show es = [.accept xs] from h]; rfl
  | taken xs => rw [show es = [.take xs] from h]; exact (List.append_nil xs).symm
  | skipped num => obtain ⟨xs, -, rfl⟩ := h; rfl
  | flushed => obtain ⟨xs, rfl⟩ := h; rfl
  | silenced => rw [show es = [] from h]; rfl
  | drained dest got mixed => rw [show es = [] from h]; rfl

/-- What outputs say is what the events they tell of say. -/
theorem flatMap_told {f : Output F → List F} {g : Fifo.Event F → List F}
    (hfg : ∀ {o : Output F} {es : List (Fifo.Event F)}, o.Told es → f o = es.flatMap g)
    {os : List (Output F)} {ess : List (List (Fifo.Event F))} (h : List.Forall₂ Told os ess) :
    os.flatMap f = ess.flatten.flatMap g := by
  induction h with
  | nil => rfl
  | cons ho _ ih => rw [List.flatMap_cons, List.flatten_cons, List.flatMap_append, hfg ho, ih]

end Output

namespace Mixing

variable (s : Mixing F)

/-- Where the audio thread will look next: a flush under way has seen what it passes over. -/
def start : Nat :=
  match s.consumer with
  | .flushTo w => w
  | _ => s.sb.readIndex

/-- **What is in the ring for the audio thread**, from the cells and the indices. -/
def pending (arith : SampleArithmetic F) : List F :=
  (List.range (if s.start ≤ s.sb.writeIndex then s.sb.writeIndex - s.start
    else s.sb.size + s.sb.writeIndex - s.start)).map fun i =>
      s.sb.buffer.getD (slot s.sb.size s.start i) arith.zero

variable {s} {lag : Nat} {q : List F}

theorem Sound.start_eq (h : s.Sound arith lag q) : s.start = slot s.sb.size s.sb.readIndex lag := by
  obtain ⟨sb, p, c⟩ := s
  have hc := h.consumer
  have hzero : slot sb.size sb.readIndex 0 = sb.readIndex := slot_zero h.read_lt
  cases c with
  | flushTo w => exact hc
  | idle => obtain rfl : lag = 0 := hc; exact hzero.symm
  | flushing => obtain rfl : lag = 0 := hc; exact hzero.symm
  | skipping num => obtain ⟨rfl, -⟩ := hc; exact hzero.symm
  | draining dest mixed num got => obtain ⟨rfl, -⟩ := hc; exact hzero.symm
  | released dest mixed got => obtain ⟨rfl, -⟩ := hc; exact hzero.symm
  | leftRead dest mixed got => obtain ⟨rfl, -⟩ := hc; exact hzero.symm

theorem Sound.pending_eq (h : s.Sound arith lag q) : s.pending arith = q := by
  have hfits := h.fits
  have hstart : s.start < s.sb.size := h.start_eq ▸ slot_lt (by omega)
  have hwrite : s.sb.writeIndex = slot s.sb.size s.start q.length := by
    rw [h.write_eq, h.start_eq, slot_slot]
  have hcount : (if s.start ≤ s.sb.writeIndex then s.sb.writeIndex - s.start
      else s.sb.size + s.sb.writeIndex - s.start) = q.length := by
    rw [hwrite]
    exact distance_eq hstart (by omega)
  rw [pending, hcount]
  refine List.ext_getElem (by simp) fun i _ hi => ?_
  have hkeeps := h.keeps i hi
  rw [← h.start_eq, List.getElem?_eq_getElem hi] at hkeeps
  rw [List.getElem_map, List.getElem_range, List.getD_eq_getElem?_getD, hkeeps]
  rfl

/-- The cells that the emulation may write now. -/
def writeCells (s : Mixing F) : List Nat :=
  match s.producer with
  | .idle => []
  | .copying _ left => left.map (s.sb.cellFrom s.sb.writeIndex)

/-- The cell that the audio thread reads next. -/
def readCell (s : Mixing F) : Option Nat :=
  match s.consumer with
  | .draining _ _ num got =>
    if got.length < num then some (s.sb.cellFrom s.sb.readIndex got.length) else none
  | .released .. => some s.sb.lastLIdx
  | .leftRead .. => some s.sb.lastRIdx
  | _ => none

/-- **A cell that is written next** is one of the room behind the queue. -/
theorem Sound.mem_writeCells (h : s.Sound arith lag q) {w : Nat} (hw : w ∈ s.writeCells) :
    ∃ d, lag + q.length ≤ d ∧ d + 2 < s.sb.size ∧ w = slot s.sb.size s.sb.readIndex d := by
  obtain ⟨sb, p, c⟩ := s
  cases p with
  | idle => exact absurd hw List.not_mem_nil
  | copying samples left =>
    obtain ⟨hroom, -, -, hleft, -⟩ := h.producer
    obtain ⟨i, hi, rfl⟩ := List.mem_map.1 hw
    have hlt := hleft i hi
    refine ⟨lag + q.length + i, Nat.le_add_right _ _, ?_, h.copyCell_eq hlt hroom⟩
    dsimp only at hroom ⊢
    omega

/-- **A cell that is read next** is one of the queue, or of the frame in front of it. -/
theorem Sound.mem_readCell (h : s.Sound arith lag q) {r : Nat} (hr : r ∈ s.readCell) :
    ∃ d, d < s.sb.size ∧ (d < lag + q.length ∨ s.sb.size ≤ d + 2)
      ∧ r = slot s.sb.size s.sb.readIndex d := by
  obtain ⟨sb, p, c⟩ := s
  have hc := h.consumer
  have hread : sb.readIndex < sb.size := h.read_lt
  have hfits : lag + q.length + 2 ≤ sb.size := h.fits
  -- a cell is read while draining, and twice more behind the read index once it has moved
  cases c with
  | idle => cases hr
  | flushing => cases hr
  | flushTo w => cases hr
  | skipping num => cases hr
  | draining dest mixed num got =>
    obtain ⟨rfl, hle, -⟩ := hc
    rw [readCell] at hr
    dsimp only at hr
    split at hr
    case isFalse => cases hr
    case isTrue hmore =>
      obtain rfl := Option.some.inj hr
      have hlt : got.length < sb.size := by omega
      exact ⟨got.length, hlt, .inl (by omega), SampleBuffer.cellFrom_eq hread hlt⟩
  | released dest mixed got =>
    obtain rfl := Option.some.inj hr
    have htwo : 2 ≤ sb.size := by omega
    refine ⟨sb.size - 2, ?_, .inr ?_, SampleBuffer.lastLIdx_eq hread htwo⟩
    · show sb.size - 2 < sb.size
      omega
    · show sb.size ≤ sb.size - 2 + 2
      omega
  | leftRead dest mixed got =>
    obtain rfl := Option.some.inj hr
    refine ⟨sb.size - 1, ?_, .inr ?_, SampleBuffer.lastRIdx_eq hread⟩
    · show sb.size - 1 < sb.size
      omega
    · show sb.size ≤ sb.size - 1 + 2
      omega

end Mixing

/-- **The ring is a queue**, whatever order the threads take their steps in: what is heard of it
tells of the events of a queue that begins empty, and what the ring then has for the audio
thread is what is left in it. So what is taken out was put in, in the same order. -/
theorem queue_run (arith : SampleArithmetic F) {rate : UInt32} (hrate : capacitySamples rate ≠ 0)
    {as : List (Act F)} (has : ∀ a ∈ as, a.Frames) :
    (∃ ess q, List.Forall₂ Output.Told
        ((mixingMachine arith).shows (.new arith (capacitySamples rate)) as) ess
      ∧ Fifo.Serves [] ess.flatten q
      ∧ ((mixingMachine arith).run (.new arith (capacitySamples rate)) as).pending arith = q)
    ∧ (((mixingMachine arith).shows (.new arith (capacitySamples rate)) as).flatMap
        Output.takenOut).Sublist
      (((mixingMachine arith).shows (.new arith (capacitySamples rate)) as).flatMap
        Output.putIn) := by
  obtain ⟨ess, q, htold, hserves, lag, hsound⟩ := sound_run arith hrate has
  refine ⟨⟨ess, q, htold, hserves, hsound.pending_eq⟩, ?_⟩
  rw [Output.flatMap_told Output.Told.takenOut_eq htold,
    Output.flatMap_told Output.Told.putIn_eq htold]
  exact hserves.taken_sublist

theorem queue_run_frames :
    (((mixingMachine pcmArithmetic).shows (.new pcmArithmetic (capacitySamples 22)) twoFrames).flatMap
        Output.takenOut).Sublist
      (((mixingMachine pcmArithmetic).shows (.new pcmArithmetic (capacitySamples 22))
        twoFrames).flatMap Output.putIn) :=
  (queue_run pcmArithmetic (by decide) (by decide)).2

/-- **The threads keep apart**: no cell that the emulation may write next is the one that the
audio thread reads next, and both are cells of the ring. It is stated at the end of a run, and so
of every moment of one, since a run may be cut anywhere. The ring has cells at every rate of six
samples a second or more. -/
theorem apart_run (arith : SampleArithmetic F) {rate : UInt32} (hrate : capacitySamples rate ≠ 0)
    {as : List (Act F)} (has : ∀ a ∈ as, a.Frames) :
    (∀ w ∈ ((mixingMachine arith).run (.new arith (capacitySamples rate)) as).writeCells,
        w < capacitySamples rate)
    ∧ ∀ r ∈ ((mixingMachine arith).run (.new arith (capacitySamples rate)) as).readCell,
        r < capacitySamples rate
        ∧ r ∉ ((mixingMachine arith).run (.new arith (capacitySamples rate)) as).writeCells := by
  obtain ⟨ess, q, -, -, lag, hsound⟩ := sound_run arith hrate has
  have hsize : ((mixingMachine arith).run (.new arith (capacitySamples rate)) as).sb.size
      = capacitySamples rate :=
    (mixingMachine arith).invariant_run_of_forall
      (I := fun s => s.sb.size = capacitySamples rate)
      (fun s a h => (Mixing.size_step s a).trans h) List.length_replicate as
  have hpos := Nat.pos_of_ne_zero hrate
  refine ⟨fun w hw => ?_, fun r hr => ?_⟩
  · obtain ⟨d, -, -, rfl⟩ := hsound.mem_writeCells hw
    rw [hsize]
    exact slot_lt hpos
  · obtain ⟨d, hd, hwhere, rfl⟩ := hsound.mem_readCell hr
    refine ⟨?_, fun hw => ?_⟩
    · rw [hsize]
      exact slot_lt hpos
    · obtain ⟨d', hlow, hhigh, heq⟩ := hsound.mem_writeCells hw
      exact slot_ne hsound.read_lt hd (by omega) (by omega) heq

/-- In the middle of an upload and of a drain. -/
theorem apart_run_frames :
    ((mixingMachine pcmArithmetic).run (.new pcmArithmetic (capacitySamples 22))
        (twoFrames.take 7)).writeCells = [2, 3]
      ∧ ((mixingMachine pcmArithmetic).run (.new pcmArithmetic (capacitySamples 22))
        (twoFrames.take 7)).readCell = some 1
      ∧ 1 ∉ ((mixingMachine pcmArithmetic).run (.new pcmArithmetic (capacitySamples 22))
        (twoFrames.take 7)).writeCells := by
  have hread : ((mixingMachine pcmArithmetic).run (.new pcmArithmetic (capacitySamples 22))
      (twoFrames.take 7)).readCell = some 1 := by decide
  have hapart := apart_run pcmArithmetic (show capacitySamples 22 ≠ 0 by decide)
    (show ∀ a ∈ twoFrames.take 7, a.Frames by decide)
  exact ⟨by decide, hread, (hapart.2 1 hread).2⟩

end LinApple.Audio
