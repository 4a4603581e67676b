import LinApple.Frontends.TuiCommands

/-!
# Terminal input in pieces

`tui_input_poll` reads what has arrived and calls `process_sequences`, which takes the sequences
off the queue and performs them. Now and then it reads again before it looks at a sequence. What
is performed does not depend on the pieces in which the input is read, if no cut between them is
behind an ESC, in a character, or before the last byte of a control sequence of 33 bytes
(`TuiHost.polls_eq`). No byte is performed twice in any case (`TuiHost.polls_bytes`).

A program that takes input in pieces has a notion of a sequence that is complete, one of an input
that may still become one, and one of giving up. That what it does is independent of the pieces is
a matter of these three alone (`Framing`), and not of what sequences mean. So this module has
little to say about keys and reports. What they do is left to the rest of the program, of which
only so much is known: some state decides which modes are set, and each command changes the state
in some way (`TuiHost`).

The cuts that are excepted are of two kinds. Behind an ESC and in a character the program decides
by time what the input is, and has to; a key ESC is not the beginning of a sequence because
nothing has followed it yet. The third is a matter of length. The program waits for at most so
many bytes of a control sequence, and gives up one byte before the longest that it would accept;
it is the one cut at which a sequence that is accepted in one piece is taken apart in two. Whether
a cut is of that kind can be seen from the bytes before and behind it, with the whole stream taken
apart as in one piece (`CutBeforeFinal`).

Pieces may be empty, and a poll at which nothing has arrived is one. That `process_sequences` ends
is stated with what is then on the queue: nothing that could be taken off it.
-/

namespace LinApple.Frontends

/-- **The rest of the program**, as far as it matters: what is on the screen, and how a command
changes it. -/
structure TuiHost (σ : Type*) where
  modes : σ → TuiModes
  apply : σ → TuiCommand → σ

namespace TuiHost

variable {σ : Type*} (host : TuiHost σ)

/-- The state of the program, and what has been performed: the sequences with their commands. -/
abbrev Performed (σ : Type*) := σ × List (TuiSequence × List TuiCommand)

/-- A sequence is performed. -/
def perform (s : Performed σ) (sequence : TuiSequence) : Performed σ :=
  let commands := sequence.commands (host.modes s.1)
  (commands.foldl host.apply s.1, s.2 ++ [(sequence, commands)])

/-- **`process_sequences`**, with what is in the queue and the pieces that can still be read. An
empty piece is where nothing is there to be read. There are as many turns as bytes. -/
def processSequences (s : Performed σ) (inputQueue : List UInt8) (pieces : List (List UInt8)) :
    Performed σ × List UInt8 × List (List UInt8) :=
  tuiFraming.process asksMore host.perform (inputQueue.length + pieces.flatten.length) s inputQueue
    pieces

/-- **`tui_input_poll`**, as often as there are pieces, from an empty queue: what has been
performed, and what is kept in the queue. -/
def polls (s : σ) (pieces : List (List UInt8)) : Performed σ × List UInt8 :=
  tuiFraming.polls asksMore host.perform pieces.length (s, []) [] pieces

/-- The bytes of what has been performed. -/
def Performed.bytes (p : Performed σ) : List UInt8 := p.2.flatMap (·.1.bytes)

/-- The commands that have been performed, in order. -/
def Performed.commands (p : Performed σ) : List TuiCommand := p.2.flatMap (·.2)

/-! ## Bytes -/

variable {host}

/-- What has been performed is what was taken off the queue. -/
theorem bytes_foldl_perform (fs : List TuiSequence) (s : Performed σ) :
    Performed.bytes (fs.foldl host.perform s) = Performed.bytes s ++ fs.flatMap TuiSequence.bytes := by
  induction fs generalizing s with
  | nil => exact (List.append_nil _).symm
  | cons f fs ih =>
    rw [List.foldl_cons, ih, List.flatMap_cons, ← List.append_assoc]
    congr 1
    exact List.flatMap_append.trans (congrArg _ (List.append_nil _))

/-- **`process_sequences` ends** where it has to wait for more, and each byte is performed once or
kept or still to be read. -/
theorem processSequences_ends (s : σ) (inputQueue : List UInt8) (pieces : List (List UInt8)) :
    sequenceAt (host.processSequences (s, []) inputQueue pieces).2.1 = none
      ∧ Performed.bytes (host.processSequences (s, []) inputQueue pieces).1
          ++ (host.processSequences (s, []) inputQueue pieces).2.1
          ++ (host.processSequences (s, []) inputQueue pieces).2.2.flatten
        = inputQueue ++ pieces.flatten := by
  obtain ⟨hnone, -, fs, hfs, hbytes⟩ := Framing.process_takes (M := tuiFraming) asksMore
    host.perform (s, []) (Nat.le_refl (inputQueue.length + pieces.flatten.length))
  refine ⟨hnone, ?_⟩
  unfold processSequences
  rw [hfs, bytes_foldl_perform]
  exact hbytes

/-- **Each byte is performed once or kept.** -/
theorem polls_bytes (s : σ) (pieces : List (List UInt8)) :
    Performed.bytes (host.polls s pieces).1 ++ (host.polls s pieces).2 = pieces.flatten := by
  obtain ⟨fs, hfs, hbytes⟩ := Framing.polls_takes (M := tuiFraming) (q := []) asksMore
    host.perform (s, []) (Nat.le_refl pieces.length)
  unfold polls
  rw [hfs, bytes_foldl_perform]
  exact hbytes

/-! ## Pieces -/

/-- **The pieces do not matter** where no cut is behind an ESC, in a character, or before the last
byte of a control sequence of 33 bytes: what is performed and what is kept are as if all input had
arrived at once, each byte is performed once or kept, and every call ends. -/
theorem polls_eq (host : TuiHost σ) (s : σ) (pieces : List (List UInt8))
    (hclean : Framing.Cuts CleanCut [] pieces)
    (hfinal : Framing.Cuts (fun before after => ¬CutBeforeFinal before after) [] pieces) :
    host.polls s pieces = host.polls s [pieces.flatten]
      ∧ Performed.bytes (host.polls s pieces).1 ++ (host.polls s pieces).2 = pieces.flatten
      ∧ ∀ inputQueue rest,
        sequenceAt (host.processSequences (s, []) inputQueue rest).2.1 = none := by
  refine ⟨?_, polls_bytes s pieces, fun inputQueue rest =>
    (processSequences_ends s inputQueue rest).1⟩
  exact Framing.polls_eq_of_cuts (M := tuiFraming) asksMore host.perform harmlessCut_nil
    (fun _ _ _ hcut => hcut.stable) (fun _ _ _ hframe hcut => hcut.behind hframe) (s, [])
    (hclean.and hfinal)

/-- A program with nothing on the screen but the picture. -/
def picture : TuiHost Unit := ⟨fun _ => ⟨false, false, false⟩, fun _ _ => ()⟩

/-- Cursor up in two pieces. -/
theorem cursorUp_polls :
    picture.polls () [[0x1b, 0x5b], [0x41]] = picture.polls () [[0x1b, 0x5b, 0x41]] :=
  (polls_eq picture () [[0x1b, 0x5b], [0x41]]
    ⟨cleanCut_of_all (by decide) (by decide), cleanCut_of_all (by decide) (by decide), trivial⟩
    ⟨fun h => absurd h.length_le (by decide), fun h => absurd h.length_le (by decide), trivial⟩).1

/-- ESC `[` and thirty zeros. -/
def longSequence : List UInt8 := 0x1b :: 0x5b :: List.replicate 30 0x30

/-- **The last byte of 33 comes too late**: the zeros are typed, where the sequence is cursor up
if it arrives at once. -/
theorem longSequence_polls :
    Framing.Cuts CleanCut [] [longSequence, [0x41]]
      ∧ Performed.commands (picture.polls () [longSequence, [0x41]]).1
        ≠ Performed.commands (picture.polls () [longSequence ++ [0x41]]).1 :=
  ⟨⟨cleanCut_of_all (by decide) (by decide), cleanCut_of_all (by decide) (by decide), trivial⟩,
    by decide +kernel⟩

end TuiHost

end LinApple.Frontends
