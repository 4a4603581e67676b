import LinApple.Lib.Doubles
import Mathlib.Data.Nat.Bits

/-!
# Speaker

The speaker is a flip-flop that each access to its address flips. The card queues the edges
with their cycles, and when the host has let cycles pass it makes a sample of each of them: the
level that the last edge left, through the filter of the cone. Cycles are kept as doubles here.
-/

namespace LinApple.Cards

/-! ## Constants of the source -/

/-- `speaker_max_events_per_update` -/
def speakerMaxEventsPerUpdate : Nat := 8192

/-- `speaker_max_samples_per_update` -/
@[irreducible] def speakerMaxSamplesPerUpdate : Nat := 24000

/-! ## The card -/

/-- `SpeakerEvent` -/
structure SpeakerEvent where
  /-- `cycle` -/
  cycle : Nat
  /-- `state` -/
  state : Bool
deriving DecidableEq

/-- **The cone**: the DC blocker, with its state and its previous input, and the test for
silence. -/
structure Cone (F : Type*) where
  /-- The state of a reset. -/
  reset : F
  /-- What a drive level makes of the state: a sample is the state after it. -/
  drive : Bool → F → F
  /-- The test for silence. -/
  atRest : F → Bool
  /-- The state is set to silence. -/
  settle : F → F

/-- `SpeakerPeripheral` -/
structure Speaker (F : Type*) where
  /-- `current_state` -/
  currentState : Bool
  /-- `last_sample_state` -/
  lastSampleState : Bool
  /-- `next_sample_cycle`, a double -/
  nextSampleCycle : Nat
  /-- `filter_state` and `previous_input` -/
  filter : F
  /-- The first `event_count` of `events`. -/
  events : List SpeakerEvent
  /-- `last_update_cycle` -/
  lastUpdateCycle : Nat

/-- A sample: the cycle it starts at, the drive level and what the cone makes of it. -/
structure SpeakerSample (F : Type*) where
  /-- `sample_start` -/
  cycle : Nat
  /-- `drive_level` -/
  level : Bool
  /-- The sample. -/
  value : F

namespace Speaker

variable {F : Type*} (cone : Cone F)

/-- **`speaker_reset`**, at a cycle: every field is set. -/
def speakerReset (now : Nat) : Speaker F where
  currentState := false
  lastSampleState := false
  nextSampleCycle := Doubles.ofNat now
  filter := cone.reset
  events := []
  lastUpdateCycle := now

/-- **`speaker_strobe`**: a full queue overwrites its tail. -/
def speakerStrobe (now : Nat) (speaker : Speaker F) : Speaker F :=
  let event := ⟨now, !speaker.currentState⟩
  { speaker with
    currentState := !speaker.currentState
    events :=
      if speaker.events.length < speakerMaxEventsPerUpdate then speaker.events ++ [event]
      else speaker.events.dropLast ++ [event] }

/-- The events up to the start of a sample: the level that they leave, and the other events. -/
def advance (start : Nat) : Bool → List SpeakerEvent → Bool × List SpeakerEvent
  | level, [] => (level, [])
  | level, event :: events =>
    if Doubles.ofNat event.cycle ≤ start then advance start event.state events
    else (level, event :: events)

/-- **`synthesize_samples`**, with room for so many samples, from the events that remain. -/
def synthesizeSamples (endCycle : Nat) :
    Nat → Speaker F → List SpeakerEvent → Speaker F × List (SpeakerSample F)
  | 0, speaker, _ => (speaker, [])
  | room + 1, speaker, events =>
    if Doubles.ofNat (speaker.nextSampleCycle + 1) ≤ Doubles.ofNat endCycle then
      let (level, events) := advance speaker.nextSampleCycle speaker.lastSampleState events
      let filter := cone.drive level speaker.filter
      let (later, samples) := synthesizeSamples endCycle room
        { speaker with
          lastSampleState := level
          filter := filter
          nextSampleCycle := Doubles.ofNat (speaker.nextSampleCycle + 1) } events
      (later, ⟨speaker.nextSampleCycle, level, filter⟩ :: samples)
    else (speaker, [])

/-- The last event in the queue, or else the state of the last sample. -/
def lastState (speaker : Speaker F) : Bool :=
  (speaker.events.getLast?.map (·.state)).getD speaker.lastSampleState

/-- **`generate_samples`**, with the samples that it pushes. -/
def generateSamples (now elapsed : Nat) (speaker : Speaker F) :
    Speaker F × List (SpeakerSample F) :=
  if elapsed = 0 then (speaker, [])
  else if speaker.events = [] ∧ cone.atRest speaker.filter then
    ({ speaker with filter := cone.settle speaker.filter }, [])
  else
    let start := if elapsed ≤ now then now - elapsed else 0
    let next :=
      if speaker.nextSampleCycle < Doubles.ofNat start ∨
          Doubles.ofNat (Doubles.ofNat now + 2) < speaker.nextSampleCycle
      then Doubles.ofNat start
      else speaker.nextSampleCycle
    let (speaker, samples) := synthesizeSamples cone now speakerMaxSamplesPerUpdate
      { speaker with nextSampleCycle := next } speaker.events
    ({ speaker with lastSampleState := speaker.lastState, events := [] }, samples)

/-- **`speaker_think`** -/
def speakerThink (now elapsed : Nat) (speaker : Speaker F) : Speaker F × List (SpeakerSample F) :=
  generateSamples cone now elapsed { speaker with lastUpdateCycle := now }

end Speaker

/-! ## Runs -/

/-- What the host does with the card. A program toggles by an access, read or write, and the host
asks for what is to be heard by a call; there is nothing else to tell them apart by. -/
inductive SpeakerAccess where
  /-- An access to its address. -/
  | strobe
  /-- A call of `think`. -/
  | think
deriving DecidableEq

/-- The card and its clock. -/
structure SpeakerRun (F : Type*) where
  /-- The card. -/
  speaker : Speaker F
  /-- The cycle of the host. -/
  clock : Nat
  /-- The cycle of the last call, up to which the cycles have been handed over. -/
  called : Nat
  /-- How many strobes there were since cycles were last handed over. -/
  since : Nat
  /-- The cycles of all strobes. -/
  strobes : List Nat
  /-- All samples. -/
  samples : List (SpeakerSample F)

namespace SpeakerRun

variable {F : Type*} (cone : Cone F)

/-- A card that was reset at a cycle. -/
def start (now : Nat) : SpeakerRun F :=
  ⟨Speaker.speakerReset cone now, now, now, 0, [], []⟩

/-- So many cycles later, an access or a call: a call hands over the cycles since the last. -/
def step (r : SpeakerRun F) : Nat × SpeakerAccess → SpeakerRun F
  | (n, .strobe) =>
    { r with
      speaker := r.speaker.speakerStrobe (r.clock + n)
      clock := r.clock + n
      since := r.since + 1
      strobes := r.strobes ++ [r.clock + n] }
  | (n, .think) =>
    let (speaker, samples) := r.speaker.speakerThink cone (r.clock + n) (r.clock + n - r.called)
    { r with
      speaker := speaker
      clock := r.clock + n
      called := r.clock + n
      since := if r.called < r.clock + n then 0 else r.since
      samples := r.samples ++ samples }

/-- A run. -/
def run (r : SpeakerRun F) (steps : List (Nat × SpeakerAccess)) : SpeakerRun F :=
  steps.foldl (step cone) r

/-- What a card can take: at most so many cycles in a call, and so many strobes. -/
def Fits (r : SpeakerRun F) : Nat × SpeakerAccess → Prop
  | (_, .strobe) => r.since < speakerMaxEventsPerUpdate
  | (n, .think) => r.clock + n - r.called ≤ speakerMaxSamplesPerUpdate

/-- **A run that the card can take**, and whose cycles are below 2^53, where doubles count by
ones. -/
def Within (r : SpeakerRun F) : List (Nat × SpeakerAccess) → Prop
  | [] => r.clock + 2 < 2 ^ 53
  | s :: steps => r.Fits s ∧ (r.step cone s).Within steps

instance (r : SpeakerRun F) : ∀ s, Decidable (r.Fits s)
  | (_, .strobe) => Nat.decLt _ _
  | (_, .think) => Nat.decLe _ _

instance decidableWithin : ∀ (r : SpeakerRun F) steps, Decidable (r.Within cone steps)
  | _, [] => Nat.decLt _ _
  | r, s :: steps => @instDecidableAnd _ _ inferInstance (decidableWithin (r.step cone s) steps)

end SpeakerRun

/-- **The flip-flop** after all strobes at cycles up to one. -/
def flipFlop (strobes : List Nat) (cycle : Nat) : Bool :=
  (strobes.countP (· ≤ cycle)).bodd

end LinApple.Cards
