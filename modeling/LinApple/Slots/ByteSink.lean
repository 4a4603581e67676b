import LinApple.Lib.Machine
import Mathlib.Data.Fintype.Basic
import Mathlib.Logic.Function.Basic
import LinApple.Lib.Sizes

/-!
# The byte sinks

A card that streams bytes holds a token, and what it does with the token goes to whatever sink the
frontend has installed. A slot is opened in the sink by whichever call comes first, closed when
the card closes its token or another sink is installed, and opened again when it is next used; a
line format the card has set is kept, and sent again whenever the slot is opened.

`Listener` follows what one sink is told about one slot and refuses what is out of order: a slot
that is opened twice or closed while it is closed, anything else for a slot that is not open, and
a byte while the sink has another line format than the card has set. It refuses nothing in any run
(`listener_run`).

The listener takes the line format from what the card has asked for, and not from the host's
record of it. Were it the record, a host that forgot a format, or mixed up those of two slots,
would be found in order. So the listener is an account of its own, which hears the operations of
the cards and the calls to the sink and shares no state with the host, and `Follows` relates the
two: this is the invariant that one operation preserves, and every helper of the host has a lemma
that says how it moves both.

A sink is a record of functions, any of which the frontend may leave out, and the run is over
arbitrary ones, installed and replaced in any order, also while slots are open. A call to a
function that is missing is never made; the listener would not have heard it. What a sink answers
is an input, and no answer makes the host lose track.
-/

namespace LinApple.Slots

/-- `PeripheralSerialLine` -/
structure PeripheralSerialLine where
  /-- `baud` -/
  baud : UInt32
  /-- `data_bits` -/
  dataBits : UInt8
  /-- `parity` -/
  parity : UInt8
  /-- `stop_half_bits` -/
  stopHalfBits : UInt8
  /-- `dtr` -/
  dtr : UInt8
  /-- `rts` -/
  rts : UInt8
  /-- `brk` -/
  brk : UInt8
deriving DecidableEq, Repr

/-- The members of a `ByteSink`, less `tick`. -/
inductive SinkMember where
  | open
  | write
  | ready
  | close
  | read
  | setLine
  | getLines
deriving DecidableEq, Repr

/-- A call of a member. -/
inductive SinkCall where
  | open (slot : Int) (kind : UInt32)
  | write (slot : Int) (byte : UInt8)
  | ready (slot : Int)
  | close (slot : Int)
  | read (slot : Int)
  | setLine (slot : Int) (line : PeripheralSerialLine)
  | getLines (slot : Int)
deriving DecidableEq, Repr

/-- The member a call is of. -/
def SinkCall.member : SinkCall → SinkMember
  | .open _ _ => .open
  | .write _ _ => .write
  | .ready _ => .ready
  | .close _ => .close
  | .read _ => .read
  | .setLine _ _ => .setLine
  | .getLines _ => .getLines

/-- The slot a call is about. -/
def SinkCall.slot : SinkCall → Int
  | .open slot _ | .write slot _ | .ready slot | .close slot | .read slot
  | .setLine slot _ | .getLines slot => slot

/-- `SinkRecord` -/
structure SinkRecord where
  /-- `slot` -/
  slot : Int
  /-- `kind` -/
  kind : UInt32
  /-- `opened` -/
  opened : Bool
  /-- `line_sent` -/
  lineSent : Bool
  /-- `line` -/
  line : PeripheralSerialLine
deriving DecidableEq, Repr

/-- What a card hands back: the address of a record, or something else. -/
abbrev Token := Option (Fin 7)

/-- **The sink records and the sink that is installed**, one of `K`. -/
structure SinkHost (K : Type) where
  /-- `sink_records` -/
  sinkRecords : Fin 7 → SinkRecord
  /-- `byte_sink`, with its context. -/
  byteSink : Option K

namespace SinkHost

variable {K : Type} (members : K → SinkMember → Bool) (s : SinkHost K)

/-- Before a card is initialised. -/
def initial : SinkHost K where
  sinkRecords := fun _ => ⟨0, 0, false, false, ⟨0, 0, 0, 0, 0, 0, 0⟩⟩
  byteSink := none

/-- A record is changed. -/
def withRecord (i : Fin 7) (record : SinkRecord) : SinkHost K :=
  { s with sinkRecords := Function.update s.sinkRecords i record }

theorem sinkRecords_withRecord (i : Fin 7) (record : SinkRecord) :
    (s.withRecord i record).sinkRecords i = record := Function.update_self _ _ _

theorem sinkRecords_withRecord_of_ne {i j : Fin 7} (hj : j ≠ i) (record : SinkRecord) :
    (s.withRecord i record).sinkRecords j = s.sinkRecords j := Function.update_of_ne hj _ _

/-- A member of the sink is called, if there is a sink that has it. -/
def call (c : SinkCall) : List (K × SinkCall) :=
  match s.byteSink with
  | none => []
  | some sink => if members sink c.member then [(sink, c)] else []

/-- `sink_close_record` -/
def sinkCloseRecord (i : Fin 7) : SinkHost K × List (K × SinkCall) :=
  let record := s.sinkRecords i
  if !record.opened then (s, [])
  else (s.withRecord i { record with opened := false }, s.call members (.close record.slot))

/-- `sink_attach` -/
def sinkAttach (i : Fin 7) : Bool × SinkHost K × List (K × SinkCall) :=
  if s.byteSink.isNone then (false, s, [])
  else
    let record := s.sinkRecords i
    if record.opened then (true, s, [])
    else
      (true, s.withRecord i { record with opened := true },
        s.call members (.open record.slot record.kind)
          ++ if record.lineSent then s.call members (.setLine record.slot record.line) else [])

/-- `sink_kind_is_known` -/
def sinkKindIsKnown (kind : UInt32) : Bool := kind = 1 || kind = 2

/-- `host_sink_open`, which calls no member. -/
def hostSinkOpen (slot : Int) (kind : UInt32) : Token × SinkHost K :=
  if slot < 1 || slot > 7 || !sinkKindIsKnown kind then (none, s)
  else
    let i : Fin 7 := Fin.ofNat 7 (slot - 1).toNat
    let record := s.sinkRecords i
    if record.opened && record.kind ≠ kind then (none, s)
    else (some i, s.withRecord i { record with slot := slot, kind := kind })

/-- A call through a token: the slot is opened first, if it has to be. It
answers whether the member was called. -/
def throughToken (token : Token) (c : Int → SinkCall) :
    Bool × SinkHost K × List (K × SinkCall) :=
  match token with
  | none => (false, s, [])
  | some i =>
    let r := s.sinkAttach members i
    let calls := if r.1 then r.2.1.call members (c (s.sinkRecords i).slot) else []
    (!calls.isEmpty, r.2.1, r.2.2 ++ calls)

/-- `host_sink_write` -/
def hostSinkWrite (token : Token) (byte : UInt8) : SinkHost K × List (K × SinkCall) :=
  (s.throughToken members token (.write · byte)).2

/-- `host_sink_ready`, where the sink answers `answer`. -/
def hostSinkReady (token : Token) (answer : Bool) :
    Bool × SinkHost K × List (K × SinkCall) :=
  let r := s.throughToken members token .ready
  (r.1 && answer, r.2)

/-- `host_sink_read`, where the sink answers `answer`. -/
def hostSinkRead (token : Token) (answer : Option UInt8) :
    Option UInt8 × SinkHost K × List (K × SinkCall) :=
  let r := s.throughToken members token .read
  (if r.1 then answer else none, r.2)

/-- `host_sink_get_lines`, where the sink answers `answer`. -/
def hostSinkGetLines (token : Token) (answer : Option UInt8) :
    Option UInt8 × SinkHost K × List (K × SinkCall) :=
  let r := s.throughToken members token .getLines
  (if r.1 then answer else none, r.2)

/-- `host_sink_close` -/
def hostSinkClose (token : Token) : SinkHost K × List (K × SinkCall) :=
  match token with
  | none => (s, [])
  | some i =>
    let r := s.sinkCloseRecord members i
    (r.1.withRecord i { r.1.sinkRecords i with lineSent := false }, r.2)

/-- `host_sink_set_line`: opening the slot sends the format, so it is sent
once. -/
def hostSinkSetLine (token : Token) (line : PeripheralSerialLine) :
    SinkHost K × List (K × SinkCall) :=
  match token with
  | none => (s, [])
  | some i =>
    let record := { s.sinkRecords i with line := line, lineSent := true }
    let r := (s.withRecord i record).sinkAttach members i
    (r.2.1, r.2.2 ++ if r.1 && record.opened then r.2.1.call members (.setLine record.slot line)
      else [])

/-- Every record is closed, in order. -/
def closeRecords : SinkHost K × List (K × SinkCall) :=
  (List.finRange 7).foldl (fun r i =>
    let r' := r.1.sinkCloseRecord members i
    (r'.1, r.2 ++ r'.2)) (s, [])

/-- `linapple_set_byte_sink` -/
def linappleSetByteSink (sink : Option K) : SinkHost K × List (K × SinkCall) :=
  let r := s.closeRecords members
  ({ r.1 with byteSink := sink }, r.2)

end SinkHost

/-! ## Runs -/

/-- What cards and the frontend do. A card names its channel by the token it was given, and any
token may come, also one that was given to another card or to none. What the listener answers
comes with the operation. -/
inductive SinkOp (K : Type) where
  /-- `host_sink_open` -/
  | sinkOpen (slot : Int) (kind : UInt32)
  /-- `host_sink_write` -/
  | write (token : Token) (byte : UInt8)
  /-- `host_sink_ready` -/
  | ready (token : Token) (answer : Bool)
  /-- `host_sink_close` -/
  | close (token : Token)
  /-- `host_sink_read` -/
  | read (token : Token) (answer : Option UInt8)
  /-- `host_sink_set_line` -/
  | setLine (token : Token) (line : PeripheralSerialLine)
  /-- `host_sink_get_lines` -/
  | getLines (token : Token) (answer : Option UInt8)
  /-- `linapple_set_byte_sink` -/
  | setByteSink (sink : Option K)

/-- One step, and the calls it makes. -/
def SinkHost.step {K : Type} (members : K → SinkMember → Bool) (s : SinkHost K) :
    SinkOp K → SinkHost K × List (K × SinkCall)
  | .sinkOpen slot kind => ((s.hostSinkOpen slot kind).2, [])
  | .write token byte => s.hostSinkWrite members token byte
  | .ready token answer => (s.hostSinkReady members token answer).2
  | .close token => s.hostSinkClose members token
  | .read token answer => (s.hostSinkRead members token answer).2
  | .setLine token line => s.hostSinkSetLine members token line
  | .getLines token answer => (s.hostSinkGetLines members token answer).2
  | .setByteSink sink => s.linappleSetByteSink members sink

/-- **The line format a card has set**: the last one since its token was last
closed. -/
def SinkOp.format {K : Type} (i : Fin 7) (format : Option PeripheralSerialLine) :
    SinkOp K → Option PeripheralSerialLine
  | .setLine token line => if token = some i then some line else format
  | .close token => if token = some i then none else format
  | _ => format

/-! ## What a sink hears of a slot -/

/-- **A sink's side of a slot.** -/
inductive Listener where
  | closed
  /-- Open, with the last line format that came since. -/
  | opened (line : Option PeripheralSerialLine)
deriving DecidableEq, Repr

/-- **What may be said next**: a slot is opened when it is closed and closed
when it is open, is spoken of only while it is open, and is written to only
when the format the card has set has come. -/
def Listener.hear (format : Option PeripheralSerialLine) : Listener → SinkCall → Option Listener
  | .closed, .open _ _ => some (.opened none)
  | .opened _, .close _ => some .closed
  | .opened _, .setLine _ line => some (.opened (some line))
  | .opened line, .write _ _ => if line = format then some (.opened line) else none
  | .opened line, .ready _ | .opened line, .read _ | .opened line, .getLines _ =>
    some (.opened line)
  | _, _ => none

/-- A listener to what one sink is told about one slot. -/
def hearAll {K : Type} [DecidableEq K] (sink : K) (slot : Int)
    (format : Option PeripheralSerialLine) (l : Option Listener)
    (calls : List (K × SinkCall)) : Option Listener :=
  calls.foldl (fun l c => if c.1 = sink ∧ c.2.slot = slot then l.bind (·.hear format c.2) else l) l

/-- A host and a listener to one of its sinks about one of its slots, which
is lost when it hears what it may not. -/
structure Overheard (K : Type) where
  /-- The host. -/
  host : SinkHost K
  /-- The format the card in the slot has set. -/
  format : Option PeripheralSerialLine
  /-- The listener. -/
  listener : Option Listener

/-- **The host, overheard.** -/
def sinkMachine {K : Type} [DecidableEq K] (members : K → SinkMember → Bool) (sink : K)
    (i : Fin 7) : Machine (Overheard K) (SinkOp K) (List (K × SinkCall)) where
  next o op :=
    { host := (o.host.step members op).1
      format := op.format i o.format
      listener := hearAll sink (i.val + 1) (op.format i o.format) o.listener
        (o.host.step members op).2 }
  out o op := some (o.host.step members op).2

/-- The host to begin with, and a listener that has heard nothing. -/
def Overheard.initial (K : Type) : Overheard K := ⟨.initial, none, some .closed⟩

/-! ## The listener is never lost -/

/-- **What the listener knows is what the host has written down.** -/
structure Follows {K : Type} [DecidableEq K] (sink : K) (i : Fin 7) (s : SinkHost K)
    (format : Option PeripheralSerialLine) (l : Option Listener) : Prop where
  /-- A record has its own slot, if a card has asked for it. -/
  slots : ∀ j, ((s.sinkRecords j).slot = 0 ∧ (s.sinkRecords j).kind = 0)
    ∨ (s.sinkRecords j).slot = j.val + 1
  /-- The format is in the record. -/
  line : format = if (s.sinkRecords i).lineSent then some (s.sinkRecords i).line else none
  /-- The slot is open in the sink that is installed, if it is open, and the
  format has come. -/
  listener : l = some (
    if s.byteSink = some sink ∧ (s.sinkRecords i).opened = true
        ∧ (s.sinkRecords i).slot = i.val + 1 then .opened format
    else .closed)

section Follows

variable {K : Type} [DecidableEq K] {members : K → SinkMember → Bool} {sink : K} {i j : Fin 7}
  {s : SinkHost K} {format : Option PeripheralSerialLine} {l : Option Listener}

theorem hearAll_append (slot : Int) (as bs : List (K × SinkCall)) :
    hearAll sink slot format l (as ++ bs)
      = hearAll sink slot format (hearAll sink slot format l as) bs :=
  List.foldl_append

/-- A call of another sink, or about another slot, is not heard. -/
theorem hearAll_call_of_not (c : SinkCall) {slot : Int}
    (h : ¬(s.byteSink = some sink ∧ c.slot = slot)) :
    hearAll sink slot format l (s.call members c) = l := by
  unfold SinkHost.call
  cases hs : s.byteSink with
  | none => rfl
  | some sink' =>
    dsimp only
    split_ifs
    · show (if sink' = sink ∧ c.slot = slot then _ else l) = l
      exact if_neg fun hc => h ⟨by rw [hs, hc.1], hc.2⟩
    · rfl

/-- A call of the sink about the slot is heard. -/
theorem hearAll_call (hall : ∀ m, members sink m = true) (c : SinkCall) {slot : Int}
    (hs : s.byteSink = some sink) (hc : c.slot = slot) :
    hearAll sink slot format l (s.call members c) = l.bind (·.hear format c) := by
  unfold SinkHost.call
  rw [hs]
  dsimp only
  rw [if_pos (hall _)]
  show (if sink = sink ∧ c.slot = slot then _ else l) = _
  rw [if_pos ⟨rfl, hc⟩]

/-- Only the record's own slot matters to the listener. -/
theorem Follows.slot_ne (h : Follows sink i s format l) (hj : j ≠ i) :
    (s.sinkRecords j).slot ≠ i.val + 1 := by
  intro heq
  rcases h.slots j with ⟨h0, -⟩ | hslot
  · omega
  · exact hj (Fin.ext (by omega))

/-- The listener of a slot that is not open. -/
theorem Follows.closed (h : Follows sink i s format l)
    (hno : ¬(s.byteSink = some sink ∧ (s.sinkRecords i).opened = true
      ∧ (s.sinkRecords i).slot = i.val + 1)) : l = some .closed := by
  rw [h.listener, if_neg hno]

/-- A record is changed in what is neither its slot nor its format. -/
theorem Follows.withRecord (h : Follows sink i s format l) (j : Fin 7)
    (record : SinkRecord)
    (hslot : record.slot = (s.sinkRecords j).slot) (hkind : record.kind = (s.sinkRecords j).kind)
    (hsent : record.lineSent = (s.sinkRecords j).lineSent)
    (hline : record.line = (s.sinkRecords j).line) {l' : Option Listener}
    (hl : l' = some (
      if s.byteSink = some sink ∧ ((s.withRecord j record).sinkRecords i).opened = true
          ∧ (s.sinkRecords i).slot = i.val + 1 then .opened format
      else .closed)) : Follows sink i (s.withRecord j record) format l' := by
  have hrecord : ∀ k, ((s.withRecord j record).sinkRecords k).slot = (s.sinkRecords k).slot
      ∧ ((s.withRecord j record).sinkRecords k).kind = (s.sinkRecords k).kind
      ∧ ((s.withRecord j record).sinkRecords k).lineSent = (s.sinkRecords k).lineSent
      ∧ ((s.withRecord j record).sinkRecords k).line = (s.sinkRecords k).line := fun k => by
    by_cases hk : k = j
    · rw [hk, SinkHost.sinkRecords_withRecord]
      exact ⟨hslot, hkind, hsent, hline⟩
    · rw [SinkHost.sinkRecords_withRecord_of_ne s hk]
      exact ⟨rfl, rfl, rfl, rfl⟩
  refine ⟨fun k => ?_, ?_, ?_⟩
  · rw [(hrecord k).1, (hrecord k).2.1]
    exact h.slots k
  · rw [(hrecord i).2.2.1, (hrecord i).2.2.2]
    exact h.line
  · rw [hl, (hrecord i).1]
    rfl

/-- **A record is closed.** -/
theorem Follows.sinkCloseRecord (hall : ∀ m, members sink m = true)
    (h : Follows sink i s format l) :
    Follows sink i (s.sinkCloseRecord members j).1 format
      (hearAll sink (i.val + 1) format l (s.sinkCloseRecord members j).2) := by
  unfold SinkHost.sinkCloseRecord
  dsimp only
  by_cases hopen : (s.sinkRecords j).opened = true
  · rw [hopen]
    simp only [Bool.not_true, Bool.false_eq_true, if_false]
    refine h.withRecord j { s.sinkRecords j with opened := false } rfl rfl rfl rfl ?_
    by_cases hj : j = i
    · subst hj
      have hclosed : ¬(s.byteSink = some sink
          ∧ ((s.withRecord j { s.sinkRecords j with opened := false }).sinkRecords j).opened = true
          ∧ (s.sinkRecords j).slot = j.val + 1) := by
        rw [SinkHost.sinkRecords_withRecord]
        exact fun h => Bool.false_ne_true h.2.1
      rw [if_neg hclosed]
      by_cases hheard : s.byteSink = some sink ∧ (s.sinkRecords j).slot = j.val + 1
      · rw [hearAll_call hall (.close _) hheard.1 hheard.2, h.listener,
          if_pos ⟨hheard.1, hopen, hheard.2⟩]
        rfl
      · rw [hearAll_call_of_not (.close _) hheard]
        exact h.closed fun hc => hheard ⟨hc.1, hc.2.2⟩
    · have hother : (s.withRecord j { s.sinkRecords j with opened := false }).sinkRecords i
          = s.sinkRecords i := s.sinkRecords_withRecord_of_ne (Ne.symm hj) _
      rw [hother, hearAll_call_of_not (.close _) fun hc => h.slot_ne hj hc.2]
      exact h.listener
  · rw [Bool.eq_false_iff.mpr hopen]
    exact h

/-- **A slot is opened**, and the format a card has set comes with it. -/
theorem Follows.sinkAttach (hall : ∀ m, members sink m = true) (h : Follows sink i s format l) :
    Follows sink i (s.sinkAttach members j).2.1 format
      (hearAll sink (i.val + 1) format l (s.sinkAttach members j).2.2) := by
  unfold SinkHost.sinkAttach
  dsimp only
  by_cases hnone : s.byteSink.isNone = true
  · rw [if_pos hnone]
    exact h
  rw [if_neg hnone]
  by_cases hopen : (s.sinkRecords j).opened = true
  · rw [if_pos hopen]
    exact h
  rw [if_neg hopen]
  dsimp only
  refine h.withRecord j { s.sinkRecords j with opened := true } rfl rfl rfl rfl ?_
  rw [hearAll_append]
  by_cases hheard : s.byteSink = some sink ∧ (s.sinkRecords j).slot = i.val + 1
  · obtain rfl : j = i := by_contra fun hj => h.slot_ne hj hheard.2
    have hopened : ((s.withRecord j { s.sinkRecords j with opened := true }).sinkRecords j).opened
        = true := by rw [SinkHost.sinkRecords_withRecord]
    have hl := h.closed fun hc => hopen hc.2.1
    have hline := h.line
    rw [@if_pos (s.byteSink = some sink ∧ _) _ ⟨hheard.1, hopened, hheard.2⟩,
      hearAll_call hall (.open _ _) hheard.1 hheard.2, hl]
    cases hsent : (s.sinkRecords j).lineSent with
    | true =>
      rw [hsent, if_pos rfl] at hline
      rw [if_pos rfl, hearAll_call hall (.setLine _ _) hheard.1 hheard.2, hline]
      rfl
    | false =>
      rw [hsent, if_neg Bool.false_ne_true] at hline
      rw [if_neg Bool.false_ne_true, hline]
      rfl
  · -- the listener does not hear of this record
    have hl : hearAll sink (i.val + 1) format (hearAll sink (i.val + 1) format l
        (s.call members (.open (s.sinkRecords j).slot (s.sinkRecords j).kind)))
        (if (s.sinkRecords j).lineSent then
          s.call members (.setLine (s.sinkRecords j).slot (s.sinkRecords j).line) else []) = l := by
      rw [hearAll_call_of_not (.open _ _) hheard]
      split_ifs
      · exact hearAll_call_of_not (.setLine _ _) hheard
      · rfl
    rw [hl, h.listener]
    by_cases hj : j = i
    · subst hj
      rw [if_neg fun hc => hheard ⟨hc.1, hc.2.2⟩, if_neg fun hc => hheard ⟨hc.1, hc.2.2⟩]
    · have hother : (s.withRecord j { s.sinkRecords j with opened := true }).sinkRecords i
          = s.sinkRecords i := s.sinkRecords_withRecord_of_ne (Ne.symm hj) _
      rw [hother]

omit [DecidableEq K] in
/-- The slot is open once it has been opened. -/
theorem opened_sinkAttach (h : (s.sinkAttach members j).1 = true) :
    (s.sinkAttach members j).2.1.byteSink = s.byteSink
      ∧ ((s.sinkAttach members j).2.1.sinkRecords j).opened = true
      ∧ ((s.sinkAttach members j).2.1.sinkRecords j).slot = (s.sinkRecords j).slot := by
  unfold SinkHost.sinkAttach at h ⊢
  by_cases hnone : s.byteSink.isNone = true
  · rw [if_pos hnone] at h
    exact absurd h Bool.false_ne_true
  rw [if_neg hnone]
  by_cases hopen : (s.sinkRecords j).opened = true
  · simp only [if_pos hopen]
    exact ⟨trivial, hopen, trivial⟩
  · simp only [if_neg hopen, SinkHost.sinkRecords_withRecord]
    exact ⟨rfl, trivial, trivial⟩

/-- **A slot that is open may be spoken of.** -/
theorem Follows.call (hall : ∀ m, members sink m = true) (h : Follows sink i s format l)
    (hopen : (s.sinkRecords j).opened = true) (c : SinkCall)
    (hslot : c.slot = (s.sinkRecords j).slot)
    (hc : Listener.hear format (.opened format) c = some (.opened format)) :
    Follows sink i s format (hearAll sink (i.val + 1) format l (s.call members c)) := by
  by_cases hheard : s.byteSink = some sink ∧ (s.sinkRecords j).slot = i.val + 1
  · obtain rfl : j = i := by_contra fun hj => h.slot_ne hj hheard.2
    have hl := h.listener
    rw [if_pos ⟨hheard.1, hopen, hheard.2⟩] at hl
    have hsame : hearAll sink (j.val + 1) format l (s.call members c) = l := by
      rw [hearAll_call hall c hheard.1 (hslot.trans hheard.2), hl]
      exact hc
    rw [hsame]
    exact h
  · rw [hearAll_call_of_not c fun hc => hheard ⟨hc.1, hslot ▸ hc.2⟩]
    exact h

theorem Follows.throughToken (hall : ∀ m, members sink m = true) (h : Follows sink i s format l)
    (token : Token) (c : Int → SinkCall) (hslot : ∀ n, (c n).slot = n)
    (hc : ∀ n, Listener.hear format (.opened format) (c n) = some (.opened format)) :
    Follows sink i (s.throughToken members token c).2.1 format
      (hearAll sink (i.val + 1) format l (s.throughToken members token c).2.2) := by
  cases token with
  | none => exact h
  | some j =>
    unfold SinkHost.throughToken
    dsimp only
    rw [hearAll_append]
    have hattach := h.sinkAttach (j := j) hall
    by_cases hopen : (s.sinkAttach members j).1 = true
    · obtain ⟨-, hopened, hrecord⟩ := opened_sinkAttach hopen
      rw [if_pos hopen]
      exact hattach.call hall hopened _ ((hslot _).trans hrecord.symm) (hc _)
    · rw [if_neg hopen]
      exact hattach

/-- The format does not matter to what a sink hears when it is closed. -/
theorem hearAll_sinkCloseRecord (format' : Option PeripheralSerialLine) (slot : Int) :
    hearAll sink slot format l (s.sinkCloseRecord members j).2
      = hearAll sink slot format' l (s.sinkCloseRecord members j).2 := by
  have hclose : ∀ c : K × SinkCall, c ∈ (s.sinkCloseRecord members j).2 →
      ∀ heard : Listener, heard.hear format c.2 = heard.hear format' c.2 := by
    intro c hc heard
    obtain ⟨n, hn⟩ : ∃ n, c.2 = .close n := by
      unfold SinkHost.sinkCloseRecord SinkHost.call at hc
      dsimp only at hc
      split_ifs at hc
      · exact absurd hc List.not_mem_nil
      · cases hs : s.byteSink with
        | none =>
          rw [hs] at hc
          exact absurd hc List.not_mem_nil
        | some sink' =>
          rw [hs] at hc
          dsimp only at hc
          split_ifs at hc
          · exact ⟨_, congrArg Prod.snd (List.mem_singleton.mp hc)⟩
          · exact absurd hc List.not_mem_nil
    rw [hn]
    cases heard <;> rfl
  exact List.foldl_ext _ _ _ fun heard c hc => by
    simp only [hclose c hc]

/-- A record is changed that is not the listener's. -/
theorem Follows.withOther (h : Follows sink i s format l) (hj : j ≠ i) (record : SinkRecord)
    (hslot : record.slot = 0 ∧ record.kind = 0 ∨ record.slot = j.val + 1) :
    Follows sink i (s.withRecord j record) format l := by
  have hsame := s.sinkRecords_withRecord_of_ne (Ne.symm hj) record
  refine ⟨fun k => ?_, ?_, ?_⟩
  · by_cases hk : k = j
    · rw [hk, SinkHost.sinkRecords_withRecord]
      exact hslot
    · rw [SinkHost.sinkRecords_withRecord_of_ne s hk]
      exact h.slots k
  · rw [hsame]
    exact h.line
  · rw [hsame]
    exact h.listener

/-- The listener's own record is changed while it is not open. -/
theorem Follows.withOwn (h : Follows sink i s format l) (record : SinkRecord)
    (hslot : record.slot = 0 ∧ record.kind = 0 ∨ record.slot = i.val + 1)
    (hopened : record.opened = false) (hl : l = some .closed) :
    Follows sink i (s.withRecord i record)
      (if record.lineSent then some record.line else none) l := by
  refine ⟨fun k => ?_, ?_, ?_⟩
  · by_cases hk : k = i
    · rw [hk, SinkHost.sinkRecords_withRecord]
      exact hslot
    · rw [SinkHost.sinkRecords_withRecord_of_ne s hk]
      exact h.slots k
  · rw [SinkHost.sinkRecords_withRecord]
  · rw [SinkHost.sinkRecords_withRecord, hopened, if_neg fun hc => Bool.false_ne_true hc.2.1]
    exact hl

omit [DecidableEq K] in
/-- And closed once it has been closed. -/
theorem opened_sinkCloseRecord :
    ((s.sinkCloseRecord members j).1.sinkRecords j).opened = false := by
  unfold SinkHost.sinkCloseRecord
  by_cases hopen : (s.sinkRecords j).opened = true
  · simp only [hopen, Bool.not_true, Bool.false_eq_true, if_false,
      SinkHost.sinkRecords_withRecord]
  · simp only [Bool.eq_false_iff.mpr hopen, Bool.not_false, if_true]

/-- **A token is closed**, and the format is forgotten. -/
theorem Follows.hostSinkClose (hall : ∀ m, members sink m = true)
    (h : Follows sink i s format l) (token : Token) :
    Follows sink i (s.hostSinkClose members token).1 (if token = some i then none else format)
      (hearAll sink (i.val + 1) (if token = some i then none else format) l
        (s.hostSinkClose members token).2) := by
  cases token with
  | none => exact h
  | some j =>
    unfold SinkHost.hostSinkClose
    dsimp only
    have hclose := h.sinkCloseRecord (j := j) hall
    have hopened := @opened_sinkCloseRecord K members j s
    by_cases hj : j = i
    · subst hj
      rw [if_pos rfl, hearAll_sinkCloseRecord format]
      exact hclose.withOwn _ (hclose.slots j) hopened
        (hclose.closed fun hc => Bool.false_ne_true (hopened.symm.trans hc.2.1))
    · rw [if_neg fun hc => hj (Option.some.inj hc)]
      exact hclose.withOther hj _ (hclose.slots j)

/-- **A line format is set**, and sent once. -/
theorem Follows.hostSinkSetLine (hall : ∀ m, members sink m = true)
    (h : Follows sink i s format l) (token : Token) (line : PeripheralSerialLine) :
    Follows sink i (s.hostSinkSetLine members token line).1
      (if token = some i then some line else format)
      (hearAll sink (i.val + 1) (if token = some i then some line else format) l
        (s.hostSinkSetLine members token line).2) := by
  cases token with
  | none => exact h
  | some j =>
    unfold SinkHost.hostSinkSetLine
    dsimp only
    rw [hearAll_append]
    by_cases hj : j = i
    · subst hj
      rw [if_pos rfl]
      by_cases hopen : (s.sinkRecords j).opened = true
      · -- the slot is open: the sink is told, if there is one
        have hattach : ((s.withRecord j { s.sinkRecords j with line := line, lineSent := true
            }).sinkAttach members j) = (!s.byteSink.isNone, s.withRecord j
              { s.sinkRecords j with line := line, lineSent := true }, []) := by
          unfold SinkHost.sinkAttach
          rw [SinkHost.sinkRecords_withRecord]
          dsimp only
          rw [if_pos hopen]
          unfold SinkHost.withRecord
          cases s.byteSink <;> rfl
        rw [hattach]
        dsimp only
        rw [hopen, Bool.and_true]
        refine ⟨fun k => ?_, ?_, ?_⟩
        · by_cases hk : k = j
          · rw [hk, SinkHost.sinkRecords_withRecord]
            exact h.slots j
          · rw [SinkHost.sinkRecords_withRecord_of_ne s hk]
            exact h.slots k
        · rw [SinkHost.sinkRecords_withRecord]
          exact (if_pos rfl).symm
        · rw [SinkHost.sinkRecords_withRecord]
          by_cases hheard : s.byteSink = some sink ∧ (s.sinkRecords j).slot = j.val + 1
          · have hl := h.listener
            rw [if_pos ⟨hheard.1, hopen, hheard.2⟩] at hl
            have hsome : (!s.byteSink.isNone) = true := by
              rw [hheard.1]
              rfl
            refine Eq.trans ?_ (congrArg some (if_pos ⟨hheard.1, rfl, hheard.2⟩).symm)
            rw [if_pos hsome]
            refine (hearAll_call (s := s.withRecord j _) hall (.setLine _ _) hheard.1
              hheard.2).trans ?_
            show l.bind _ = _
            rw [hl]
            rfl
          · have hl := h.closed fun hc => hheard ⟨hc.1, hc.2.2⟩
            refine Eq.trans ?_ (congrArg some (if_neg fun hc => hheard ⟨hc.1, hc.2.2⟩).symm)
            split_ifs
            · exact (hearAll_call_of_not (s := s.withRecord j _) (.setLine _ _) hheard).trans hl
            · exact hl
      · have hs := h.withOwn { s.sinkRecords j with line := line, lineSent := true }
          (h.slots j) (Bool.eq_false_iff.mpr hopen) (h.closed fun hc => hopen hc.2.1)
        rw [if_neg fun hc => hopen (Bool.and_eq_true_iff.mp hc).2]
        exact hs.sinkAttach hall
    · rw [if_neg fun hc => hj (Option.some.inj hc)]
      have hs := h.withOther hj { s.sinkRecords j with line := line, lineSent := true } (h.slots j)
      have hattach := hs.sinkAttach (j := j) hall
      split_ifs
      · rw [hearAll_call_of_not (.setLine _ _) fun hc => h.slot_ne hj hc.2]
        exact hattach
      · exact hattach

/-- A card asks for a token. -/
theorem Follows.hostSinkOpen (h : Follows sink i s format l) (slot : Int) (kind : UInt32) :
    Follows sink i (s.hostSinkOpen slot kind).2 format l := by
  unfold SinkHost.hostSinkOpen
  split_ifs with hrefuse
  · exact h
  dsimp only
  simp only [Bool.or_eq_true, decide_eq_true_eq, Bool.not_eq_true', not_or, not_lt,
    Bool.not_eq_false] at hrefuse
  obtain ⟨⟨hlow, hhigh⟩, hknown⟩ := hrefuse
  set j : Fin 7 := Fin.ofNat 7 (slot - 1).toNat with hjdef
  have hslot : slot = j.val + 1 := by
    rw [hjdef, Fin.val_ofNat]
    omega
  split_ifs with hother
  · exact h
  by_cases hj : j = i
  · subst hj
    by_cases hopen : (s.sinkRecords j).opened = true
    · -- the record has its kind, so a card has asked for it before
      rw [hopen, Bool.true_and, decide_eq_true_eq, not_not] at hother
      refine h.withRecord j { s.sinkRecords j with slot := slot, kind := kind }
        ?_ hother.symm rfl rfl ?_
      · rcases h.slots j with ⟨-, hzero⟩ | hsame
        · rw [hother] at hzero
          rw [hzero] at hknown
          exact absurd hknown (by decide)
        · exact hslot.trans hsame.symm
      · rw [SinkHost.sinkRecords_withRecord]
        exact h.listener
    · rw [h.line]
      exact h.withOwn _ (.inr hslot) (Bool.eq_false_iff.mpr hopen) (h.closed fun hc => hopen hc.2.1)
  · exact h.withOther hj _ (.inr hslot)

/-- Every record is closed. -/
theorem Follows.closeRecords (hall : ∀ m, members sink m = true)
    (h : Follows sink i s format l) :
    Follows sink i (s.closeRecords members).1 format
        (hearAll sink (i.val + 1) format l (s.closeRecords members).2)
      ∧ ((s.closeRecords members).1.sinkRecords i).opened = false := by
  -- what has been closed stays closed
  have hstep : ∀ (js : List (Fin 7)) (r : SinkHost K × List (K × SinkCall)),
      Follows sink i r.1 format (hearAll sink (i.val + 1) format l r.2) →
      let r' := js.foldl (fun r j =>
        let r' := r.1.sinkCloseRecord members j
        (r'.1, r.2 ++ r'.2)) r
      Follows sink i r'.1 format (hearAll sink (i.val + 1) format l r'.2)
        ∧ ((r.1.sinkRecords i).opened = false ∨ i ∈ js → (r'.1.sinkRecords i).opened = false) := by
    intro js
    induction js with
    | nil => exact fun r hr => ⟨hr, fun hi => hi.resolve_right List.not_mem_nil⟩
    | cons j js ih =>
      intro r hr
      have hclose := hr.sinkCloseRecord (j := j) hall
      rw [← hearAll_append] at hclose
      obtain ⟨hfollows, hopened⟩ := ih ((r.1.sinkCloseRecord members j).1,
        r.2 ++ (r.1.sinkCloseRecord members j).2) hclose
      refine ⟨hfollows, fun hi => hopened ?_⟩
      by_cases hj : j = i
      · subst hj
        exact .inl (opened_sinkCloseRecord)
      · refine hi.imp (fun hi => ?_) fun hi => (List.mem_cons.mp hi).resolve_left (Ne.symm hj)
        unfold SinkHost.sinkCloseRecord
        dsimp only
        split_ifs
        · exact hi
        · rw [SinkHost.sinkRecords_withRecord_of_ne _ (Ne.symm hj)]
          exact hi
  obtain ⟨hfollows, hopened⟩ := hstep (List.finRange 7) (s, []) h
  exact ⟨hfollows, hopened (.inr (List.mem_finRange i))⟩

/-- **Another sink is installed.** -/
theorem Follows.linappleSetByteSink (hall : ∀ m, members sink m = true)
    (h : Follows sink i s format l) (sink' : Option K) :
    Follows sink i (s.linappleSetByteSink members sink').1 format
        (hearAll sink (i.val + 1) format l (s.linappleSetByteSink members sink').2)
      ∧ hearAll sink (i.val + 1) format l (s.linappleSetByteSink members sink').2
        = some .closed := by
  obtain ⟨hfollows, hopened⟩ := h.closeRecords hall
  have hclosed := hfollows.closed fun hc => Bool.false_ne_true (hopened.symm.trans hc.2.1)
  refine ⟨⟨hfollows.slots, hfollows.line, ?_⟩, hclosed⟩
  refine Eq.trans hclosed (congrArg some (if_neg fun hc => ?_).symm)
  exact Bool.false_ne_true (hopened.symm.trans hc.2.1)

/-- **The listener follows every step.** -/
theorem Follows.step (hall : ∀ m, members sink m = true) (h : Follows sink i s format l)
    (op : SinkOp K) : Follows sink i (s.step members op).1 (op.format i format)
      (hearAll sink (i.val + 1) (op.format i format) l (s.step members op).2) := by
  cases op with
  | sinkOpen slot kind => exact h.hostSinkOpen slot kind
  | write token byte =>
    exact h.throughToken hall token _ (fun _ => rfl) fun _ => if_pos rfl
  | ready token answer => exact h.throughToken hall token _ (fun _ => rfl) fun _ => rfl
  | close token => exact h.hostSinkClose hall token
  | read token answer => exact h.throughToken hall token _ (fun _ => rfl) fun _ => rfl
  | setLine token line => exact h.hostSinkSetLine hall token line
  | getLines token answer => exact h.throughToken hall token _ (fun _ => rfl) fun _ => rfl
  | setByteSink sink' => exact (h.linappleSetByteSink hall sink').1

/-- **A sink with every member hears nothing out of order about a slot**, in
any run: the listener is never lost. Where the slot is open, the sink is the
one installed and has been sent the format the card has set, and when another
is installed the slot is closed. -/
theorem listener_run (members : K → SinkMember → Bool) (sink : K)
    (hall : ∀ m, members sink m = true) (i : Fin 7) (ops : List (SinkOp K)) :
    let o := (sinkMachine members sink i).run (.initial K) ops
    (∃ l, o.listener = some l
      ∧ (l ≠ .closed → o.host.byteSink = some sink ∧ l = .opened o.format))
    ∧ ∀ sink', ((sinkMachine members sink i).next o (.setByteSink sink')).listener
      = some .closed := by
  have hinitial : Follows sink i (Overheard.initial K).host (Overheard.initial K).format
      (Overheard.initial K).listener :=
    ⟨fun _ => .inl ⟨rfl, rfl⟩, rfl, congrArg some (if_neg fun hc => nomatch hc.1).symm⟩
  have hrun := (sinkMachine members sink i).invariant_run_of_forall
    (I := fun o => Follows sink i o.host o.format o.listener)
    (fun o op ho => ho.step hall op) hinitial ops
  dsimp only
  refine ⟨⟨_, hrun.listener, fun hl => ?_⟩, fun sink' => (hrun.linappleSetByteSink hall sink').2⟩
  split_ifs at hl ⊢ with hopen
  · exact ⟨hopen.1, rfl⟩
  · exact absurd rfl hl

end Follows

/-- A card sets its line format, and writes a byte; the sink is replaced by
itself, and the card writes another. -/
theorem listener_run_replaced :
    let line : PeripheralSerialLine := ⟨9600, 8, 0, 2, 1, 1, 0⟩
    let ops : List (SinkOp Unit) := [.sinkOpen 2 2, .setLine (some 1) line, .setByteSink (some ()),
      .write (some 1) 65, .setByteSink (some ()), .write (some 1) 66]
    (sinkMachine (fun _ _ => true) () 1).shows (.initial Unit) ops
        = [[], [], [], [((), .open 2 2), ((), .setLine 2 line), ((), .write 2 65)],
          [((), .close 2)], [((), .open 2 2), ((), .setLine 2 line), ((), .write 2 66)]]
      ∧ ∃ l, ((sinkMachine (fun _ _ => true) () 1).run (.initial Unit) ops).listener = some l :=
  ⟨by decide, (listener_run (fun _ _ => true) () (fun _ => rfl) 1 _).1.imp fun _ h => h.1⟩

end LinApple.Slots
