import LinApple.Lib.Framing
import Mathlib.Data.List.Basic

/-!
# Sequences in terminal input

`process_sequences` cuts the bytes of a terminal into sequences: escape sequences of several
kinds, characters in UTF-8, and single bytes (`sequenceAt`). A sequence that has begun waits for
its end, unless it is longer than 32 bytes by then: its ESC is abandoned then. More bytes to come
leave the first sequence as it is but in three cases (`sequenceAt_append`): after a single ESC,
in a character, and where a control sequence of 33 bytes lacks its last one.
-/

namespace LinApple.Frontends

/-! ## The sequences -/

/-- `a2_key_esc` -/
def a2KeyEsc : UInt8 := 0x1b

/-- `max_escape_length` -/
def maxEscapeLength : Nat := 32

/-- The bytes that end a control sequence: from `ansi_final_byte_min` to `ansi_final_byte_max`. -/
def isFinal (b : UInt8) : Bool := 0x40 ≤ b && b ≤ 0x7e

/-- `utf8_continuation_count` -/
def utf8ContinuationCount (lead : UInt8) : Nat :=
  if lead < 0xc2 then 0
  else if lead ≤ 0xdf then 1
  else if lead ≤ 0xef then 2
  else if lead ≤ 0xf4 then 3
  else 0

/-- The bytes of a character in UTF-8 behind the first. -/
def isContinuation (b : UInt8) : Bool := 0x80 ≤ b && b ≤ 0xbf

/-- `utf8_sequence_at`, of what is behind the first byte. -/
def utf8SequenceAt (behind : List UInt8) (continuation : Nat) : Bool :=
  continuation ≤ behind.length && (behind.take continuation).all isContinuation

/-- **What the input is cut into.** -/
inductive TuiSequence
  /-- An ESC behind which nothing has arrived. -/
  | lastEsc
  /-- ESC `O` and a byte. -/
  | ss3 (cmd : UInt8)
  /-- ESC `[` `[` and a byte, from the Linux console. -/
  | console (cmd : UInt8)
  /-- ESC `[`, parameters and a final byte. -/
  | csi (params : List UInt8) (cmd : UInt8)
  /-- The ESC of a sequence that is too long. -/
  | abandoned
  /-- ESC and a byte of a key. -/
  | alt (afterEsc : UInt8)
  /-- An ESC behind which there is another one or a byte with the eighth bit. -/
  | esc
  /-- A character in UTF-8. -/
  | utf8 (lead : UInt8) (continuation : List UInt8)
  | byte (b : UInt8)
deriving DecidableEq, Repr

/-- The bytes of a sequence, by which `process_sequences` advances. -/
def TuiSequence.bytes : TuiSequence → List UInt8
  | lastEsc => [a2KeyEsc]
  | ss3 cmd => [a2KeyEsc, 0x4f, cmd]
  | console cmd => [a2KeyEsc, 0x5b, 0x5b, cmd]
  | csi params cmd => a2KeyEsc :: 0x5b :: params ++ [cmd]
  | abandoned => [a2KeyEsc]
  | alt afterEsc => [a2KeyEsc, afterEsc]
  | esc => [a2KeyEsc]
  | utf8 lead continuation => lead :: continuation
  | byte b => [b]

/-- The parameters of a control sequence: the bytes before a final one, of which no more are
looked at than the sequence may be long. -/
def csiParams (behind : List UInt8) : List UInt8 :=
  (behind.take (maxEscapeLength - 2)).takeWhile (!isFinal ·)

/-- A control sequence, from what is behind its first two bytes. -/
def csiAt (behind : List UInt8) : Option TuiSequence :=
  let params := csiParams behind
  match behind[params.length]? with
  | some cmd =>
    if isFinal cmd then some (.csi params cmd)
    else if 2 + params.length ≥ maxEscapeLength then some .abandoned
    else none
  | none => if 2 + params.length ≥ maxEscapeLength then some .abandoned else none

/-- An escape sequence, from what is behind its first byte. -/
def escapeAt : List UInt8 → Option TuiSequence
  | [] => some .lastEsc
  | afterEsc :: behind =>
    if afterEsc = 0x4f then behind.head?.map .ss3
    else if afterEsc = 0x5b then
      if behind.head? = some 0x5b then behind.tail.head?.map .console
      else csiAt behind
    else if afterEsc ≠ a2KeyEsc ∧ afterEsc < 0x80 then some (.alt afterEsc)
    else some .esc

/-- **The first sequence of what has arrived**, or none if there is to be waited for more. -/
def sequenceAt : List UInt8 → Option TuiSequence
  | [] => none
  | b :: behind =>
    if b = a2KeyEsc then escapeAt behind
    else
      let continuation := utf8ContinuationCount b
      if 0 < continuation ∧ utf8SequenceAt behind continuation then
        some (.utf8 b (behind.take continuation))
      else some (.byte b)

/-- Whether more input is read before the first sequence is looked at: where there is an ESC
alone, or less of a character than its first byte asks for. -/
def asksMore : List UInt8 → Bool
  | [] => false
  | b :: behind =>
    if b = a2KeyEsc then behind.isEmpty
    else decide (behind.length < utf8ContinuationCount b)

/-! ## Control sequences -/

section Scan

variable {α : Type*} {p : α → Bool}

/-- Where a scan for what does not satisfy a test ends, if it goes no further than `n`. -/
theorem exists_takeWhile_take (p : α → Bool) (n : Nat) (l : List α) :
    ∃ rest, l = (l.take n).takeWhile p ++ rest ∧ ((l.take n).takeWhile p).length ≤ n
      ∧ (∀ a ∈ (l.take n).takeWhile p, p a = true)
      ∧ ∀ a tail, rest = a :: tail → p a = false ∨ ((l.take n).takeWhile p).length = n := by
  induction l generalizing n with
  | nil =>
    rw [List.take_nil, List.takeWhile_nil]
    exact ⟨[], rfl, Nat.zero_le n, fun a ha => absurd ha List.not_mem_nil, fun a tail => nofun⟩
  | cons b l ih =>
    cases n with
    | zero => exact ⟨b :: l, rfl, Nat.le_refl 0, fun a ha => absurd ha List.not_mem_nil,
        fun _ _ _ => .inr rfl⟩
    | succ n =>
      rw [List.take_succ_cons, List.takeWhile_cons]
      cases hb : p b with
      | false => exact ⟨b :: l, rfl, Nat.zero_le _, fun a ha => absurd ha List.not_mem_nil,
          fun a tail heq => .inl (by rw [← (List.cons.inj heq).1, hb])⟩
      | true =>
        obtain ⟨rest, hl, hle, hall, hrest⟩ := ih n
        refine ⟨rest, congrArg (b :: ·) hl, Nat.succ_le_succ hle, fun a ha => ?_,
          fun a tail heq => (hrest a tail heq).imp_right (congrArg Nat.succ)⟩
        rcases List.mem_cons.1 ha with rfl | ha
        · exact hb
        · exact hall a ha

theorem takeWhile_take_append {n : Nat} {l rest : List α} (hall : ∀ a ∈ l, p a = true)
    (hle : l.length ≤ n) (hrest : ∀ a tail, rest = a :: tail → p a = false ∨ l.length = n) :
    ((l ++ rest).take n).takeWhile p = l := by
  induction l generalizing n with
  | nil =>
    cases rest with
    | nil => rw [List.nil_append, List.take_nil, List.takeWhile_nil]
    | cons a tail =>
      rcases hrest a tail rfl with ha | hn
      · cases n with
        | zero => rfl
        | succ n => rw [List.nil_append, List.take_succ_cons, List.takeWhile_cons, ha]; rfl
      · rw [← hn]
        rfl
  | cons b l ih =>
    cases n with
    | zero => exact absurd hle (Nat.not_succ_le_zero _)
    | succ n =>
      rw [List.cons_append, List.take_succ_cons, List.takeWhile_cons,
        if_pos (hall b (List.mem_cons_self ..)), ih (fun a ha => hall a (List.mem_cons_of_mem b ha))
          (Nat.le_of_succ_le_succ hle) fun a tail heq =>
            (hrest a tail heq).imp_right Nat.succ.inj]

end Scan

/-- **Where the scan of a control sequence ends.** -/
theorem csiParams_spec (behind : List UInt8) :
    ∃ rest, behind = csiParams behind ++ rest ∧ (csiParams behind).length ≤ 30
      ∧ (∀ b ∈ csiParams behind, isFinal b = false)
      ∧ ∀ cmd tail, rest = cmd :: tail → isFinal cmd = true ∨ (csiParams behind).length = 30 := by
  obtain ⟨rest, hbehind, hle, hall, hrest⟩ := exists_takeWhile_take (!isFinal ·) 30 behind
  refine ⟨rest, hbehind, hle, fun b hb => ?_, fun cmd tail heq =>
    (hrest cmd tail heq).imp_left fun hnot => ?_⟩
  · have hb' := hall b hb
    rwa [Bool.not_eq_true'] at hb'
  · rwa [Bool.not_eq_false'] at hnot

theorem csiParams_append {params rest : List UInt8} (hall : ∀ b ∈ params, isFinal b = false)
    (hle : params.length ≤ 30)
    (hrest : ∀ cmd tail, rest = cmd :: tail → isFinal cmd = true ∨ params.length = 30) :
    csiParams (params ++ rest) = params :=
  takeWhile_take_append (fun b hb => by rw [hall b hb]; rfl) hle
    fun cmd tail heq => (hrest cmd tail heq).imp_left fun h => by rw [h]; rfl

/-- **What a control sequence comes to** once its scan has ended at a byte. -/
theorem csiAt_append_cons {params tail : List UInt8} {cmd : UInt8}
    (hall : ∀ b ∈ params, isFinal b = false) (hle : params.length ≤ 30)
    (hcmd : isFinal cmd = true ∨ params.length = 30) :
    csiAt (params ++ cmd :: tail)
      = some (if isFinal cmd then .csi params cmd else .abandoned) := by
  have hparams : csiParams (params ++ cmd :: tail) = params :=
    csiParams_append hall hle fun cmd' tail' heq => by rw [← (List.cons.inj heq).1]; exact hcmd
  unfold csiAt
  dsimp only
  rw [hparams, List.getElem?_append_right (Nat.le_refl _), Nat.sub_self, List.getElem?_cons_zero]
  dsimp only
  by_cases hfinal : isFinal cmd = true
  · rw [if_pos hfinal, if_pos hfinal]
  · rw [if_neg hfinal, if_neg hfinal, hcmd.resolve_left hfinal]
    rfl

/-- What it comes to where no byte has arrived at which the scan ends. -/
theorem csiAt_of_all {params : List UInt8} (hall : ∀ b ∈ params, isFinal b = false)
    (hle : params.length ≤ 30) :
    csiAt params = if params.length = 30 then some .abandoned else none := by
  have hparams : csiParams params = params := by
    have happend : csiParams (params ++ []) = params :=
      csiParams_append hall hle fun _ _ => nofun
    rwa [List.append_nil] at happend
  unfold csiAt
  dsimp only
  rw [hparams, List.getElem?_eq_none (Nat.le_refl _)]
  dsimp only
  unfold maxEscapeLength
  by_cases hlength : params.length = 30
  · rw [if_pos hlength, if_pos (by omega)]
  · rw [if_neg hlength, if_neg (by omega)]

/-- **More bytes behind a control sequence** change it only where it lacks its last byte after 32
bytes. -/
theorem csiAt_append {behind : List UInt8} {s : TuiSequence} (h : csiAt behind = some s)
    (r : List UInt8) :
    csiAt (behind ++ r) = some s
      ∨ behind.length = 30 ∧ ∃ cmd tail, r = cmd :: tail
        ∧ csiAt (behind ++ r) = some (.csi behind cmd) := by
  obtain ⟨rest, hbehind, hle, hall, hrest⟩ := csiParams_spec behind
  cases rest with
  | cons cmd tail =>
    have hcmd := hrest cmd tail rfl
    left
    rw [hbehind] at h ⊢
    generalize csiParams behind = params at hle hall hcmd h ⊢
    rw [List.append_assoc, List.cons_append, csiAt_append_cons hall hle hcmd]
    rwa [csiAt_append_cons hall hle hcmd] at h
  | nil =>
    rw [List.append_nil] at hbehind
    rw [← hbehind] at hle hall
    rw [csiAt_of_all hall hle] at h
    split at h
    · rename_i hlength
      cases r with
      | nil =>
        left
        rw [List.append_nil, csiAt_of_all hall hle, if_pos hlength]
        exact h
      | cons cmd tail =>
        rw [csiAt_append_cons hall hle (.inr hlength)]
        by_cases hfinal : isFinal cmd = true
        · exact .inr ⟨hlength, cmd, tail, rfl, by rw [if_pos hfinal]⟩
        · left
          rw [if_neg hfinal]
          exact h
    · exact absurd h nofun

/-- A control sequence is what the queue starts with. -/
theorem starts_of_csiAt {behind : List UInt8} {s : TuiSequence} (h : csiAt behind = some s) :
    s.bytes ≠ [] ∧ ∃ rest, s.bytes ++ rest = a2KeyEsc :: 0x5b :: behind := by
  obtain ⟨rest, hbehind, hle, hall, hrest⟩ := csiParams_spec behind
  have habandoned : TuiSequence.abandoned.bytes ≠ []
      ∧ ∃ rest, TuiSequence.abandoned.bytes ++ rest = a2KeyEsc :: 0x5b :: behind :=
    ⟨List.cons_ne_nil _ _, 0x5b :: behind, rfl⟩
  cases rest with
  | cons cmd tail =>
    rw [hbehind, csiAt_append_cons hall hle (hrest cmd tail rfl)] at h
    obtain rfl := Option.some.inj h
    split
    · refine ⟨List.cons_ne_nil _ _, tail, ?_⟩
      conv_rhs => rw [hbehind]
      simp only [TuiSequence.bytes, List.cons_append, List.append_assoc, List.nil_append]
    · exact habandoned
  | nil =>
    rw [List.append_nil] at hbehind
    rw [← hbehind] at hle hall
    rw [csiAt_of_all hall hle] at h
    split at h
    · obtain rfl := Option.some.inj h
      exact habandoned
    · exact absurd h nofun

/-! ## Sequences as frames -/

/-- An escape sequence is what the queue starts with. -/
theorem starts_of_escapeAt {behind : List UInt8} {s : TuiSequence} (h : escapeAt behind = some s) :
    s.bytes ≠ [] ∧ ∃ rest, s.bytes ++ rest = a2KeyEsc :: behind := by
  cases behind with
  | nil =>
    obtain rfl := Option.some.inj h
    exact ⟨List.cons_ne_nil _ _, [], rfl⟩
  | cons afterEsc behind =>
    rw [escapeAt] at h
    split at h
    · rename_i hss3
      cases behind with
      | nil => exact absurd h nofun
      | cons cmd tail =>
        obtain rfl := Option.some.inj h
        exact ⟨List.cons_ne_nil _ _, tail, by rw [hss3]; rfl⟩
    · split at h
      · rename_i hcsi
        subst hcsi
        split at h
        · rename_i hconsole
          cases behind with
          | nil => exact absurd hconsole nofun
          | cons bracket tail =>
            obtain rfl := Option.some.inj hconsole
            cases tail with
            | nil => exact absurd h nofun
            | cons cmd tail =>
              obtain rfl := Option.some.inj h
              exact ⟨List.cons_ne_nil _ _, tail, rfl⟩
        · exact starts_of_csiAt h
      · split at h
        · obtain rfl := Option.some.inj h
          exact ⟨List.cons_ne_nil _ _, behind, rfl⟩
        · obtain rfl := Option.some.inj h
          exact ⟨List.cons_ne_nil _ _, afterEsc :: behind, rfl⟩

/-- **A sequence is what the queue starts with.** -/
theorem starts_of_sequenceAt {q : List UInt8} {s : TuiSequence} (h : sequenceAt q = some s) :
    s.bytes ≠ [] ∧ ∃ rest, s.bytes ++ rest = q := by
  cases q with
  | nil => exact absurd h nofun
  | cons b behind =>
    rw [sequenceAt] at h
    split at h
    · rename_i hesc
      rw [hesc]
      exact starts_of_escapeAt h
    · dsimp only at h
      split at h
      · obtain rfl := Option.some.inj h
        exact ⟨List.cons_ne_nil _ _, behind.drop (utf8ContinuationCount b),
          congrArg (b :: ·) (List.take_append_drop ..)⟩
      · obtain rfl := Option.some.inj h
        exact ⟨List.cons_ne_nil _ _, behind, rfl⟩

/-- **Terminal input as a stream of sequences.** -/
def tuiFraming : Framing UInt8 TuiSequence where
  frame := sequenceAt
  bytes := TuiSequence.bytes
  starts := starts_of_sequenceAt

/-! ## More input -/

/-- **More bytes leave an escape sequence** but behind a single ESC, and behind 32 bytes of a
control sequence. -/
theorem escapeAt_append {behind : List UInt8} {s : TuiSequence} (h : escapeAt behind = some s)
    (hne : behind ≠ []) (r : List UInt8) :
    escapeAt (behind ++ r) = some s
      ∨ ∃ params cmd tail, behind = 0x5b :: params ∧ params.length = 30 ∧ r = cmd :: tail
        ∧ escapeAt (behind ++ r) = some (.csi params cmd) := by
  cases behind with
  | nil => exact absurd rfl hne
  | cons afterEsc behind =>
    rw [List.cons_append]
    -- SS3, the console's `[[` and the plain escape end at a byte of their own; only a CSI sequence
    -- cut off at thirty bytes may read on
    rw [escapeAt] at h ⊢
    split at h
    · rename_i hss3
      rw [if_pos hss3]
      cases behind with
      | nil => exact absurd h nofun
      | cons cmd tail => exact .inl h
    · rename_i hss3
      rw [if_neg hss3]
      split at h
      · rename_i hcsi
        rw [if_pos hcsi]
        split at h
        · rename_i hconsole
          cases behind with
          | nil => exact absurd hconsole nofun
          | cons bracket tail =>
            rw [if_pos (by exact hconsole)]
            cases tail with
            | nil => exact absurd h nofun
            | cons cmd tail => exact .inl h
        · rename_i hconsole
          have hnot : (behind ++ r).head? ≠ some 0x5b := by
            cases behind with
            | nil => exact absurd h nofun
            | cons cmd tail => exact hconsole
          rw [if_neg hnot]
          rcases csiAt_append h r with hsame | ⟨hlength, cmd, tail, hr, hcsi'⟩
          · exact .inl hsame
          · exact .inr ⟨behind, cmd, tail, by rw [hcsi], hlength, hr, hcsi'⟩
      · rename_i hcsi
        rw [if_neg hcsi]
        exact .inl h

/-- A cut directly behind an ESC. -/
def CutBehindEsc (before after : List UInt8) : Prop :=
  after ≠ [] ∧ before.getLast? = some a2KeyEsc

/-- A cut inside a UTF-8 sequence. -/
def CutInUtf8 (before after : List UInt8) : Prop :=
  ∃ earlier lead behind, before = earlier ++ lead :: behind
    ∧ behind.length < utf8ContinuationCount lead
    ∧ utf8SequenceAt (behind ++ after) (utf8ContinuationCount lead) = true

/-- **A cut between sequences**, or inside one other than a character and not behind an ESC. -/
def CleanCut (before after : List UInt8) : Prop :=
  ¬CutBehindEsc before after ∧ ¬CutInUtf8 before after

/-- **A cut before the last byte of a control sequence of 33 bytes.** Where sequences begin
depends on all bytes before, so the whole stream is taken apart, and the sequence in question is
one of the pieces. -/
def CutBeforeFinal (before after : List UInt8) : Prop :=
  ∃ fs params cmd fs' left, tuiFraming.Frames (before ++ after) (fs ++ .csi params cmd :: fs') left
    ∧ params.length = 30
    ∧ before = fs.flatMap TuiSequence.bytes ++ a2KeyEsc :: 0x5b :: params

/-- A cut behind bytes of which none begins a character. -/
theorem cleanCut_of_all {before after : List UInt8} (hlast : before.getLast? ≠ some a2KeyEsc)
    (hall : before.all (utf8ContinuationCount · == 0) = true) : CleanCut before after := by
  refine ⟨fun hcut => hlast hcut.2, ?_⟩
  rintro ⟨earlier, lead, behind, rfl, hless, -⟩
  rw [List.all_append, Bool.and_eq_true, List.all_cons, Bool.and_eq_true, beq_iff_eq] at hall
  rw [hall.2.1] at hless
  exact Nat.not_lt_zero _ hless

/-- There are 32 bytes before the last one of a control sequence of 33 bytes. -/
theorem CutBeforeFinal.length_le {before after : List UInt8} (h : CutBeforeFinal before after) :
    32 ≤ before.length := by
  obtain ⟨fs, params, cmd, fs', left, -, hlength, rfl⟩ := h
  rw [List.length_append, List.length_cons, List.length_cons]
  omega

/-- Whether a UTF-8 sequence is there is told by its bytes. -/
theorem utf8SequenceAt_append {behind : List UInt8} {n : Nat} (hn : n ≤ behind.length)
    (r : List UInt8) : utf8SequenceAt (behind ++ r) n = utf8SequenceAt behind n := by
  unfold utf8SequenceAt
  rw [List.take_append_of_le_length hn, List.length_append, decide_eq_true hn,
    decide_eq_true (Nat.le_trans hn (Nat.le_add_right ..))]

/-- **More bytes leave a sequence** at every cut that is clean and not before a final byte. -/
theorem sequenceAt_append {q r : List UInt8} {s : TuiSequence} (h : sequenceAt q = some s)
    (hclean : CleanCut q r) :
    sequenceAt (q ++ r) = some s
      ∨ ∃ params cmd tail, q = a2KeyEsc :: 0x5b :: params ∧ params.length = 30 ∧ r = cmd :: tail
        ∧ sequenceAt (q ++ r) = some (.csi params cmd) := by
  cases q with
  | nil => exact absurd h nofun
  | cons b behind =>
    rw [List.cons_append]
    rw [sequenceAt] at h ⊢
    split at h
    · rename_i hesc
      rw [if_pos hesc]
      cases r with
      | nil =>
        rw [List.append_nil]
        exact .inl h
      | cons next tail =>
        have hne : behind ≠ [] := by
          rintro rfl
          exact hclean.1 ⟨List.cons_ne_nil next tail, congrArg some hesc⟩
        rcases escapeAt_append h hne (next :: tail) with hsame | ⟨params, cmd, tail', hq, hrest⟩
        · exact .inl hsame
        · exact .inr ⟨params, cmd, tail', by rw [hesc, hq], hrest⟩
    · rename_i hesc
      rw [if_neg hesc]
      left
      dsimp only at h ⊢
      -- bytes too few for their lead byte form no character with what follows either, as the cut is
      -- not inside one
      rcases Nat.lt_or_ge behind.length (utf8ContinuationCount b) with hless | henough
      · have hincomplete : utf8SequenceAt behind (utf8ContinuationCount b) = false := by
          unfold utf8SequenceAt
          rw [decide_eq_false (Nat.not_le.2 hless), Bool.false_and]
        have hnever : utf8SequenceAt (behind ++ r) (utf8ContinuationCount b) = false := by
          rw [← Bool.not_eq_true]
          exact fun hcut => hclean.2 ⟨[], b, behind, rfl, hless, hcut⟩
        rw [hincomplete, if_neg (fun hand => Bool.false_ne_true hand.2)] at h
        rw [hnever, if_neg (fun hand => Bool.false_ne_true hand.2)]
        exact h
      · rw [utf8SequenceAt_append henough, List.take_append_of_le_length henough]
        exact h

/-! ## Cuts where sequences stay -/

/-- A cut at which what is there of the first sequence is not changed by what comes. -/
def HarmlessCut (before after : List UInt8) : Prop :=
  CleanCut before after ∧ ¬CutBeforeFinal before after

theorem harmlessCut_nil (q : List UInt8) : HarmlessCut q [] := by
  refine ⟨⟨fun hcut => hcut.1 rfl, ?_⟩, ?_⟩
  · rintro ⟨earlier, lead, behind, -, hless, hcut⟩
    unfold utf8SequenceAt at hcut
    rw [List.append_nil, decide_eq_false (Nat.not_le.2 hless), Bool.false_and] at hcut
    exact Bool.false_ne_true hcut
  · rintro ⟨fs, params, cmd, fs', left, hframes, -, hq⟩
    have hlength := congrArg List.length hframes.bytes
    have hbefore := congrArg List.length hq
    rw [List.append_nil, List.flatMap_append, List.flatMap_cons] at hlength
    simp only [tuiFraming, TuiSequence.bytes, List.length_append, List.length_cons,
      List.length_nil] at hlength hbefore
    omega

/-- **A sequence stays** the first at a harmless cut. -/
theorem HarmlessCut.stable {q r : List UInt8} {s : TuiSequence} (hcut : HarmlessCut q r)
    (h : sequenceAt q = some s) : sequenceAt (q ++ r) = some s := by
  rcases sequenceAt_append h hcut.1 with hsame | ⟨params, cmd, tail, hq, hlength, hr, hcsi⟩
  · exact hsame
  · obtain ⟨fs', left, hrest⟩ :=
      Framing.exists_frames (M := tuiFraming) (tuiFraming.behind (q ++ r) (.csi params cmd))
    exact absurd ⟨[], params, cmd, fs', left, .take hcsi hrest, hlength, hq⟩ hcut.2

/-- **A harmless cut is one for the sequences behind.** -/
theorem HarmlessCut.behind {s : TuiSequence} {q r : List UInt8}
    (h : sequenceAt (s.bytes ++ q ++ r) = some s) (hcut : HarmlessCut (s.bytes ++ q) r) :
    HarmlessCut q r := by
  obtain ⟨⟨hesc, hutf8⟩, hfinal⟩ := hcut
  refine ⟨⟨fun hcut => hesc ⟨hcut.1, ?_⟩, fun hcut => hutf8 ?_⟩, fun hcut => hfinal ?_⟩
  · rw [List.getLast?_append, hcut.2]
    rfl
  · obtain ⟨earlier, lead, behind, rfl, hless, hrest⟩ := hcut
    exact ⟨s.bytes ++ earlier, lead, behind, (List.append_assoc ..).symm, hless, hrest⟩
  · obtain ⟨fs, params, cmd, fs', left, hframes, hlength, rfl⟩ := hcut
    refine ⟨s :: fs, params, cmd, fs', left, .take h ?_, hlength, ?_⟩
    · have hbehind := tuiFraming.behind_bytes_append s
        (fs.flatMap TuiSequence.bytes ++ a2KeyEsc :: 0x5b :: params ++ r)
      rw [← List.append_assoc] at hbehind
      exact hbehind.symm ▸ hframes
    · rw [List.flatMap_cons, List.append_assoc]

end LinApple.Frontends
