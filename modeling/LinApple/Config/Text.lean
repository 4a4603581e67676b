import LinApple.Basic.Export
import LinApple.Config.Registry

/-!
# The lines of a configuration file

What a line of a file asks of the reader, and what the reader makes of the lines
the writer writes.
-/

namespace LinApple.Config

open Basic (Text bytes isSpace getLines)

/-! ## Trimming -/

section Trim

variable {s t : Text} {c : UInt8}

theorem rdropWhile_append_cons {α : Type*} {p : α → Bool} {a : α} (h : p a = false)
    (l r : List α) : (l ++ a :: r).rdropWhile p = l ++ a :: r.rdropWhile p := by
  have hstop : (a :: l.reverse).dropWhile p = a :: l.reverse :=
    List.dropWhile_cons_of_neg (Bool.eq_false_iff.mp h)
  rw [List.rdropWhile, List.rdropWhile, List.reverse_append, List.reverse_cons, List.append_assoc,
    List.singleton_append, List.dropWhile_append, hstop]
  split
  · next hempty =>
    rw [List.isEmpty_iff.mp hempty, List.reverse_cons, List.reverse_reverse]
    rfl
  · rw [List.reverse_append, List.reverse_cons, List.reverse_reverse, List.append_assoc]
    rfl

/-- Blanks may be dropped at either end first. -/
theorem dropWhile_rdropWhile {α : Type*} (p : α → Bool) (l : List α) :
    (l.rdropWhile p).dropWhile p = (l.dropWhile p).rdropWhile p := by
  induction l with
  | nil => rfl
  | cons a l ih =>
    cases ha : p a with
    | true =>
      rw [List.dropWhile_cons_of_pos ha, ← ih, List.rdropWhile, List.rdropWhile,
        List.reverse_cons, List.dropWhile_append]
      split
      · next hempty =>
        rw [List.isEmpty_iff.mp hempty, List.dropWhile_cons_of_pos ha]
        rfl
      · rw [List.reverse_append]
        exact List.dropWhile_cons_of_pos ha
    | false =>
      have hneg : ¬ p a = true := Bool.eq_false_iff.mp ha
      have hcons := @rdropWhile_append_cons _ p a ha [] l
      rw [List.nil_append, List.nil_append] at hcons
      rw [List.dropWhile_cons_of_neg hneg, hcons, List.dropWhile_cons_of_neg hneg]

/-- What is trimmed is part of the text. -/
theorem trim_sublist (s : Text) : (trim s).Sublist s :=
  ((List.rdropWhile_prefix _ _).sublist).trans (List.dropWhile_suffix _).sublist

theorem trim_trim (s : Text) : trim (trim s) = trim s := by
  unfold trim
  rw [dropWhile_rdropWhile, List.dropWhile_idempotent, List.rdropWhile_idempotent]

theorem trim_cons (h : isSpace c = true) : trim (c :: s) = trim s := by
  rw [trim, List.dropWhile_cons_of_pos h, trim]

theorem trim_rdropWhile (s : Text) : trim (s.rdropWhile isSpace) = trim s := by
  unfold trim
  rw [dropWhile_rdropWhile, List.rdropWhile_idempotent]

theorem trim_append_blank (h : isSpace c = true) : trim (s ++ [c]) = trim s := by
  have hblank : (s ++ [c]).rdropWhile isSpace = s.rdropWhile isSpace := by
    rw [List.rdropWhile_concat_pos _ _ _ h]
  rw [← trim_rdropWhile, hblank, trim_rdropWhile]

/-- A trimmed text does not begin with a blank. -/
theorem head?_trim (s : Text) : ∀ a ∈ (trim s).head?, isSpace a = false := by
  intro a ha
  unfold trim at ha
  rw [← dropWhile_rdropWhile] at ha
  have hnot := List.head?_dropWhile_not isSpace (s.rdropWhile isSpace)
  rw [Option.mem_def.mp ha] at hnot
  exact hnot

theorem mem_of_mem_trim (h : c ∈ trim s) : c ∈ s := (trim_sublist s).subset h

end Trim

/-! ## What a line asks for -/

/-- What the reader does with a line. -/
inductive Directive where
  /-- Nothing. -/
  | skip
  /-- A section begins. -/
  | head (sec : Text)
  /-- A key is given a value. -/
  | entry (key value : Text)
deriving DecidableEq

/-- What a line asks for. -/
def directive (line : Text) : Directive :=
  let line := trim line
  if line = [] ∨ line.head? = some hash then .skip
  else if isSectionHead line then .head ((line.drop 1).take (line.length - 2))
  else if equalsSign ∈ line then
    .entry (trim (line.takeWhile (· ≠ equalsSign)))
      (unquote (trim ((line.dropWhile (· ≠ equalsSign)).drop 1)))
  else .skip

/-- The values that are given, each in the section it is given in. -/
def assigned : Text → List Directive → List (Text × Text × Text)
  | _, [] => []
  | sec, .skip :: ds => assigned sec ds
  | _, .head sec :: ds => assigned sec ds
  | sec, .entry key value :: ds => (sec, key, value) :: assigned sec ds

/-- One value is put into the map. -/
def Data.put (d : Data) (e : Text × Text × Text) : Data := d.set e.1 e.2.1 e.2.2

/-- **A file is read as the values its lines give.** -/
theorem foldl_readLine (lines : List Text) (sec : Text) (d : Data) :
    (lines.foldl readLine (sec, d)).2 = (assigned sec (lines.map directive)).foldl Data.put d := by
  induction lines generalizing sec d with
  | nil => rfl
  | cons line lines ih =>
    rw [List.foldl_cons, List.map_cons]
    unfold readLine directive
    dsimp only
    split_ifs
    · exact ih sec d
    · exact ih _ d
    · exact ih sec _
    · exact ih sec d

theorem readData_eq (file : Text) : readData file =
    (assigned secConfiguration ((getLines file).map directive)).foldl Data.put ∅ :=
  foldl_readLine _ _ _

/-- The lines of a file have no end of line in them. -/
theorem newline_not_mem_getLines {text line : Text} (h : line ∈ getLines text) :
    (0x0A : UInt8) ∉ line := by
  suffices hfrom : ∀ (text before : Text), (0x0A : UInt8) ∉ before →
      ∀ line ∈ Basic.getLinesFrom before text, (0x0A : UInt8) ∉ line from
    hfrom text [] List.not_mem_nil line h
  intro text
  induction text with
  | nil =>
    intro before hbefore line hline
    unfold Basic.getLinesFrom at hline
    split_ifs at hline with hempty
    · exact absurd hline List.not_mem_nil
    · rwa [List.mem_singleton.mp hline]
  | cons c text ih =>
    intro before hbefore line hline
    unfold Basic.getLinesFrom at hline
    split_ifs at hline with hc
    · rcases List.mem_cons.mp hline with rfl | hline
      · exact hbefore
      · exact ih [] List.not_mem_nil line hline
    · refine ih (before ++ [c]) (fun hmem => ?_) line hline
      rcases List.mem_append.mp hmem with hmem | hmem
      · exact hbefore hmem
      · exact hc (List.mem_singleton.mp hmem).symm

/-- Lines that are written are the lines that are read. -/
theorem getLines_flatMap {lines : List Text} (h : ∀ l ∈ lines, (0x0A : UInt8) ∉ l) :
    getLines (lines.flatMap (· ++ [0x0A])) = lines := by
  induction lines with
  | nil => rfl
  | cons line lines ih =>
    rw [List.forall_mem_cons] at h
    rw [List.flatMap_cons, Basic.getLines_line h.1, ih h.2]

/-! ## Lines that the writer writes -/

/-- **A key the reader makes of a line.** -/
structure KeyText (key : Text) : Prop where
  trimmed : trim key = key
  equals : equalsSign ∉ key
  hash : key.head? ≠ some hash
  newline : (0x0A : UInt8) ∉ key

/-- Whether a key with a value is written as the head of a section. -/
def isHeadLike (key value : Text) : Bool :=
  key.head? = some bracketOpen && (trim value).getLast? = some bracketClose

theorem isSpace_blank : isSpace 0x20 = true := rfl

theorem isSpace_equalsSign : isSpace equalsSign = false := rfl

/-- What stands before the equals sign. -/
def keyText (key : Text) : Text := if key = [] then [] else key ++ [0x20]

theorem trim_keyText {key : Text} (h : KeyText key) : trim (keyText key) = key := by
  unfold keyText
  split_ifs with hkey
  · rw [hkey]
    rfl
  · rw [trim_append_blank isSpace_blank, h.trimmed]

/-- What the reader has of the line of a key. -/
theorem trim_entryLine {key : Text} (h : KeyText key) (value : Text) :
    trim (entryLine key value) =
      keyText key ++ equalsSign :: (0x20 :: value).rdropWhile isSpace := by
  have hline : entryLine key value = key ++ 0x20 :: equalsSign :: 0x20 :: value := by
    rw [entryLine, List.append_assoc]
    rfl
  have hdrop : (entryLine key value).dropWhile isSpace =
      keyText key ++ equalsSign :: 0x20 :: value := by
    rw [hline]
    unfold keyText
    split_ifs with hkey
    · rw [hkey]
      rfl
    · cases key with
      | nil => exact absurd rfl hkey
      | cons c key =>
        have hc : isSpace c = false := by
          refine head?_trim (c :: key) c ?_
          rw [h.trimmed]
          rfl
        rw [List.cons_append, List.dropWhile_cons_of_neg (Bool.eq_false_iff.mp hc),
          List.append_assoc]
        rfl
  rw [trim, hdrop, rdropWhile_append_cons isSpace_equalsSign]

/-- What is left of a value. -/
theorem dropWhile_value (value : Text) :
    ((0x20 :: value).rdropWhile isSpace).dropWhile isSpace = trim value := by
  rw [dropWhile_rdropWhile, List.dropWhile_cons_of_pos isSpace_blank, trim]

/-- How the line of a key ends. -/
theorem getLast?_entryLine (before value : Text) :
    (before ++ equalsSign :: (0x20 :: value).rdropWhile isSpace).getLast? =
      if trim value = [] then some equalsSign else (trim value).getLast? := by
  have hdrop := dropWhile_value value
  split_ifs with hempty
  · rw [hempty, List.dropWhile_eq_nil_iff] at hdrop
    have hnil := List.rdropWhile_eq_nil_iff.mpr hdrop
    rw [List.rdropWhile_idempotent] at hnil
    rw [hnil, List.getLast?_concat]
  · have hsplit := @List.takeWhile_append_dropWhile _ isSpace
      ((0x20 :: value).rdropWhile isSpace)
    rw [hdrop] at hsplit
    rw [← hsplit, List.append_cons, ← List.append_assoc, List.getLast?_append]
    cases hlast : (trim value).getLast? with
    | none => exact absurd (List.getLast?_eq_none_iff.mp hlast) hempty
    | some c => rfl

/-- How it begins. -/
theorem head?_entryLine (key rest : Text) :
    (keyText key ++ equalsSign :: rest).head? = (key.head?).or (some equalsSign) := by
  cases key <;> rfl

theorem equalsSign_not_mem_keyText {key : Text} (h : KeyText key) : equalsSign ∉ keyText key := by
  unfold keyText
  split_ifs
  · exact List.not_mem_nil
  · intro hmem
    rcases List.mem_append.mp hmem with hmem | hmem
    · exact h.equals hmem
    · exact absurd (List.mem_singleton.mp hmem) (by decide)

/-- Whether the line of a key is the head of a section. -/
theorem isSectionHead_entryLine (key value : Text) :
    isSectionHead (keyText key ++ equalsSign :: (0x20 :: value).rdropWhile isSpace) =
      isHeadLike key value := by
  unfold isSectionHead isHeadLike
  rw [head?_entryLine, getLast?_entryLine]
  cases key with
  | nil =>
    have hhead : decide ((List.head? ([] : Text)).or (some equalsSign) = some bracketOpen) = false :=
      rfl
    rw [hhead, Bool.and_false, Bool.false_and]
    rfl
  | cons c key =>
    have hlength : decide (2 ≤ (keyText (c :: key) ++
        equalsSign :: (0x20 :: value).rdropWhile isSpace).length) = true := by
      rw [decide_eq_true_eq, List.length_append, keyText, if_neg (List.cons_ne_nil _ _),
        List.length_append, List.length_cons, List.length_singleton]
      omega
    rw [hlength, Bool.true_and]
    split_ifs with hempty
    · rw [hempty]
      rfl
    · rfl

/-- The head of a section keeps what stands between the brackets. -/
theorem mem_head {line : Text} (h : isSectionHead line = true) {c : UInt8} (hc : c ∈ line)
    (hopen : c ≠ bracketOpen) (hclose : c ≠ bracketClose) :
    c ∈ (line.drop 1).take (line.length - 2) := by
  simp only [isSectionHead, Bool.and_eq_true, decide_eq_true_eq] at h
  obtain ⟨⟨hlength, hhead⟩, hlast⟩ := h
  cases line with
  | nil => exact absurd hc List.not_mem_nil
  | cons a line =>
    obtain rfl : a = bracketOpen := Option.some.inj hhead
    have htail : c ∈ line := (List.mem_cons.mp hc).resolve_left hopen
    rcases List.eq_nil_or_concat line with rfl | ⟨mid, b, rfl⟩
    · exact absurd htail List.not_mem_nil
    · rw [List.concat_eq_append, ← List.cons_append, List.getLast?_concat] at hlast
      obtain rfl : b = bracketClose := Option.some.inj hlast
      rw [List.concat_eq_append] at htail ⊢
      have hmid : c ∈ mid :=
        (List.mem_append.mp htail).resolve_right fun hmem => hclose (List.mem_singleton.mp hmem)
      have htake : (bracketOpen :: (mid ++ [bracketClose])).length - 2 = mid.length := by
        rw [List.length_cons, List.length_append, List.length_singleton]
        omega
      rw [htake, List.drop_one, List.tail_cons, List.take_left]
      exact hmid

/-- **What is read of the line of a key**: the key, with what is left of its value, or
the head of a section. -/
theorem directive_entryLine {key : Text} (h : KeyText key) (value : Text) :
    if isHeadLike key value then
      ∃ sec, directive (entryLine key value) = .head sec ∧ equalsSign ∈ sec
    else directive (entryLine key value) = .entry key (unquote (trim value)) := by
  have hequals : ∀ rest, equalsSign ∈ keyText key ++ equalsSign :: rest := fun rest =>
    List.mem_append_right _ List.mem_cons_self
  have hread : ¬ (keyText key ++ equalsSign :: (0x20 :: value).rdropWhile isSpace = [] ∨
      (keyText key ++ equalsSign :: (0x20 :: value).rdropWhile isSpace).head? = some hash) := by
    rintro (hnil | hhead)
    · exact List.ne_nil_of_mem (hequals _) hnil
    · rw [head?_entryLine] at hhead
      cases hkey : key.head? with
      | none =>
        rw [hkey] at hhead
        exact absurd (Option.some.inj hhead) (by decide)
      | some c =>
        rw [hkey] at hhead
        exact h.hash (hkey.trans hhead)
  unfold directive
  dsimp only
  rw [trim_entryLine h, if_neg hread, isSectionHead_entryLine]
  split_ifs with hlike
  · refine ⟨_, rfl, mem_head ?_ (hequals _) (by decide) (by decide)⟩
    rw [isSectionHead_entryLine, hlike]
  · have hbefore : ∀ c ∈ keyText key, decide (c ≠ equalsSign) = true := fun c hc =>
      decide_eq_true fun he => equalsSign_not_mem_keyText h (he ▸ hc)
    have hstop : ¬ (fun c => decide (c ≠ equalsSign)) equalsSign = true := by decide
    rw [List.takeWhile_append_of_pos hbefore, List.dropWhile_append_of_pos hbefore,
      @List.takeWhile_cons_of_neg _ (fun c => decide (c ≠ equalsSign)) _ _ hstop,
      @List.dropWhile_cons_of_neg _ (fun c => decide (c ≠ equalsSign)) _ _ hstop, List.append_nil,
      trim_keyText h, List.drop_one, List.tail_cons, trim_rdropWhile, trim_cons isSpace_blank]
  · next hnot => exact absurd (hequals _) hnot

/-- What is read of the head of a section. -/
theorem directive_head (sec : Text) : directive (bytes "[" ++ sec ++ bytes "]") = .head sec := by
  have htrim : trim (bytes "[" ++ sec ++ bytes "]") = bracketOpen :: (sec ++ [bracketClose]) := by
    have hdrop : (bytes "[" ++ sec ++ bytes "]").dropWhile isSpace =
        (bracketOpen :: sec) ++ bracketClose :: [] := rfl
    rw [trim, hdrop, rdropWhile_append_cons rfl]
    rfl
  have hhead : isSectionHead (bracketOpen :: (sec ++ [bracketClose])) = true := by
    have hlast : (bracketOpen :: (sec ++ [bracketClose])).getLast? = some bracketClose := by
      rw [← List.cons_append, List.getLast?_concat]
    unfold isSectionHead
    rw [hlast, List.length_cons, List.length_append, List.length_singleton]
    simp only [List.head?_cons, decide_true, Bool.and_true, decide_eq_true_eq]
    omega
  have htake : (bracketOpen :: (sec ++ [bracketClose])).length - 2 = sec.length := by
    rw [List.length_cons, List.length_append, List.length_singleton]
    omega
  unfold directive
  dsimp only
  have hread : ¬ (bracketOpen :: (sec ++ [bracketClose]) = [] ∨
      (bracketOpen :: (sec ++ [bracketClose])).head? = some hash) := by
    rintro (hnil | hhash)
    · exact List.cons_ne_nil _ _ hnil
    · exact absurd (Option.some.inj hhash) (by decide)
  rw [htrim, if_neg hread, if_pos hhead, htake, List.drop_one, List.tail_cons, List.take_left]

end LinApple.Config
