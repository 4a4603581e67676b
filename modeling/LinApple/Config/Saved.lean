import LinApple.Config.Text
import Mathlib.Data.List.Perm.Subperm

/-!
# A configuration that is saved and loaded

What the reader makes of the file the writer writes. A value is written as it is and read without
the blanks at its ends and without quotes around it, so one that was in quotes to keep its blanks
is not kept; a key that begins with a bracket can come back as the head of a section; and
the section named `Default` is written without a head, so that what stands in it is read into
the section before.

What is compared is not two files. The one that is written has its sections and keys in an order
of its own and none of the comments. It is the map from section and key to value, as it is after
the first load and as it is after the second, key by key, where the second load may be into any
configuration. The keys that a save writes itself (`Rewrites`) are left out on both sides, since
their values come from the members and not from the file.

A file that has been loaded puts bounds on what the map can hold: no end of line anywhere, and no
`=` in a key or blanks at its ends. `Writable` says so for each entry, and it is these bounds that
make the condition on an entry (`Survives`) a short one. It looks at one entry alone. Nothing
about the order of the entries comes in, although the section `Default` is read into the one
before it: whichever that is, it is another one.

`Plain` is the one thing that is asked of the configuration before the first load. The paths in it
may come from the command line, and one with an end of line in it would be written over two lines.
-/

namespace LinApple.Config

open Basic (Text bytes isSpace isDigit decimal getLines)

/-! ## The map -/

namespace Data

variable {d : Data} {sec key value : Text}

theorem get_empty : (∅ : Data).get sec key = none := by
  rw [get, Std.TreeMap.getElem?_emptyc]
  rfl

/-- The section and the key of a value. -/
def place (e : Text × Text × Text) : Text × Text := (e.1, e.2.1)

theorem get_put (e : Text × Text × Text) :
    (d.put e).get sec key = if place e = (sec, key) then some e.2.2 else d.get sec key := by
  unfold put set get place
  rw [Std.TreeMap.getElem?_insert]
  by_cases hsec : e.1 = sec
  · subst hsec
    rw [if_pos Std.ReflCmp.compare_self, Option.bind_some, Std.TreeMap.getElem?_insert]
    by_cases hkey : e.2.1 = key
    · subst hkey
      rw [if_pos Std.ReflCmp.compare_self, if_pos rfl]
    · rw [if_neg fun he => hkey (Std.LawfulEqCmp.eq_of_compare he),
        if_neg fun he => hkey (Prod.ext_iff.mp he).2, Std.TreeMap.getD_eq_getD_getElem?]
      cases d[e.1]? <;> simp
  · rw [if_neg fun he => hsec (Std.LawfulEqCmp.eq_of_compare he),
      if_neg fun he => hsec (Prod.ext_iff.mp he).1]

/-- The values of a map, each with its section and its key. -/
def entries (d : Data) : List (Text × Text × Text) :=
  d.toList.flatMap fun (sec, keys) => keys.toList.map fun (key, value) => (sec, key, value)

theorem mem_entries : (sec, key, value) ∈ d.entries ↔ d.get sec key = some value := by
  simp only [entries, List.mem_flatMap, Prod.exists, List.mem_map, Prod.mk.injEq, get,
    Option.bind_eq_some_iff, Std.TreeMap.mem_toList_iff_getElem?_eq_some]
  constructor
  · rintro ⟨_, keys, hkeys, _, _, hvalue, rfl, rfl, rfl⟩
    exact ⟨keys, hkeys, hvalue⟩
  · rintro ⟨keys, hkeys, hvalue⟩
    exact ⟨sec, keys, hkeys, key, value, hvalue, rfl, rfl, rfl⟩

theorem nodup_toList {α : Type*} (t : Std.TreeMap Text α) : (t.toList.map Prod.fst).Nodup := by
  rw [List.nodup_iff_pairwise_ne, List.pairwise_map]
  refine t.distinct_keys_toList.imp ?_
  rintro e e' hne he
  exact hne (he ▸ Std.ReflCmp.compare_self)

/-- A key has one value in a section. -/
theorem nodup_entries (d : Data) : (d.entries.map place).Nodup := by
  unfold entries
  rw [List.map_flatMap, List.nodup_flatMap]
  constructor
  · rintro ⟨sec, keys⟩ -
    have hkeys := (nodup_toList keys).map (Prod.mk_right_injective sec)
    rw [List.map_map] at hkeys ⊢
    exact hkeys
  · have hsecs := nodup_toList d
    rw [List.nodup_iff_pairwise_ne, List.pairwise_map] at hsecs
    refine hsecs.imp ?_
    rintro ⟨s, keys⟩ ⟨s', keys'⟩ hne e he he'
    simp only [List.map_map, List.mem_map, Function.comp_apply] at he he'
    obtain ⟨_, -, rfl⟩ := he
    obtain ⟨_, -, he'⟩ := he'
    exact hne (Prod.ext_iff.mp he').1.symm

/-! ## Values that are put one after another -/

section Put

variable {l : List (Text × Text × Text)}

/-- A value comes from the last that is put in its place, or was there. -/
theorem get_foldl_put (h : (l.foldl put d).get sec key = some value) :
    (sec, key, value) ∈ l ∨ d.get sec key = some value := by
  induction l generalizing d with
  | nil => exact Or.inr h
  | cons e l ih =>
    rcases ih h with hl | hd
    · exact Or.inl (List.mem_cons_of_mem _ hl)
    · rw [get_put] at hd
      split_ifs at hd with he
      · obtain ⟨hsec, hkey⟩ := Prod.ext_iff.mp he
        exact Or.inl (List.mem_cons.mpr
          (Or.inl (Prod.ext hsec.symm (Prod.ext hkey.symm (Option.some.inj hd).symm))))
      · exact Or.inr hd

/-- Where nothing is put, nothing changes. -/
theorem get_foldl_put_of_notMem (h : (sec, key) ∉ l.map place) :
    (l.foldl put d).get sec key = d.get sec key := by
  induction l generalizing d with
  | nil => rfl
  | cons e l ih =>
    rw [List.map_cons, List.mem_cons, not_or] at h
    rw [List.foldl_cons, ih h.2, get_put, if_neg (Ne.symm h.1)]

/-- Where one value is put, it stands. -/
theorem get_foldl_put_of_mem (hnodup : (l.map place).Nodup) (h : (sec, key, value) ∈ l) :
    (l.foldl put d).get sec key = some value := by
  induction l generalizing d with
  | nil => exact absurd h List.not_mem_nil
  | cons e l ih =>
    rw [List.map_cons, List.nodup_cons] at hnodup
    rw [List.foldl_cons]
    rcases List.mem_cons.mp h with rfl | h
    · rw [get_foldl_put_of_notMem hnodup.1, get_put]
      exact if_pos rfl
    · exact ih hnodup.2 h

end Put

end Data

/-! ## What the reader reads -/

/-- **A value that can stand on a line**, in a section that can. -/
structure Writable (e : Text × Text × Text) : Prop where
  key : KeyText e.2.1
  sec : (0x0A : UInt8) ∉ e.1
  value : (0x0A : UInt8) ∉ e.2.2

/-- What a line without an end of line asks for. -/
def Directive.Writable : Directive → Prop
  | .skip => True
  | .head sec => (0x0A : UInt8) ∉ sec
  | .entry key value => KeyText key ∧ (0x0A : UInt8) ∉ value

theorem unquote_sublist (s : Text) : (unquote s).Sublist s := by
  unfold unquote
  split_ifs
  · exact (List.take_sublist _ _).trans (List.drop_sublist _ _)
  · exact List.Sublist.refl s

/-- A key does not begin with what a comment begins with. -/
theorem head?_key {line : Text} (h : trim line = line) (p : UInt8 → Bool) :
    ∀ c ∈ (trim (line.takeWhile p)).head?, line.head? = some c := by
  intro c hc
  cases line with
  | nil => exact absurd hc (Option.not_mem_none c)
  | cons a line =>
    have ha : isSpace a = false := by
      refine head?_trim (a :: line) a ?_
      rw [h]
      rfl
    cases hp : p a with
    | false =>
      rw [List.takeWhile_cons_of_neg (Bool.eq_false_iff.mp hp)] at hc
      exact absurd hc (Option.not_mem_none c)
    | true =>
      have hcons := @rdropWhile_append_cons _ isSpace a ha [] (line.takeWhile p)
      rw [List.nil_append, List.nil_append] at hcons
      rw [List.takeWhile_cons_of_pos hp, trim,
        List.dropWhile_cons_of_neg (Bool.eq_false_iff.mp ha), hcons] at hc
      exact hc

theorem directive_writable {line : Text} (h : (0x0A : UInt8) ∉ line) :
    (directive line).Writable := by
  have htrim : (0x0A : UInt8) ∉ trim line := fun hmem => h (mem_of_mem_trim hmem)
  unfold directive
  dsimp only
  split_ifs with hskip
  · trivial
  · exact fun hmem => htrim (List.mem_of_mem_drop (List.mem_of_mem_take hmem))
  · refine ⟨⟨trim_trim _, fun hmem => ?_, fun hhead => ?_, fun hmem => ?_⟩, fun hmem => ?_⟩
    · exact absurd (List.mem_takeWhile_imp (mem_of_mem_trim hmem)) (by decide)
    · exact hskip (Or.inr (head?_key (trim_trim line) _ _ hhead))
    · exact htrim ((List.takeWhile_sublist _).subset (mem_of_mem_trim hmem))
    · have hdrop := mem_of_mem_trim ((unquote_sublist _).subset hmem)
      exact htrim ((List.dropWhile_sublist _).subset (List.mem_of_mem_drop hdrop))
  · trivial

theorem writable_of_mem_assigned {ds : List Directive} (h : ∀ d ∈ ds, d.Writable) {sec : Text}
    (hsec : (0x0A : UInt8) ∉ sec) : ∀ e ∈ assigned sec ds, Writable e := by
  induction ds generalizing sec with
  | nil => exact fun e he => absurd he List.not_mem_nil
  | cons d ds ih =>
    rw [List.forall_mem_cons] at h
    cases d with
    | skip => exact ih h.2 hsec
    | head sec' => exact ih h.2 h.1
    | entry key value =>
      intro e he
      rcases List.mem_cons.mp he with rfl | he
      · exact ⟨h.1.1, hsec, h.1.2⟩
      · exact ih h.2 hsec e he

/-- What is read can be written. -/
theorem writable_readData (file : Text) : ∀ e ∈ (readData file).entries, Writable e := by
  rintro ⟨sec, key, value⟩ he
  rw [Data.mem_entries, readData_eq] at he
  rcases Data.get_foldl_put he with hmem | hget
  · refine writable_of_mem_assigned ?_ (by decide) _ hmem
    intro d hd
    obtain ⟨line, hline, rfl⟩ := List.mem_map.mp hd
    exact directive_writable (newline_not_mem_getLines hline)
  · exact nomatch Data.get_empty.symm.trans hget

/-! ## What is loaded -/

namespace Configuration

/-- **The paths have no end of line in them**, as those that are set before a file is
loaded may have been. -/
structure Plain (c : Configuration) : Prop where
  diskPath1 : (0x0A : UInt8) ∉ c.diskPath1
  diskPath2 : (0x0A : UInt8) ∉ c.diskPath2
  harddiskPath1 : (0x0A : UInt8) ∉ c.harddiskPath1
  harddiskPath2 : (0x0A : UInt8) ∉ c.harddiskPath2
  snapshotPath : (0x0A : UInt8) ∉ c.snapshotPath
  basicSyncFile : (0x0A : UInt8) ∉ c.basicSyncFile

theorem plain_new : new.Plain := by
  constructor <;> exact List.not_mem_nil

variable {c : Configuration}

theorem load_data (c : Configuration) (file : Text) : (c.load file).data = readData file := rfl

/-- A value that is asked for has no end of line in it. -/
theorem newline_notMem_getString {d : Data} (h : ∀ e ∈ d.entries, Writable e) (sec key : Text) :
    (0x0A : UInt8) ∉ d.getString sec key := by
  have hget : ∀ sec key value, d.get sec key = some value → (0x0A : UInt8) ∉ value :=
    fun sec key value hv => (h _ (Data.mem_entries.mpr hv)).value
  have hfind : ∀ sec key value, d.find sec key = some value → (0x0A : UInt8) ∉ value := by
    intro sec key value hv
    rcases Option.or_eq_some_iff.mp (Option.orElse_eq_or.symm.trans hv) with hv | ⟨-, hv⟩
    · exact hget sec key value hv
    · obtain ⟨⟨s, keys⟩, hs, hv⟩ := List.exists_of_findSome?_eq_some hv
      refine hget s key value ?_
      rw [Data.get, Std.TreeMap.mem_toList_iff_getElem?_eq_some.mp hs]
      exact hv
  unfold Data.getString
  cases hv : (d.find sec key <|> (findAlias key).bind (d.find sec)) with
  | none => exact List.not_mem_nil
  | some value =>
    rcases Option.or_eq_some_iff.mp (Option.orElse_eq_or.symm.trans hv) with hv | ⟨-, hv⟩
    · exact hfind sec key value hv
    · obtain ⟨key', -, hv⟩ := Option.bind_eq_some_iff.mp hv
      exact hfind sec key' value hv

theorem newline_notMem_firstNonempty {texts : List Text}
    (h : ∀ t ∈ texts, (0x0A : UInt8) ∉ t) : (0x0A : UInt8) ∉ firstNonempty texts := by
  unfold firstNonempty
  cases hfind : texts.find? (· ≠ []) with
  | none => exact List.not_mem_nil
  | some t => exact h t (List.mem_of_find?_eq_some hfind)

theorem newline_notMem_pathOr {path value : Text} (hpath : (0x0A : UInt8) ∉ path)
    (hvalue : (0x0A : UInt8) ∉ value) : (0x0A : UInt8) ∉ pathOr path value := by
  unfold pathOr
  split_ifs
  · exact fun hmem => hvalue ((List.takeWhile_sublist _).subset (List.mem_of_mem_take hmem))
  · exact hpath

/-- Loading leaves no end of line in a path. -/
theorem Plain.load (h : c.Plain) (file : Text) : (c.load file).Plain := by
  have hstring := newline_notMem_getString (writable_readData file)
  have hfirst : ∀ places : List (Text × Text),
      (0x0A : UInt8) ∉ firstNonempty (places.map fun p => (readData file).getString p.1 p.2) := by
    intro places
    refine newline_notMem_firstNonempty fun t ht => ?_
    obtain ⟨p, -, rfl⟩ := List.mem_map.mp ht
    exact hstring p.1 p.2
  constructor
  · exact newline_notMem_pathOr h.diskPath1 (hfirst [(_, _), (_, _), (_, _)])
  · exact newline_notMem_pathOr h.diskPath2 (hfirst [(_, _), (_, _), (_, _)])
  · exact newline_notMem_pathOr h.harddiskPath1 (hfirst [(_, _), (_, _)])
  · exact newline_notMem_pathOr h.harddiskPath2 (hfirst [(_, _), (_, _)])
  · exact newline_notMem_pathOr h.snapshotPath (hstring _ _)
  · exact newline_notMem_pathOr h.basicSyncFile (hstring _ _)

/-! ## What is written back -/

/-- Whether saving writes a key anew, whatever stood there. All other keys of a file are left as
they are, so a file is asked for different things at either kind. -/
def Rewrites (c : Configuration) (sec key : Text) : Prop :=
  (sec, key) ∈ c.rewrites.map Data.place

theorem newline_notMem_decimal (n : Nat) : (0x0A : UInt8) ∉ decimal n := fun hmem =>
  absurd (Basic.isDigit_of_mem_decimal hmem) (by decide)

/-- The keys saving may write anew. -/
def rewrittenPlaces : List (Text × Text) :=
  [ (secConfiguration, computerEmulation), (secConfiguration, bytes "Fullscreen"),
    (secConfiguration, bytes "Video Emulation"), (secSlots, diskImage1), (secSlots, diskImage2),
    (secPreferences, hddImage1), (secPreferences, hddImage2),
    (secConfiguration, savestateFilename), (secConfiguration, disableDebuggerKey),
    (secConfiguration, basicSyncFileKey), (secConfiguration, basicLineModeKey),
    (secConfiguration, tuiRenderModeKey) ]

theorem place_mem_of_mem_rewrites {e : Text × Text × Text} (h : e ∈ c.rewrites) :
    Data.place e ∈ rewrittenPlaces := by
  simp only [rewrites, List.mem_append, List.mem_ite_nil_right, List.mem_cons, List.not_mem_nil,
    or_false] at h
  rcases h with (((((((((rfl | rfl | rfl) | ⟨-, rfl⟩) | ⟨-, rfl⟩) | ⟨-, rfl⟩) | ⟨-, rfl⟩) |
    ⟨-, rfl⟩) | ⟨-, rfl⟩) | ⟨-, rfl⟩) | ⟨-, rfl⟩) | ⟨-, rfl⟩ <;>
  simp [rewrittenPlaces, Data.place]

/-- A key that is written anew stands on a line as it is. -/
theorem of_mem_rewrittenPlaces : ∀ p ∈ rewrittenPlaces, (trim p.2 = p.2 ∧ equalsSign ∉ p.2 ∧
    p.2.head? ≠ some hash ∧ (0x0A : UInt8) ∉ p.2) ∧ p.2.head? ≠ some bracketOpen ∧
      (0x0A : UInt8) ∉ p.1 ∧ p.1 ≠ bytes "Default" := by
  decide +kernel

theorem newline_notMem_rewrites (h : c.Plain) {e : Text × Text × Text} (he : e ∈ c.rewrites) :
    (0x0A : UInt8) ∉ e.2.2 := by
  simp only [rewrites, List.mem_append, List.mem_ite_nil_right, List.mem_cons, List.not_mem_nil,
    or_false] at he
  rcases he with (((((((((rfl | rfl | rfl) | ⟨-, rfl⟩) | ⟨-, rfl⟩) | ⟨-, rfl⟩) | ⟨-, rfl⟩) |
    ⟨-, rfl⟩) | ⟨-, rfl⟩) | ⟨-, rfl⟩) | ⟨-, rfl⟩) | ⟨-, rfl⟩
  · exact newline_notMem_decimal _
  · dsimp only
    split_ifs <;> decide
  · dsimp only
    split_ifs <;> decide
  · exact h.diskPath1
  · exact h.diskPath2
  · exact h.harddiskPath1
  · exact h.harddiskPath2
  · exact h.snapshotPath
  · decide
  · exact h.basicSyncFile
  · exact newline_notMem_decimal _
  · dsimp only
    split_ifs <;> decide

theorem writable_rewrites (h : c.Plain) : ∀ e ∈ c.rewrites, Writable e := by
  intro e he
  obtain ⟨⟨htrimmed, hequals, hhash, hnewline⟩, -, hsec, -⟩ :=
    of_mem_rewrittenPlaces _ (place_mem_of_mem_rewrites he)
  exact ⟨⟨htrimmed, hequals, hhash, hnewline⟩, hsec, newline_notMem_rewrites h he⟩

/-- Where saving does not write, the map stays. -/
theorem get_syncToData (c : Configuration) {sec key : Text} (h : ¬ c.Rewrites sec key) :
    c.syncToData.data.get sec key = c.data.get sec key :=
  Data.get_foldl_put_of_notMem h

/-- What is saved can be written. -/
theorem writable_syncToData (h : c.Plain) (hdata : ∀ e ∈ c.data.entries, Writable e) :
    ∀ e ∈ c.syncToData.data.entries, Writable e := by
  rintro ⟨sec, key, value⟩ he
  rcases Data.get_foldl_put (Data.mem_entries.mp he) with hmem | hget
  · exact writable_rewrites h _ hmem
  · exact hdata _ (Data.mem_entries.mpr hget)

end Configuration

/-! ## The file that is written -/

/-- **No section is empty.** -/
def Data.Inhabited (d : Data) : Prop :=
  ∀ (sec : Text) (keys : Section), d[sec]? = some keys →
    ∃ key value : Text, keys[key]? = some value

theorem Data.Inhabited.foldl_put {l : List (Text × Text × Text)} {d : Data} (h : d.Inhabited) :
    (l.foldl put d).Inhabited := by
  induction l generalizing d with
  | nil => exact h
  | cons e l ih =>
    refine ih fun sec keys hkeys => ?_
    rw [put, set, Std.TreeMap.getElem?_insert] at hkeys
    split_ifs at hkeys
    · refine ⟨e.2.1, e.2.2, ?_⟩
      rw [← Option.some.inj hkeys]
      exact Std.TreeMap.getElem?_insert_self
    · exact h sec keys hkeys

theorem inhabited_readData (file : Text) : (readData file).Inhabited := by
  rw [readData_eq]
  refine Data.Inhabited.foldl_put fun sec keys hkeys => ?_
  exact absurd hkeys (by simp)

/-- The lines of the file. -/
def writtenLines (d : Data) : List Text := d.toList.flatMap fun (sec, keys) => sectionLines sec keys

/-- A line is the head of a section, or a key with its value, or empty. -/
theorem mem_writtenLines {d : Data} (hinhabited : d.Inhabited) {line : Text}
    (h : line ∈ writtenLines d) :
    (∃ e ∈ d.entries, e.1 ≠ bytes "Default" ∧ line = bytes "[" ++ e.1 ++ bytes "]") ∨
      (∃ e ∈ d.entries, line = entryLine e.2.1 e.2.2) ∨ line = [] := by
  obtain ⟨⟨sec, keys⟩, hmem, hline⟩ := List.mem_flatMap.mp h
  have hsec := Std.TreeMap.mem_toList_iff_getElem?_eq_some.mp hmem
  have hentry : ∀ key value, keys[key]? = some value → (sec, key, value) ∈ d.entries := by
    intro key value hvalue
    rw [Data.mem_entries, Data.get, hsec]
    exact hvalue
  simp only [sectionLines, List.mem_append, List.mem_ite_nil_left, List.mem_singleton,
    List.mem_map, Prod.exists, Std.TreeMap.mem_toList_iff_getElem?_eq_some] at hline
  rcases hline with (⟨hdefault, rfl⟩ | ⟨key, value, hvalue, rfl⟩) | rfl
  · obtain ⟨key, value, hvalue⟩ := hinhabited sec keys hsec
    exact Or.inl ⟨_, hentry key value hvalue, hdefault, rfl⟩
  · exact Or.inr (Or.inl ⟨_, hentry key value hvalue, rfl⟩)
  · exact Or.inr (Or.inr rfl)

/-- What can be written is written on lines of its own. -/
theorem newline_notMem_writtenLines {d : Data} (hinhabited : d.Inhabited)
    (h : ∀ e ∈ d.entries, Writable e) : ∀ line ∈ writtenLines d, (0x0A : UInt8) ∉ line := by
  intro line hline
  rcases mem_writtenLines hinhabited hline with ⟨e, he, -, rfl⟩ | ⟨e, he, rfl⟩ | rfl
  · simp only [List.mem_append, not_or]
    exact ⟨⟨by decide, (h e he).sec⟩, by decide⟩
  · simp only [entryLine, List.mem_append, not_or]
    exact ⟨⟨(h e he).key.newline, by decide⟩, (h e he).value⟩
  · exact List.not_mem_nil

/-- **What is read of the file that is written.** -/
theorem readData_writeData {d : Data} (hinhabited : d.Inhabited)
    (h : ∀ e ∈ d.entries, Writable e) : readData (writeData d) =
      (assigned secConfiguration ((writtenLines d).map directive)).foldl Data.put ∅ := by
  have hlines := getLines_flatMap (newline_notMem_writtenLines hinhabited h)
  rw [readData_eq, show getLines (writeData d) = writtenLines d from hlines]

/-! ## The sections that are read -/

/-- Values are read into the section before the first head, or into one that has a head. -/
theorem sec_of_mem_assigned {ds : List Directive} {sec : Text} {e : Text × Text × Text}
    (h : e ∈ assigned sec ds) : e.1 = sec ∨ .head e.1 ∈ ds := by
  induction ds generalizing sec with
  | nil => exact absurd h List.not_mem_nil
  | cons d ds ih =>
    cases d with
    | skip => exact (ih h).imp_right (List.mem_cons_of_mem _)
    | head sec' =>
      rcases ih h with he | he
      · exact Or.inr (he ▸ List.mem_cons_self)
      · exact Or.inr (List.mem_cons_of_mem _ he)
    | entry key value =>
      rcases List.mem_cons.mp h with rfl | h
      · exact Or.inl rfl
      · exact (ih h).imp_right (List.mem_cons_of_mem _)

/-- No head of the written file names the section `Default`. -/
theorem ne_default_of_head {d : Data} (hinhabited : d.Inhabited)
    (h : ∀ e ∈ d.entries, Writable e) {sec : Text}
    (hhead : .head sec ∈ (writtenLines d).map directive) : sec ≠ bytes "Default" := by
  obtain ⟨line, hline, hdirective⟩ := List.mem_map.mp hhead
  rcases mem_writtenLines hinhabited hline with ⟨e, -, hdefault, rfl⟩ | ⟨e, he, rfl⟩ | rfl
  · rw [directive_head] at hdirective
    exact Directive.head.inj hdirective ▸ hdefault
  · have hentry := directive_entryLine (h e he).key e.2.2
    split_ifs at hentry with hlike
    · obtain ⟨sec', hsec', hmem⟩ := hentry
      rw [hsec'] at hdirective
      rintro rfl
      rw [Directive.head.inj hdirective] at hmem
      exact absurd hmem (by decide)
    · rw [hentry] at hdirective
      exact Directive.noConfusion hdirective
  · exact Directive.noConfusion hdirective

/-- Nothing is read into the section `Default`. -/
theorem get_default {d : Data} (hinhabited : d.Inhabited) (h : ∀ e ∈ d.entries, Writable e)
    (key : Text) : (readData (writeData d)).get (bytes "Default") key = none := by
  rw [readData_writeData hinhabited h, Option.eq_none_iff_forall_ne_some]
  intro value hvalue
  rcases Data.get_foldl_put hvalue with hmem | hget
  · rcases sec_of_mem_assigned hmem with he | he
    · exact absurd he (by change ¬ bytes "Default" = secConfiguration; decide)
    · exact ne_default_of_head hinhabited h he rfl
  · exact nomatch Data.get_empty.symm.trans hget

/-! ## The keys that are read -/

/-- The key a line gives a value. -/
def Directive.key? : Directive → Option Text
  | .entry key _ => some key
  | _ => none

theorem map_key_assigned (sec : Text) (ds : List Directive) :
    (assigned sec ds).map (·.2.1) = ds.filterMap Directive.key? := by
  induction ds generalizing sec with
  | nil => rfl
  | cons d ds ih =>
    cases d with
    | skip => exact ih sec
    | head sec' => exact ih sec'
    | entry key value =>
      rw [assigned, List.map_cons, ih]
      rfl

/-- Whether a value is written as the head of a section. -/
def headLike (e : Text × Text × Text) : Bool := isHeadLike e.2.1 e.2.2

/-- The values of one section. -/
def sectionEntries (sec : Text) (kvs : List (Text × Text)) : List (Text × Text × Text) :=
  kvs.map fun (key, value) => (sec, key, value)

theorem key?_entryLines (sec : Text) {kvs : List (Text × Text)} (h : ∀ kv ∈ kvs, KeyText kv.1) :
    ((kvs.map fun (key, value) => entryLine key value).map directive).filterMap Directive.key? =
      ((sectionEntries sec kvs).filter fun e => !headLike e).map (·.2.1) := by
  induction kvs with
  | nil => rfl
  | cons kv kvs ih =>
    rw [List.forall_mem_cons] at h
    have hentry := directive_entryLine h.1 kv.2
    unfold sectionEntries at ih ⊢
    rw [List.map_cons, List.map_cons, List.map_cons]
    split_ifs at hentry with hlike
    · obtain ⟨sec', hsec', -⟩ := hentry
      rw [List.filterMap_cons_none (by rw [hsec']; rfl),
        List.filter_cons_of_neg (by simp [headLike, hlike]), ih h.2]
    · rw [@List.filterMap_cons_some _ _ Directive.key? _ _ kv.1 (by rw [hentry]; rfl),
        List.filter_cons_of_pos (by simp [headLike, hlike]), ih h.2, List.map_cons]

theorem directive_nil : directive [] = .skip := rfl

theorem key?_sectionLines (sec : Text) {keys : Section} (h : ∀ kv ∈ keys.toList, KeyText kv.1) :
    ((sectionLines sec keys).map directive).filterMap Directive.key? =
      ((sectionEntries sec keys.toList).filter fun e => !headLike e).map (·.2.1) := by
  have hhead : ((if sec = bytes "Default" then [] else
      [bytes "[" ++ sec ++ bytes "]"]).map directive).filterMap Directive.key? = [] := by
    split_ifs
    · rfl
    · rw [List.map_singleton, directive_head]
      rfl
  unfold sectionLines
  rw [List.map_append, List.map_append, List.filterMap_append, List.filterMap_append, hhead,
    key?_entryLines sec h, List.nil_append]
  exact List.append_nil _

/-- **A key is read as often as it is written**, but for the lines that are read as the
head of a section. -/
theorem key?_writtenLines {d : Data} (h : ∀ e ∈ d.entries, Writable e) :
    ((writtenLines d).map directive).filterMap Directive.key? =
      (d.entries.filter fun e => !headLike e).map (·.2.1) := by
  have hkey : ∀ p ∈ d.toList, ∀ kv ∈ p.2.toList, KeyText kv.1 := fun p hp kv hkv =>
    (h (p.1, kv.1, kv.2) (List.mem_flatMap.mpr ⟨p, hp, List.mem_map.mpr ⟨kv, hkv, rfl⟩⟩)).key
  unfold writtenLines Data.entries
  generalize d.toList = L at hkey ⊢
  induction L with
  | nil => rfl
  | cons p L ih =>
    rw [List.forall_mem_cons] at hkey
    rw [List.flatMap_cons, List.flatMap_cons, List.map_append, List.filterMap_append, ih hkey.2,
      List.filter_append, List.map_append, key?_sectionLines p.1 hkey.1]
    rfl

/-! ## A file without surprises -/

/-- A value as it is read when it is read as a value. -/
def reread (e : Text × Text × Text) : Text × Text × Text := (e.1, e.2.1, unquote (trim e.2.2))

theorem assigned_entryLines (sec : Text) {kvs : List (Text × Text)}
    (h : ∀ kv ∈ kvs, KeyText kv.1 ∧ isHeadLike kv.1 kv.2 = false) (ds : List Directive) :
    assigned sec ((kvs.map fun (key, value) => entryLine key value).map directive ++ ds) =
      (sectionEntries sec kvs).map reread ++ assigned sec ds := by
  induction kvs with
  | nil => rfl
  | cons kv kvs ih =>
    rw [List.forall_mem_cons] at h
    have hentry := directive_entryLine h.1.1 kv.2
    rw [if_neg (by rw [h.1.2]; decide)] at hentry
    unfold sectionEntries at ih ⊢
    rw [List.map_cons, List.map_cons, List.map_cons, List.map_cons, List.cons_append,
      List.cons_append, hentry, assigned, ih h.2]
    rfl

theorem assigned_sectionLines {p : Text × Section} (h : ∀ kv ∈ p.2.toList,
    (KeyText kv.1 ∧ isHeadLike kv.1 kv.2 = false) ∧ p.1 ≠ bytes "Default") (sec : Text)
    (ds : List Directive) :
    ∃ sec', assigned sec ((sectionLines p.1 p.2).map directive ++ ds) =
      (sectionEntries p.1 p.2.toList).map reread ++ assigned sec' ds := by
  have hlines := assigned_entryLines p.1 (fun kv hkv => (h kv hkv).1) (.skip :: ds)
  unfold sectionLines
  split_ifs with hdefault
  · -- No value stands there.
    have hnil : p.2.toList = [] :=
      List.eq_nil_iff_forall_not_mem.mpr fun kv hkv => (h kv hkv).2 hdefault
    rw [hnil]
    exact ⟨sec, rfl⟩
  · refine ⟨p.1, ?_⟩
    rw [List.map_append, List.map_append, List.map_singleton, List.map_singleton, directive_head,
      directive_nil, List.append_assoc, List.append_assoc]
    exact hlines

/-- **Where nothing is read as the head of a section, and nothing stands in the section
`Default`, every value is read where it was.** -/
theorem assigned_writtenLines {d : Data} (h : ∀ e ∈ d.entries, Writable e)
    (hhead : ∀ e ∈ d.entries, headLike e = false)
    (hdefault : ∀ e ∈ d.entries, e.1 ≠ bytes "Default") (sec : Text) :
    assigned sec ((writtenLines d).map directive) = d.entries.map reread := by
  have hmem : ∀ p ∈ d.toList, ∀ kv ∈ p.2.toList, (p.1, kv.1, kv.2) ∈ d.entries :=
    fun p hp kv hkv => List.mem_flatMap.mpr ⟨p, hp, List.mem_map.mpr ⟨kv, hkv, rfl⟩⟩
  have hkeys : ∀ p ∈ d.toList, ∀ kv ∈ p.2.toList,
      (KeyText kv.1 ∧ isHeadLike kv.1 kv.2 = false) ∧ p.1 ≠ bytes "Default" := by
    intro p hp kv hkv
    have he := hmem p hp kv hkv
    exact ⟨⟨(h _ he).key, hhead _ he⟩, hdefault _ he⟩
  unfold writtenLines Data.entries
  generalize d.toList = L at hkeys ⊢
  clear hmem
  induction L generalizing sec with
  | nil => rfl
  | cons p L ih =>
    rw [List.forall_mem_cons] at hkeys
    obtain ⟨sec', hsec'⟩ := assigned_sectionLines hkeys.1 sec
      ((L.flatMap fun (sec, keys) => sectionLines sec keys).map directive)
    rw [List.flatMap_cons, List.flatMap_cons, List.map_append, List.map_append, hsec',
      ih sec' hkeys.2]
    rfl

/-! ## What comes back -/

/-- **A value comes back as it was**: it does not stand in the section `Default`, it has no
blank at either end and no quotes around it, and its line does not read as the head of
a section. -/
def Survives (sec key value : Text) : Prop :=
  sec ≠ bytes "Default" ∧ trim value = value ∧ unquote value = value ∧ isHeadLike key value = false

instance (sec key value : Text) : Decidable (Survives sec key value) := by
  unfold Survives
  infer_instance

/-- Nothing is lost of a value that comes back. -/
theorem unquote_trim_eq_self {value : Text} :
    unquote (trim value) = value ↔ trim value = value ∧ unquote value = value := by
  constructor
  · intro h
    have htrim : trim value = value := by
      refine (trim_sublist value).eq_of_length_le ?_
      conv_lhs => rw [← h]
      exact (unquote_sublist _).length_le
    rw [htrim] at h
    exact ⟨htrim, h⟩
  · rintro ⟨htrim, hunquote⟩
    rw [htrim, hunquote]

section Back

variable {d : Data} {sec key value : Text}

theorem map_place_reread (l : List (Text × Text × Text)) :
    (l.map reread).map Data.place = l.map Data.place := by
  rw [List.map_map]
  rfl

/-- Every value is read as it is read when it is read as a value. -/
theorem get_readData_writeData (hinhabited : d.Inhabited) (h : ∀ e ∈ d.entries, Writable e)
    (hhead : ∀ e ∈ d.entries, headLike e = false)
    (hdefault : ∀ e ∈ d.entries, e.1 ≠ bytes "Default") :
    (readData (writeData d)).get sec key =
      (d.get sec key).map fun value => unquote (trim value) := by
  rw [readData_writeData hinhabited h, assigned_writtenLines h hhead hdefault]
  cases hget : d.get sec key with
  | none =>
    refine (Data.get_foldl_put_of_notMem ?_).trans Data.get_empty
    rw [map_place_reread]
    intro hmem
    obtain ⟨⟨sec', key', value⟩, he, hplace⟩ := List.mem_map.mp hmem
    have hplace : (sec', key') = (sec, key) := hplace
    obtain ⟨rfl, rfl⟩ := Prod.mk.inj hplace
    exact nomatch hget.symm.trans (Data.mem_entries.mp he)
  | some value =>
    refine Data.get_foldl_put_of_mem ?_ (List.mem_map.mpr ⟨_, Data.mem_entries.mpr hget, rfl⟩)
    rw [map_place_reread]
    exact Data.nodup_entries d

/-- **A key with a value that is read as the head of a section is missing somewhere**: there
are fewer lines that give it a value than there are sections that have it. -/
theorem exists_get_eq_none (hinhabited : d.Inhabited) (h : ∀ e ∈ d.entries, Writable e)
    {e : Text × Text × Text} (he : e ∈ d.entries) (hhead : headLike e = true) :
    ∃ e' ∈ d.entries, e'.2.1 = e.2.1 ∧ (readData (writeData d)).get e'.1 e.2.1 = none := by
  by_contra hall
  push Not at hall
  -- count the entries of this key: a line that looks like a head assigns nothing, so fewer are read
  -- back than were written, and one of them is missing
  let written := d.entries.filter fun e' => e'.2.1 = e.2.1
  let ds := (writtenLines d).map directive
  let found := (assigned secConfiguration ds).filter fun e' => e'.2.1 = e.2.1
  have hnodup : (written.map (·.1)).Nodup := by
    have hplaces : (written.map Data.place).Nodup :=
      (Data.nodup_entries d).sublist (List.filter_sublist.map _)
    have hmap : written.map Data.place = (written.map (·.1)).map (·, e.2.1) := by
      rw [List.map_map]
      refine List.map_congr_left fun e' he' => ?_
      exact Prod.ext rfl (of_decide_eq_true (List.mem_filter.mp he').2)
    rw [hmap] at hplaces
    exact hplaces.of_map
  have hsub : written.map (·.1) ⊆ found.map (·.1) := by
    intro sec hsec
    obtain ⟨e', he', rfl⟩ := List.mem_map.mp hsec
    obtain ⟨hentry, hkey⟩ := List.mem_filter.mp he'
    obtain ⟨value, hvalue⟩ :=
      Option.ne_none_iff_exists'.mp (hall e' hentry (of_decide_eq_true hkey))
    rw [readData_writeData hinhabited h] at hvalue
    rcases Data.get_foldl_put hvalue with hmem | hget
    · exact List.mem_map.mpr ⟨_, List.mem_filter.mpr ⟨hmem, decide_eq_true rfl⟩, rfl⟩
    · exact nomatch Data.get_empty.symm.trans hget
  have hle : written.length ≤ found.length := by
    have hlength := (hnodup.subperm hsub).length_le
    rwa [List.length_map, List.length_map] at hlength
  have hfound : found.length = (written.filter fun e' => !headLike e').length := by
    have hkeys := congrArg (List.countP (· = e.2.1))
      ((map_key_assigned secConfiguration ds).trans (key?_writtenLines h))
    rw [List.countP_map, List.countP_map, List.countP_filter, List.countP_eq_length_filter,
      List.countP_eq_length_filter] at hkeys
    rw [List.filter_filter]
    refine hkeys.trans (congrArg List.length (List.filter_congr fun e' _ => ?_))
    exact Bool.and_comm _ _
  have hlt : (written.filter fun e' => !headLike e').length < written.length := by
    rw [List.length_filter_lt_length_iff_exists]
    exact ⟨e, List.mem_filter.mpr ⟨he, decide_eq_true rfl⟩, by simp [hhead]⟩
  omega

/-! What comes back of a map `m` that is written as `d`, which differs from it in the
keys that are written anew. -/

section Differ

variable {m : Data} {anew : Text → Text → Prop}

/-- A map that comes back has nothing in the section `Default`. -/
theorem ne_default_of_back (hinhabited : d.Inhabited) (h : ∀ e ∈ d.entries, Writable e)
    (hanew : ∀ sec key, anew sec key → sec ≠ bytes "Default")
    (hback : ∀ sec key, ¬ anew sec key →
      (readData (writeData d)).get sec key = d.get sec key) :
    ∀ e ∈ d.entries, e.1 ≠ bytes "Default" := by
  intro e he hdefault
  have hnot : ¬ anew e.1 e.2.1 := fun hw => hanew _ _ hw hdefault
  have hget := hback _ _ hnot
  rw [hdefault, get_default hinhabited h, ← hdefault] at hget
  exact nomatch hget.trans (Data.mem_entries.mp he)

/-- Nor is anything in it read as the head of a section. -/
theorem headLike_of_back (hinhabited : d.Inhabited) (h : ∀ e ∈ d.entries, Writable e)
    (hanew : ∀ sec key value, anew sec key → isHeadLike key value = false)
    (hback : ∀ sec key, ¬ anew sec key →
      (readData (writeData d)).get sec key = d.get sec key) :
    ∀ e ∈ d.entries, headLike e = false := by
  intro e he
  by_contra hlike
  rw [Bool.not_eq_false] at hlike
  obtain ⟨e', he', hkey, hnone⟩ := exists_get_eq_none hinhabited h he hlike
  have hnot : ¬ anew e'.1 e.2.1 := fun hw =>
    Bool.false_ne_true ((hanew _ _ e.2.2 hw).symm.trans hlike)
  rw [hback _ _ hnot, ← hkey] at hnone
  exact nomatch hnone.symm.trans (Data.mem_entries.mp he')

/-- **What comes back** is what survives, value by value. -/
theorem back_iff (hinhabited : d.Inhabited) (h : ∀ e ∈ d.entries, Writable e)
    (hanew : ∀ sec key value, anew sec key →
      sec ≠ bytes "Default" ∧ isHeadLike key value = false)
    (hkeeps : ∀ sec key, ¬ anew sec key → d.get sec key = m.get sec key) :
    (∀ sec key, ¬ anew sec key → (readData (writeData d)).get sec key = m.get sec key) ↔
      ∀ sec key value, ¬ anew sec key → m.get sec key = some value → Survives sec key value := by
  constructor
  · intro hsame sec key value hnot hvalue
    have hback : ∀ sec key, ¬ anew sec key →
        (readData (writeData d)).get sec key = d.get sec key := fun sec key hnot =>
      (hsame sec key hnot).trans (hkeeps sec key hnot).symm
    -- if all that is not written anew comes back, then no entry is lost to the section `Default` or
    -- to a line that looks like a head
    have hdefault := ne_default_of_back hinhabited h
      (fun sec key hw => (hanew sec key [] hw).1) hback
    have hhead := headLike_of_back hinhabited h
      (fun sec key value hw => (hanew sec key value hw).2) hback
    have hd : d.get sec key = some value := (hkeeps sec key hnot).trans hvalue
    have hread := @get_readData_writeData d sec key hinhabited h hhead hdefault
    rw [hback sec key hnot, hd, Option.map_some] at hread
    have hentry := Data.mem_entries.mpr hd
    obtain ⟨htrim, hunquote⟩ := unquote_trim_eq_self.mp (Option.some.inj hread).symm
    exact ⟨hdefault _ hentry, htrim, hunquote, hhead _ hentry⟩
  · intro hsurvives
    have hentries : ∀ e ∈ d.entries, e.1 ≠ bytes "Default" ∧ headLike e = false := by
      rintro ⟨sec, key, value⟩ he
      by_cases hw : anew sec key
      · exact hanew sec key value hw
      · have hvalue := (hkeeps sec key hw).symm.trans (Data.mem_entries.mp he)
        obtain ⟨hdefault, -, -, hhead⟩ := hsurvives sec key value hw hvalue
        exact ⟨hdefault, hhead⟩
    intro sec key hnot
    refine (get_readData_writeData hinhabited h (fun e he => (hentries e he).2)
      fun e he => (hentries e he).1).trans ?_
    rw [hkeeps sec key hnot]
    cases hvalue : m.get sec key with
    | none => rfl
    | some value =>
      obtain ⟨-, htrim, hunquote, -⟩ := hsurvives sec key value hnot hvalue
      rw [Option.map_some, unquote_trim_eq_self.mpr ⟨htrim, hunquote⟩]

end Differ

end Back

namespace Configuration

variable {c : Configuration}

theorem inhabited_syncToData (h : c.data.Inhabited) : c.syncToData.data.Inhabited := h.foldl_put

/-- A key that is written anew is not read as the head of a section, nor in `Default`. -/
theorem Rewrites.survives {sec key : Text} (h : c.Rewrites sec key) (value : Text) :
    sec ≠ bytes "Default" ∧ isHeadLike key value = false := by
  obtain ⟨e, he, hplace⟩ := List.mem_map.mp h
  obtain ⟨-, hbracket, -, hdefault⟩ := of_mem_rewrittenPlaces _ (place_mem_of_mem_rewrites he)
  rw [hplace] at hbracket hdefault
  refine ⟨hdefault, ?_⟩
  unfold isHeadLike
  rw [decide_eq_false hbracket, Bool.false_and]

/-- What comes back of a configuration that is saved. -/
theorem save_load_iff (hc : c.Plain) (hinhabited : c.data.Inhabited)
    (h : ∀ e ∈ c.data.entries, Writable e) (c' : Configuration) :
    (∀ sec key, ¬ c.Rewrites sec key → (c'.load c.save).data.get sec key = c.data.get sec key) ↔
      ∀ sec key value, ¬ c.Rewrites sec key → c.data.get sec key = some value →
        Survives sec key value := by
  have hback := @back_iff c.syncToData.data c.data c.Rewrites (inhabited_syncToData hinhabited)
    (writable_syncToData hc h) (fun _ _ value hw => hw.survives value)
    (fun _ _ hw => get_syncToData _ hw)
  rw [load_data, save]
  exact hback

/-- **What loading, saving and loading again keeps.** Every key that saving does not write anew
has the value it had if and only if each of these values comes back as it was. The second load may
be into another configuration (`c'`), since what is in the file replaces what was there. Only the
first has to be `Plain`, as its paths are written into the file. -/
theorem load_save_load_iff (hc : c.Plain) (file : Text) (c' : Configuration) :
    (∀ sec key, ¬ (c.load file).Rewrites sec key →
      (c'.load (c.load file).save).data.get sec key = (c.load file).data.get sec key) ↔
    ∀ sec key value, ¬ (c.load file).Rewrites sec key →
      (c.load file).data.get sec key = some value → Survives sec key value := by
  refine save_load_iff (hc.load file) ?_ ?_ c'
  · rw [load_data]
    exact inhabited_readData file
  · rw [load_data]
    exact writable_readData file

/-- A value in quotes for the sake of its blanks. -/
def quotedFile : Text := bytes "[Configuration]\nFoo = \" x \"\n"

/-- **The quotes are not written back**, and the blanks are lost. -/
theorem not_load_save_load : ¬ ∀ (c c' : Configuration) (file sec key : Text), c.Plain →
    ¬ (c.load file).Rewrites sec key →
    (c'.load (c.load file).save).data.get sec key = (c.load file).data.get sec key := by
  intro h
  have hsame := h new new quotedFile secConfiguration (bytes "Foo") plain_new (by
    unfold Rewrites
    decide +kernel)
  revert hsame
  decide +kernel

/-- A file whose values all come back, and one of which some do not. -/
theorem load_save_load_iff_new :
    (∀ sec key, ¬ (new.load (bytes "[Slots]\nFoo = x")).Rewrites sec key →
      (new.load (new.load (bytes "[Slots]\nFoo = x")).save).data.get sec key =
        (new.load (bytes "[Slots]\nFoo = x")).data.get sec key)
    ∧ ¬ ∀ sec key, ¬ (new.load quotedFile).Rewrites sec key →
      (new.load (new.load quotedFile).save).data.get sec key
        = (new.load quotedFile).data.get sec key := by
  constructor
  · refine (load_save_load_iff plain_new _ new).2 fun sec key value _ hget => ?_
    have hall : ∀ e ∈ (new.load (bytes "[Slots]\nFoo = x")).data.entries,
        Survives e.1 e.2.1 e.2.2 := by decide +kernel
    exact hall _ (Data.mem_entries.2 hget)
  · intro h
    have hsurvives := (load_save_load_iff plain_new _ new).1 h secConfiguration (bytes "Foo")
      (bytes " x ") (by unfold Rewrites; decide +kernel) (by decide +kernel)
    exact absurd hsurvives (by decide +kernel)

end Configuration

end LinApple.Config
