import LinApple.Basic.Import
import LinApple.Lib.Machine

/-!
# Live sync and the events of its own writing

`basic_sync_update` is called once a frame. It writes the program to the file when it finds it
changed, every fifteenth frame, and reads the file when the host reports a change of it. Its own
writing is reported too, some frames later. Two hashes tell it that the file is the one it has
written and the program the one it has written out; when the guest has edited the program in
between, the second does not match, and the edit is overwritten with the program of before
(`edit_undone`).

The hashes are those of a parameter `hash`, with `zero` for a program there is nothing to hash of.
Nothing is assumed of it, and in particular not that it is injective: the run lemma is about which
branch is taken, and a collision would only make the code leave RAM alone more often. The
counterexample has the identity for a hash, so that nothing can be blamed on a collision there.

The host is a list of answers, one for each call: how many events `read` hands over, how many a
writing of the file raises, at what time it takes place, and whether the file opens and `stat`
finds it. So events may come late, in any number or not at all, and the watch may be that of
`inotify` or of the file's time.

A run shows RAM before and after every call of `basic_sync_update`, and the statement is that the
two are the same for each. The guest's edits are steps between the calls and are not looked at:
what is asked is that the emulator changes nothing. The condition on a call (`Undisturbed`) is
about the state it finds: if it finds the file changed, and can open it, then the program is still
the one whose hash was kept. The file itself need not be known for that, only that nobody else has
written to it, which is the invariant `Settled`.
-/

namespace LinApple.Basic

/-- `frame_check_interval` -/
def frameCheckInterval : Nat := 15

/-- What the live sync keeps, the RAM it works on and the file. -/
structure SyncState (H : Type*) where
  /-- The live image of RAM. -/
  ram : Ram
  /-- The contents of the file. -/
  file : Text
  /-- `st_mtime` of the file. -/
  fileMtime : Nat
  /-- The events on the file that have not been read. -/
  events : Nat
  /-- `inotify_fd >= 0` -/
  inotify : Bool
  /-- `sync_config.enabled` -/
  enabled : Bool
  /-- `sync_config.line_mode` -/
  lineMode : BasicLineMode
  /-- `last_exported_hash` -/
  lastExportedHash : H
  /-- `last_file_content_hash` -/
  lastFileContentHash : H
  /-- `last_file_mtime` -/
  lastFileMtime : Nat
  /-- `initial_import_pending` -/
  initialImportPending : Bool
  /-- `frame_counter` -/
  frameCounter : Nat

/-- What the host does during one call of `basic_sync_update`. -/
structure HostAnswers where
  /-- The number of events on the file that `read` hands over. -/
  read : Nat
  /-- The number of events a writing of the file raises. -/
  raised : Nat
  /-- The time a writing of the file takes place. -/
  now : Nat
  /-- Whether the file opens. -/
  opens : Bool
  /-- Whether `stat` finds the file. -/
  stats : Bool
deriving DecidableEq, Repr

section Update

variable {H : Type*} [DecidableEq H] (hash : Text → H) (zero : H)
  (sort : List ParsedLine → List ParsedLine) (ty : Apple2Type)

/-- `compute_program_hash` -/
def computeProgramHash (ram : Ram) : H := ((programBytes ram).map hash).getD zero

/-- `basic_sync_init`, with the file it has emptied and its time. -/
def basicSyncInit (mode : BasicLineMode) (inotify : Bool) (mtime : Nat)
    (ram : Ram) : SyncState H where
  ram := ram
  file := []
  fileMtime := mtime
  events := 0
  inotify := inotify
  enabled := true
  lineMode := mode
  lastExportedHash := computeProgramHash hash zero ram
  lastFileContentHash := hash []
  lastFileMtime := mtime
  initialImportPending := false
  frameCounter := 0

/-- `basic_sync_export_file` -/
def basicSyncExportFile (host : HostAnswers) (s : SyncState H) :
    SyncState H :=
  let text := basicSyncExportToString s.lineMode s.ram
  if hash text = s.lastFileContentHash then
    { s with lastExportedHash := computeProgramHash hash zero s.ram }
  else if text = [] && s.lastFileContentHash ≠ zero then s
  else if !host.opens then s
  else
    { s with
      file := text
      fileMtime := host.now
      events := s.events + host.raised
      lastFileContentHash := hash text
      lastExportedHash := computeProgramHash hash zero s.ram
      lastFileMtime := if host.stats then host.now else s.lastFileMtime }

/-- `basic_sync_import_file` -/
def basicSyncImportFile (host : HostAnswers) (s : SyncState H) :
    SyncState H :=
  if !host.opens then s
  else if hash s.file = s.lastFileContentHash
      && computeProgramHash hash zero s.ram = s.lastExportedHash then s
  else
    let ram := basicSyncImportFromString sort ty s.lineMode s.file s.ram
    { s with
      ram := ram
      lastFileMtime := if host.stats then s.fileMtime else s.lastFileMtime
      lastFileContentHash := hash s.file
      lastExportedHash := computeProgramHash hash zero ram }

/-- `check_file_mtime_changed` -/
def checkFileMtimeChanged (host : HostAnswers) (s : SyncState H) : Bool :=
  host.stats && s.lastFileMtime ≠ 0 && s.fileMtime > s.lastFileMtime

/-- Whether a call of `basic_sync_update` finds the file modified;
`check_inotify_events` does when it is handed an event. -/
def fileModified (host : HostAnswers) (s : SyncState H) : Bool :=
  if s.inotify then host.read ≠ 0 else checkFileMtimeChanged host s

/-- `basic_sync_update` -/
def basicSyncUpdate (host : HostAnswers) (s : SyncState H) : SyncState H :=
  if !s.enabled then s
  else
    let s :=
      if s.initialImportPending then
        basicSyncImportFile hash zero sort ty host
          { s with initialImportPending := false }
      else s
    if fileModified host s then
      basicSyncImportFile hash zero sort ty host
        { s with events := s.events - host.read }
    else if s.frameCounter + 1 < frameCheckInterval then
      { s with frameCounter := s.frameCounter + 1 }
    else
      let s := { s with frameCounter := 0 }
      let current := computeProgramHash hash zero s.ram
      if current ≠ zero && current ≠ s.lastExportedHash then
        basicSyncExportFile hash zero host s
      else s

/-! ## Runs -/

/-- What happens to the live sync. Between two updates the guest runs, and all that matters of it
is the RAM it leaves; so an edit is any RAM at all. The host answers anew at each update. -/
inductive SyncAction where
  /-- The guest leaves RAM as it is given. -/
  | edit (ram : Ram)
  /-- `basic_sync_update` is called. -/
  | update (host : HostAnswers)

/-- **The live sync**: a call of `basic_sync_update` shows RAM before and
after it. -/
def syncMachine : Machine (SyncState H) SyncAction (Ram × Ram) where
  next s
    | .edit ram => { s with ram := ram }
    | .update host => basicSyncUpdate hash zero sort ty host s
  out s
    | .edit _ => none
    | .update host =>
      some (s.ram, (basicSyncUpdate hash zero sort ty host s).ram)

/-- Events are handed over after they have been raised, in any number and
at any call: nothing but the exports raises them. -/
def SyncAction.OwnEvents (s : SyncState H) : SyncAction → Prop
  | .edit _ => True
  | .update host => host.read ≤ s.events

/-- A call that reads the file because it finds it modified finds the
program as it was last written out or read in. -/
def SyncAction.Undisturbed (s : SyncState H) : SyncAction → Prop
  | .edit _ => True
  | .update host => fileModified host s = true → host.opens = true →
    computeProgramHash hash zero s.ram = s.lastExportedHash

end Update

/-! ## Which calls leave RAM alone -/

/-- What holds between calls: the file is the one last seen. -/
structure SyncState.Settled {H : Type*} (hash : Text → H)
    (s : SyncState H) : Prop where
  /-- No import is pending. -/
  not_pending : s.initialImportPending = false
  /-- The hash kept of the file is that of the file. -/
  hash_file : hash s.file = s.lastFileContentHash

theorem settled_basicSyncInit {H : Type*} (hash : Text → H) (zero : H)
    (mode : BasicLineMode) (inotify : Bool)
    (mtime : Nat) (ram : Ram) :
    (basicSyncInit hash zero mode inotify mtime ram).Settled hash :=
  ⟨rfl, rfl⟩

section Calls

variable {H : Type*} [DecidableEq H] (hash : Text → H) (zero : H)
  (sort : List ParsedLine → List ParsedLine) (ty : Apple2Type)
  {s : SyncState H}

/-- Reading the file leaves the hash of it behind. -/
theorem SyncState.Settled.importFile (h : s.Settled hash)
    (host : HostAnswers) :
    (basicSyncImportFile hash zero sort ty host s).Settled hash := by
  unfold basicSyncImportFile
  split
  · exact h
  · split
    · exact h
    · exact ⟨h.not_pending, rfl⟩

/-- A program last written out or read in is not read over. -/
theorem ram_basicSyncImportFile (h : s.Settled hash) {host : HostAnswers}
    (hprogram : host.opens = true →
      computeProgramHash hash zero s.ram = s.lastExportedHash) :
    (basicSyncImportFile hash zero sort ty host s).ram = s.ram := by
  unfold basicSyncImportFile
  split
  · rfl
  · next hopens =>
    rw [Bool.not_eq_true', Bool.not_eq_false] at hopens
    rw [if_pos (by simp [h.hash_file, hprogram hopens])]

/-- Writing the file leaves the hash of it behind. -/
theorem SyncState.Settled.exportFile (h : s.Settled hash)
    (host : HostAnswers) :
    (basicSyncExportFile hash zero host s).Settled hash := by
  unfold basicSyncExportFile
  dsimp only
  split
  · exact ⟨h.not_pending, h.hash_file⟩
  · split
    · exact h
    · split
      · exact h
      · exact ⟨h.not_pending, rfl⟩

/-- Writing the file does not touch RAM. -/
theorem ram_basicSyncExportFile (host : HostAnswers) (s : SyncState H) :
    (basicSyncExportFile hash zero host s).ram = s.ram := by
  unfold basicSyncExportFile
  dsimp only
  split
  · rfl
  · split
    · rfl
    · split
      · rfl
      · rfl

/-- **One call**: it keeps the hash of the file true, and leaves RAM alone
where the program it would read over is the one it knows. -/
theorem SyncState.Settled.update (h : s.Settled hash) (host : HostAnswers) :
    (basicSyncUpdate hash zero sort ty host s).Settled hash
      ∧ ((SyncAction.update host).Undisturbed hash zero s →
        (basicSyncUpdate hash zero sort ty host s).ram = s.ram) := by
  unfold basicSyncUpdate
  rw [h.not_pending]
  dsimp only
  split
  · exact ⟨h, fun _ => rfl⟩
  · rw [if_neg Bool.false_ne_true]
    split
    · next hmodified =>
      have hread : ({ s with events := s.events - host.read }).Settled hash :=
        ⟨h.not_pending, h.hash_file⟩
      exact ⟨hread.importFile hash zero sort ty host, fun hquiet =>
        ram_basicSyncImportFile hash zero sort ty hread
          (hquiet hmodified)⟩
    · split
      · exact ⟨⟨h.not_pending, h.hash_file⟩, fun _ => rfl⟩
      · split
        · have hcounted : ({ s with frameCounter := 0 }).Settled hash :=
            ⟨h.not_pending, h.hash_file⟩
          exact ⟨hcounted.exportFile hash zero host,
            fun _ => ram_basicSyncExportFile hash zero host _⟩
        · exact ⟨⟨h.not_pending, h.hash_file⟩, fun _ => rfl⟩

/-- **When live sync overwrites no edit**: in every run from its start on in
which no call is handed the file while the program is not the one last
written out or read in, no call changes RAM. -/
theorem update_keeps_ram (mode : BasicLineMode) (inotify : Bool)
    (mtime : Nat) (ram : Ram) {as : List SyncAction}
    (has : (syncMachine hash zero sort ty).Admits
      (fun s a _ => a.Undisturbed hash zero s)
      (basicSyncInit hash zero mode inotify mtime ram) as) :
    ∀ x ∈ (syncMachine hash zero sort ty).shows
      (basicSyncInit hash zero mode inotify mtime ram) as, x.2 = x.1 := by
  refine (syncMachine hash zero sort ty).forall_mem_shows
    (I := fun s => s.Settled hash) ?_
    (settled_basicSyncInit hash zero mode inotify mtime ram) has
  intro s a as h hquiet
  cases a with
  | edit ram =>
    exact ⟨fun x hx => (nomatch hx), h.not_pending, h.hash_file⟩
  | update host =>
    obtain ⟨hnext, hram⟩ := h.update hash zero sort ty host
    refine ⟨fun x hx => ?_, hnext⟩
    rw [← Option.some.inj hx]
    exact hram hquiet

end Calls

/-! ## An edit undone -/

/-- A call at which the host has nothing to report. -/
def quietHost : HostAnswers := ⟨0, 1, 0, true, true⟩

/-- A call that is handed one event. -/
def eventHost : HostAnswers := ⟨1, 1, 0, true, true⟩

/-- RAM with the program of a text, and nothing else. -/
def ramOf (text : String) : Ram :=
  basicSyncImportFromString sortLines .apple2e .explicit (bytes text) fun _ => 0

/-- The guest enters `10 END`, which the fifteenth call writes out, and
edits it to `10 NEW` before the event of the writing is handed over. -/
def editAfterExport : List SyncAction :=
  .edit (ramOf "10 END") :: List.replicate 15 (.update quietHost)
    ++ [.edit (ramOf "10 NEW"), .update eventHost]

/-- Live sync at its start, over RAM with no program, with the contents
themselves as their hashes. -/
def emptySync : SyncState (Option Text) :=
  basicSyncInit some none .explicit true 0 (ramOf "")

/-- The event is handed over before the edit. -/
def editAfterEvent : List SyncAction :=
  .edit (ramOf "10 END") :: List.replicate 15 (.update quietHost)
    ++ [.update eventHost, .edit (ramOf "10 NEW")]

/-- With the event handed over before the edit, the program is left
alone. -/
theorem update_keeps_ram_event :
    ((syncMachine some none sortLines .apple2e).shows emptySync
        editAfterEvent).map (fun x => x.2 0x0805)
      = ((syncMachine some none sortLines .apple2e).shows emptySync
        editAfterEvent).map (fun x => x.1 0x0805) := by
  refine List.map_congr_left fun x hx => congrFun
    (update_keeps_ram some none sortLines .apple2e .explicit true 0
      (ramOf "") ?_ x hx) 0x0805
  simp only [editAfterEvent, List.replicate, List.cons_append,
    List.nil_append, Machine.Admits, SyncAction.Undisturbed]
  refine ⟨trivial, ?_⟩
  iterate 15 refine ⟨fun h => (nomatch h), ?_⟩
  exact ⟨fun _ _ => by decide +kernel, trivial, trivial⟩

/-- **An edit undone**: with hashes that tell every two contents apart, the
call that is handed the event of the export changes the program in RAM back
from `10 NEW` to `10 END`. -/
theorem edit_undone :
    (syncMachine some none sortLines .apple2e).Admits
      (fun s a _ => a.OwnEvents s) emptySync editAfterExport
    ∧ ∃ x ∈ (syncMachine some none sortLines .apple2e).shows emptySync
        editAfterExport,
      x.1 0x0805 = 0xBF ∧ x.2 0x0805 = 0x80 := by
  refine ⟨?_, ?_⟩
  · simp only [editAfterExport, List.replicate, List.cons_append,
      List.nil_append, Machine.Admits, SyncAction.OwnEvents]
    refine ⟨trivial, ?_⟩
    iterate 15 refine ⟨Nat.zero_le _, ?_⟩
    exact ⟨trivial, by decide +kernel, trivial⟩
  · rw [editAfterExport, List.append_cons, Machine.shows_append]
    refine ⟨_, List.mem_append_right _ (List.mem_singleton_self _), ?_⟩
    decide +kernel

end LinApple.Basic
