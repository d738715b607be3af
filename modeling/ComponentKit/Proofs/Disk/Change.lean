import ComponentKit.Project.Reach
import ComponentKit.Proofs.Disk.Walk
import ComponentKit.Proofs.Result
import ComponentKit.Proofs.Text.Figures

/-!
# What an access changes

Reading leaves a disk alone, and a write, a copy or a new directory puts one entry. `makeDirectories` only adds
directories on the way, so that every earlier entry stays what it was (`Grows`).
-/

namespace ComponentKit.Disk

variable {disk changed before middle after : Disk} {home place : Location} {path : Path}
  {content : Bytes} {allowed : Location → Prop}

/-! ## Looking -/

theorem look_eq_ok_some {entry : Entry} : disk.look home path = .ok (some entry) ↔
    ∃ place, disk.locate home path = .ok place ∧ disk.entryAt? place = some entry := by
  rw [look]
  cases h : disk.locate home path with
  | ok place => simp
  | error fault =>
    rcases fault with ⟨obstacle, blocked⟩ | _
    · cases obstacle <;> simp
    · simp

theorem isDirectory_eq_ok_true : disk.isDirectory home path = .ok true ↔
    ∃ place, disk.locate home path = .ok place ∧ disk.entryAt? place = some .directory := by
  rw [← look_eq_ok_some, isDirectory]
  cases h : disk.look home path with
  | error fault => simp [bind, Except.bind]
  | ok entry =>
    rcases entry with _ | (content | _) <;> simp [bind, Except.bind, pure, Except.pure]

theorem isFile_eq_ok_true : disk.isFile home path = .ok true ↔
    ∃ place content, disk.locate home path = .ok place ∧ disk.entryAt? place = some (.file content) := by
  rw [exists_comm]
  simp only [← look_eq_ok_some, isFile]
  cases h : disk.look home path with
  | error fault => simp [bind, Except.bind]
  | ok entry =>
    rcases entry with _ | (content | _) <;> simp [bind, Except.bind, pure, Except.pure]

theorem pathExists_eq_ok_true : disk.pathExists home path = .ok true ↔
    ∃ place entry, disk.locate home path = .ok place ∧ disk.entryAt? place = some entry := by
  rw [exists_comm]
  simp only [← look_eq_ok_some, pathExists]
  cases h : disk.look home path with
  | error fault => simp [Functor.map, Except.map]
  | ok entry => cases entry <;> simp [Functor.map, Except.map]

theorem readFile_eq_ok : disk.readFile home path = .ok content ↔
    ∃ place, disk.locate home path = .ok place ∧ disk.entryAt? place = some (.file content) := by
  rw [readFile, bind_eq_ok]
  refine exists_congr fun place => and_congr_right fun _ => ?_
  cases disk.entryAt? place with
  | none => simp [throw_ne_ok]
  | some entry => cases entry <;> simp [throw_ne_ok, pure_eq_ok]

/-- A look fails for an overlong name only. -/
theorem look_eq_error_iff {fault : Fault} : disk.look home path = .error fault ↔
    disk.locate home path = .error fault ∧ ∃ blocked, fault = .blocked .nameTooLong blocked := by
  rw [look]
  cases h : disk.locate home path with
  | ok place => simp
  | error located =>
    rcases located with ⟨obstacle, blocked⟩ | _
    · cases obstacle <;> aesop
    · aesop

theorem pathExists_eq_error_iff {fault : Fault} :
    disk.pathExists home path = .error fault ↔ disk.look home path = .error fault := by
  rw [pathExists]
  cases disk.look home path <;> simp [Functor.map, Except.map]

/-- A path that can be followed leads from a place that is no directory to an answer, not to a fault. -/
theorem directory_of_locate_child_eq_error {name : Text} {blocked : Path} (hchild : IsFollowable (path.child name))
    (h : disk.locate home path = .ok place)
    (herror : disk.locate home (path.child name) = .error (.blocked .nameTooLong blocked)) :
    disk.entryAt? place = some .directory ∧ maxNameBytes < (Utf8.encode name).length := by
  rw [locate_child_eq hchild h] at herror
  cases hplace : disk.entryAt? place with
  | none => simp [walk, hplace] at herror
  | some entry =>
    cases entry with
    | file content => simp [walk, hplace] at herror
    | directory =>
      refine ⟨rfl, Nat.lt_of_not_le fun hshort => ?_⟩
      rw [walk_cons hplace, if_neg fun hlong => absurd hlong.2 (Nat.not_lt.mpr hshort)] at herror
      cases herror

/-- Whether something stands under a name is not known if the path to it is overlong, or if the name is and stands
in a directory. -/
theorem pathExists_child_eq_error_iff {name : Text} {fault : Fault} (hname : name ≠ Path.parentStep)
    (h : disk.locate home path = .ok place) :
    disk.pathExists home (path.child name) = .error fault ↔
      '\x00' ∉ name ∧ (isOverlong (path.child name) = true ∨
        disk.entryAt? place = some .directory ∧ maxNameBytes < (Utf8.encode name).length) ∧
      fault = .blocked .nameTooLong (path.child name) := by
  have hpath := (locate_eq_ok.mp h).1
  rw [pathExists_eq_error_iff, look_eq_error_iff]
  constructor
  · rintro ⟨hlocate, blocked, rfl⟩
    have hnul : '\x00' ∉ name := by
      intro hmem
      rw [locate_of_hasNul (by rw [hasNul_child, List.contains_iff_mem.mpr hmem, Bool.or_true])] at hlocate
      cases hlocate
    have hchildNul := hasNul_child_eq_false hpath.noNul hnul
    by_cases hlong : isOverlong (path.child name) = true
    · rw [locate_of_isOverlong hchildNul hlong] at hlocate
      exact ⟨hnul, .inl hlong, (Except.error.inj hlocate).symm⟩
    · have hchild : IsFollowable (path.child name) := ⟨hchildNul, Bool.eq_false_iff.mpr hlong⟩
      obtain ⟨hplace, hshort⟩ := directory_of_locate_child_eq_error hchild h hlocate
      rw [locate_child_of_long hname hshort hchild h hplace] at hlocate
      exact ⟨hnul, .inr ⟨hplace, hshort⟩, (Except.error.inj hlocate).symm⟩
  · rintro ⟨hnul, hlong, rfl⟩
    have hchildNul := hasNul_child_eq_false hpath.noNul hnul
    refine ⟨?_, _, rfl⟩
    by_cases hfits : isOverlong (path.child name) = true
    · exact locate_of_isOverlong hchildNul hfits
    · obtain ⟨hplace, hshort⟩ := hlong.resolve_left hfits
      exact locate_child_of_long hname hshort ⟨hchildNul, Bool.eq_false_iff.mpr hfits⟩ h hplace

/-- A regular file is what can be read. -/
theorem isFile_eq_ok_true_iff : disk.isFile home path = .ok true ↔
    ∃ content, disk.readFile home path = .ok content := by
  rw [isFile_eq_ok_true, exists_comm]
  simp only [readFile_eq_ok]

/-! ## Single changes -/

theorem writeFile_eq_ok : disk.writeFile home path content = .ok changed ↔
    ∃ place, disk.locate home path = .ok place ∧ disk.entryAt? place ≠ some .directory ∧
      changed = disk.put place (.file content) := by
  rw [writeFile, bind_eq_ok]
  refine exists_congr fun place => and_congr_right fun _ => ?_
  cases disk.entryAt? place with
  | none => simp [pure_eq_ok, @eq_comm _ changed]
  | some entry => cases entry <;> simp [throw_ne_ok, pure_eq_ok, @eq_comm _ changed]

theorem makeDirectory_eq_ok : disk.makeDirectory home path = .ok changed ↔
    ∃ place, disk.locate home path = .ok place ∧ disk.entryAt? place = none ∧
      changed = disk.put place .directory := by
  rw [makeDirectory, bind_eq_ok]
  refine exists_congr fun place => and_congr_right fun _ => ?_
  cases disk.entryAt? place with
  | none => simp [pure_eq_ok, @eq_comm _ changed]
  | some entry => simp [throw_ne_ok]

/-- A copy onto a place that is no directory puts the content of the source there. -/
theorem copyFile_of_locate {source target : Path} (hsource : disk.readFile home source = .ok content)
    (htarget : disk.locate home target = .ok place) (hne : disk.entryAt? place ≠ some .directory) :
    disk.copyFile home source target = .ok (disk.put place (.file content)) := by
  have hnot : disk.isDirectory home target ≠ .ok true := by
    intro h
    obtain ⟨found, hfound, hdir⟩ := isDirectory_eq_ok_true.mp h
    rw [htarget] at hfound
    exact hne (Except.ok.inj hfound ▸ hdir)
  have hwrite : disk.writeFile home target content = .ok (disk.put place (.file content)) :=
    writeFile_eq_ok.mpr ⟨place, htarget, hne, rfl⟩
  rw [copyFile, hsource]
  show disk.writeFile home _ content = _
  -- a copy onto a directory would go into it, and there is none
  split
  · rename_i h
    exact absurd h hnot
  · exact hwrite

/-- A copy onto an overlong path is refused. -/
theorem copyFile_of_isOverlong {source target : Path} (hsource : disk.readFile home source = .ok content)
    (hnul : target.hasNul = false) (hlong : isOverlong target = true) :
    disk.copyFile home source target = .error (.blocked .nameTooLong target) := by
  have hlocate : disk.locate home target = .error (.blocked .nameTooLong target) := locate_of_isOverlong hnul hlong
  have hdirectory : disk.isDirectory home target = .error (.blocked .nameTooLong target) := by
    rw [isDirectory, look, hlocate]
    rfl
  rw [copyFile, hsource, hdirectory]
  show disk.writeFile home target content = _
  rw [writeFile, hlocate]
  rfl

/-! ## Growth -/

/-- What changes on a disk are places where nothing stood, all of them ones that `allowed` holds of. -/
def Grows (allowed : Location → Prop) (before after : Disk) : Prop :=
  ∀ place, after.entryAt? place = before.entryAt? place ∨
    (before.entryAt? place = none ∧ allowed place)

namespace Grows

theorem refl (allowed : Location → Prop) (disk : Disk) : Grows allowed disk disk :=
  fun _ => .inl rfl

theorem trans (h₁ : Grows allowed before middle) (h₂ : Grows allowed middle after) :
    Grows allowed before after := by
  intro place
  rcases h₂ place with h | ⟨hnone, hallowed⟩
  · rw [h]
    exact h₁ place
  · rcases h₁ place with h | h
    · exact .inr ⟨by rw [← h, hnone], hallowed⟩
    · exact .inr h

theorem mono {more : Location → Prop} (h : Grows allowed before after)
    (hmore : ∀ place, allowed place → more place) : Grows more before after :=
  fun place => (h place).imp_right fun h => ⟨h.1, hmore place h.2⟩

/-- Every earlier entry is still there. -/
theorem entryAt? (h : Grows allowed before after) {entry : Entry}
    (he : before.entryAt? place = some entry) : after.entryAt? place = some entry := by
  rcases h place with heq | ⟨hnone, -⟩
  · rw [heq, he]
  · rw [he] at hnone
    cases hnone

/-- Where nothing stands nothing stood. -/
theorem entryAt?_eq_none (h : Grows allowed before after) (hnone : after.entryAt? place = none) :
    before.entryAt? place = none :=
  (h place).elim (fun heq => by rw [← heq, hnone]) And.left

theorem put (entry : Entry) (hnone : disk.entryAt? place = none) (hallowed : allowed place) :
    Grows allowed disk (disk.put place entry) := by
  intro other
  rw [entryAt?_put]
  split
  · rename_i h
    exact .inr ⟨h.1 ▸ hnone, h.1 ▸ hallowed⟩
  · exact .inl rfl

end Grows

/-! ## Making directories -/

open Project (waypoints)

theorem resolve_mem_waypoints (home : Location) (path : Path) :
    path.resolve home ∈ waypoints home path := by
  simp only [waypoints, List.mem_append, List.mem_map, List.mem_range]
  exact .inr ⟨path.segments.length, by omega, by rw [List.take_length]⟩

/-- On the way along a path are the places on the way along its beginning. -/
theorem waypoints_append {start : Path.Start} {front : List Text} (back : List Text)
    (h : place ∈ waypoints home ⟨start, front⟩) : place ∈ waypoints home ⟨start, front ++ back⟩ := by
  simp only [waypoints, List.mem_append, List.mem_map, List.mem_range] at h ⊢
  refine h.imp_right fun ⟨count, hcount, hplace⟩ => ⟨count, ?_, ?_⟩
  · rw [List.length_append]
    omega
  · rw [List.take_append_of_le_length (by omega)]
    exact hplace

/-- What is known after `makeDirectories`. -/
structure MadeDirectories (disk : Disk) (home : Location) (path : Path)
    (result : Except Fault Unit × Disk) : Prop where
  /-- Only places on the way were added. -/
  grows : Grows (· ∈ waypoints home path) disk result.2
  /-- The disk is still a tree. -/
  isTree : IsTree result.2 home
  /-- The directory is there, unless something stood in the way. -/
  done : result.1 = .ok () → result.2.isDirectory home path = .ok true

/-- One new directory on the way. -/
theorem madeDirectories_settle (ht : IsTree disk home) :
    MadeDirectories disk home path (settle disk home path (disk.makeDirectory home path)) := by
  -- made now, or refused: then it may have been there
  cases h : disk.makeDirectory home path with
  | ok changed =>
    obtain ⟨place, hloc, hnone, rfl⟩ := makeDirectory_eq_ok.mp h
    have hgrows : Grows (· ∈ waypoints home path) disk (disk.put place .directory) :=
      .put _ hnone (locate_eq_resolve hloc ▸ resolve_mem_waypoints home path)
    refine ⟨hgrows, ht.put (ht.locate_parent hloc) (.inl rfl), fun _ => ?_⟩
    refine isDirectory_eq_ok_true.mpr ⟨place, locate_mono (fun q => hgrows.entryAt?) hloc, ?_⟩
    by_cases hn : place = []
    · rw [hn]
      exact entryAt?_nil _
    · exact entryAt?_put_self disk place .directory hn
  | error fault =>
    unfold settle
    dsimp only
    split
    · rename_i hdir
      exact ⟨.refl _ disk, ht, fun _ => hdir⟩
    · exact ⟨.refl _ disk, ht, fun h => by cases h⟩

theorem madeDirectories_up (start : Path.Start) (names : List Text) (ht : IsTree disk home) :
    MadeDirectories disk home ⟨start, names.reverse⟩ (makeDirectoriesUp home start names disk) := by
  -- on the names from the innermost one on, as the outer directories are made first
  induction names generalizing disk with
  | nil => exact madeDirectories_settle ht
  | cons name outer ih =>
    rw [makeDirectoriesUp]
    split
    · have houter := ih ht
      have hway : ∀ q, q ∈ waypoints home ⟨start, outer.reverse⟩ →
          q ∈ waypoints home ⟨start, (name :: outer).reverse⟩ := by
        intro q hq
        rw [List.reverse_cons]
        exact waypoints_append [name] hq
      split
      · rename_i fault changed hup
        rw [hup] at houter
        exact ⟨houter.grows.mono hway, houter.isTree, fun h => by cases h⟩
      · rename_i changed hup
        rw [hup] at houter
        have hlast : MadeDirectories changed home ⟨start, (name :: outer).reverse⟩ _ :=
          madeDirectories_settle houter.isTree
        exact ⟨(houter.grows.mono hway).trans hlast.grows, hlast.isTree, hlast.done⟩
    · exact madeDirectories_settle ht

theorem madeDirectories (path : Path) (ht : IsTree disk home) :
    MadeDirectories disk home path (disk.makeDirectories home path) := by
  have h := madeDirectories_up path.start path.segments.reverse ht
  rw [List.reverse_reverse] at h
  exact h

/-- A directory in a directory that is there is made at once, if it is not there already. -/
theorem makeDirectories_of_locate (h : disk.locate home path = .ok place) :
    (disk.entryAt? place = none ∧
        disk.makeDirectories home path = (.ok (), disk.put place .directory)) ∨
      (disk.entryAt? place = some .directory ∧ disk.makeDirectories home path = (.ok (), disk)) ∨
      ((∃ content, disk.entryAt? place = some (.file content)) ∧
        ∃ fault, disk.makeDirectories home path = (.error fault, disk)) := by
  -- only the innermost directory is tried: its parent is there already
  have hmake : ∀ names, path = ⟨path.start, names.reverse⟩ →
      (∀ changed, disk.makeDirectory home path = .ok changed →
        makeDirectoriesUp home path.start names disk = (.ok (), changed)) ∧
      (∀ blocked, disk.makeDirectory home path = .error (.blocked .alreadyExists blocked) →
        makeDirectoriesUp home path.start names disk
          = settle disk home path (.error (.blocked .alreadyExists blocked))) := by
    intro names hpath
    cases names with
    | nil =>
      rw [makeDirectoriesUp, ← List.reverse_nil, ← hpath]
      exact ⟨fun changed hc => by rw [hc]; rfl, fun blocked hb => by rw [hb]⟩
    | cons name outer =>
      rw [makeDirectoriesUp, ← hpath]
      exact ⟨fun changed hc => by simp only [hc]; rfl, fun blocked hb => by simp only [hb]⟩
  obtain ⟨hok, hblocked⟩ := hmake path.segments.reverse (by rw [List.reverse_reverse])
  -- free, a directory, or a file: only the last one is a fault
  cases he : disk.entryAt? place with
  | none =>
    exact .inl ⟨rfl, hok _ (makeDirectory_eq_ok.mpr ⟨place, h, he, rfl⟩)⟩
  | some entry =>
    have hexists : disk.makeDirectory home path = .error (.blocked .alreadyExists path) := by
      simp [makeDirectory, h, he, bind, Except.bind, throw, throwThe, MonadExceptOf.throw]
    refine .inr ?_
    have hup := hblocked path hexists
    cases entry with
    | directory =>
      refine .inl ⟨rfl, ?_⟩
      rw [makeDirectories, hup]
      simp only [settle, isDirectory_eq_ok_true.mpr ⟨place, h, he⟩]
    | file content =>
      refine .inr ⟨⟨content, rfl⟩, .blocked .alreadyExists path, ?_⟩
      have hfalse : disk.isDirectory home path = .ok false := by
        simp [isDirectory, look, h, he, bind, Except.bind, pure, Except.pure]
      rw [makeDirectories, hup]
      simp only [settle, hfalse]

/-- A directory that is there need not be made. -/
theorem makeDirectories_of_isDirectory (h : disk.isDirectory home path = .ok true) :
    disk.makeDirectories home path = (.ok (), disk) := by
  obtain ⟨place, hlocate, hdirectory⟩ := isDirectory_eq_ok_true.mp h
  rcases makeDirectories_of_locate hlocate with ⟨hnone, -⟩ | ⟨-, hmade⟩ | ⟨⟨content, hfile⟩, -⟩
  · rw [hdirectory] at hnone
    cases hnone
  · exact hmade
  · rw [hdirectory] at hfile
    cases hfile

/-! ## Files that are there -/

/-- The directories around a file that is there need not be made. -/
theorem makeDirectories_of_readFile {name : Text}
    (hread : disk.readFile home (path.child name) = .ok content) :
    disk.makeDirectories home path = (.ok (), disk) := by
  obtain ⟨place, hplace, -⟩ := readFile_eq_ok.mp hread
  obtain ⟨around, haround, hdirectory, -⟩ := locate_child_eq_ok hplace
  exact makeDirectories_of_isDirectory (isDirectory_eq_ok_true.mpr ⟨around, haround, hdirectory⟩)

/-- A file that was written has the content that was written. -/
theorem readFile_of_writeFile (h : disk.writeFile home path content = .ok changed) :
    changed.readFile home path = .ok content := by
  obtain ⟨place, hplace, hne, rfl⟩ := writeFile_eq_ok.mp h
  have hroot : place ≠ [] := by
    rintro rfl
    exact hne (entryAt?_nil disk)
  -- the place is found again: no directory on the way was overwritten
  have hkeep : ∀ q, disk.entryAt? q = some .directory →
      (disk.put place (.file content)).entryAt? q = some .directory := by
    intro q hq
    rw [entryAt?_put_of_ne, hq]
    rintro rfl
    exact hne hq
  exact readFile_eq_ok.mpr ⟨place, locate_mono hkeep hplace, entryAt?_put_self disk place _ hroot⟩

/-- A file that is there can be written, and then holds what was written. -/
theorem writeFile_of_readFile (hread : disk.readFile home path = .ok content) (new : Bytes) :
    ∃ changed, disk.writeFile home path new = .ok changed ∧ changed.readFile home path = .ok new := by
  obtain ⟨place, hplace, hfile⟩ := readFile_eq_ok.mp hread
  have hwrite : disk.writeFile home path new = .ok (disk.put place (.file new)) := by
    refine writeFile_eq_ok.mpr ⟨place, hplace, ?_, rfl⟩
    rw [hfile]
    exact fun h => by cases h
  exact ⟨_, hwrite, readFile_of_writeFile hwrite⟩

/-! ## Fresh directories -/

theorem mem_numberedName {name : Text} {c : Char} {k : Nat} (h : c ∈ numberedName name k) :
    c ∈ name ∨ c = '-' ∨ c.isDigit = true := by
  rw [numberedName] at h
  split at h
  · exact .inl h
  · rw [List.mem_append, List.mem_cons] at h
    exact h.imp_right (.imp_right Text.isDigit_of_mem_ofNat)

theorem nul_mem_numberedName {name : Text} {k : Nat} : '\x00' ∈ numberedName name k ↔ '\x00' ∈ name := by
  constructor
  · intro hmem
    rcases mem_numberedName hmem with hmem | heq | hdigit
    · exact hmem
    · cases heq
    · cases hdigit
  · intro hmem
    rw [numberedName]
    split
    · exact hmem
    · exact List.mem_append_left _ hmem

theorem isSegment_numberedName {name : Text} (h : Path.IsSegment name) (k : Nat) :
    Path.IsSegment (numberedName name k) := by
  by_cases hk : k = 0
  · rw [numberedName, if_pos hk]
    exact h
  · have hhyphen : '-' ∈ numberedName name k := by simp [numberedName, hk]
    -- what is added to the name is a hyphen and figures
    refine ⟨fun hslash => ?_, fun hnil => ?_, fun hdot => ?_⟩
    · rcases mem_numberedName hslash with hname | heq | hdigit
      · exact h.noSlash hname
      · cases heq
      · cases hdigit
    · rw [hnil] at hhyphen
      cases hhyphen
    · rw [hdot] at hhyphen
      exact absurd hhyphen (by decide)

/-- The candidates for one name are entries of the root. -/
theorem candidate_eq_child {name : Text} (h : Path.IsSegment name) (root : Path) (k : Nat) :
    candidate root name k = root.child (numberedName name k) :=
  Path.join_eq_child root (isSegment_numberedName h k)

/-- What is known after `makeFreshDirectory` made one. -/
structure MadeFresh (disk : Disk) (home : Location) (root path : Path) (after : Disk) : Prop where
  /-- The path names an entry of the root. -/
  child : ∃ name, path = root.child name ∧ path.resolve home = root.resolve home ++ [name]
  /-- Nothing stood there. -/
  fresh : disk.entryAt? (path.resolve home) = none
  /-- Nothing stands below it. -/
  isEmpty : ∀ q, path.resolve home <+: q → q ≠ path.resolve home → after.entryAt? q = none
  /-- It is there now. -/
  located : after.locate home path = .ok (path.resolve home)
  /-- It is a directory. -/
  directory : after.entryAt? (path.resolve home) = some .directory
  /-- Besides it only places on the way to the root were added. -/
  grows : Grows (fun q => q ∈ waypoints home root ∨ path.resolve home <+: q) disk after
  /-- The disk is still a tree. -/
  isTree : IsTree after home

theorem tryDirectory_of_ok (h : disk.makeDirectory home path = .ok changed) :
    disk.tryDirectory home path = (.ok path, changed) := by
  rw [tryDirectory, h]

theorem tryDirectory_of_error {fault : Fault} (h : disk.makeDirectory home path = .error fault) :
    disk.tryDirectory home path = (.error fault, disk) := by
  rw [tryDirectory, h]

/-- A directory that was made in a root did not exist before the root was made. -/
theorem madeFresh_of_tryDirectory {root : Path}
    (hgrows : Grows (· ∈ waypoints home root) disk changed) (ht : IsTree changed home) (name : Text) :
    (∀ path, (changed.tryDirectory home (root.child name)).1 = .ok path →
      MadeFresh disk home root path (changed.tryDirectory home (root.child name)).2) ∧
    (∀ fault, (changed.tryDirectory home (root.child name)).1 = .error fault →
      Grows (· ∈ waypoints home root) disk (changed.tryDirectory home (root.child name)).2 ∧
        IsTree (changed.tryDirectory home (root.child name)).2 home) := by
  cases hmake : changed.makeDirectory home (root.child name) with
  | error fault =>
    rw [tryDirectory_of_error hmake]
    exact ⟨fun path h => (by cases h), fun _ _ => ⟨hgrows, ht⟩⟩
  | ok after =>
    rw [tryDirectory_of_ok hmake]
    refine ⟨fun path h => ?_, fun _ h => by cases h⟩
    obtain rfl := Except.ok.inj h
    obtain ⟨place, hloc, hnone, rfl⟩ := makeDirectory_eq_ok.mp hmake
    obtain rfl := locate_eq_resolve hloc
    obtain ⟨middle, hmiddle, hdir, hstep⟩ := locate_child_eq_ok hloc
    obtain rfl := locate_eq_resolve hmiddle
    -- a step to the parent would lead to a directory that is there
    have hparent : name ≠ Path.parentStep := by
      rintro rfl
      rw [hstep, Path.step_parentStep, ht.parent hdir] at hnone
      cases hnone
    have hne : (root.child name).resolve home ≠ [] := by
      intro hnil
      rw [hnil, entryAt?_nil] at hnone
      cases hnone
    -- the new directory is the one new entry, where nothing stood at the start either
    refine ⟨⟨name, rfl, ?_⟩, ?_, ?_, ?_, ?_, ?_, ?_⟩
    · rw [hstep, Path.step_of_ne hparent]
    · exact hgrows.entryAt?_eq_none hnone
    · intro q hq hqne
      rw [entryAt?_put_of_ne _ _ hqne]
      exact ht.entryAt?_below hnone hq
    · have hput : Grows (fun _ => True) changed (changed.put ((root.child name).resolve home) .directory) :=
        .put _ hnone trivial
      exact locate_mono (fun q => hput.entryAt?) hloc
    · exact entryAt?_put_self _ _ _ hne
    · exact (hgrows.mono fun q hq => .inl hq).trans (.put _ hnone (.inr List.prefix_rfl))
    · exact ht.put (ht.locate_parent hloc) (.inl rfl)

/-- A directory that was made under a fresh name did not exist, or only places on the way were added. -/
theorem makeFreshDirectory_spec (root : Path) {name : Text} (hname : Path.IsSegment name)
    (ht : IsTree disk home) :
    (∀ path, (disk.makeFreshDirectory home root name).1 = .ok path →
      MadeFresh disk home root path (disk.makeFreshDirectory home root name).2) ∧
    (∀ fault, (disk.makeFreshDirectory home root name).1 = .error fault →
      Grows (· ∈ waypoints home root) disk (disk.makeFreshDirectory home root name).2 ∧
        IsTree (disk.makeFreshDirectory home root name).2 home) := by
  have hroot := madeDirectories root ht
  rw [makeFreshDirectory]
  -- the root is made first, and a candidate in it only if that has worked
  split
  · rename_i fault changed hmake
    rw [hmake] at hroot
    exact ⟨fun path h => (by cases h), fun _ _ => ⟨hroot.grows, hroot.isTree⟩⟩
  · rename_i changed hmake
    rw [hmake] at hroot
    simp only [candidate_eq_child hname]
    exact madeFresh_of_tryDirectory hroot.grows hroot.isTree _

/-! ## Null characters -/

theorem locate_ne_nullCharacter (h : path.hasNul = false) : disk.locate home path ≠ .error .nullCharacter := by
  cases hlong : isOverlong path with
  | true =>
    rw [locate_of_isOverlong h hlong]
    simp
  | false =>
    rw [locate_of_isFollowable ⟨h, hlong⟩]
    cases disk.walk (path.base home) path.segments <;> simp

theorem makeDirectory_ne_nullCharacter (h : path.hasNul = false) :
    disk.makeDirectory home path ≠ .error .nullCharacter := by
  rw [makeDirectory]
  cases hloc : disk.locate home path with
  | error fault =>
    rintro heq
    obtain rfl := Except.error.inj heq
    exact locate_ne_nullCharacter h hloc
  | ok place =>
    cases he : disk.entryAt? place <;>
      simp [bind, Except.bind, he, pure, Except.pure, throw, throwThe, MonadExceptOf.throw]

theorem tryDirectory_ne_nullCharacter (h : path.hasNul = false) :
    (disk.tryDirectory home path).1 ≠ .error .nullCharacter := by
  cases hmake : disk.makeDirectory home path with
  | ok changed =>
    rw [tryDirectory_of_ok hmake]
    simp
  | error fault =>
    rw [tryDirectory_of_error hmake]
    rintro heq
    exact makeDirectory_ne_nullCharacter h (hmake.trans (by rw [Except.error.inj heq]))

/-- Settling on a directory that is there brings in no other fault. -/
theorem settle_ne {result : Except Fault Disk} {fault : Fault} (h : result ≠ .error fault) :
    (settle disk home path result).1 ≠ .error fault := by
  cases result with
  | ok changed => simp [settle]
  | error other =>
    unfold settle
    dsimp only
    split
    · simp
    · rintro heq
      exact h (by rw [Except.error.inj heq])

/-- Without a null character in its path a directory is refused for something on the disk. -/
theorem makeDirectories_ne_nullCharacter (h : path.hasNul = false) :
    (disk.makeDirectories home path).1 ≠ .error .nullCharacter := by
  -- every outer path has no null character either, so the fault is met nowhere on the way up
  have hup : ∀ (names : List Text) (disk : Disk), (Path.mk path.start names.reverse).hasNul = false →
      (makeDirectoriesUp home path.start names disk).1 ≠ .error .nullCharacter := by
    intro names
    induction names with
    | nil =>
      intro disk hnames
      exact settle_ne (makeDirectory_ne_nullCharacter hnames)
    | cons name outer ih =>
      intro disk hnames
      have houter : (Path.mk path.start outer.reverse).hasNul = false := by
        rw [List.reverse_cons] at hnames
        exact (Bool.or_eq_false_iff.mp ((hasNul_child ⟨path.start, outer.reverse⟩ name).symm.trans hnames)).1
      rw [makeDirectoriesUp]
      split
      · split
        · rename_i fault changed hfault
          have hne := ih disk houter
          rwa [hfault] at hne
        · exact settle_ne (makeDirectory_ne_nullCharacter hnames)
      · exact settle_ne (makeDirectory_ne_nullCharacter hnames)
  refine hup path.segments.reverse disk ?_
  rwa [List.reverse_reverse]

/-- A path that cannot be located for what it is leads to no directory, and nothing is made. -/
theorem makeDirectories_of_locate_eq_error {fault : Fault} (h : disk.locate home path = .error fault)
    (hfault : ∀ blocked, fault ≠ .blocked .notFound blocked) :
    disk.makeDirectories home path = (.error fault, disk) := by
  have hmake : disk.makeDirectory home path = .error fault := by
    rw [makeDirectory, h]
    rfl
  have hdirectory : disk.isDirectory home path ≠ .ok true := by
    intro hdir
    obtain ⟨place, hplace, -⟩ := isDirectory_eq_ok_true.mp hdir
    cases h.symm.trans hplace
  have hsettle : settle disk home path (.error fault) = (.error fault, disk) := by
    unfold settle
    dsimp only
    split
    · rename_i hdir
      exact absurd hdir hdirectory
    · rfl
  -- the innermost directory is tried first, and this fault does not lead further out
  have hup : ∀ names : List Text, path = ⟨path.start, names.reverse⟩ →
      makeDirectoriesUp home path.start names disk = (.error fault, disk) := by
    intro names hpath
    cases names with
    | nil =>
      rw [makeDirectoriesUp, ← List.reverse_nil, ← hpath, hmake, hsettle]
    | cons name outer =>
      rw [makeDirectoriesUp, ← hpath, hmake]
      split
      · rename_i blocked heq
        exact absurd (Except.error.inj heq) (hfault blocked)
      · exact hsettle
  exact hup path.segments.reverse (by rw [List.reverse_reverse])

/-- With one nothing is made. -/
theorem makeDirectories_of_hasNul (h : path.hasNul = true) :
    disk.makeDirectories home path = (.error .nullCharacter, disk) :=
  makeDirectories_of_locate_eq_error (locate_of_hasNul h) (by simp)

theorem makeDirectories_of_isOverlong (hnul : path.hasNul = false) (h : isOverlong path = true) :
    disk.makeDirectories home path = (.error (.blocked .nameTooLong path), disk) :=
  makeDirectories_of_locate_eq_error (locate_of_isOverlong hnul h) (by simp)

theorem makeFreshDirectory_of_hasNul {root : Path} (h : root.hasNul = true) (name : Text) :
    disk.makeFreshDirectory home root name = (.error .nullCharacter, disk) := by
  rw [makeFreshDirectory, makeDirectories_of_hasNul h]

/-- A fresh directory is refused for a null character only if its root or its name has one. -/
theorem makeFreshDirectory_ne_nullCharacter {root : Path} {name : Text} (h : root.hasNul = false)
    (hname : Path.IsSegment name) (hnul : '\x00' ∉ name) :
    (disk.makeFreshDirectory home root name).1 ≠ .error .nullCharacter := by
  -- a number adds no null character to the name
  have hcandidate : ∀ k, (candidate root name k).hasNul = false := by
    intro k
    rw [candidate_eq_child hname, hasNul_child, h, Bool.false_or]
    simpa [nul_mem_numberedName] using hnul
  have hroot : (disk.makeDirectories home root).1 ≠ .error .nullCharacter := makeDirectories_ne_nullCharacter h
  rw [makeFreshDirectory]
  split
  · rename_i fault changed hfault
    rw [hfault] at hroot
    exact fun heq => hroot (by rw [Except.error.inj heq])
  · rename_i changed hmade
    exact tryDirectory_ne_nullCharacter (hcandidate _)

/-! ## Copies -/

theorem Grows.readFile (h : Grows allowed before after) (hread : before.readFile home path = .ok content) :
    after.readFile home path = .ok content := by
  obtain ⟨place, hloc, hfile⟩ := readFile_eq_ok.mp hread
  exact readFile_eq_ok.mpr ⟨place, locate_mono (fun q => h.entryAt?) hloc, h.entryAt? hfile⟩

/-- What is known after `copyFile`. -/
structure CopiedInto (disk : Disk) (home : Location) (source directory : Path) (name file : Text)
    (place : Location) (content : Bytes) (made after : Disk) : Prop where
  /-- The new directory was made. -/
  made_eq : disk.makeDirectories home (directory.child name) = (.ok (), made)
  /-- Making it only added places of its own. -/
  made_grows : Grows (place ++ [name] <+: ·) disk made
  /-- The disk was still a tree. -/
  made_isTree : IsTree made home
  /-- The file was copied into it. -/
  copied_eq : made.copyFile home source ((directory.child name).child file) = .ok after
  /-- Copying only added places of the new directory. -/
  grows : Grows (place ++ [name] <+: ·) disk after
  /-- The disk is still a tree. -/
  isTree : IsTree after home
  /-- The copy has the content of the file. -/
  entryAt?_copy : after.entryAt? (place ++ [name] ++ [file]) = some (.file content)

/-- A file can be copied into a new directory of a directory that is there, if the path of the copy is not
overlong. -/
theorem copiedInto {source directory : Path} {name file : Text} (ht : IsTree disk home)
    (hname : IsPlainName name) (hfile : IsPlainName file)
    (hfits : isOverlong ((directory.child name).child file) = false) (hloc : disk.locate home directory = .ok place)
    (hdir : disk.entryAt? place = some .directory) (hnone : disk.entryAt? (place ++ [name]) = none)
    (hsource : disk.readFile home source = .ok content) :
    ∃ made after, CopiedInto disk home source directory name file place content made after := by
  have hplace := locate_child hname (isOverlong_of_append hfits) hloc hdir
  have hmake : disk.makeDirectories home (directory.child name)
      = (.ok (), disk.put (place ++ [name]) .directory) := by
    rcases makeDirectories_of_locate hplace with ⟨-, hm⟩ | ⟨hthere, -⟩ | ⟨⟨content, hthere⟩, -⟩
    · exact hm
    · rw [hnone] at hthere
      cases hthere
    · rw [hnone] at hthere
      cases hthere
  generalize hmade : disk.put (place ++ [name]) .directory = made at hmake
  have hgrows : Grows (place ++ [name] <+: ·) disk made := by
    rw [← hmade]
    exact .put _ hnone List.prefix_rfl
  have hparent : disk.entryAt? (place ++ [name]).dropLast = some .directory := by
    rw [List.dropLast_concat]
    exact hdir
  have htree : IsTree made home := by
    rw [← hmade]
    exact ht.put hparent (.inl rfl)
  have hdirectory : made.entryAt? (place ++ [name]) = some .directory := by
    rw [← hmade]
    exact entryAt?_put_self _ _ _ (by simp)
  -- nothing stands where the copy goes
  have htarget_none : made.entryAt? (place ++ [name] ++ [file]) = none := by
    rw [← hmade, entryAt?_put_of_ne _ _ (by simp)]
    exact ht.entryAt?_below hnone (List.prefix_append _ _)
  have htarget : made.locate home ((directory.child name).child file) = .ok (place ++ [name] ++ [file]) :=
    locate_child hfile hfits (locate_mono (fun q => hgrows.entryAt?) hplace) hdirectory
  have hcopy := copyFile_of_locate (hgrows.readFile hsource) htarget (by rw [htarget_none]; simp)
  -- the two entries put in are the new directory and the copy in it
  refine ⟨made, _, hmake, hgrows, htree, hcopy, ?_, ?_, ?_⟩
  · exact hgrows.trans (.put _ htarget_none (List.prefix_append _ _))
  · refine htree.put ?_ (.inr (by rw [htarget_none]; simp))
    rw [List.dropLast_concat]
    exact hdirectory
  · exact entryAt?_put_self _ _ _ (by simp)

end ComponentKit.Disk
