import ComponentKit.Proofs.Json.RoundTrip
import ComponentKit.Proofs.Session.Run
import ComponentKit.Settings.Storage

/-!
# Saved settings are loaded as they were

`save` writes settings as a record that their dialect keeps, and `load` reads each field of the record as the
setting that it was written for. The document has no carriage returns, so that a file is read as the text that was
written to it, whatever characters the settings have.
-/

namespace ComponentKit.Settings

open Disk Record Step

variable {settings : Settings} {session after : Session} {saved : Path}

/-! ## Fields -/

theorem field_of_lookup {α : Type} {members : List (Text × Json)} {name : Text} {read : Json → Except Problem α}
    {value : Json} {result : α} (hlookup : members.lookup name = some value) (hread : read value = .ok result)
    (default : Option α) : field members name read default = Except.ok result := by
  simp only [field, hlookup, hread]
  rfl

theorem field_text {members : List (Text × Json)} {name value : Text}
    (hlookup : members.lookup name = some (.text value)) (default : Option Text) :
    field members name text default = Except.ok value :=
  field_of_lookup hlookup (show Record.text (.text value) = .ok value from rfl) default

theorem positive_int {n : Nat} (h : 1 ≤ n) : positive (.int n) = .ok ⟨n, h⟩ := by
  simp [positive, integer, h, bind, Except.bind, pure, Except.pure]

theorem choice_name (style : RegistryStyle) :
    choice RegistryStyle.ofName? (.text style.name) = .ok style := by
  rw [choice, RegistryStyle.ofName?_name]

/-- Each setting is read from its field. -/
theorem ofMembers_members (settings : Settings) : ofMembers settings.members = .ok settings := by
  have hsource : field settings.members "source_dir" text (some default.sourceDir)
      = Except.ok settings.sourceDir := field_text rfl _
  have hmanifest : field settings.members "manifest_name" text (some default.manifestName)
      = Except.ok settings.manifestName := field_text rfl _
  have hdependency : field settings.members "framework_dependency" text (some default.frameworkDependency)
      = Except.ok settings.frameworkDependency := field_text rfl _
  have hbackup : field settings.members "backup_dir" text (some default.backupDir)
      = Except.ok settings.backupDir := field_text rfl _
  have hstyle : field settings.members "registry_style" (choice RegistryStyle.ofName?)
      (some default.registryStyle) = Except.ok settings.registryStyle := field_of_lookup rfl (choice_name _) _
  have hverbose : field settings.members "verbose" truthValue (some default.verbose)
      = Except.ok settings.verbose :=
    field_of_lookup (show _ = some (.bool settings.verbose) from rfl)
      (show truthValue (.bool settings.verbose) = .ok settings.verbose from rfl) _
  have hauthor : field settings.members "default_author" text (some default.defaultAuthor)
      = Except.ok settings.defaultAuthor := field_text rfl _
  have hlength : field settings.members "max_name_length" positive
      (some ⟨default.maxNameLength, default.one_le_maxNameLength⟩)
      = Except.ok ⟨settings.maxNameLength, settings.one_le_maxNameLength⟩ :=
    field_of_lookup rfl (positive_int settings.one_le_maxNameLength) _
  -- every field is there, so no default is taken and no check fails
  rw [ofMembers, hsource, hmanifest, hdependency, hbackup, hstyle, hverbose, hauthor, hlength]
  rfl

/-! ## Documents -/

theorem isKept_toJson (settings : Settings) : Json.IsKept dialect 0 settings.toJson := by
  refine .object (fun limit hlimit => ?_) ?_ fun member hmember => ?_
  · obtain rfl := Option.some.inj hlimit
    decide
  · simp only [members, List.map_cons, List.map_nil]
    decide
  · simp only [members, List.mem_cons, List.not_mem_nil, or_false] at hmember
    rcases hmember with rfl | rfl | rfl | rfl | rfl | rfl | rfl | rfl
    all_goals constructor

/-- The content of a settings file is read as the settings that it was written for. -/
theorem ofBytes_toBytes (settings : Settings) : ofBytes settings.toBytes = .ok settings := by
  have hkept := isKept_toJson settings
  have hreturn : '\r' ∉ settings.toText := hkept.return_notMem_print 0
  rw [ofBytes, toBytes, Utf8.decode_encode]
  simp only [Text.unifyLineBreaks_of_notMem hreturn]
  rw [ofText, toText, hkept.read_toText, toJson]
  simp only [ofMembers_members]

/-! ## Saving and loading -/

theorem yields_load (h : session.disk.readFile session.home path = .ok settings.toBytes) :
    Yields (load path) session settings := by
  have hread : Yields ((inspect fun disk home => disk.readFile home path).mapFailure Sum.inl :
      Step (Failure ⊕ Fault) Bytes) session settings.toBytes :=
    run_mapFailure_eq_ok.mpr (Yields.inspect h)
  exact hread.bind (Yields.ofResult (by rw [ofBytes_toBytes]; rfl))

/-- A file to which settings were saved has their content. -/
theorem readFile_of_save (h : (save settings path).run session = (.ok saved, after)) :
    saved = path ∧ after.disk.readFile after.home path = .ok settings.toBytes := by
  obtain ⟨⟨⟩, middle, -, hrest⟩ := run_bind_eq_ok.mp h
  obtain ⟨⟨⟩, last, hwrite, hreturn⟩ := run_bind_eq_ok.mp hrest
  obtain ⟨rfl, rfl⟩ := run_pure_eq_ok.mp hreturn
  obtain ⟨disk, hwritten, hstore⟩ := (spec_writeText path settings.toText).ok rfl hwrite
  have hdisk : last.disk = disk := congrArg Store.disk hstore
  have hhome : last.home = middle.home := congrArg Store.home hstore
  rw [hdisk, hhome]
  exact ⟨rfl, readFile_of_writeFile hwritten⟩

/-- `load` gives settings that `save` has put into a file as they were, whatever characters they have. -/
theorem load_save (h : (save settings path).run session = (.ok saved, after)) :
    saved = path ∧ (load path).run after = (.ok settings, after) :=
  ⟨(readFile_of_save h).1, yields_load (readFile_of_save h).2⟩

/-- Quotes, backslashes, both characters of a line break, other line ends and null characters come back. -/
theorem load_save_escaped :
    let settings : Settings := { Settings.default with
      sourceDir := ['"', '\\', '\r', '\n', '/'], manifestName := "a\tb\u2028", frameworkDependency := []
      backupDir := ['\x00', '\x0b', '\x1f', '\x7f', '\uFEFF'], registryStyle := .legacy, verbose := true
      maxNameLength := 2 ^ 63 - 1, one_le_maxNameLength := by decide }
    let path := Path.ofText "kept/settings.json"
    ∃ saved after, (save settings path).run (.start .empty [] ⟨2026, 1, 15, 10, 30, 0, 0⟩ false .none)
        = (.ok saved, after) ∧
      saved = path ∧ (load path).run after = (.ok settings, after) := by
  intro settings path
  have hsave : ((save settings path).run (.start .empty [] ⟨2026, 1, 15, 10, 30, 0, 0⟩ false .none)).1
      = .ok path := by
    -- saving succeeds whatever the settings are, so they need not be computed
    generalize settings = settings
    rfl
  cases hrun : (save settings path).run (.start .empty [] ⟨2026, 1, 15, 10, 30, 0, 0⟩ false .none) with
  | mk result after =>
    rw [hrun] at hsave
    obtain rfl : result = .ok path := hsave
    exact ⟨path, after, rfl, load_save hrun⟩

end ComponentKit.Settings
