import ComponentKit.Project.Detection
import ComponentKit.Project.Snapshot
import ComponentKit.Proofs.Disk.Change

/-!
# Where the files of a project stand

`indexPath`, `registryPath` and `componentPath` are two names below the source root, as no name of theirs has a
slash. What a look at such a path finds says what stands at its location.
-/

namespace ComponentKit

namespace Project

open Disk

variable {disk : Disk} {home : Location} {root : Path} {name : Text}

/-! ## Paths of two names -/

theorem directory_eq (root : Path) (kind : Kind) :
    directory root kind = root.child kind.conventions.directory := by
  refine Path.join_eq_child root ⟨?_, ?_, ?_⟩ <;> cases kind <;> decide

theorem registryPath_eq (root : Path) (kind : IndexedKind) :
    registryPath root kind = (root.child kind.toKind.conventions.directory).child indexFileName := by
  rw [registryPath, indexPath, directory_eq]
  exact Path.join_eq_child _ ⟨by decide, by decide, by decide⟩

/-- The last character of a file name is a letter. -/
theorem getLast?_fileName (kind : Kind) (name : Text) :
    (Component.fileName kind name).getLast? = some 's' := by
  rw [Component.fileName, List.getLast?_append]
  rfl

theorem fileName_ne (kind : Kind) (name : Text) {text : Text} (h : text.getLast? ≠ some 's') :
    Component.fileName kind name ≠ text := by
  rintro rfl
  exact h (getLast?_fileName kind name)

theorem componentPath_eq (root : Path) (kind : Kind) (h : '/' ∉ Component.fileName kind name) :
    componentPath root kind name
      = (root.child kind.conventions.directory).child (Component.fileName kind name) := by
  rw [componentPath, directory_eq]
  exact Path.join_eq_child _ ⟨h, fileName_ne kind name (by decide), fileName_ne kind name (by decide)⟩

theorem isPlainName_directory (kind : Kind) : IsPlainName kind.conventions.directory := by
  constructor <;> cases kind <;> decide

theorem isPlainName_indexFileName : IsPlainName indexFileName := by
  constructor <;> decide

/-- The files that every project has are its registries, besides two others. -/
theorem join_registry_mem (root : Path) (kind : IndexedKind) :
    ∃ file ∈ requiredFiles, root.join file = registryPath root kind := by
  refine ⟨Text.concat [kind.toKind.conventions.directory, "/", indexFileName], ?_, ?_⟩
  · cases kind <;> decide
  · have htail : Path.ofText (Text.concat [kind.toKind.conventions.directory, "/", indexFileName])
        = ⟨.relative, [kind.toKind.conventions.directory, indexFileName]⟩ := by
      cases kind <;> decide
    rw [registryPath_eq, Path.join, htail, Path.append, if_pos rfl]
    simp [Path.child]

/-! ## What stands at a path of two names -/

section Names

variable {directory file : Text} {place : Location}

/-- A place two names below a directory that can be located, by a path that is not overlong. -/
theorem locate_names (hd : IsPlainName directory) (hf : IsPlainName file)
    (hfits : isOverlong ((root.child directory).child file) = false)
    (hroot : disk.locate home root = .ok place) (hplace : disk.entryAt? place = some .directory)
    (hdir : disk.entryAt? (place ++ [directory]) = some .directory) :
    disk.locate home ((root.child directory).child file) = .ok (place ++ [directory] ++ [file]) :=
  locate_child hf hfits (locate_child hd (isOverlong_of_append hfits) hroot hplace) hdir

/-- A file two names below a directory is found by its path. -/
theorem isFile_names (ht : IsTree disk home) (hd : IsPlainName directory) (hf : IsPlainName file)
    (hfits : isOverlong ((root.child directory).child file) = false)
    (hroot : disk.locate home root = .ok place) (hplace : disk.entryAt? place = some .directory) :
    disk.isFile home ((root.child directory).child file) = .ok true ↔
      ∃ content, disk.entryAt? (place ++ [directory] ++ [file]) = some (.file content) := by
  rw [isFile_eq_ok_true]
  -- a look walks the two names from the place of the root, and arrives in order
  constructor
  · rintro ⟨found, content, hloc, hfile⟩
    obtain ⟨middle, hmiddle, -, rfl⟩ := locate_child_eq_ok hloc
    obtain ⟨base, hbase, -, rfl⟩ := locate_child_eq_ok hmiddle
    obtain rfl := Except.ok.inj (hbase.symm.trans hroot)
    rw [hf.step, hd.step] at hfile
    exact ⟨content, hfile⟩
  · rintro ⟨content, hfile⟩
    have hdir := ht.parent hfile
    rw [List.dropLast_concat] at hdir
    exact ⟨_, content, locate_names hd hf hfits hroot hplace hdir, hfile⟩

/-- Where a path of two names leads to nothing, nothing stands, unless the name is none that a disk
takes. -/
theorem entryAt?_of_not_pathExists (ht : IsTree disk home) (hd : IsPlainName directory)
    (hfile : file ≠ Path.parentStep) (hroot : disk.locate home root = .ok place)
    (hplace : disk.entryAt? place = some .directory)
    (h : disk.pathExists home ((root.child directory).child file) = .ok false) :
    ((root.child directory).child file).hasNul = true ∨
      disk.entryAt? (place ++ [directory] ++ [file]) = none := by
  cases hnul : ((root.child directory).child file).hasNul with
  | true => exact .inl rfl
  | false =>
    refine .inr ?_
    cases he : disk.entryAt? (place ++ [directory] ++ [file]) with
    | none => rfl
    | some entry =>
      exfalso
      have hdir := ht.parent he
      rw [List.dropLast_concat] at hdir
      -- an overlong path is a fault, and no answer
      have hfits : isOverlong ((root.child directory).child file) = false := by
        rw [Bool.eq_false_iff]
        intro hlong
        have hlook : disk.look home ((root.child directory).child file) = .error _ :=
          look_eq_error_iff.mpr ⟨locate_of_isOverlong hnul hlong, _, rfl⟩
        have herror := pathExists_eq_error_iff.mpr hlook
        rw [h] at herror
        cases herror
      have hmiddle := locate_child hd (isOverlong_of_append hfits) hroot hplace
      have hnofile : '\x00' ∉ file := by
        rw [hasNul_child, Bool.or_eq_false_iff] at hnul
        simpa using hnul.2
      -- what stands there could be looked up, unless its name is too long for that
      by_cases hshort : (Utf8.encode file).length ≤ maxNameBytes
      · have hexists := pathExists_eq_ok_true.mpr
          ⟨_, entry, locate_child ⟨hfile, hshort, hnofile⟩ hfits hmiddle hdir, he⟩
        rw [h] at hexists
        cases hexists
      · have herror := (pathExists_child_eq_error_iff hfile hmiddle).mpr
          ⟨hnofile, .inr ⟨hdir, Nat.lt_of_not_le hshort⟩, rfl⟩
        rw [h] at herror
        cases herror

end Names

/-- The directory of a kind has a shorter name than a file that every project has. -/
theorem isOverlong_directory (kind : Kind) (h : isOverlong (root.join "core/mcp-server.ts") = false) :
    isOverlong (directory root kind) = false := by
  have htail : Path.ofText "core/mcp-server.ts" = ⟨.relative, ["core", "mcp-server.ts"]⟩ := by decide
  rw [Path.join, Path.append, if_pos (by rw [htail]), htail] at h
  rw [directory_eq]
  refine isOverlong_of_le (List.cons_ne_nil _ _) (List.cons_ne_nil _ _) ?_ h
  cases kind <;> decide

/-- Whether a component is there is not known if the path to its file is overlong, or if the name of the file is and
its directory is there. -/
theorem pathExists_componentPath_eq_error_iff {kind : Kind} {fault : Fault}
    (hslash : '/' ∉ Component.fileName kind name) (hroot : disk.isDirectory home root = .ok true)
    (hdirectory : isOverlong (directory root kind) = false) :
    disk.pathExists home (componentPath root kind name) = .error fault ↔
      '\x00' ∉ Component.fileName kind name ∧
      (isOverlong (componentPath root kind name) = true ∨
        disk.isDirectory home (directory root kind) = .ok true ∧
          maxNameBytes < (Utf8.encode (Component.fileName kind name)).length) ∧
      fault = .blocked .nameTooLong (componentPath root kind name) := by
  obtain ⟨place, hlocated, hplace⟩ := isDirectory_eq_ok_true.mp hroot
  rw [directory_eq] at hdirectory
  have hdirectory := locate_child (isPlainName_directory kind) hdirectory hlocated hplace
  have hthere : disk.isDirectory home (directory root kind) = .ok true ↔
      disk.entryAt? (place ++ [kind.conventions.directory]) = some .directory := by
    rw [directory_eq, isDirectory_eq_ok_true]
    simp [hdirectory]
  rw [hthere, componentPath_eq root kind hslash]
  exact pathExists_child_eq_error_iff (fileName_ne kind name (by decide)) hdirectory

end Project

end ComponentKit
