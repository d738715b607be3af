import ComponentKit.Proofs.Disk.Change

/-!
# Names in a directory

On a disk that has every location once (`IsDistinct`), the `names` in a directory are different ones, and they are
those under which something stands there. Every change of a disk puts entries one by one, so what survives that
(`SurvivesPut`) survives every change.
-/

namespace ComponentKit.Disk

variable {disk changed : Disk} {home place : Location} {path : Path} {name : Text} {content : Bytes}
  {I : Disk → Prop}

/-! ## Locations -/

/-- Whether a disk has every location once. -/
def IsDistinct (disk : Disk) : Prop :=
  (disk.entries.map (·.1)).Nodup

instance : Decidable disk.IsDistinct :=
  inferInstanceAs (Decidable (List.Nodup _))

theorem entryAt?_ne_none_iff (h : place ≠ []) :
    disk.entryAt? place ≠ none ↔ place ∈ disk.entries.map (·.1) := by
  rw [entryAt?, if_neg h, ne_eq, List.lookup_eq_none_iff, List.mem_map]
  simp [@eq_comm _ place]

/-- The names in a directory are those under which something stands there. -/
theorem mem_names : name ∈ disk.names place ↔ disk.entryAt? (place ++ [name]) ≠ none := by
  rw [entryAt?_ne_none_iff (by simp), names, List.mem_filterMap, List.mem_map]
  refine exists_congr fun item => and_congr_right fun _ => ?_
  constructor
  · intro h
    split at h
    · rename_i hitem
      obtain ⟨front, hfront⟩ := List.getLast?_eq_some_iff.mp h
      rw [← hitem.2, hfront, List.dropLast_concat]
    · cases h
  · intro h
    rw [h, if_pos ⟨by simp, List.dropLast_concat⟩, List.getLast?_concat]

/-- Where there is no directory there are no names. -/
theorem names_eq_nil (ht : IsTree disk home) (h : disk.entryAt? place ≠ some .directory) :
    disk.names place = [] := by
  refine List.eq_nil_iff_forall_not_mem.mpr fun name hname => h ?_
  obtain ⟨entry, hentry⟩ := Option.ne_none_iff_exists'.mp (mem_names.mp hname)
  have hparent := ht.parent hentry
  rwa [List.dropLast_concat] at hparent

/-- A name stands in a directory once. -/
theorem IsDistinct.nodup_names (h : disk.IsDistinct) (place : Location) : (disk.names place).Nodup := by
  rw [IsDistinct, List.Nodup, List.pairwise_map] at h
  refine h.filterMap _ ?_
  intro item other hne name hname name' hname' heq
  subst heq
  split at hname
  · rename_i hitem
    split at hname'
    · rename_i hother
      -- directory and name together are the location, which stands on the disk once
      obtain ⟨front, hfront⟩ := List.getLast?_eq_some_iff.mp hname
      obtain ⟨front', hfront'⟩ := List.getLast?_eq_some_iff.mp hname'
      have h1 := hitem.2
      have h2 := hother.2
      rw [hfront, List.dropLast_concat] at h1
      rw [hfront', List.dropLast_concat] at h2
      exact hne (by rw [hfront, hfront', h1, h2])
    · cases hname'
  · cases hname

/-! ## Changes -/

/-- Whether a property of disks survives that an entry is put somewhere. -/
def SurvivesPut (I : Disk → Prop) : Prop :=
  ∀ disk place entry, I disk → I (disk.put place entry)

theorem survivesPut_isDistinct : SurvivesPut IsDistinct := by
  intro disk place entry h
  rw [IsDistinct, put, List.map_cons, List.nodup_cons]
  refine ⟨?_, h.sublist (List.filter_sublist.map _)⟩
  simp [List.mem_map, List.mem_filter]

namespace SurvivesPut

variable (hI : SurvivesPut I)

include hI

theorem writeFile (h : I disk) (hwrite : disk.writeFile home path content = .ok changed) : I changed := by
  obtain ⟨place, -, -, rfl⟩ := writeFile_eq_ok.mp hwrite
  exact hI disk place _ h

theorem makeDirectory (h : I disk) (hmake : disk.makeDirectory home path = .ok changed) : I changed := by
  obtain ⟨place, -, -, rfl⟩ := makeDirectory_eq_ok.mp hmake
  exact hI disk place _ h

theorem settle (h : I disk) : I (disk.settle home path (disk.makeDirectory home path)).2 := by
  cases hmake : disk.makeDirectory home path with
  | ok changed => exact hI.makeDirectory h hmake
  | error fault =>
    unfold Disk.settle
    dsimp only
    split <;> exact h

theorem makeDirectoriesUp (h : I disk) (home : Location) (start : Path.Start) (names : List Text) :
    I (makeDirectoriesUp home start names disk).2 := by
  -- on the names, outer directories first
  induction names generalizing disk with
  | nil => exact hI.settle h
  | cons name outer ih =>
    rw [Disk.makeDirectoriesUp]
    split
    · have houter := ih h
      split
      · rename_i hup
        rw [hup] at houter
        exact houter
      · rename_i hup
        rw [hup] at houter
        exact hI.settle houter
    · exact hI.settle h

theorem makeDirectories (h : I disk) (home : Location) (path : Path) : I (disk.makeDirectories home path).2 :=
  hI.makeDirectoriesUp h home path.start path.segments.reverse

theorem tryDirectory (h : I disk) (path : Path) : I (disk.tryDirectory home path).2 := by
  cases hmake : disk.makeDirectory home path with
  | ok changed =>
    rw [tryDirectory_of_ok hmake]
    exact hI.makeDirectory h hmake
  | error fault =>
    rw [tryDirectory_of_error hmake]
    exact h

theorem makeFreshDirectory (h : I disk) (home : Location) (root : Path) (name : Text) :
    I (disk.makeFreshDirectory home root name).2 := by
  have hroot := hI.makeDirectories h home root
  rw [Disk.makeFreshDirectory]
  split
  · rename_i hmake
    rw [hmake] at hroot
    exact hroot
  · rename_i hmake
    rw [hmake] at hroot
    exact hI.tryDirectory hroot _

theorem copyFile {source target : Path} (h : I disk)
    (hcopy : disk.copyFile home source target = .ok changed) : I changed := by
  obtain ⟨content, -, hwrite⟩ := bind_eq_ok.mp hcopy
  exact hI.writeFile h hwrite

end SurvivesPut

end ComponentKit.Disk
