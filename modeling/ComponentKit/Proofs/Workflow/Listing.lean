import ComponentKit.Proofs.Disk.Names
import ComponentKit.Proofs.Project.Recognition
import ComponentKit.Proofs.Session.Ending
import ComponentKit.Workflow.Listing

/-!
# Listings

`list` shows, for each kind with a directory, the source files in it other than the index, in strict order
(`componentsAt`). A look at a project that lists its components leaves the session as it is.
-/

namespace ComponentKit.Workflow

open Disk Project Snapshot Step

variable {disk : Disk} {session after : Session} {settings : Settings} {templates : TemplateSource}
  {path root : Path} {place : Location} {request : Request} {manifest : Json} {files others : List Text}
  {kind : Kind} {name : Text}

/-! ## Order -/

theorem notAfter_iff (first second : Text) : notAfter first second = true ↔ ¬ second < first := by
  induction first generalizing second with
  | nil => simp [notAfter]
  | cons a first ih =>
    cases second with
    | nil => simp [notAfter]
    | cons b second =>
      have hlt : a.toNat < b.toNat ↔ a < b := Iff.rfl
      rw [notAfter, Bool.or_eq_true, decide_eq_true_eq, Bool.and_eq_true, beq_iff_eq, ih, hlt,
        List.cons_lt_cons_iff]
      rcases lt_trichotomy a b with h | rfl | h
      · simp [h, h.not_gt, h.ne']
      · simp
      · simp [h, h.not_gt, h.ne']

/-- Modules are listed in order. -/
theorem pairwise_modulesOf (files : List Text) :
    (modulesOf files).Pairwise fun first second => ¬ second < first := by
  rw [modulesOf]
  refine (List.pairwise_mergeSort ?_ ?_ _).imp ?_
  · intro a b c
    rw [notAfter_iff, notAfter_iff, notAfter_iff, not_lt, not_lt, not_lt]
    exact le_trans
  · intro a b
    rw [Bool.or_eq_true, notAfter_iff, notAfter_iff, not_lt, not_lt]
    exact le_total a b
  · intro a b h
    exact (notAfter_iff a b).mp h

theorem perm_modulesOf (files : List Text) : (modulesOf files).Perm (files.filterMap moduleOfFile?) :=
  List.mergeSort_perm _ _

/-- The order of the files does not matter. -/
theorem modulesOf_congr (h : files.Perm others) : modulesOf files = modulesOf others := by
  have hperm : (modulesOf files).Perm (modulesOf others) :=
    (perm_modulesOf files).trans ((h.filterMap _).trans (perm_modulesOf others).symm)
  have hanti : ∀ a b, a ∈ modulesOf files → b ∈ modulesOf others → ¬ b < a → ¬ a < b → a = b :=
    fun a b _ _ hab hba => le_antisymm (not_lt.mp hab) (not_lt.mp hba)
  exact hperm.eq_of_pairwise hanti (pairwise_modulesOf files) (pairwise_modulesOf others)

/-- The file of a module. -/
theorem eq_of_moduleOfFile? {file module : Text} (h : moduleOfFile? file = some module) :
    file = module ++ sourceExtension := by
  rw [moduleOfFile?] at h
  split at h
  · rename_i hfile
    obtain ⟨front, rfl⟩ := List.isSuffixOf_iff_suffix.mp (Bool.and_eq_true_iff.mp hfile).1
    obtain rfl := Option.some.inj h
    rw [List.length_append, Nat.add_sub_cancel, List.take_left]
  · cases h

theorem moduleOfFile?_append {module : Text} (h : module ++ sourceExtension ≠ indexFileName) :
    moduleOfFile? (module ++ sourceExtension) = some module := by
  have hends : Text.endsWith (module ++ sourceExtension) sourceExtension = true :=
    List.isSuffixOf_iff_suffix.mpr (List.suffix_append _ _)
  rw [moduleOfFile?, hends, bne_iff_ne.mpr h, Bool.and_true, if_pos rfl, List.length_append,
    Nat.add_sub_cancel, List.take_left]

/-- Different files give different modules. -/
theorem nodup_filterMap_moduleOfFile? (h : files.Nodup) : (files.filterMap moduleOfFile?).Nodup := by
  refine List.Nodup.filterMap (fun file other module hfile hother => ?_) h
  rw [eq_of_moduleOfFile? hfile, eq_of_moduleOfFile? hother]

/-- The modules of different files are listed in strict order. -/
theorem strict_modulesOf (h : files.Nodup) : (modulesOf files).Pairwise (· < ·) := by
  have hnodup : (modulesOf files).Nodup :=
    (perm_modulesOf files).nodup_iff.mpr (nodup_filterMap_moduleOfFile? h)
  exact (pairwise_modulesOf files).imp₂ (fun _ _ hle hne => lt_of_le_of_ne (not_lt.mp hle) hne) hnodup

/-! ## The listing of a disk -/

/-- The directory of a kind. -/
def kindPlace (place : Location) (kind : Kind) : Location :=
  place ++ [kind.conventions.directory]

theorem kindPlace_injective {other : Kind} (h : kindPlace place kind = kindPlace place other) :
    kind = other := by
  have hlast := (List.cons.inj (List.append_cancel_left h)).1
  revert hlast
  cases kind <;> cases other <;> decide

/-- The modules of the kinds that have directories under a source root, as `componentsOf` gives them for a disk. -/
def componentsAt (disk : Disk) (place : Location) (kinds : List Kind) : List (Kind × List Text) :=
  kinds.filterMap fun kind =>
    if disk.entryAt? (kindPlace place kind) = some .directory then
      some (kind, modulesOf (disk.names (kindPlace place kind)))
    else none

theorem componentsAt_cons (kind : Kind) (kinds : List Kind) : componentsAt disk place (kind :: kinds)
    = if disk.entryAt? (kindPlace place kind) = some .directory then
        (kind, modulesOf (disk.names (kindPlace place kind))) :: componentsAt disk place kinds
      else componentsAt disk place kinds := by
  rw [componentsAt, List.filterMap_cons]
  by_cases h : disk.entryAt? (kindPlace place kind) = some .directory
  · simp only [if_pos h, componentsAt]
  · simp only [if_neg h, componentsAt]

theorem lookup_componentsAt (kind : Kind) (kinds : List Kind) : (componentsAt disk place kinds).lookup kind
    = if kind ∈ kinds ∧ disk.entryAt? (kindPlace place kind) = some .directory then
        some (modulesOf (disk.names (kindPlace place kind)))
      else none := by
  induction kinds with
  | nil => simp [componentsAt]
  | cons first kinds ih =>
    rw [componentsAt_cons]
    -- the first kind is the one looked up, or it is passed over
    by_cases hfirst : kind = first
    · subst hfirst
      split
      · rename_i hdir
        simp [hdir]
      · rename_i hdir
        simp [ih, hdir]
    · split
      · simp [List.lookup_cons, beq_eq_false_iff_ne.mpr hfirst, hfirst, ih]
      · simp [hfirst, ih]

/-- The components of a project are those of the kinds that have a directory. -/
theorem lookup_componentsAt_all (kind : Kind) : (componentsAt disk place Kind.all).lookup kind
    = if disk.entryAt? (kindPlace place kind) = some .directory then
        some (modulesOf (disk.names (kindPlace place kind)))
      else none := by
  have hall : kind ∈ Kind.all := by cases kind <;> decide
  rw [lookup_componentsAt]
  simp only [hall, true_and]

/-- The modules of a kind in a listing, none if the kind is missing. -/
def Listing.modules (listing : Listing) (kind : Kind) : List Text :=
  (listing.components.lookup kind).getD []

/-- The modules of a kind are those in its directory. -/
theorem modules_componentsAt {home : Location} (ht : IsTree disk home) (title : Text) (kind : Kind) :
    (Listing.mk title (componentsAt disk place Kind.all)).modules kind
      = modulesOf (disk.names (kindPlace place kind)) := by
  rw [Listing.modules, lookup_componentsAt_all]
  split
  · rfl
  · rename_i hdir
    rw [names_eq_nil ht hdir, modulesOf, List.filterMap_nil, List.mergeSort_nil, Option.getD_none]

/-- Whether a kind has a directory is seen by its path. -/
theorem isDirectory_kind {kind : Kind} (hfits : isOverlong (directory root kind) = false)
    (hroot : disk.locate session.home root = .ok place)
    (hplace : disk.entryAt? place = some .directory) :
    disk.isDirectory session.home (directory root kind)
      = .ok (decide (disk.entryAt? (kindPlace place kind) = some .directory)) := by
  rw [directory_eq] at hfits
  have hlocated := locate_child (isPlainName_directory kind) hfits hroot hplace
  rw [← directory_eq] at hlocated
  cases hentry : disk.entryAt? (kindPlace place kind) with
  | none =>
    rw [kindPlace] at hentry
    simp [Disk.isDirectory, look, hlocated, hentry, bind, Except.bind, pure, Except.pure]
  | some entry =>
    rw [kindPlace] at hentry
    cases entry <;> simp [Disk.isDirectory, look, hlocated, hentry, bind, Except.bind, pure, Except.pure]

theorem yields_componentsOf (hfits : ∀ kind, isOverlong (directory root kind) = false)
    (hroot : session.disk.locate session.home root = .ok place)
    (hplace : session.disk.entryAt? place = some .directory) (kinds : List Kind) :
    Yields (componentsOf root kinds) session (componentsAt session.disk place kinds) := by
  induction kinds with
  | nil => exact Yields.pure []
  | cons kind kinds ih =>
    rw [componentsOf]
    refine Yields.bind (Yields.inspect (isDirectory_kind (hfits kind) hroot hplace)) ?_
    -- a kind without a directory is left out of the listing
    by_cases hdir : session.disk.entryAt? (kindPlace place kind) = some .directory
    · have hread : session.disk.readDirectory session.home (directory root kind)
          = .ok (session.disk.names (kindPlace place kind)) := by
        have hshort := hfits kind
        rw [directory_eq] at hshort
        have hlocated := locate_child (isPlainName_directory kind) hshort hroot hplace
        rw [← directory_eq] at hlocated
        rw [kindPlace] at hdir
        simp [readDirectory, hlocated, hdir, kindPlace, bind, Except.bind, pure, Except.pure]
      rw [componentsAt_cons, if_pos hdir, decide_eq_true hdir, if_pos rfl]
      exact Yields.bind (Yields.inspect hread) (Yields.bind ih (Yields.pure _))
    · rw [componentsAt_cons, if_neg hdir, decide_eq_false hdir, if_neg Bool.false_ne_true]
      exact ih

/-- The components of a project are listed, and the session stays as it is. -/
theorem yields_list (h : IsProject session.disk session.home session.nesting settings path manifest)
    (hnamed : IsNamed path manifest)
    (hroot : session.disk.locate session.home (settings.sourceRoot path) = .ok place)
    (hplace : session.disk.entryAt? place = some .directory) :
    Yields (list settings path) session (some ⟨(recognized settings path session.home manifest).name,
      componentsAt session.disk place Kind.all⟩) := by
  rw [list]
  refine Yields.bind (yields_detect h hnamed) ?_
  exact Yields.bind (yields_componentsOf h.fits hroot hplace Kind.all) (Yields.pure _)

/-- Components are listed unless the manifest exhausts its reader. -/
theorem list_eq_error_iff {failure : Failure} : ((list settings path).run session).1 = .error failure ↔
    IsExhausting session.disk session.home session.nesting settings path failure := by
  have hlist : Spec (· = session.store) (list settings path) (fun _ _ => True) fun failure _ =>
      IsExhausting session.disk session.home session.nesting settings path failure := by
    rw [list]
    refine Spec.bind (spec_detect.weaken_error fun _ _ h => h.2) fun project => Spec.of_forall fun store hs => ?_
    obtain ⟨rfl, hvalid⟩ := hs
    by_cases h : project.isValid = true
    · -- a project has a source root, in which components can be looked for
      obtain ⟨hdetected, manifest, hproject, -⟩ := hvalid h
      obtain ⟨place, hplace, hdir⟩ := Disk.isDirectory_eq_ok_true.mp hproject.isDirectory
      have hfits := hproject.fits
      rw [← hdetected.sourceRoot_eq] at hplace hfits
      have hends : EndsIn session.store (componentsOf project.sourceRoot Kind.all)
          (.ok (componentsAt session.store.disk place Kind.all)) := by
        refine EndsIn.of_yields fun other hs => ?_
        rw [← hs] at hplace hdir ⊢
        exact yields_componentsOf hfits hplace hdir Kind.all
      simp only [h, Bool.not_true, Bool.false_eq_true, if_false]
      refine Spec.bind (hends.spec.weaken_ends (fun _ _ _ => trivial) fun _ _ hf => ?_) fun _ => ?_
      · cases hf.2
      · exact Spec.pure _ fun _ _ => trivial
    · simp only [h, Bool.not_false, if_true]
      exact Spec.pure _ fun _ _ => trivial
  refine ⟨fun h => hlist.run_error rfl h, fun h => ?_⟩
  have hdetect : EndsIn session.store (detect settings path) (.error failure) := endsIn_detect_of_isExhausting h
  rw [list]
  exact hdetect.error_bind.run_fst rfl

end ComponentKit.Workflow
