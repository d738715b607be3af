import ComponentKit.Proofs.Disk.Names
import ComponentKit.Proofs.Disk.Way

/-!
# Fresh directories

The loop of `makeFreshDirectory` has no bound of its own. It ends because different numbers are written in
different figures: the numbered candidates are different entries of one directory, and a disk has only so many
entries. What it ends with is the first candidate under which nothing stands (`FirstFree`).
-/

namespace ComponentKit

namespace Path

variable {text : Text}

/-! ## Paths with a number -/

theorem append_child (base tail : Path) (name : Text) :
    base.append (tail.child name) = (base.append tail).child name := by
  by_cases h : tail.start = .relative
  · simp [append, child, h]
  · simp [append, child, h]

/-- A path starts at the working directory unless its text starts with a slash. -/
theorem start_ofText_eq_relative_iff : (ofText text).start = .relative ↔ text.head? ≠ some '/' := by
  cases text with
  | nil => simp [ofText]
  | cons c text =>
    by_cases hc : c = '/'
    · subst hc
      simp only [ofText, List.head?_cons, ne_eq, not_true_eq_false, iff_false]
      split <;> simp_all
    · simp [ofText, hc]

/-- Where a path starts is told by the slashes in front of the first other character. -/
theorem start_ofText_append (name : Text) {c : Char} (hc : c ≠ '/') (rest : Text) :
    (ofText (name ++ c :: rest)).start = (ofText (name ++ [c])).start := by
  -- no more than the first three characters count
  rcases name with _ | ⟨a, _ | ⟨b, _ | ⟨d, name⟩⟩⟩
  · simp [ofText, hc]
  · by_cases ha : a = '/' <;> simp [ofText, ha, hc]
  · by_cases ha : a = '/' <;> by_cases hb : b = '/' <;> simp [ofText, ha, hb, hc]
  · by_cases ha : a = '/' <;> by_cases hb : b = '/' <;> by_cases hd : d = '/' <;> simp [ofText, ha, hb, hd]

theorem append_hyphen_ne {name rest : Text} (h : '-' ∉ text) : name ++ '-' :: rest ≠ text := by
  rintro rfl
  simp at h

/-- What stands behind a hyphen belongs to the last name. -/
theorem segmentsOf_append_hyphen (name : Text) : ∃ front last, (∀ segment ∈ front, segment ∈ segmentsOf name) ∧
    ∀ rest, '/' ∉ rest → segmentsOf (name ++ '-' :: rest) = front ++ [last ++ '-' :: rest] := by
  obtain ⟨parts, last, hname, htail⟩ := Text.splitOn_append '/' name
  refine ⟨parts.filter fun segment => !segment.isEmpty && segment != ['.'], last, fun segment hmem => ?_,
    fun rest hrest => ?_⟩
  · rw [segmentsOf, hname, List.filter_append]
    exact List.mem_append_left _ hmem
  · have hslash : '/' ∉ '-' :: rest := by
      rw [List.mem_cons, not_or]
      exact ⟨by decide, hrest⟩
    -- the last part is neither empty nor a dot, whatever it was without the hyphen
    have hkept : (!(last ++ '-' :: rest).isEmpty && (last ++ '-' :: rest) != ['.']) = true := by
      simp [append_hyphen_ne]
    rw [segmentsOf, htail _ hslash, List.filter_append, List.filter_singleton, hkept]
    rfl

/-- Whether a path leads down from where it starts, to a place other than that. -/
structure Descends (path : Path) : Prop where
  /-- It leads on from the path in front of it. -/
  relative : path.start = .relative
  /-- It has a name. -/
  ne_nil : path.segments ≠ []
  /-- It never leads back up. -/
  noParent : parentStep ∉ path.segments

end Path

namespace Disk

open Project (waypoints)

variable {disk made : Disk} {home : Location} {root path blocked : Path} {name : Text} {k : Nat}
  {result : Except Fault Path × Disk}

/-! ## Candidates -/

theorem numberedName_of_ne_zero (hk : k ≠ 0) (name : Text) :
    numberedName name k = name ++ '-' :: Text.ofNat k :=
  if_neg hk

/-- Names with different numbers are read as different names in one directory. -/
theorem ofText_numberedName (name : Text) : ∃ (directory : Path) (last : Text),
    ((Path.ofText name).start = .relative → directory.start = .relative) ∧
    (∀ segment ∈ directory.segments, segment ∈ (Path.ofText name).segments) ∧
    ∀ k, k ≠ 0 → Path.ofText (numberedName name k) = directory.child (last ++ '-' :: Text.ofNat k) := by
  obtain ⟨front, last, hfront, hsegments⟩ := Path.segmentsOf_append_hyphen name
  refine ⟨⟨(Path.ofText (name ++ ['-'])).start, front⟩, last, fun hstart => ?_, hfront, fun k hk => ?_⟩
  · rw [Path.start_ofText_eq_relative_iff] at hstart ⊢
    cases name with
    | nil => decide
    | cons c name => exact hstart
  · have hslash : '/' ∉ Text.ofNat k := fun hmem => absurd (Text.isDigit_of_mem_ofNat hmem) (by decide)
    rw [numberedName_of_ne_zero hk, Path.child, ← hsegments _ hslash,
      ← Path.start_ofText_append name (by decide) (Text.ofNat k)]
    rfl

theorem candidate_eq (root : Path) (name : Text) : ∃ (directory : Path) (last : Text),
    ∀ k, k ≠ 0 → candidate root name k = directory.child (last ++ '-' :: Text.ofNat k) := by
  obtain ⟨directory, last, -, -, hname⟩ := ofText_numberedName name
  refine ⟨root.append directory, last, fun k hk => ?_⟩
  rw [candidate, Path.join, hname k hk, Path.append_child]

/-- A name that leads down does so with every number. -/
theorem descends_numberedName (h : (Path.ofText name).Descends) (k : Nat) :
    (Path.ofText (numberedName name k)).Descends := by
  by_cases hk : k = 0
  · rw [numberedName, if_pos hk]
    exact h
  · obtain ⟨directory, last, hstart, hsegments, hname⟩ := ofText_numberedName name
    rw [hname k hk]
    refine ⟨hstart h.relative, by simp [Path.child], fun hmem => ?_⟩
    rcases List.mem_append.mp hmem with hfront | hlast
    · exact h.noParent (hsegments _ hfront)
    · exact Path.append_hyphen_ne (by decide) (List.mem_singleton.mp hlast).symm

/-! ## Taken candidates -/

theorem walk_ne_alreadyExists (disk : Disk) (place : Location) (segments : List Text) :
    disk.walk place segments ≠ .error .alreadyExists := by
  induction segments generalizing place with
  | nil => simp
  | cons segment segments ih =>
    rw [walk]
    split
    · simp
    · simp
    · split
      · exact ih _
      · split
        · simp
        · exact ih _

theorem locate_ne_alreadyExists (disk : Disk) (home : Location) (path blocked : Path) :
    disk.locate home path ≠ .error (.blocked .alreadyExists blocked) := by
  intro h
  rw [locate] at h
  split at h
  · cases h
  split at h
  · cases h
  split at h
  · cases h
  · rename_i hwalk
    cases h
    exact walk_ne_alreadyExists disk _ _ hwalk

/-- That something is there already is said of paths that lead to something, and only of those. -/
theorem makeDirectory_alreadyExists_iff :
    disk.makeDirectory home path = .error (.blocked .alreadyExists blocked) ↔
      blocked = path ∧ disk.pathExists home path = .ok true := by
  rw [pathExists_eq_ok_true, makeDirectory]
  cases hlocate : disk.locate home path with
  | error fault =>
    have hne : fault ≠ .blocked .alreadyExists blocked := by
      rintro rfl
      exact locate_ne_alreadyExists disk home path blocked hlocate
    simp [bind, Except.bind, hne]
  | ok place =>
    cases hentry : disk.entryAt? place <;>
      simp [hentry, bind, Except.bind, pure, Except.pure, throw, throwThe, MonadExceptOf.throw, eq_comm]

theorem isTaken_iff : disk.isTaken home path = true ↔ disk.pathExists home path = .ok true := by
  rw [isTaken]
  split
  · rename_i blocked hmake
    simp [(makeDirectory_alreadyExists_iff.mp hmake).2]
  · rename_i hmake
    simp only [Bool.false_eq_true, false_iff]
    exact fun hexists => hmake _ (makeDirectory_alreadyExists_iff.mpr ⟨rfl, hexists⟩)

/-- What is found under a name stands in the directory in front of it. -/
theorem entryAt?_of_pathExists_child (hname : name ≠ Path.parentStep)
    (h : disk.pathExists home (path.child name) = .ok true) :
    ∃ place, disk.locate home path = .ok place ∧ disk.entryAt? (place ++ [name]) ≠ none := by
  obtain ⟨found, entry, hlocate, hentry⟩ := pathExists_eq_ok_true.mp h
  obtain ⟨place, hplace, -, rfl⟩ := locate_child_eq_ok hlocate
  rw [Path.step_of_ne hname] at hentry
  exact ⟨place, hplace, by rw [hentry]; simp⟩

/-- Something stands at no more places than the disk has entries. -/
theorem length_le_entries {places : List Location} (hdistinct : places.Nodup)
    (hthere : ∀ place ∈ places, place ≠ [] ∧ disk.entryAt? place ≠ none) :
    places.length ≤ disk.entries.length := by
  have hentries : places ⊆ disk.entries.map (·.1) := fun place hplace =>
    (entryAt?_ne_none_iff (hthere place hplace).1).mp (hthere place hplace).2
  have hlength := (List.subperm_of_subset hdistinct hentries).length_le
  rwa [List.length_map] at hlength

/-- Of one candidate more than there are entries, besides the name itself, one is not taken. -/
theorem exists_not_isTaken (disk : Disk) (home : Location) (root : Path) (name : Text) :
    ∃ k < disk.entries.length + 2, disk.isTaken home (candidate root name k) = false := by
  by_contra hall
  obtain ⟨directory, last, hcandidate⟩ := candidate_eq root name
  have htaken : ∀ k < disk.entries.length + 1, ∃ place, disk.locate home directory = .ok place ∧
      disk.entryAt? (place ++ [last ++ '-' :: Text.ofNat (k + 1)]) ≠ none := by
    intro k hk
    have hcandidateTaken : disk.isTaken home (candidate root name (k + 1)) = true := by
      by_contra hfree
      exact hall ⟨k + 1, by omega, by simpa using hfree⟩
    rw [isTaken_iff, hcandidate _ (Nat.succ_ne_zero k)] at hcandidateTaken
    exact entryAt?_of_pathExists_child (Path.append_hyphen_ne (by decide)) hcandidateTaken
  obtain ⟨place, hplace, -⟩ := htaken 0 (Nat.zero_lt_succ _)
  -- all numbered candidates stand in one directory, each at a place of its own
  let places : List Location :=
    (List.range (disk.entries.length + 1)).map fun k => place ++ [last ++ '-' :: Text.ofNat (k + 1)]
  have hdistinct : places.Nodup := by
    refine List.Nodup.map (fun k k' heq => ?_) List.nodup_range
    have hnumber : Text.ofNat (k + 1) = Text.ofNat (k' + 1) := by simpa using heq
    exact Nat.succ_injective (Text.ofNat_injective hnumber)
  have hthere : ∀ q ∈ places, q ≠ [] ∧ disk.entryAt? q ≠ none := by
    intro q hq
    obtain ⟨k, hk, rfl⟩ := List.mem_map.mp hq
    obtain ⟨other, hother, hentry⟩ := htaken k (List.mem_range.mp hk)
    obtain rfl := Except.ok.inj (hother.symm.trans hplace)
    exact ⟨by simp, hentry⟩
  -- more places than entries
  have hlength := length_le_entries hdistinct hthere
  simp only [places, List.length_map, List.length_range] at hlength
  omega

/-! ## The search -/

/-- How the search goes on from the candidate with a number, and what it ends with, try by try (`tryDirectory`). -/
inductive Search (disk : Disk) (home : Location) (root : Path) (name : Text) :
    Nat → Except Fault Path × Disk → Prop where
  /-- The candidate is made. -/
  | made {k : Nat} {changed : Disk}
      (hmake : disk.makeDirectory home (candidate root name k) = .ok changed) :
      Search disk home root name k (.ok (candidate root name k), changed)
  /-- The candidate is refused, but not because something is there already. -/
  | refused {k : Nat} {fault : Fault}
      (hmake : disk.makeDirectory home (candidate root name k) = .error fault)
      (hother : ∀ blocked, fault ≠ .blocked .alreadyExists blocked) :
      Search disk home root name k (.error fault, disk)
  /-- Something is there already, and the next candidate is tried. -/
  | next {k : Nat} {blocked : Path} {result : Except Fault Path × Disk}
      (hmake : disk.makeDirectory home (candidate root name k) = .error (.blocked .alreadyExists blocked))
      (hrest : Search disk home root name (k + 1) result) :
      Search disk home root name k result

theorem search_iff_of_taken (h : disk.pathExists home (candidate root name k) = .ok true) :
    Search disk home root name k result ↔ Search disk home root name (k + 1) result := by
  have hblocked := makeDirectory_alreadyExists_iff.mpr ⟨rfl, h⟩
  constructor
  · intro hsearch
    cases hsearch with
    | made hmake =>
      rw [hblocked] at hmake
      cases hmake
    | refused hmake hother =>
      rw [hblocked] at hmake
      exact absurd (Except.error.inj hmake).symm (hother _)
    | next _ hrest => exact hrest
  · exact .next hblocked

theorem search_iff_of_free (h : disk.pathExists home (candidate root name k) ≠ .ok true) :
    Search disk home root name k result ↔ result = disk.tryDirectory home (candidate root name k) := by
  -- where nothing stands the search does not go on, so its end is that of the one attempt
  constructor
  · intro hsearch
    cases hsearch with
    | made hmake => rw [tryDirectory_of_ok hmake]
    | refused hmake _ => rw [tryDirectory_of_error hmake]
    | next hmake _ => exact absurd (makeDirectory_alreadyExists_iff.mp hmake).2 h
  · rintro rfl
    cases hmake : disk.makeDirectory home (candidate root name k) with
    | ok changed =>
      rw [tryDirectory_of_ok hmake]
      exact .made hmake
    | error fault =>
      rw [tryDirectory_of_error hmake]
      refine .refused hmake ?_
      rintro blocked rfl
      exact h (makeDirectory_alreadyExists_iff.mp hmake).2

/-- The search goes past candidates that are taken. -/
theorem search_zero_iff (h : ∀ j < k, disk.pathExists home (candidate root name j) = .ok true) :
    Search disk home root name 0 result ↔ Search disk home root name k result := by
  induction k with
  | zero => exact Iff.rfl
  | succ k ih =>
    exact (ih fun j hj => h j (Nat.lt_succ_of_lt hj)).trans (search_iff_of_taken (h k (Nat.lt_succ_self k)))

/-- A directory is tried at the first candidate where nothing stands: the bound on the numbers is not
reached. -/
theorem exists_makeFreshDirectory_eq (hroot : disk.makeDirectories home root = (.ok (), made)) (name : Text) :
    ∃ k, (∀ j < k, made.pathExists home (candidate root name j) = .ok true) ∧
      made.pathExists home (candidate root name k) ≠ .ok true ∧
      disk.makeFreshDirectory home root name = made.tryDirectory home (candidate root name k) := by
  obtain ⟨k, hk, hfree⟩ := exists_not_isTaken made home root name
  have hfound : ((List.range (made.entries.length + 2)).find? fun k =>
      !made.isTaken home (candidate root name k)).isSome = true :=
    List.find?_isSome.mpr ⟨k, List.mem_range.mpr hk, by rw [hfree]; rfl⟩
  -- the first one that is found is the least one there is
  obtain ⟨first, hfirst⟩ := Option.isSome_iff_exists.mp hfound
  obtain ⟨hnot, -, hearlier⟩ := List.find?_range_eq_some.mp hfirst
  refine ⟨first, fun j hj => isTaken_iff.mp (by simpa using hearlier j hj), fun hexists => ?_, ?_⟩
  · rw [isTaken_iff.mpr hexists] at hnot
    cases hnot
  · rw [makeFreshDirectory, hroot]
    simp only [hfirst, Option.getD_some]

/-! ## Before the root was made -/

/-- Below a root without steps to a parent there are no places on the way to it. -/
theorem resolve_append_notMem_waypoints {tail : Path} (hroot : Path.parentStep ∉ root.segments)
    (htail : tail.Descends) : (root.append tail).resolve home ∉ waypoints home root := by
  have hresolve : (root.append tail).resolve home = root.base home ++ (root.segments ++ tail.segments) := by
    rw [Path.append, if_pos htail.relative]
    refine foldl_step fun hmem => ?_
    exact (List.mem_append.mp hmem).elim hroot htail.noParent
  -- every place on the way is shorter
  have hpos := List.length_pos_iff.mpr htail.ne_nil
  intro hway
  rw [hresolve] at hway
  rcases mem_waypoints.mp hway with ⟨count, hcount, heq⟩ | ⟨count, hcount, heq⟩
  · have hlength := congrArg List.length heq
    simp only [List.length_take, List.length_append] at hlength
    omega
  · rw [foldl_step fun hmem => hroot (List.mem_of_mem_take hmem)] at heq
    have hlength := congrArg List.length heq
    simp only [List.length_take, List.length_append] at hlength
    omega

/-- Making such a root brings in nothing below it. -/
theorem pathExists_append_iff {tail : Path} (ht : IsTree disk home)
    (hadds : AddsDirectories (· ∈ waypoints home root) disk made)
    (hroot : Path.parentStep ∉ root.segments) (htail : tail.Descends) :
    made.pathExists home (root.append tail) = .ok true ↔ disk.pathExists home (root.append tail) = .ok true := by
  rw [pathExists_eq_ok_true, pathExists_eq_ok_true]
  constructor
  · rintro ⟨place, entry, hlocate, hentry⟩
    obtain rfl := locate_eq_resolve hlocate
    -- what stands there stood there before, and so did the directories around it
    have hparent : Path.parentStep ∉ (root.append tail).segments := by
      rw [Path.append, if_pos htail.relative]
      exact fun hmem => (List.mem_append.mp hmem).elim hroot htail.noParent
    have hthere : disk.entryAt? ((root.append tail).resolve home) = some entry := by
      rcases hadds ((root.append tail).resolve home) with heq | ⟨-, -, hway⟩
      · rw [← heq, hentry]
      · exact absurd hway (resolve_append_notMem_waypoints hroot htail)
    exact ⟨_, entry, locate_of_entryAt? ht (isTakeable_of_locate hlocate) hparent hthere, hthere⟩
  · rintro ⟨place, entry, hlocate, hentry⟩
    exact ⟨place, entry, locate_mono (fun q => hadds.grows.entryAt?) hlocate, hadds.grows.entryAt? hentry⟩

/-! ## What the search ends with -/

theorem tryDirectory_eq_ok {reached : Path} : (disk.tryDirectory home path).1 = .ok reached ↔
    reached = path ∧ ∃ place, disk.locate home path = .ok place ∧ disk.entryAt? place = none := by
  constructor
  · intro h
    cases hmake : disk.makeDirectory home path with
    | error fault =>
      rw [tryDirectory_of_error hmake] at h
      cases h
    | ok changed =>
      rw [tryDirectory_of_ok hmake] at h
      obtain ⟨place, hlocate, hnone, -⟩ := makeDirectory_eq_ok.mp hmake
      exact ⟨(Except.ok.inj h).symm, place, hlocate, hnone⟩
  · rintro ⟨rfl, place, hlocate, hnone⟩
    rw [tryDirectory_of_ok (makeDirectory_eq_ok.mpr ⟨place, hlocate, hnone, rfl⟩)]

theorem tryDirectory_eq_error {fault : Fault} (h : (disk.tryDirectory home path).1 = .error fault) :
    disk.makeDirectory home path = .error fault ∧ (disk.tryDirectory home path).2 = disk := by
  cases hmake : disk.makeDirectory home path with
  | ok changed =>
    rw [tryDirectory_of_ok hmake] at h
    cases h
  | error other =>
    rw [tryDirectory_of_error hmake] at h ⊢
    exact ⟨by rw [Except.error.inj h], rfl⟩

theorem addsDirectories_tryDirectory (disk : Disk) (home : Location) (path : Path) :
    AddsDirectories (fun place => ∃ reached, (disk.tryDirectory home path).1 = .ok reached ∧
      place = reached.resolve home) disk (disk.tryDirectory home path).2 := by
  cases hmake : disk.makeDirectory home path with
  | ok changed =>
    rw [tryDirectory_of_ok hmake]
    exact addsDirectories_of_makeDirectory hmake ⟨path, rfl, rfl⟩
  | error fault =>
    rw [tryDirectory_of_error hmake]
    exact .refl _ disk

theorem isDirectory_of_tryDirectory {reached : Path} (h : (disk.tryDirectory home path).1 = .ok reached) :
    (disk.tryDirectory home path).2.isDirectory home reached = .ok true := by
  obtain ⟨rfl, place, hlocate, hnone⟩ := tryDirectory_eq_ok.mp h
  have hne : place ≠ [] := by
    rintro rfl
    rw [entryAt?_nil] at hnone
    cases hnone
  rw [tryDirectory_of_ok (makeDirectory_eq_ok.mpr ⟨place, hlocate, hnone, rfl⟩)]
  have hgrows : Grows (fun _ => True) disk (disk.put place .directory) := .put _ hnone trivial
  exact isDirectory_eq_ok_true.mpr
    ⟨place, locate_mono (fun q => hgrows.entryAt?) hlocate, entryAt?_put_self disk place _ hne⟩

/-! ## The first free name -/

/-- What `makeFreshDirectory` comes to, by the number `k` of the first candidate at which nothing stands once the root
is there as in `made`. -/
structure FirstFree (disk made : Disk) (home : Location) (root : Path) (name : Text) (k : Nat)
    (result : Except Fault Path × Disk) : Prop where
  /-- The search comes to an end, and to no other one. -/
  search_iff : ∀ other, Search made home root name 0 other ↔ other = result
  /-- Something stands at every candidate with a smaller number. -/
  taken : ∀ j < k, made.pathExists home (candidate root name j) = .ok true
  /-- Nothing stands at the candidate. -/
  free : made.pathExists home (candidate root name k) ≠ .ok true
  /-- The root takes no candidate itself if it is there, or if neither it nor the name leads back up. -/
  before : disk.isDirectory home root = .ok true ∨
      (Path.parentStep ∉ root.segments ∧ (Path.ofText name).Descends) →
    ∀ j, made.pathExists home (candidate root name j) = .ok true ↔
      disk.pathExists home (candidate root name j) = .ok true
  /-- Nothing but the candidate is returned. -/
  returned : ∀ path, result.1 = .ok path → path = candidate root name k
  /-- What is returned is a directory now, and nothing stood there before the root was made. -/
  fresh : ∀ path, result.1 = .ok path →
    result.2.isDirectory home path = .ok true ∧ disk.entryAt? (path.resolve home) = none
  /-- A failure is the one of the candidate, and leaves the disk with the root. -/
  failed : ∀ fault, result.1 = .error fault →
    made.makeDirectory home (candidate root name k) = .error fault ∧ result.2 = made
  /-- A root that is there is not made again. -/
  root_there : disk.isDirectory home root = .ok true → made = disk
  /-- Nothing changes but that directories appear where nothing stood, on the way to the root and at the
  path that is returned. -/
  adds : AddsDirectories (fun place => place ∈ waypoints home root ∨
    ∃ path, result.1 = .ok path ∧ place = path.resolve home) disk result.2

/-- `makeFreshDirectory` ends with the first candidate at which nothing stands. -/
theorem makeFreshDirectory_firstFree (ht : IsTree disk home)
    (hroot : disk.makeDirectories home root = (.ok (), made)) (name : Text) :
    ∃ k, FirstFree disk made home root name k (disk.makeFreshDirectory home root name) := by
  obtain ⟨k, htaken, hfree, hresult⟩ := exists_makeFreshDirectory_eq hroot name
  have hadds := addsDirectories disk home root
  rw [hroot] at hadds
  have hkept : disk.isDirectory home root = .ok true → made = disk := fun h =>
    congrArg Prod.snd (hroot.symm.trans (makeDirectories_of_isDirectory h))
  rw [hresult]
  -- the fields that only look one lemma up are given here, the others below
  refine ⟨k, {
    search_iff := fun other => (search_zero_iff htaken).trans (search_iff_of_free hfree)
    taken := htaken
    free := hfree
    before := ?before
    returned := fun path h => (tryDirectory_eq_ok.mp h).1
    fresh := fun path h => ⟨isDirectory_of_tryDirectory h, ?fresh⟩
    failed := fun fault h => tryDirectory_eq_error h
    root_there := hkept
    adds := ?adds }⟩
  case before =>
    rintro (hdirectory | ⟨hparent, hdescends⟩) j
    · rw [hkept hdirectory]
    · exact pathExists_append_iff ht hadds hparent (descends_numberedName hdescends j)
  case fresh =>
    obtain ⟨rfl, place, hlocate, hnone⟩ := tryDirectory_eq_ok.mp h
    exact hadds.grows.entryAt?_eq_none (locate_eq_resolve hlocate ▸ hnone)
  case adds =>
    -- first the root is made, then the candidate
    exact (hadds.mono fun _ h => .inl h).trans
      ((addsDirectories_tryDirectory made home _).mono fun _ h => .inr h)

/-- A file and a directory have the first two names. -/
theorem firstFree_behind_taken :
    let disk : Disk := ⟨[(["bk"], .directory), (["bk", "day"], .file []), (["bk", "day-1"], .directory)]⟩
    IsTree disk [] ∧ disk.makeDirectories [] (Path.ofText "bk") = (.ok (), disk) ∧
      (disk.makeFreshDirectory [] (Path.ofText "bk") "day").1 = .ok (Path.ofText "bk/day-2") ∧
      ∃ k, FirstFree disk disk [] (Path.ofText "bk") "day" k
        (disk.makeFreshDirectory [] (Path.ofText "bk") "day") := by
  intro disk
  have ht : IsTree disk [] := isTree_of_entries (by decide +kernel) (by decide +kernel)
  have hroot : disk.makeDirectories [] (Path.ofText "bk") = (.ok (), disk) :=
    makeDirectories_of_isDirectory (by decide +kernel)
  exact ⟨ht, hroot, by decide +kernel, makeFreshDirectory_firstFree ht hroot "day"⟩

/-- A root that leads back up can take the name on its way. Then a number is added to the name, although
nothing stood there before. -/
theorem name_taken_by_root :
    ¬ ∀ (disk made : Disk) (home : Location) (root : Path) (name : Text), IsTree disk home →
      disk.makeDirectories home root = (.ok (), made) → disk.pathExists home (root.join name) = .ok false →
      ∀ path, (disk.makeFreshDirectory home root name).1 = .ok path → path = root.join name := by
  intro h
  have ht : IsTree Disk.empty [] := isTree_of_entries (by decide) (by decide)
  have heq := h Disk.empty _ [] (Path.ofText "bk/2026-01-15T10-30-00-123Z/..") "2026-01-15T10-30-00-123Z" ht
    rfl (by decide +kernel) (Path.ofText "bk/2026-01-15T10-30-00-123Z/../2026-01-15T10-30-00-123Z-1")
    (by decide +kernel)
  exact absurd heq (by decide +kernel)

end Disk

end ComponentKit
