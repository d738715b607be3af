import ComponentKit.Proofs.Disk.Change

/-!
# The way along a path

Where a path leads somewhere, directories stand on its way. Where no file stands on its way (`IsPassable`),
`makeDirectories` can make those that are missing, and nothing else changes (`AddsDirectories`).
-/

namespace ComponentKit.Disk

open Project (waypoints)

variable {disk before middle after changed : Disk} {home place reached : Location} {path : Path}
  {start : Path.Start} {names segments : List Text} {name : Text} {content : Bytes}
  {allowed : Location → Prop}

/-! ## Places on the way -/

theorem mem_waypoints : place ∈ waypoints home path ↔
    (∃ count ≤ (path.base home).length, (path.base home).take count = place) ∨
      ∃ count ≤ path.segments.length, (path.segments.take count).foldl Path.step (path.base home) = place := by
  simp only [waypoints, List.mem_append, List.mem_map, List.mem_range, Nat.lt_succ_iff]
  exact Iff.rfl

/-- On the way to a child are the places on the way to its directory, and where the child stands. -/
theorem mem_waypoints_child : place ∈ waypoints home (path.child name) ↔
    place ∈ waypoints home path ∨ place = (path.child name).resolve home := by
  constructor
  · intro h
    rcases mem_waypoints.mp h with hbase | ⟨count, hcount, rfl⟩
    · exact .inl (mem_waypoints.mpr (.inl hbase))
    · have hlength : (path.child name).segments.length = path.segments.length + 1 := by
        simp [Path.child]
      -- as many segments as the child has lead to the child, fewer to a place before it
      by_cases hlast : count = path.segments.length + 1
      · refine .inr ?_
        rw [List.take_of_length_le (by omega)]
        rfl
      · refine .inl (mem_waypoints.mpr (.inr ⟨count, by omega, ?_⟩))
        show _ = List.foldl Path.step (path.base home) _
        rw [Path.child, List.take_append_of_le_length (by omega)]
  · rintro (h | rfl)
    · exact waypoints_append [name] h
    · exact resolve_mem_waypoints home _

/-- A path that leads somewhere has directories on its way. -/
theorem entryAt?_of_walk (h : disk.walk place segments = .ok reached) {count : Nat}
    (hcount : count < segments.length) :
    disk.entryAt? ((segments.take count).foldl Path.step place) = some .directory := by
  induction segments generalizing place count with
  | nil => cases hcount
  | cons segment segments ih =>
    obtain ⟨hdir, -, hrest⟩ := walk_cons_eq_ok.mp h
    cases count with
    | zero => exact hdir
    | succ count => exact ih hrest (Nat.lt_of_succ_lt_succ hcount)

/-- Around a directory stand directories. -/
theorem IsTree.entryAt?_take (ht : IsTree disk home) (h : disk.entryAt? place = some .directory)
    (count : Nat) : disk.entryAt? (place.take count) = some .directory := by
  induction place using List.reverseRecOn with
  | nil =>
    rw [List.take_nil]
    exact h
  | append_singleton place name ih =>
    by_cases hall : place.length + 1 ≤ count
    · rw [List.take_of_length_le (by simpa using hall)]
      exact h
    · rw [List.take_append_of_le_length (by omega)]
      have hparent := ht.parent h
      rw [List.dropLast_concat] at hparent
      exact ih hparent

theorem IsTree.entryAt?_base (ht : IsTree disk home) (path : Path) :
    disk.entryAt? (path.base home) = some .directory := by
  rw [Path.base]
  split
  · exact ht.home
  · exact entryAt?_nil disk

theorem IsTree.entryAt?_waypoint (ht : IsTree disk home)
    (h : disk.locate home (path.child name) = .ok reached) (hq : place ∈ waypoints home path) :
    disk.entryAt? place = some .directory := by
  rcases mem_waypoints.mp hq with ⟨count, -, rfl⟩ | ⟨count, hcount, rfl⟩
  · exact ht.entryAt?_take (ht.entryAt?_base path) count
  · have hwalk := (locate_eq_ok.mp h).2
    have hlength : count < (path.child name).segments.length := by
      simp only [Path.child, List.length_append, List.length_singleton]
      omega
    have hdir := entryAt?_of_walk hwalk hlength
    rwa [Path.child, List.take_append_of_le_length hcount] at hdir

/-! ## Names -/

/-- Whether a path and its names are ones that a disk takes. -/
structure IsTakeable (path : Path) : Prop extends IsFollowable path where
  /-- No name is too long. -/
  short : ∀ segment ∈ path.segments,
    segment = Path.parentStep ∨ (Utf8.encode segment).length ≤ maxNameBytes

/-- A path that leads somewhere has names that a disk takes. -/
theorem isTakeable_of_locate (h : disk.locate home path = .ok reached) : IsTakeable path := by
  obtain ⟨hfollow, hwalk⟩ := locate_eq_ok.mp h
  refine ⟨hfollow, ?_⟩
  generalize path.base home = place at hwalk
  generalize path.segments = segments at hwalk
  induction segments generalizing place with
  | nil => exact fun segment hmem => (List.not_mem_nil hmem).elim
  | cons segment segments ih =>
    obtain ⟨-, hshort, hrest⟩ := walk_cons_eq_ok.mp hwalk
    exact List.forall_mem_cons.mpr ⟨hshort, ih _ hrest⟩

theorem IsTakeable.of_child (h : IsTakeable (path.child name)) : IsTakeable path :=
  ⟨h.toIsFollowable.of_child, fun segment hmem => h.short segment (List.mem_append_left _ hmem)⟩

/-- What a disk takes can be located in a directory. -/
theorem locate_child_of_isTakeable (hnames : IsTakeable (path.child name))
    (hloc : disk.locate home path = .ok place) (hdir : disk.entryAt? place = some .directory) :
    disk.locate home (path.child name) = .ok (Path.step place name) :=
  locate_eq_ok.mpr ⟨hnames.toIsFollowable, walk_append.mpr ⟨place, (locate_eq_ok.mp hloc).2,
    walk_cons_eq_ok.mpr ⟨hdir, hnames.short name (List.mem_append_right _ List.mem_cons_self), rfl⟩⟩⟩

/-- A walk through directories goes where the names say. -/
theorem walk_of_directories
    (hshort : ∀ segment ∈ segments, segment = Path.parentStep ∨ (Utf8.encode segment).length ≤ maxNameBytes)
    (hdir : ∀ count < segments.length,
      disk.entryAt? ((segments.take count).foldl Path.step place) = some .directory) :
    disk.walk place segments = .ok (segments.foldl Path.step place) := by
  induction segments generalizing place with
  | nil => rfl
  | cons segment segments ih =>
    obtain ⟨hsegment, hsegments⟩ := List.forall_mem_cons.mp hshort
    exact walk_cons_eq_ok.mpr ⟨hdir 0 (Nat.zero_lt_succ _), hsegment,
      ih hsegments fun count hcount => hdir (count + 1) (Nat.succ_lt_succ hcount)⟩

theorem foldl_step (h : Path.parentStep ∉ segments) : segments.foldl Path.step place = place ++ segments := by
  induction segments generalizing place with
  | nil => exact (List.append_nil place).symm
  | cons segment segments ih =>
    rw [List.mem_cons, not_or] at h
    rw [List.foldl_cons, ih h.2, Path.step_of_ne (Ne.symm h.1), List.append_assoc]
    rfl

/-- Without steps to a parent a path leads to everything that it names. -/
theorem locate_of_entryAt? {entry : Entry} (ht : IsTree disk home) (hnames : IsTakeable path)
    (hparent : Path.parentStep ∉ path.segments) (h : disk.entryAt? (path.resolve home) = some entry) :
    disk.locate home path = .ok (path.resolve home) := by
  have hresolve : path.resolve home = path.base home ++ path.segments := foldl_step hparent
  refine locate_eq_ok.mpr ⟨hnames.toIsFollowable, ?_⟩
  rw [Path.resolve_eq]
  refine walk_of_directories hnames.short fun count hcount => ?_
  -- what is named in front of the last name are directories around the entry
  have htake := ht.entryAt?_take (ht.parent h) ((path.base home).length + count)
  rw [hresolve, List.dropLast_append_of_ne_nil (List.ne_nil_of_length_pos (Nat.zero_lt_of_lt hcount)),
    List.take_append, List.take_of_length_le (Nat.le_add_right _ _), Nat.add_sub_cancel_left,
    List.dropLast_eq_take, List.take_take, Nat.min_eq_left (by omega)] at htake
  rw [foldl_step fun hmem => hparent (List.mem_of_mem_take hmem)]
  exact htake

theorem isDirectory_of_entryAt? (ht : IsTree disk home) (hnames : IsTakeable path)
    (hparent : Path.parentStep ∉ path.segments)
    (hdir : disk.entryAt? (path.resolve home) = some .directory) :
    disk.isDirectory home path = .ok true :=
  isDirectory_eq_ok_true.mpr ⟨_, locate_of_entryAt? ht hnames hparent hdir, hdir⟩

/-! ## New directories -/

/-- What changes are places where nothing stood, all of them ones that `allowed` holds of, and directories now. -/
def AddsDirectories (allowed : Location → Prop) (before after : Disk) : Prop :=
  ∀ place, after.entryAt? place = before.entryAt? place ∨
    (before.entryAt? place = none ∧ after.entryAt? place = some .directory ∧ allowed place)

namespace AddsDirectories

theorem refl (allowed : Location → Prop) (disk : Disk) : AddsDirectories allowed disk disk :=
  fun _ => .inl rfl

theorem trans (h₁ : AddsDirectories allowed before middle) (h₂ : AddsDirectories allowed middle after) :
    AddsDirectories allowed before after := by
  intro place
  rcases h₂ place with heq | ⟨hnone, hdir, hallowed⟩
  · rw [heq]
    exact h₁ place
  · rcases h₁ place with heq | ⟨-, hthere, -⟩
    · exact .inr ⟨by rw [← heq, hnone], hdir, hallowed⟩
    · rw [hnone] at hthere
      cases hthere

theorem mono {more : Location → Prop} (h : AddsDirectories allowed before after)
    (hmore : ∀ place, allowed place → more place) : AddsDirectories more before after :=
  fun place => (h place).imp_right fun h => ⟨h.1, h.2.1, hmore place h.2.2⟩

theorem grows (h : AddsDirectories allowed before after) : Grows allowed before after :=
  fun place => (h place).imp_right fun h => ⟨h.1, h.2.2⟩

/-- A file that is there was there before. -/
theorem file (h : AddsDirectories allowed before after)
    (hfile : after.entryAt? place = some (.file content)) :
    before.entryAt? place = some (.file content) := by
  rcases h place with heq | ⟨-, hdir, -⟩
  · rw [← heq, hfile]
  · rw [hfile] at hdir
    cases hdir

end AddsDirectories

/-- One new directory. -/
theorem addsDirectories_of_makeDirectory (h : disk.makeDirectory home path = .ok changed)
    (hallowed : allowed (path.resolve home)) : AddsDirectories allowed disk changed := by
  obtain ⟨place, hloc, hnone, rfl⟩ := makeDirectory_eq_ok.mp h
  obtain rfl := locate_eq_resolve hloc
  intro q
  rw [entryAt?_put]
  split
  · rename_i hq
    exact .inr ⟨hq.1 ▸ hnone, rfl, hq.1 ▸ hallowed⟩
  · exact .inl rfl

theorem addsDirectories_settle (hall : path.resolve home ∈ waypoints home path) :
    AddsDirectories (· ∈ waypoints home path) disk
      (settle disk home path (disk.makeDirectory home path)).2 := by
  cases h : disk.makeDirectory home path with
  | ok changed => exact addsDirectories_of_makeDirectory h hall
  | error fault =>
    unfold settle
    dsimp only
    split
    · exact .refl _ disk
    · exact .refl _ disk

theorem addsDirectories_up (start : Path.Start) (names : List Text) (disk : Disk) :
    AddsDirectories (· ∈ waypoints home ⟨start, names.reverse⟩) disk
      (makeDirectoriesUp home start names disk).2 := by
  -- on the names: at each level one directory at most is added
  induction names generalizing disk with
  | nil => exact addsDirectories_settle (resolve_mem_waypoints home _)
  | cons name outer ih =>
    rw [makeDirectoriesUp]
    split
    · have hway : ∀ q, q ∈ waypoints home ⟨start, outer.reverse⟩ →
          q ∈ waypoints home ⟨start, (name :: outer).reverse⟩ := by
        intro q hq
        rw [List.reverse_cons]
        exact waypoints_append [name] hq
      have houter := (ih disk).mono hway
      split
      · rename_i hup
        rw [hup] at houter
        exact houter
      · rename_i hup
        rw [hup] at houter
        exact houter.trans (addsDirectories_settle (resolve_mem_waypoints home _))
    · exact addsDirectories_settle (resolve_mem_waypoints home _)

/-- Making directories along a path adds directories on its way and nothing else. -/
theorem addsDirectories (disk : Disk) (home : Location) (path : Path) :
    AddsDirectories (· ∈ waypoints home path) disk (disk.makeDirectories home path).2 := by
  have h : AddsDirectories (· ∈ waypoints home ⟨path.start, path.segments.reverse.reverse⟩) disk
      (makeDirectoriesUp home path.start path.segments.reverse disk).2 :=
    addsDirectories_up path.start path.segments.reverse disk
  rwa [List.reverse_reverse] at h

/-! ## Ways without files -/

/-- Whether no file stands on the way along a path, at none of its `waypoints`. -/
def IsPassable (disk : Disk) (home : Location) (path : Path) : Prop :=
  ∀ q ∈ waypoints home path, ∀ content, disk.entryAt? q ≠ some (.file content)

/-- On a way without files only a missing directory can stop a walk. -/
theorem walk_of_forall
    (hshort : ∀ segment ∈ segments, segment = Path.parentStep ∨ (Utf8.encode segment).length ≤ maxNameBytes)
    (hfree : ∀ count < segments.length, ∀ content,
      disk.entryAt? ((segments.take count).foldl Path.step place) ≠ some (.file content)) :
    (∃ reached, disk.walk place segments = .ok reached) ∨ disk.walk place segments = .error .notFound := by
  -- on the segments, with the place that is reached so far
  induction segments generalizing place with
  | nil => exact .inl ⟨place, rfl⟩
  | cons segment segments ih =>
    obtain ⟨hsegment, hsegments⟩ := List.forall_mem_cons.mp hshort
    cases hentry : disk.entryAt? place with
    | none =>
      rw [walk, hentry]
      exact .inr rfl
    | some entry =>
      cases entry with
      | file content => exact absurd hentry (hfree 0 (Nat.zero_lt_succ _) content)
      | directory =>
        have hwalk : disk.walk place (segment :: segments)
            = disk.walk (Path.step place segment) segments := by
          rw [walk, hentry, Path.step]
          by_cases hparent : segment = Path.parentStep
          · simp only [hparent, if_true]
          · simp only [hparent, if_false, Nat.not_lt.mpr (hsegment.resolve_left hparent)]
        rw [hwalk]
        exact ih hsegments fun count hcount => hfree (count + 1) (Nat.succ_lt_succ hcount)

theorem locate_of_isPassable (hnames : IsTakeable path) (hpass : IsPassable disk home path) :
    (∃ reached, disk.locate home path = .ok reached) ∨
      disk.locate home path = .error (.blocked .notFound path) := by
  have hwalk : (∃ reached, disk.walk (path.base home) path.segments = .ok reached) ∨
      disk.walk (path.base home) path.segments = .error .notFound :=
    walk_of_forall hnames.short fun count hcount =>
      hpass _ (mem_waypoints.mpr (.inr ⟨count, Nat.le_of_lt hcount, rfl⟩))
  rcases hwalk with ⟨reached, hwalk⟩ | hwalk
  · exact .inl ⟨reached, locate_eq_ok.mpr ⟨hnames.toIsFollowable, hwalk⟩⟩
  · refine .inr ?_
    rw [locate_of_isFollowable hnames.toIsFollowable, hwalk]

/-- A directory in one that is there is made, unless a file stands there. -/
theorem settle_eq_ok (hloc : disk.locate home path = .ok place)
    (hfree : ∀ content, disk.entryAt? place ≠ some (.file content)) :
    (settle disk home path (disk.makeDirectory home path)).1 = .ok () := by
  -- a free place gets the directory, and a directory that is there will do
  cases hentry : disk.entryAt? place with
  | none =>
    rw [makeDirectory_eq_ok.mpr ⟨place, hloc, hentry, rfl⟩]
    rfl
  | some entry =>
    cases entry with
    | file content => exact absurd hentry (hfree content)
    | directory =>
      have hexists : disk.makeDirectory home path = .error (.blocked .alreadyExists path) := by
        simp [makeDirectory, hloc, hentry, bind, Except.bind, throw, throwThe, MonadExceptOf.throw]
      rw [hexists]
      simp only [settle, isDirectory_eq_ok_true.mpr ⟨place, hloc, hentry⟩]

/-- Where nothing is missing on the way, making a directory does not fail for that. -/
theorem makeDirectory_ne_notFound (hloc : disk.locate home path = .ok place) (blocked : Path) :
    disk.makeDirectory home path ≠ .error (.blocked .notFound blocked) := by
  intro h
  cases hentry : disk.entryAt? place <;>
    simp [makeDirectory, hloc, hentry, bind, Except.bind, throw, throwThe, MonadExceptOf.throw,
      pure, Except.pure] at h

theorem makeDirectoriesUp_eq_ok (ht : IsTree disk home) (hnames : IsTakeable ⟨start, names.reverse⟩)
    (hpass : IsPassable disk home ⟨start, names.reverse⟩) :
    (makeDirectoriesUp home start names disk).1 = .ok () := by
  induction names with
  | nil =>
    refine settle_eq_ok (locate_start disk home start) fun content hfile => ?_
    rw [ht.entryAt?_base] at hfile
    cases hfile
  | cons name outer ih =>
    have hpath : (⟨start, (name :: outer).reverse⟩ : Path) = Path.child ⟨start, outer.reverse⟩ name := by
      simp [Path.child]
    have hresolve := resolve_mem_waypoints home ⟨start, (name :: outer).reverse⟩
    rw [makeDirectoriesUp]
    -- the directory around is there, or it is missing and is made first
    rcases locate_of_isPassable hnames hpass with ⟨reached, hloc⟩ | hmissing
    · split
      · rename_i blocked hmake
        exact absurd hmake (makeDirectory_ne_notFound hloc blocked)
      · exact settle_eq_ok hloc fun content => hpass _ (locate_eq_resolve hloc ▸ hresolve) content
    · have hmake : disk.makeDirectory home ⟨start, (name :: outer).reverse⟩
          = .error (.blocked .notFound ⟨start, (name :: outer).reverse⟩) := by
        rw [makeDirectory, hmissing]
        rfl
      rw [hmake]
      have houterNames : IsTakeable ⟨start, outer.reverse⟩ := by
        rw [hpath] at hnames
        exact hnames.of_child
      have houterPass : IsPassable disk home ⟨start, outer.reverse⟩ := by
        intro q hq
        refine hpass q ?_
        rw [hpath]
        exact mem_waypoints_child.mpr (.inl hq)
      have hup := ih houterNames houterPass
      have hmade := madeDirectories_up start outer ht
      have hadds : AddsDirectories (· ∈ waypoints home ⟨start, outer.reverse⟩) disk
          (makeDirectoriesUp home start outer disk).2 := addsDirectories_up start outer disk
      cases hr : makeDirectoriesUp home start outer disk with
      | mk result changed =>
        rw [hr] at hup hmade hadds
        obtain rfl : result = .ok () := hup
        -- with the directory around it there, the last one is made as well
        obtain ⟨around, haround, hdir⟩ := isDirectory_eq_ok_true.mp (hmade.done rfl)
        have hloc : changed.locate home ⟨start, (name :: outer).reverse⟩
            = .ok (Path.step around name) := by
          rw [hpath] at hnames ⊢
          exact locate_child_of_isTakeable hnames haround hdir
        refine settle_eq_ok hloc fun content hfile => ?_
        exact hpass _ (locate_eq_resolve hloc ▸ hresolve) content (hadds.file hfile)

/-- On a way without files all directories can be made. -/
theorem makeDirectories_eq_ok (ht : IsTree disk home) (hnames : IsTakeable path)
    (hpass : IsPassable disk home path) : (disk.makeDirectories home path).1 = .ok () := by
  refine makeDirectoriesUp_eq_ok ht ?_ ?_
  · rw [List.reverse_reverse]
    exact hnames
  · rw [List.reverse_reverse]
    exact hpass

end ComponentKit.Disk
