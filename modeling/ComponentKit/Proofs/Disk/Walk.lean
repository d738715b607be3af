import ComponentKit.Disk.Access
import ComponentKit.Proofs.Text.Span

/-!
# Following paths on a tree

A disk `IsTree` when every entry lies in a directory. A path that `walk` can follow leads where its names say, to a
place in a directory, and it leads there on every disk that has the same directories.
-/

namespace ComponentKit

theorem Text.join_prefix (separator : Text) (parts more : List Text) :
    join separator parts <+: join separator (parts ++ more) := by
  induction parts with
  | nil => exact List.nil_prefix
  | cons part parts ih =>
    -- behind the first part a separator follows, if there are others
    cases parts with
    | nil =>
      cases more with
      | nil => exact List.prefix_rfl
      | cons next more =>
        simp only [join, List.cons_append, List.nil_append, List.intersperse_cons_cons, List.flatten_cons,
          List.intersperse_singleton, List.flatten_nil, List.append_nil]
        exact List.prefix_append _ _
    | cons next parts =>
      simp only [join, List.cons_append, List.intersperse_cons_cons, List.flatten_cons] at ih ⊢
      exact (List.prefix_append_right_inj _).mpr ((List.prefix_append_right_inj _).mpr ih)

theorem Text.join_append (separator : Text) {parts more : List Text} (hparts : parts ≠ []) (hmore : more ≠ []) :
    join separator (parts ++ more) = join separator parts ++ (separator ++ join separator more) := by
  obtain ⟨next, others, rfl⟩ := List.exists_cons_of_ne_nil hmore
  induction parts with
  | nil => exact absurd rfl hparts
  | cons part parts ih =>
    cases parts with
    | nil =>
      simp only [join, List.cons_append, List.nil_append, List.intersperse_cons_cons, List.flatten_cons,
        List.intersperse_singleton, List.flatten_nil, List.append_nil]
    | cons following parts =>
      have hrest := ih (List.cons_ne_nil _ _)
      simp only [join, List.cons_append, List.intersperse_cons_cons, List.flatten_cons] at hrest ⊢
      rw [hrest]
      simp only [List.append_assoc]

theorem Utf8.encode_append (text more : Text) : encode (text ++ more) = encode text ++ encode more :=
  List.flatMap_append

theorem Utf8.length_encode_le {text more : Text} (h : text <+: more) :
    (encode text).length ≤ (encode more).length := by
  obtain ⟨back, rfl⟩ := h
  rw [encode_append, List.length_append]
  exact Nat.le_add_right _ _

namespace Path

/-- Where one name leads from a place, be it the `parentStep`. -/
def step (place : Location) (segment : Text) : Location :=
  if segment = parentStep then place.dropLast else place ++ [segment]

/-- Where the names of a path start: the root or the working directory. -/
def base (home : Location) (path : Path) : Location :=
  if path.start = .relative then home else []

theorem step_parentStep (place : Location) : step place parentStep = place.dropLast :=
  if_pos rfl

theorem step_of_ne {segment : Text} (h : segment ≠ parentStep) (place : Location) :
    step place segment = place ++ [segment] :=
  if_neg h

theorem resolve_eq (home : Location) (path : Path) :
    path.resolve home = path.segments.foldl step (path.base home) := rfl

theorem resolve_child (home : Location) (path : Path) (name : Text) :
    (path.child name).resolve home = step (path.resolve home) name := by
  simp [resolve_eq, child, base]

theorem parent_child (path : Path) (name : Text) : (path.child name).parent = path := by
  simp [parent, child]

/-- Whether a text is one name of a path, be it a step to the parent. -/
structure IsSegment (name : Text) : Prop where
  /-- It is not taken apart. -/
  noSlash : '/' ∉ name
  /-- It does not vanish. -/
  ne_nil : name ≠ []
  /-- It is not a dot, which stays in place. -/
  ne_dot : name ≠ ['.']

/-- One name leads to an entry of a directory. -/
theorem join_eq_child (base : Path) {name : Text} (h : IsSegment name) : base.join name = base.child name := by
  have hsegments : segmentsOf name = [name] := by
    have hempty : name.isEmpty = false := by simpa using h.ne_nil
    simp [segmentsOf, Text.splitOn_eq_singleton h.noSlash, hempty, h.ne_dot]
  have htail : ofText name = ⟨.relative, [name]⟩ := by
    cases name with
    | nil => exact absurd rfl h.ne_nil
    | cons c name =>
      have hc : c ≠ '/' := by
        rintro rfl
        exact h.noSlash List.mem_cons_self
      simp only [ofText, hsegments]
      split <;> first | rfl | (rename_i heq; exact absurd (List.cons.inj heq).1 hc)
  rw [join, htail, append, if_pos rfl, child]

end Path

namespace Disk

variable {disk other : Disk} {home place reached : Location} {path : Path} {entry : Entry}

/-! ## Trees -/

/-- Every entry lies in a directory, and the working directory is one. -/
structure IsTree (disk : Disk) (home : Location) : Prop where
  /-- What stands somewhere stands in a directory. -/
  parent : ∀ {place entry}, disk.entryAt? place = some entry →
    disk.entryAt? place.dropLast = some .directory
  /-- The working directory is there. -/
  home : disk.entryAt? home = some .directory

/-- It is enough to look at the entries. -/
theorem isTree_of_entries
    (h : ∀ item ∈ disk.entries, disk.entryAt? item.1.dropLast = some .directory)
    (hhome : disk.entryAt? home = some .directory) : IsTree disk home := by
  refine ⟨fun {place entry} hentry => ?_, hhome⟩
  by_cases hroot : place = []
  · rw [hroot]
    exact entryAt?_nil disk
  · rw [entryAt?, if_neg hroot] at hentry
    obtain ⟨l₁, l₂, hentries, -⟩ := List.lookup_eq_some_iff.mp hentry
    refine h (place, entry) ?_
    rw [hentries]
    exact List.mem_append_right l₁ List.mem_cons_self

/-- Nothing stands below a place where nothing stands. -/
theorem IsTree.entryAt?_below (ht : IsTree disk home) (hnone : disk.entryAt? place = none)
    {below : Location} (hb : place <+: below) : disk.entryAt? below = none := by
  obtain ⟨names, rfl⟩ := hb
  induction names using List.reverseRecOn with
  | nil => simpa using hnone
  | append_singleton names name ih =>
    cases h : disk.entryAt? (place ++ (names ++ [name])) with
    | none => rfl
    | some entry =>
      have hparent := ht.parent h
      rw [← List.append_assoc, List.dropLast_concat, ih] at hparent
      cases hparent

/-- What stands at a place after an entry was put somewhere; the root stays what it is. -/
theorem entryAt?_put (disk : Disk) (place other : Location) (entry : Entry) :
    (disk.put place entry).entryAt? other
      = if other = place ∧ place ≠ [] then some entry else disk.entryAt? other := by
  by_cases ho : other = place
  · subst ho
    by_cases hn : other = []
    · subst hn
      simp [entryAt?_nil]
    · rw [entryAt?_put_self disk other entry hn, if_pos ⟨rfl, hn⟩]
  · rw [entryAt?_put_of_ne disk entry ho, if_neg fun h => ho h.1]

/-- An entry that is put in a directory, and not in the place of one, leaves a tree a tree. -/
theorem IsTree.put (ht : IsTree disk home) (hparent : disk.entryAt? place.dropLast = some .directory)
    (hentry : entry = .directory ∨ disk.entryAt? place ≠ some .directory) :
    IsTree (disk.put place entry) home := by
  have hkeep : ∀ q, disk.entryAt? q = some .directory →
      (disk.put place entry).entryAt? q = some .directory := by
    intro q hq
    rw [entryAt?_put]
    split
    · rename_i h
      rcases hentry with rfl | hne
      · rfl
      · exact absurd (h.1 ▸ hq) hne
    · exact hq
  -- the parent of the new entry is a directory, and those of the others stay directories
  refine ⟨fun {q e} hq => ?_, hkeep home ht.home⟩
  rw [entryAt?_put] at hq
  split at hq
  · rename_i h
    rw [h.1]
    exact hkeep _ hparent
  · exact hkeep _ (ht.parent hq)

theorem lookup_filter_fst {α β : Type} [BEq α] [LawfulBEq α] (p : α → Bool) (key : α)
    (items : List (α × β)) :
    (items.filter fun item => p item.1).lookup key = if p key then items.lookup key else none := by
  induction items with
  | nil => simp
  | cons item items ih =>
    obtain ⟨name, value⟩ := item
    -- the first item has the key, or it is passed over on both sides
    by_cases hkey : key = name
    · subst hkey
      by_cases hp : p key
      · simp [hp]
      · simp [hp, ih]
    · have hother := beq_eq_false_iff_ne.mpr hkey
      by_cases hp : p name
      · simp [hp, hother, List.lookup_cons, ih]
      · simp [hp, hother, List.lookup_cons, ih]

/-- What stands at a place after something was removed with all that stands below it. -/
theorem entryAt?_remove (disk : Disk) {place : Location} (h : place ≠ []) (other : Location) :
    (disk.remove place).entryAt? other = if place <+: other then none else disk.entryAt? other := by
  rw [entryAt?, entryAt?, remove, lookup_filter_fst fun key => !place.isPrefixOf key]
  by_cases hroot : other = []
  · subst hroot
    rw [if_pos rfl, if_pos rfl, if_neg fun hp => h (List.prefix_nil.mp hp)]
  · rw [if_neg hroot, if_neg hroot]
    by_cases hp : place <+: other
    · simp [hp]
    · simp [hp]

/-- Removing something that the working directory does not lie in leaves a tree a tree. -/
theorem IsTree.remove (ht : IsTree disk home) (h : ¬ place <+: home) :
    IsTree (disk.remove place) home := by
  have hne : place ≠ [] := by
    rintro rfl
    exact h (List.nil_prefix)
  refine ⟨fun {q e} hq => ?_, ?_⟩
  · rw [entryAt?_remove disk hne] at hq ⊢
    split at hq
    · cases hq
    · rename_i hout
      rw [if_neg fun hin => hout (hin.trans (List.dropLast_prefix q))]
      exact ht.parent hq
  · rw [entryAt?_remove disk hne, if_neg h]
    exact ht.home

/-! ## Walking -/

@[simp] theorem walk_nil (disk : Disk) (place : Location) : disk.walk place [] = .ok place := rfl

/-- A name in a directory is a step, unless it is overlong. -/
theorem walk_cons (hd : disk.entryAt? place = some .directory) (segment : Text) (rest : List Text) :
    disk.walk place (segment :: rest) =
      if segment ≠ Path.parentStep ∧ maxNameBytes < (Utf8.encode segment).length then
        .error .nameTooLong
      else disk.walk (Path.step place segment) rest := by
  rw [walk, hd]
  by_cases hp : segment = Path.parentStep
  · subst hp
    rw [Path.step_parentStep]
    simp
  · rw [Path.step_of_ne hp]
    simp only [hp, if_false, ne_eq, not_false_eq_true, true_and]

/-- A walk goes on only from a directory. -/
theorem directory_of_walk_cons {segment : Text} {rest : List Text}
    (h : disk.walk place (segment :: rest) = .ok reached) :
    disk.entryAt? place = some .directory := by
  rw [walk] at h
  split at h
  · cases h
  · cases h
  · assumption

theorem walk_cons_eq_ok {segment : Text} {rest : List Text} :
    disk.walk place (segment :: rest) = .ok reached ↔
      disk.entryAt? place = some .directory ∧
        (segment = Path.parentStep ∨ (Utf8.encode segment).length ≤ maxNameBytes) ∧
        disk.walk (Path.step place segment) rest = .ok reached := by
  -- a step needs a directory to start from and a name that is short enough
  constructor
  · intro h
    have hd := directory_of_walk_cons h
    rw [walk_cons hd] at h
    split at h
    · cases h
    · rename_i hs
      exact ⟨hd, by rwa [not_and_or, not_not, Nat.not_lt] at hs, h⟩
  · rintro ⟨hd, hs, h⟩
    rw [walk_cons hd, if_neg (by rwa [not_and_or, not_not, Nat.not_lt]), h]

theorem walk_append {front back : List Text} :
    disk.walk place (front ++ back) = .ok reached ↔
      ∃ middle, disk.walk place front = .ok middle ∧ disk.walk middle back = .ok reached := by
  induction front generalizing place with
  | nil => simp
  | cons segment front ih =>
    rw [List.cons_append, walk_cons_eq_ok, ih]
    constructor
    · rintro ⟨hd, hs, middle, hf, hb⟩
      exact ⟨middle, walk_cons_eq_ok.mpr ⟨hd, hs, hf⟩, hb⟩
    · rintro ⟨middle, hf, hb⟩
      obtain ⟨hd, hs, hf⟩ := walk_cons_eq_ok.mp hf
      exact ⟨hd, hs, middle, hf, hb⟩

theorem walk_append_of_eq_ok {middle : Location} {front : List Text} (back : List Text)
    (h : disk.walk place front = .ok middle) : disk.walk place (front ++ back) = disk.walk middle back := by
  induction front generalizing place with
  | nil => rw [List.nil_append, Except.ok.inj h]
  | cons segment front ih =>
    obtain ⟨hd, hs, hrest⟩ := walk_cons_eq_ok.mp h
    rw [List.cons_append, walk_cons hd, if_neg (by rwa [not_and_or, not_not, Nat.not_lt]), ih hrest]

/-- A walk that succeeds goes where the names say. -/
theorem walk_eq_foldl {segments : List Text} (h : disk.walk place segments = .ok reached) :
    reached = segments.foldl Path.step place := by
  induction segments generalizing place with
  | nil => exact (Except.ok.inj h).symm
  | cons segment segments ih => exact ih (walk_cons_eq_ok.mp h).2.2

/-- A walk on a tree ends in a directory. -/
theorem IsTree.walk_parent (ht : IsTree disk home) {segments : List Text}
    (hplace : disk.entryAt? place.dropLast = some .directory)
    (h : disk.walk place segments = .ok reached) :
    disk.entryAt? reached.dropLast = some .directory := by
  induction segments generalizing place with
  | nil => rwa [← Except.ok.inj h]
  | cons segment segments ih =>
    obtain ⟨hd, -, hrest⟩ := walk_cons_eq_ok.mp h
    refine ih ?_ hrest
    by_cases hp : segment = Path.parentStep
    · rw [hp, Path.step_parentStep]
      exact ht.parent (ht.parent hd)
    · rwa [Path.step_of_ne hp, List.dropLast_concat]

/-- A walk that succeeds does so on every disk that has the directories. -/
theorem walk_mono (hdir : ∀ q, disk.entryAt? q = some .directory → other.entryAt? q = some .directory)
    {segments : List Text} (h : disk.walk place segments = .ok reached) :
    other.walk place segments = .ok reached := by
  induction segments generalizing place with
  | nil => exact h
  | cons segment segments ih =>
    obtain ⟨hd, hs, hrest⟩ := walk_cons_eq_ok.mp h
    exact walk_cons_eq_ok.mpr ⟨hdir _ hd, hs, ih hrest⟩

/-! ## Locating -/

/-- Whether a path can be followed at all, whatever stands on a disk. -/
structure IsFollowable (path : Path) : Prop where
  /-- There is no null character. -/
  noNul : path.hasNul = false
  /-- There are not too many bytes. -/
  fits : isOverlong path = false

theorem locate_of_isFollowable (h : IsFollowable path) :
    disk.locate home path = match disk.walk (path.base home) path.segments with
      | .ok place => .ok place
      | .error obstacle => .error (.blocked obstacle path) := by
  rw [locate, h.noNul, h.fits]
  rfl

theorem locate_eq_ok : disk.locate home path = .ok reached ↔
    IsFollowable path ∧ disk.walk (path.base home) path.segments = .ok reached := by
  constructor
  · intro h
    have hfollow : IsFollowable path := by
      rw [locate] at h
      split at h
      · cases h
      rename_i hnul
      split at h
      · cases h
      rename_i hlong
      exact ⟨Bool.eq_false_iff.mpr hnul, Bool.eq_false_iff.mpr hlong⟩
    rw [locate_of_isFollowable hfollow] at h
    cases hwalk : disk.walk (path.base home) path.segments with
    | error obstacle =>
      rw [hwalk] at h
      cases h
    | ok place =>
      rw [hwalk] at h
      exact ⟨hfollow, congrArg _ (Except.ok.inj h)⟩
  · rintro ⟨hfollow, hwalk⟩
    rw [locate_of_isFollowable hfollow, hwalk]

theorem locate_of_hasNul (h : path.hasNul = true) : disk.locate home path = .error .nullCharacter := by
  rw [locate, if_pos h]

theorem locate_of_isOverlong (hnul : path.hasNul = false) (h : isOverlong path = true) :
    disk.locate home path = .error (.blocked .nameTooLong path) := by
  rw [locate, hnul, h]
  rfl

/-- A path without names leads to where it starts. -/
theorem locate_start (disk : Disk) (home : Location) (start : Path.Start) :
    disk.locate home ⟨start, []⟩ = .ok (Path.base home ⟨start, []⟩) := by
  refine locate_eq_ok.mpr ⟨⟨rfl, ?_⟩, rfl⟩
  cases start <;> decide

/-- A path leads where its names say. -/
theorem locate_eq_resolve (h : disk.locate home path = .ok reached) : reached = path.resolve home :=
  walk_eq_foldl (locate_eq_ok.mp h).2

/-- What a path leads to lies in a directory. -/
theorem IsTree.locate_parent (ht : IsTree disk home) (h : disk.locate home path = .ok reached) :
    disk.entryAt? reached.dropLast = some .directory := by
  refine ht.walk_parent ?_ (locate_eq_ok.mp h).2
  rw [Path.base]
  split
  · exact ht.parent ht.home
  · exact entryAt?_nil disk

theorem locate_mono (hdir : ∀ q, disk.entryAt? q = some .directory → other.entryAt? q = some .directory)
    (h : disk.locate home path = .ok reached) : other.locate home path = .ok reached :=
  locate_eq_ok.mpr ⟨(locate_eq_ok.mp h).1, walk_mono hdir (locate_eq_ok.mp h).2⟩

/-! ### Names in a directory -/

/-- A plain name can stand in a path for itself: it is a name that a disk takes, and not the `parentStep`. -/
structure IsPlainName (name : Text) : Prop where
  /-- It is not a step to the parent. -/
  ne_parentStep : name ≠ Path.parentStep
  /-- It is not too long. -/
  short : (Utf8.encode name).length ≤ maxNameBytes
  /-- It has no null character. -/
  noNul : '\x00' ∉ name

theorem IsPlainName.step {name : Text} (h : IsPlainName name) (place : Location) :
    Path.step place name = place ++ [name] :=
  Path.step_of_ne h.ne_parentStep place

theorem hasNul_child (path : Path) (name : Text) :
    (path.child name).hasNul = (path.hasNul || name.contains '\x00') := by
  simp [Path.hasNul, Path.child]

theorem hasNul_child_eq_false {name : Text} (h : path.hasNul = false) (hname : '\x00' ∉ name) :
    (path.child name).hasNul = false := by
  rw [hasNul_child, h, Bool.false_or]
  simpa using hname

/-- The beginning of a path that is not overlong is not overlong either. -/
theorem isOverlong_of_append {start : Path.Start} {front back : List Text}
    (h : isOverlong ⟨start, front ++ back⟩ = false) : isOverlong ⟨start, front⟩ = false := by
  rw [isOverlong, decide_eq_false_iff_not, Nat.not_lt] at h ⊢
  rw [Path.toText]
  split
  · exact (by decide)
  · rename_i hdot
    refine (Utf8.length_encode_le ?_).trans h
    rw [Path.toText, if_neg]
    · exact (List.prefix_append_right_inj _).mpr (Text.join_prefix _ _ _)
    · intro hboth
      simp only [Bool.and_eq_true, decide_eq_true_eq, List.isEmpty_iff, List.append_eq_nil_iff] at hdot hboth
      exact hdot ⟨hboth.1, hboth.2.1⟩

/-- In one directory the path to shorter names is overlong only if the one to longer names is. -/
theorem isOverlong_of_le {start : Path.Start} {front back more : List Text} (hback : back ≠ []) (hmore : more ≠ [])
    (hle : (Utf8.encode (Text.join "/" back)).length ≤ (Utf8.encode (Text.join "/" more)).length)
    (h : isOverlong ⟨start, front ++ more⟩ = false) : isOverlong ⟨start, front ++ back⟩ = false := by
  have hshown {tail : List Text} (htail : tail ≠ []) :
      (Path.mk start (front ++ tail)).toText = start.toText ++ Text.join "/" (front ++ tail) := by
    rw [Path.toText, if_neg]
    simp [htail]
  rw [isOverlong, decide_eq_false_iff_not, Nat.not_lt, hshown hmore] at h
  rw [isOverlong, decide_eq_false_iff_not, Nat.not_lt, hshown hback]
  refine Nat.le_trans ?_ h
  by_cases hfront : front = []
  · subst hfront
    simp only [List.nil_append, Utf8.encode_append, List.length_append]
    omega
  · rw [Text.join_append _ hfront hback, Text.join_append _ hfront hmore]
    simp only [Utf8.encode_append, List.length_append]
    omega

theorem IsFollowable.of_child {name : Text} (h : IsFollowable (path.child name)) : IsFollowable path := by
  refine ⟨?_, isOverlong_of_append h.fits⟩
  have hnul := h.noNul
  rw [hasNul_child, Bool.or_eq_false_iff] at hnul
  exact hnul.1

/-- A name is followed from where the path in front of it leads. -/
theorem locate_child_eq {name : Text} (hchild : IsFollowable (path.child name))
    (h : disk.locate home path = .ok place) :
    disk.locate home (path.child name) = match disk.walk place [name] with
      | .ok reached => .ok reached
      | .error obstacle => .error (.blocked obstacle (path.child name)) := by
  have hsegments : (path.child name).segments = path.segments ++ [name] := rfl
  have hbase : (path.child name).base home = path.base home := rfl
  rw [locate_of_isFollowable hchild, hbase, hsegments, walk_append_of_eq_ok [name] (locate_eq_ok.mp h).2]

/-- A plain name in a directory can be located, if the path to it is not overlong. -/
theorem locate_child {name : Text} (hname : IsPlainName name) (hfits : isOverlong (path.child name) = false)
    (h : disk.locate home path = .ok place) (hd : disk.entryAt? place = some .directory) :
    disk.locate home (path.child name) = .ok (place ++ [name]) := by
  have hnul := hasNul_child_eq_false (locate_eq_ok.mp h).1.noNul hname.noNul
  have hwalk : disk.walk place [name] = .ok (place ++ [name]) :=
    walk_cons_eq_ok.mpr ⟨hd, .inr hname.short, by rw [hname.step, walk_nil]⟩
  rw [locate_child_eq ⟨hnul, hfits⟩ h, hwalk]

/-- An overlong name in a directory cannot be located. -/
theorem locate_child_of_long {name : Text} (hname : name ≠ Path.parentStep)
    (hlong : maxNameBytes < (Utf8.encode name).length) (hchild : IsFollowable (path.child name))
    (h : disk.locate home path = .ok place) (hd : disk.entryAt? place = some .directory) :
    disk.locate home (path.child name) = .error (.blocked .nameTooLong (path.child name)) := by
  rw [locate_child_eq hchild h, walk_cons hd, if_pos ⟨hname, hlong⟩]

/-- What is located under a name lies in a directory of its own path. -/
theorem locate_child_eq_ok {name : Text} (h : disk.locate home (path.child name) = .ok reached) :
    ∃ middle, disk.locate home path = .ok middle ∧ disk.entryAt? middle = some .directory ∧
      reached = Path.step middle name := by
  obtain ⟨hfollow, hwalk⟩ := locate_eq_ok.mp h
  obtain ⟨middle, hm, hr⟩ := walk_append.mp hwalk
  obtain ⟨hd, -, hlast⟩ := walk_cons_eq_ok.mp hr
  exact ⟨middle, locate_eq_ok.mpr ⟨hfollow.of_child, hm⟩, hd, (Except.ok.inj hlast).symm⟩

end Disk

end ComponentKit
