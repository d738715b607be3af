import ComponentKit.Path
import ComponentKit.Text.Utf8

/-!
# The disk

Files and directories, each at its location. A disk is seen through `entryAt?`, which says what stands at
a location; putting an entry changes what stands there and nothing else.
-/

namespace ComponentKit

/-- What stands at a location. -/
inductive Entry where
  /-- A regular file with its content. -/
  | file (content : Bytes)
  /-- A directory. -/
  | directory
  deriving DecidableEq, Repr

/-- The entries of a disk, each with its location. The root is a directory that is always there. -/
structure Disk where
  /-- Every file and directory below the root. -/
  entries : List (Location × Entry)
  deriving Repr

namespace Disk

/-- A disk that holds nothing. -/
def empty : Disk := ⟨[]⟩

/-- What stands at a location. -/
def entryAt? (disk : Disk) (place : Location) : Option Entry :=
  if place = [] then some .directory else disk.entries.lookup place

/-- The disk with `entry` at `place`. -/
def put (disk : Disk) (place : Location) (entry : Entry) : Disk :=
  ⟨(place, entry) :: disk.entries.filter (·.1 != place)⟩

/-- The disk without what stands at a location and below it. -/
def remove (disk : Disk) (place : Location) : Disk :=
  ⟨disk.entries.filter fun item => !place.isPrefixOf item.1⟩

/-- The names of the entries directly under a location. -/
def names (disk : Disk) (place : Location) : List Text :=
  disk.entries.filterMap fun item =>
    if item.1 ≠ [] ∧ item.1.dropLast = place then item.1.getLast? else none

/-! ## The view -/

theorem entryAt?_nil (disk : Disk) : disk.entryAt? [] = some .directory := by
  simp [entryAt?]

private theorem lookup_filter_ne {α β : Type} [BEq α] [LawfulBEq α] (a b : α) (h : b ≠ a)
    (items : List (α × β)) : (items.filter (·.1 != a)).lookup b = items.lookup b := by
  induction items with
  | nil => rfl
  | cons item items ih =>
    obtain ⟨k, v⟩ := item
    by_cases hk : k = a
    · subst hk
      simp [List.lookup_cons, ih, beq_eq_false_iff_ne.2 h]
    · by_cases hb : b = k
      · subst hb; simp [hk]
      · simp [hk, List.lookup_cons, ih, beq_eq_false_iff_ne.2 hb]

/-- What stands at a location after an entry was put there. -/
theorem entryAt?_put_self (disk : Disk) (place : Location) (entry : Entry) (h : place ≠ []) :
    (disk.put place entry).entryAt? place = some entry := by
  simp [entryAt?, put, h]

/-- Putting an entry leaves every other location alone. -/
theorem entryAt?_put_of_ne (disk : Disk) {place other : Location} (entry : Entry)
    (h : other ≠ place) : (disk.put place entry).entryAt? other = disk.entryAt? other := by
  unfold entryAt? put
  by_cases ho : other = []
  · simp [ho]
  · simp [ho, List.lookup_cons, beq_eq_false_iff_ne.2 h, lookup_filter_ne place other h]

end Disk

end ComponentKit
