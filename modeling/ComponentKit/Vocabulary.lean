import ComponentKit.Text.Quoted

/-!
# Words from a list

Some fields take one of a few words. `lookUpWord` reports a word that is not on the list with the name of the list,
as an `UnknownWord`.
-/

namespace ComponentKit

/-- A word that is not on its list. -/
structure UnknownWord where
  /-- The word. -/
  word : Text
  /-- The name of the list. -/
  list : Text
  deriving DecidableEq, Repr

/-- The message for an unknown word. -/
def UnknownWord.message (fault : UnknownWord) : Text :=
  Text.concat [Text.quoted fault.word, " is not a valid ", fault.list]

/-- What a word stands for, if it is on the list. -/
def lookUpWord {α : Type} (list : Text) (find : Text → Option α) (word : Text) :
    Except UnknownWord α :=
  match find word with
  | some value => .ok value
  | none => .error ⟨word, list⟩

end ComponentKit
