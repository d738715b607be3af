import ComponentKit.Template.Basic

/-!
# Placeholders

The names that the templates of components use, each as a slot, from `typeSlot` to `dateSlot`. What a user may
write freely goes through the filter for the place it stands in, as in `descriptionInComment` and
`descriptionInString`.
-/

namespace ComponentKit.Component

open Template

/-- The class of the component. -/
def typeSlot : Piece := .slot (.name "type_name") []

/-- The variable that holds the component. -/
def instanceSlot : Piece := .slot (.name "instance_name") []

/-- The key of the component in its registry. -/
def keySlot : Piece := .slot (.name "registry_key") []

/-- The file of the component without its extension. -/
def moduleSlot : Piece := .slot (.name "module") []

/-- The map of its registry that holds the component. -/
def collectionSlot : Piece := .slot (.name "collection") []

/-- The project in the form of a key. -/
def projectSlot : Piece := .slot (.name "project_slug") []

/-- The day on which the component is made. -/
def dateSlot : Piece := .slot (.name "created") []

/-- The description, inside a comment. -/
def descriptionInComment : Piece := .slot (.name "description") [.commentContent]

/-- The description, inside a string. -/
def descriptionInString : Piece := .slot (.name "description") [.stringContent]

/-- The author, inside a comment. -/
def authorInComment : Piece := .slot (.name "author") [.commentContent]

/-- The project, inside a comment. -/
def projectInComment : Piece := .slot (.name "project_name") [.commentContent]

end ComponentKit.Component
