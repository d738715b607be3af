import ComponentKit.Proofs.Component.Content
import ComponentKit.Proofs.Workflow.Name

/-!
# The header of a component

The header comment of a component ends where its template ends it (`header_ends_behind_day`). The free text in it
has every mark that ends a comment set apart (`SetsApart`), the lines of the template keep the values from forming
such a mark with each other, and the name, which stands in the header as it is, has no slash even if it was not
checked.
-/

namespace ComponentKit

namespace Template

open Text

/-- Whether a text is another one with each mark that ends a comment set apart: both consist of the same
parts, none of which has such a mark in it. -/
def SetsApart (text safe : Text) : Prop :=
  ∃ parts, (∀ part ∈ parts, ¬ "*/".toList <:+: part) ∧ text = join "*/" parts ∧ safe = join "* /" parts

theorem join_push (separator x : Text) (c : Char) (parts : List Text) :
    join separator ((c :: x) :: parts) = c :: join separator (x :: parts) := by
  cases parts with
  | nil => simp [join]
  | cons y parts => rw [join_cons_cons, join_cons_cons, List.cons_append]

/-- The filter for comments sets the marks apart and changes nothing else. -/
theorem setsApart_commentContent (text : Text) : SetsApart text (commentContent text) := by
  -- with the first part in view, which the next character is put in front of
  have hparts : ∃ part parts, (∀ p ∈ part :: parts, ¬ "*/".toList <:+: p) ∧
      text = join "*/" (part :: parts) ∧ commentContent text = join "* /" (part :: parts) := by
    induction text using commentContent.induct with
    | case1 => exact ⟨[], [], by simp, rfl, rfl⟩
    | case2 rest ih =>
      obtain ⟨part, parts, hnone, hrest, hsafe⟩ := ih
      have hempty : ¬ "*/".toList <:+: ([] : Text) := by simp
      refine ⟨[], part :: parts, List.forall_mem_cons.mpr ⟨hempty, hnone⟩, ?_, ?_⟩
      · rw [join_cons_cons, ← hrest]
        rfl
      · rw [join_cons_cons, ← hsafe]
        rfl
    | case3 c rest hmark ih =>
      obtain ⟨part, parts, hnone, hrest, hsafe⟩ := ih
      obtain ⟨hpart, hparts⟩ := List.forall_mem_cons.mp hnone
      refine ⟨c :: part, parts, List.forall_mem_cons.mpr ⟨?_, hparts⟩, ?_, ?_⟩
      · -- a star in front of the first part is no mark, or the text had one there
        rw [List.infix_cons_iff, not_or]
        refine ⟨fun hstart => ?_, hpart⟩
        obtain ⟨rfl, hslash⟩ :=
          List.cons_prefix_cons.mp (show '*' :: ['/'] <+: c :: part from hstart)
        obtain ⟨tail, rfl⟩ := hslash
        rw [List.singleton_append, join_push] at hrest
        exact hmark _ rfl hrest
      · rw [join_push, ← hrest]
      · rw [join_push, ← hsafe, commentContent.eq_3 c rest hmark]
  obtain ⟨part, parts, hparts⟩ := hparts
  exact ⟨part :: parts, hparts⟩

end Template

namespace Component

open Text Template Workflow

variable {settings : Settings} {request : Request} {name : Text}

/-- No name under which a component is added brings a slash into its class. -/
theorem slash_notMem_typeName (h : resolveName settings request = .ok name) (kind : Kind) :
    '/' ∉ typeName kind name := by
  have hname : '/' ∉ name := by
    intro hmem
    exact absurd (isUnsafe_of_resolveName h '/' hmem) (by decide)
  have hsuffix : '/' ∉ kind.conventions.typeSuffix := by cases kind <;> decide
  rw [typeName, List.mem_append, not_or]
  exact ⟨mt (Name.mem_pascal_iff (by decide) (by decide)).mp hname, hsuffix⟩

/-- Whatever the details are, and under any name that `resolveName` accepts, with checks or without, the first mark
behind the opening one that ends a comment is the one of the template, which follows the line with the day. In front
of it the description, the project and the author stand with their own marks set apart. -/
theorem header_ends_behind_day (h : resolveName settings request = .ok name) (kind : Kind)
    (details : Details) (now : Instant) :
    ∃ description project author rest component,
      SetsApart (describe kind name details.description) description ∧
      SetsApart details.projectName project ∧ SetsApart details.author author ∧
      Template.render (context kind name details now.date) (restTemplate kind) = .ok rest ∧
      generateFrom (sourceTemplate kind) kind name details now.date = .ok component ∧
      component.content = "/*".toList
        ++ (headerContent (typeName kind name) description project author now.date ++ ("*/".toList ++ rest)) ∧
      indexOf? "*/" (component.content.drop 2)
        = some (headerContent (typeName kind name) description project author now.date).length := by
  obtain ⟨rest, component, hrest, hcomponent, hcontent⟩ := exists_component kind name details now.date
  have htype : ¬ "*/".toList <:+: typeName kind name :=
    fun hin => slash_notMem_typeName h kind (hin.subset (by decide))
  -- the star of the closing mark is taken along, so that no other mark can overlap with it
  have hheader : ¬ "*/".toList <:+: headerOf kind name details now.date ++ "*/".toList.dropLast :=
    not_infix_headerOf htype details now
  refine ⟨_, _, _, rest, component, setsApart_commentContent _, setsApart_commentContent _,
    setsApart_commentContent _, hrest, hcomponent, hcontent, ?_⟩
  rw [hcontent]
  exact indexOf?_append (by decide) hheader rest

/-- A tool whose name has a star at its end and whose details are made of stars and slashes. -/
theorem header_ends_behind_day_stars :
    resolveName Settings.default ⟨.tool, " a* b* ", [], [], true⟩ = .ok "a* b*".toList ∧
    ∃ description project author rest component,
      SetsApart "**/\n*/".toList description ∧ SetsApart "*/*/".toList project ∧ SetsApart "/".toList author ∧
      Template.render (context .tool "a* b*" ⟨"**/\n*/", "/", "*/*/"⟩
        (Instant.mk 2026 1 15 10 30 0 0).date) (restTemplate .tool) = .ok rest ∧
      generateFrom (sourceTemplate .tool) .tool "a* b*" ⟨"**/\n*/", "/", "*/*/"⟩
        (Instant.mk 2026 1 15 10 30 0 0).date = .ok component ∧
      component.content = "/*".toList ++ (headerContent "A*B*Tool" description project author
        (Instant.mk 2026 1 15 10 30 0 0).date ++ ("*/".toList ++ rest)) ∧
      indexOf? "*/" (component.content.drop 2) = some (headerContent "A*B*Tool" description project author
        (Instant.mk 2026 1 15 10 30 0 0).date).length :=
  have hname : resolveName Settings.default ⟨.tool, " a* b* ", [], [], true⟩ = .ok "a* b*".toList := by rfl
  ⟨hname, header_ends_behind_day hname .tool ⟨"**/\n*/", "/", "*/*/"⟩ ⟨2026, 1, 15, 10, 30, 0, 0⟩⟩

end Component

end ComponentKit
