import ComponentKit.Proofs.Source.Lexeme
import ComponentKit.Proofs.Text.Occurrence
import ComponentKit.Template.Basic

/-!
# What the filters of templates achieve

Text that went through the filter for strings can stand between single quotes (`isContent_stringContent`), and text
that went through the filter for comments does not end a block comment (`not_infix_commentContent`).
-/

namespace ComponentKit.Template

open Text Source Mode

/-- Filtered text is the content of a literal. -/
theorem isContent_stringContent (text : Text) : IsContent (stringContent text) := by
  induction text with
  | nil => exact .nil
  | cons c text ih =>
    refine IsContent.append (y := stringContent text) ?_ ih
    rw [stringCharacter]
    -- the cases of the filter: two escapes, a blank for a line feed, nothing, or the character itself
    split
    · exact IsContent.nil.escape '\\'
    · split
      · exact IsContent.nil.escape '\x27'
      · split
        · exact IsContent.nil.plain (by decide) (by decide) (by decide) (by decide)
        · split
          · exact .nil
          · rename_i hback hquote hfeed hreturn
            exact IsContent.nil.plain hback hquote hfeed hreturn

/-- The filter for comments leaves the first character alone. -/
theorem head?_commentContent (text : Text) : (commentContent text).head? = text.head? := by
  induction text using commentContent.induct with
  | case1 => rfl
  | case2 rest ih => rfl
  | case3 c rest hmark ih => rw [commentContent.eq_3 c rest hmark, List.head?_cons, List.head?_cons]

/-- Filtered text has no mark that ends a block comment. -/
theorem not_infix_commentContent (text : Text) : ¬ "*/".toList <:+: commentContent text := by
  induction text using commentContent.induct with
  | case1 => simp [commentContent]
  | case2 rest ih =>
    have hspace : ' ' ∉ "*/".toList := by decide
    have hslash : ¬ "*/".toList <:+: '/' :: commentContent rest := by
      rw [List.infix_cons_iff, not_or]
      exact ⟨by simp, ih⟩
    -- the blank between star and slash belongs to no mark
    rw [commentContent, ← List.singleton_append, infix_append_cons_iff hspace, not_or]
    exact ⟨by decide, hslash⟩
  | case3 c rest hmark ih =>
    rw [commentContent.eq_3 c rest hmark, List.infix_cons_iff, not_or]
    -- a star that starts a mark would have the slash of the text behind it, and be set apart
    refine ⟨fun hstart => ?_, ih⟩
    obtain ⟨hstar, hslash⟩ := List.cons_prefix_cons.mp (show '*' :: ['/'] <+: c :: commentContent rest from hstart)
    obtain ⟨tail, htail⟩ := hslash
    have hhead := head?_commentContent rest
    rw [← htail] at hhead
    obtain ⟨rest', hrest⟩ := List.head?_eq_some_iff.mp hhead.symm
    exact hmark rest' hstar.symm hrest

end ComponentKit.Template
