import ComponentKit.Proofs.Name.Sign
import ComponentKit.Workflow.Request
import ComponentKit.Component.Identity

/-!
# Names of files

A name that `resolveName` gives a component has no slash, so its file is an entry of the directory of its kind.
-/

namespace ComponentKit

namespace Workflow

open Text

variable {settings : Settings} {request : Request} {name : Text}

/-- A property that all the characters have that no name may have, which can be checked for each of them. -/
theorem of_isUnsafe {p : Char → Bool} (h : ['/', '\\', '.', '\x27', '"', '\x60'].all p = true) {c : Char}
    (hc : isUnsafe c = true) : p c = true :=
  List.all_eq_true.mp h c (by simpa [isUnsafe] using hc)

/-- A name under which a component is added has no character that could lead to another directory or end a
string. -/
theorem isUnsafe_of_resolveName (h : resolveName settings request = .ok name) :
    ∀ c ∈ name, isUnsafe c = false := by
  intro c hc
  rw [resolveName] at h
  -- without validation the signs are looked for, with validation only key characters are left
  split at h
  · split at h
    · cases h
    · split at h
      · cases h
      · rename_i hsafe
        obtain rfl := Except.ok.inj h
        have hend : trimEnd (trimStart request.name) <+: trimStart request.name :=
          ⟨_, trimEnd_append_blanks _⟩
        have hmem : c ∈ request.name := (List.dropWhile_suffix _).subset (hend.subset hc)
        exact Bool.eq_false_iff.mpr fun hsign => hsafe (List.any_eq_true.mpr ⟨c, hmem, hsign⟩)
  · cases hv : Name.validate request.name request.kind settings.maxNameLength with
    | error refusal => simp [hv, Except.mapError] at h
    | ok clean =>
      rw [hv] at h
      obtain rfl := Except.ok.inj h
      obtain ⟨hplain, rfl⟩ := Name.validate_eq_ok hv
      refine Bool.eq_false_iff.mpr fun hsign => ?_
      have hnone := of_isUnsafe (p := fun c => !Name.isKeyCharacter c) (by decide) hsign
      rw [hplain.isKeyCharacter_of_mem_kebab hc] at hnone
      cases hnone

theorem isSign_of_isUnsafe {c : Char} (h : isUnsafe c = true) :
    Unicode.isSign c = true ∧ Name.isSeparator c = false := by
  have := of_isUnsafe (p := fun c => Unicode.isSign c && !Name.isSeparator c) (by decide) h
  simpa using this

/-- Such a character is in the name of a file only if the endings of files have it. -/
theorem notMem_fileName (h : resolveName settings request = .ok name) (kind : Kind) {sign : Char}
    (hsign : isUnsafe sign = true) (hending : sign ∉ kind.conventions.fileSuffix ++ sourceExtension) :
    sign ∉ Component.fileName kind name := by
  have hname : sign ∉ name := by
    intro hmem
    rw [isUnsafe_of_resolveName h sign hmem] at hsign
    cases hsign
  obtain ⟨hascii, hseparator⟩ := isSign_of_isUnsafe hsign
  rw [Component.fileName, List.append_assoc, List.mem_append, not_or]
  exact ⟨mt (Name.mem_kebab_iff hascii hseparator).mp hname, hending⟩

/-- The file of a component has no slash in its name. -/
theorem slash_notMem_fileName (h : resolveName settings request = .ok name) (kind : Kind) :
    '/' ∉ Component.fileName kind name :=
  notMem_fileName h kind (by decide) (by cases kind <;> decide)

end Workflow

end ComponentKit
