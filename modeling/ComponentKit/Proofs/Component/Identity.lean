import ComponentKit.Proofs.Name.Normal
import ComponentKit.Proofs.Registry.Export

/-!
# One normal form

The key that `validate` returns takes the place of the name: the file, the class, the variable and the key of the
component are the same, whichever of both they are made from.
-/

namespace ComponentKit

open Text

variable {name : Text}

namespace Name

theorem IsPlain.pascal_kebab (h : IsPlain name) : pascal (Name.kebab name) = pascal name := by
  rw [pascal, h.words_kebab, List.flatMap_map, pascal]
  exact List.flatMap_congr fun w hw => capitalize_lower (h w hw)

theorem IsPlain.camel_kebab (h : IsPlain name) : camel (Name.kebab name) = camel name := by
  rw [camel, h.words_kebab, camel]
  cases hwords : words name with
  | nil => rfl
  | cons first others =>
    have hplain : ∀ w ∈ first :: others, isAscii w := hwords ▸ h
    have hothers : (others.map lower).flatMap capitalize = others.flatMap capitalize := by
      rw [List.flatMap_map]
      exact List.flatMap_congr fun w hw => capitalize_lower (hplain w (List.mem_cons_of_mem first hw))
    rw [List.map_cons]
    dsimp only
    rw [hothers, lower_lower (hplain first List.mem_cons_self)]

end Name

namespace Component

open Registry

variable {raw key : Text} {kind : Kind} {maxLength : Int}

/-- What `validate` accepts of a name is a key (`IsKey`), which is short enough, its own hyphenated form, and leads to
the same file, class, variable and registry key. -/
theorem normalForm_of_validate (h : Name.validate raw kind maxLength = .ok key) :
    Name.IsKey key ∧ key.length ≤ maxLength ∧ Name.kebab key = key ∧
      fileName kind key = fileName kind raw ∧ typeName kind key = typeName kind raw ∧
      instanceName kind key = instanceName kind raw ∧ registryKey key = registryKey raw ∧
      IsClassName (typeName kind raw) := by
  have hclass := isClassName_typeName h
  have hfirst := Name.startsWithLetter_of_validate h
  obtain ⟨hplain, -⟩ := Name.validate_eq_ok h
  obtain ⟨haccepted, rfl⟩ := Name.isAccepted_of_validate h
  -- file, class, variable and key are made of the hyphenated form or of the words, which stay as they
  -- are
  have hkebab := hplain.kebab_kebab
  refine ⟨hplain.isKey_kebab hfirst, haccepted.length_kebab_le hplain, hkebab, ?_, ?_, ?_, ?_, hclass⟩
  · rw [fileName, hkebab, fileName]
  · rw [typeName, hplain.pascal_kebab, typeName]
  · rw [instanceName, hplain.camel_kebab, instanceName]
  · rw [registryKey, hkebab, registryKey]

/-- A name with blanks around it and an underscore in it. -/
theorem normalForm_weather_api :
    Name.validate " Weather_API " .tool 50 = .ok "weather-api" ∧ Name.IsKey "weather-api" ∧
      typeName .tool "weather-api" = typeName .tool " Weather_API " := by
  have hvalid : Name.validate " Weather_API " .tool 50 = .ok "weather-api" := by rfl
  obtain ⟨hkey, -, -, -, htype, -⟩ := normalForm_of_validate hvalid
  exact ⟨hvalid, hkey, htype⟩

end Component

end ComponentKit
