import ComponentKit.Proofs.Component.Lines
import ComponentKit.Proofs.Name.Joints
import ComponentKit.Proofs.Source.Word
import ComponentKit.Proofs.Text.Blank
import ComponentKit.Proofs.Text.Span
import ComponentKit.Registry.Export

/-!
# What an index exports

The export line of a component exports its class and mentions no other capitalized identifier. An index to which
`appendExport` has put the line mentions what it mentioned before, and the class.
-/

namespace ComponentKit

open Text Source

variable {type other module : Text} {kind : Kind} {name created : Text} {details : Component.Details}

namespace Component

/-- Whether a line exports a generated component from the index of its kind, as its `wiringOf` has it. The name is
used as it was given. -/
def Exports (kind : Kind) (name line : Text) : Prop :=
  ∃ source details created component wiring,
    generateFrom source kind name details created = .ok component ∧ component.wiring = some wiring ∧
      wiring.exportLine = line

/-- The export line of a component is the one for its class and its file. -/
theorem Exports.eq_exportStatement {line : Text} (h : Exports kind name line) :
    line = exportStatement (typeName kind name) (moduleName kind name) := by
  obtain ⟨source, details, created, component, wiring, hgen, hwiring, rfl⟩ := h
  rw [generateFrom_wiring hgen] at hwiring
  obtain ⟨indexed, -, rfl⟩ := Option.map_eq_some_iff.mp hwiring
  rfl

end Component

namespace Registry

open Component

/-- The name of a class: letters and digits, the first of them a capital letter. -/
def IsClassName (type : Text) : Prop :=
  isAscii type ∧ ∃ c rest, type = c :: rest ∧ c.isUpper = true

theorem IsClassName.isIdentifier (h : IsClassName type) : IsIdentifier type := by
  obtain ⟨hascii, c, rest, rfl, -⟩ := h
  exact ⟨List.cons_ne_nil c rest, fun d hd => isIdentifierCharacter_of_isAlphanum (hascii d hd)⟩

/-- Trimming takes the spaces around a class away. -/
theorem trim_spaced (h : isAscii type) (hne : type ≠ []) : trim (' ' :: (type ++ [' '])) = type := by
  have hblank : ∀ c ∈ type, isBlank c = false := fun c hc =>
    forall_isAlphanum (p := fun c => isBlank c = false) (by decide) (h c hc)
  have hstart : trimStart (' ' :: (type ++ [' '])) = type ++ [' '] := by
    obtain ⟨c, rest, rfl⟩ := List.exists_cons_of_ne_nil hne
    rw [trimStart, List.dropWhile_cons_of_pos (by decide)]
    exact List.dropWhile_cons_of_neg (by simp [hblank c List.mem_cons_self])
  have hlast : type.getLast?.any isBlank = false := by
    rw [List.getLast?_eq_some_getLast hne]
    simpa using hblank _ (List.getLast_mem hne)
  rw [trim, hstart, trimEnd_append_of_blank hlast (by simp [isBlank])]

/-- The braces of an export line hold the class, between two spaces. -/
theorem exportedHere?_exportStatement (h : isAscii type) (hne : type ≠ []) (module : Text) :
    exportedHere? (exportStatement type module) = some type := by
  have hlead : dropLead? "export" (exportStatement type module)
      = some (" \x7b ".toList ++ (type ++ " \x7d from './".toList ++ (module ++ ".js';".toList))) := by
    rw [dropLead?_eq_some_iff]
    simp [exportStatement, concat]
  have hbrace : dropLead? "\x7b" ((" \x7b ".toList ++ (type ++ " \x7d from './".toList
        ++ (module ++ ".js';".toList))).dropWhile isBlank)
      = some ((' ' :: (type ++ [' '])) ++ '\x7d' :: (" from './".toList ++ (module ++ ".js';".toList))) := by
    rw [dropLead?_eq_some_iff]
    simp [isBlank]
  -- the class has no brace, so the braces are closed behind it
  have hinside : ∀ c ∈ ' ' :: (type ++ [' ']), (c != '\x7d') = true := by
    have hclass : '\x7d' ∉ type := not_mem_of_isAscii h (by rfl)
    intro c hc
    rw [bne_iff_ne]
    rintro rfl
    simp [hclass] at hc
  rw [exportedHere?, hlead]
  simp only [bind, Option.bind, hbrace]
  rw [takeWhile_eq_of_forall hinside (by rfl)]
  simp [trim_spaced h hne]

theorem exportedName_exportStatement (h : isAscii type) (hne : type ≠ []) (module : Text) :
    exportedName (exportStatement type module) = type := by
  have hhere := exportedHere?_exportStatement h hne module
  obtain ⟨c, rest, hline⟩ : ∃ c rest, exportStatement type module = c :: rest := ⟨'e', _, rfl⟩
  rw [hline] at hhere ⊢
  rw [exportedName, hhere]

/-- An export line mentions no class but its own. -/
theorem mentions_exportStatement (h : IsClassName other) (ht : IsClassName type)
    (hm : ∀ c ∈ module, Name.isKeyCharacter c = true) :
    mentions other (exportStatement type module) = true ↔ other = type := by
  have hother := h.isIdentifier
  obtain ⟨-, a, rest, rfl, ha⟩ := h
  have hsplit : exportStatement type module = "export \x7b".toList
      ++ ' ' :: (type ++ ' ' :: ("\x7d from './".toList ++ (module ++ ".js';".toList))) := by
    simp [exportStatement, concat]
  -- only the class has capital letters
  have hsmall : ∀ {part : Text}, part.all (!·.isUpper) = true → a ∉ part := by
    intro part hpart hmem
    simpa [ha] using List.all_eq_true.mp hpart a hmem
  have hmodule : a ∉ module := hsmall (List.all_eq_true.mpr fun c hc => by
    simpa using Name.isUpper_of_isKeyCharacter (hm c hc))
  have hfront : a ∉ "export \x7b".toList := hsmall (by rfl)
  have hback : a ∉ "\x7d from './".toList ++ (module ++ ".js';".toList) := by
    rw [List.mem_append, List.mem_append, not_or, not_or]
    exact ⟨hsmall (by rfl), hmodule, hsmall (by rfl)⟩
  have hspace : isIdentifierCharacter ' ' = false := isIdentifierCharacter_of_isBlank (by decide)
  rw [hsplit, mentions_append hother hspace, mentions_append hother hspace,
    mentions_of_head_notMem hfront, mentions_of_head_notMem hback, Bool.false_or, Bool.or_false,
    mentions_identifier _ ht.isIdentifier]

/-- An index to which an export line was appended mentions what it mentioned before, and the class. -/
theorem mentions_appendExport (h : IsClassName other) (ht : IsClassName type)
    (hm : ∀ c ∈ module, Name.isKeyCharacter c = true) (index : Text) :
    mentions other (appendExport index (exportStatement type module)) = true
      ↔ mentions other index = true ∨ other = type := by
  have hother := h.isIdentifier
  have hnone : mentions other [] = false := rfl
  -- a line break separates identifiers, also one of two characters
  have hbreak : ∀ {newline : Text} (front back : Text), IsBreak newline →
      mentions other (front ++ (newline ++ back)) = (mentions other front || mentions other back) := by
    intro newline front back hnewline
    have hfeed : isIdentifierCharacter '\n' = false := isIdentifierCharacter_of_isBlank (by decide)
    have hreturn : isIdentifierCharacter '\r' = false := isIdentifierCharacter_of_isBlank (by decide)
    rcases hnewline with rfl | rfl
    · exact mentions_append hother hfeed front back
    · have hinner := mentions_append hother hfeed [] back
      rw [List.nil_append, hnone, Bool.false_or] at hinner
      rw [List.cons_append, List.singleton_append, mentions_append hother hreturn, hinner]
  have hlast := hbreak (exportStatement type module) [] (isBreak_lineBreak index)
  rw [List.append_nil, hnone, Bool.or_false] at hlast
  rw [appendExport, List.append_assoc, List.append_assoc, hbreak _ _ (isBreak_lineBreak index), hlast,
    Bool.or_eq_true, mentions_trimEnd hother, mentions_exportStatement h ht hm]

/-- What an export line exports is in an index if the index mentions the class. -/
theorem hasExport_exportStatement (ht : IsClassName type) (index module : Text) :
    hasExport index (exportStatement type module) = mentions type index := by
  obtain ⟨hne, -⟩ := ht.isIdentifier
  have hempty : type.isEmpty = false := by simpa using hne
  simp only [hasExport, exportedName_exportStatement ht.1 hne, hempty, Bool.not_false, Bool.true_and]

end Registry

/-! ## Two components of a kind -/

namespace Component

open Registry

variable {normalized normalizedOther : Text} {maxLength maxLengthOther : Int}

/-- The class of an accepted name. -/
theorem isClassName_typeName (h : Name.validate name kind maxLength = .ok normalized) :
    IsClassName (typeName kind name) := by
  obtain ⟨hplain, -⟩ := Name.validate_eq_ok h
  obtain ⟨c, rest, others, hc, hwords⟩ := Name.startsWithLetter_of_validate h
  have hsuffix : kind.conventions.typeSuffix.all (·.isAlphanum) = true := by cases kind <;> rfl
  have hword : isAscii (c :: rest) := hplain (c :: rest) (by simp [hwords])
  have halphanum : c.isAlphanum = true := hword c List.mem_cons_self
  -- the class starts with the first letter of the first word, in upper case
  have hpascal : Name.pascal name = c.toUpper :: (lower rest ++ others.flatMap capitalize) := by
    rw [Name.pascal, hwords, List.flatMap_cons, capitalize_cons hword, List.cons_append]
  refine ⟨fun d hd => ?_, c.toUpper, _, by rw [typeName, hpascal, List.cons_append], ?_⟩
  · rcases List.mem_append.mp hd with hd | hd
    · exact hplain.isAscii_pascal d hd
    · exact List.all_eq_true.mp hsuffix d hd
  · exact forall_isAlphanum (p := fun c => c.isAlpha = true → c.toUpper.isUpper = true) (by decide)
      halphanum hc

/-- The file of an accepted name is named by the characters of a key. -/
theorem isKeyCharacter_of_mem_moduleName (h : Name.validate name kind maxLength = .ok normalized) {c : Char}
    (hc : c ∈ moduleName kind name) : Name.isKeyCharacter c = true := by
  obtain ⟨hplain, -⟩ := Name.validate_eq_ok h
  exact isKeyCharacter_of_mem_module kind (fun c => hplain.isKeyCharacter_of_mem_kebab) c hc

/-- The file names of a kind agree apart from joints in front of digits if the keys do. -/
theorem dropDigitJoints_fileName_iff (kind : Kind) (name other : Text) :
    Name.dropDigitJoints (fileName kind name) = Name.dropDigitJoints (fileName kind other)
      ↔ Name.dropDigitJoints (Name.kebab name) = Name.dropDigitJoints (Name.kebab other) := by
  have hending : ((kind.conventions.fileSuffix ++ sourceExtension).head?.any Char.isDigit) = false := by
    cases kind <;> rfl
  rw [fileName, fileName, List.append_assoc, List.append_assoc, Name.dropDigitJoints_append _ hending,
    Name.dropDigitJoints_append _ hending, List.append_cancel_right_eq]

/-- Two accepted names of a kind lead to the same `typeName`, to the same `instanceName`, and to exports that an index
confuses, exactly if their files are the same apart from hyphens in front of digits. Files that differ in another way
never share an identifier. -/
theorem identifiers_eq_iff (h : Name.validate name kind maxLength = .ok normalized)
    (ho : Name.validate other kind maxLengthOther = .ok normalizedOther) :
    (typeName kind name = typeName kind other
        ↔ Name.dropDigitJoints (fileName kind name) = Name.dropDigitJoints (fileName kind other)) ∧
      (instanceName kind name = instanceName kind other
        ↔ Name.dropDigitJoints (fileName kind name) = Name.dropDigitJoints (fileName kind other)) ∧
      ∀ index line lineOther, Exports kind name line → Exports kind other lineOther →
        hasExport index lineOther = false → (hasExport (appendExport index line) lineOther = true
          ↔ Name.dropDigitJoints (fileName kind name) = Name.dropDigitJoints (fileName kind other)) := by
  obtain ⟨hplain, -⟩ := Name.validate_eq_ok h
  obtain ⟨hplainOther, -⟩ := Name.validate_eq_ok ho
  have hclass := isClassName_typeName h
  have hclassOther := isClassName_typeName ho
  have htype : typeName kind name = typeName kind other
      ↔ Name.dropDigitJoints (fileName kind name) = Name.dropDigitJoints (fileName kind other) := by
    rw [dropDigitJoints_fileName_iff, typeName, typeName, List.append_cancel_right_eq]
    exact hplain.pascal_eq_pascal_iff (Name.startsWithLetter_of_validate h) hplainOther
      (Name.startsWithLetter_of_validate ho)
  have hinstance : instanceName kind name = instanceName kind other
      ↔ Name.dropDigitJoints (fileName kind name) = Name.dropDigitJoints (fileName kind other) := by
    rw [dropDigitJoints_fileName_iff, instanceName, instanceName, List.append_cancel_right_eq]
    exact hplain.camel_eq_camel_iff hplainOther
  -- an index confuses two exports exactly if their classes have the same name
  refine ⟨htype, hinstance, fun index line lineOther hline hlineOther hindex => ?_⟩
  obtain rfl := hline.eq_exportStatement
  obtain rfl := hlineOther.eq_exportStatement
  rw [hasExport_exportStatement hclassOther] at hindex ⊢
  rw [mentions_appendExport hclassOther hclass (fun c => isKeyCharacter_of_mem_moduleName h), hindex,
    ← htype]
  simp [eq_comm]

/-- Names that differ in a hyphen between letters are kept apart. -/
theorem identifiers_web_api : typeName .tool "web-api" ≠ typeName .tool "webapi" ∧
    instanceName .tool "web-api" ≠ instanceName .tool "webapi" ∧
    hasExport (appendExport [] "export \x7b WebApiTool \x7d from './web-api-tool.js';")
      "export \x7b WebapiTool \x7d from './webapi-tool.js';" ≠ true := by
  obtain ⟨htype, hinstance, hexport⟩ := identifiers_eq_iff
    (show Name.validate "web-api" .tool 50 = .ok "web-api".toList by rfl)
    (show Name.validate "webapi" .tool 50 = .ok "webapi".toList by rfl)
  have hline : Exports .tool "web-api" "export \x7b WebApiTool \x7d from './web-api-tool.js';" :=
    ⟨[], ⟨[], [], []⟩, [], ⟨.tool, [], some ⟨_, updateOf .tool "web-api" "WebApiTool"⟩⟩, _, by rfl, rfl, rfl⟩
  have hlineOther : Exports .tool "webapi" "export \x7b WebapiTool \x7d from './webapi-tool.js';" :=
    ⟨[], ⟨[], [], []⟩, [], ⟨.tool, [], some ⟨_, updateOf .tool "webapi" "WebapiTool"⟩⟩, _, by rfl, rfl, rfl⟩
  have hfiles : Name.dropDigitJoints (fileName .tool "web-api")
      ≠ Name.dropDigitJoints (fileName .tool "webapi") := by decide
  exact ⟨mt htype.mp hfiles, mt hinstance.mp hfiles,
    mt (hexport [] _ _ hline hlineOther (by rfl)).mp hfiles⟩

/-- A hyphen in front of a digit is not: two accepted names with different files have one class and one
variable, and the export of one is taken for the export of the other. -/
theorem identifiers_shared : ¬ ∀ (kind : Kind) (name other normalized normalizedOther : Text)
    (maxLength maxLengthOther : Int), Name.validate name kind maxLength = .ok normalized →
      Name.validate other kind maxLengthOther = .ok normalizedOther →
      fileName kind name ≠ fileName kind other →
      typeName kind name ≠ typeName kind other ∧ instanceName kind name ≠ instanceName kind other := by
  intro hall
  have hshared := hall .tool "a1b" "a-1b" "a1b" "a-1b" 50 50 (by rfl) (by rfl) (by decide)
  exact hshared.1 (by decide)

end Component

end ComponentKit
