import ComponentKit.Component.Generate
import ComponentKit.Proofs.Name.Ascii

/-!
# The lines of a generated component

The lines that make a component known, spelled out by the key under which it is registered and the name of its
class (`importStatement`, `exportStatement`, `registrationStatement`, `initializationStatement`). Of an accepted
name the key is the normalized form, in lower case letters, digits and hyphens, and the class name has letters and
digits only.
-/

namespace ComponentKit.Component

open Text

/-- The statement that imports a class from a module. -/
def importStatement (type module : Text) : Text :=
  concat ["import \x7b ", type, " \x7d from './", module, ".js';"]

/-- The statement that exports a class from a module. -/
def exportStatement (type module : Text) : Text :=
  concat ["export \x7b ", type, " \x7d from './", module, ".js';"]

/-- The statement that registers an instance of a class under a key. -/
def registrationStatement (collection key type : Text) : Text :=
  concat ["this.", collection, ".set('", key, "', new ", type, "());"]

/-- The statement that starts the component under a key. -/
def initializationStatement (collection key : Text) : Text :=
  concat ["this.", collection, ".get('", key, "')?.initialize?.();"]

section Rendering

variable {values : Template.Context} {type module collection key : Text}

theorem render_importTemplate (ht : (Template.Value.name "type_name").find values = .ok type)
    (hm : (Template.Value.name "module").find values = .ok module) :
    importTemplate.render values = .ok (importStatement type module) := by
  simp only [importTemplate, Template.render, Template.Piece.render, typeSlot, moduleSlot,
    List.mapM_cons, List.mapM_nil, ht, hm, bind, Except.bind, pure, Except.pure, List.foldl_nil]
  rfl

theorem render_exportTemplate (ht : (Template.Value.name "type_name").find values = .ok type)
    (hm : (Template.Value.name "module").find values = .ok module) :
    exportTemplate.render values = .ok (exportStatement type module) := by
  simp only [exportTemplate, Template.render, Template.Piece.render, typeSlot, moduleSlot,
    List.mapM_cons, List.mapM_nil, ht, hm, bind, Except.bind, pure, Except.pure, List.foldl_nil]
  rfl

theorem render_registrationTemplate
    (hc : (Template.Value.name "collection").find values = .ok collection)
    (hk : (Template.Value.name "registry_key").find values = .ok key)
    (ht : (Template.Value.name "type_name").find values = .ok type) :
    registrationTemplate.render values = .ok (registrationStatement collection key type) := by
  simp only [registrationTemplate, Template.render, Template.Piece.render, typeSlot, keySlot,
    collectionSlot, List.mapM_cons, List.mapM_nil, hc, hk, ht, bind, Except.bind, pure, Except.pure,
    List.foldl_nil]
  rfl

theorem render_initializationTemplate
    (hc : (Template.Value.name "collection").find values = .ok collection)
    (hk : (Template.Value.name "registry_key").find values = .ok key) :
    initializationTemplate.render values = .ok (initializationStatement collection key) := by
  simp only [initializationTemplate, Template.render, Template.Piece.render, keySlot,
    collectionSlot, List.mapM_cons, List.mapM_nil, hc, hk, bind, Except.bind, pure, Except.pure,
    List.foldl_nil]
  rfl

end Rendering

section Values

variable (kind : Kind) (name : Text) (details : Details) (created : Text)

theorem find_type :
    (Template.Value.name "type_name").find (context kind name details created)
      = .ok (typeName kind name) := by
  simp [Template.Value.find, context, List.lookup]

theorem find_module :
    (Template.Value.name "module").find (context kind name details created)
      = .ok (moduleName kind name) := by
  simp [Template.Value.find, context, List.lookup]

theorem find_collection :
    (Template.Value.name "collection").find (context kind name details created)
      = .ok kind.conventions.directory := by
  simp [Template.Value.find, context, List.lookup]

theorem find_key :
    (Template.Value.name "registry_key").find (context kind name details created)
      = .ok (registryKey name) := by
  simp [Template.Value.find, context, List.lookup]

end Values

/-! ## Generated components -/

/-- The `Update` for a key and the name of a class. -/
def updateOf (kind : IndexedKind) (key type : Text) : Registry.Update where
  kind := kind
  importLine := importStatement type (key ++ kind.toKind.conventions.fileSuffix)
  registrationLine := registrationStatement kind.toKind.conventions.directory key type
  initializationLine := initializationStatement kind.toKind.conventions.directory key

/-- The `Wiring` of a component, if its kind has any: the index exports its class from its module, and the registry
takes an instance under its key. -/
def wiringOf (kind : Kind) (name : Text) : Option Wiring :=
  (IndexedKind.ofKind? kind).map fun indexed =>
    ⟨exportStatement (typeName kind name) (moduleName kind name),
      updateOf indexed (registryKey name) (typeName kind name)⟩

theorem toKind_of_ofKind? {kind : Kind} {indexed : IndexedKind}
    (h : IndexedKind.ofKind? kind = some indexed) : indexed.toKind = kind := by
  cases kind <;> cases h <;> rfl

theorem wiringOf_toKind (kind : IndexedKind) (name : Text) :
    wiringOf kind.toKind name = some ⟨exportStatement (typeName kind.toKind name) (moduleName kind.toKind name),
      updateOf kind (registryKey name) (typeName kind.toKind name)⟩ := by
  cases kind <;> rfl

/-- The lines for a component have templates of their own, which cannot fail. -/
theorem wire_context (kind : Kind) (name : Text) (details : Details) (created content : Text) :
    wire kind (context kind name details created) content = .ok ⟨kind, content, wiringOf kind name⟩ := by
  cases hkind : IndexedKind.ofKind? kind with
  | none =>
    rw [wire, wiringOf, hkind]
    rfl
  | some indexed =>
    obtain rfl := toKind_of_ofKind? hkind
    -- each of the four lines finds its values in the context
    simp only [wire, hkind, render_exportTemplate (find_type ..) (find_module ..),
      render_importTemplate (find_type ..) (find_module ..),
      render_registrationTemplate (find_collection ..) (find_key ..) (find_type ..),
      render_initializationTemplate (find_collection ..) (find_key ..), bind, Except.bind, pure, Except.pure,
      wiringOf_toKind]
    rfl

/-- Generating fails only with the template of the source text. -/
theorem generateFrom_eq_ok_iff {source : Template} {kind : Kind} {name created : Text} {details : Details}
    {component : Generated} : generateFrom source kind name details created = .ok component ↔
      ∃ content, source.render (context kind name details created) = .ok content ∧
        component = ⟨kind, content, wiringOf kind name⟩ := by
  rw [generateFrom, bind_eq_ok]
  refine exists_congr fun content => and_congr_right fun _ => ?_
  rw [wire_context, Except.ok.injEq, eq_comm]

/-- The lines of a generated component are those for its key and its class. -/
theorem generateFrom_wiring {source : Template} {kind : Kind} {name created : Text} {details : Details}
    {component : Generated} (h : generateFrom source kind name details created = .ok component) :
    component.wiring = wiringOf kind name := by
  obtain ⟨content, -, rfl⟩ := generateFrom_eq_ok_iff.mp h
  rfl

theorem generateFrom_update {kind : IndexedKind} {source : Template} {name created : Text}
    {details : Details} {component : Generated} {wiring : Wiring}
    (h : generateFrom source kind.toKind name details created = .ok component)
    (hw : component.wiring = some wiring) :
    wiring.update = updateOf kind (registryKey name) (typeName kind.toKind name) := by
  rw [generateFrom_wiring h, wiringOf_toKind] at hw
  obtain rfl := Option.some.inj hw
  rfl

/-! ## Updates of accepted names -/

/-- The update by which a component with an accepted name is made known, as `generateFrom` gives it. The name is used
as it was given or in its normalized form. -/
def Makes (kind : IndexedKind) (normalized : Text) (update : Registry.Update) : Prop :=
  ∃ raw maxLength name source details created component wiring,
    Name.validate raw kind.toKind maxLength = .ok normalized ∧ (name = raw ∨ name = normalized) ∧
      generateFrom source kind.toKind name details created = .ok component ∧
      component.wiring = some wiring ∧ wiring.update = update

/-- What the update of an accepted name looks like. -/
theorem Makes.eq_updateOf {kind : IndexedKind} {normalized : Text} {update : Registry.Update}
    (h : Makes kind normalized update) :
    (∀ c ∈ normalized, Name.isKeyCharacter c = true) ∧
      ∃ type, isAscii type ∧ update = updateOf kind normalized type := by
  obtain ⟨raw, maxLength, name, source, details, created, component, wiring, hvalid, hname, hgen,
    hwiring, rfl⟩ := h
  obtain ⟨hplain, rfl⟩ := Name.validate_eq_ok hvalid
  refine ⟨fun c => hplain.isKeyCharacter_of_mem_kebab, typeName kind.toKind name, ?_, ?_⟩
  · have hpascal : isAscii (Name.pascal name) := by
      rcases hname with rfl | rfl
      · exact hplain.isAscii_pascal
      · exact hplain.kebab.isAscii_pascal
    have hsuffix : kind.toKind.conventions.typeSuffix.all (·.isAlphanum) = true := by
      cases kind <;> rfl
    intro c hc
    rcases List.mem_append.mp hc with hc | hc
    · exact hpascal c hc
    · exact List.all_eq_true.mp hsuffix c hc
  -- a name in its hyphenated form has the same key
  · have hkey : registryKey name = Name.kebab raw := by
      rcases hname with rfl | rfl
      · rfl
      · exact hplain.kebab_kebab
    rw [generateFrom_update hgen hwiring, hkey]

/-- The update for a tool called `weather`. -/
def weather : Registry.Update :=
  updateOf .tool "weather" "WeatherTool"

theorem makes_weather : Makes .tool "weather" weather :=
  ⟨"weather", 50, "weather", [], ⟨[], [], []⟩, [],
    ⟨.tool, [], some ⟨"export \x7b WeatherTool \x7d from './weather-tool.js';", weather⟩⟩, _, by rfl,
    .inl rfl, by rfl, rfl, rfl⟩

/-- The update for a tool called `news`. -/
def news : Registry.Update :=
  updateOf .tool "news" "NewsTool"

theorem makes_news : Makes .tool "news" news :=
  ⟨"news", 50, "news", [], ⟨[], [], []⟩, [],
    ⟨.tool, [], some ⟨"export \x7b NewsTool \x7d from './news-tool.js';", news⟩⟩, _, by rfl,
    .inl rfl, by rfl, rfl, rfl⟩

/-! ## The characters of the lines -/

theorem mem_concat {parts : List Text} {c : Char} : c ∈ concat parts ↔ ∃ part ∈ parts, c ∈ part := by
  rw [concat, List.mem_flatten]

section Characters

variable {p : Char → Bool} {type module collection key : Text}

/-- The suffixes of modules are like keys. -/
theorem isKeyCharacter_of_mem_module (kind : Kind) (hk : ∀ c ∈ key, Name.isKeyCharacter c = true) :
    ∀ c ∈ key ++ kind.conventions.fileSuffix, Name.isKeyCharacter c = true := by
  have hsuffix : kind.conventions.fileSuffix.all Name.isKeyCharacter = true := by
    cases kind <;> rfl
  intro c hc
  rcases List.mem_append.mp hc with hc | hc
  · exact hk c hc
  · exact List.all_eq_true.mp hsuffix c hc

theorem isAscii_directory (kind : IndexedKind) : isAscii kind.toKind.conventions.directory := by
  have h : kind.toKind.conventions.directory.all (·.isAlphanum) = true := by cases kind <;> rfl
  exact List.all_eq_true.mp h

/-- A property of letters and digits that the hyphen has is one of keys. -/
theorem of_isKeyCharacter (hp : ∀ c, c.isAlphanum = true → p c = true) (hyphen : p '-' = true) {c : Char}
    (hc : Name.isKeyCharacter c = true) : p c = true := by
  simp only [Name.isKeyCharacter, Bool.or_eq_true, beq_iff_eq] at hc
  rcases hc with hc | rfl
  · exact hp c (isAlphanum_of_isLower_or_isDigit (by simpa using hc))
  · exact hyphen

/-- A property of letters, digits and the hyphen that the fixed parts of an import line have is one of the
line. -/
theorem forall_mem_importStatement (hp : ∀ c, c.isAlphanum = true → p c = true) (hyphen : p '-' = true)
    (ht : isAscii type) (hm : ∀ c ∈ module, Name.isKeyCharacter c = true)
    (hfixed : ["import \x7b ", " \x7d from './", ".js';"].all (fun part : String =>
      part.toList.all p) = true) : ∀ c ∈ importStatement type module, p c = true := by
  simp only [List.all_cons, List.all_nil, Bool.and_true, Bool.and_eq_true, List.all_eq_true] at hfixed
  intro c hc
  obtain ⟨part, hpart, hcp⟩ := mem_concat.mp hc
  simp only [List.mem_cons, List.not_mem_nil, or_false] at hpart
  rcases hpart with rfl | rfl | rfl | rfl | rfl
  · exact hfixed.1 c hcp
  · exact hp c (ht c hcp)
  · exact hfixed.2.1 c hcp
  · exact of_isKeyCharacter hp hyphen (hm c hcp)
  · exact hfixed.2.2 c hcp

theorem forall_mem_registrationStatement (hp : ∀ c, c.isAlphanum = true → p c = true)
    (hyphen : p '-' = true) (hc : isAscii collection) (hk : ∀ c ∈ key, Name.isKeyCharacter c = true)
    (ht : isAscii type)
    (hfixed : ["this.", ".set('", "', new ", "());"].all (fun part : String =>
      part.toList.all p) = true) : ∀ c ∈ registrationStatement collection key type, p c = true := by
  simp only [List.all_cons, List.all_nil, Bool.and_true, Bool.and_eq_true, List.all_eq_true] at hfixed
  intro c hmem
  -- the statement has four fixed parts, and a name between any two of them
  obtain ⟨part, hpart, hcp⟩ := mem_concat.mp hmem
  simp only [List.mem_cons, List.not_mem_nil, or_false] at hpart
  rcases hpart with rfl | rfl | rfl | rfl | rfl | rfl | rfl
  · exact hfixed.1 c hcp
  · exact hp c (hc c hcp)
  · exact hfixed.2.1 c hcp
  · exact of_isKeyCharacter hp hyphen (hk c hcp)
  · exact hfixed.2.2.1 c hcp
  · exact hp c (ht c hcp)
  · exact hfixed.2.2.2 c hcp

theorem forall_mem_initializationStatement (hp : ∀ c, c.isAlphanum = true → p c = true)
    (hyphen : p '-' = true) (hc : isAscii collection) (hk : ∀ c ∈ key, Name.isKeyCharacter c = true)
    (hfixed : ["this.", ".get('", "')?.initialize?.();"].all (fun part : String =>
      part.toList.all p) = true) : ∀ c ∈ initializationStatement collection key, p c = true := by
  simp only [List.all_cons, List.all_nil, Bool.and_true, Bool.and_eq_true, List.all_eq_true] at hfixed
  intro c hmem
  obtain ⟨part, hpart, hcp⟩ := mem_concat.mp hmem
  simp only [List.mem_cons, List.not_mem_nil, or_false] at hpart
  rcases hpart with rfl | rfl | rfl | rfl | rfl
  · exact hfixed.1 c hcp
  · exact hp c (hc c hcp)
  · exact hfixed.2.1 c hcp
  · exact of_isKeyCharacter hp hyphen (hk c hcp)
  · exact hfixed.2.2 c hcp

/-- Letters and digits are not any other sign. -/
theorem bne_of_isAlphanum {sign : Char} (hs : sign.isAlphanum = false) (c : Char)
    (hc : c.isAlphanum = true) : (c != sign) = true := by
  rw [bne_iff_ne]
  rintro rfl
  rw [hs] at hc
  cases hc

theorem not_mem_of_forall_bne {text : Text} {sign : Char} (h : ∀ c ∈ text, (c != sign) = true) :
    sign ∉ text := by
  intro hmem
  have := h sign hmem
  simp at this

/-- A sign that is not in the fixed parts of an import line is not in the line. -/
theorem not_mem_importStatement (ht : isAscii type) (hm : ∀ c ∈ module, Name.isKeyCharacter c = true)
    {sign : Char} (hs : sign.isAlphanum = false) (hyphen : ('-' != sign) = true)
    (hfixed : ["import \x7b ", " \x7d from './", ".js';"].all (fun part : String =>
      part.toList.all (· != sign)) = true) : sign ∉ importStatement type module :=
  not_mem_of_forall_bne (forall_mem_importStatement (bne_of_isAlphanum hs) hyphen ht hm hfixed)

theorem not_mem_of_isAscii (ht : isAscii type) {sign : Char} (hs : sign.isAlphanum = false) :
    sign ∉ type :=
  not_mem_of_forall_bne fun c hc => bne_of_isAlphanum hs c (ht c hc)

theorem not_mem_of_isKeyCharacter (hk : ∀ c ∈ key, Name.isKeyCharacter c = true) {sign : Char}
    (hs : Name.isKeyCharacter sign = false) : sign ∉ key := by
  intro hmem
  rw [hk sign hmem] at hs
  cases hs

end Characters

end ComponentKit.Component
