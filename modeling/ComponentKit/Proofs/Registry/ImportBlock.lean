import ComponentKit.Proofs.Registry.Growth
import ComponentKit.Proofs.Source.ImportPlace

/-!
# The block of imports

`insertImport` puts a new import behind the last line that ends an import. The first declaration of a text settles
which lines are read: those in front of it end the imports of the block, and what is found behind it is found there
for itself. So the import stays in the block exactly if no line behind the declaration is taken for an import. A
line that starts with the word is one, but so is the last line of an export that names its module and stands on
several lines.
-/

namespace ComponentKit.Registry

open Text Source

variable {text line p q : Text} {declaration : Nat}

/-! ## Text in front of a declaration -/

/-- A declaration starts with one of four words. -/
theorem startsDeclaration_split (h : startsDeclaration q = true) :
    ∃ word ∈ ["export", "class", "interface", "abstract"], ∃ rest, q = word.toList ++ rest := by
  have hword : ∀ word : String, (dropWord? word.toList q).isSome = true → ∃ rest, q = word.toList ++ rest := by
    intro word hsome
    obtain ⟨rest, hrest⟩ := Option.isSome_iff_exists.mp hsome
    exact ⟨rest, (dropWord?_eq_some_iff.mp hrest).1⟩
  simp only [startsDeclaration, Bool.or_eq_true] at h
  rcases h with ((h | h) | h) | h
  · exact ⟨"export", by simp, hword _ h⟩
  · exact ⟨"class", by simp, hword _ h⟩
  · exact ⟨"interface", by simp, hword _ h⟩
  · rw [Option.any_eq_true] at h
    obtain ⟨rest, hrest, -⟩ := h
    exact ⟨"abstract", by simp, rest, dropLead?_eq_some_iff.mp hrest⟩

/-- Nothing in front of a declaration goes on in it. -/
theorem settled_of_startsDeclaration (h : startsDeclaration q = true) (p : Text) : Settled p q := by
  refine settled_of_head p ?_
  obtain ⟨word, hword, rest, rfl⟩ := startsDeclaration_split h
  fin_cases hword <;> rfl

theorem not_import_of_startsDeclaration (h : startsDeclaration q = true) (rest : Text) :
    q ≠ "import".toList ++ rest := by
  obtain ⟨word, hword, more, rfl⟩ := startsDeclaration_split h
  fin_cases hword <;> simp

/-! ## The last import -/

/-- The last import ends in the block exactly if there is none behind the first declaration. -/
theorem getLast?_importEnds_le_iff {place : Nat} (hp : p = [] ∨ p.getLast? = some '\n')
    (hdecl : startsDeclaration q = true) (hlast : (importEnds (p ++ q)).getLast? = some place) :
    place ≤ p.length ↔ ¬ HasImport true q := by
  -- no import goes on in the declaration, so the scan reads from there as it would read the rest alone
  have hsplit : importEnds (p ++ q) = importEnds p ++ importEndsFrom p.length true 0 q := by
    rcases hp with rfl | hp
    · rfl
    · rw [importEnds, importEndsFrom_append hp (settled_of_startsDeclaration hdecl p) (Nat.zero_le _),
        Nat.zero_add]
      rfl
  rw [hsplit, List.getLast?_append] at hlast
  have hnone : importEndsFrom p.length true 0 q = [] ↔ ¬ HasImport true q := importEndsFrom_eq_nil_iff
  rw [← hnone]
  -- the last import is in the declaration if there is any, and in front of it otherwise
  cases hq : (importEndsFrom p.length true 0 q).getLast? with
  | none =>
    rw [hq, Option.none_or] at hlast
    obtain ⟨front, indent, statement, after, htext, -, -, hplace⟩ := getLast?_importEndsFrom hlast
    have hlength := congrArg List.length htext
    simp only [List.length_append] at hplace hlength
    exact iff_of_true (by omega) (List.getLast?_eq_none_iff.mp hq)
  | some last =>
    rw [hq, Option.some_or] at hlast
    obtain rfl := Option.some.inj hlast
    obtain ⟨front, indent, statement, after, -, himport, -, hplace⟩ := getLast?_importEndsFrom hq
    obtain ⟨c, hc, -⟩ := himport.isImport.getLast?
    have hpos := List.length_pos_iff.mpr (List.ne_nil_of_mem (List.mem_of_getLast? hc))
    simp only [List.length_append] at hplace
    refine iff_of_false (by omega) fun hnil => ?_
    rw [hnil] at hq
    cases hq

/-- A statement starts with the word, unless it is the last line of a longer one. -/
theorem import_or_closing {statement : Text} (h : IsImport statement) :
    (∃ rest, statement = "import".toList ++ rest) ∨ statement.head? = some '\x7d' := by
  obtain ⟨head, blanks, ending, rfl, hhead, -, -⟩ := h
  cases hhead with
  | named _ _ _ => exact .inl ⟨_, by rw [List.append_assoc, List.append_assoc]⟩
  | bare _ => exact .inl ⟨_, rfl⟩
  | closing _ _ => exact .inr rfl

/-- Whether a line that `importEnds` counts does not start with the word: it is indented, or it closes what a longer
statement opened. -/
def HasOtherImport (text : Text) : Prop :=
  ∃ front indent statement after, text = front ++ (indent ++ (statement ++ after)) ∧
    ImportsBetween true front indent statement after ∧ (indent ≠ [] ∨ statement.head? = some '\x7d')

/-- Where no line behind the declaration starts with the word, only other lines are taken for imports. -/
theorem hasImport_iff_hasOtherImport (hdecl : startsDeclaration q = true)
    (hplain : ∀ front rest, q = front ++ ("import".toList ++ rest) → front.getLast? ≠ some '\n') :
    HasImport true q ↔ HasOtherImport q := by
  constructor
  · rintro ⟨front, indent, statement, after, hq, himport⟩
    refine ⟨front, indent, statement, after, hq, himport, ?_⟩
    by_contra hother
    rw [not_or, not_not] at hother
    obtain ⟨rfl, hhead⟩ := hother
    obtain ⟨rest, rfl⟩ := (import_or_closing himport.isImport).resolve_right hhead
    rw [List.nil_append, List.append_assoc] at hq
    -- an import that starts with the word starts a line, which is the declaration or excluded
    cases hl : front.getLast? with
    | none =>
      obtain rfl := List.getLast?_eq_none_iff.mp hl
      exact not_import_of_startsDeclaration hdecl _ hq
    | some c =>
      have hstarts := himport.starts
      rw [startsLine_of_getLast? hl] at hstarts
      exact hplain _ _ hq (by rw [hl, eq_of_beq hstarts])
  · rintro ⟨front, indent, statement, after, hq, himport, -⟩
    exact ⟨front, indent, statement, after, hq, himport⟩

/-- In a text with an import in front of its first declaration and no line behind it that starts with the word,
`insertImport` adds a new import, and it does so in front of the declaration exactly if no other line behind it is
taken for an import. -/
theorem insertImport_in_block (hdecl : firstDeclaration? text = some declaration)
    (himport : ∃ place ∈ importEnds text, place ≤ declaration)
    (hplain : ∀ front rest, text.drop declaration = front ++ ("import".toList ++ rest) →
      front.getLast? ≠ some '\n')
    (hnew : ¬ line <:+: text) :
    ∃ offset, insertImport text line = .added (insertAt offset (lineBreak text ++ line) text) ∧
      (offset ≤ declaration ↔ ¬ HasOtherImport (text.drop declaration)) := by
  obtain ⟨p, q, rfl, rfl, hp, hstarts⟩ := firstDeclaration?_split hdecl
  obtain ⟨place, hmem, -⟩ := himport
  have hlast := List.getLast?_eq_some_getLast (List.ne_nil_of_mem hmem)
  -- of the last import only its place matters
  generalize (importEnds (p ++ q)).getLast _ = offset at hlast
  rw [List.drop_left] at hplain ⊢
  refine ⟨offset, ?_, ?_⟩
  · rw [insertImport, if_neg (by rwa [occursIn_iff]), importPlace?_eq_afterStatement_iff.mpr hlast]
    rfl
  · rw [getLast?_importEnds_le_iff hp hstarts hlast, hasImport_iff_hasOtherImport hstarts hplain]

/-- A registry with one import and nothing but its class. -/
def blockRegistry : Text :=
  "import \x7b A \x7d from './a.js';\nexport class R \x7b\n  initializeTools() \x7b\n  \x7d\n\x7d\n"

theorem insertImport_in_block_weather : firstDeclaration? blockRegistry = some 28 ∧ ∃ offset,
    insertImport blockRegistry Component.weather.importLine
      = .added (insertAt offset (lineBreak blockRegistry ++ Component.weather.importLine) blockRegistry) ∧
    (offset ≤ 28 ↔ ¬ HasOtherImport (blockRegistry.drop 28)) := by
  have hdecl : firstDeclaration? blockRegistry = some 28 := by decide +kernel
  have himport : ∃ place ∈ importEnds blockRegistry, place ≤ 28 := by decide +kernel
  have hnone : ¬ "import".toList <:+: blockRegistry.drop 28 := by decide +kernel
  have hnew : ¬ Component.weather.importLine <:+: blockRegistry := by decide +kernel
  exact ⟨hdecl, insertImport_in_block hdecl himport
    (fun front rest h => absurd ⟨front, rest, by rw [h, List.append_assoc]⟩ hnone) hnew⟩

/-- A registry that exports some of its classes in between, on several lines. -/
def exportingRegistry : Text :=
  concat ["import \x7b A \x7d from './a.js';\nexport \x7b\n  B,\n\x7d from './b.js';\n",
    "export class R \x7b\n  initializeTools() \x7b\n  \x7d\n\x7d\n"]

/-- An import leaves the block: it goes behind the last line of the export. -/
theorem insertImport_behind_export : ¬ ∀ (text line : Text) (declaration : Nat),
    firstDeclaration? text = some declaration → (∃ place ∈ importEnds text, place ≤ declaration) →
    (∀ front rest, text.drop declaration = front ++ ("import".toList ++ rest) →
      front.getLast? ≠ some '\n') →
    ¬ line <:+: text →
    ∃ offset ≤ declaration, insertImport text line = .added (insertAt offset (lineBreak text ++ line) text) := by
  intro hall
  have hnone : ¬ "import".toList <:+: exportingRegistry.drop 28 := by decide +kernel
  obtain ⟨offset, hle, hadded⟩ := hall exportingRegistry Component.weather.importLine 28 (by decide +kernel)
    (by decide +kernel) (fun front rest h => absurd ⟨front, rest, by rw [h, List.append_assoc]⟩ hnone)
    (by decide +kernel)
  have hbehind : ∀ offset < 29, insertImport exportingRegistry Component.weather.importLine
      ≠ .added (insertAt offset (lineBreak exportingRegistry ++ Component.weather.importLine)
          exportingRegistry) := by decide +kernel
  exact hbehind offset (by omega) hadded

end ComponentKit.Registry
