import ComponentKit.Proofs.Component.Lines
import ComponentKit.Proofs.Source.Arguments
import ComponentKit.Proofs.Source.Brace
import ComponentKit.Proofs.Source.ImportPlace
import ComponentKit.Proofs.Text.Counting

/-!
# What the lines of a component look like

Each generated line is one statement. The import line is read as an import and closes its braces, the registration
line is read as one call of its setter (`callEnd?_registrationStatement`), and a line has another generated line in
it only if they are the lines of the same kind for the same key.
-/

namespace ComponentKit.Component

open Text Source

variable {type other module path collection key label : Text}

/-! ## One statement -/

theorem isOneStatement_importStatement (ht : isAscii type)
    (hm : ∀ c ∈ module, Name.isKeyCharacter c = true) : IsOneStatement (importStatement type module) where
  unbroken c hc := by
    constructor
    · rintro rfl
      exact not_mem_importStatement ht hm (by rfl) (by rfl) (by rfl) hc
    · rintro rfl
      exact not_mem_importStatement ht hm (by rfl) (by rfl) (by rfl) hc
  -- the semicolon at the end is the only one
  last := by
    have htype : ';' ∉ type := not_mem_of_isAscii ht (by rfl)
    have hmodule : ';' ∉ module := not_mem_of_isKeyCharacter hm (by rfl)
    refine ⟨concat ["import \x7b ", type, " \x7d from './", module, ".js'"], ?_, ?_⟩
    · simp [importStatement, concat]
    · simp [concat, htype, hmodule]
  head := ⟨'i', _, rfl, by decide⟩

theorem isOneStatement_registrationStatement (hc : isAscii collection)
    (hk : ∀ c ∈ key, Name.isKeyCharacter c = true) (ht : isAscii type) :
    IsOneStatement (registrationStatement collection key type) where
  unbroken c hmem := by
    constructor
    · rintro rfl
      exact not_mem_of_forall_bne (forall_mem_registrationStatement (bne_of_isAlphanum (by rfl))
        (by rfl) hc hk ht (by rfl)) hmem
    · rintro rfl
      exact not_mem_of_forall_bne (forall_mem_registrationStatement (bne_of_isAlphanum (by rfl))
        (by rfl) hc hk ht (by rfl)) hmem
  -- here, too, the parts in front of the last sign have none
  last := by
    have hcollection : ';' ∉ collection := not_mem_of_isAscii hc (by rfl)
    have hkey : ';' ∉ key := not_mem_of_isKeyCharacter hk (by rfl)
    have htype : ';' ∉ type := not_mem_of_isAscii ht (by rfl)
    refine ⟨concat ["this.", collection, ".set('", key, "', new ", type, "())"], ?_, ?_⟩
    · simp [registrationStatement, concat]
    · simp [concat, hcollection, hkey, htype]
  head := ⟨'t', _, rfl, by decide⟩

theorem getLast?_initializationStatement (collection key : Text) :
    (initializationStatement collection key).getLast? = some ';' := by
  have hsplit : initializationStatement collection key
      = concat ["this.", collection, ".get('", key, "')?.initialize?.()"] ++ [';'] := by
    simp [initializationStatement, concat]
  rw [hsplit, List.getLast?_concat]

/-! ## Braces -/

theorem isBrace_of_isAlphanum (c : Char) (hc : c.isAlphanum = true) : (!isBrace c) = true := by
  have hopen : (c != '\x7b') = true := bne_of_isAlphanum (by rfl) c hc
  have hclose : (c != '\x7d') = true := bne_of_isAlphanum (by rfl) c hc
  rw [bne_iff_ne] at hopen hclose
  simp [isBrace, hopen, hclose]

theorem opensFirst_of_all {part : Text} (h : part.all (fun c => !isBrace c) = true) : OpensFirst part :=
  OpensFirst.of_forall fun c hc => by simpa using List.all_eq_true.mp h c hc

theorem balanced_of_isAscii (ht : isAscii type) : Balanced type :=
  Balanced.of_forall fun c hc => by simpa using isBrace_of_isAlphanum c (ht c hc)

theorem balanced_of_isKeyCharacter (hk : ∀ c ∈ key, Name.isKeyCharacter c = true) : Balanced key :=
  Balanced.of_forall fun c hc => by simpa using of_isKeyCharacter isBrace_of_isAlphanum (by rfl) (hk c hc)

theorem opensFirst_concat {parts : List Text} (h : ∀ part ∈ parts, OpensFirst part) :
    OpensFirst (concat parts) := by
  induction parts with
  | nil => exact opensFirst_of_all (by rfl)
  | cons part parts ih =>
    obtain ⟨hpart, hparts⟩ := List.forall_mem_cons.mp h
    exact hpart.append (ih hparts)

/-- An import line closes only braces that it has opened, if its class and its module do. -/
theorem opensFirst_importStatement (ht : OpensFirst type) (hm : OpensFirst module) :
    OpensFirst (importStatement type module) := by
  have hsplit : importStatement type module
      = "import ".toList ++ (('\x7b' :: (concat [" ", type, " "] ++ ['\x7d']))
        ++ concat [" from './", module, ".js';"]) := by
    simp [importStatement, concat]
  have hspace : OpensFirst " ".toList := opensFirst_of_all (by rfl)
  have hnamed : OpensFirst (concat [" ", type, " "]) := hspace.append (ht.append hspace)
  have hbehind : OpensFirst (concat [" from './", module, ".js';"]) :=
    (opensFirst_of_all (by rfl)).append (hm.append (opensFirst_of_all (by rfl)))
  rw [hsplit]
  exact (opensFirst_of_all (by rfl)).append (hnamed.braced.append hbehind)

theorem level_importStatement (type module : Text) :
    level (importStatement type module) = level type + level module := by
  have hopen : level "import \x7b ".toList = 1 := rfl
  have hclose : level " \x7d from './".toList = -1 := rfl
  have hend : level ".js';".toList = 0 := rfl
  simp only [importStatement, concat, List.flatten_cons, List.flatten_nil, level_append, level_nil, hopen,
    hclose, hend]
  omega

theorem opensFirst_registrationStatement (hc : OpensFirst collection) (hk : OpensFirst key)
    (ht : OpensFirst type) : OpensFirst (registrationStatement collection key type) := by
  refine opensFirst_concat ?_
  simp only [List.forall_mem_cons]
  exact ⟨opensFirst_of_all (by rfl), hc, opensFirst_of_all (by rfl), hk, opensFirst_of_all (by rfl), ht,
    opensFirst_of_all (by rfl), List.forall_mem_nil _⟩

/-- The key of a registration line that opens first opens first. -/
theorem opensFirst_key (hc : level collection = 0)
    (h : OpensFirst (registrationStatement collection key type)) : OpensFirst key := by
  have hsplit : registrationStatement collection key type
      = concat ["this.", collection, ".set('"] ++ (key ++ concat ["', new ", type, "());"]) := by
    simp [registrationStatement, concat]
  have hthis : level "this.".toList = 0 := rfl
  have hset : level ".set('".toList = 0 := rfl
  rw [hsplit] at h
  refine (h.of_append_right ?_).of_append_left
  simp only [concat, List.flatten_cons, List.flatten_nil, level_append, level_nil, hthis, hc, hset,
    Int.add_zero]

theorem level_registrationStatement (collection key type : Text) :
    level (registrationStatement collection key type) = level collection + level key + level type := by
  have hthis : level "this.".toList = 0 := rfl
  have hset : level ".set('".toList = 0 := rfl
  have hnew : level "', new ".toList = 0 := rfl
  have hend : level "());".toList = 0 := rfl
  simp only [registrationStatement, concat, List.flatten_cons, List.flatten_nil, level_append, level_nil,
    hthis, hset, hnew, hend]
  omega

theorem opensFirst_initializationStatement (hc : OpensFirst collection) (hk : OpensFirst key) :
    OpensFirst (initializationStatement collection key) := by
  refine opensFirst_concat ?_
  simp only [List.forall_mem_cons]
  exact ⟨opensFirst_of_all (by rfl), hc, opensFirst_of_all (by rfl), hk, opensFirst_of_all (by rfl),
    List.forall_mem_nil _⟩

theorem level_initializationStatement (collection key : Text) :
    level (initializationStatement collection key) = level collection + level key := by
  have hthis : level "this.".toList = 0 := rfl
  have hget : level ".get('".toList = 0 := rfl
  have hend : level "')?.initialize?.();".toList = 0 := rfl
  simp only [initializationStatement, concat, List.flatten_cons, List.flatten_nil, level_append, level_nil,
    hthis, hget, hend]
  omega

section Updates

variable {kind : IndexedKind}

theorem opensFirst_updateOf (kind : IndexedKind) (hk : OpensFirst key) (ht : OpensFirst type) :
    OpensFirst (updateOf kind key type).importLine ∧ OpensFirst (updateOf kind key type).registrationLine ∧
      OpensFirst (updateOf kind key type).initializationLine := by
  have hc : OpensFirst kind.toKind.conventions.directory :=
    (balanced_of_isAscii (isAscii_directory kind)).nonneg
  have hsuffix : kind.toKind.conventions.fileSuffix.all (fun c => !isBrace c) = true := by cases kind <;> rfl
  exact ⟨opensFirst_importStatement ht (hk.append (opensFirst_of_all hsuffix)),
    opensFirst_registrationStatement hc hk ht, opensFirst_initializationStatement hc hk⟩

theorem level_updateOf (kind : IndexedKind) (key type : Text) :
    level (updateOf kind key type).importLine = level type + level key ∧
      level (updateOf kind key type).registrationLine = level key + level type ∧
      level (updateOf kind key type).initializationLine = level key := by
  have hc := (balanced_of_isAscii (isAscii_directory kind)).closed
  have hsuffix : level kind.toKind.conventions.fileSuffix = 0 := by cases kind <;> rfl
  simp [updateOf, level_importStatement, level_registrationStatement, level_initializationStatement, hc,
    hsuffix]

/-- The lines for a key and a class whose braces are balanced have balanced braces. -/
theorem balanced_updateOf (kind : IndexedKind) (hk : Balanced key) (ht : Balanced type) :
    Balanced (updateOf kind key type).importLine ∧ Balanced (updateOf kind key type).registrationLine ∧
      Balanced (updateOf kind key type).initializationLine := by
  obtain ⟨himport, hregistration, hinitialization⟩ := opensFirst_updateOf kind hk.nonneg ht.nonneg
  obtain ⟨limport, lregistration, linitialization⟩ := level_updateOf kind key type
  rw [hk.closed, ht.closed, Int.add_zero] at limport lregistration
  rw [hk.closed] at linitialization
  exact ⟨⟨himport, limport⟩, ⟨hregistration, lregistration⟩, hinitialization, linitialization⟩

end Updates

/-! ## Imports -/

/-- An import line is read as an import. -/
theorem isImportLine_importStatement (ht : isAscii type)
    (hm : ∀ c ∈ module, Name.isKeyCharacter c = true) : IsImportLine (importStatement type module) := by
  have hquote : ∀ c : Char, c.isAlphanum = true → (!isQuote c && c != '\n') = true := by
    intro c hc
    have hsingle : (c != '\x27') = true := bne_of_isAlphanum (by rfl) c hc
    have hdouble : (c != '"') = true := bne_of_isAlphanum (by rfl) c hc
    have hnewline : (c != '\n') = true := bne_of_isAlphanum (by rfl) c hc
    rw [bne_iff_ne] at hsingle hdouble
    simp [isQuote, hsingle, hdouble, hnewline]
  have hfixed : ∀ {part : Text}, part.all (fun c => !isQuote c && c != '\n') = true →
      ∀ c ∈ part, (!isQuote c && c != '\n') = true := fun h => List.all_eq_true.mp h
  -- the clause stands between the keyword and the first quote, the module between the quotes
  refine isImportLine_of_eq ("\x7b ".toList ++ (type ++ " \x7d".toList))
    ("./".toList ++ (module ++ ".js".toList)) (by simp [importStatement, concat]) (fun c hc => ?_)
    (fun c hc => ?_) (by simp)
  · rcases List.mem_append.mp hc with hc | hc
    · exact hfixed (by rfl) c hc
    · rcases List.mem_append.mp hc with hc | hc
      · exact hquote c (ht c hc)
      · exact hfixed (by rfl) c hc
  · rcases List.mem_append.mp hc with hc | hc
    · exact hfixed (by rfl) c hc
    · rcases List.mem_append.mp hc with hc | hc
      · exact of_isKeyCharacter hquote (by rfl) (hm c hc)
      · exact hfixed (by rfl) c hc

/-! ## Registrations -/

/-- How the registrations of a collection start. -/
def setterOf (collection : Text) : Text :=
  concat ["this.", collection, ".set("]

theorem registrationStatement_eq (collection key type : Text) :
    registrationStatement collection key type = setterOf collection
      ++ '\x27' :: (key ++ '\x27' :: (", new ".toList ++ (type ++ "());".toList))) := by
  simp [registrationStatement, setterOf, concat]

/-- A quote, and what the key and the class of a component have in common, is not in a setter. -/
theorem quote_not_mem_setterOf (hc : isAscii collection) : '\x27' ∉ setterOf collection := by
  have hcollection : '\x27' ∉ collection := not_mem_of_isAscii hc (by rfl)
  simp [setterOf, concat, hcollection]

theorem paren_mem_setterOf (collection : Text) : '(' ∈ setterOf collection := by
  simp [setterOf, concat]

theorem dot_mem_setterOf (collection : Text) : '.' ∈ setterOf collection := by
  simp [setterOf, concat]

/-- In a registration line there is one setter. -/
theorem setterOf_not_infix_tail (hc : isAscii collection) (hk : ∀ c ∈ key, Name.isKeyCharacter c = true)
    (ht : isAscii type) : ¬ setterOf collection <:+: (registrationStatement collection key type).tail := by
  have htail : (registrationStatement collection key type).tail = (setterOf collection).tail
      ++ '\x27' :: (key ++ '\x27' :: (", new ".toList ++ (type ++ "());".toList))) := by
    rw [registrationStatement_eq]
    rfl
  have hquote := quote_not_mem_setterOf hc
  rw [htail, infix_append_cons_iff hquote, infix_append_cons_iff hquote]
  -- in front of the key there is too little room, and neither key nor class has the signs of a setter
  rintro (h | h | h)
  · have := h.length_le
    rw [List.length_tail] at this
    have hpos := List.length_pos_iff.mpr (List.ne_nil_of_mem (paren_mem_setterOf collection))
    omega
  · exact not_mem_of_isKeyCharacter hk (by rfl) (h.subset (paren_mem_setterOf collection))
  · have htype : '.' ∉ type := not_mem_of_isAscii ht (by rfl)
    have := h.subset (dot_mem_setterOf collection)
    simp [htype] at this

theorem setterOf_not_infix_initializationStatement (kind : IndexedKind)
    (hk : ∀ c ∈ key, Name.isKeyCharacter c = true) :
    ¬ setterOf kind.toKind.conventions.directory
      <:+: initializationStatement kind.toKind.conventions.directory key := by
  have hsplit : ∀ collection : Text, initializationStatement collection key
      = concat ["this.", collection, ".get("] ++ '\x27' :: (key ++ '\x27' :: ")?.initialize?.();".toList) := by
    intro collection
    simp [initializationStatement, concat]
  have hquote := quote_not_mem_setterOf (isAscii_directory kind)
  rw [hsplit, infix_append_cons_iff hquote, infix_append_cons_iff hquote]
  -- the parts around the key are fixed up to the directory, so each kind can be checked
  rintro (h | h | h)
  · rw [← occursIn_iff] at h
    revert h
    cases kind <;> decide
  · exact not_mem_of_isKeyCharacter hk (by rfl) (h.subset (paren_mem_setterOf _))
  · rw [← occursIn_iff] at h
    revert h
    cases kind <;> decide

theorem setterOf_not_infix_importStatement (ht : isAscii type)
    (hm : ∀ c ∈ module, Name.isKeyCharacter c = true) :
    ¬ setterOf collection <:+: importStatement type module := fun h =>
  not_mem_importStatement ht hm (by rfl) (by rfl) (by rfl) (h.subset (paren_mem_setterOf collection))

/-- A registration line is read as one call. -/
theorem callEnd?_registrationStatement (hc : isAscii collection)
    (hk : ∀ c ∈ key, Name.isKeyCharacter c = true) (ht : isAscii type) (rest : Text) :
    callEnd? (registrationStatement collection key type ++ rest)
      = some (registrationStatement collection key type).length := by
  let lead := concat ["this.", collection, ".set"]
  let middle := ", new ".toList ++ type
  let arguments := '\x27' :: (key ++ '\x27' :: (middle ++ ['(', ')']))
  have hsplit : registrationStatement collection key type = lead ++ '(' :: (arguments ++ [')', ';']) := by
    simp [registrationStatement, concat, lead, arguments, middle]
  have hlead : '(' ∉ lead := by
    have hparen : '(' ∉ collection := not_mem_of_isAscii hc (by rfl)
    simp [lead, concat, hparen]
  have hkey : ∀ c ∈ key, c ≠ '\x27' ∧ c ≠ '\\' := by
    intro c hmem
    constructor <;>
    · rintro rfl
      exact absurd (hk _ hmem) (by decide)
  have hmiddle : ∀ c ∈ middle, isPlainCode c = true := by
    have hplain : ∀ c : Char, c.isAlphanum = true → isPlainCode c = true :=
      fun c hc => forall_isAlphanum (p := fun c => isPlainCode c = true) (by decide) hc
    intro c hmem
    rcases List.mem_append.mp hmem with hmem | hmem
    · exact List.all_eq_true.mp (by decide : ", new ".toList.all isPlainCode = true) c hmem
    · exact hplain c (ht c hmem)
  -- a quoted key, then plain code up to the empty brackets of the constructor
  have harguments : IsArguments arguments :=
    .string (by decide) (.of_forall hkey) (.plain_append hmiddle (.group .nil .nil))
  have hcall := callEnd?_call hlead harguments rest
  rw [hsplit, show lead ++ '(' :: (arguments ++ [')', ';']) ++ rest
    = lead ++ '(' :: (arguments ++ ')' :: ';' :: rest) by simp, hcall]
  simp only [List.length_append, List.length_cons, List.length_nil, Option.some.injEq]
  omega

/-! ## Lines within lines -/

/-- An import line is in another one only if they import from the same module. -/
theorem eq_of_infix_importStatement (ht : isAscii other) (hp : ∀ c ∈ path, Name.isKeyCharacter c = true)
    (h : importStatement type module <:+: importStatement other path) : module = path := by
  have hsplit : ∀ t m : Text, importStatement t m
      = concat ["import \x7b ", t, " \x7d from '."] ++ '/' :: (m ++ '.' :: "js';".toList) := by
    simp [importStatement, concat]
  have hslash : '/' ∉ other ∧ '/' ∉ path :=
    ⟨not_mem_of_isAscii ht (by rfl), not_mem_of_isKeyCharacter hp (by rfl)⟩
  rw [hsplit, hsplit] at h
  obtain ⟨-, hprefix⟩ := split_of_infix (by simp [concat, hslash]) (by simp [hslash]) h
  exact eq_of_prefix (not_mem_of_isKeyCharacter hp (by rfl)) (by decide) hprefix

/-- A registration line is in another one only if they register the same key. -/
theorem eq_of_infix_registrationStatement (hc : isAscii collection)
    (hl : ∀ c ∈ label, Name.isKeyCharacter c = true) (ht : isAscii other)
    (h : registrationStatement collection key type <:+: registrationStatement collection label other) :
    key = label := by
  have hsplit : ∀ k t : Text, registrationStatement collection k t
      = (concat ["this.", collection, ".set"] ++ '(' :: '\x27' :: (k ++ ['\x27']))
        ++ ',' :: (" new ".toList ++ (t ++ "());".toList)) := by
    simp [registrationStatement, concat]
  have hcomma : ',' ∉ collection ∧ ',' ∉ label ∧ ',' ∉ other :=
    ⟨not_mem_of_isAscii hc (by rfl), not_mem_of_isKeyCharacter hl (by rfl), not_mem_of_isAscii ht (by rfl)⟩
  have hparen : '(' ∉ collection ∧ '(' ∉ label :=
    ⟨not_mem_of_isAscii hc (by rfl), not_mem_of_isKeyCharacter hl (by rfl)⟩
  -- the only comma and the only opening bracket in front of it must match, and then the quoted keys do
  rw [hsplit, hsplit] at h
  obtain ⟨hsuffix, -⟩ := split_of_infix (by simp [concat, hcomma]) (by simp [hcomma]) h
  obtain ⟨-, hprefix⟩ := split_of_infix (by simp [concat, hparen]) (by simp [hparen]) hsuffix.isInfix
  exact eq_of_prefix (not_mem_of_isKeyCharacter hl (by rfl)) (by simp)
    ((List.prefix_cons_inj '\x27').mp hprefix)

end ComponentKit.Component
