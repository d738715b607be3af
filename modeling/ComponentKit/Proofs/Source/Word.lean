import ComponentKit.Proofs.Text.Occurrence
import ComponentKit.Source.Word
import ComponentKit.Text.Blank

/-!
# Identifiers in source text

A character that can stand in no identifier separates what is in front of it from what is behind it: an identifier
is mentioned in a text exactly if it is mentioned in one of the parts (`mentions_append`).
-/

namespace ComponentKit.Source

open Text

variable {name word x y : Text} {before : Option Char} {c : Char}

/-- Whether a text consists of characters that can stand in an identifier, and of at least one. -/
def IsIdentifier (name : Text) : Prop :=
  name ≠ [] ∧ ∀ c ∈ name, isIdentifierCharacter c = true

theorem isIdentifierCharacter_of_isAlphanum (h : c.isAlphanum = true) :
    isIdentifierCharacter c = true := by
  simp [isIdentifierCharacter, Unicode.isWord, h]

/-- A blank stands in no identifier. -/
theorem isIdentifierCharacter_of_isBlank (h : isBlank c = true) : isIdentifierCharacter c = false := by
  -- the blanks are finitely many, so they are gone through by code point
  have hpoint : c.toNat ∈ List.range' 0x09 5 ++ List.range' 0x1C 5 ++ [0x85, 0xA0, 0x1680]
      ++ List.range' 0x2000 11 ++ [0x2028, 0x2029, 0x202F, 0x205F, 0x3000] := by
    simp only [isBlank, Bool.or_eq_true, Bool.and_eq_true, decide_eq_true_eq, beq_iff_eq] at h
    simp only [List.mem_append, List.mem_range'_1, List.mem_cons, List.not_mem_nil, or_false]
    omega
  have hpoints : ∀ n ∈ List.range' 0x09 5 ++ List.range' 0x1C 5 ++ [0x85, 0xA0, 0x1680]
      ++ List.range' 0x2000 11 ++ [0x2028, 0x2029, 0x202F, 0x205F, 0x3000],
      isIdentifierCharacter (Char.ofNat n) = false := by decide +kernel
  simpa [Char.ofNat_toNat] using hpoints _ hpoint

/-! ## Whole identifiers -/

/-- Whether a text starts with a name that does not go on as an identifier. -/
def startsWithName (name text : Text) : Bool :=
  (dropLead? name text).any fun after => !after.head?.any isIdentifierCharacter

theorem mentionsAfter_cons (name : Text) (before : Option Char) (c : Char) (rest : Text) :
    mentionsAfter name before (c :: rest)
      = (!before.any isIdentifierCharacter && startsWithName name (c :: rest)
        || mentionsAfter name (some c) rest) := rfl

/-- What is behind a separator does not matter for a name in front of it. -/
theorem startsWithName_append (hname : ∀ d ∈ name, isIdentifierCharacter d = true)
    (hc : isIdentifierCharacter c = false) (x y : Text) :
    startsWithName name (x ++ c :: y) = startsWithName name x := by
  -- on the name: as long as it goes on, the separator is not reached
  induction name generalizing x with
  | nil => cases x <;> simp [startsWithName, dropLead?, hc]
  | cons a name ih =>
    obtain ⟨ha, hname⟩ := List.forall_mem_cons.mp hname
    cases x with
    | nil =>
      have hac : a ≠ c := by
        rintro rfl
        rw [ha] at hc
        cases hc
      simp [startsWithName, dropLead?, hac]
    | cons d x =>
      by_cases had : a = d
      · simpa [startsWithName, dropLead?, had] using ih hname x
      · simp [startsWithName, dropLead?, had]

theorem mentionsAfter_of_separator (h : before.any isIdentifierCharacter = false) (name text : Text) :
    mentionsAfter name before text = mentions name text := by
  cases text with
  | nil => rfl
  | cons c rest => rw [mentions, mentionsAfter_cons, mentionsAfter_cons, h, Option.any_none]

theorem mentionsAfter_append (hname : IsIdentifier name) (hc : isIdentifierCharacter c = false)
    (before : Option Char) (x y : Text) :
    mentionsAfter name before (x ++ c :: y) = (mentionsAfter name before x || mentions name y) := by
  induction x generalizing before with
  | nil =>
    have hstart := startsWithName_append hname.2 hc [] y
    have hempty : startsWithName name [] = false := by
      obtain ⟨a, name, rfl⟩ := List.exists_cons_of_ne_nil hname.1
      rfl
    rw [List.nil_append] at hstart
    rw [List.nil_append, mentionsAfter_cons, hstart, hempty,
      mentionsAfter_of_separator (by simpa using hc), mentionsAfter]
    simp
  | cons d x ih =>
    rw [List.cons_append, mentionsAfter_cons, ih, ← List.cons_append,
      startsWithName_append hname.2 hc, mentionsAfter_cons, Bool.or_assoc]

/-- An identifier is mentioned on one of the sides of a separator. -/
theorem mentions_append (hname : IsIdentifier name) (hc : isIdentifierCharacter c = false) (x y : Text) :
    mentions name (x ++ c :: y) = (mentions name x || mentions name y) :=
  mentionsAfter_append hname hc none x y

theorem mentionsAfter_of_head_notMem {a : Char} {text : Text} (h : a ∉ text) (before : Option Char) :
    mentionsAfter (a :: name) before text = false := by
  induction text generalizing before with
  | nil => rfl
  | cons c rest ih =>
    rw [List.mem_cons, not_or] at h
    simp [mentionsAfter_cons, startsWithName, dropLead?, h.1, ih h.2]

/-- A text without the first letter of an identifier does not mention it. -/
theorem mentions_of_head_notMem {a : Char} {text : Text} (h : a ∉ text) :
    mentions (a :: name) text = false :=
  mentionsAfter_of_head_notMem h none

theorem mentionsAfter_inside (name : Text) (hbefore : before.any isIdentifierCharacter = true)
    (hword : ∀ d ∈ word, isIdentifierCharacter d = true) : mentionsAfter name before word = false := by
  induction word generalizing before with
  | nil => rfl
  | cons d word ih =>
    obtain ⟨hd, hword⟩ := List.forall_mem_cons.mp hword
    rw [mentionsAfter_cons, hbefore, ih (by simpa using hd) hword]
    rfl

/-- An identifier mentions itself only. -/
theorem mentions_identifier (name : Text) (hword : IsIdentifier word) :
    mentions name word = true ↔ name = word := by
  obtain ⟨hne, hall⟩ := hword
  cases word with
  | nil => exact absurd rfl hne
  | cons d word =>
    obtain ⟨hd, hrest⟩ := List.forall_mem_cons.mp hall
    rw [mentions, mentionsAfter_cons, mentionsAfter_inside name (by simpa using hd) hrest]
    simp only [Option.any_none, Bool.not_false, Bool.true_and, Bool.or_false, startsWithName,
      Option.any_eq_true, dropLead?_eq_some_iff]
    -- what is behind the name in the word would go on as an identifier, so nothing is
    constructor
    · rintro ⟨after, hsplit, hend⟩
      cases after with
      | nil => rw [hsplit, List.append_nil]
      | cons e after =>
        have he := hall e (by rw [hsplit]; simp)
        simp [he] at hend
    · rintro rfl
      exact ⟨[], by simp, by simp⟩

/-- Blanks at the end of a text mention nothing. -/
theorem mentions_trimEnd (hname : IsIdentifier name) (text : Text) :
    mentions name (trimEnd text) = mentions name text := by
  have hblank : ∀ c ∈ (text.reverse.takeWhile isBlank).reverse, isBlank c = true :=
    fun c hc => List.mem_takeWhile_imp (List.mem_reverse.mp hc)
  have hsplit := trimEnd_append_blanks text
  -- the first of the blanks that are cut off separates them from the text
  cases hb : (text.reverse.takeWhile isBlank).reverse with
  | nil =>
    rw [hb, List.append_nil] at hsplit
    rw [hsplit]
  | cons c blanks =>
    rw [hb] at hsplit hblank
    obtain ⟨hc, hblanks⟩ := List.forall_mem_cons.mp hblank
    have hnone : mentions name blanks = false := by
      obtain ⟨a, name, rfl⟩ := List.exists_cons_of_ne_nil hname.1
      refine mentions_of_head_notMem fun ha => ?_
      have hfirst := hname.2 a List.mem_cons_self
      rw [isIdentifierCharacter_of_isBlank (hblanks a ha)] at hfirst
      cases hfirst
    conv_rhs => rw [← hsplit]
    rw [mentions_append hname (isIdentifierCharacter_of_isBlank hc), hnone, Bool.or_false]

/-! ## Places of whole identifiers -/

theorem startsWithName_iff {text : Text} : startsWithName name text = true ↔
    ∃ back, text = name ++ back ∧ back.head?.any isIdentifierCharacter = false := by
  simp [startsWithName, Option.any_eq_true, dropLead?_eq_some_iff]

/-- Whether a name stands at a place of a text where neither neighbour can stand in an identifier. The
character in front of the text is a neighbour as well. -/
def StandsBehind (name : Text) (before : Option Char) (text : Text) : Prop :=
  ∃ front back, text = front ++ (name ++ back) ∧
    (before.toList ++ front).getLast?.any isIdentifierCharacter = false ∧
    back.head?.any isIdentifierCharacter = false

theorem mentionsAfter_iff (hne : name ≠ []) (before : Option Char) (text : Text) :
    mentionsAfter name before text = true ↔ StandsBehind name before text := by
  induction text generalizing before with
  | nil => simp [mentionsAfter, StandsBehind, hne]
  | cons c rest ih =>
    have hlast : ∀ front, (before.toList ++ c :: front).getLast? = ((some c).toList ++ front).getLast? :=
      fun front => List.getLast?_append_of_ne_nil _ (List.cons_ne_nil c front)
    rw [mentionsAfter_cons, Bool.or_eq_true, Bool.and_eq_true, startsWithName_iff, ih]
    constructor
    · rintro (⟨hbefore, back, htext, hback⟩ | ⟨front, back, rfl, hfront, hback⟩)
      · exact ⟨[], back, htext, by cases before <;> simp_all, hback⟩
      · exact ⟨c :: front, back, rfl, hlast front ▸ hfront, hback⟩
    · -- what is in front of the text is a neighbour only of a name at its start
      rintro ⟨front, back, htext, hfront, hback⟩
      cases front with
      | nil => exact .inl ⟨by cases before <;> simp_all, back, htext, hback⟩
      | cons d front =>
        obtain ⟨rfl, rfl⟩ := List.cons.inj htext
        exact .inr ⟨front, back, rfl, hlast front ▸ hfront, hback⟩

/-- Whether a name stands in a text as a whole identifier (`StandsBehind` some place of it). -/
def StandsIn (name text : Text) : Prop :=
  ∃ front back, text = front ++ (name ++ back) ∧ front.getLast?.any isIdentifierCharacter = false ∧
    back.head?.any isIdentifierCharacter = false

theorem mentions_iff (hne : name ≠ []) (text : Text) : mentions name text = true ↔ StandsIn name text :=
  mentionsAfter_iff hne none text

end ComponentKit.Source
