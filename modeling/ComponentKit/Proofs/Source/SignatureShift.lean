import ComponentKit.Proofs.Source.MethodBody
import ComponentKit.Proofs.Text.Blank
import ComponentKit.Proofs.Text.Occurrence

/-!
# Insertions in front of a method

A statement without parentheses that is put in front of a signature, behind a text in which `signatureFrom?` finds
none (`HasNoSignature`), only moves the method.
-/

namespace ComponentKit.Source

open Text

variable {name p q x y z rest text body opening inserted : Text} {offset start : Nat}
  {before : Option Char}

/-! ## Texts without a signature -/

/-- A signature that starts in front of a statement without parentheses has its name there. -/
theorem infix_of_afterSignature? (hname : ∀ c ∈ name, Unicode.isWord c = true) (hne : name ≠ [])
    (hy : '(' ∉ y) (h : Cursor.afterSignature? name ⟨before, x ++ (y ++ ';' :: rest)⟩ = some body) :
    name <:+: x := by
  obtain ⟨text, htext, hsig⟩ := afterSignature?_eq_some hname hne h
  obtain ⟨front, back, rfl, hback⟩ := hsig.named
  have hstop : ';' ∉ front ++ name ++ back := fun hmem => absurd (hsig.noStop _ hmem) (by decide)
  -- the signature does not go on behind the semicolon
  have hprefix : front ++ name ++ back <+: x ++ y := by
    have hlong : front ++ name ++ back <+: (x ++ y) ++ ';' :: rest :=
      ⟨'\x7b' :: body, by rw [← htext, List.append_assoc x y]⟩
    rcases prefix_append_cases hlong with hp | ⟨q, hq, hsplit⟩
    · exact hp
    · cases q with
      | nil => exact ⟨[], by simpa using hsplit⟩
      | cons c q =>
        obtain ⟨more, hmore⟩ := hq
        obtain rfl : c = ';' := (List.cons.inj hmore).1
        exact absurd (by rw [hsplit]; simp) hstop
  -- the opening parenthesis tells where the name can be: the statement has none
  obtain ⟨b₁, b₂, rfl⟩ := List.append_of_mem hback
  rcases List.prefix_or_prefix_of_prefix hprefix (List.prefix_append x y) with hp | ⟨tail, htail⟩
  · exact ⟨front, b₁ ++ '(' :: b₂ ++ hp.choose, by
      rw [← List.append_assoc]
      exact hp.choose_spec⟩
  · -- the parenthesis stands in front of the statement, and the name in front of it
    have hsuffix : tail <+: y := by
      rw [← htail] at hprefix
      exact (List.prefix_append_right_inj x).mp hprefix
    have hparen : '(' ∉ tail := fun hmem => hy (hsuffix.subset hmem)
    have hsplit : x ++ tail = (front ++ name ++ b₁) ++ '(' :: b₂ := by
      rw [htail]
      simp only [List.append_assoc]
    rcases List.append_eq_append_iff.mp hsplit with ⟨m, hm, hr⟩ | ⟨m, hx, -⟩
    · exact absurd (by rw [hr]; simp) hparen
    · exact ⟨front, b₁ ++ m, by rw [hx]; simp only [List.append_assoc]⟩

/-- Whether `signatureFrom?` finds none in a text, nor in a statement without parentheses behind it. -/
def HasNoSignature (name p : Text) : Prop :=
  ∀ offset before y rest, '(' ∉ y → signatureFrom? name offset before (p ++ (y ++ ';' :: rest))
    = signatureFrom? name (offset + (p ++ y).length + 1) (some ';') rest

theorem signatureFrom?_cons_of_none {c : Char}
    (h : Cursor.afterSignature? name ⟨before, c :: rest⟩ = none) :
    signatureFrom? name offset before (c :: rest) = signatureFrom? name (offset + 1) (some c) rest := by
  rw [signatureFrom?, h]

/-- In a text without the name there is no signature. -/
theorem hasNoSignature_of_not_infix (hname : ∀ c ∈ name, Unicode.isWord c = true) (hne : name ≠ [])
    (hp : ¬ name <:+: p) : HasNoSignature name p := by
  -- neither in `p` nor in the rest of the statement does a signature start, as each one has the name in it
  intro offset before y rest hy
  induction p generalizing offset before with
  | nil =>
    have hnil : ¬ name <:+: [] := fun h => hne (List.infix_nil.mp h)
    induction y generalizing offset before with
    | nil =>
      have hnone : Cursor.afterSignature? name ⟨before, ';' :: rest⟩ = none :=
        Option.eq_none_iff_forall_ne_some.mpr fun body hb =>
          hnil (infix_of_afterSignature? hname hne (x := []) (y := []) (by simp) hb)
      exact signatureFrom?_cons_of_none hnone
    | cons c y ih =>
      have hnone : Cursor.afterSignature? name ⟨before, c :: (y ++ ';' :: rest)⟩ = none :=
        Option.eq_none_iff_forall_ne_some.mpr fun body hb =>
          hnil (infix_of_afterSignature? hname hne (x := []) hy hb)
      rw [List.mem_cons, not_or] at hy
      rw [List.nil_append, List.cons_append, signatureFrom?_cons_of_none hnone]
      refine (ih hy.2 (offset + 1) (some c)).trans ?_
      congr 1
      simp only [List.nil_append, List.length_cons]
      omega
  | cons c p ih =>
    have hnone : Cursor.afterSignature? name ⟨before, c :: (p ++ (y ++ ';' :: rest))⟩ = none :=
      Option.eq_none_iff_forall_ne_some.mpr fun body hb =>
        hp (infix_of_afterSignature? hname hne (x := c :: p) hy hb)
    have hrest : ¬ name <:+: p := fun h => hp (h.trans (List.suffix_cons c p).isInfix)
    rw [List.cons_append, signatureFrom?_cons_of_none hnone, ih hrest]
    congr 1
    simp only [List.cons_append, List.length_cons]
    omega

/-- A statement without parentheses adds no signature. -/
theorem HasNoSignature.append (hname : ∀ c ∈ name, Unicode.isWord c = true) (hne : name ≠ [])
    (h : HasNoSignature name p) (hy : '(' ∉ y) : HasNoSignature name (p ++ (y ++ [';'])) := by
  intro offset before z rest hz
  have htext : p ++ (y ++ [';']) ++ (z ++ ';' :: rest) = p ++ (y ++ ';' :: (z ++ ';' :: rest)) := by simp
  -- behind the semicolon an empty text goes on, with the next statement
  have hnil := hasNoSignature_of_not_infix hname hne (fun h => hne (List.infix_nil.mp h))
    (offset + (p ++ y).length + 1) (some ';') z rest hz
  rw [List.nil_append] at hnil
  rw [htext, h offset before y _ hy, hnil]
  congr 1
  simp only [List.length_append, List.length_singleton, List.length_nil]
  omega

/-! ## Moving a signature -/

theorem isBoundary_congr {b b' : Option Char} (h : isWordNext b = isWordNext b') (text : Text) :
    isBoundary b text = isBoundary b' text := by
  rw [isBoundary, isBoundary, h]

/-- Of the character in front of a signature it only matters whether it belongs to a word. -/
theorem afterSignature?_congr {b b' : Option Char} (h : isWordNext b = isWordNext b') (text : Text) :
    Cursor.afterSignature? name ⟨b, text⟩ = Cursor.afterSignature? name ⟨b', text⟩ := by
  simp only [Cursor.afterSignature?, Cursor.optionally, Cursor.afterModifier?, Cursor.afterNamed?,
    isBoundary_congr h]

theorem signatureFrom?_congr {b b' : Option Char} (h : isWordNext b = isWordNext b') (text : Text) :
    signatureFrom? name offset b text = signatureFrom? name offset b' text := by
  cases text with
  | nil => rfl
  | cons c rest => rw [signatureFrom?, signatureFrom?, afterSignature?_congr h]

theorem signatureFrom?_add (name : Text) (offset shift : Nat) (before : Option Char) (text : Text) :
    signatureFrom? name (offset + shift) before text
      = (signatureFrom? name offset before text).map fun found => (found.1 + shift, found.2) := by
  induction text generalizing offset before with
  | nil => rfl
  | cons c rest ih =>
    rw [signatureFrom?, signatureFrom?]
    cases Cursor.afterSignature? name ⟨before, c :: rest⟩ with
    | some body => rfl
    | none =>
      have := ih (offset + 1) (some c)
      rw [Nat.add_right_comm] at this
      exact this

/-- A signature behind some text is found from there on. -/
theorem signatureFrom?_of_le (h : signatureFrom? name offset before (p ++ q) = some (start, body))
    (hle : offset + p.length ≤ start) :
    signatureFrom? name (offset + p.length) (p.getLast?.or before) q = some (start, body) := by
  induction p generalizing offset before with
  | nil => exact h
  | cons c p ih =>
    rw [List.cons_append, signatureFrom?] at h
    rw [List.length_cons] at hle
    -- a signature found in `p` would start too early
    cases hs : Cursor.afterSignature? name ⟨before, c :: (p ++ q)⟩ with
    | some found =>
      rw [hs] at h
      obtain rfl : offset = start := congrArg Prod.fst (Option.some.inj h)
      omega
    | none =>
      rw [hs] at h
      have := ih h (by omega)
      rw [getLast?_cons_or, List.length_cons, ← this]
      congr 1
      omega

/-- Nothing is found in a line break. -/
theorem signatureFrom?_append_break (hname : ∀ c ∈ name, Unicode.isWord c = true) (hne : name ≠ [])
    (hz : z = [] ∨ IsBreak z) (offset : Nat) (rest : Text) :
    signatureFrom? name offset (some ';') (z ++ rest)
      = signatureFrom? name (offset + z.length) (some ';') rest := by
  -- a signature starts with a character of a word
  have hnone : ∀ {c} (before : Option Char) (rest : Text), Unicode.isWord c = false →
      Cursor.afterSignature? name ⟨before, c :: rest⟩ = none := by
    intro c before rest hc
    refine Option.eq_none_iff_forall_ne_some.mpr fun body hb => ?_
    obtain ⟨text, htext, hsig⟩ := afterSignature?_eq_some hname hne hb
    have hword := hsig.wordFirst
    cases text with
    | nil => cases hword
    | cons d text =>
      obtain rfl := (List.cons.inj htext).1
      rw [List.head?_cons, Option.any_some, hc] at hword
      cases hword
  have hbefore : ∀ {c}, Unicode.isWord c = false → isWordNext (some c) = isWordNext (some ';') := by
    intro c hc
    simp only [isWordNext, Option.any_some, hc]
    decide
  rcases hz with rfl | rfl | rfl
  · rfl
  · rw [List.singleton_append, signatureFrom?_cons_of_none (hnone _ _ (by decide)),
      signatureFrom?_congr (hbefore (by decide))]
    rfl
  · rw [List.cons_append, List.singleton_append, signatureFrom?_cons_of_none (hnone _ _ (by decide)),
      signatureFrom?_cons_of_none (hnone _ _ (by decide)), signatureFrom?_congr (hbefore (by decide))]
    rfl

/-- Two splits of a text, the first of which is not behind the second. -/
theorem exists_between {tail : Text} (h : p ++ q = opening ++ tail) (hle : p.length ≤ opening.length) :
    ∃ between, opening = p ++ between ∧ q = between ++ tail := by
  obtain ⟨between, rfl⟩ : p <+: opening :=
    List.prefix_of_prefix_length_le ⟨q, h⟩ (List.prefix_append opening tail) hle
  rw [List.append_assoc] at h
  exact ⟨between, rfl, List.append_cancel_left h⟩

/-- A part that ends in front of the signature ends in front of the opening brace. -/
theorem IsMethod.exists_between (h : IsMethod name opening body rest start) {tail : Text}
    (htext : p ++ q = opening ++ tail) (hle : p.length ≤ start) :
    ∃ between, opening = p ++ between ∧ q = between ++ tail := by
  have := h.start_lt
  exact Source.exists_between htext (by omega)

/-- What stands between such a part and the body ends with the opening brace. -/
theorem IsMethod.getLast?_between {between : Text} (h : IsMethod name (p ++ between) body rest start)
    (hle : p.length ≤ start) : between.getLast? = some '\x7b' := by
  have hlt := h.start_lt
  rw [List.length_append] at hlt
  have hne : between ≠ [] := by
    rintro rfl
    rw [List.length_nil] at hlt
    omega
  rw [getLast?_of_suffix (List.suffix_append p between) hne]
  exact h.opens

/-- A statement without parentheses in front of a method moves it. -/
theorem IsMethod.insert_in_front {between : Text} (hname : ∀ c ∈ name, Unicode.isWord c = true)
    (hne : name ≠ []) (h : IsMethod name (p ++ between) body rest start) (hp : HasNoSignature name p)
    (hstart : p.length ≤ start) (hlast : isWordNext p.getLast? = false) (hy : '(' ∉ y)
    (hz : z = [] ∨ IsBreak z) (hinserted : inserted = y ++ ';' :: z) :
    IsMethod name (p ++ inserted ++ between) body rest (start + inserted.length) where
  signature tail := by
    have hfound := h.signature tail
    rw [List.append_assoc] at hfound
    have hbehind := signatureFrom?_of_le hfound (by omega)
    -- the search meets the rest with another character in front of it, but with none that goes on a word
    have hbefore : isWordNext (p.getLast?.or none) = isWordNext (some ';') := by
      rw [Option.or_none, hlast]
      decide
    rw [signatureFrom?_congr hbefore] at hbehind
    have htext : p ++ inserted ++ between ++ tail = p ++ (y ++ ';' :: (z ++ (between ++ tail))) := by
      rw [hinserted]
      simp
    have hoffset : 0 + (p ++ y).length + 1 + z.length = 0 + p.length + inserted.length := by
      rw [hinserted]
      simp only [List.length_append, List.length_cons]
      omega
    rw [htext, hp 0 none y _ hy, signatureFrom?_append_break hname hne hz, hoffset, signatureFrom?_add,
      hbehind]
    rfl
  closing := h.closing
  start_lt := by
    have := h.start_lt
    simp only [List.length_append] at this ⊢
    omega
  opens := by
    have hbetween := h.getLast?_between hstart
    have hne : between ≠ [] := by
      rintro rfl
      cases hbetween
    rw [← getLast?_of_suffix (List.suffix_append (p ++ inserted) between) hne]
    exact hbetween

end ComponentKit.Source
