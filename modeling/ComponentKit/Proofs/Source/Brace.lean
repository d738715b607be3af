import ComponentKit.Source.MethodBody
import Mathlib

/-!
# Counting braces

The `level` of a text is the number of braces it opens minus the number it closes. The brace that closes a body
(`closingBraceFrom?`) is the first one at which the level of the body falls to zero, so a piece of the body may be
exchanged for another one of the same level that does not close more than it opens on the way.
-/

namespace ComponentKit.Source

open Text

/-! ## Levels -/

/-- What a character adds to the level of a text. -/
def braceStep (c : Char) : Int :=
  if c = '\x7b' then 1 else if c = '\x7d' then -1 else 0

/-- How many more braces a text opens than it closes. -/
def level (text : Text) : Int :=
  (text.map braceStep).sum

@[simp] theorem level_nil : level [] = 0 := rfl

@[simp] theorem level_cons (c : Char) (text : Text) : level (c :: text) = braceStep c + level text := by
  simp [level]

@[simp] theorem level_append (x y : Text) : level (x ++ y) = level x + level y := by
  simp [level]

/-- Whether a character is a brace. -/
def isBrace (c : Char) : Bool :=
  c == '\x7b' || c == '\x7d'

/-- A text without braces keeps the level everywhere. -/
theorem level_eq_zero_of_forall {text : Text} (h : ∀ c ∈ text, isBrace c = false) :
    level text = 0 := by
  induction text with
  | nil => rfl
  | cons c text ih =>
    have hc : isBrace c = false := h c (by simp)
    simp only [isBrace, Bool.or_eq_false_iff, beq_eq_false_iff_ne] at hc
    rw [level_cons, ih fun d hd => h d (by simp [hd]), braceStep, if_neg hc.1, if_neg hc.2, Int.add_zero]

/-- What stands in front of a seam is a prefix of one part or reaches into the other one. -/
theorem prefix_append_cases {p x y : Text} (h : p <+: x ++ y) :
    p <+: x ∨ ∃ q, q <+: y ∧ p = x ++ q := by
  rcases List.prefix_or_prefix_of_prefix h (List.prefix_append x y) with h' | ⟨q, rfl⟩
  · exact .inl h'
  · exact .inr ⟨q, (List.prefix_append_right_inj x).mp h, rfl⟩

/-! ## Texts that open first -/

/-- Whether a text closes no brace that it has not opened. -/
def OpensFirst (text : Text) : Prop :=
  ∀ p, p <+: text → 0 ≤ level p

namespace OpensFirst

variable {x y : Text}

theorem level_nonneg (h : OpensFirst x) : 0 ≤ level x :=
  h x List.prefix_rfl

theorem of_forall (h : ∀ c ∈ x, isBrace c = false) : OpensFirst x :=
  fun _ hp => Int.le_of_eq (level_eq_zero_of_forall fun c hc => h c (hp.subset hc)).symm

theorem append (hx : OpensFirst x) (hy : OpensFirst y) : OpensFirst (x ++ y) := by
  intro p hp
  rcases prefix_append_cases hp with hp | ⟨q, hq, rfl⟩
  · exact hx p hp
  · rw [level_append]
    exact Int.add_nonneg hx.level_nonneg (hy q hq)

theorem of_append_left (h : OpensFirst (x ++ y)) : OpensFirst x :=
  fun p hp => h p (hp.trans (List.prefix_append x y))

theorem of_append_right (h : OpensFirst (x ++ y)) (hx : level x = 0) : OpensFirst y := by
  intro p hp
  have := h (x ++ p) ((List.prefix_append_right_inj x).mpr hp)
  rwa [level_append, hx, Int.zero_add] at this

theorem braced (hx : OpensFirst x) : OpensFirst ('\x7b' :: (x ++ ['\x7d'])) := by
  have hopen : braceStep '\x7b' = 1 := rfl
  have hclose : level ['\x7d'] = -1 := rfl
  intro p hp
  -- a prefix ends in front of the opening brace, within `x`, or behind the closing brace
  rcases List.prefix_cons_iff.mp hp with rfl | ⟨t, rfl, ht⟩
  · exact Int.le_refl 0
  · rw [level_cons, hopen]
    rcases prefix_append_cases ht with ht | ⟨q, hq, rfl⟩
    · have := hx t ht
      omega
    · have := hx.level_nonneg
      rw [level_append]
      rcases List.prefix_cons_iff.mp hq with rfl | ⟨r, rfl, hr⟩
      · rw [level_nil]
        omega
      · rw [List.prefix_nil.mp hr, hclose]
        omega

end OpensFirst

/-- A text that closes every brace it opens, and no other one. -/
structure Balanced (text : Text) : Prop where
  /-- Up to no point more braces are closed than opened. -/
  nonneg : ∀ p, p <+: text → 0 ≤ level p
  /-- In the end all are closed. -/
  closed : level text = 0

theorem Balanced.of_forall {text : Text} (h : ∀ c ∈ text, isBrace c = false) : Balanced text :=
  ⟨OpensFirst.of_forall h, level_eq_zero_of_forall h⟩

theorem Balanced.append {x y : Text} (hx : Balanced x) (hy : Balanced y) : Balanced (x ++ y) :=
  ⟨OpensFirst.append hx.nonneg hy.nonneg, by rw [level_append, hx.closed, hy.closed, Int.add_zero]⟩

/-! ## The braces of a text -/

/-- The level of a text is that of its braces. -/
@[simp] theorem level_filter_isBrace (text : Text) : level (text.filter isBrace) = level text := by
  induction text with
  | nil => rfl
  | cons c text ih =>
    cases hc : isBrace c with
    | true => rw [List.filter_cons_of_pos hc, level_cons, level_cons, ih]
    | false =>
      have hzero : level [c] = 0 := level_eq_zero_of_forall (by simpa using hc)
      rw [List.filter_cons_of_neg (by simp [hc]), ih, ← List.singleton_append, level_append, hzero,
        Int.zero_add]

/-- Whether a text opens first depends on its braces alone. -/
theorem opensFirst_filter_isBrace {text : Text} : OpensFirst (text.filter isBrace) ↔ OpensFirst text := by
  constructor
  · intro h p hp
    rw [← level_filter_isBrace]
    exact h _ (hp.filter isBrace)
  · rintro h p ⟨rest, hrest⟩
    obtain ⟨front, back, rfl, rfl, -⟩ := List.filter_eq_append_iff.mp hrest.symm
    rw [level_filter_isBrace]
    exact h _ (List.prefix_append front back)

/-- Texts with the same braces open first together. -/
theorem opensFirst_congr {x y : Text} (h : x.filter isBrace = y.filter isBrace) :
    OpensFirst x ↔ OpensFirst y := by
  rw [← opensFirst_filter_isBrace, h, opensFirst_filter_isBrace]

theorem level_congr {x y : Text} (h : x.filter isBrace = y.filter isBrace) : level x = level y := by
  rw [← level_filter_isBrace, h, level_filter_isBrace]

theorem balanced_congr {x y : Text} (h : x.filter isBrace = y.filter isBrace) : Balanced x ↔ Balanced y :=
  ⟨fun hx => ⟨(opensFirst_congr h).mp hx.nonneg, level_congr h ▸ hx.closed⟩,
    fun hy => ⟨(opensFirst_congr h).mpr hy.nonneg, level_congr h ▸ hy.closed⟩⟩

/-! ## The closing brace -/

/-- The search stops at the brace that closes the last open one, and changes the depth by each other character. -/
theorem closingBraceFrom?_cons (depth : Int) (c : Char) (text : Text) : closingBraceFrom? depth (c :: text)
    = if depth = 1 ∧ c = '\x7d' then some 0
      else (closingBraceFrom? (depth + braceStep c) text).map (· + 1) := by
  rw [closingBraceFrom?, braceStep]
  by_cases ho : c = '\x7b'
  · simp [ho]
  · by_cases hc : c = '\x7d'
    · by_cases hone : depth = 1
      · simp [hc, hone]
      · simp [hc, hone, Int.sub_eq_add_neg]
    · simp [ho, hc]

/-- The depth stays positive where the search does not stop. -/
theorem depth_pos {depth : Int} {c : Char} (hd : 0 < depth) (h : ¬ (depth = 1 ∧ c = '\x7d')) :
    0 < depth + braceStep c := by
  rw [not_and_or] at h
  rw [braceStep]
  split
  · omega
  · split
    · have := h.resolve_right (not_not.mpr ‹_›)
      omega
    · omega

/-- A search for the closing brace passes over a text in which the level stays positive. -/
theorem closingBraceFrom?_append {depth : Int} {x : Text} (y : Text)
    (h : ∀ p, p <+: x → 0 < depth + level p) :
    closingBraceFrom? depth (x ++ y)
      = (closingBraceFrom? (depth + level x) y).map (· + x.length) := by
  induction x generalizing depth with
  | nil => simp
  | cons c x ih =>
    -- no character of `x` is the brace that is searched for, as the level behind it is positive
    have hstep : closingBraceFrom? depth (c :: (x ++ y))
        = (closingBraceFrom? (depth + braceStep c) (x ++ y)).map (· + 1) := by
      have hc : 0 < depth + level [c] := h [c] ⟨x, rfl⟩
      rw [closingBraceFrom?_cons, if_neg]
      rintro ⟨rfl, rfl⟩
      exact absurd hc (by decide)
    rw [List.cons_append, hstep, ih fun p hp => ?_, Option.map_map, level_cons, Int.add_assoc,
      List.length_cons]
    · rfl
    · simpa [Int.add_assoc] using h (c :: p) ((List.prefix_cons_inj c).mpr hp)

/-- Up to the closing brace the level stays positive. -/
theorem level_pos_of_closingBraceFrom? {depth : Int} {x y : Text} {n : Nat} (hd : 0 < depth)
    (h : closingBraceFrom? depth (x ++ y) = some n) (hn : x.length ≤ n) :
    ∀ p, p <+: x → 0 < depth + level p := by
  induction x generalizing depth n with
  | nil =>
    intro p hp
    rw [List.prefix_nil.mp hp]
    simpa using hd
  | cons c x ih =>
    rw [List.cons_append, closingBraceFrom?_cons] at h
    split at h
    · obtain rfl := Option.some.inj h
      simp at hn
    · -- the scan goes on behind `c`, as it ends behind `x`
      obtain ⟨m, hm, rfl⟩ := Option.map_eq_some_iff.mp h
      have hpos := depth_pos hd ‹_›
      intro p hp
      rcases List.prefix_cons_iff.mp hp with rfl | ⟨t, rfl, ht⟩
      · simpa using hd
      · have := ih hpos hm (by simpa using hn) t ht
        rw [level_cons]
        omega

/-- If the search finds no closing brace, the level stays positive. -/
theorem level_pos_of_closingBraceFrom?_eq_none {depth : Int} {text : Text} (hd : 0 < depth)
    (h : closingBraceFrom? depth text = none) : ∀ p, p <+: text → 0 < depth + level p := by
  -- a brace that brought the level down to zero would have been found
  induction text generalizing depth with
  | nil =>
    intro p hp
    rw [List.prefix_nil.mp hp]
    simpa using hd
  | cons c text ih =>
    rw [closingBraceFrom?_cons] at h
    split at h
    · cases h
    · intro p hp
      rcases List.prefix_cons_iff.mp hp with rfl | ⟨t, rfl, ht⟩
      · simpa using hd
      · have := ih (depth_pos hd ‹_›) (Option.map_eq_none_iff.mp h) t ht
        rw [level_cons]
        omega

/-- At the closing brace the level falls to zero. -/
theorem closingBraceFrom?_eq_zero_iff {depth : Int} {text : Text} :
    closingBraceFrom? depth text = some 0 ↔ depth = 1 ∧ text.head? = some '\x7d' := by
  cases text with
  | nil => simp [closingBraceFrom?]
  | cons c text =>
    rw [closingBraceFrom?_cons]
    split
    · simpa using ‹_ ∧ _›
    · simpa using ‹¬ (_ ∧ _)›

theorem closingBraceFrom?_lt_length {depth : Int} {text : Text} {n : Nat}
    (h : closingBraceFrom? depth text = some n) : n < text.length := by
  induction text generalizing depth n with
  | nil => simp [closingBraceFrom?] at h
  | cons c text ih =>
    rw [closingBraceFrom?_cons] at h
    split at h
    · obtain rfl := Option.some.inj h
      simp
    · obtain ⟨m, hm, rfl⟩ := Option.map_eq_some_iff.mp h
      simpa using ih hm

/-- The text up to the closing brace, and the brace. -/
theorem closingBraceFrom?_spec {depth : Int} {text : Text} {n : Nat} (hd : 0 < depth)
    (h : closingBraceFrom? depth text = some n) :
    (text.drop n).head? = some '\x7d' ∧ depth + level (text.take n) = 1 ∧
      ∀ p, p <+: text.take n → 0 < depth + level p := by
  have hlen : (text.take n).length = n := by
    rw [List.length_take, Nat.min_eq_left (Nat.le_of_lt (closingBraceFrom?_lt_length h))]
  rw [← List.take_append_drop n text] at h
  have hpos := level_pos_of_closingBraceFrom? hd h (Nat.le_of_eq hlen)
  rw [closingBraceFrom?_append _ hpos] at h
  obtain ⟨m, hm, hmn⟩ := Option.map_eq_some_iff.mp h
  obtain rfl : m = 0 := by omega
  have hz := closingBraceFrom?_eq_zero_iff.mp hm
  exact ⟨hz.2, hz.1, hpos⟩

/-- A piece in front of the closing brace may be exchanged for another one of the same level that
closes no brace of its surroundings. -/
theorem closingBraceFrom?_exchange {depth : Int} {a w v b rest : Text} (hd : 0 < depth)
    (h : closingBraceFrom? depth (a ++ w ++ b ++ '\x7d' :: rest) = some (a ++ w ++ b).length)
    (hw : level w = level v) (hv : ∀ p, p <+: v → 0 ≤ level p) :
    closingBraceFrom? depth (a ++ v ++ b ++ '\x7d' :: rest) = some (a ++ v ++ b).length := by
  have hpos := level_pos_of_closingBraceFrom? hd h (Nat.le_refl _)
  -- in front of its closing brace the depth is one
  have hone : depth + level (a ++ w ++ b) = 1 := by
    rw [closingBraceFrom?_append _ hpos] at h
    obtain ⟨m, hm, hmn⟩ := Option.map_eq_some_iff.mp h
    obtain rfl : m = 0 := by omega
    exact (closingBraceFrom?_eq_zero_iff.mp hm).1
  -- the exchange leaves the level in front of the closing brace
  have hlevel : level (a ++ v ++ b) = level (a ++ w ++ b) := by simp only [level_append, hw]
  rw [closingBraceFrom?_append _ fun p hp => ?_]
  · rw [closingBraceFrom?_eq_zero_iff.mpr ⟨by rw [hlevel, hone], rfl⟩]
    simp
  · rw [List.append_assoc] at hp
    -- a prefix ends in front of the piece, within it, or behind it
    rcases prefix_append_cases hp with hp | ⟨q, hq, rfl⟩
    · exact hpos p (hp.trans ⟨w ++ b, (List.append_assoc a w b).symm⟩)
    · rcases prefix_append_cases hq with hq | ⟨r, hr, rfl⟩
      · have ha := hpos a ⟨w ++ b, (List.append_assoc a w b).symm⟩
        have hq0 := hv q hq
        rw [level_append]
        omega
      · have har := hpos (a ++ w ++ r) ((List.prefix_append_right_inj _).mpr hr)
        simp only [level_append, ← hw] at har ⊢
        omega

end ComponentKit.Source
