import ComponentKit.Proofs.Source.Brace
import ComponentKit.Proofs.Source.Signature
import ComponentKit.Proofs.Text.Occurrence

/-!
# Editing the body of a method

A located method is a split of its text (`IsMethod`): everything up to the opening brace, the body, and the rest
from the closing brace on. The signature is settled by the first part alone and the closing brace by the levels of
the second, so `locate?` finds a method again after an edit of its body that keeps the level.
-/

namespace ComponentKit.Source

open Text

variable {name opening body rest text : Text} {start : Nat} {region : Region}

/-! ## The leftmost signature -/

/-- The signature that is found leftmost is found whatever follows its opening brace, if the texts up to that
brace settle whether a signature starts in them. -/
theorem signatureFrom?_eq_some_of_settled {S : Text → Prop}
    (hfound : ∀ {before text body}, Cursor.afterSignature? name ⟨before, text⟩ = some body →
      ∃ front, text = front ++ '\x7b' :: body ∧ front ≠ [] ∧ S (front ++ ['\x7b']))
    (hcons : ∀ c u, S u → S (c :: u))
    (hread : ∀ before u tail, S u → Cursor.afterSignature? name ⟨before, u ++ tail⟩
      = (Cursor.afterSignature? name ⟨before, u⟩).map (· ++ tail))
    {offset : Nat} {before : Option Char}
    (h : signatureFrom? name offset before text = some (start, body)) :
    ∃ front, text = front ++ '\x7b' :: body ∧ S (front ++ ['\x7b']) ∧ offset ≤ start ∧
      start < offset + front.length ∧
      ∀ tail, signatureFrom? name offset before (front ++ '\x7b' :: tail) = some (start, tail) := by
  -- in this form the brace stands in the settled text and the rest behind it
  have hread : ∀ before front tail, S (front ++ ['\x7b']) →
      Cursor.afterSignature? name ⟨before, front ++ '\x7b' :: tail⟩
        = (Cursor.afterSignature? name ⟨before, front ++ ['\x7b']⟩).map (· ++ tail) := by
    intro before front tail hsettled
    rw [← hread before _ tail hsettled, List.append_assoc, List.singleton_append]
  -- on the text, along with the search; an earlier place without a signature stays without one
  induction text generalizing offset before with
  | nil => simp [signatureFrom?] at h
  | cons c text ih =>
    rw [signatureFrom?] at h
    cases hs : Cursor.afterSignature? name ⟨before, c :: text⟩ with
    | some found =>
      obtain ⟨rfl, rfl⟩ : offset = start ∧ found = body := by simpa [hs] using h
      obtain ⟨front, hfront, hne, hsettled⟩ := hfound hs
      -- the reader stops behind the brace, so what follows the brace does not matter
      have hstops : Cursor.afterSignature? name ⟨before, front ++ ['\x7b']⟩ = some [] := by
        have hsame := hread before front found hsettled
        rw [← hfront, hs] at hsame
        obtain ⟨r, hr, hrf⟩ := Option.map_eq_some_iff.mp hsame.symm
        rw [hr, List.append_left_eq_self.mp hrf]
      obtain ⟨d, front, rfl⟩ := List.exists_cons_of_ne_nil hne
      obtain ⟨rfl, rfl⟩ := List.cons.inj hfront
      refine ⟨c :: front, rfl, hsettled, Nat.le_refl _, by simp, fun tail => ?_⟩
      rw [List.cons_append, signatureFrom?, ← List.cons_append, hread before _ tail hsettled, hstops]
      rfl
    | none =>
      rw [hs] at h
      obtain ⟨front, rfl, hsettled, hle, hlt, htails⟩ := ih h
      have hsettled : S (c :: front ++ ['\x7b']) := hcons c _ hsettled
      refine ⟨c :: front, rfl, hsettled, by omega, by rw [List.length_cons]; omega, fun tail => ?_⟩
      have hnone : Cursor.afterSignature? name ⟨before, c :: front ++ ['\x7b']⟩ = none :=
        Option.map_eq_none_iff.mp ((hread before (c :: front) body hsettled).symm.trans hs)
      rw [List.cons_append, signatureFrom?, ← List.cons_append, hread before _ tail hsettled, hnone]
      exact htails tail

/-- The signature of a method whose name is a word has no stop in front of its brace, which settles it. -/
theorem signatureFrom?_eq_some (hname : ∀ c ∈ name, Unicode.isWord c = true) (hne : name ≠ [])
    {offset : Nat} {before : Option Char}
    (h : signatureFrom? name offset before text = some (start, body)) :
    ∃ front, text = front ++ '\x7b' :: body ∧ offset ≤ start ∧ start < offset + front.length ∧
      ∀ tail, signatureFrom? name offset before (front ++ '\x7b' :: tail) = some (start, tail) := by
  have hfound : ∀ {before text body}, Cursor.afterSignature? name ⟨before, text⟩ = some body →
      ∃ front, text = front ++ '\x7b' :: body ∧ front ≠ [] ∧
        (front ++ ['\x7b']).any stopsSignature = true := by
    intro before text body hs
    obtain ⟨front, rfl, hsig⟩ := afterSignature?_eq_some hname hne hs
    refine ⟨front, rfl, ?_, by simp; exact .inr (by decide)⟩
    rintro rfl
    simpa using hsig.wordFirst
  obtain ⟨front, htext, -, hfront⟩ := signatureFrom?_eq_some_of_settled
    (S := fun u => u.any stopsSignature = true) hfound (fun c u hu => by simp [hu])
    (fun before u tail => readsToStop_afterSignature? hname before u tail) h
  exact ⟨front, htext, hfront⟩

/-! ### Names that are no words -/

/-- The end of a text that ends with a name and more does not fit into the name. It is longer than the name,
or it starts behind the start of the name, and the two differ in what stands in front of their first stop. -/
theorem not_prefix_name {front u z r : Text} (hnamed : name ++ front <:+ u) (hne : front ≠ [])
    (hsplit : u = z ++ r) (hz : ∀ c ∈ z, stopsSignature c = false) (hr : r.any stopsSignature = true) :
    ¬ r <+: name := by
  rintro ⟨more, rfl⟩
  have hlength := List.length_pos_iff.mpr hne
  -- the rest of the name starts in front of `r` or in it
  rcases List.suffix_or_suffix_of_suffix hnamed ⟨z, hsplit.symm⟩ with hs | ⟨lead, hlead⟩
  · have := hs.length_le
    simp only [List.length_append] at this
    omega
  · have hlz : lead <:+ z := by
      obtain ⟨w, hw⟩ := hnamed
      rw [← hlead, ← List.append_assoc, hsplit] at hw
      exact ⟨w, List.append_cancel_right hw⟩
    have hlead_plain : ∀ c ∈ lead, (!stopsSignature c) = true := fun c hc => by
      simp [hz c (hlz.subset hc)]
    have hstop : r.dropWhile (!stopsSignature ·) ≠ [] := by
      rw [Ne, List.dropWhile_eq_nil_iff]
      intro hall
      obtain ⟨c, hc, hs⟩ := List.any_eq_true.mp hr
      simpa [hs] using hall c hc
    -- both sides are cut at their first stop, which leaves `lead` no room
    have hcount := congrArg (List.takeWhile (!stopsSignature ·)) hlead
    rw [List.takeWhile_append_of_pos hlead_plain, List.append_assoc,
      takeWhile_append_of_ne_nil _ hstop] at hcount
    have hnil : lead = [] := List.append_left_eq_self.mp hcount
    have hsame := congrArg List.length hlead
    simp only [hnil, List.length_append, List.length_nil] at hsame
    omega

/-- A reader goes on behind a name as before, if its text ends behind the name. -/
theorem afterName?_append {before : Option Char} {u : Text} (hlast : u.getLast? = some '\x7b')
    (hname : ¬ u <+: name) (tail : Text) : Cursor.afterNamed? name ⟨before, u ++ tail⟩
      = (Cursor.afterNamed? name ⟨before, u⟩).map (· ++ tail) := by
  have hne : u ≠ [] := by
    rintro rfl
    cases hlast
  simp only [afterNamed?_eq, isBoundary_append before tail hne]
  split
  · cases h : dropLead? name u with
    | some t =>
      obtain rfl := dropLead?_eq_some_iff.mp h
      -- the name does not end with the text, so the brace is behind it
      have ht : t ≠ [] := by
        rintro rfl
        exact hname (by rw [List.append_nil])
      have hstop : t.any stopsSignature = true := by
        rw [List.getLast?_append_of_ne_nil _ ht] at hlast
        exact List.any_eq_true.mpr ⟨_, List.mem_of_getLast? hlast, by decide⟩
      rw [dropLead?_eq_some_iff.mpr (List.append_assoc name t tail)]
      exact afterParentheses?_append tail hstop
    | none =>
      suffices hnone : dropLead? name (u ++ tail) = none by rw [hnone]; rfl
      rw [Option.eq_none_iff_forall_ne_some]
      intro t ht
      have hprefix : name <+: u ++ tail := ⟨t, (dropLead?_eq_some_iff.mp ht).symm⟩
      -- a name that is found with the tail but not without it would reach over the end
      rcases List.prefix_or_prefix_of_prefix hprefix (List.prefix_append u tail) with ⟨t, rfl⟩ | hp
      · rw [dropLead?_eq_some_iff.mpr rfl] at h
        cases h
      · exact hname hp
  · rfl

/-- Whether a text ends with a name and more, up to an opening brace. -/
def EndsNamed (name text : Text) : Prop :=
  text.getLast? = some '\x7b' ∧ ∃ behind, behind ≠ [] ∧ name ++ behind <:+ text

theorem EndsNamed.cons {text : Text} (h : EndsNamed name text) (c : Char) : EndsNamed name (c :: text) := by
  obtain ⟨hlast, behind, hne, hnamed⟩ := h
  exact ⟨by rw [List.getLast?_cons, hlast]; rfl, behind, hne, hnamed.trans (List.suffix_cons c text)⟩

theorem EndsNamed.afterSignature?_append {text : Text} (h : EndsNamed name text) (before : Option Char)
    (tail : Text) : Cursor.afterSignature? name ⟨before, text ++ tail⟩
      = (Cursor.afterSignature? name ⟨before, text⟩).map (· ++ tail) := by
  obtain ⟨hlast, behind, hne, hnamed⟩ := h
  have hstop : text.any stopsSignature = true :=
    List.any_eq_true.mpr ⟨_, List.mem_of_getLast? hlast, by decide⟩
  refine Source.afterSignature?_append before tail hstop fun before z r hsplit hz hr => ?_
  refine afterName?_append ?_ (not_prefix_name hnamed hne hsplit hz hr) tail
  rw [← hlast, hsplit, List.getLast?_append_of_ne_nil _ (ne_nil_of_any hr)]

/-- The signature that is found leftmost is found whatever follows its opening brace. -/
theorem signatureFrom?_settled {offset : Nat} {before : Option Char}
    (h : signatureFrom? name offset before text = some (start, body)) :
    ∃ front, text = front ++ '\x7b' :: body ∧ offset ≤ start ∧ start < offset + front.length ∧
      ∀ tail, signatureFrom? name offset before (front ++ '\x7b' :: tail) = some (start, tail) := by
  have hfound : ∀ {before text body}, Cursor.afterSignature? name ⟨before, text⟩ = some body →
      ∃ front, text = front ++ '\x7b' :: body ∧ front ≠ [] ∧ EndsNamed name (front ++ ['\x7b']) := by
    intro before text body hs
    -- behind the name there is a parenthesis at least
    obtain ⟨lead, front, hrest, hparen⟩ := named_of_afterSignature? hs
    refine ⟨lead ++ (name ++ front), hrest.trans (by simp only [List.append_assoc]), ?_, by simp,
      front ++ ['\x7b'], by simp, lead, by simp only [List.append_assoc]⟩
    have := List.length_pos_of_mem hparen
    rw [← List.length_pos_iff]
    simp only [List.length_append]
    omega
  obtain ⟨front, htext, -, hfront⟩ := signatureFrom?_eq_some_of_settled hfound (fun c u hu => hu.cons c)
    (fun before u tail hu => hu.afterSignature?_append before tail) h
  exact ⟨front, htext, hfront⟩

/-! ## Methods as splits of a text -/

/-- Whether a text splits into all up to the opening brace of a method, its body, and the rest, as `locate?` finds
them. -/
structure IsMethod (name opening body rest : Text) (start : Nat) : Prop where
  /-- The signature is settled by the text up to the opening brace. -/
  signature : ∀ tail, signatureFrom? name 0 none (opening ++ tail) = some (start, tail)
  /-- The body ends where its brace is closed. -/
  closing : closingBraceFrom? 1 (body ++ '\x7d' :: rest) = some body.length
  /-- The signature is in front of the body. -/
  start_lt : start < opening.length
  /-- The opening brace is the last character in front of the body. -/
  opens : opening.getLast? = some '\x7b'

/-- The `Region` of a split of a text. -/
def regionOf (opening body : Text) (start : Nat) : Region :=
  ⟨start, opening.length, opening.length + body.length⟩

theorem IsMethod.locate? (h : IsMethod name opening body rest start) :
    locate? (opening ++ (body ++ '\x7d' :: rest)) name = some (regionOf opening body start) := by
  simp [Source.locate?, h.signature, h.closing, regionOf]

/-- A method that is located splits its text if its signature is settled by what is in front of its body. -/
theorem exists_split_of_locate? (h : locate? text name = some region)
    (hsettled : ∀ {start body}, signatureFrom? name 0 none text = some (start, body) →
      ∃ front, text = front ++ '\x7b' :: body ∧ 0 ≤ start ∧ start < 0 + front.length ∧
        ∀ tail, signatureFrom? name 0 none (front ++ '\x7b' :: tail) = some (start, tail)) :
    ∃ opening body rest, text = opening ++ (body ++ '\x7d' :: rest) ∧
      IsMethod name opening body rest region.signatureStart ∧
      region = regionOf opening body region.signatureStart := by
  rw [Source.locate?] at h
  simp only [Option.bind_eq_bind, Option.bind_eq_some_iff] at h
  obtain ⟨⟨start, after⟩, hsig, length, hlength, hregion⟩ := h
  obtain rfl := Option.some.inj hregion
  obtain ⟨front, rfl, -, hlt, htails⟩ := hsettled hsig
  obtain ⟨hbrace, -, -⟩ := closingBraceFrom?_spec Int.one_pos hlength
  have hle := Nat.le_of_lt (closingBraceFrom?_lt_length hlength)
  obtain ⟨rest, hrest⟩ : ∃ rest, after.drop length = '\x7d' :: rest := by
    obtain ⟨rest, hr⟩ := List.head?_eq_some_iff.mp hbrace
    exact ⟨rest, hr⟩
  -- what is behind the opening brace falls into the body and its closing brace
  have hsplit : after = after.take length ++ '\x7d' :: rest := by
    rw [← hrest, List.take_append_drop]
  have hlen : (after.take length).length = length := by
    rw [List.length_take, Nat.min_eq_left hle]
  refine ⟨front ++ ['\x7b'], after.take length, rest, ?_, ⟨fun tail => ?_, ?_, ?_, by simp⟩, ?_⟩
  · rw [← hsplit, List.append_assoc, List.singleton_append]
  · rw [List.append_assoc, List.singleton_append]
    exact htails tail
  · rw [← hsplit, hlength, hlen]
  · simp only [List.length_append, List.length_singleton]
    omega
  · have hstart : (front ++ '\x7b' :: after).length - after.length = (front ++ ['\x7b']).length := by
      simp only [List.length_append, List.length_cons, List.length_nil]
      omega
    simp only [regionOf, hlen, hstart]

/-- A method whose name is a word splits its text where it is located. -/
theorem locate?_eq_some (hname : ∀ c ∈ name, Unicode.isWord c = true) (hne : name ≠ [])
    (h : locate? text name = some region) :
    ∃ opening body rest, text = opening ++ (body ++ '\x7d' :: rest) ∧
      IsMethod name opening body rest region.signatureStart ∧
      region = regionOf opening body region.signatureStart :=
  exists_split_of_locate? h fun hsig => signatureFrom?_eq_some hname hne hsig

/-- A method splits its text where it is located, whatever its name is. -/
theorem exists_isMethod (h : locate? text name = some region) :
    ∃ opening body rest, text = opening ++ (body ++ '\x7d' :: rest) ∧
      IsMethod name opening body rest region.signatureStart ∧
      region = regionOf opening body region.signatureStart :=
  exists_split_of_locate? h fun hsig => signatureFrom?_settled hsig

/-- The body of a split. -/
theorem body_regionOf (opening body rest : Text) (start : Nat) :
    (regionOf opening body start).body (opening ++ (body ++ rest)) = body := by
  rw [Region.body, regionOf, slice, ← List.append_assoc, ← List.length_append, List.take_left,
    List.drop_left]

/-- What is in front of the body of a split. -/
theorem take_bodyStart_regionOf (opening body rest : Text) (start : Nat) :
    (opening ++ (body ++ rest)).take (regionOf opening body start).bodyStart = opening :=
  List.take_left

/-- A split up to the end of its body. -/
theorem take_bodyEnd_regionOf (opening body rest : Text) (start : Nat) :
    (opening ++ (body ++ rest)).take (regionOf opening body start).bodyEnd = opening ++ body := by
  rw [← List.append_assoc]
  exact List.take_left' List.length_append

/-- What is behind the body of a split. -/
theorem drop_bodyEnd_regionOf (opening body rest : Text) (start : Nat) :
    (opening ++ (body ++ rest)).drop (regionOf opening body start).bodyEnd = rest := by
  rw [← List.append_assoc]
  exact List.drop_left' List.length_append

/-- A piece of the body may be exchanged for another one of the same level that closes no brace of its
surroundings: the method is found again, and has the new body. -/
theorem IsMethod.exchange {a w v b : Text} (h : IsMethod name opening (a ++ w ++ b) rest start)
    (hw : level w = level v) (hv : ∀ p, p <+: v → 0 ≤ level p) :
    IsMethod name opening (a ++ v ++ b) rest start where
  signature := h.signature
  closing := closingBraceFrom?_exchange Int.one_pos h.closing hw hv
  start_lt := h.start_lt
  opens := h.opens

/-- Behind no point of the body more braces are opened than closed. -/
theorem IsMethod.level_suffix (h : IsMethod name opening body rest start) {s : Text} (hs : s <:+ body) :
    level s ≤ 0 := by
  obtain ⟨p, rfl⟩ := hs
  obtain ⟨-, hone, hpos⟩ := closingBraceFrom?_spec Int.one_pos h.closing
  rw [List.take_left] at hone hpos
  have hp := hpos p (List.prefix_append p s)
  rw [level_append] at hone
  omega

theorem isBrace_of_isBlank {c : Char} (h : isBlank c = true) : isBrace c = false := by
  rw [isBrace, Bool.or_eq_false_iff]
  constructor <;>
  · rw [beq_eq_false_iff_ne]
    rintro rfl
    exact absurd h (by decide)

/-- A method whose body starts with a line and is found with the line in it does not end in the line, and
all braces that the line leaves open are closed behind it. -/
theorem exists_closed_behind {lead line more : Text} {c : Char}
    (hsignature : ∀ tail, signatureFrom? name 0 none (opening ++ tail) = some (start, tail))
    (hlead : ∀ c ∈ lead, isBlank c = true) (hhead : line.head? = some c) (hc : isBlank c = false)
    (hlocated : Source.locate? (opening ++ (lead ++ (line ++ more))) name = some region)
    (hin : line <:+: region.body (opening ++ (lead ++ (line ++ more)))) :
    OpensFirst line ∧ ∃ q, q <+: more ∧ level line + level q = 0 := by
  have hblank : c ∉ lead := by
    intro hmem
    rw [hlead c hmem] at hc
    cases hc
  have hzero : level lead = 0 := level_eq_zero_of_forall fun d hd => isBrace_of_isBlank (hlead d hd)
  obtain ⟨length, hclosing, rfl⟩ : ∃ length, closingBraceFrom? 1 (lead ++ (line ++ more)) = some length ∧
      region = ⟨start, opening.length, opening.length + length⟩ := by
    simp only [Source.locate?, hsignature, Option.bind_eq_bind, Option.bind_eq_some_iff] at hlocated
    obtain ⟨found, hfound, length, hclosing, hregion⟩ := hlocated
    obtain rfl := Option.some.inj hfound
    exact ⟨length, hclosing, by simpa using (Option.some.inj hregion).symm⟩
  obtain ⟨-, hlevel, hpos⟩ := closingBraceFrom?_spec Int.one_pos hclosing
  obtain ⟨body, hbody⟩ : ∃ body, body = (lead ++ (line ++ more)).take length := ⟨_, rfl⟩
  have hregion : Region.body ⟨start, opening.length, opening.length + length⟩
      (opening ++ (lead ++ (line ++ more))) = body := by
    rw [Region.body, slice, List.take_length_add_append, List.drop_left, hbody]
  rw [hregion] at hin
  rw [← hbody] at hlevel hpos
  have hprefix : body <+: lead ++ (line ++ more) := hbody ▸ List.take_prefix _ _
  -- the body has the whole line, since the line is in it and does not start among the blanks
  obtain ⟨q, hq, rfl⟩ : ∃ q, q <+: more ∧ body = lead ++ (line ++ q) := by
    rcases prefix_append_cases hprefix with hp | ⟨r, hr, rfl⟩
    · exact absurd ((hin.trans hp.isInfix).subset (List.mem_of_head? hhead)) hblank
    · rw [infix_append_of_first hhead hblank] at hin
      rcases prefix_append_cases hr with hr | ⟨q, hq, rfl⟩
      · rw [hr.eq_of_length (Nat.le_antisymm hr.length_le hin.length_le)]
        exact ⟨[], List.nil_prefix, by rw [List.append_nil]⟩
      · exact ⟨q, hq, rfl⟩
  refine ⟨fun p hp => ?_, q, hq, ?_⟩
  · have := hpos (lead ++ p) ((List.prefix_append_right_inj lead).mpr (hp.trans (List.prefix_append line q)))
    rw [level_append, hzero] at this
    omega
  · rw [level_append, level_append, hzero] at hlevel
    omega

/-- A text up to a point of the body that has opened a brace reaches back to the opening brace. -/
theorem IsMethod.brace_cons_suffix (h : IsMethod name opening body rest start) {s : Text}
    (hs : s <:+ opening ++ body) (hlevel : 0 < level s) : '\x7b' :: body <:+ s := by
  have hnot : ¬ s <:+ body := by
    intro hbody
    have := h.level_suffix hbody
    omega
  obtain ⟨lead, rfl⟩ :=
    (List.suffix_or_suffix_of_suffix hs (List.suffix_append opening body)).resolve_left hnot
  have hne : lead ≠ [] := by
    rintro rfl
    exact hnot List.suffix_rfl
  have hopen : lead.getLast? = some '\x7b' := by
    rw [getLast?_of_suffix (List.suffix_append_self_iff.mp hs) hne, h.opens]
  obtain ⟨lead, rfl⟩ := List.getLast?_eq_some_iff.mp hopen
  exact ⟨lead, List.append_cons lead _ body⟩

end ComponentKit.Source
