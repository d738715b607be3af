import ComponentKit.Proofs.Text.Blank
import ComponentKit.Proofs.Text.Span
import ComponentKit.Source.Call

/-!
# The end of a call

A call that is closed splits the text it is read from: `endOfCall?` ends it with its closing parenthesis or with
the semicolon after it. `endOfLine` splits a text in front of its line break.
-/

namespace ComponentKit.Text

/-! ## Slices -/

theorem slice_append (x segment y : Text) :
    slice x.length (x.length + segment.length) (x ++ (segment ++ y)) = segment := by
  rw [slice, ← List.append_assoc, ← List.length_append, List.take_left, List.drop_left]

/-- An insertion behind a part of known length. -/
theorem insertAt_append (x inserted y : Text) :
    insertAt x.length inserted (x ++ y) = x ++ inserted ++ y := by
  rw [insertAt, List.take_left, List.drop_left]

/-! ## The end of a line -/

/-- The end of a line depends on the text up to the limit only. -/
theorem endOfLine_eq (x segment y : Text) :
    endOfLine (x ++ (segment ++ y)) x.length (x.length + segment.length)
      = x.length + endOfLine segment 0 segment.length := by
  have hslice : slice 0 segment.length segment = segment := by simp [slice]
  simp only [endOfLine, slice_append, hslice]
  split
  · rfl
  · rename_i hline
    split
    · rename_i hlast
      -- a line that ends with a return is not empty, so taking one off its length loses nothing
      have hne : segment.takeWhile (· != '\n') ≠ [] := by
        intro hnil
        rw [hnil] at hlast
        cases hlast
      have := List.length_pos_iff.mpr hne
      omega
    · omega

/-- The end of a line is the limit, or in front of a line break. -/
theorem endOfLine_split (segment : Text) :
    ∃ line back, segment = line ++ back ∧ (∀ c ∈ line, c ≠ '\n') ∧
      endOfLine segment 0 segment.length = line.length ∧ (back = [] ∨ startsWithBreak back) := by
  have hsplit := List.takeWhile_append_dropWhile (p := (· != '\n')) (l := segment)
  have hline : ∀ c ∈ segment.takeWhile (· != '\n'), c ≠ '\n' :=
    fun c hc => by simpa using List.mem_takeWhile_imp hc
  have hslice : slice 0 segment.length segment = segment := by simp [slice]
  simp only [endOfLine, hslice]
  generalize segment.takeWhile (· != '\n') = line at hsplit hline ⊢
  -- without a line feed the line is the whole segment
  by_cases hfull : line.length = segment.length
  · refine ⟨segment, [], by simp, ?_, by simp [hfull], .inl rfl⟩
    have hnil : segment.dropWhile (· != '\n') = [] := by
      have := congrArg List.length hsplit
      rw [List.length_append] at this
      exact List.eq_nil_of_length_eq_zero (by omega)
    rw [hnil, List.append_nil] at hsplit
    rwa [← hsplit]
  · have hback : ∃ rest, segment.dropWhile (· != '\n') = '\n' :: rest := by
      rcases dropWhile_cases (· != '\n') segment with hnil | ⟨c, rest, hc, hp⟩
      · rw [hnil, List.append_nil] at hsplit
        exact absurd (congrArg List.length hsplit) hfull
      · exact ⟨rest, by rw [hc]; simpa using hp⟩
    obtain ⟨rest, hrest⟩ := hback
    rw [hrest] at hsplit
    rw [if_neg hfull]
    -- the return in front of the feed belongs to the line break
    by_cases hcr : line.getLast? = some '\r'
    · obtain ⟨kept, rfl⟩ := List.getLast?_eq_some_iff.mp hcr
      refine ⟨kept, '\r' :: '\n' :: rest, by rw [← hsplit]; simp,
        fun c hc => hline c (List.mem_append_left _ hc), ?_, .inr ⟨rest, .inr rfl⟩⟩
      rw [if_pos hcr, List.length_append, List.length_singleton]
      omega
    · exact ⟨line, '\n' :: rest, hsplit.symm, hline, by rw [if_neg hcr, Nat.zero_add], .inr ⟨rest, .inl rfl⟩⟩

end ComponentKit.Text

namespace ComponentKit.Source

open Text

/-! ## The end of a call -/

/-- Whether a text ends like a call: with a closing parenthesis, perhaps with a semicolon behind it. -/
def endsLikeCall (text : Text) : Prop :=
  ∃ front ending, text = front ++ ')' :: ending ∧
    (ending = [] ∨ ∃ gap, ending = gap ++ [';'] ∧ ∀ c ∈ gap, isIndent c = true)

theorem endsLikeCall.append_left {text : Text} (h : endsLikeCall text) (x : Text) :
    endsLikeCall (x ++ text) := by
  obtain ⟨front, ending, rfl, hending⟩ := h
  exact ⟨x ++ front, ending, by rw [List.append_assoc], hending⟩

theorem endsLikeCall.getLast? {text : Text} (h : endsLikeCall text) :
    text.getLast? = some ')' ∨ text.getLast? = some ';' := by
  obtain ⟨front, ending, rfl, rfl | ⟨gap, rfl, -⟩⟩ := h
  · exact .inl List.getLast?_concat
  · right
    rw [List.append_cons, ← List.append_assoc, List.getLast?_concat]

theorem endsLikeCall.ne_nil {text : Text} (h : endsLikeCall text) : text ≠ [] := by
  obtain ⟨front, ending, rfl, -⟩ := h
  simp

/-- The last character of a call is not a blank. -/
theorem endsLikeCall.isBlank_getLast? {text : Text} (h : endsLikeCall text) :
    ∃ c, text.getLast? = some c ∧ isBlank c = false := by
  rcases h.getLast? with hlast | hlast
  · exact ⟨_, hlast, by decide⟩
  · exact ⟨_, hlast, by decide⟩

/-- The characters of a call are those up to a closing parenthesis. -/
theorem callLength?_eq_some {mode : Mode} {depth n : Nat} {text : Text}
    (h : callLength? mode depth text = some n) :
    ∃ front back, text = front ++ ')' :: back ∧ n = front.length + 1 := by
  induction text generalizing mode depth n with
  | nil => simp [callLength?] at h
  | cons c text ih =>
    -- every branch but the last parenthesis goes on with the rest
    have hrec : (c = ')' ∧ n = 1) ∨
        ∃ mode depth m, callLength? mode depth text = some m ∧ n = m + 1 := by
      rw [callLength?] at h
      split at h
      · obtain ⟨m, hm, rfl⟩ := Option.map_eq_some_iff.mp h
        exact .inr ⟨_, _, m, hm, rfl⟩
      · split at h
        · rename_i hclose
          split at h
          · exact .inl ⟨hclose.2, (Option.some.inj h).symm⟩
          · obtain ⟨m, hm, rfl⟩ := Option.map_eq_some_iff.mp h
            exact .inr ⟨_, _, m, hm, rfl⟩
        · obtain ⟨m, hm, rfl⟩ := Option.map_eq_some_iff.mp h
          exact .inr ⟨_, _, m, hm, rfl⟩
    rcases hrec with ⟨rfl, rfl⟩ | ⟨mode, depth, m, hm, rfl⟩
    · exact ⟨[], text, rfl, rfl⟩
    · obtain ⟨front, back, rfl, rfl⟩ := ih hm
      exact ⟨c :: front, back, rfl, rfl⟩

/-- A semicolon that belongs to a call ends what is taken of the text; otherwise nothing is. -/
theorem semicolonLength_split (text : Text) :
    ∃ taken back, text = taken ++ back ∧ semicolonLength text = taken.length ∧
      (taken = [] ∨ ∃ gap, taken = gap ++ [';'] ∧ ∀ c ∈ gap, isIndent c = true) := by
  simp only [semicolonLength, indentation, drop_length_takeWhile]
  split
  · rename_i back hback
    refine ⟨text.takeWhile isIndent ++ [';'], back, ?_, by simp,
      .inr ⟨_, rfl, fun c hc => List.mem_takeWhile_imp hc⟩⟩
    rw [List.append_assoc, List.singleton_append, ← hback, List.takeWhile_append_dropWhile]
  · exact ⟨[], text, rfl, rfl, .inl rfl⟩

/-- The length of the first call of a text with the semicolon behind it, from the start of the text: `callLength?` and
`semicolonLength` together. -/
def callEnd? (segment : Text) : Option Nat :=
  let lead := segment.takeWhile (· != '(')
  let call := segment.dropWhile (· != '(')
  (callLength? .code 0 call).map fun length =>
    lead.length + length + semicolonLength (call.drop length)

/-- The end of a call depends on the text between its start and the limit only. -/
theorem endOfCall?_eq (x segment y : Text) :
    endOfCall? (x ++ (segment ++ y)) x.length (x.length + segment.length)
      = (callEnd? segment).map (x.length + ·) := by
  simp only [endOfCall?, callEnd?, slice_append, drop_length_takeWhile, Option.map_map]
  congr 1
  funext length
  simp only [Function.comp, Nat.add_assoc]

/-- A call that is closed ends inside its text. -/
theorem callEnd?_eq_some {segment : Text} {n : Nat} (h : callEnd? segment = some n) :
    ∃ call back, segment = call ++ back ∧ n = call.length ∧ endsLikeCall call := by
  simp only [callEnd?, Option.map_eq_some_iff] at h
  obtain ⟨length, hlength, rfl⟩ := h
  have hsplit := List.takeWhile_append_dropWhile (p := (· != '(')) (l := segment)
  generalize segment.takeWhile (· != '(') = lead at hsplit hlength ⊢
  generalize segment.dropWhile (· != '(') = call at hsplit hlength ⊢
  obtain ⟨front, after, rfl, rfl⟩ := callLength?_eq_some hlength
  obtain ⟨taken, back, rfl, hsemi, htaken⟩ := semicolonLength_split after
  -- behind the parenthesis stands what the semicolon is looked for in
  have hdrop : (front ++ ')' :: (taken ++ back)).drop (front.length + 1) = taken ++ back := by
    rw [List.append_cons front]
    exact List.drop_left' (by simp)
  refine ⟨lead ++ (front ++ [')'] ++ taken), back, by simp [← hsplit], ?_, ?_⟩
  · rw [hdrop, hsemi]
    simp only [List.length_append, List.length_singleton]
    omega
  · exact ⟨lead ++ front, taken, by simp, htaken⟩

/-! ## Plain code -/

/-- Whether a character of code neither opens nor closes anything. -/
def isPlainCode (c : Char) : Bool :=
  !(c == '(' || c == ')' || c == '/' || Mode.isStringQuote c)

end ComponentKit.Source
