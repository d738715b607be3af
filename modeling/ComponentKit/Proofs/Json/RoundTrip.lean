import ComponentKit.Json.Reader
import ComponentKit.Proofs.Json.Lexeme

/-!
# Printed documents are read back

The reader is followed through a printed document: it comes from the state in front of a value to the state behind
it (`Leads`), on whatever stack and in whatever surroundings, by an induction over the value. So a document that
was printed is read as the value that was printed, if its numbers are integers, the members of each object have
different names, and it is not nested too deeply for the reader (`IsKept.read_toText`).
-/

namespace ComponentKit.Json

open Text

variable {dialect : Dialect} {state next last : State} {stack : List Frame} {text middle rest name : Text}
  {value : Json} {indent outer depth : Nat} {c : Char} {items acc : List Json}
  {members before : List (Text × Json)}

/-! ## Following the reader -/

/-- What the reader makes of a text from an offset on, which is `step` for each of the `tokensFrom` there. -/
def readFrom (dialect : Dialect) (offset : Nat) (state : State) (text : Text) : Except Fault State :=
  (tokensFrom dialect offset text).foldlM (step dialect) state

/-- Whether the reader gets from a state in front of `text` to a state in front of `rest`, wherever in a
document that is. -/
def Leads (dialect : Dialect) (state : State) (text : Text) (next : State) (rest : Text) : Prop :=
  ∀ offset, ∃ reached, readFrom dialect offset state text = readFrom dialect reached next rest

namespace Leads

theorem trans (h₁ : Leads dialect state text next middle) (h₂ : Leads dialect next middle last rest) :
    Leads dialect state text last rest := by
  intro offset
  obtain ⟨between, h₁⟩ := h₁ offset
  obtain ⟨reached, h₂⟩ := h₂ between
  exact ⟨reached, h₁.trans h₂⟩

theorem space (hc : isSpace c = true) : Leads dialect state (c :: rest) state rest := by
  intro offset
  refine ⟨offset + 1, ?_⟩
  rw [readFrom, tokensFrom, if_pos hc, readFrom]

theorem spaces {gap : Text} (hgap : ∀ c ∈ gap, isSpace c = true) :
    Leads dialect state (gap ++ rest) state rest := by
  induction gap with
  | nil => exact fun offset => ⟨offset, rfl⟩
  | cons c gap ih =>
    exact (space (hgap c List.mem_cons_self)).trans (ih fun d hd => hgap d (List.mem_cons_of_mem c hd))

/-- The start of a line is passed over. -/
theorem newLine (indent : Nat) : Leads dialect state (newLine indent ++ rest) state rest := by
  refine spaces fun c hc => ?_
  rcases List.mem_cons.mp hc with rfl | hc
  · rfl
  · rw [List.eq_of_mem_replicate hc]
    rfl

/-- A punctuation mark is one step. -/
theorem mark {token : Token} (hmark : punctuation? c = some token) (hspace : isSpace c = false)
    (hstep : ∀ offset, step dialect state (offset, token) = .ok next) :
    Leads dialect state (c :: rest) next rest := by
  intro offset
  refine ⟨offset + 1, ?_⟩
  rw [readFrom, tokensFrom, hspace, if_neg Bool.false_ne_true, hmark, List.foldlM_cons, hstep]
  rfl

/-- A printed text is one step. -/
theorem quoted (hstep : ∀ offset, step dialect state (offset, .text name) = .ok next) :
    Leads dialect state (printText name ++ rest) next rest := by
  intro offset
  refine ⟨offset + 1 + ((name.flatMap printCharacter).length + 1), ?_⟩
  have hprint : printText name ++ rest = '"' :: (name.flatMap printCharacter ++ '"' :: rest) := by
    simp [printText]
  have hspace : isSpace '"' = false := by decide
  have hdrop : (name.flatMap printCharacter ++ '"' :: rest).drop ((name.flatMap printCharacter).length + 1)
      = rest := by
    rw [← List.drop_drop, List.drop_left]
    rfl
  rw [readFrom, hprint, tokensFrom, hspace, if_neg Bool.false_ne_true, show punctuation? '"' = none from rfl]
  -- the quoted text is read up to its closing quote, and the rest from there on
  simp only [if_true, readText_flatMap, hdrop]
  rw [List.foldlM_cons, hstep]
  rfl

/-- A word or an integer is one step. -/
theorem scalar (hscalar : IsScalar value text) (hrest : EndsNumber rest)
    (hstep : ∀ offset, step dialect state (offset, .scalar value) = .ok next) :
    Leads dialect state (text ++ rest) next rest := by
  intro offset
  refine ⟨offset + text.length, ?_⟩
  have hread := readScalar_append hscalar hrest
  obtain ⟨c, more, rfl, hspace, hmark, hquote⟩ := hscalar.exists_first
  rw [List.cons_append] at hread ⊢
  rw [readFrom, tokensFrom, hspace, if_neg Bool.false_ne_true, hmark, if_neg hquote]
  simp only [hread, List.length_cons, Nat.add_sub_cancel, List.drop_left]
  rw [List.foldlM_cons, hstep]
  rfl

end Leads

/-! ## Values in their place -/

/-- Whether a value has to come next, which then stands on top of `stack`. -/
inductive Awaits : State → List Frame → Prop where
  | value (stack : List Frame) : Awaits (.value stack) stack
  | firstItem (stack : List Frame) : Awaits (.firstItem stack) (.array [] :: stack)

/-- Where a value has to come, it does not matter whether a list could end instead. -/
theorem Awaits.step_eq (h : Awaits state stack) {token : Token} (hne : token ≠ .closeArray) (offset : Nat) :
    step dialect state (offset, token) = stepValue dialect stack offset token := by
  cases h with
  | value => rfl
  | firstItem => cases token <;> first | rfl | exact absurd rfl hne

/-- Whether a reader lets another list or object be opened in `depth` of them. -/
def Dialect.Opens (dialect : Dialect) (depth : Nat) : Prop :=
  ∀ limit ∈ dialect.maxDepth, depth < limit

theorem openFrame_of_opens (h : dialect.Opens stack.length) (offset : Nat) (next : State) :
    openFrame dialect offset stack next = .ok next := by
  rw [openFrame]
  cases hlimit : dialect.maxDepth with
  | none => rfl
  | some limit =>
    have hdepth := h limit hlimit
    exact if_neg (by omega)

/-- Whether a printed value is read back in `depth` lists and objects, whatever stands around it. -/
def ReadsBack (dialect : Dialect) (depth : Nat) (value : Json) : Prop :=
  ∀ state stack, Awaits state stack → stack.length = depth → ∀ indent rest, EndsNumber rest →
    Leads dialect state (print indent value ++ rest) (.complete value stack) rest

theorem readsBack_scalar (hscalar : IsScalar value text) (hprint : ∀ indent, print indent value = text) :
    ReadsBack dialect depth value := by
  intro state stack hstate hdepth indent rest hrest
  rw [hprint]
  refine .scalar hscalar hrest fun offset => ?_
  rw [hstate.step_eq (by simp)]
  rfl

theorem readsBack_text (value : Text) : ReadsBack dialect depth (.text value) := by
  intro state stack hstate hdepth indent rest hrest
  refine .quoted fun offset => ?_
  rw [hstate.step_eq (by simp)]
  rfl

/-! ## Lists -/

theorem endsNumber_printItems (indent outer : Nat) (items : List Json) (rest : Text) :
    EndsNumber (printItems indent items ++ (newLine outer ++ rest)) := by
  cases items with
  | nil => exact endsNumber_cons (by decide) (by decide) _
  | cons item items => exact endsNumber_cons (by decide) (by decide) _

/-- The items after one that is complete are read up to the end of their list. -/
theorem leads_items (hitems : ∀ item ∈ items, ReadsBack dialect (stack.length + 1) item)
    (indent outer : Nat) (acc : List Json) (value : Json) (rest : Text) :
    Leads dialect (.complete value (.array acc :: stack))
      (printItems indent items ++ (newLine outer ++ ']' :: rest))
      (.complete (.array ((value :: acc).reverse ++ items)) stack) rest := by
  -- on the items to come; the frame has those that were read before `value`, the last one first
  induction items generalizing acc value with
  | nil =>
    rw [List.append_nil]
    exact (Leads.newLine outer).trans (.mark rfl rfl fun offset => rfl)
  | cons item items ih =>
    have hprint : printItems indent (item :: items) ++ (newLine outer ++ ']' :: rest)
        = ',' :: (newLine indent ++ (print indent item
          ++ (printItems indent items ++ (newLine outer ++ ']' :: rest)))) := by
      simp [printItems, concat]
    -- the comma puts the complete value in front of the others, and asks for the next one
    have hcomma (rest : Text) : Leads dialect (.complete value (.array acc :: stack)) (',' :: rest)
        (.value (.array (value :: acc) :: stack)) rest :=
      .mark rfl rfl fun offset => rfl
    have hitem := hitems item List.mem_cons_self (.value (.array (value :: acc) :: stack)) _ (.value _) rfl
      indent _ (endsNumber_printItems indent outer items (']' :: rest))
    have hmore := ih (fun other hother => hitems other (List.mem_cons_of_mem item hother)) (value :: acc) item
    rw [hprint, show (value :: acc).reverse ++ item :: items = (item :: value :: acc).reverse ++ items by simp]
    exact (hcomma _).trans ((Leads.newLine indent).trans (hitem.trans hmore))

theorem readsBack_array (hopen : dialect.Opens depth)
    (hitems : ∀ item ∈ items, ReadsBack dialect (depth + 1) item) : ReadsBack dialect depth (.array items) := by
  rintro state stack hstate rfl indent rest hrest
  have hstart (rest : Text) : Leads dialect state ('[' :: rest) (.firstItem stack) rest :=
    .mark rfl rfl fun offset => by
      rw [hstate.step_eq (by simp)]
      exact openFrame_of_opens hopen offset _
  -- an empty list is closed at once; otherwise the first item is read without a comma
  cases items with
  | nil => exact (hstart _).trans (.mark rfl rfl fun offset => rfl)
  | cons item items =>
    have hprint : print indent (.array (item :: items)) ++ rest = '[' :: (newLine (indent + 2)
        ++ (print (indent + 2) item ++ (printItems (indent + 2) items ++ (newLine indent ++ ']' :: rest)))) := by
      simp [print, concat]
    have hitem := hitems item List.mem_cons_self (.firstItem stack) _ (.firstItem _) rfl (indent + 2) _
      (endsNumber_printItems (indent + 2) indent items (']' :: rest))
    have hmore := leads_items (fun other hother => hitems other (List.mem_cons_of_mem item hother))
      (indent + 2) indent [] item rest
    rw [hprint]
    exact (hstart _).trans ((Leads.newLine (indent + 2)).trans (hitem.trans hmore))

/-! ## Objects -/

theorem endsNumber_printMembers (indent outer : Nat) (members : List (Text × Json)) (rest : Text) :
    EndsNumber (printMembers indent members ++ (newLine outer ++ rest)) := by
  cases members with
  | nil => exact endsNumber_cons (by decide) (by decide) _
  | cons member members => exact endsNumber_cons (by decide) (by decide) _

/-- A member with a new name comes last. -/
theorem insertMember_of_notMem (h : name ∉ members.map (·.1)) (value : Json) :
    insertMember members name value = members ++ [(name, value)] := by
  have hany : (members.any fun member => member.1 == name) = false := by
    refine List.any_eq_false.mpr fun member hmember hname => h ?_
    rw [← eq_of_beq hname]
    exact List.mem_map_of_mem hmember
  rw [insertMember, hany, if_neg Bool.false_ne_true]

/-- The name of a member is new behind the members before it. -/
theorem notMem_of_nodup (h : ((before ++ (name, value) :: members).map (·.1)).Nodup) :
    name ∉ before.map (·.1) := by
  rw [List.map_append, List.map_cons] at h
  exact fun hmem => (List.disjoint_of_nodup_append h) hmem List.mem_cons_self

/-- A member is read where its name has to come. -/
theorem leads_member (hvalue : ReadsBack dialect (stack.length + 1) value)
    (hname : ∀ offset, step dialect state (offset, .text name) = .ok (.colon before name stack))
    (indent : Nat) (hrest : EndsNumber rest) :
    Leads dialect state (printText name ++ (": ".toList ++ (print indent value ++ rest)))
      (.complete value (.object before name :: stack)) rest := by
  have hcolon (rest : Text) :
      Leads dialect (.colon before name stack) (':' :: rest) (.value (.object before name :: stack)) rest :=
    .mark rfl rfl fun offset => rfl
  exact (Leads.quoted hname).trans ((hcolon _).trans
    ((Leads.space rfl).trans (hvalue _ _ (.value _) rfl indent rest hrest)))

/-- The members after one that is complete are read up to the end of their object. -/
theorem leads_members (hmembers : ∀ member ∈ members, ReadsBack dialect (stack.length + 1) member.2)
    (hnames : ((before ++ (name, value) :: members).map (·.1)).Nodup) (indent outer : Nat) (rest : Text) :
    Leads dialect (.complete value (.object before name :: stack))
      (printMembers indent members ++ (newLine outer ++ '\x7d' :: rest))
      (.complete (.object (before ++ (name, value) :: members)) stack) rest := by
  -- on the members to come; those in `before` have been read, and the value of `name` is complete
  induction members generalizing before name value with
  | nil =>
    -- a name that is new goes behind the others, in the order of the text
    have hnew := notMem_of_nodup hnames
    refine (Leads.newLine outer).trans (.mark rfl rfl fun offset => ?_)
    rw [← insertMember_of_notMem hnew]
    rfl
  | cons member members ih =>
    obtain ⟨following, content⟩ := member
    have hnew := notMem_of_nodup hnames
    have hprint : printMembers indent ((following, content) :: members) ++ (newLine outer ++ '\x7d' :: rest)
        = ',' :: (newLine indent ++ (printText following ++ (": ".toList ++ (print indent content
          ++ (printMembers indent members ++ (newLine outer ++ '\x7d' :: rest)))))) := by
      simp [printMembers, concat]
    have hcomma (rest : Text) : Leads dialect (.complete value (.object before name :: stack)) (',' :: rest)
        (.nextName (before ++ [(name, value)]) stack) rest := .mark rfl rfl fun offset => by
      rw [← insertMember_of_notMem hnew]
      rfl
    have hname : ∀ offset, step dialect (.nextName (before ++ [(name, value)]) stack) (offset, .text following)
        = .ok (.colon (before ++ [(name, value)]) following stack) := fun offset => rfl
    have hmember := leads_member (hmembers _ List.mem_cons_self) hname indent
      (endsNumber_printMembers indent outer members ('\x7d' :: rest))
    have happend : before ++ (name, value) :: (following, content) :: members
        = before ++ [(name, value)] ++ (following, content) :: members := by simp
    rw [happend] at hnames ⊢
    rw [hprint]
    exact (hcomma _).trans ((Leads.newLine indent).trans (hmember.trans
      (ih (fun other hother => hmembers other (List.mem_cons_of_mem _ hother)) hnames)))

theorem readsBack_object (hopen : dialect.Opens depth) (hnames : (members.map (·.1)).Nodup)
    (hmembers : ∀ member ∈ members, ReadsBack dialect (depth + 1) member.2) :
    ReadsBack dialect depth (.object members) := by
  rintro state stack hstate rfl indent rest hrest
  have hstart (rest : Text) : Leads dialect state ('\x7b' :: rest) (.firstName stack) rest :=
    .mark rfl rfl fun offset => by
      rw [hstate.step_eq (by simp)]
      exact openFrame_of_opens hopen offset _
  -- as with a list, the first member has no comma in front of it
  cases members with
  | nil => exact (hstart _).trans (.mark rfl rfl fun offset => rfl)
  | cons member members =>
    obtain ⟨name, value⟩ := member
    have hprint : print indent (.object ((name, value) :: members)) ++ rest = '\x7b' :: (newLine (indent + 2)
        ++ (printText name ++ (": ".toList ++ (print (indent + 2) value
          ++ (printMembers (indent + 2) members ++ (newLine indent ++ '\x7d' :: rest)))))) := by
      simp [print, concat]
    have hname : ∀ offset, step dialect (.firstName stack) (offset, .text name) = .ok (.colon [] name stack) :=
      fun offset => rfl
    have hmember := leads_member (hmembers _ List.mem_cons_self) hname (indent + 2)
      (endsNumber_printMembers (indent + 2) indent members ('\x7d' :: rest))
    rw [hprint]
    exact (hstart _).trans ((Leads.newLine (indent + 2)).trans (hmember.trans (leads_members
      (fun other hother => hmembers other (List.mem_cons_of_mem _ hother)) hnames (indent + 2) indent rest)))

/-! ## Documents -/

/-- Whether a value is kept in a document that is read in a dialect, in `depth` lists and objects around it:
its numbers are integers, the members of each object have different names, and the dialect admits the
nesting. -/
inductive IsKept (dialect : Dialect) : Nat → Json → Prop where
  | null {depth : Nat} : IsKept dialect depth .null
  | bool {depth : Nat} (value : Bool) : IsKept dialect depth (.bool value)
  | int {depth : Nat} (n : Int) : IsKept dialect depth (.int n)
  | text {depth : Nat} (value : Text) : IsKept dialect depth (.text value)
  | array {depth : Nat} {items : List Json} (hopen : dialect.Opens depth)
    (hitems : ∀ item ∈ items, IsKept dialect (depth + 1) item) : IsKept dialect depth (.array items)
  | object {depth : Nat} {members : List (Text × Json)} (hopen : dialect.Opens depth)
    (hnames : (members.map (·.1)).Nodup) (hmembers : ∀ member ∈ members, IsKept dialect (depth + 1) member.2) :
    IsKept dialect depth (.object members)

theorem IsKept.readsBack (h : IsKept dialect depth value) : ReadsBack dialect depth value := by
  induction h with
  | null => exact readsBack_scalar .null fun indent => rfl
  | bool value => exact readsBack_scalar (.bool value) fun indent => rfl
  | int n => exact readsBack_scalar (.int n) fun indent => rfl
  | text value => exact readsBack_text value
  | array hopen hitems ih => exact readsBack_array hopen ih
  | object hopen hnames hmembers ih => exact readsBack_object hopen hnames ih

/-- No document starts with a byte order mark. -/
theorem IsKept.exists_print (h : IsKept dialect depth value) (indent : Nat) :
    ∃ c rest, print indent value = c :: rest ∧ c ≠ '\uFEFF' := by
  cases h with
  | null => exact ⟨_, _, rfl, by decide⟩
  | bool value => cases value <;> exact ⟨_, _, rfl, by decide⟩
  | int n =>
    obtain ⟨c, digits, hdigit, hn | hn⟩ := exists_ofInt n
    · refine ⟨c, digits, hn, ?_⟩
      rintro rfl
      cases hdigit
    · exact ⟨_, _, hn, by decide⟩
  | text value => exact ⟨_, _, rfl, by decide⟩
  | @array _ items => cases items <;> exact ⟨_, _, rfl, by decide⟩
  | @object _ members => cases members <;> exact ⟨_, _, rfl, by decide⟩

/-- A document that was printed is read as the value that was printed. -/
theorem IsKept.read_toText (h : IsKept dialect 0 value) : read dialect value.toText = .ok value := by
  obtain ⟨reached, hleads⟩ := h.readsBack _ _ (.value []) rfl 0 [] endsNumber_nil 0
  have hend : readFrom dialect reached (.complete value []) [] = .ok (.complete value []) := by
    rw [readFrom, tokensFrom]
    rfl
  rw [List.append_nil, hend, readFrom] at hleads
  have hmark : ¬ (print 0 value).head? = some '\uFEFF' := by
    obtain ⟨c, rest, hprint, hne⟩ := h.exists_print 0
    rw [hprint]
    exact fun heq => hne (Option.some.inj heq)
  rw [read, readBy, toText, if_neg hmark]
  simp only [hleads, finish, bind, Except.bind]

/-! ## Line breaks -/

theorem return_notMem_printCharacter (c : Char) : '\r' ∉ printCharacter c := by
  have hfigure : ∀ k < 16, hexDigit k ≠ '\r' := by decide
  have hdigits : '\r' ∉ hexDigits 4 c.toNat := by
    simp [hexDigits_four, Ne.symm (hfigure _ (Nat.mod_lt _ (by decide)))]
  rw [printCharacter.eq_def]
  split
  case h_8 hreturn _ =>
    split
    · simp [hdigits]
    · simpa using fun h => hreturn h.symm
  all_goals decide

theorem return_notMem_printText (value : Text) : '\r' ∉ printText value := by
  simp [printText, return_notMem_printCharacter]

theorem return_notMem_newLine (indent : Nat) : '\r' ∉ newLine indent := by
  simp [newLine]

theorem return_notMem_ofInt (n : Int) : '\r' ∉ ofInt n := by
  have hfigures : '\r' ∉ ofNat n.natAbs := fun hmem => absurd (isDigit_of_mem_ofNat hmem) (by decide)
  rw [ofInt]
  split <;> simp [hfigures]

theorem return_notMem_printItems (h : ∀ item ∈ items, ∀ indent, '\r' ∉ print indent item) (indent : Nat) :
    '\r' ∉ printItems indent items := by
  induction items with
  | nil => simp [printItems]
  | cons item items ih =>
    have hmore := ih fun other hother => h other (List.mem_cons_of_mem item hother)
    simp [printItems, concat, return_notMem_newLine, h item List.mem_cons_self, hmore]

theorem return_notMem_printMembers (h : ∀ member ∈ members, ∀ indent, '\r' ∉ print indent member.2)
    (indent : Nat) : '\r' ∉ printMembers indent members := by
  induction members with
  | nil => simp [printMembers]
  | cons member members ih =>
    have hmore := ih fun other hother => h other (List.mem_cons_of_mem member hother)
    simp [printMembers, concat, return_notMem_newLine, return_notMem_printText, h member List.mem_cons_self, hmore]

/-- A printed document has no carriage returns: its lines end in line feeds, and in texts both are escaped. -/
theorem IsKept.return_notMem_print (h : IsKept dialect depth value) (indent : Nat) :
    '\r' ∉ print indent value := by
  induction h generalizing indent with
  | null => simp [print]
  | bool value => cases value <;> simp [print]
  | int n => exact return_notMem_ofInt n
  | text value => exact return_notMem_printText value
  -- the signs around items and members are fixed, and none is a carriage return
  | @array _ items _ _ ih =>
    cases items with
    | nil => simp [print]
    | cons item items =>
      have hmore := return_notMem_printItems fun other hother => ih other (List.mem_cons_of_mem item hother)
      simp [print, concat, return_notMem_newLine, ih item List.mem_cons_self, hmore]
  | @object _ members _ _ _ ih =>
    cases members with
    | nil => simp [print]
    | cons member members =>
      have hmore := return_notMem_printMembers fun other hother => ih other (List.mem_cons_of_mem member hother)
      simp [print, concat, return_notMem_newLine, return_notMem_printText, ih member List.mem_cons_self, hmore]

end ComponentKit.Json
