import ComponentKit.Proofs.Component.Reading
import ComponentKit.Proofs.Name.Spacing
import ComponentKit.Proofs.Registry.Export
import ComponentKit.Proofs.Template.Filter
import ComponentKit.Proofs.Template.Rendering
import ComponentKit.Proofs.Text.Figures

/-!
# Free text in a component

What a user may write freely goes into the header comment and into literals, and does not change what is code. The
name of the project is the exception: the key made of it (`projectSlug`) stands between single quotes unfiltered,
so that a single quote in it ends the literal. `haveSameCode_iff_noBareQuote` says so of two runs with the same
name.
-/

namespace ComponentKit

namespace Template

variable {template other : Template}

/-! ## Spelling out templates -/

/-- A literal of a template, as its characters. -/
theorem spell_text {characters : List Char} (h : template = other) :
    .text (String.ofList characters).toList :: template = .text characters :: other := by
  rw [h, String.toList_ofList]

theorem spell_piece (piece : Piece) (h : template = other) : piece :: template = piece :: other := by
  rw [h]

end Template

namespace Component

open Text Source Source.Mode Template

variable {kind : Kind} {name created created' : Text} {details details' : Details} {mode mode' : Mode}
  {template : Template} {x : Text}

/-! ## Names in a component -/

/-- What a name that a slot takes looks like. -/
def IsNamePart (x : Text) : Prop :=
  ∀ c ∈ x, isInert c = true ∧ c ≠ '\r'

theorem isNamePart_of_isAscii (h : isAscii x) : IsNamePart x := by
  intro c hc
  refine ⟨isInert_of_isAlphanum (h c hc), ?_⟩
  rintro rfl
  exact absurd (h _ hc) (by decide)

theorem isNamePart_of_isKeyCharacter (h : ∀ c ∈ x, Name.isKeyCharacter c = true) : IsNamePart x := by
  intro c hc
  refine ⟨isInert_of_isKeyCharacter (h c hc), ?_⟩
  rintro rfl
  exact absurd (h _ hc) (by decide)

theorem isAscii_typeSuffix (kind : Kind) : isAscii kind.conventions.typeSuffix := by
  have h : kind.conventions.typeSuffix.all (·.isAlphanum) = true := by cases kind <;> rfl
  exact List.all_eq_true.mp h

theorem isAscii_typeName (h : Name.IsPlain name) (kind : Kind) : isAscii (typeName kind name) := by
  intro c hc
  rcases List.mem_append.mp hc with hc | hc
  · exact h.isAscii_pascal c hc
  · exact isAscii_typeSuffix kind c hc

theorem isAscii_instanceName (h : Name.IsPlain name) (kind : Kind) : isAscii (instanceName kind name) := by
  intro c hc
  rcases List.mem_append.mp hc with hc | hc
  · rw [Name.camel] at hc
    cases hwords : Name.words name with
    | nil => simp [hwords] at hc
    | cons w ws =>
      have hall : ∀ v ∈ w :: ws, isAscii v := fun v hv => h v (by rwa [hwords])
      simp only [hwords, List.mem_append, List.mem_flatMap] at hc
      rcases hc with hc | ⟨v, hv, hc⟩
      · exact isAscii_lower (hall w List.mem_cons_self) c hc
      · exact isAscii_capitalize (hall v (List.mem_cons_of_mem w hv)) c hc
  · exact isAscii_typeSuffix kind c hc

/-- The slots that take a name. -/
def nameSlots : List Piece := [typeSlot, instanceSlot, keySlot]

/-- A slot that takes a name takes the same one whatever the details. -/
theorem render_nameSlot {piece : Piece} (h : piece ∈ nameSlots) (hname : Name.IsPlain name) (kind : Kind) :
    ∃ x, IsNamePart x ∧ ∀ details created,
      piece.render (context kind name details created) = .ok x := by
  simp only [nameSlots, List.mem_cons, List.not_mem_nil, or_false] at h
  rcases h with rfl | rfl | rfl
  · exact ⟨_, isNamePart_of_isAscii (isAscii_typeName hname kind), fun _ _ => rfl⟩
  · exact ⟨_, isNamePart_of_isAscii (isAscii_instanceName hname kind), fun _ _ => rfl⟩
  · exact ⟨_, isNamePart_of_isKeyCharacter fun _ hc => hname.isKeyCharacter_of_mem_kebab hc,
      fun _ _ => rfl⟩

/-! ## Reading a template -/

/-- The mode behind a template in which names stand in settled modes and descriptions between single quotes, by `scan`
of its texts. -/
def scanTemplate (mode : Mode) : Template → Option Mode
  | [] => some mode
  | .text x :: rest => (mode.scan x).bind (scanTemplate · rest)
  | .slot value filters :: rest =>
    if Piece.slot value filters ∈ nameSlots ∧ mode.Settled
        ∨ Piece.slot value filters = descriptionInString ∧ mode = .quoted '\x27' then
      scanTemplate mode rest
    else none

/-- What is rendered for two details leads alike to the mode behind the template. -/
theorem leads_of_scanTemplate (hname : Name.IsPlain name) (kind : Kind) (details details' : Details)
    (created created' : Text) (h : scanTemplate mode template = some mode') :
    ∃ x x', Template.render (context kind name details created) template = .ok x ∧
      Template.render (context kind name details' created') template = .ok x' ∧ Leads mode x x' mode' := by
  induction template generalizing mode with
  | nil =>
    obtain rfl := Option.some.inj h
    exact ⟨[], [], rfl, rfl, .nil mode⟩
  | cons piece rest ih =>
    cases piece with
    | text x =>
      rw [scanTemplate] at h
      obtain ⟨between, hx, hrest⟩ := Option.bind_eq_some_iff.mp h
      obtain ⟨y, y', hy, hy', hleads⟩ := ih hrest
      exact ⟨x ++ y, x ++ y', render_cons rfl hy, render_cons rfl hy', (leads_of_scan hx).append hleads⟩
    | slot value filters =>
      rw [scanTemplate] at h
      split at h
      · rename_i hslot
        obtain ⟨y, y', hy, hy', hleads⟩ := ih h
        -- a slot of the name renders the same twice; the description stands in a literal
        rcases hslot with ⟨hmem, hsettled⟩ | ⟨hdescription, rfl⟩
        · obtain ⟨x, hx, hrender⟩ := render_nameSlot hmem hname kind
          exact ⟨x ++ y, x ++ y', render_cons (hrender details created) hy,
            render_cons (hrender details' created') hy', (hsettled.leads hx).append hleads⟩
        · rw [hdescription]
          have hcontent := (isContent_stringContent (describe kind name details.description)).leads
            (isContent_stringContent (describe kind name details'.description))
          exact ⟨_, _, render_cons rfl hy, render_cons rfl hy', hcontent.append hleads⟩
      · cases h

/-! ## The header -/

/-- What the header comment of a component holds, behind the mark that opens it. -/
def headerContent (type description project author created : Text) : Text :=
  concat ["*\n * ", type, "\n * ", description, "\n *\n * Project: ", project, "\n * Author: ", author,
    "\n * Created: ", created, "\n "]

/-- The header is one comment if none of its parts ends it. -/
theorem not_infix_headerContent {type description project author created : Text}
    (ht : ¬ "*/".toList <:+: type) (hd : ¬ "*/".toList <:+: description) (hp : ¬ "*/".toList <:+: project)
    (ha : ¬ "*/".toList <:+: author) (hc : ¬ "*/".toList <:+: created) :
    ¬ "*/".toList <:+: headerContent type description project author created ++ ['*'] := by
  have hspace : ' ' ∉ "*/".toList := by decide
  have hfeed : '\n' ∉ "*/".toList := by decide
  -- the values stand between blanks and line feeds, of which the mark has none
  have hsplit : headerContent type description project author created ++ ['*']
      = "*\n *".toList ++ ' ' :: (type ++ '\n' :: (" *".toList ++ ' ' :: (description
        ++ '\n' :: (" *\n * Project:".toList ++ ' ' :: (project ++ '\n' :: (" * Author:".toList
        ++ ' ' :: (author ++ '\n' :: (" * Created:".toList ++ ' ' :: (created
        ++ '\n' :: " *".toList))))))))) := by
    simp [headerContent, concat]
  rw [hsplit]
  simp only [infix_append_cons_iff hspace, infix_append_cons_iff hfeed, ht, hd, hp, ha, hc, false_or]
  decide

/-- The `header` without the line break at its end. -/
def headerTemplate : Template :=
  (Template.ofLines header).dropLast

/-- What follows the header comment of a component. -/
def restTemplate (kind : Kind) : Template :=
  .text "\n" :: Template.ofLines (body kind)

theorem sourceTemplate_eq (kind : Kind) : sourceTemplate kind = headerTemplate ++ restTemplate kind := by
  cases kind <;> rfl

/-- What the header comment of a component says, which is the `headerContent` for its values. -/
def headerOf (kind : Kind) (name : Text) (details : Details) (created : Text) : Text :=
  headerContent (typeName kind name) (commentContent (describe kind name details.description))
    (commentContent details.projectName) (commentContent details.author) created

theorem render_headerTemplate (kind : Kind) (name : Text) (details : Details) (created : Text) :
    Template.render (context kind name details created) headerTemplate
      = .ok ('/' :: '*' :: (headerOf kind name details created ++ ['*', '/'])) := by
  simp [Template.render, headerTemplate, Template.ofLines, header, Piece.render, typeSlot,
    descriptionInComment, projectInComment, authorInComment, dateSlot, context, List.lookup, Value.find,
    Filter.apply, bind, Except.bind, pure, Except.pure, Functor.map, Except.map, concat, headerOf, headerContent]

/-- A template is read as it is spelled. -/
theorem scanTemplate_of_spelled {spelled : Template} (h : template = spelled)
    (hscan : scanTemplate mode spelled = some mode') : scanTemplate mode template = some mode' := by
  rw [h, hscan]

theorem scan_restTemplate (h : kind ≠ .resource) : scanTemplate .code (restTemplate kind) = some .code := by
  cases kind with
  | resource => exact absurd rfl h
  | tool | prompt | service | transport | util =>
    simp only [restTemplate, Template.ofLines, body, toolPreamble, toolClass, promptPreamble, promptClass,
      servicePreamble, serviceClass, serviceTimeout, transportPreamble, transportClass, utilPreamble,
      utilClass, List.flatMap_cons, List.flatMap_nil, List.cons_append, List.nil_append, List.append_nil]
    apply scanTemplate_of_spelled
    case h =>
      repeat (first | apply spell_text | apply spell_piece)
      rfl
    case hscan => decide +kernel

/-! ## The key of the project -/

/-- What stands in front of the key of the project in a resource. -/
def uriFront : Template :=
  .text "\n" :: Template.ofLines (resourcePreamble ++ resourceClass.take 2) ++ [.text "  readonly uri = '"]

/-- What stands behind the line with the key of the project. -/
def uriBack : Template :=
  Template.ofLines (resourceClass.drop 3)

theorem restTemplate_resource : restTemplate .resource
    = uriFront ++ projectSlot :: .text "://" :: keySlot :: .text "';" :: .text "\n" :: uriBack := by
  rfl

theorem scan_uriFront : scanTemplate .code uriFront = some (.quoted '\x27') := by
  simp only [uriFront, Template.ofLines, resourcePreamble, resourceClass, List.take_succ_cons, List.take_zero,
    List.flatMap_cons, List.flatMap_nil, List.cons_append, List.nil_append, List.append_nil]
  apply scanTemplate_of_spelled
  case h =>
    repeat (first | apply spell_text | apply spell_piece)
    rfl
  case hscan => decide +kernel

theorem scan_uriBack : scanTemplate .code uriBack = some .code := by
  simp only [uriBack, Template.ofLines, resourceClass, List.drop_succ_cons, List.drop_zero,
    List.flatMap_cons, List.flatMap_nil, List.cons_append, List.nil_append, List.append_nil]
  apply scanTemplate_of_spelled
  case h =>
    repeat (first | apply spell_text | apply spell_piece)
    rfl
  case hscan => decide +kernel

/-- The key of a project breaks no line. -/
theorem ne_break_of_mem_projectSlug (projectName : Text) :
    ∀ c ∈ projectSlug projectName, c ≠ '\n' ∧ c ≠ '\r' := by
  rw [projectSlug]
  split
  · have hword : ∀ c ∈ ['m', 'c', 'p'], c ≠ '\n' ∧ c ≠ '\r' := by simp
    exact hword
  · exact fun c => Name.ne_break_of_mem_kebab

/-! ## Whole components -/

/-- A component is its header comment and what follows. -/
theorem exists_generated (h : Template.render (context kind name details created) (restTemplate kind) = .ok x) :
    ∃ component, generateFrom (sourceTemplate kind) kind name details created = .ok component ∧
      component.content = '/' :: '*' :: (headerOf kind name details created ++ '*' :: '/' :: x) := by
  have hsource := render_append (render_headerTemplate kind name details created) h
  rw [← sourceTemplate_eq] at hsource
  exact ⟨_, generateFrom_eq_ok_iff.mpr ⟨_, hsource, rfl⟩, by simp⟩

/-- Whatever the name and the details are, there is such a component. -/
theorem exists_component (kind : Kind) (name : Text) (details : Details) (created : Text) :
    ∃ rest component, Template.render (context kind name details created) (restTemplate kind) = .ok rest ∧
      generateFrom (sourceTemplate kind) kind name details created = .ok component ∧
      component.content = '/' :: '*' :: (headerOf kind name details created ++ '*' :: '/' :: rest) := by
  obtain ⟨source, hsource⟩ := exists_render_context_iff.mpr (closed_sourceTemplate kind)
  rw [sourceTemplate_eq] at hsource
  obtain ⟨-, rest, -, hrest, -⟩ := render_append_iff.mp hsource
  obtain ⟨component, hcomponent, hcontent⟩ := exists_generated hrest
  exact ⟨rest, component, hrest, hcomponent, hcontent⟩

theorem not_infix_of_star_notMem (h : '*' ∉ x) : ¬ "*/".toList <:+: x :=
  fun hin => h (hin.subset (by decide))

theorem not_infix_typeName (h : Name.IsPlain name) (kind : Kind) : ¬ "*/".toList <:+: typeName kind name :=
  not_infix_of_star_notMem fun hmem => absurd (isAscii_typeName h kind _ hmem) (by decide)

/-- No detail ends the header, if the class does not. -/
theorem not_infix_headerOf (h : ¬ "*/".toList <:+: typeName kind name) (details : Details)
    (instant : Instant) : ¬ "*/".toList <:+: headerOf kind name details instant.date ++ ['*'] :=
  not_infix_headerContent h (not_infix_commentContent _) (not_infix_commentContent _)
    (not_infix_commentContent _)
    (not_infix_of_star_notMem (instant.notMem_date (by decide) (by decide)))

/-- What two runs put behind the key of the project. -/
theorem leads_uri {key back back' : Text} (hkey : IsNamePart key) (hback : Leads .code back back' .code) :
    Leads (.quoted '\x27') ('/' :: '/' :: (key ++ '\x27' :: ';' :: '\n' :: back))
      ('/' :: '/' :: (key ++ '\x27' :: ';' :: '\n' :: back')) .code := by
  have hslashes : Leads (.quoted '\x27') ['/', '/'] ['/', '/'] (.quoted '\x27') := leads_of_scan (by rfl)
  have hend : Leads (.quoted '\x27') ['\x27', ';', '\n'] ['\x27', ';', '\n'] .code :=
    leads_of_scan (by rfl)
  have hname : Leads (.quoted '\x27') key key (.quoted '\x27') :=
    (show (Mode.quoted '\x27').Settled from rfl).leads hkey
  simpa using hslashes.append (hname.append (hend.append hback))

theorem isContent_of_isNamePart (h : IsNamePart x) : IsContent x := by
  induction x with
  | nil => exact .nil
  | cons c x ih =>
    obtain ⟨⟨hc, hreturn⟩, hx⟩ := List.forall_mem_cons.mp h
    obtain ⟨hquote, -, hback, -, hfeed⟩ := isInert_iff.mp hc
    refine (ih hx).plain hback ?_ hfeed hreturn
    rintro rfl
    exact absurd hquote (by decide)

/-- A key with a bare quote ends its literal in front of something else than the key without one. -/
theorem outline_uri_ne {slug slug' key back rest : Text} (hkey : IsNamePart key)
    (hslug : IsContent (slug ++ [':'])) (hquote : hasBareQuote slug' = true)
    (hbreak : ∀ c ∈ slug', c ≠ '\n' ∧ c ≠ '\r')
    (hsound : (Mode.quoted '\x27').isSound
      (slug ++ ':' :: '/' :: '/' :: (key ++ '\x27' :: ';' :: '\n' :: back)) = true)
    (hsound' : (Mode.quoted '\x27').isSound (slug' ++ ':' :: rest) = true) :
    outline ((Mode.quoted '\x27').lexemesFrom
        (slug ++ ':' :: '/' :: '/' :: (key ++ '\x27' :: ';' :: '\n' :: back)))
      ≠ outline ((Mode.quoted '\x27').lexemesFrom (slug' ++ ':' :: rest)) := by
  intro heq
  have hslashes : IsContent ['/', '/'] :=
    (IsContent.nil.plain (by decide) (by decide) (by decide) (by decide)).plain (by decide) (by decide)
      (by decide) (by decide)
  have hcontent : IsContent (slug ++ [':'] ++ (['/', '/'] ++ key)) :=
    hslug.append (hslashes.append (isContent_of_isNamePart hkey))
  have hsplit : slug ++ ':' :: '/' :: '/' :: (key ++ '\x27' :: ';' :: '\n' :: back)
      = (slug ++ [':'] ++ (['/', '/'] ++ key)) ++ '\x27' :: ';' :: '\n' :: back := by simp
  -- the key without a bare quote ends its literal at the quote of the template
  rw [hsplit] at hsound heq
  rw [hcontent.isSound] at hsound
  -- the other one ends it at its own first bare quote
  obtain ⟨y, z, rfl, hy⟩ := exists_bareQuote hquote hbreak
  have hsplit' : y ++ '\x27' :: z ++ ':' :: rest = y ++ '\x27' :: (z ++ ':' :: rest) := by simp
  rw [hsplit'] at hsound' heq
  rw [hy.isSound] at hsound'
  rw [hcontent.outline_eq hsound, hy.outline_eq hsound', outline_quote, outline_quote, List.cons.injEq] at heq
  -- the code behind the one literal starts with the end of a statement, the other one with what is left
  have hstart := prefix_of_outline_eq (by intro next; simp [sortOf, step, isStringQuote])
    (by intro next; simp [sortOf, isStringQuote]) heq.2
  cases z with
  | nil => simp at hstart
  | cons a z =>
    cases z with
    | nil => simp at hstart
    | cons b z =>
      obtain ⟨-, hstart⟩ := List.cons_prefix_cons.mp hstart
      obtain ⟨rfl, -⟩ := List.cons_prefix_cons.mp hstart
      exact (hbreak '\n' (by simp)).1 rfl

/-- Texts that lead from code to code alike have one outline. -/
theorem outline_of_leads {x x' : Text} (h : Leads .code x x' .code) :
    Mode.code.isSound x = true ∧ Mode.code.isSound x' = true ∧
      outline (Mode.code.lexemesFrom x) = outline (Mode.code.lexemesFrom x') := by
  have hsound := h.sound []
  have hsound' := h.sound' []
  have hsame := (h.same [] [] rfl rfl).mpr rfl
  simp only [List.append_nil] at hsound hsound' hsame
  exact ⟨hsound, hsound', hsame⟩

/-- A resource has its address, the key of the project and its own one, between two parts. -/
theorem render_restTemplate_uri {key front back : Text}
    (hkey : keySlot.render (context .resource name details created) = .ok key)
    (hfront : Template.render (context .resource name details created) uriFront = .ok front)
    (hback : Template.render (context .resource name details created) uriBack = .ok back) :
    Template.render (context .resource name details created) (restTemplate .resource)
      = .ok (front ++ (projectSlug details.projectName
        ++ ':' :: '/' :: '/' :: (key ++ '\x27' :: ';' :: '\n' :: back))) := by
  rw [restTemplate_resource]
  refine render_append hfront (render_cons rfl ?_)
  exact render_cons (x := "://") rfl (render_cons hkey (render_cons (x := "';") rfl
    (render_cons (x := "\n") rfl hback)))

/-- What two runs put behind the headers shows alike exactly if the keys of the projects, which a resource
takes, have no bare quotes. -/
theorem outline_rest_iff (hname : Name.IsPlain name) (kind : Kind) (details details' : Details)
    (created created' : Text) : ∃ x x',
      Template.render (context kind name details created) (restTemplate kind) = .ok x ∧
      Template.render (context kind name details' created') (restTemplate kind) = .ok x' ∧
      ((kind = .resource → hasBareQuote (projectSlug details.projectName) = false) →
        (Mode.code.isSound x = true ∧ Mode.code.isSound x' = true ∧
            outline (Mode.code.lexemesFrom x) = outline (Mode.code.lexemesFrom x')
          ↔ (kind = .resource → hasBareQuote (projectSlug details'.projectName) = false))) := by
  -- only a resource takes the key of the project, between two parts that lead alike
  by_cases hk : kind = .resource
  · subst hk
    obtain ⟨front, front', hfront, hfront', hleads⟩ :=
      leads_of_scanTemplate hname .resource details details' created created' scan_uriFront
    obtain ⟨back, back', hback, hback', hleadsBack⟩ :=
      leads_of_scanTemplate hname .resource details details' created created' scan_uriBack
    obtain ⟨key, hkey, hrender⟩ := render_nameSlot (show keySlot ∈ nameSlots by simp [nameSlots]) hname .resource
    have huri := leads_uri hkey hleadsBack
    refine ⟨_, _, render_restTemplate_uri (hrender details created) hfront hback,
      render_restTemplate_uri (hrender details' created') hfront' hback', fun hslug => ?_⟩
    have hcolon : IsContent [':'] := IsContent.nil.plain (by decide) (by decide) (by decide) (by decide)
    have hcontent := isContent_concat (hslug rfl) (ne_break_of_mem_projectSlug details.projectName) hcolon
    -- with a bare quote the outlines part at it; without one the keys are content of the literal like
    -- any other
    constructor
    · rintro ⟨hsound, hsound', hsame⟩ -
      by_contra hquote
      rw [hleads.sound] at hsound
      rw [hleads.sound'] at hsound'
      exact outline_uri_ne hkey hcontent (by simpa using hquote)
        (ne_break_of_mem_projectSlug details'.projectName) hsound hsound'
        ((hleads.same _ _ hsound hsound').mp hsame)
    · intro hslug'
      have hcontent' :=
        isContent_concat (hslug' rfl) (ne_break_of_mem_projectSlug details'.projectName) hcolon
      have hbehind := (hcontent.leads hcontent').append huri
      simp only [List.append_assoc, List.singleton_append] at hbehind
      exact outline_of_leads (hleads.append hbehind)
  · obtain ⟨x, x', hx, hx', hleads⟩ :=
      leads_of_scanTemplate hname kind details details' created created' (scan_restTemplate hk)
    exact ⟨x, x', hx, hx', fun _ => iff_of_true (outline_of_leads hleads) fun h => absurd h hk⟩

/-- Two runs of `generateFrom` for an accepted name, with any details and on any days, give components with the same
code: the header comment and what literals hold are all that differs. In a resource this is so exactly if the keys
made of the names of the projects (`projectSlug`) have no bare quotes. -/
theorem haveSameCode_iff_noBareQuote {normalized : Text} {maxLength : Int}
    (h : Name.validate name kind maxLength = .ok normalized) (details details' : Details)
    (now now' : Instant) : ∃ one other,
      generateFrom (sourceTemplate kind) kind name details now.date = .ok one ∧
      generateFrom (sourceTemplate kind) kind name details' now'.date = .ok other ∧
      ((kind = .resource → hasBareQuote (projectSlug details.projectName) = false) →
        (HaveSameCode one.content other.content
          ↔ (kind = .resource → hasBareQuote (projectSlug details'.projectName) = false))) := by
  obtain ⟨hplain, -⟩ := Name.validate_eq_ok h
  obtain ⟨x, x', hx, hx', hsame⟩ := outline_rest_iff hplain kind details details' now.date now'.date
  obtain ⟨one, hone, hcontent⟩ := exists_generated hx
  obtain ⟨other, hother, hcontent'⟩ := exists_generated hx'
  refine ⟨one, other, hone, hother, fun hslug => ?_⟩
  have htype := not_infix_typeName hplain kind
  -- the headers are one comment each, so only what stands behind them counts
  rw [hcontent, hcontent', haveSameCode_iff (not_infix_headerOf htype details now)
    (not_infix_headerOf htype details' now')]
  exact hsame hslug

/-- A resource for a scoped project, with a description that tries to end its comment and its string. -/
theorem haveSameCode_weather : ∃ one other,
    generateFrom (sourceTemplate .resource) .resource "weather" ⟨"*/ '; throw 1; //", "me", "@acme/server"⟩
      (Instant.mk 2026 1 15 10 30 0 0).date = .ok one ∧
    generateFrom (sourceTemplate .resource) .resource "weather" ⟨[], [], []⟩
      (Instant.mk 2026 1 15 10 30 0 0).date = .ok other ∧
    HaveSameCode one.content other.content := by
  obtain ⟨one, other, hone, hother, hsame⟩ := haveSameCode_iff_noBareQuote
    (show Name.validate "weather" .resource 50 = .ok "weather".toList by rfl)
    ⟨"*/ '; throw 1; //", "me", "@acme/server"⟩ ⟨[], [], []⟩ ⟨2026, 1, 15, 10, 30, 0, 0⟩
    ⟨2026, 1, 15, 10, 30, 0, 0⟩
  exact ⟨one, other, hone, hother, (hsame fun _ => by rfl).mpr fun _ => by rfl⟩

/-- A single quote in the name of a project changes the code of a resource. -/
theorem not_haveSameCode_quote : ¬ ∀ (kind : Kind) (name normalized : Text) (maxLength : Int)
    (details details' : Details) (created : Text) (one other : Generated),
      Name.validate name kind maxLength = .ok normalized →
      generateFrom (sourceTemplate kind) kind name details created = .ok one →
      generateFrom (sourceTemplate kind) kind name details' created = .ok other →
      HaveSameCode one.content other.content := by
  intro hall
  have hvalid : Name.validate "weather" .resource 50 = .ok "weather".toList := by rfl
  obtain ⟨hplain, -⟩ := Name.validate_eq_ok hvalid
  let day : Instant := ⟨2026, 1, 15, 10, 30, 0, 0⟩
  obtain ⟨x, x', hx, hx', hsame⟩ :=
    outline_rest_iff hplain .resource ⟨[], [], []⟩ ⟨[], [], "it's"⟩ day.date day.date
  obtain ⟨one, hone, hcontent⟩ := exists_generated hx
  obtain ⟨other, hother, hcontent'⟩ := exists_generated hx'
  -- the key made of such a name keeps the quote, which ends the literal of the address early
  have hcode := hall .resource "weather" "weather" 50 _ _ day.date one other hvalid hone hother
  have htype := not_infix_typeName hplain .resource
  rw [hcontent, hcontent', haveSameCode_iff (not_infix_headerOf htype _ day)
    (not_infix_headerOf htype _ day)] at hcode
  have hquote : hasBareQuote (projectSlug "it's") = true := by rfl
  have hnone := (hsame fun _ => by rfl).mp hcode rfl
  rw [hquote] at hnone
  cases hnone

end Component

end ComponentKit
