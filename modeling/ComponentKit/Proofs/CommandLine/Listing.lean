import ComponentKit.CommandLine.Run
import ComponentKit.Proofs.Console.Literal
import ComponentKit.Proofs.Session.Printing
import ComponentKit.Proofs.Workflow.Addition

/-!
# What a listing shows

`printListing` prints a listing kind by kind, with one line for each name under the heading of its kind. Names stand in
these lines as they are, and the lines are marked-up text. So a line gives its name character for character exactly if
the name is literal and the console knows no code in the line. This holds of every `Console.Theme` whose codes stand for
texts that are no longer than they are.
-/

namespace ComponentKit.CommandLine

open Console Step Text Workflow

variable {session after other : Session} {listing : Listing} {kind : Kind} {name shown : Text}
  {names : List Text} {components : List (Kind × List Text)} {draw : Text → Except Failure Text} {theme : Theme}

/-! ## Lines -/

/-- The line for a name, as it should be. -/
def nameLine (name : Text) : Text :=
  concat ["   - ", name]

/-- The line that is printed for a name, which is what `render` gives for its `nameLine`. One that cannot be shown has
none, and ends the listing. -/
def listedLine (theme : Theme) (name : Text) : Text :=
  (render theme (nameLine name)).toOption.getD []

/-- What a kind without components is said to have. -/
def noneFound : Text := "No custom components found"

/-- The lines of a kind: an empty one, its heading, and one for each name. -/
def kindLines (theme : Theme) (kind : Kind) (names : List Text) : List Text :=
  [] :: concat [kind.conventions.directory, ":"]
    :: if names.isEmpty then [nameLine noneFound] else names.map (listedLine theme)

/-- The lines of a listing under its title: a rule, the `kindLines`, and how to add a component. -/
def listingLines (theme : Theme) (components : List (Kind × List Text)) : List Text :=
  List.replicate screenWidth '─'
    :: components.flatMap (fun (kind, names) => kindLines theme kind names)
    ++ [[], "To add a new component:".toList, concat ["   ", programName, " add <type> <name>"]]

/-- The title of a listing, as marked-up text. -/
def listingTitle (listing : Listing) : Text :=
  concat ["\n[bold blue]Components in [cyan]", listing.projectName, "[/cyan]:[/bold blue]"]

theorem nameLine_eq (name : Text) : nameLine name = "   - ".toList ++ name := by
  simp [nameLine, concat]

theorem isLiteral_nameLine : IsLiteral (nameLine name) ↔ IsLiteral name := by
  rw [nameLine_eq]
  exact isLiteral_plain_append (by simp)

theorem staysOnLine_nameLine (h : StaysOnLine name) : StaysOnLine (nameLine name) := by
  rw [nameLine_eq]
  exact List.forall_mem_append.mpr ⟨by simp [isCursorControl], h⟩

theorem nameLine_injective {first second : Text} (h : nameLine first = nameLine second) : first = second := by
  rw [nameLine_eq, nameLine_eq] at h
  exact List.append_cancel_left h

/-- Whether the `nameLine` of a name is one on the screen: it stays on its line, and it is neither too wide nor too
long. A line that is too wide goes on in the next one, and blanks at the end of one that is too long are cut off. -/
structure FitsOnLine (name : Text) : Prop where
  /-- The name has no line breaks and no control characters. -/
  staysOnLine : StaysOnLine name
  /-- The line is not wider than the screen. -/
  width_le : Unicode.width (nameLine name) ≤ screenWidth
  /-- Nor has it more characters than the screen has columns, with those that take none. -/
  length_le : (nameLine name).length ≤ screenWidth

/-! ## Texts -/

/-- The texts that are printed for a kind. -/
def kindTexts (draw : Text → Except Failure Text) (kind : Kind) (names : List Text) : List (Except Failure Text) :=
  [printed draw (concat ["\n[cyan]", kind.conventions.directory, ":[/cyan]"])]
    ++ ((if names.isEmpty then [printed draw "   [dim]- No custom components found[/dim]"] else [])
      ++ names.flatMap fun name => [printed draw (nameLine name)])

/-- The texts that are printed for a listing. -/
def listingTexts (draw : Text → Except Failure Text) (listing : Listing) : List (Except Failure Text) :=
  [printed draw (listingTitle listing), .ok rule]
    ++ listing.components.flatMap (fun (kind, names) => kindTexts draw kind names)
    ++ [printed draw "\n[yellow]To add a new component:[/yellow]",
      printed draw (concat ["   ", programName, " add <type> <name>"])]

theorem prints_printComponents (kind : Kind) (names : List Text) :
    Prints (printComponents draw kind names) (kindTexts draw kind names) := by
  have hnames : Prints (names.forM fun name => printMarkup draw (concat ["   - ", name]))
      (names.flatMap fun name => [printed draw (nameLine name)]) := .forM (fun name => .markup draw _) names
  rw [printComponents, kindTexts]
  refine .bind (.markup draw _) ?_
  split
  · exact .bind (.markup draw _) hnames
  · exact hnames

theorem prints_printListing (listing : Listing) :
    Prints (printListing draw listing) (listingTexts draw listing) := by
  rw [printListing, listingTexts, List.append_assoc]
  -- one text for each step, apart from the loop over the kinds
  show Prints _ ([_] ++ ([_] ++ (_ ++ ([_] ++ [_]))))
  have hcomponents : Prints (listing.components.forM fun entry => printComponents draw entry.1 entry.2) _ :=
    .forM (fun entry : Kind × List Text => prints_printComponents entry.1 entry.2) listing.components
  exact .bind (.markup draw _) (.bind (.print _) (.bind hcomponents (.bind (.markup draw _) (.markup draw _))))

/-! ## From texts to lines -/

theorem drawIn_eq_ok {markup : Text} : drawIn theme markup = .ok shown ↔ render theme markup = .ok shown :=
  mapError_eq_ok

theorem printed_heading (theme : Theme) (kind : Kind) :
    printed (drawIn theme) (concat ["\n[cyan]", kind.conventions.directory, ":[/cyan]"])
      = .ok (printedLines [[], concat [kind.conventions.directory, ":"]]) := by
  have hmarkup : concat ["\n[cyan]", kind.conventions.directory, ":[/cyan]"] = ['\n'] ++ '[' ::
      ("cyan".toList ++ ']' :: (concat [kind.conventions.directory, ":"] ++ closingTag "cyan")) := by
    simp [concat, closingTag]
  have hplain : isPlain (concat [kind.conventions.directory, ":"]) = true ∧
      (concat [kind.conventions.directory, ":"]).count ':' ≤ 1 := by
    cases kind <;> exact ⟨rfl, by decide⟩
  rw [hmarkup, printed_of_draw (drawIn_eq_ok.mpr
    (render_styled _ _ _ (by rfl) (by rfl) hplain.1 ⟨by decide, hplain.2⟩))]
  cases kind <;> rfl

theorem printed_noneFound (theme : Theme) :
    printed (drawIn theme) "   [dim]- No custom components found[/dim]"
      = .ok (printedLines [nameLine noneFound]) :=
  printed_of_draw (drawIn_eq_ok.mpr
    (render_styled "dim" "   " "- No custom components found" (by rfl) (by rfl) (by rfl) (by decide)))

theorem printed_advice (theme : Theme) : printed (drawIn theme) "\n[yellow]To add a new component:[/yellow]"
    = .ok (printedLines [[], "To add a new component:"]) :=
  printed_of_draw (drawIn_eq_ok.mpr
    (render_styled "yellow" "\n" "To add a new component:" (by rfl) (by rfl) (by rfl) (by decide)))

theorem printed_usage (theme : Theme) : printed (drawIn theme) (concat ["   ", programName, " add <type> <name>"])
    = .ok (printedLines [concat ["   ", programName, " add <type> <name>"]]) :=
  printed_of_draw (drawIn_eq_ok.mpr (render_of_isPlain (by rfl) (by decide)))

/-- A line that can be printed is the one that is listed. -/
theorem render_nameLine {text : Text} (h : printed (drawIn theme) (nameLine name) = .ok text) :
    render theme (nameLine name) = .ok (listedLine theme name) := by
  rw [listedLine]
  cases hrender : render theme (nameLine name) with
  | error fault =>
    rw [printed, shownLines, drawIn, hrender] at h
    cases h
  | ok line => rfl

theorem inOrder_names (hmodest : theme.IsModest)
    (h : ∀ name ∈ names, StaysOnLine name ∧ ∃ text, printed (drawIn theme) (nameLine name) = .ok text) :
    inOrder (names.flatMap fun name => [printed (drawIn theme) (nameLine name)])
      = .ok (printedLines (names.map (listedLine theme))) := by
  induction names with
  | nil => rfl
  | cons name names ih =>
    obtain ⟨⟨hline, text, htext⟩, hnames⟩ := List.forall_mem_cons.mp h
    have hrender := render_nameLine htext
    rw [List.flatMap_cons, printed_of_staysOnLine (drawIn_eq_ok.mpr hrender)
      (staysOnLine_of_render hmodest hrender (staysOnLine_nameLine hline)), List.singleton_append, inOrder, ih hnames]
    simp [printedLines, Functor.map, Except.map]

/-- What is printed for a kind are its lines. -/
theorem inOrder_kindTexts (hmodest : theme.IsModest) (kind : Kind)
    (h : ∀ name ∈ names, StaysOnLine name ∧ ∃ text, printed (drawIn theme) (nameLine name) = .ok text) :
    inOrder (kindTexts (drawIn theme) kind names) = .ok (printedLines (kindLines theme kind names)) := by
  rw [kindTexts, printed_heading, kindLines, List.singleton_append, inOrder]
  cases names with
  | nil =>
    rw [List.isEmpty_nil, if_pos rfl, if_pos rfl, printed_noneFound, List.flatMap_nil, List.append_nil, inOrder]
    simp [inOrder, printedLines, Functor.map, Except.map]
  | cons name names =>
    rw [List.isEmpty_cons, if_neg Bool.false_ne_true, if_neg Bool.false_ne_true, List.nil_append,
      inOrder_names hmodest h]
    simp [printedLines, Functor.map, Except.map]

theorem inOrder_components (hmodest : theme.IsModest) (h : ∀ entry ∈ components, ∀ name ∈ entry.2,
      StaysOnLine name ∧ ∃ text, printed (drawIn theme) (nameLine name) = .ok text) :
    inOrder (components.flatMap fun (kind, names) => kindTexts (drawIn theme) kind names)
      = .ok (printedLines (components.flatMap fun (kind, names) => kindLines theme kind names)) := by
  induction components with
  | nil => rfl
  | cons entry components ih =>
    obtain ⟨hentry, hrest⟩ := List.forall_mem_cons.mp h
    rw [List.flatMap_cons, inOrder_append_of_ok (inOrder_kindTexts hmodest entry.1 hentry), ih hrest]
    simp [printedLines, Functor.map, Except.map]

/-! ## Listings -/

/-- A listing that is printed to its end puts its title and its lines on the screen. Every line could be
shown. -/
theorem exists_screen_of_printListing (hmodest : theme.IsModest)
    (hline : ∀ entry ∈ listing.components, ∀ name ∈ entry.2, FitsOnLine name)
    (hrun : (printListing (drawIn theme) listing).run session = (.ok (), after)) :
    (∀ entry ∈ listing.components, ∀ name ∈ entry.2,
        render theme (nameLine name) = .ok (listedLine theme name)) ∧
      ∃ title, printed (drawIn theme) (listingTitle listing) = .ok title ∧
        after.screen = session.screen ++ title ++ printedLines (listingLines theme listing.components) := by
  obtain ⟨text, htext, rfl⟩ := (prints_printListing listing).run_eq_ok.mp hrun
  have hshown (result : Except Failure Text) (hmem : result ∈ listingTexts (drawIn theme) listing) :
      ∃ text, result = .ok text := by
    obtain ⟨texts, htexts, -⟩ := inOrder_eq_ok.mp htext
    rw [htexts] at hmem
    obtain ⟨text, -, rfl⟩ := List.mem_map.mp hmem
    exact ⟨text, rfl⟩
  -- every name is one of the texts that were printed in order, none of which failed
  have hnames : ∀ entry ∈ listing.components, ∀ name ∈ entry.2,
      StaysOnLine name ∧ ∃ text, printed (drawIn theme) (nameLine name) = .ok text := by
    refine fun entry hentry name hname => ⟨(hline entry hentry name hname).staysOnLine, hshown _ ?_⟩
    refine List.mem_append_left _ (List.mem_append_right _ (List.mem_flatMap.mpr ⟨entry, hentry, ?_⟩))
    exact List.mem_append_right _ (List.mem_append_right _
      (List.mem_flatMap.mpr ⟨name, hname, List.mem_singleton_self _⟩))
  obtain ⟨title, htitle⟩ := hshown (printed (drawIn theme) (listingTitle listing)) List.mem_cons_self
  refine ⟨fun entry hentry name hname => ?_, title, htitle, ?_⟩
  · obtain ⟨line, hprinted⟩ := (hnames entry hentry name hname).2
    exact render_nameLine hprinted
  · rw [listingTexts, htitle, printed_advice, printed_usage, List.append_assoc, List.cons_append, inOrder,
      List.singleton_append, inOrder, inOrder_append_of_ok (inOrder_components hmodest hnames)] at htext
    obtain rfl := Except.ok.inj htext
    simp [listingLines, printedLines, rule]

/-- Whether a console shows a name as it is: `IsLiteral` holds of it, and the console knows no code in its `nameLine`.
-/
def IsShownAsIs (theme : Theme) (name : Text) : Prop :=
  IsLiteral name ∧ replaceCodes theme.code? (nameLine name) = nameLine name

/-- A line gives its name as it is exactly if the console shows the name as it is. -/
theorem listedLine_eq_iff (hmodest : theme.IsModest) (hline : StaysOnLine name)
    (hshown : render theme (nameLine name) = .ok (listedLine theme name)) :
    listedLine theme name = nameLine name ↔ IsShownAsIs theme name := by
  have hclean : ∀ c ∈ nameLine name, isCursorControl c = false :=
    fun c hc => (staysOnLine_nameLine hline c hc).2.2
  rw [IsShownAsIs, ← isLiteral_nameLine, ← render_eq_self_iff hmodest hclean, hshown, Except.ok.injEq]

/-! ## Reading a listing back -/

/-- The names that a kind is said to have, which is `noneFound` for a kind without any. -/
def shownNames (names : List Text) : List Text :=
  if names.isEmpty then [noneFound] else names

theorem kindLines_of_exact (h : ∀ name ∈ names, listedLine theme name = nameLine name) (kind : Kind) :
    kindLines theme kind names
      = [] :: concat [kind.conventions.directory, ":"] :: (shownNames names).map nameLine := by
  rw [kindLines, shownNames]
  split
  · rfl
  · rw [List.map_congr_left h]

/-- Lines without line feeds can be told apart when they are printed. -/
theorem printedLines_injective {lines more : List Text} (h : printedLines lines = printedLines more)
    (hlines : ∀ line ∈ lines, '\n' ∉ line) (hmore : ∀ line ∈ more, '\n' ∉ line) : lines = more := by
  induction lines generalizing more with
  | nil =>
    cases more with
    | nil => rfl
    | cons line more => simp [printedLines] at h
  | cons line lines ih =>
    cases more with
    | nil => simp [printedLines] at h
    | cons other more =>
      obtain ⟨hline, hlines⟩ := List.forall_mem_cons.mp hlines
      obtain ⟨hother, hmore⟩ := List.forall_mem_cons.mp hmore
      simp only [printedLines, List.flatMap_cons, List.append_assoc, List.singleton_append] at h
      have hspan {span : Text} (hspan : '\n' ∉ span) (rest : Text) :
          (span ++ '\n' :: rest).takeWhile (· != '\n') = span :=
        takeWhile_eq_of_forall (fun c hc => bne_iff_ne.mpr fun hbreak => hspan (hbreak ▸ hc)) (by simp)
      -- the first line is what stands in front of the first line feed
      have hfirst := congrArg (List.takeWhile (· != '\n')) h
      rw [hspan hline, hspan hother] at hfirst
      rw [hfirst, List.append_cancel_left_eq] at h
      rw [hfirst, ih (List.cons.inj h).2 hlines hmore]

/-- The lines that say which names the kinds have. -/
def shownLinesOf (components : List (Kind × List Text)) : List Text :=
  components.flatMap fun (kind, names) =>
    [] :: concat [kind.conventions.directory, ":"] :: (shownNames names).map nameLine

theorem directory_inj {kind other : Kind}
    (h : concat [kind.conventions.directory, ":"] = concat [other.conventions.directory, ":"]) : kind = other := by
  cases kind <;> cases other <;> first | rfl | exact absurd h (by decide)

/-- Kinds and names can be read off these lines: an empty line stands in front of every kind, and no name has
one. -/
theorem components_of_shownLinesOf {components more : List (Kind × List Text)}
    (h : shownLinesOf components = shownLinesOf more) :
    components.map (Prod.map id shownNames) = more.map (Prod.map id shownNames) := by
  induction components generalizing more with
  | nil =>
    cases more with
    | nil => rfl
    | cons entry more => cases h
  | cons entry components ih =>
    cases more with
    | nil => cases h
    | cons other more =>
      simp only [shownLinesOf, List.flatMap_cons, List.cons_append, List.cons.injEq, true_and] at h
      obtain ⟨hkind, hlines⟩ := h
      have hspan (names : List Text) (rest : List (Kind × List Text)) :
          ((shownNames names).map nameLine ++ shownLinesOf rest).takeWhile (!·.isEmpty)
            = (shownNames names).map nameLine := by
        rw [List.takeWhile_append_of_pos fun line hmem => ?_]
        · cases rest with
          | nil => exact List.append_nil _
          | cons _ _ => exact List.append_nil _
        · obtain ⟨name, -, rfl⟩ := List.mem_map.mp hmem
          rfl
      -- the names of the first kind are the lines up to the next empty one
      have hnames := congrArg (List.takeWhile (!·.isEmpty)) hlines
      rw [← shownLinesOf, ← shownLinesOf, hspan, hspan] at hnames
      rw [hnames, List.append_cancel_left_eq] at hlines
      rw [List.map_cons, List.map_cons, ih hlines, Prod.map, Prod.map, directory_inj hkind,
        (List.map_injective_iff.mpr fun _ _ => nameLine_injective) hnames]

/-- A listing whose names are shown as they are is printed as the lines that say which names the kinds have. -/
theorem listingLines_of_exact
    (h : ∀ entry ∈ components, ∀ name ∈ entry.2, listedLine theme name = nameLine name) :
    listingLines theme components = List.replicate screenWidth '─' :: shownLinesOf components
      ++ [[], "To add a new component:".toList, concat ["   ", programName, " add <type> <name>"]] := by
  have hkinds : components.flatMap (fun (kind, names) => kindLines theme kind names) = shownLinesOf components :=
    List.flatMap_congr fun entry hentry => kindLines_of_exact (h entry hentry) entry.1
  rw [listingLines, hkinds]

theorem notMem_shownLinesOf (hline : ∀ entry ∈ components, ∀ name ∈ entry.2, FitsOnLine name) :
    ∀ line ∈ shownLinesOf components, '\n' ∉ line := by
  intro line hmem
  obtain ⟨⟨kind, names⟩, hentry, hmem⟩ := List.mem_flatMap.mp hmem
  rcases List.mem_cons.mp hmem with rfl | hmem
  · exact List.not_mem_nil
  rcases List.mem_cons.mp hmem with rfl | hmem
  · cases kind <;> decide
  obtain ⟨name, hname, rfl⟩ := List.mem_map.mp hmem
  rw [shownNames] at hname
  split at hname
  · rw [List.mem_singleton.mp hname]
    decide
  · exact fun hbreak => (staysOnLine_nameLine (hline (kind, names) hentry name hname).staysOnLine _ hbreak).1 rfl

/-- Listings whose names are shown as they are, and that are printed alike under one title, have the same names, where a
kind without any counts as one with the name that is shown for it. -/
theorem shownNames_eq_of_screen {more : List (Kind × List Text)}
    (hline : ∀ entry ∈ components, ∀ name ∈ entry.2, FitsOnLine name)
    (hmore : ∀ entry ∈ more, ∀ name ∈ entry.2, FitsOnLine name)
    (h : ∀ entry ∈ components, ∀ name ∈ entry.2, listedLine theme name = nameLine name)
    (h' : ∀ entry ∈ more, ∀ name ∈ entry.2, listedLine theme name = nameLine name)
    (hprinted : printedLines (listingLines theme components) = printedLines (listingLines theme more)) :
    components.map (Prod.map id shownNames) = more.map (Prod.map id shownNames) := by
  rw [listingLines_of_exact h, listingLines_of_exact h'] at hprinted
  -- no line of a listing has a line feed, neither the rule and the names nor the usage
  have hall (components : List (Kind × List Text))
      (hline : ∀ entry ∈ components, ∀ name ∈ entry.2, FitsOnLine name) :
      ∀ line ∈ List.replicate screenWidth '─' :: shownLinesOf components
        ++ [[], "To add a new component:".toList, concat ["   ", programName, " add <type> <name>"]],
      '\n' ∉ line := by
    refine List.forall_mem_append.mpr ⟨List.forall_mem_cons.mpr ⟨?_, notMem_shownLinesOf hline⟩, ?_⟩
    · intro hbreak
      cases List.eq_of_mem_replicate hbreak
    · intro line hmem
      simp only [List.mem_cons, List.not_mem_nil, or_false] at hmem
      rcases hmem with rfl | rfl | rfl <;> decide
  have hlines := printedLines_injective hprinted (hall _ hline) (hall _ hmore)
  rw [List.cons_append, List.cons_append, List.cons.injEq, List.append_cancel_right_eq] at hlines
  exact components_of_shownLinesOf hlines.2

/-! ## What is printed for which names -/

/-- What `printListing` prints if its names fit on their lines: kind by kind the `kindLines`, and every name has one
line of the screen. The lines of a kind are its names as they are exactly if the console shows all of these as they
are (`IsShownAsIs`). If it does so for all names, then no other listing of such names, with the same title, is printed
alike, apart from a name that reads like the lack of one. -/
theorem printListing_exact_iff (hmodest : theme.IsModest)
    (hline : ∀ entry ∈ listing.components, ∀ name ∈ entry.2, FitsOnLine name)
    (hrun : (printListing (drawIn theme) listing).run session = (.ok (), after)) :
    (∃ title, after.screen = session.screen ++ title ++ printedLines (listingLines theme listing.components)) ∧
    (∀ entry ∈ listing.components, ∀ name ∈ entry.2, StaysOnLine (listedLine theme name) ∧
      Unicode.width (listedLine theme name) ≤ screenWidth ∧ (listedLine theme name).length ≤ screenWidth) ∧
    (∀ entry ∈ listing.components,
      entry.2.map (listedLine theme) = entry.2.map nameLine ↔ ∀ name ∈ entry.2, IsShownAsIs theme name) ∧
    ((∀ entry ∈ listing.components, ∀ name ∈ entry.2, IsShownAsIs theme name) →
      ∀ (other : Listing) (last : Session), other.projectName = listing.projectName →
        (∀ entry ∈ other.components, ∀ name ∈ entry.2, FitsOnLine name ∧ IsShownAsIs theme name) →
        (printListing (drawIn theme) other).run session = (.ok (), last) → last.screen = after.screen →
          other.components.map (Prod.map id shownNames)
            = listing.components.map (Prod.map id shownNames)) := by
  obtain ⟨hshown, title, htitle, hscreen⟩ := exists_screen_of_printListing hmodest hline hrun
  have hiff (entry : Kind × List Text) (hentry : entry ∈ listing.components) (name : Text)
      (hname : name ∈ entry.2) : listedLine theme name = nameLine name ↔ IsShownAsIs theme name :=
    listedLine_eq_iff hmodest (hline entry hentry name hname).staysOnLine (hshown entry hentry name hname)
  refine ⟨⟨title, hscreen⟩, fun entry hentry name hname => ?_, fun entry hentry => ?_, ?_⟩
  · have hfits := hline entry hentry name hname
    have hrender := hshown entry hentry name hname
    exact ⟨staysOnLine_of_render hmodest hrender (staysOnLine_nameLine hfits.staysOnLine),
      (width_le_of_render hmodest hrender).trans hfits.width_le,
      (length_le_of_render hmodest hrender).trans hfits.length_le⟩
  · rw [List.map_inj_left]
    exact forall₂_congr (hiff entry hentry)
  · intro hexact other last hproject hother hrun' hsame
    have hline' : ∀ entry ∈ other.components, ∀ name ∈ entry.2, FitsOnLine name :=
      fun entry hentry name hname => (hother entry hentry name hname).1
    obtain ⟨hshown', title', htitle', hscreen'⟩ := exists_screen_of_printListing hmodest hline' hrun'
    have hexact' : ∀ entry ∈ other.components, ∀ name ∈ entry.2, listedLine theme name = nameLine name :=
      fun entry hentry name hname => (listedLine_eq_iff hmodest (hline' entry hentry name hname).staysOnLine
        (hshown' entry hentry name hname)).mpr (hother entry hentry name hname).2
    -- the title has the name of the project alone
    have htitles : title' = title := by
      rw [listingTitle, hproject, ← listingTitle] at htitle'
      exact Except.ok.inj (htitle'.symm.trans htitle)
    rw [hscreen, hscreen', htitles, List.append_cancel_left_eq] at hsame
    exact shownNames_eq_of_screen hline' hline hexact'
      (fun entry hentry name hname => (hiff entry hentry name hname).mpr (hexact entry hentry name hname)) hsame

/-- A listing with one tool. -/
def windListing : Listing := ⟨"p", [(.tool, ["wind-tool"]), (.resource, []), (.prompt, [])]⟩

/-- A console with one code. -/
def smileTheme : Theme := ⟨normalizeStyle, fun name => if name = "smile".toList then some ['😄'] else none⟩

theorem isModest_smileTheme : smileTheme.IsModest := by
  have hsmile (name text : Text) (h : smileTheme.code? name = some text) : name = "smile".toList ∧ text = ['😄'] := by
    dsimp only [smileTheme] at h
    split at h
    · rename_i hname
      exact ⟨hname, (Option.some.inj h).symm⟩
    · cases h
  refine ⟨fun name text h => ?_, fun name text h => ?_, fun name text h => ?_⟩
  · obtain ⟨rfl, rfl⟩ := hsmile name text h
    decide
  · obtain ⟨rfl, rfl⟩ := hsmile name text h
    decide +kernel
  · obtain ⟨-, rfl⟩ := hsmile name text h
    simp [StaysOnLine, isCursorControl]

theorem printListing_wind :
    smileTheme.IsModest ∧ (∀ entry ∈ windListing.components, ∀ name ∈ entry.2, FitsOnLine name) ∧
      ((printListing (drawIn smileTheme) windListing).run plainSession).1 = .ok () ∧
      ∀ entry ∈ windListing.components, entry.2.map (listedLine smileTheme) = entry.2.map nameLine := by
  have hstays : ∀ entry ∈ windListing.components, ∀ name ∈ entry.2, StaysOnLine name := by
    simp [windListing, StaysOnLine, isCursorControl]
  have hshort : ∀ entry ∈ windListing.components, ∀ name ∈ entry.2,
      Unicode.width (nameLine name) ≤ screenWidth ∧ (nameLine name).length ≤ screenWidth := by
    decide
  have hline : ∀ entry ∈ windListing.components, ∀ name ∈ entry.2, FitsOnLine name := by
    intro entry hentry name hname
    obtain ⟨hwidth, hlength⟩ := hshort entry hentry name hname
    exact ⟨hstays entry hentry name hname, hwidth, hlength⟩
  have hexact : ∀ entry ∈ windListing.components, ∀ name ∈ entry.2, '[' ∉ name ∧ (nameLine name).count ':' ≤ 1 := by
    decide
  have hok : ((printListing (drawIn smileTheme) windListing).run plainSession).1 = .ok () := by decide +kernel
  refine ⟨isModest_smileTheme, hline, hok, fun entry hentry => ?_⟩
  have hnames := (printListing_exact_iff isModest_smileTheme hline (Prod.ext hok rfl)).2.2.1
  refine (hnames entry hentry).mpr fun name hname => ?_
  obtain ⟨hbracket, hcolons⟩ := hexact entry hentry name hname
  exact ⟨isLiteral_of_notMem hbracket, replaceCodes_of_count hcolons⟩

/-! ### A name that looks like a tag -/

/-- A project with one tool, whose name starts with something like a tag. -/
def draftSession : Session :=
  { plainSession with
    disk := (plainProject.remove ["p", "src", "tools", "wind-tool.ts"]).put
      ["p", "src", "tools", "[draft]notes.ts"] (.file []) }

/-- The components of the project in `draftSession`. -/
def draftListing : Listing :=
  ⟨"p", [(.tool, ["[draft]notes"]), (.resource, []), (.prompt, [])]⟩

/-- The components of a project in which that tool has a plain name. -/
def notesListing : Listing := ⟨"p", [(.tool, ["notes"]), (.resource, []), (.prompt, [])]⟩

/-- `draftListing` and `notesListing` are printed alike. -/
theorem draft_printed_like_notes :
    ((list Settings.default (.ofText ".")).run draftSession).1 = .ok (some draftListing) ∧
      draftListing.components ≠ notesListing.components ∧
      ((printListing (drawIn .basic) draftListing).run draftSession).1 = .ok () ∧
      ((printListing (drawIn .basic) notesListing).run draftSession).1 = .ok () ∧
      ((printListing (drawIn .basic) draftListing).run draftSession).2.screen
        = ((printListing (drawIn .basic) notesListing).run draftSession).2.screen := by
  decide +kernel

end ComponentKit.CommandLine
