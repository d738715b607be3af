import ComponentKit.Proofs.CommandLine.Listing
import ComponentKit.Proofs.Console.Showing

/-!
# Which texts of a command are at risk

Printing fails exactly if the console refuses one of the marked-up texts that are printed. `addedMarkups`, `stopMarkups`
and `listingMarkups` say which these are. What a command was given stands in them without being escaped, between texts
of their own. A console with a `Theme` refuses closing tags that close nothing, and all of the own ones close what they
should. So such a console shows all of these texts if it was given no text with a closing tag.
-/

namespace ComponentKit.CommandLine

open Console Step Text Workflow

variable {session : Session} {project : Path} {added : Added} {listing : Listing} {stop : Stop} {theme : Theme}
  {draw : Text → Except Failure Text} {style text front trace : Text} {verbose : Bool} {step second : Step Failure Unit}
  {markups more : List Text}

/-! ## Refusals -/

/-- Whether a console that draws by `draw` refuses to show a marked-up text. -/
def Refuses (draw : Text → Except Failure Text) (markup : Text) : Prop :=
  ∃ failure, draw markup = .error failure

theorem exists_shownLines_eq_error : (∃ failure, shownLines draw text = .error failure) ↔ Refuses draw text := by
  rw [Refuses, shownLines]
  cases draw text <;> simp [bind, Except.bind, pure, Except.pure]

theorem exists_printed_eq_error : (∃ failure, printed draw text = .error failure) ↔ Refuses draw text := by
  rw [← exists_shownLines_eq_error, printed]
  cases shownLines draw text <;> simp [Functor.map, Except.map]

/-- A table is printed unless one of its cells is refused. -/
theorem exists_table_eq_error {title : Text} {header : Text × Text} {rows : List (Text × Text)} :
    (∃ failure, table draw title header rows = .error failure) ↔
      ∃ cell ∈ rows.flatMap (fun row => [row.1, row.2]), Refuses draw cell := by
  have hcells : (∃ cell ∈ rows.flatMap (fun row => [row.1, row.2]), Refuses draw cell) ↔
      (∃ row ∈ rows, ∃ failure, shownLines draw row.1 = .error failure) ∨
        ∃ row ∈ rows, ∃ failure, shownLines draw row.2 = .error failure := by
    simp only [List.mem_flatMap, List.mem_cons, List.not_mem_nil, or_false, exists_shownLines_eq_error]
    constructor
    · rintro ⟨cell, ⟨row, hrow, rfl | rfl⟩, h⟩
      · exact .inl ⟨row, hrow, h⟩
      · exact .inr ⟨row, hrow, h⟩
    · rintro (⟨row, hrow, h⟩ | ⟨row, hrow, h⟩)
      · exact ⟨_, ⟨row, hrow, .inl rfl⟩, h⟩
      · exact ⟨_, ⟨row, hrow, .inr rfl⟩, h⟩
  -- the table reads its left column first, then its right one
  rw [hcells, ← exists_mapM_eq_error, ← exists_mapM_eq_error, table]
  cases rows.mapM fun row => shownLines draw row.1 with
  | error failure => simp [bind, Except.bind]
  | ok left =>
    cases rows.mapM fun row => shownLines draw row.2 with
    | error failure => simp [bind, Except.bind]
    | ok right => simp [bind, Except.bind, pure, Except.pure]

/-- A panel is printed unless its text is refused. -/
theorem exists_panel_eq_error {title : Text} :
    (∃ failure, panel draw title text = .error failure) ↔ Refuses draw text := by
  rw [← exists_shownLines_eq_error, panel]
  cases shownLines draw text <;> simp [bind, Except.bind, pure, Except.pure]

/-- Whether a step fails exactly if `draw` refuses one of some marked-up texts (`Refuses`), whatever the session. -/
def FailsOver (draw : Text → Except Failure Text) (step : Step Failure Unit) (markups : List Text) : Prop :=
  ∀ session, Fails step session ↔ ∃ markup ∈ markups, Refuses draw markup

namespace FailsOver

theorem done : FailsOver draw (pure ()) [] :=
  fun session => iff_of_false (fun ⟨_, h⟩ => (by cases h)) fun ⟨_, h, _⟩ => List.not_mem_nil h

/-- A text that may be refused is printed or the failure. -/
theorem result {given : Except Failure Text}
    (h : (∃ failure, given = .error failure) ↔ ∃ markup ∈ markups, Refuses draw markup) :
    FailsOver draw (do print (← ofResult given)) markups := by
  intro session
  rw [(Prints.result given).fails_iff, ← h]
  simp only [List.mem_singleton, eq_comm]

theorem markup (text : Text) : FailsOver draw (printMarkup draw text) [text] :=
  result (exists_printed_eq_error.trans (by simp))

theorem print (text : Text) : FailsOver draw (Step.print text) [] :=
  fun session => iff_of_false (fun ⟨_, h⟩ => (by cases h)) fun ⟨_, h, _⟩ => List.not_mem_nil h

theorem bind (hstep : FailsOver draw step markups) (hsecond : FailsOver draw second more) :
    FailsOver draw (step >>= fun _ => second) (markups ++ more) := by
  intro session
  simp only [List.mem_append, or_and_right, exists_or]
  rw [← hstep session, ← hsecond (step.run session).2]
  -- what the first step leaves does not matter to the second one, nor does whether it gets to it
  cases hrun : step.run session with
  | mk outcome after =>
    rw [Fails, run_bind, hrun]
    cases outcome with
    | ok value =>
      have hnone : ¬ Fails step session := by
        rintro ⟨failure, h⟩
        rw [hrun] at h
        cases h
      exact (or_iff_right hnone).symm
    | error failure => exact iff_of_true ⟨failure, rfl⟩ (.inl ⟨failure, by rw [hrun]⟩)

/-- A step that is done only at times, in front of others. -/
theorem ite_bind {c : Prop} [Decidable c] (hstep : FailsOver draw step markups)
    (hsecond : FailsOver draw second more) :
    FailsOver draw (if c then step >>= fun _ => second else second) ((if c then markups else []) ++ more) := by
  split
  · exact hstep.bind hsecond
  · exact hsecond

theorem forM {α : Type} {f : α → Step Failure Unit} {g : α → List Text} (h : ∀ x, FailsOver draw (f x) (g x))
    (items : List α) : FailsOver draw (items.forM f) (items.flatMap g) := by
  induction items with
  | nil => exact done
  | cons item items ih =>
    rw [List.flatMap_cons]
    exact (h item).bind ih

end FailsOver

/-! ## Styled lines -/

/-- A text in a style, as marked-up text. -/
def styled (style text : Text) : Text :=
  concat ["[", style, "]", text, "[/", style, "]"]

theorem styled_eq (style text : Text) : styled style text = '[' :: (style ++ ']' :: (text ++ closingTag style)) := by
  simp [styled, concat, closingTag]

theorem failsOver_printStyled (style text : Text) : FailsOver draw (printStyled draw style text) [styled style text] :=
  .markup _

theorem refuses_drawIn_iff : Refuses (drawIn theme) text ↔ ¬ Shows theme.normalForm [] text := by
  rw [← exists_render_eq_error, Refuses, drawIn]
  cases render theme text <;> simp [Except.mapError]

theorem not_hasClosing_of_notMem (h : '/' ∉ text) : ¬ HasClosing text :=
  fun hin => h (hin.subset (show '/' ∈ ['[', '/'] by simp))

/-- Text without opening brackets makes no difference in front. -/
theorem hasClosing_append (hfront : '[' ∉ front) (h : HasClosing (front ++ text)) : HasClosing text := by
  obtain ⟨before, after, h⟩ := h
  rw [List.append_assoc, List.append_eq_append_iff] at h
  rcases h with ⟨middle, hmiddle, htext⟩ | ⟨middle, hmiddle, htext⟩
  · -- a tag that starts in the front has a bracket there
    cases middle with
    | nil => exact ⟨[], after, htext⟩
    | cons c middle =>
      obtain ⟨rfl, -⟩ := List.cons.inj htext
      exact absurd (hmiddle ▸ List.mem_append_right _ List.mem_cons_self) hfront
  · exact ⟨middle, after, by rw [htext, List.append_assoc]⟩

/-- It takes a closing tag for a text to be refused. -/
theorem hasClosing_of_refuses (h : Refuses (drawIn theme) text) : HasClosing text := by
  by_contra hnone
  exact refuses_drawIn_iff.mp h (shows_of_not_hasClosing hnone)

/-- The same of a text in a style. -/
theorem hasClosing_of_refuses_styled (hstyle : isStyleName style = true)
    (h : Refuses (drawIn theme) (styled style text)) : HasClosing text := by
  by_contra hnone
  rw [refuses_drawIn_iff, styled_eq] at h
  exact h (shows_styled hstyle hnone)

/-- The message for an error is refused only for what follows its first words. -/
theorem hasClosing_of_refuses_message (hfront : '[' ∉ front)
    (h : Refuses (drawIn theme) (styled "bold red" (concat [front, text]))) : HasClosing text := by
  have hmessage := hasClosing_of_refuses_styled (by rfl) h
  rw [show concat [front, text] = front ++ text by simp [concat]] at hmessage
  exact hasClosing_append hfront hmessage

/-! ## After a component was added -/

/-- The next steps behind the first one. -/
def laterSteps (kind : Kind) : Text :=
  join "\n" <|
    ["[cyan]2. Test your component:[/cyan]".toList]
    ++ (testCommands kind).map ("   ".toList ++ ·)
    ++ ["[cyan]3. Start your MCP server:[/cyan]".toList,
      "   npm run dev:stdio    # For CLI tools",
      "   npm run dev:http     # For web integration",
      [],
      "[cyan]Tips:[/cyan]"]
    ++ (tips kind).map ("   - ".toList ++ ·)

theorem nextSteps_eq (added : Added) (project : Path) : nextSteps added project
    = "[cyan]1. Customize your component:[/cyan]".toList ++ ("\n".toList ++ ("   Open ".toList
      ++ ((createdPath added project).toText ++ (" and look for TODO comments".toList
        ++ ("\n".toList ++ laterSteps added.kind))))) := by
  rw [nextSteps, laterSteps]
  simp only [List.cons_append, List.nil_append, join_cons_cons, concat, List.flatten_cons, List.flatten_nil,
    List.append_nil, List.append_assoc]

theorem isNeutral_title {line : Text} (title : Text) (hline : line = concat ["[cyan]", title, "[/cyan]"])
    (h : isPlain title = true) : IsNeutral line := by
  have hmarked := IsNeutral.marked (show isStyleName "cyan" by rfl) h
  rw [hline]
  simpa [concat, closingTag] using hmarked

/-- The tags in the later steps close the styles that they open. -/
theorem isNeutral_laterSteps (kind : Kind) : IsNeutral (laterSteps kind) := by
  have hplain {lines : List Text} (h : lines.all isPlain = true) : ∀ line ∈ lines, IsNeutral line :=
    fun line hline => .plain (List.all_eq_true.mp h line hline)
  have htests : ((testCommands kind).map ("   ".toList ++ ·)).all isPlain = true := by
    cases kind <;> simp [testCommands, isPlain, isCursorControl]
  have htips : ((tips kind).map ("   - ".toList ++ ·)).all isPlain = true := by
    cases kind <;> simp [tips, isPlain, isCursorControl]
  have hrun : isPlain "   npm run dev:stdio    # For CLI tools" = true ∧
      isPlain "   npm run dev:http     # For web integration" = true := by
    simp [isPlain, isCursorControl]
  have hsecond : IsNeutral "[cyan]2. Test your component:[/cyan]".toList :=
    isNeutral_title "2. Test your component:" (by simp [concat]) (by simp [isPlain, isCursorControl])
  have hthird : IsNeutral "[cyan]3. Start your MCP server:[/cyan]".toList :=
    isNeutral_title "3. Start your MCP server:" (by simp [concat]) (by simp [isPlain, isCursorControl])
  have hlast : IsNeutral "[cyan]Tips:[/cyan]".toList :=
    isNeutral_title "Tips:" (by simp [concat]) (by simp [isPlain, isCursorControl])
  -- titles open and close a style on their own lines, and all other lines are plain
  rw [laterSteps]
  refine .join (.plain (by rfl)) ?_
  simp only [List.forall_mem_append, List.forall_mem_cons]
  exact ⟨⟨⟨⟨hsecond, List.forall_mem_nil _⟩, hplain htests⟩, hthird, .plain hrun.1, .plain hrun.2, .plain (by rfl),
    hlast, List.forall_mem_nil _⟩, hplain htips⟩

theorem exists_laterSteps (kind : Kind) : ∃ rest, laterSteps kind = '[' :: rest := by
  cases kind <;> exact ⟨_, rfl⟩

/-- The next steps are refused only for the path of the component. -/
theorem hasClosing_of_refuses_nextSteps (h : Refuses (drawIn theme) (nextSteps added project)) :
    HasClosing (createdPath added project).toText := by
  by_contra hnone
  obtain ⟨inner, hopened⟩ : ∃ inner, openedAfter theme.normalForm [] (parts (createdPath added project).toText)
      = some (inner ++ []) := openedAfter_of_not_hasClosing [] 0 hnone
  have hopens : OpensBrackets (" and look for TODO comments".toList ++ ("\n".toList ++ laterSteps added.kind)) := by
    obtain ⟨rest, hrest⟩ := exists_laterSteps added.kind
    rw [hrest]
    exact ((opensBrackets_cons rest).append (by decide)).append (by decide)
  have hfirst : IsNeutral "[cyan]1. Customize your component:[/cyan]".toList :=
    isNeutral_title "1. Customize your component:" (by simp [concat])
      (by simp [isPlain, isCursorControl])
  have hbreak : IsNeutral "\n".toList := .plain (by rfl)
  have hadvice : IsNeutral " and look for TODO comments".toList := .plain (by simp [isPlain, isCursorControl])
  rw [refuses_drawIn_iff, nextSteps_eq] at h
  refine h (hfirst _ _ _ (hbreak _ _ _ (IsNeutral.plain (by rfl) _ _ _ ?_)))
  -- whatever the path leaves open, the steps behind it can be shown
  refine shows_append hopens hopened fun slashes hslashes => .slashes_append hslashes (by decide) ?_
  exact hadvice _ _ _ (hbreak _ _ _ ((isNeutral_laterSteps added.kind).shows _))

/-- The line that says that a component was added. -/
def successLine (added : Added) : Text :=
  concat [capitalize added.kind.name, " '", added.name, "' added successfully!"]

/-- What `printAdded` prints. -/
def addedMarkups (added : Added) (project : Path) : List Text :=
  styled "bold green" (successLine added)
    :: ((summary added project).flatMap (fun row => [row.1, row.2]) ++ [[], nextSteps added project])

theorem failsOver_printAdded (added : Added) (project : Path) :
    FailsOver draw (printAdded draw added project) (addedMarkups added project) := by
  rw [printAdded]
  have hpanel : FailsOver draw (do print (← ofResult (panel draw "Next steps" (nextSteps added project))))
      [nextSteps added project] := .result (exists_panel_eq_error.trans (by simp))
  refine (failsOver_printStyled _ _).bind ?_
  rw [← bind_assoc]
  exact (FailsOver.result exists_table_eq_error).bind ((FailsOver.markup []).bind hpanel)

/-- The line that says that a component was added has no slash but those of its name. -/
theorem slash_notMem_successLine (hname : '/' ∉ added.name) :
    '/' ∉ concat [capitalize added.kind.name, " '", added.name, "' added successfully!"] := by
  intro hmem
  simp only [concat, List.flatten_cons, List.flatten_nil, List.mem_append] at hmem
  rcases hmem with hmem | hmem | hmem | hmem | hmem
  · revert hmem
    cases added.kind <;> decide
  · revert hmem
    decide
  · exact hname hmem
  · revert hmem
    decide
  · exact absurd hmem List.not_mem_nil

/-- What is said of the registries has no closing tag. -/
theorem not_hasClosing_patches (patches : List PatchReport) {cell : Text}
    (hcell : cell ∈ (patches.map fun patchReport =>
      (concat [patchReport.kind.name, " registry"],
        if patchReport.changed then "updated".toList else "unchanged".toList)).flatMap fun row => [row.1, row.2]) :
    ¬ HasClosing cell := by
  obtain ⟨row, hrow, hcell⟩ := List.mem_flatMap.mp hcell
  obtain ⟨patchReport, -, rfl⟩ := List.mem_map.mp hrow
  refine not_hasClosing_of_notMem ?_
  simp only [List.mem_cons, List.not_mem_nil, or_false] at hcell
  rcases hcell with rfl | rfl
  · cases patchReport.kind <;> decide
  · split <;> decide

/-- Of the cells of a summary, those with the project, the new file and the snapshot may have closing tags. -/
theorem hasClosing_of_mem_summary {cell : Text}
    (hcell : cell ∈ (summary added project).flatMap fun row => [row.1, row.2]) (h : HasClosing cell) :
    HasClosing added.projectName ∨ HasClosing (createdPath added project).toText ∨
      HasClosing added.snapshot.directory.toText := by
  have hnone (text : Text) (htext : '/' ∉ text) : cell ≠ text := by
    rintro rfl
    exact not_hasClosing_of_notMem htext h
  have hindex : '/' ∉ if added.indexUpdated then "yes".toList else "no".toList := by
    split <;> decide
  rw [summary] at hcell
  simp only [List.flatMap_cons, List.cons_append, List.nil_append, List.mem_cons] at hcell
  rcases hcell with hc | rfl | hc | rfl | hc | rfl | hc | hc | hc
  · exact absurd hc (hnone _ (by decide))
  · exact .inl h
  · exact absurd hc (hnone _ (by decide))
  · exact .inr (.inl h)
  · exact absurd hc (hnone _ (by decide))
  · exact .inr (.inr h)
  · exact absurd hc (hnone _ (by decide))
  · exact absurd hc (hnone _ hindex)
  · exact absurd h (not_hasClosing_patches _ hc)

/-- After a component was added nothing is refused but for a closing tag in what was given. -/
theorem hasClosing_of_added (hname : '/' ∉ added.name)
    (h : ∃ markup ∈ addedMarkups added project, Refuses (drawIn theme) markup) :
    HasClosing added.projectName ∨ HasClosing (createdPath added project).toText ∨
      HasClosing added.snapshot.directory.toText := by
  obtain ⟨markup, hmem, hrefused⟩ := h
  simp only [addedMarkups, List.mem_cons, List.mem_append, List.not_mem_nil, or_false] at hmem
  rcases hmem with rfl | hcell | rfl | rfl
  · exact absurd (hasClosing_of_refuses_styled (by rfl) hrefused)
      (not_hasClosing_of_notMem (slash_notMem_successLine hname))
  · exact hasClosing_of_mem_summary hcell (hasClosing_of_refuses hrefused)
  · exact absurd (hasClosing_of_refuses hrefused) (not_hasClosing_of_notMem List.not_mem_nil)
  · exact .inr (.inl (hasClosing_of_refuses_nextSteps hrefused))

/-! ## When nothing was added -/

/-- What `printStop` prints. -/
def stopMarkups (stop : Stop) (trace : Text) (verbose : Bool) : List Text :=
  styled "bold red" (concat ["Failed to add component: ", stop.message])
    :: ((if stop.stage = .detect then [styled "dim" "Run this command inside a generated MCP server project."] else [])
      ++ ((if stop.rolledBack then [styled "bold yellow"
            "Registry files were restored; the new component file was kept for inspection."] else [])
        ++ if verbose then [styled "dim" trace] else []))

theorem failsOver_printStop (stop : Stop) (trace : Text) (verbose : Bool) :
    FailsOver draw (printStop draw stop trace verbose) (stopMarkups stop trace verbose) := by
  have hverbose : FailsOver draw (if verbose then printStyled draw "dim" trace else pure ())
      (if verbose then [styled "dim" trace] else []) := by
    split
    · exact failsOver_printStyled _ _
    · exact .done
  rw [printStop, stopMarkups]
  exact (failsOver_printStyled _ _).bind
    (.ite_bind (failsOver_printStyled _ _) (.ite_bind (failsOver_printStyled _ _) hverbose))

/-- Of what is printed for a stop, its message may be refused, and the details if they are shown. -/
theorem hasClosing_of_stop (h : ∃ markup ∈ stopMarkups stop trace verbose, Refuses (drawIn theme) markup) :
    HasClosing stop.message ∨ verbose = true ∧ HasClosing trace := by
  obtain ⟨markup, hmem, hrefused⟩ := h
  simp only [stopMarkups, List.mem_cons, List.mem_append, List.mem_ite_nil_right, List.not_mem_nil, or_false] at hmem
  rcases hmem with rfl | ⟨-, rfl⟩ | ⟨-, rfl⟩ | ⟨hverbose, rfl⟩
  · exact .inl (hasClosing_of_refuses_message (by decide) hrefused)
  · exact absurd (hasClosing_of_refuses_styled (by rfl) hrefused) (not_hasClosing_of_notMem (by decide))
  · exact absurd (hasClosing_of_refuses_styled (by rfl) hrefused) (not_hasClosing_of_notMem (by decide))
  · exact .inr ⟨hverbose, hasClosing_of_refuses_styled (by rfl) hrefused⟩

/-! ## Listings -/

/-- What `printComponents` prints for a kind. -/
def kindMarkups (kind : Kind) (names : List Text) : List Text :=
  concat ["\n[cyan]", kind.conventions.directory, ":[/cyan]"]
    :: ((if names.isEmpty then ["   [dim]- No custom components found[/dim]".toList] else [])
      ++ names.map nameLine)

/-- What `printListing` prints. -/
def listingMarkups (listing : Listing) : List Text :=
  listingTitle listing :: (listing.components.flatMap (fun (kind, names) => kindMarkups kind names)
    ++ ["\n[yellow]To add a new component:[/yellow]".toList, concat ["   ", programName, " add <type> <name>"]])

theorem failsOver_printComponents (kind : Kind) (names : List Text) :
    FailsOver draw (printComponents draw kind names) (kindMarkups kind names) := by
  have hnames : FailsOver draw (names.forM fun name => printMarkup draw (concat ["   - ", name]))
      (names.map nameLine) := by
    rw [List.map_eq_flatMap]
    exact .forM (fun name => .markup _) names
  rw [printComponents, kindMarkups]
  exact (FailsOver.markup _).bind (.ite_bind (.markup _) hnames)

theorem failsOver_printListing (listing : Listing) :
    FailsOver draw (printListing draw listing) (listingMarkups listing) := by
  have hcomponents : FailsOver draw (listing.components.forM fun entry => printComponents draw entry.1 entry.2)
      (listing.components.flatMap fun (kind, names) => kindMarkups kind names) :=
    .forM (fun entry : Kind × List Text => failsOver_printComponents entry.1 entry.2) listing.components
  rw [printListing, listingMarkups]
  exact (FailsOver.markup _).bind ((FailsOver.print _).bind (hcomponents.bind ((FailsOver.markup _).bind (.markup _))))

/-- The title is refused only for the name of the project. -/
theorem hasClosing_of_refuses_title (h : Refuses (drawIn theme) (listingTitle listing)) :
    HasClosing listing.projectName := by
  by_contra hnone
  have htitle : listingTitle listing = "\n".toList ++ '[' :: ("bold blue".toList ++ ']' :: ("Components in ".toList
      ++ '[' :: ("cyan".toList ++ ']' :: (listing.projectName ++ (closingTag "cyan"
        ++ (":".toList ++ closingTag "bold blue")))))) := by
    simp [listingTitle, concat, closingTag]
  rw [refuses_drawIn_iff, htitle] at h
  refine h (.plain_append _ (by simp) (.opening (by rfl) (.plain_append _ (by simp) (.between (by rfl) hnone ?_))))
  -- the outer style is still open, whatever the name leaves open besides
  intro inner
  have hmem : theme.normalForm "bold blue".toList ∈ inner ++ [theme.normalForm "bold blue"] :=
    List.mem_append_right inner (List.mem_singleton_self _)
  have hclosing : Shows theme.normalForm (inner ++ [theme.normalForm "bold blue"])
      ([] ++ (closingTag "bold blue" ++ [])) :=
    .closing (by rfl) (List.forall_mem_nil _) hmem (.nil _) (.nil _)
  rw [List.nil_append, List.append_nil] at hclosing
  exact .plain_append _ (by simp) hclosing

/-- Of what is printed for a kind, only a closing tag in the name of a module is refused. -/
theorem hasClosing_of_kind {kind : Kind} {names : List Text} {markup : Text} (hmem : markup ∈ kindMarkups kind names)
    (h : Refuses (drawIn theme) markup) : ∃ name ∈ names, HasClosing name := by
  simp only [kindMarkups, List.mem_cons, List.mem_append, List.mem_ite_nil_right, List.not_mem_nil, or_false,
    List.mem_map] at hmem
  rcases hmem with rfl | ⟨-, rfl⟩ | ⟨name, hname, rfl⟩
  · have hheading := printed_heading theme kind
    obtain ⟨failure, hfailure⟩ := exists_printed_eq_error.mpr h
    cases hheading.symm.trans hfailure
  · obtain ⟨failure, hfailure⟩ := exists_printed_eq_error.mpr h
    cases (printed_noneFound theme).symm.trans hfailure
  · have hclosing := hasClosing_of_refuses h
    rw [nameLine_eq] at hclosing
    exact ⟨name, hname, hasClosing_append (by decide) hclosing⟩

/-- Of a listing, only a closing tag in the name of the project or of a module is refused. -/
theorem hasClosing_of_listing (h : ∃ markup ∈ listingMarkups listing, Refuses (drawIn theme) markup) :
    HasClosing listing.projectName ∨ ∃ entry ∈ listing.components, ∃ name ∈ entry.2, HasClosing name := by
  obtain ⟨markup, hmem, hrefused⟩ := h
  simp only [listingMarkups, List.mem_cons, List.mem_append, List.mem_flatMap, List.not_mem_nil, or_false] at hmem
  rcases hmem with rfl | ⟨entry, hentry, hmem⟩ | rfl | rfl
  · exact .inl (hasClosing_of_refuses_title hrefused)
  · exact .inr ⟨entry, hentry, hasClosing_of_kind hmem hrefused⟩
  · obtain ⟨failure, hfailure⟩ := exists_printed_eq_error.mpr hrefused
    cases (printed_advice theme).symm.trans hfailure
  · obtain ⟨failure, hfailure⟩ := exists_printed_eq_error.mpr hrefused
    cases (printed_usage theme).symm.trans hfailure

end ComponentKit.CommandLine
