import ComponentKit.CommandLine.Command
import ComponentKit.Console.Screen
import ComponentKit.Workflow.Add
import ComponentKit.Workflow.Listing

/-!
# What a user is shown

The summary and the next steps after a component was added, the listing of components, and coloured
lines. Names stand in these texts as they are, so what looks like a tag in them is taken for one. What the
console makes of marked-up text is given as `draw`.
-/

namespace ComponentKit.CommandLine

open Step Text Workflow

/-- Marked-up text as a console with a theme shows it: what `render` gives, or its fault as a `Failure`. -/
def drawIn (theme : Console.Theme) (markup : Text) : Except Failure Text :=
  (Console.render theme markup).mapError .markup

variable (draw : Text → Except Failure Text)

/-! ## Lines -/

/-- Prints a text in a style. -/
def printStyled (style text : Text) : Step Failure Unit :=
  printMarkup draw (concat ["[", style, "]", text, "[/", style, "]"])

/-- Prints the message for something that did not work. -/
def printError (text : Text) : Step Failure Unit :=
  printStyled draw "bold red" text

/-! ## After a component was added -/

/-- The commands that test a component. -/
def testCommands : Kind → List Text
  | .tool => ["npm run test:tools", "npm run inspector:cli"]
  | .resource => ["npm run test:resources", "npm run inspector:cli"]
  | .prompt => ["npm run test:prompts", "npm run inspector:cli"]
  | _ => ["npm run build", "npm test"]

/-- Advice on components of a kind. -/
def tips : Kind → List Text
  | .tool => [
    "Define input schemas using Zod for validation",
    "Return meaningful error messages instead of throwing",
    "Test with MCP Inspector to verify tool behavior"]
  | .resource => [
    "Provide both human-readable and machine-readable formats",
    "Consider caching for expensive resource operations",
    "Use clear URI patterns for resource identification"]
  | .prompt => [
    "Make prompts flexible with optional parameters",
    "Provide good defaults for tone and format options",
    "Test with different argument combinations"]
  | .service => [
    "Implement proper error handling and retries",
    "Add logging for debugging and monitoring",
    "Consider making services configurable"]
  | .transport => [
    "Handle reconnection scenarios gracefully",
    "Add proper cleanup in the close() method"]
  | .util => [
    "Keep utilities generic and reusable",
    "Cache expensive operations"]

/-- The file of a new component, as seen from the project if it lies in it. -/
def createdPath (added : Added) (project : Path) : Path :=
  (added.path.relativeTo? project).getD added.path

/-- What was done, line by line. -/
def summary (added : Added) (project : Path) : List (Text × Text) :=
  ("Project", added.projectName)
    :: ("Created", (createdPath added project).toText)
    :: ("Backup", added.snapshot.directory.toText)
    :: ("Index updated", if added.indexUpdated then "yes" else "no")
    :: added.patches.map fun patchReport =>
      (concat [patchReport.kind.name, " registry"],
        if patchReport.changed then "updated" else "unchanged")

/-- What to do next, as marked-up text. -/
def nextSteps (added : Added) (project : Path) : Text :=
  join "\n" <|
    ["[cyan]1. Customize your component:[/cyan]".toList,
      concat ["   Open ", (createdPath added project).toText, " and look for TODO comments"],
      "[cyan]2. Test your component:[/cyan]"]
    ++ (testCommands added.kind).map ("   ".toList ++ ·)
    ++ ["[cyan]3. Start your MCP server:[/cyan]".toList,
      "   npm run dev:stdio    # For CLI tools",
      "   npm run dev:http     # For web integration",
      [],
      "[cyan]Tips:[/cyan]"]
    ++ (tips added.kind).map ("   - ".toList ++ ·)

/-- Prints the `summary` of what was done and the `nextSteps`. -/
def printAdded (added : Added) (project : Path) : Step Failure Unit := do
  printStyled draw "bold green"
    (concat [capitalize added.kind.name, " '", added.name, "' added successfully!"])
  print (← ofResult (Console.table draw "Component added" ("Item", "Value") (summary added project)))
  printMarkup draw []
  print (← ofResult (Console.panel draw "Next steps" (nextSteps added project)))

/-! ## Why nothing was added -/

/-- The details of a stop. -/
def details (stop : Stop) : Text :=
  concat ["Traceback (most recent call last):\n  stage ", stop.stage.name, "\n", stop.message, "\n"]

/-- Prints why nothing was added, with `trace` as the details if these are shown. -/
def printStop (stop : Stop) (trace : Text) (verbose : Bool) : Step Failure Unit := do
  printError draw (concat ["Failed to add component: ", stop.message])
  if stop.stage = .detect then
    printStyled draw "dim" "Run this command inside a generated MCP server project."
  if stop.rolledBack then
    printStyled draw "bold yellow"
      "Registry files were restored; the new component file was kept for inspection."
  if verbose then printStyled draw "dim" trace

/-! ## Listing -/

/-- Prints the components of a kind. -/
def printComponents (kind : Kind) (names : List Text) : Step Failure Unit := do
  printMarkup draw (concat ["\n[cyan]", kind.conventions.directory, ":[/cyan]"])
  if names.isEmpty then printMarkup draw "   [dim]- No custom components found[/dim]"
  names.forM fun name => printMarkup draw (concat ["   - ", name])

/-- Prints the components of a project: a title, and under a rule what `printComponents` prints for each kind. -/
def printListing (listing : Listing) : Step Failure Unit := do
  printMarkup draw (concat ["\n[bold blue]Components in [cyan]", listing.projectName,
    "[/cyan]:[/bold blue]"])
  print Console.rule
  listing.components.forM fun (kind, names) => printComponents draw kind names
  printMarkup draw "\n[yellow]To add a new component:[/yellow]"
  printMarkup draw (concat ["   ", programName, " add <type> <name>"])

end ComponentKit.CommandLine
