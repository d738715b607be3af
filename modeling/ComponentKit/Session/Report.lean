import ComponentKit.Console.Screen

/-!
# Reports

A `Message` tells a user how a run goes on. Each has a `Level`, which decides how it is shown.
-/

namespace ComponentKit

/-- The level of a message. -/
inductive Level where
  | step
  | success
  | info
  | warning
  | error
  | debug
  deriving DecidableEq, Repr

namespace Level

/-- All levels. -/
def all : List Level := [step, success, info, warning, error, debug]

/-- The word for a level. -/
def name : Level → Text
  | step => "step"
  | success => "success"
  | info => "info"
  | warning => "warning"
  | error => "error"
  | debug => "debug"

/-- The level that a word names. -/
def ofName? (word : Text) : Option Level :=
  all.find? (·.name == word)

/-- Marked-up text around a message of a level. -/
def decorate (level : Level) (escaped : Text) : Text :=
  match level with
  | step => Text.concat ["[cyan]>[/cyan] ", escaped]
  | success => Text.concat ["  [green]+[/green] ", escaped]
  | info => Text.concat ["  ", escaped]
  | warning => Text.concat ["  [bold yellow]![/bold yellow] [yellow]", escaped, "[/yellow]"]
  | error => Text.concat ["[bold red]", escaped, "[/bold red]"]
  | debug => Text.concat ["[dim]    ", escaped, "[/dim]"]

end Level

/-- A message of a run. -/
structure Message where
  /-- How much the message matters. -/
  level : Level
  /-- What it says. -/
  text : Text
  deriving DecidableEq, Repr

namespace Message

/-- What a message puts on the screen: its text, escaped, between the tags of `decorate`. Details are shown only on
demand. -/
def printed (message : Message) (verbose : Bool) : Except Console.MarkupFault Text :=
  if message.level = .debug ∧ !verbose then .ok []
  else Console.printed (Console.render .basic) (message.level.decorate (Console.escape message.text))

end Message

end ComponentKit
