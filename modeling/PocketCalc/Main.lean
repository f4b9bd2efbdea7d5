import PocketCalc.Program

/-!
# The program on a terminal

Each line of the input is typed into the window, a line that is empty presses the enter key, and
what the window then shows is printed, a text to a line. The terminal names no folder, so the
history is kept in memory.
-/

namespace PocketCalc

namespace Terminal

/-- A launch without any folder. -/
def start : Window ProgramStore Sheet :=
  Program.launch (Desktop.environment ⟨none, none, none⟩ none) .empty

/-- The event that a line stands for. -/
def event (line : Text) : Event :=
  .frame [if line = [] then .stroke .enter true else .text line]

/-- What a window shows, a text to a line. -/
def shown (w : Window ProgramStore Sheet) : String :=
  String.intercalate "\n" (w.texts.map String.ofList)

/-- Reads lines until the input ends, printing the window after each. -/
partial def talk (input output : IO.FS.Stream) (w : Window ProgramStore Sheet) : IO Unit := do
  output.putStrLn (shown w)
  output.flush
  let line ← input.getLine
  if line.isEmpty then return
  talk input output (w.settle (event (line.toList.filter (· != '\n')))).1

end Terminal

end PocketCalc

/-- Talks on standard input and output. -/
def main : IO Unit := do
  PocketCalc.Terminal.talk (← IO.getStdin) (← IO.getStdout) PocketCalc.Terminal.start
