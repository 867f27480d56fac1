import SelectorCatalog.CommandLine.Run
import SelectorCatalog.Workspace.Snapshot

/-!
# The program

The command line is that of the program, and the workspace is a snapshot on the standard input;
without one it is empty. What the command prints goes to the standard output.

The following is left out.

* Limits of recursion: documents, types and syntax trees are read however deeply they are nested.
* Surrogate code points: a text has Unicode characters only. Half of a pair in an escape of a
  document is read as U+FFFD (`Json.charOf`), so texts that differ only there become one text.
* Unreadable entries other than files: a file may refuse to be opened (`Tree.closed`), but
  directories that cannot be listed, links and devices are no part of a tree.
* What databases, systems and stores of compilers do by themselves: the text that a column gets for
  a value that is no text (`TextCast`), the runs of a compiler (`Runner`) and the search for its
  binary (`BinaryStore`) are given.
-/

set_option autoImplicit false

open SelectorCatalog

/-- Runs the command line on the snapshot on the standard input. -/
def main (arguments : List String) : IO UInt32 := do
  let text ← (← IO.getStdin).readToEnd
  let snapshot := (Json.parse text).toOption.getD (.object [])
  match (CommandLine.run (Snapshot.workspace none snapshot) arguments).1 with
  | .exited code output =>
    IO.print output
    return code.toUInt32
  | .faulted f =>
    IO.eprintln f.report
    return 1
