import MailCapture.Instance.Definition
import MailCapture.Json.Printer
/-!
The command line.
-/

/-- Print the definition of the record kind; every other use is refused. -/
def main (args : List String) : IO UInt32 := do
  if args.contains "--print-crd" then
    IO.println MailCapture.Instance.definition.render
    return 0
  else
    IO.eprintln "usage: --print-crd"
    return 2
