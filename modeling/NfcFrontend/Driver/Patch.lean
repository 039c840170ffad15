import NfcFrontend.Driver.Basic
import NfcFrontend.Patch

/-!
# Writing a patch

A patch is validated before its first value is written, so a patch that runs past
the last register changes nothing. Once it is valid, its values are written in
ascending order of their addresses, one access each.
-/

namespace NfcFrontend

namespace Driver

/-- Write register values in order. -/
def writeEntries : List (Address × UInt8) → Action Unit
  | [] => pure ()
  | (address, value) :: rest => do
    write address value
    writeEntries rest

/-- Write a patch, one register at a time. Nothing is written if the patch is invalid. -/
def writePatch (patch : Patch) : Action Unit := do
  Action.ofArgument patch.validate
  let entries ← Action.ofContract patch.entries
  writeEntries entries

end Driver

end NfcFrontend
