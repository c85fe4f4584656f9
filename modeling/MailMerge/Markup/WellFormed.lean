import MailMerge.Markup.Event
import MailMerge.Markup.Reference

/-!
# Well-formed documents

A main part that is put back into its package must be a **well-formed document**:
tags nest and match, references resolve, and there is one root.

* `StructureFault` names what is wrong with a document, with its place in bytes;
* `checkEvents` walks the events with the names of the open elements as a stack;
* `checkWellFormed` finds the first fault of a document.
-/

namespace MailMerge

/-- What is wrong with a document. -/
inductive StructureFault where
  | malformed (offset : Nat) (fault : SyntaxFault)
  | namelessDoctype (offset : Nat)
  | mismatchedEnd (offset : Nat) (expected found : Text)
  | unopenedEnd (offset : Nat) (found : Text)
  | reference (offset : Nat) (fault : ReferenceFault)
  | leftOpen (count : Nat)
  | rootCount (count : Nat)
  | regionOutside (start stop size : Nat)
  deriving DecidableEq, Repr

/-- The text of a fault. -/
def StructureFault.message : StructureFault → Text
  | .malformed offset fault =>
    "at byte " ++ Text.ofNat offset ++ ": syntax error: " ++ fault.message
  | .namelessDoctype offset =>
    "at byte " ++ Text.ofNat offset ++
      ": ill-formed document: `<!DOCTYPE>` declaration does not contain a name of a document type"
  | .mismatchedEnd offset expected found =>
    "at byte " ++ Text.ofNat offset ++ ": ill-formed document: expected `</" ++ expected ++
      ">`, but `</" ++ found ++ ">` was found"
  | .unopenedEnd offset found =>
    "at byte " ++ Text.ofNat offset ++ ": ill-formed document: close tag `</" ++ found ++
      ">` does not match any open tag"
  | .reference offset fault =>
    "bad character data near byte " ++ Text.ofNat offset ++ ": " ++ fault.message
  | .leftOpen count => Text.ofNat count ++ " element(s) left open at end of document"
  | .rootCount count => "expected one root element, found " ++ Text.ofNat count
  | .regionOutside start stop size =>
    "region " ++ Text.ofNat start ++ ".." ++ Text.ofNat stop ++ " does not fit a body of " ++
      Text.ofNat size ++ " bytes"

/-- Checks events, given the names of the open elements, innermost first, and the
number of roots so far. -/
def checkEvents (stack : List Text) (roots : Nat) : List Placed → Except StructureFault Unit
  | [] =>
    if stack ≠ [] then .error (.leftOpen stack.length)
    else if roots ≠ 1 then .error (.rootCount roots)
    else .ok ()
  | ⟨start, stop, event⟩ :: rest =>
    match event with
    | .characters data =>
      match checkReferences data with
      | .ok () => checkEvents stack roots rest
      | .error fault => .error (.reference stop fault)
    | .startTag name =>
      checkEvents (name :: stack) (if stack.isEmpty then roots + 1 else roots) rest
    | .emptyTag _ => checkEvents stack (if stack.isEmpty then roots + 1 else roots) rest
    | .endTag name =>
      match stack with
      | [] => .error (.unopenedEnd start name)
      | expected :: outer =>
        if name = expected then checkEvents outer roots rest
        else .error (.mismatchedEnd start expected name)
    | .aside => checkEvents stack roots rest
    | .namelessDoctype => .error (.namelessDoctype (stop - 1))
    | .broken fault => .error (.malformed start fault)

/-- Checks that a document is **well-formed**. -/
def checkWellFormed (document : Text) : Except StructureFault Unit :=
  checkEvents [] 0 (events document)

end MailMerge
