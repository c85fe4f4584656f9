import MailMerge.Error
import MailMerge.Region.Location

/-!
# Assembly

The copies and the trailing section properties take the place of the region in the
main part. Everything outside the region stays as it is.

* `splice` puts a text in the place of a region that is given by its offsets.
-/

namespace MailMerge

/-- The text before and behind a range of bytes, if the range fits the text and its
ends stand between characters. -/
def outside? (start stop : Nat) (t : Text) : Option (Text × Text) :=
  if stop < start then none
  else do
    let (before, _) ← Text.splitAtByte? start t
    let (_, after) ← Text.splitAtByte? stop t
    return (before, after)

/-- **Splices** copies and trailing boilerplate into the place of a region. -/
def splice (mainPart : Text) (start stop : Nat) (trailing copies : Text) :
    Except StructureFault Text :=
  match outside? start stop mainPart with
  | some (before, after) => .ok (before ++ copies ++ trailing ++ after)
  | none => .error (.regionOutside start stop (Text.utf8Size mainPart))

end MailMerge
