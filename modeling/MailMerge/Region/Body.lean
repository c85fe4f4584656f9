import MailMerge.Markup.Tag
import MailMerge.Region.Marker

/-!
# The whole body as region

A template without markers is repeated as a whole: its region is what the element
`w:body` holds.
-/

namespace MailMerge.Body

/-- Matches the start tag of the body. -/
def startTag : Matcher := tagLength "<w:body" endsAtBlank

/-- The end tag of the body. -/
def endTag : Text := "</w:body>"

/-- Whether there is a body. -/
def isPresent (t : Text) : Bool := hasMatch startTag t

/-- The region between the first start tag and the last end tag of the body. -/
def region (t : Text) : Except MissingMarker Region :=
  match findMatch? startTag (fun _ => true) t with
  | none => .error .bodyStart
  | some opening =>
    match Text.lastCut? endTag opening.after with
    | none => .error .bodyEnd
    | some (inside, after) =>
      .ok
        { before := opening.before ++ opening.piece
          inside := inside
          after := endTag ++ after }

end MailMerge.Body
