import MailMerge.Text.Utf8

/-!
# Names of parts

A part says whether its name is written in UTF-8. If not, each byte is one character of
the old code page of archives, the first half of which is ASCII.

* `PartName.ofBytes` reads a name.
-/

namespace MailMerge

namespace PartName

/-- The second half of the code page. -/
def upperHalf : Text :=
  "ÇüéâäàåçêëèïîìÄÅÉæÆôöòûùÿÖÜ¢£¥₧ƒáíóúñÑªº¿⌐¬½¼¡«»░▒▓│┤╡╢╖╕╣║╗╝╜╛┐" ++
    "└┴┬├─┼╞╟╚╔╩╦╠═╬╧╨╤╥╙╘╒╓╫╪┘┌█▄▌▐▀αßΓπΣσµτΦΘΩδ∞φε∩≡±≥≤⌠⌡÷≈°∙·√ⁿ²■\u00a0"

/-- The character of a byte in the code page. -/
def codePageChar (b : UInt8) : Char :=
  if b < 128 then Char.ofNat b.toNat else upperHalf.getD (b.toNat - 128) ' '

/-- Reads a name. -/
def ofBytes (isUtf8 : Bool) (bytes : Bytes) : Text :=
  if isUtf8 then Text.ofUtf8Lossy bytes else bytes.map codePageChar

end PartName

end MailMerge
