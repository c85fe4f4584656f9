import MailMerge.Text.Basic

/-!
# Markup as a tree

What stands inside an element is a sequence of character data, of asides such as comments, and of
elements with a content of their own. The text of such a tree is markup in which tags nest and match
by construction, since both tags of an element are written from its one name.

* `Content` is the type of trees, `Content.text` the markup of a tree;
* `Content.MadeOf` says what the pieces of a tree are made of;
* `Content.roots` is the number of its outermost elements;
* `Content.append` puts two trees one behind the other.
-/

namespace MailMerge

/-- The **label** of a tag: the name of its element, and what stands behind the name, with the
blanks before it. -/
structure Label where
  name : Text
  attributes : Text
  deriving DecidableEq, Repr

namespace Label

/-- The text of a label. -/
def text (label : Label) : Text := label.name ++ label.attributes

/-- The **start tag** of an element. -/
def startTag (label : Label) : Text := '<' :: (label.text ++ ['>'])

/-- The tag of an **empty element**. -/
def emptyTag (label : Label) : Text := '<' :: (label.text ++ ['/', '>'])

/-- The **end tag** of an element, with blanks behind the name. -/
def endTag (label : Label) (blanks : Text) : Text := '<' :: '/' :: (label.name ++ blanks ++ ['>'])

end Label

/-- The **content of an element**, each piece with what follows it. An element may have blanks in
its end tag, behind the name. -/
inductive Content where
  | nil
  | data (run : Text) (rest : Content)
  | aside (markup : Text) (rest : Content)
  | empty (label : Label) (rest : Content)
  | element (label : Label) (inside : Content) (blanks : Text) (rest : Content)
  deriving DecidableEq, Repr

/-- What the **pieces** of a tree may be: its runs of character data, its asides, the labels of its
empty elements and of its start tags, and the blanks behind a name in an end tag. -/
structure PieceKinds where
  data : Text → Prop
  aside : Text → Prop
  empty : Label → Prop
  start : Label → Prop
  blanks : Text → Text → Prop

namespace Content

/-- The **text** of a tree. -/
def text : Content → Text
  | nil => []
  | data run rest => run ++ rest.text
  | aside markup rest => markup ++ rest.text
  | empty label rest => label.emptyTag ++ rest.text
  | element label inside blanks rest =>
    label.startTag ++ (inside.text ++ (label.endTag blanks ++ rest.text))

/-- Whether all **pieces** of a tree are of the given kinds. -/
def MadeOf (kinds : PieceKinds) : Content → Prop
  | nil => True
  | data run rest => kinds.data run ∧ rest.MadeOf kinds
  | aside markup rest => kinds.aside markup ∧ rest.MadeOf kinds
  | empty label rest => kinds.empty label ∧ rest.MadeOf kinds
  | element label inside blanks rest =>
    kinds.start label ∧ inside.MadeOf kinds ∧ kinds.blanks label.name blanks ∧ rest.MadeOf kinds

/-- The number of **roots**, the elements that stand in no other. -/
def roots : Content → Nat
  | nil => 0
  | data _ rest => rest.roots
  | aside _ rest => rest.roots
  | empty _ rest => rest.roots + 1
  | element _ _ _ rest => rest.roots + 1

/-- Two trees **one behind the other**. -/
def append : Content → Content → Content
  | nil, u => u
  | data run rest, u => data run (rest.append u)
  | aside markup rest, u => aside markup (rest.append u)
  | empty label rest, u => empty label (rest.append u)
  | element label inside blanks rest, u => element label inside blanks (rest.append u)

variable {kinds : PieceKinds}

@[simp] theorem text_append (t u : Content) : (t.append u).text = t.text ++ u.text := by
  induction t with
  | nil => rfl
  | data run rest ih => simp [append, text, ih]
  | aside markup rest ih => simp [append, text, ih]
  | empty label rest ih => simp [append, text, ih]
  | element label inside blanks rest _ ih => simp [append, text, ih]

@[simp] theorem roots_append (t u : Content) : (t.append u).roots = t.roots + u.roots := by
  induction t with
  | nil => exact (Nat.zero_add _).symm
  | data run rest ih => exact ih
  | aside markup rest ih => exact ih
  | empty label rest ih => rw [append, roots, roots, ih, Nat.add_right_comm]
  | element label inside blanks rest _ ih => rw [append, roots, roots, ih, Nat.add_right_comm]

theorem MadeOf.append {t u : Content} (ht : t.MadeOf kinds) (hu : u.MadeOf kinds) :
    (t.append u).MadeOf kinds := by
  induction t with
  | nil => exact hu
  | data run rest ih => exact ⟨ht.1, ih ht.2⟩
  | aside markup rest ih => exact ⟨ht.1, ih ht.2⟩
  | empty label rest ih => exact ⟨ht.1, ih ht.2⟩
  | element label inside blanks rest _ ih => exact ⟨ht.1, ht.2.1, ht.2.2.1, ih ht.2.2.2⟩

end Content

end MailMerge
