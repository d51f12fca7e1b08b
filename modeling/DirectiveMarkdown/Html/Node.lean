import DirectiveMarkdown.TextMap

/-! The tree of an HTML document. -/
namespace DirectiveMarkdown

/-- A node of an HTML tree. Text is escaped where it is written, raw markup is not. A root is a
sequence of nodes without an element around them. -/
inductive HtmlNode where
  | root (children : List HtmlNode)
  | element (tag : Text) (properties : TextMap) (children : List HtmlNode)
  | text (value : Text)
  | raw (value : Text)

instance : Inhabited HtmlNode := ⟨.root []⟩

/-- Names that an element may have: an ASCII letter, then ASCII letters, digits and hyphens. -/
def isTagName (name : Text) : Bool :=
  (name.head?.map Char.isAlpha).getD false && name.all fun c => c.isAlphanum || c == '-'

end DirectiveMarkdown
