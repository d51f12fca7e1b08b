import DirectiveMarkdown.Text.Basic

/-! HTML written in Markdown: tags, comments and the other forms that are passed through, and the
lines at which blocks of HTML start and end. Each reader gives the text after what it read. -/
namespace DirectiveMarkdown.Markdown

/-- The text after the first place where the given text stands. -/
def after? (mark : Text) : Text → Option Text
  | [] => none
  | c :: rest =>
    if mark.isPrefixOf (c :: rest) then some ((c :: rest).drop mark.length) else after? mark rest

def afterChar? (mark : Char) : Text → Option Text
  | [] => none
  | c :: rest => if c = mark then some rest else afterChar? mark rest

def startsAttributeName (c : Char) : Bool := c.isAlpha || c == '_' || c == ':'

def isAttributeNameChar (c : Char) : Bool :=
  c.isAlphanum || c == '_' || c == ':' || c == '.' || c == '-'

def isBareValueChar (c : Char) : Bool :=
  !(isAsciiBlank c || c == '"' || c == '\'' || c == '=' || c == '<' || c == '>' || c == '\x60')

def attributeValue? (s : Text) : Option Text :=
  match s with
  | '"' :: rest => afterChar? '"' rest
  | '\'' :: rest => afterChar? '\'' rest
  | c :: _ => if isBareValueChar c then some (s.dropWhile isBareValueChar) else none
  | [] => none

/-- An attribute after its name: a value if an equals sign follows. -/
def attributeRest? (s : Text) : Option Text :=
  match s.dropWhile isAsciiBlank with
  | '=' :: rest => attributeValue? (rest.dropWhile isAsciiBlank)
  | _ => some s

/-- The rest of an opening tag after its name, with at most `fuel` attributes. -/
def attributes? : Nat → Text → Option Text
  | 0, _ => none
  | fuel + 1, s =>
    let start := s.dropWhile isAsciiBlank
    match start with
    | '>' :: rest => some rest
    | '/' :: '>' :: rest => some rest
    | c :: rest =>
      if start.length < s.length ∧ startsAttributeName c then
        (attributeRest? (rest.dropWhile isAttributeNameChar)).bind (attributes? fuel)
      else none
    | [] => none

def isTagNameChar (c : Char) : Bool := c.isAlphanum || c == '-'

/-- An opening or closing tag after its `<`. -/
def tag? (s : Text) : Option Text :=
  match s with
  | '/' :: c :: rest =>
    if c.isAlpha then
      match (rest.dropWhile isTagNameChar).dropWhile isAsciiBlank with
      | '>' :: after => some after
      | _ => none
    else none
  | c :: rest =>
    if c.isAlpha then attributes? (s.length + 1) (rest.dropWhile isTagNameChar) else none
  | [] => none

def commentEnd? (s : Text) : Option Text :=
  match s with
  | '>' :: rest => some rest
  | '-' :: '>' :: rest => some rest
  | _ => after? (text "-->") s

def inlineHtml? (s : Text) : Option Text :=
  match s with
  | '!' :: '-' :: '-' :: rest => commentEnd? rest
  | '?' :: rest => after? (text "?>") rest
  | '!' :: c :: rest =>
    if c.isAlpha then afterChar? '>' rest
    else if (text "[CDATA[").isPrefixOf (c :: rest) then after? (text "]]>") rest
    else none
  | _ => tag? s

/-- Where a block of HTML ends: with the line that holds a mark, or before a blank line. -/
inductive HtmlEnd where
  | mark (mark : Text)
  | blankLine
deriving DecidableEq

/-- Tags whose block ends with the closing tag. -/
def verbatimTags : List (String × String) :=
  [("pre", "</pre>"), ("style", "</style>"), ("script", "</script>"), ("textarea", "</textarea>")]

/-- Tags that start a block of HTML wherever they stand at the start of a line. -/
def blockTags : List String :=
  ["address", "article", "aside", "base", "basefont", "blockquote", "body", "caption", "center",
   "col", "colgroup", "dd", "details", "dialog", "dir", "div", "dl", "dt", "fieldset", "figcaption",
   "figure", "footer", "form", "frame", "frameset", "h1", "h2", "h3", "h4", "h5", "h6", "head",
   "header", "hr", "html", "iframe", "legend", "li", "link", "main", "menu", "menuitem", "nav",
   "noframes", "ol", "optgroup", "option", "p", "param", "search", "section", "summary", "table",
   "tbody", "td", "tfoot", "th", "thead", "title", "tr", "track", "ul"]

/-- What may follow the name of a tag whose block ends with its closing tag. -/
def endsVerbatimName (s : Text) : Bool :=
  match s with
  | [] => true
  | c :: _ => isAsciiBlank c || c == '>'

def endsBlockName (s : Text) : Bool :=
  endsVerbatimName s || (text "/>").isPrefixOf s

/-- The name of the tag at the start of a text, in lower case, and the text after it. -/
def tagName (s : Text) : String × Text :=
  (String.ofList ((s.takeWhile Char.isAlphanum).map Char.toLower), s.dropWhile Char.isAlphanum)

/-- A line, after its `<`, starts a block of HTML that may interrupt a paragraph. -/
def htmlBlockStart? (s : Text) : Option HtmlEnd :=
  let (name, afterName) := tagName s
  match verbatimTags.lookup name with
  | some closing => if endsVerbatimName afterName then some (.mark closing.toList) else none
  | none =>
    match s with
    | '!' :: '-' :: '-' :: _ => some (.mark (text "-->"))
    | '?' :: _ => some (.mark (text "?>"))
    | '!' :: c :: rest =>
      if c.isAlpha then some (.mark ['>'])
      else if (text "[CDATA[").isPrefixOf (c :: rest) then some (.mark (text "]]>"))
      else none
    | _ =>
      let (name, afterName) := tagName (match s with
        | '/' :: rest => rest
        | _ => s)
      if blockTags.contains name && endsBlockName afterName then some .blankLine else none

/-- A line, after its `<`, is one tag and nothing else. Such a line starts a block of HTML, but does
not interrupt a paragraph. -/
def isTagLine (s : Text) : Bool :=
  match tag? s with
  | some rest => rest.all isInlineBlank
  | none => false

/-- The line is the last one of the block. -/
def HtmlEnd.reachedBy (ending : HtmlEnd) (line : Text) : Bool :=
  match ending with
  | .mark closing => (after? closing line).isSome
  | .blankLine => false

end DirectiveMarkdown.Markdown
