import Showcase.Text.Blank
import Showcase.Text.Case

/-!
# Raw HTML

Which pieces of a page are HTML that its author wrote. Two questions are answered:

* inside a paragraph: how far does the tag, comment, instruction, declaration or marked section
  reach that begins here (`RawHtml.after?`);
* at the beginning of a line: does a block of HTML begin here, of which kind, and is a line its last
  one (`Opening`, `opening?`, `Opening.isEnd`).

A tag is recognised by an automaton that reads one character at a time. It holds every state that it
may be in, since white space of other scripts both belongs to an unquoted value and ends it.
-/

namespace Showcase.RawHtml

/-! ## Tags -/

/-- Where in a tag the automaton is. -/
inductive TagState
  /-- in the name of an opening tag -/
  | name
  /-- in white space that an attribute may follow -/
  | gap
  /-- in the name of an attribute -/
  | attribute
  /-- in white space after the name of an attribute -/
  | attributeGap
  /-- after an equals sign -/
  | equals
  /-- in a value without quotes -/
  | bare
  /-- in a value between the given quotes -/
  | quoted (quote : Char)
  /-- after a quoted value -/
  | afterQuoted
  /-- after the slash of a tag that closes itself -/
  | slash
  /-- in the name of a closing tag -/
  | closingName
  /-- in white space after the name of a closing tag -/
  | closingGap
  /-- after the end of the tag -/
  | done
  deriving DecidableEq

/-- A character of the name of an element. -/
def isNameChar (c : Char) : Bool := Text.isLetter c || Text.isDigit c || c == '-'

/-- A first character of the name of an attribute. -/
def isAttributeStart (c : Char) : Bool := Text.isLetter c || c == '_' || c == ':'

/-- A character of the name of an attribute. -/
def isAttributeChar (c : Char) : Bool :=
  isAttributeStart c || Text.isDigit c || c == '.' || c == '-'

/-- A character of a value without quotes. -/
def isBareChar (c : Char) : Bool :=
  32 < c.toNat && !("\"'=<>\x60".toList.contains c)

/-- What may follow once the last attribute, or the name, is complete. -/
def atEnd (c : Char) : List TagState :=
  if c = '>' then [.done] else if c = '/' then [.slash] else []

/-- The states after one more character. -/
def TagState.next (c : Char) : TagState → List TagState
  | .name => if isNameChar c then [.name] else if Text.isBlank c then [.gap] else atEnd c
  | .gap =>
    if Text.isBlank c then [.gap] else if isAttributeStart c then [.attribute] else atEnd c
  | .attribute =>
    if isAttributeChar c then [.attribute]
    else if c = '=' then [.equals]
    else if Text.isBlank c then [.attributeGap]
    else atEnd c
  | .attributeGap =>
    if Text.isBlank c then [.attributeGap]
    else if c = '=' then [.equals]
    else if isAttributeStart c then [.attribute]
    else atEnd c
  | .equals =>
    (if Text.isBlank c then [.equals] else if c = '"' ∨ c = '\'' then [.quoted c] else [])
      ++ (if isBareChar c then [.bare] else [])
  | .bare =>
    (if isBareChar c then [.bare] else [])
      ++ (if Text.isBlank c then [.gap] else atEnd c)
  | .quoted q => if c = q then [.afterQuoted] else [.quoted q]
  | .afterQuoted => if Text.isBlank c then [.gap] else atEnd c
  | .slash => if c = '>' then [.done] else []
  | .closingName =>
    if isNameChar c then [.closingName]
    else if Text.isBlank c then [.closingGap]
    else if c = '>' then [.done]
    else []
  | .closingGap => if Text.isBlank c then [.closingGap] else if c = '>' then [.done] else []
  | .done => []

/-- What follows the tag, from any of the given states. -/
def runTag : List TagState → Text → Option Text
  | _, [] => none
  | states, c :: t =>
    let states := (states.flatMap (TagState.next c)).eraseDups
    if states.contains .done then some t
    else if states.isEmpty then none
    else runTag states t

/-- What follows the tag at the beginning of the text. -/
def afterTag? : Text → Option Text
  | '<' :: '/' :: c :: t => if Text.isLetter c then runTag [.closingName] t else none
  | '<' :: c :: t => if Text.isLetter c then runTag [.name] t else none
  | _ => none

/-! ## Comments and declarations -/

/-- What follows the first occurrence of a piece. -/
def afterFirst? (p t : Text) : Option Text := (Text.cut? p t).map (·.2)

/-- What follows the end of a comment. A hyphen is read together with the character after it, and
two hyphens with the character after both unless they end the comment; the next `k` characters are
already read. -/
def runComment : (k : Nat) → Text → Option Text
  | _, [] => none
  | k + 1, _ :: t => runComment k t
  | 0, c :: t =>
    if c = '-' then
      match t with
      | '-' :: '>' :: r => some r
      | '-' :: _ :: _ => runComment 2 t
      | _ :: _ => runComment 1 t
      | [] => none
    else runComment 0 t

/-- What follows the comment at the beginning of the text. -/
def afterComment? (t : Text) : Option Text := do
  let r ← Text.after? "<!--".toList t
  match r with
  | '>' :: r => return r
  | '-' :: '>' :: r => return r
  | _ => runComment 0 r

/-- What follows the processing instruction at the beginning of the text. -/
def afterInstruction? (t : Text) : Option Text := do
  afterFirst? ['?', '>'] (← Text.after? ['<', '?'] t)

/-- What follows the declaration at the beginning of the text. -/
def afterDeclaration? : Text → Option Text
  | '<' :: '!' :: c :: t => if Text.isLetter c then afterFirst? ['>'] t else none
  | _ => none

/-- What follows the marked section at the beginning of the text. -/
def afterSection? (t : Text) : Option Text := do
  afterFirst? "]]>".toList (← Text.after? "<![CDATA[".toList t)

/-- What follows the piece of HTML at the beginning of the text. -/
def after? (t : Text) : Option Text :=
  afterTag? t <|> afterComment? t <|> afterInstruction? t <|> afterDeclaration? t
    <|> afterSection? t

/-! ## Blocks -/

/-- The kinds of blocks, by how they begin. -/
inductive Opening
  /-- with an element whose content is no markup -/
  | verbatim
  | comment
  | instruction
  | declaration
  | marked
  /-- with a tag of an element that divides a page -/
  | division
  /-- with a complete tag of any other element, alone on its line -/
  | tag
  deriving DecidableEq

/-- Elements whose content is no markup. -/
def verbatimNames : List Text :=
  ["script".toList, "pre".toList, "style".toList, "textarea".toList]

/-- Elements that divide a page. -/
def divisionNames : List Text :=
  ["address", "article", "aside", "base", "basefont", "blockquote", "body", "caption", "center",
   "col", "colgroup", "dd", "details", "dialog", "dir", "div", "dl", "dt", "fieldset",
   "figcaption", "figure", "footer", "form", "frame", "frameset", "h1", "h2", "h3", "h4", "h5",
   "h6", "head", "header", "hr", "html", "iframe", "legend", "li", "link", "main", "menu",
   "menuitem", "nav", "noframes", "ol", "optgroup", "option", "p", "param", "search", "section",
   "summary", "table", "tbody", "td", "tfoot", "th", "thead", "title", "tr", "track",
   "ul"].map String.toList

/-- The text begins with one of the names, in any letter case, and the name is complete: what
follows it passes the test. -/
def beginsWithName (names : List Text) (complete : Text → Bool) (t : Text) : Bool :=
  names.any fun n => match Text.afterFold? n t with
    | some r => complete r
    | none => false

/-- The end, white space or `>` stand here. -/
def endsName : Text → Bool
  | [] => true
  | c :: _ => Text.isBlank c || c == '>'

/-- The end, white space, `>` or `/>` stand here. -/
def endsTagName : Text → Bool
  | '/' :: '>' :: _ => true
  | t => endsName t

/-- A verbatim element begins here. -/
def beginsVerbatim : Text → Bool
  | '<' :: t => beginsWithName verbatimNames endsName t
  | _ => false

/-- A tag of a dividing element begins here. -/
def beginsDivision : Text → Bool
  | '<' :: '/' :: t => beginsWithName divisionNames endsTagName t
  | '<' :: t => beginsWithName divisionNames endsTagName t
  | _ => false

/-- A declaration with a capital letter begins here. -/
def beginsDeclaration : Text → Bool
  | '<' :: '!' :: c :: _ => 'A' ≤ c && c ≤ 'Z'
  | _ => false

/-- The line has a complete tag and nothing else. -/
def isLoneTag (t : Text) : Bool :=
  match afterTag? t with
  | some r => Text.isBlankText r
  | none => false

/-- The kind of block that begins with the line. -/
def opening? (line : Text) : Option Opening :=
  if beginsVerbatim line then some .verbatim
  else if Text.startsWith line "<!--".toList then some .comment
  else if Text.startsWith line "<?".toList then some .instruction
  else if beginsDeclaration line then some .declaration
  else if Text.startsWith line "<![CDATA[".toList then some .marked
  else if beginsDivision line then some .division
  else if isLoneTag line then some .tag
  else none

/-- The closing tag of a verbatim element stands here. -/
def closesVerbatim : Text → Bool
  | '<' :: '/' :: t => beginsWithName verbatimNames (fun r => Text.startsWith r ['>']) t
  | _ => false

/-- The closing tag of a verbatim element stands somewhere in the line. -/
def hasVerbatimEnd : Text → Bool
  | [] => false
  | c :: t => closesVerbatim (c :: t) || hasVerbatimEnd t

/-- The line is the last one of its block; a block that ends before an empty line has it as its
last. -/
def Opening.isEnd (line : Text) : Opening → Bool
  | .verbatim => hasVerbatimEnd line
  | .comment => Text.has line "-->".toList
  | .instruction => Text.has line "?>".toList
  | .declaration => Text.has line ['>']
  | .marked => Text.has line "]]>".toList
  | .division => line.isEmpty
  | .tag => line.isEmpty

/-- The block can end a paragraph. -/
def Opening.interrupts : Opening → Bool
  | .tag => false
  | _ => true

end Showcase.RawHtml
