import ContractNet.Xml.Name

/-!
# XML elements and how they are written

An element has a name, attributes and content.  `Node.render` writes it with two spaces of
indentation for each level: an element with elements in it takes several lines, one with a text
or nothing takes one.

Five characters and the three control characters of lines are written as references, in
attributes and in texts; characters that no document may hold, and stray bytes, become U+FFFD.
-/

namespace ContractNet.Xml

/-- A text or an element of a document; names are without prefix. -/
inductive Node where
  | text (t : Text)
  | element (name : Text) (attributes : List (Text × Text)) (content : List Node)

/-- A character of a text or an attribute. -/
def escapeChar (c : Char) : Text :=
  if c = '"' then "&#34;"
  else if c.toNat = 0x27 then "&#39;"
  else if c = '&' then "&amp;"
  else if c = '<' then "&lt;"
  else if c = '>' then "&gt;"
  else if c = '\t' then "&#x9;"
  else if c = '\n' then "&#xA;"
  else if c = '\r' then "&#xD;"
  else if isAllowed c then Text.ofChar c
  else Text.ofChar '\uFFFD'

/-- A text or attribute value as it stands in a document. -/
def escape (t : Text) : Text := t.chars.flatMap escapeChar

/-- U+FFFD in place of what no document may hold: what is left of a text after it was written and
read. -/
def representable (t : Text) : Text :=
  Text.ofChars (t.chars.map fun c => if isAllowed c then c else '\uFFFD')

/-- An attribute with the space before it. -/
def renderAttribute : Text × Text → Text
  | (name, value) => " " ++ name ++ "=\"" ++ escape value ++ "\""

/-- A new line with two spaces for each level. -/
def newLine (level : Nat) : Text := "\n" ++ List.replicate (2 * level) ' '.toUInt8

/-- The node is an element. -/
def Node.isElement : Node → Bool
  | text _ => false
  | element .. => true

mutual

/-- A node that stands `level` levels deep. -/
def Node.renderAt (level : Nat) : Node → Text
  | .text t => escape t
  | .element name attributes content =>
    "<" ++ name ++ attributes.flatMap renderAttribute ++ ">" ++ renderContent (level + 1) content ++
      (if content.any Node.isElement then newLine level else []) ++ "</" ++ name ++ ">"

/-- The content of an element: elements on lines of their own, texts as they are. -/
def renderContent (level : Nat) : List Node → Text
  | [] => []
  | .text t :: ns => escape t ++ renderContent level ns
  | n :: ns => newLine level ++ Node.renderAt level n ++ renderContent level ns

end

/-- The declaration that a document starts with. -/
def header : Text := "<?xml version=\"1.0\" encoding=\"UTF-8\"?>\n"

end ContractNet.Xml
