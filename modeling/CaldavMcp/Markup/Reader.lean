/-
  A reader of XML 1.0 documents: elements, attributes, character data and references.

  Neither character data nor an attribute value holds a literal `<`, so every `<` opens a tag:
  a document is read segment by segment, each a tag and the character data behind it. The
  tokens so found are put together to a tree. Line ends are normalised, the five predefined
  entities and the numeric references are resolved. Comments, CDATA sections, processing
  instructions and document types are not read.
-/
import CaldavMcp.Text

namespace Markup

/-! ## Characters and names -/

/-- One of the ranges holds the character. -/
def within (ranges : List (Nat × Nat)) (c : Char) : Bool :=
  ranges.any fun (lo, hi) => lo ≤ c.toNat && c.toNat ≤ hi

/-- `Char`. -/
def isChar : Char → Bool :=
  within [(0x9, 0xa), (0xd, 0xd), (0x20, 0xd7ff), (0xe000, 0xfffd), (0x10000, 0x10ffff)]

/-- `NameStartChar`. -/
def isNameStart : Char → Bool :=
  within [(0x3a, 0x3a), (0x41, 0x5a), (0x5f, 0x5f), (0x61, 0x7a), (0xc0, 0xd6), (0xd8, 0xf6),
    (0xf8, 0x2ff), (0x370, 0x37d), (0x37f, 0x1fff), (0x200c, 0x200d), (0x2070, 0x218f),
    (0x2c00, 0x2fef), (0x3001, 0xd7ff), (0xf900, 0xfdcf), (0xfdf0, 0xfffd), (0x10000, 0xeffff)]

/-- `NameChar`. -/
def isNameChar (c : Char) : Bool :=
  isNameStart c ||
    within [(0x2d, 0x2e), (0x30, 0x39), (0xb7, 0xb7), (0x300, 0x36f), (0x203f, 0x2040)] c

/-- `Name`. -/
def isName : List Char → Bool
  | [] => false
  | c :: s => isNameStart c && s.all isNameChar

/-- White space, `S`. -/
def isSpace (c : Char) : Bool := c = ' ' || c = '\t' || c = '\r' || c = '\n'

/-- A name at the front. -/
def name? : List Char → Option (List Char × List Char)
  | [] => none
  | c :: s =>
    if isNameStart c then some (c :: s.takeWhile isNameChar, s.dropWhile isNameChar) else none

/-! ## Character data -/

/-- Line ends as a reader passes them on. -/
def normalise : List Char → List Char
  | [] => []
  | '\r' :: '\n' :: s => '\n' :: normalise s
  | c :: s => (if c = '\r' then '\n' else c) :: normalise s

/-- The value of a digit, lower or upper case. -/
def digit (c : Char) : Nat :=
  if '0' ≤ c ∧ c ≤ '9' then c.toNat - 48
  else if 'a' ≤ c ∧ c ≤ 'f' then c.toNat - 87
  else if 'A' ≤ c ∧ c ≤ 'F' then c.toNat - 55
  else 16

/-- The character with a number. -/
def numbered (base : Nat) (digits : List Char) : Option Char :=
  let n := digits.foldl (fun n c => n * base + digit c) 0
  if digits ≠ [] ∧ digits.all (fun c => digit c < base) ∧ n.isValidChar then
    some (Char.ofNat n)
  else none

/-- What a reference stands for. -/
def resolve (ref : List Char) : Option Char :=
  if ref = "lt".toList then some '<'
  else if ref = "gt".toList then some '>'
  else if ref = "amp".toList then some '&'
  else if ref = "apos".toList then some '\''
  else if ref = "quot".toList then some '"'
  else match ref with
    | '#' :: 'x' :: digits => numbered 16 digits
    | '#' :: digits => numbered 10 digits
    | _ => none

/-- Resolve the references of a text, `ref` being the reversed start of one. -/
def decodeFrom : (ref : Option (List Char)) → List Char → Option (List Char)
  | none, [] => some []
  | some _, [] => none
  | none, c :: s =>
    if c = '&' then decodeFrom (some []) s
    else if isChar c then (decodeFrom none s).map (c :: ·)
    else none
  | some ref, c :: s =>
    if c = ';' then
      match (resolve ref.reverse).filter isChar with
      | some d => (decodeFrom none s).map (d :: ·)
      | none => none
    else decodeFrom (some (c :: ref)) s

/-- The characters a run of character data stands for. -/
def charData? (s : List Char) : Option (List Char) :=
  if "]]>".toList <:+: s then none else decodeFrom none (normalise s)

/-! ## Tags -/

/-- The parts of a document. -/
inductive Token where
  | start (name : List Char) (attributes : List (List Char × List Char))
  | stop (name : List Char)
  | text (s : List Char)
  deriving DecidableEq, Repr

/-- The value of an attribute: white space reads as blanks. -/
def attributeValue? (s : List Char) : Option (List Char) :=
  decodeFrom none ((normalise s).map fun c => if isSpace c then ' ' else c)

/-- An attribute at the front. -/
def attribute? (s : List Char) : Option ((List Char × List Char) × List Char) := do
  let (name, s) ← name? s
  match s.dropWhile isSpace with
  | '=' :: s =>
    match s.dropWhile isSpace with
    | quote :: s =>
      if (quote = '"' ∨ quote = '\'') ∧ quote ∈ s then
        let value ← attributeValue? (s.takeWhile (· ≠ quote))
        some ((name, value), (s.dropWhile (· ≠ quote)).tail)
      else none
    | [] => none
  | _ => none

/-- At most `n` attributes, up to the end of the tag. -/
def attributesFrom : Nat → List Char → Option (List (List Char × List Char) × List Char)
  | 0, _ => none
  | n + 1, s =>
    match s.dropWhile isSpace with
    | [] => none
    | c :: s' =>
      if c = '>' ∨ c = '/' ∨ c = '?' then some ([], c :: s')
      else if (s.head?.map isSpace).getD false then do
        let (a, s) ← attribute? (c :: s')
        let (as, s) ← attributesFrom n s
        -- an attribute is given once
        if a.1 ∈ as.map Prod.fst then none else some (a :: as, s)
      else none

def attributes? (s : List Char) : Option (List (List Char × List Char) × List Char) :=
  attributesFrom (s.length + 1) s

/-- A tag, behind its `<`. -/
def tag? : List Char → Option (List Token × List Char)
  | '/' :: s => do
    let (name, s) ← name? s
    match s.dropWhile isSpace with
    | '>' :: s => some ([.stop name], s)
    | _ => none
  | s => do
    let (name, s) ← name? s
    let (attributes, s) ← attributes? s
    match s with
    | '>' :: s => some ([.start name attributes], s)
    | '/' :: '>' :: s => some ([.start name attributes, .stop name], s)
    | _ => none

/-- The token of a text; an empty text is none. -/
def textTokens (s : List Char) : List Token := if s = [] then [] else [.text s]

/-- A tag and the character data behind it. -/
def segment? (s : List Char) : Option (List Token) := do
  let (tokens, s) ← tag? s
  let text ← charData? s
  some (tokens ++ textTokens text)

/-- Several segments, in order. -/
def segments? : List (List Char) → Option (List Token)
  | [] => some []
  | s :: rest => do
    let tokens ← segment? s
    let more ← segments? rest
    some (tokens ++ more)

/-- The tokens of a text that begins with a tag. -/
def tokens? (s : List Char) : Option (List Token) :=
  match Text.splitAll '<' s with
  | [] :: segments => segments? segments
  | _ => none

/-! ## Trees -/

inductive Node where
  | text (s : List Char)
  | element (name : List Char) (attributes : List (List Char × List Char))
    (children : List Node)

mutual

/-- The tokens of a tree. -/
def Node.tokens : Node → List Token
  | .text s => [.text s]
  | .element name attributes children =>
    .start name attributes :: (tokensOf children ++ [.stop name])

def tokensOf : List Node → List Token
  | [] => []
  | node :: nodes => node.tokens ++ tokensOf nodes

end

/-- An open element and its children so far, the last first. -/
structure Open where
  name : List Char
  attributes : List (List Char × List Char)
  children : List Node

def Open.close (o : Open) : Node := .element o.name o.attributes o.children.reverse

/-- Add a child. -/
def Open.add (o : Open) (node : Node) : Open := { o with children := node :: o.children }

/-- The document element, from the elements that are open, innermost first. -/
def treeFrom : List Open → List Token → Option Node
  | _, [] => none
  | stack, .start name attributes :: rest => treeFrom (⟨name, attributes, []⟩ :: stack) rest
  | [], _ :: _ => none
  | o :: stack, .text s :: rest => treeFrom (o.add (.text s) :: stack) rest
  | [o], .stop name :: rest => if o.name = name ∧ rest = [] then some o.close else none
  | o :: p :: stack, .stop name :: rest =>
    if o.name = name then treeFrom (p.add o.close :: stack) rest else none

/-- What follows the XML declaration, if there is one. -/
def afterDeclaration? (s : List Char) : Option (List Char) :=
  match Text.stripPrefix? "<?xml".toList s with
  | none => some s
  | some s =>
    match attributes? s with
    | some (attributes, '?' :: '>' :: s) =>
      if attributes = [("version".toList, "1.0".toList)] ∨
        attributes = [("version".toList, "1.0".toList), ("encoding".toList, "utf-8".toList)]
      then some s else none
    | _ => none

/-- Read a document. -/
def read (s : List Char) : Option Node := do
  let s ← afterDeclaration? s
  let tokens ← tokens? s
  treeFrom [] tokens

/-! ## The tree is determined by the tokens -/

section

variable {o : Open} {stack : List Open}

theorem tokensOf_append (nodes nodes' : List Node) :
    tokensOf (nodes ++ nodes') = tokensOf nodes ++ tokensOf nodes' := by
  induction nodes with
  | nil => rfl
  | cons node nodes ih =>
    rw [List.cons_append, tokensOf, tokensOf, ih, List.append_assoc]

mutual

theorem treeFrom_node (node : Node) (o : Open) (stack : List Open) (rest : List Token) :
    treeFrom (o :: stack) (node.tokens ++ rest) = treeFrom (o.add node :: stack) rest := by
  cases node with
  | text s => rw [Node.tokens, List.singleton_append, treeFrom]
  | element name attributes children =>
    rw [Node.tokens, List.cons_append, List.append_assoc, List.singleton_append, treeFrom,
      treeFrom_nodes children, treeFrom, if_pos rfl]
    unfold Open.close
    rw [List.append_nil, List.reverse_reverse]

theorem treeFrom_nodes (nodes : List Node) (o : Open) (stack : List Open) (rest : List Token) :
    treeFrom (o :: stack) (tokensOf nodes ++ rest) =
      treeFrom ({ o with children := nodes.reverse ++ o.children } :: stack) rest := by
  cases nodes with
  | nil => rw [tokensOf, List.nil_append, List.reverse_nil, List.nil_append]
  | cons node nodes =>
    rw [tokensOf, List.append_assoc, treeFrom_node node, treeFrom_nodes nodes]
    unfold Open.add
    rw [List.reverse_cons, List.append_assoc, List.singleton_append]

end

/-- The tokens read before the open elements were reached. -/
def openTokens : List Open → List Token
  | [] => []
  | o :: stack =>
    openTokens stack ++ .start o.name o.attributes :: tokensOf o.children.reverse

theorem openTokens_add (node : Node) :
    openTokens (o.add node :: stack) = openTokens (o :: stack) ++ node.tokens := by
  unfold openTokens Open.add
  rw [List.reverse_cons, tokensOf_append, tokensOf, tokensOf, List.append_nil,
    List.append_assoc, List.cons_append]

theorem openTokens_close : openTokens stack ++ o.close.tokens =
    openTokens (o :: stack) ++ [.stop o.name] := by
  unfold Open.close
  rw [openTokens, Node.tokens, List.append_assoc, List.cons_append]

/-- Whatever tree is found, its tokens are those that were read. -/
theorem tokens_of_treeFrom {tokens : List Token} {node : Node}
    (h : treeFrom stack tokens = some node) : openTokens stack ++ tokens = node.tokens := by
  induction tokens generalizing stack with
  | nil => simp [treeFrom] at h
  | cons token tokens ih =>
    cases token with
    | start name attributes =>
      rw [treeFrom] at h
      rw [← ih h, openTokens, List.reverse_nil, tokensOf, List.append_assoc,
        List.singleton_append]
    | text s =>
      match stack with
      | [] => simp [treeFrom] at h
      | o :: stack =>
        rw [treeFrom] at h
        rw [← ih h, openTokens_add, Node.tokens, List.append_assoc, List.singleton_append]
    | stop name =>
      match stack with
      | [] => simp [treeFrom] at h
      | [o] =>
        rw [treeFrom] at h
        obtain ⟨⟨rfl, rfl⟩, hnode⟩ := Option.ite_none_right_eq_some.mp h
        rw [← Option.some.inj hnode, ← openTokens_close, openTokens, List.nil_append]
      | o :: p :: stack =>
        rw [treeFrom] at h
        obtain ⟨rfl, hnode⟩ := Option.ite_none_right_eq_some.mp h
        rw [← ih hnode, openTokens_add, openTokens_close, List.append_assoc,
          List.singleton_append]

/-- **A tree is read exactly from its tokens.** -/
theorem treeFrom_eq_some {tokens : List Token} {name : List Char}
    {attributes : List (List Char × List Char)} {children : List Node} :
    treeFrom [] tokens = some (.element name attributes children) ↔
      tokens = (Node.element name attributes children).tokens := by
  constructor
  · exact fun h => tokens_of_treeFrom h
  · rintro rfl
    rw [Node.tokens, treeFrom, treeFrom_nodes, treeFrom, if_pos ⟨rfl, rfl⟩]
    unfold Open.close
    rw [List.append_nil, List.reverse_reverse]

end

end Markup
