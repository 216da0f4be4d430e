/-
  Multistatus documents read back.

  A document is well formed and faithful when `Markup.read` finds in it the tree that was
  meant: for every response its href, for every property its value. What is meant is said here
  once more, property by property, as trees (`Property`); the texts of the source's property
  builders are what these trees are written as (`Meant.multistatus`).

  The builders escape most of the data but write some of it as it stands: the username and the
  email of the principal, and the id of a calendar. So a document is read back exactly when
  these have no markup of their own, and all data consist of XML characters
  (`faithful_iff`). An id with an ampersand, which MKCALENDAR accepts, breaks every PROPFIND
  of that calendar (`ampersand_garbled`).
-/
import CaldavMcp.Markup.Writer
import CaldavMcp.Caldav.Hrefs

namespace CaldavMcp

open Program
open Markup (Piece Node Plain isChar isName isNameChar isInert)

/-! ## Strings put together -/

/-- Literals and data in turn, and a last literal. -/
def composedText : List (String × String) → String → String
  | [], last => last
  | (literal, data) :: parts, last => literal ++ data ++ composedText parts last

/-- A string put together from literals without markup and from data, no two data side by
    side. -/
structure Composed where
  parts : List (String × String)
  last : String
  literals : ∀ part ∈ parts, part.1.toList.all isInert = true
  between : ∀ part ∈ parts.tail, part.1 ≠ ""
  ending : last.toList.all isInert = true

namespace Composed

def text (c : Composed) : String := composedText c.parts c.last

/-- No data. -/
def fixed (last : String) (h : last.toList.all isInert = true) : Composed :=
  ⟨[], last, nofun, nofun, h⟩

/-- One datum. -/
def single (literal data last : String)
    (h : literal.toList.all isInert = true ∧ last.toList.all isInert = true) : Composed :=
  ⟨[(literal, data)], last, by simpa using h.1, nofun, h.2⟩

/-- Two data. -/
def double (literal data literal' data' last : String)
    (h : literal.toList.all isInert = true ∧ literal'.toList.all isInert = true ∧
      literal' ≠ "" ∧ last.toList.all isInert = true) : Composed :=
  ⟨[(literal, data), (literal', data')], last,
    List.forall_mem_cons.mpr ⟨h.1, List.forall_mem_cons.mpr ⟨h.2.1, nofun⟩⟩,
    by simpa using h.2.2.1, h.2.2.2⟩

/-- Three data. -/
def triple (literal data literal' data' literal'' data'' last : String)
    (h : literal.toList.all isInert = true ∧
      (literal'.toList.all isInert = true ∧ literal' ≠ "") ∧
      (literal''.toList.all isInert = true ∧ literal'' ≠ "") ∧
      last.toList.all isInert = true) : Composed :=
  ⟨[(literal, data), (literal', data'), (literal'', data'')], last,
    List.forall_mem_cons.mpr ⟨h.1, List.forall_mem_cons.mpr ⟨h.2.1.1,
      List.forall_mem_cons.mpr ⟨h.2.2.1.1, nofun⟩⟩⟩,
    List.forall_mem_cons.mpr ⟨h.2.1.2, List.forall_mem_cons.mpr ⟨h.2.2.1.2, nofun⟩⟩, h.2.2.2⟩

theorem double_text {literal data literal' data' last : String} (h) :
    (double literal data literal' data' last h).text =
      literal ++ data ++ literal' ++ data' ++ last := by
  simp only [text, double, composedText, String.append_assoc]

theorem triple_text {literal data literal' data' literal'' data'' last : String} (h) :
    (triple literal data literal' data' literal'' data'' last h).text =
      literal ++ data ++ literal' ++ data' ++ literal'' ++ data'' ++ last := by
  simp only [text, triple, composedText, String.append_assoc]

/-- All data consist of XML characters. -/
def Chars (c : Composed) : Prop := ∀ part ∈ c.parts, ∀ d ∈ part.2.toList, isChar d = true

/-- All data can be written as they stand. -/
def Raw (c : Composed) : Prop := ∀ part ∈ c.parts, Plain part.2.toList

end Composed

theorem chars_of_inert {s : List Char} (h : s.all isInert = true) : ∀ c ∈ s, isChar c = true := by
  rw [List.all_eq_true] at h
  intro c hc
  have := h c hc
  simp only [isInert, Bool.and_eq_true] at this
  exact this.1.1.1.1

theorem Composed.chars_iff (c : Composed) :
    (∀ d ∈ c.text.toList, isChar d = true) ↔ c.Chars := by
  obtain ⟨parts, last, hliterals, hbetween, hending⟩ := c
  unfold Composed.text Composed.Chars
  dsimp only
  clear hbetween
  induction parts with
  | nil => exact iff_of_true (chars_of_inert hending) nofun
  | cons part parts ih =>
    rw [List.forall_mem_cons] at hliterals
    rw [composedText, String.toList_append, String.toList_append, List.forall_mem_append,
      List.forall_mem_append, ih hliterals.2, List.forall_mem_cons]
    exact and_congr_left' (and_iff_right (chars_of_inert hliterals.1))

/-- A string is plain when its data are. -/
theorem Composed.plain_iff (c : Composed) : Plain c.text.toList ↔ c.Raw := by
  obtain ⟨parts, last, hliterals, hbetween, hending⟩ := c
  unfold Composed.text Composed.Raw
  dsimp only
  induction parts with
  | nil => exact iff_of_true (Markup.plain_of_inert hending) nofun
  | cons part parts ih =>
    rw [List.forall_mem_cons] at hliterals
    have hrest := ih hliterals.2 fun p hp => hbetween p (List.mem_of_mem_tail hp)
    have hhead : ∀ d ∈ (composedText parts last).toList.head?, isInert d = true := by
      intro d hd
      cases parts with
      | nil => exact List.all_eq_true.mp hending d (List.mem_of_mem_head? hd)
      | cons part' parts =>
        have hne : part'.1.toList ≠ [] := by
          have := hbetween part' List.mem_cons_self
          rwa [ne_eq, String.toList_eq_nil_iff]
        rw [composedText, String.append_assoc, String.toList_append,
          List.head?_append_of_ne_nil _ hne] at hd
        exact List.all_eq_true.mp (hliterals.2 part' List.mem_cons_self) d
          (List.mem_of_mem_head? hd)
    rw [composedText, String.append_assoc, String.toList_append,
      Markup.plain_append_left hliterals.1, String.toList_append, Markup.plain_append hhead,
      hrest, List.forall_mem_cons]

/-! ## Properties -/

/-- A tag inside of other tags. -/
structure Chain where
  around : List String
  name : String
  attributes : List (String × String)
  deriving DecidableEq

namespace Chain

def attributeList (c : Chain) : List (List Char × List Char) :=
  c.attributes.map fun (key, value) => (key.toList, value.toList)

def node (c : Chain) : Node :=
  c.around.foldr (fun name node => .element name.toList [] [node])
    (.element c.name.toList c.attributeList [])

def pieces (c : Chain) : List Piece :=
  c.around.map (fun name => .start name.toList []) ++
    .empty c.name.toList c.attributeList :: c.around.reverse.map fun name => .stop name.toList

/-- Its names are names, and its attributes can be written. -/
structure Named (c : Chain) : Prop where
  around : ∀ name ∈ c.around, isName name.toList = true
  name : isName c.name.toList = true
  attributes : Markup.PlainAttributes c.attributeList

/-- Whether its names are names and its attributes can be written. -/
def named (c : Chain) : Bool :=
  c.around.all (fun name => isName name.toList) && isName c.name.toList &&
    c.attributeList.all (fun a => isName a.1 && a.2.all Markup.isValueChar) &&
    decide (c.attributeList.map Prod.fst).Nodup

theorem named_iff (c : Chain) : c.named = true ↔ c.Named := by
  simp only [named, Bool.and_eq_true, List.all_eq_true, decide_eq_true_eq]
  constructor
  · rintro ⟨⟨⟨haround, hname⟩, hattributes⟩, honce⟩
    exact ⟨haround, hname, ⟨fun a ha => (hattributes a ha).1,
      fun a ha => List.all_eq_true.mpr (hattributes a ha).2, honce⟩⟩
  · rintro ⟨haround, hname, ⟨hnames, hvalues, honce⟩⟩
    exact ⟨⟨⟨haround, hname⟩,
      fun a ha => ⟨hnames a ha, List.all_eq_true.mp (hvalues a ha)⟩⟩, honce⟩

theorem node_tokens (c : Chain) : c.node.tokens = c.pieces.flatMap Piece.tokens := by
  obtain ⟨around, name, attributes⟩ := c
  unfold node pieces attributeList
  dsimp only
  induction around with
  | nil => rfl
  | cons outer around ih =>
    rw [List.foldr_cons, Node.tokens, Markup.tokensOf, Markup.tokensOf, List.append_nil, ih]
    simp [Piece.tokens, List.flatMap_append]

end Chain

/-- The value of a property. -/
inductive Content where
  /-- A text, escaped. -/
  | text (c : Composed)
  /-- A text inside of an element, all written as it stands. -/
  | raw (element : String) (c : Composed)
  | tags (chains : List Chain)
  | empty

/-- A property and its value. -/
structure Property where
  ns : String
  name : String
  content : Content

namespace Property

def label (p : Property) : List Char := (prefixName p.ns p.name).toList

/-- The property as the source's builders make it. -/
def value (p : Property) : PropValue :=
  ⟨p.name, p.ns, match p.content with
    | .text c => .text c.text
    | .raw element c => .xml ("<" ++ element ++ ">" ++ c.text ++ ("</" ++ element ++ ">"))
    | .tags chains => .xml (String.ofList (Markup.write (chains.flatMap Chain.pieces)))
    | .empty => .empty⟩

def pieces (p : Property) : List Piece :=
  match p.content with
  | .text c => [.text p.label c.text.toList]
  | .raw element c =>
    [.start p.label [], .raw element.toList c.text.toList, .stop p.label]
  | .tags chains => .start p.label [] :: (chains.flatMap Chain.pieces ++ [.stop p.label])
  | .empty => [.empty p.label []]

/-- What is meant by it. -/
def node (p : Property) : Node :=
  match p.content with
  | .text c => Markup.leaf p.label c.text.toList
  | .raw element c => .element p.label [] [Markup.leaf element.toList c.text.toList]
  | .tags chains => .element p.label [] (chains.map Chain.node)
  | .empty => .element p.label [] []

/-- Its literal names are names. -/
def Named (p : Property) : Prop :=
  isName p.label = true ∧
    match p.content with
    | .raw element _ => isName element.toList = true
    | .tags chains => ∀ c ∈ chains, c.Named
    | _ => True

/-- Whether its literal names are names. -/
def named (p : Property) : Bool :=
  isName p.label &&
    match p.content with
    | .raw element _ => isName element.toList
    | .tags chains => chains.all Chain.named
    | _ => true

theorem named_iff (p : Property) : p.named = true ↔ p.Named := by
  obtain ⟨ns, name, content⟩ := p
  unfold named Named
  rw [Bool.and_eq_true]
  cases content with
  | text c | empty => exact and_congr_right fun _ => iff_of_true rfl trivial
  | raw element c => exact Iff.rfl
  | tags chains =>
    refine and_congr_right fun _ => List.all_eq_true.trans ?_
    exact forall₂_congr fun c _ => c.named_iff

/-- Its data can be written the way they are. -/
def Safe (p : Property) : Prop :=
  match p.content with
  | .text c => c.Chars
  | .raw _ c => c.Raw
  | _ => True

end Property

/-! ### How they are written -/

theorem write_cons (p : Piece) (pieces : List Piece) :
    Markup.write (p :: pieces) = '<' :: (p.body ++ Markup.write pieces) := rfl

theorem write_append (a b : List Piece) :
    Markup.write (a ++ b) = Markup.write a ++ Markup.write b := List.flatMap_append

theorem write_nil : Markup.write [] = [] := rfl

theorem escapeText_toList (s : String) : (escapeText s).toList = Markup.escape s.toList :=
  String.toList_ofList

theorem toList_lt : "<".toList = ['<'] := rfl

theorem toList_gt : ">".toList = ['>'] := rfl

theorem toList_stop : "</".toList = ['<', '/'] := rfl

theorem toList_empty : "/>".toList = ['/', '>'] := rfl

theorem textElement_toList (name text : String) : (textElement name text).toList =
    Markup.write [.text name.toList text.toList] := by
  rw [write_cons, write_nil, List.append_nil, Piece.body, Markup.leafText]
  simp only [textElement, String.toList_append, escapeText_toList, toList_lt, toList_gt,
    toList_stop, List.append_assoc, List.cons_append, List.nil_append]

theorem around_toList (name xml : String) :
    ("<" ++ name ++ ">" ++ xml ++ "</" ++ name ++ ">").toList =
      Markup.write [.start name.toList []] ++ xml.toList ++ Markup.write [.stop name.toList] := by
  rw [write_cons, write_nil, List.append_nil, write_cons, write_nil, List.append_nil,
    Piece.body, Piece.body, Markup.attributesText, List.flatMap_nil, List.append_nil]
  simp only [String.toList_append, toList_lt, toList_gt, toList_stop, List.append_assoc,
    List.cons_append, List.nil_append]

theorem empty_toList (name : String) : ("<" ++ name ++ "/>").toList =
    Markup.write [.empty name.toList []] := by
  rw [write_cons, write_nil, List.append_nil, Piece.body]
  simp [String.toList_append, toList_lt, toList_empty, Markup.attributesText]

theorem raw_toList (name text : String) :
    ("<" ++ name ++ ">" ++ text ++ ("</" ++ name ++ ">")).toList =
      Markup.write [.raw name.toList text.toList] := by
  rw [write_cons, write_nil, List.append_nil, Piece.body, Markup.leafText]
  simp only [String.toList_append, toList_lt, toList_gt, toList_stop, List.append_assoc,
    List.cons_append, List.nil_append]

theorem Property.render_eq (p : Property) : p.value.render.toList = Markup.write p.pieces := by
  obtain ⟨ns, name, content⟩ := p
  cases content with
  | text c => exact textElement_toList _ _
  | empty => exact empty_toList _
  | raw element c =>
    unfold PropValue.render Property.value Property.pieces Property.label
    dsimp only
    rw [around_toList, raw_toList, ← write_append, ← write_append]
    rfl
  | tags chains =>
    unfold PropValue.render Property.value Property.pieces Property.label
    dsimp only
    rw [around_toList, String.toList_ofList, ← write_append, ← write_append]
    rfl

theorem Property.node_tokens (p : Property) :
    p.node.tokens = p.pieces.flatMap Piece.tokens := by
  obtain ⟨ns, name, content⟩ := p
  cases content with
  | text c => exact (Markup.leaf_tokens _ _).trans (List.append_nil _).symm
  | empty => rfl
  | raw element c =>
    unfold Property.node Property.pieces
    dsimp only
    rw [Node.tokens, Markup.tokensOf, Markup.tokensOf, Markup.leaf_tokens, List.append_nil]
    simp [Piece.tokens]
  | tags chains =>
    have hchains : Markup.tokensOf (chains.map Chain.node) =
        (chains.flatMap Chain.pieces).flatMap Piece.tokens := by
      induction chains with
      | nil => rfl
      | cons c chains ih =>
        rw [List.map_cons, Markup.tokensOf, c.node_tokens, ih, List.flatMap_cons,
          List.flatMap_append]
    unfold Property.node Property.pieces
    dsimp only
    rw [Node.tokens, hchains, List.flatMap_cons, List.flatMap_append]
    rfl

/-- The tags of a chain are good. -/
theorem Chain.Named.pieces {c : Chain} (h : c.Named) :
    ∀ p ∈ c.pieces, p.Good ∧ Markup.PlainAttributes p.attributes := by
  unfold Chain.pieces
  intro p hp
  rcases List.mem_append.mp hp with hp | hp
  · obtain ⟨name, hname, rfl⟩ := List.mem_map.mp hp
    exact ⟨h.around name hname, Markup.plainAttributes_nil⟩
  · rcases List.mem_cons.mp hp with rfl | hp
    · exact ⟨h.name, h.attributes⟩
    · obtain ⟨name, hname, rfl⟩ := List.mem_map.mp hp
      exact ⟨h.around name (List.mem_reverse.mp hname), Markup.plainAttributes_nil⟩

/-- The pieces of a property are good exactly when it is safe. -/
theorem Property.Named.good_iff {p : Property} (h : p.Named) :
    (∀ q ∈ p.pieces, q.Good) ↔ p.Safe := by
  obtain ⟨ns, name, content⟩ := p
  obtain ⟨hlabel, h⟩ := h
  cases content with
  | text c =>
    unfold Property.pieces Property.Safe
    dsimp only
    rw [← c.chars_iff, List.forall_mem_singleton]
    exact and_iff_right hlabel
  | empty =>
    refine iff_of_true ?_ trivial
    unfold Property.pieces
    rw [List.forall_mem_singleton]
    exact hlabel
  | raw element c =>
    unfold Property.pieces Property.Safe
    dsimp only
    rw [← c.plain_iff, List.forall_mem_cons, List.forall_mem_cons, List.forall_mem_singleton]
    constructor
    · exact fun hgood => hgood.2.1.2
    · exact fun hplain => ⟨hlabel, ⟨h, hplain⟩, hlabel⟩
  | tags chains =>
    refine iff_of_true ?_ trivial
    unfold Property.pieces
    dsimp only
    rw [List.forall_mem_cons, List.forall_mem_append, List.forall_mem_singleton]
    refine ⟨hlabel, fun q hq => ?_, hlabel⟩
    obtain ⟨c, hc, hq⟩ := List.mem_flatMap.mp hq
    exact ((h c hc).pieces q hq).1

theorem Property.Named.attributes {p : Property} (h : p.Named) :
    ∀ q ∈ p.pieces, Markup.PlainAttributes q.attributes := by
  have hnil := Markup.plainAttributes_nil
  obtain ⟨ns, name, content⟩ := p
  obtain ⟨hlabel, h⟩ := h
  cases content with
  | text c | empty =>
    unfold Property.pieces
    rw [List.forall_mem_singleton]
    exact hnil
  | raw element c =>
    unfold Property.pieces
    rw [List.forall_mem_cons, List.forall_mem_cons, List.forall_mem_singleton]
    exact ⟨hnil, hnil, hnil⟩
  | tags chains =>
    unfold Property.pieces
    dsimp only
    rw [List.forall_mem_cons, List.forall_mem_append, List.forall_mem_singleton]
    refine ⟨hnil, fun q hq => ?_, hnil⟩
    obtain ⟨c, hc, hq⟩ := List.mem_flatMap.mp hq
    exact ((h c hc).pieces q hq).2

/-! ## Entries and documents -/

/-- The name under which a missing property is reported. -/
def PropRequest.missingName (r : PropRequest) : String := nsPrefix r.ns ++ ":" ++ r.localName

/-- A response: its href, the properties with their values, and those that are missing. -/
structure Entry where
  href : Composed
  found : List Property
  missing : List PropRequest

/-- A document: its responses, and the sync token if there is one. -/
structure Meant where
  entries : List Entry
  syncToken : Option Composed

/-- A propstat and its properties, if there are any. -/
def propstatPieces (properties : List (List Piece)) (status : String) : List Piece :=
  if properties.isEmpty then []
  else [.start "D:propstat".toList [], .start "D:prop".toList []] ++ properties.flatten ++
    [.stop "D:prop".toList, .text "D:status".toList status.toList, .stop "D:propstat".toList]

def propstatNodes (properties : List Node) (status : String) : List Node :=
  if properties.isEmpty then []
  else [.element "D:propstat".toList [] [.element "D:prop".toList [] properties,
    Markup.leaf "D:status".toList status.toList]]

def statusFound : String := "HTTP/1.1 200 OK"

def statusMissing : String := "HTTP/1.1 404 Not Found"

namespace Entry

/-- The entry as it is added to the builder. -/
def response (e : Entry) : ResponseEntry :=
  ⟨e.href.text, e.found.map Property.value, e.missing.map PropRequest.missingName⟩

def pieces (e : Entry) : List Piece :=
  .start "D:response".toList [] :: .text "D:href".toList e.href.text.toList ::
    (propstatPieces (e.found.map Property.pieces) statusFound ++
      propstatPieces (e.missing.map fun r => [.empty r.missingName.toList []]) statusMissing ++
      [.stop "D:response".toList])

/-- What is meant by it. -/
def node (e : Entry) : Node :=
  .element "D:response".toList [] (Markup.leaf "D:href".toList e.href.text.toList ::
    (propstatNodes (e.found.map Property.node) statusFound ++
      propstatNodes (e.missing.map fun r => .element r.missingName.toList [] []) statusMissing))

/-- Its data can be written the way they are, and what was asked for in vain has a name. -/
structure Safe (e : Entry) : Prop where
  href : e.href.Chars
  found : ∀ p ∈ e.found, p.Safe
  missing : ∀ r ∈ e.missing, r.localName.toList.all isNameChar = true

def Named (e : Entry) : Prop := ∀ p ∈ e.found, p.Named

end Entry

/-- The namespace declarations of the document element. -/
def declarations : List (List Char × List Char) :=
  [("xmlns:D".toList, davNs.toList), ("xmlns:C".toList, caldavNs.toList),
    ("xmlns:A".toList, appleNs.toList), ("xmlns:CS".toList, csNs.toList)]

namespace Meant

/-- The document under construction in the source. -/
def multistatus (m : Meant) : Multistatus :=
  ⟨m.entries.map Entry.response, m.syncToken.map Composed.text⟩

def pieces (m : Meant) : List Piece :=
  .start "D:multistatus".toList declarations :: (m.entries.flatMap Entry.pieces ++
    m.syncToken.toList.map (fun c => .text "D:sync-token".toList c.text.toList) ++
    [.stop "D:multistatus".toList])

/-- The tree that is meant. -/
def node (m : Meant) : Node :=
  .element "D:multistatus".toList declarations (m.entries.map Entry.node ++
    m.syncToken.toList.map fun c => Markup.leaf "D:sync-token".toList c.text.toList)

/-- All data can be written the way they are. -/
structure Safe (m : Meant) : Prop where
  entries : ∀ e ∈ m.entries, e.Safe
  syncToken : ∀ c ∈ m.syncToken, c.Chars

end Meant

/-! ### How they are written -/

theorem write_flatten (l : List (List Piece)) :
    Markup.write l.flatten = (l.map Markup.write).flatten := by
  induction l with
  | nil => rfl
  | cons p l ih => rw [List.flatten_cons, write_append, ih, List.map_cons, List.flatten_cons]

theorem renderPropstat_toList {α : Type} (l : List α) (render : α → String)
    (pieces : α → List Piece) (h : ∀ a, (render a).toList = Markup.write (pieces a))
    (status : String) : (renderPropstat (l.map render) status).toList =
      Markup.write (propstatPieces (l.map pieces) status) := by
  have hstart : "<D:propstat><D:prop>".toList = Markup.write [.start "D:propstat".toList [],
    .start "D:prop".toList []] := rfl
  have hstop : "</D:prop>".toList = Markup.write [.stop "D:prop".toList] := rfl
  have hend : "</D:propstat>".toList = Markup.write [.stop "D:propstat".toList] := rfl
  have hbody : (String.join (l.map render)).toList =
      Markup.write (l.map pieces).flatten := by
    rw [String.toList_join, List.flatMap_map, write_flatten, List.map_map, ← List.flatMap_def]
    exact List.flatMap_congr fun a _ => h a
  unfold renderPropstat propstatPieces
  rw [List.isEmpty_map, List.isEmpty_map]
  split
  · rfl
  · simp only [String.toList_append, hstart, hstop, hend, hbody, textElement_toList,
      ← write_append, List.append_assoc, List.cons_append, List.nil_append]

theorem Entry.render_eq (e : Entry) : e.response.render.toList = Markup.write e.pieces := by
  have hstart : "<D:response>".toList = Markup.write [.start "D:response".toList []] := rfl
  have hstop : "</D:response>".toList = Markup.write [.stop "D:response".toList] := rfl
  have hfound := renderPropstat_toList e.found (fun p => p.value.render) Property.pieces
    Property.render_eq statusFound
  have hmissing := renderPropstat_toList e.missing (fun r => "<" ++ r.missingName ++ "/>")
    (fun r => [.empty r.missingName.toList []]) (fun r => empty_toList _) statusMissing
  unfold ResponseEntry.render Entry.response Entry.pieces
  dsimp only
  rw [List.map_map, List.map_map]
  simp only [String.toList_append, hstart, hstop, textElement_toList]
  refine (congrArg₂ (fun a b => _ ++ _ ++ a ++ b ++ _) hfound hmissing).trans ?_
  simp only [← write_append, List.append_assoc, List.cons_append, List.nil_append]

theorem Meant.build_eq (m : Meant) :
    m.multistatus.build.toList = Markup.declaration ++ Markup.write m.pieces := by
  have hhead : ("<?xml version=\"1.0\" encoding=\"utf-8\"?><D:multistatus xmlns:D=\"" ++ davNs ++
      "\" xmlns:C=\"" ++ caldavNs ++ "\" xmlns:A=\"" ++ appleNs ++ "\" xmlns:CS=\"" ++ csNs ++
      "\">").toList =
      Markup.declaration ++ Markup.write [.start "D:multistatus".toList declarations] := by
    decide +kernel
  have hstop : "</D:multistatus>".toList = Markup.write [.stop "D:multistatus".toList] := rfl
  have hentries : (String.join ((m.entries.map Entry.response).map ResponseEntry.render)).toList =
      Markup.write (m.entries.flatMap Entry.pieces) := by
    rw [String.toList_join, List.flatMap_map, List.flatMap_map]
    exact (List.flatMap_congr fun e _ => e.render_eq).trans List.flatMap_assoc.symm
  unfold Multistatus.build Meant.multistatus Meant.pieces
  dsimp only
  rw [String.toList_append, String.toList_append, String.toList_append, hhead, hentries, hstop]
  cases m.syncToken with
  | none =>
    have hnone : "".toList = Markup.write [] := rfl
    dsimp only [Option.map_none, Option.toList_none, List.map_nil]
    rw [hnone]
    simp only [← write_append, List.append_assoc, List.cons_append, List.nil_append]
    rfl
  | some c =>
    dsimp only [Option.map_some, Option.toList_some, List.map_cons, List.map_nil]
    rw [textElement_toList]
    simp only [← write_append, List.append_assoc, List.cons_append, List.nil_append]
    rfl

/-! ### What they mean -/

theorem propstat_tokens {α : Type} (l : List α) (node : α → Node) (pieces : α → List Piece)
    (h : ∀ a, (node a).tokens = (pieces a).flatMap Piece.tokens) (status : String) :
    Markup.tokensOf (propstatNodes (l.map node) status) =
      (propstatPieces (l.map pieces) status).flatMap Piece.tokens := by
  have hbody : Markup.tokensOf (l.map node) = (l.map pieces).flatten.flatMap Piece.tokens := by
    induction l with
    | nil => rfl
    | cons a l ih =>
      rw [List.map_cons, List.map_cons, Markup.tokensOf, h, ih, List.flatten_cons,
        List.flatMap_append]
  unfold propstatNodes propstatPieces
  rw [List.isEmpty_map, List.isEmpty_map]
  split
  · rfl
  · simp [Node.tokens, Markup.tokensOf, hbody, Markup.leaf_tokens, Piece.tokens]

theorem Entry.node_tokens (e : Entry) : e.node.tokens = e.pieces.flatMap Piece.tokens := by
  have hfound := propstat_tokens e.found Property.node Property.pieces Property.node_tokens
    statusFound
  have hmissing := propstat_tokens e.missing (fun r => .element r.missingName.toList [] [])
    (fun r => [.empty r.missingName.toList []]) (fun _ => rfl) statusMissing
  unfold Entry.node Entry.pieces
  rw [Node.tokens, Markup.tokensOf, Markup.tokensOf_append, hfound, hmissing, Markup.leaf_tokens,
    List.flatMap_cons, List.flatMap_cons, List.flatMap_append, List.flatMap_append]
  simp [Piece.tokens]

theorem Meant.node_tokens (m : Meant) : m.node.tokens = m.pieces.flatMap Piece.tokens := by
  have hentries : Markup.tokensOf (m.entries.map Entry.node) =
      (m.entries.flatMap Entry.pieces).flatMap Piece.tokens := by
    induction m.entries with
    | nil => rfl
    | cons e entries ih =>
      rw [List.map_cons, Markup.tokensOf, e.node_tokens, ih, List.flatMap_cons,
        List.flatMap_append]
  unfold Meant.node Meant.pieces
  rw [Node.tokens, Markup.tokensOf_append, hentries, List.flatMap_cons, List.flatMap_append,
    List.flatMap_append]
  cases m.syncToken with
  | none => rfl
  | some c => simp [Markup.tokensOf, Markup.leaf_tokens, Piece.tokens]

/-! ### When they are read back -/

/-- What holds of every piece of a propstat: it holds of the frame, so it is a matter of the
    properties. -/
theorem propstatPieces_iff {α : Type} (P : Piece → Prop) (l : List α) (pieces : α → List Piece)
    {status : String} (hframe : ∀ q ∈ [Piece.start "D:propstat".toList [],
      .start "D:prop".toList [], .stop "D:prop".toList,
      .text "D:status".toList status.toList, .stop "D:propstat".toList], P q) :
    (∀ q ∈ propstatPieces (l.map pieces) status, P q) ↔ ∀ a ∈ l, ∀ q ∈ pieces a, P q := by
  simp only [List.forall_mem_cons] at hframe
  obtain ⟨h1, h2, h3, h4, h5, -⟩ := hframe
  unfold propstatPieces
  rw [List.isEmpty_map]
  cases l with
  | nil => exact iff_of_true nofun nofun
  | cons a l =>
    rw [if_neg (by simp), ← List.flatMap_def]
    constructor
    · intro h a ha q hq
      refine h q (List.mem_append_left _ (List.mem_append_right _ ?_))
      exact List.mem_flatMap.mpr ⟨a, ha, hq⟩
    · intro h
      rw [List.forall_mem_append, List.forall_mem_append, List.forall_mem_cons,
        List.forall_mem_singleton, List.forall_mem_cons, List.forall_mem_cons,
        List.forall_mem_singleton]
      refine ⟨⟨⟨h1, h2⟩, fun q hq => ?_⟩, h3, h4, h5⟩
      obtain ⟨a, ha, hq⟩ := List.mem_flatMap.mp hq
      exact h a ha q hq

theorem frame_good {status : String} (h : status.toList.all isInert = true) :
    ∀ q ∈ [Piece.start "D:propstat".toList [], .start "D:prop".toList [],
      .stop "D:prop".toList, .text "D:status".toList status.toList,
      .stop "D:propstat".toList], q.Good := by
  simp only [List.forall_mem_cons]
  have h1 : isName "D:propstat".toList = true := by decide
  have h2 : isName "D:prop".toList = true := by decide
  have h3 : isName "D:status".toList = true := by decide
  exact ⟨h1, h2, h2, ⟨h3, chars_of_inert h⟩, h1, nofun⟩

/-- A missing property has a name when the characters of its local name are those of names. -/
theorem isName_missingName (r : PropRequest) :
    isName r.missingName.toList = true ↔ r.localName.toList.all isNameChar = true := by
  have hprefix : ∃ c s, (nsPrefix r.ns ++ ":").toList = c :: s ∧ Markup.isNameStart c = true ∧
      s.all isNameChar = true := by
    unfold nsPrefix
    split_ifs
    all_goals exact ⟨_, _, rfl, by decide, by decide⟩
  obtain ⟨c, s, hcs, hc, hs⟩ := hprefix
  unfold PropRequest.missingName
  rw [String.toList_append, hcs, List.cons_append, isName, hc, Bool.true_and, List.all_append,
    hs, Bool.true_and]

theorem Entry.Named.good_iff {e : Entry} (h : e.Named) : (∀ q ∈ e.pieces, q.Good) ↔ e.Safe := by
  have hresponse : isName "D:response".toList = true := by decide
  have hhref : isName "D:href".toList = true := by decide
  unfold Entry.pieces
  rw [List.forall_mem_cons, List.forall_mem_cons, List.forall_mem_append, List.forall_mem_append,
    propstatPieces_iff _ _ _ (frame_good (by decide)),
    propstatPieces_iff _ _ _ (frame_good (by decide)), List.forall_mem_singleton]
  constructor
  · rintro ⟨-, ⟨-, hchars⟩, ⟨hfound, hmissing⟩, -⟩
    refine ⟨e.href.chars_iff.mp hchars, fun p hp => (h p hp).good_iff.mp (hfound p hp), ?_⟩
    intro r hr
    exact (isName_missingName r).mp (hmissing r hr _ (List.mem_singleton.mpr rfl))
  · intro hsafe
    refine ⟨hresponse, ⟨hhref, e.href.chars_iff.mpr hsafe.href⟩,
      ⟨fun p hp => (h p hp).good_iff.mpr (hsafe.found p hp), fun r hr => ?_⟩, hresponse⟩
    rw [List.forall_mem_singleton]
    exact (isName_missingName r).mpr (hsafe.missing r hr)

theorem Entry.Named.attributes {e : Entry} (h : e.Named) :
    ∀ q ∈ e.pieces, Markup.PlainAttributes q.attributes := by
  have hnil := Markup.plainAttributes_nil
  have hframe : ∀ status : String, ∀ q ∈ [Piece.start "D:propstat".toList [],
      .start "D:prop".toList [], .stop "D:prop".toList,
      .text "D:status".toList status.toList, .stop "D:propstat".toList],
      Markup.PlainAttributes q.attributes := by
    intro status
    simp only [List.forall_mem_cons]
    exact ⟨hnil, hnil, hnil, hnil, hnil, nofun⟩
  unfold Entry.pieces
  rw [List.forall_mem_cons, List.forall_mem_cons, List.forall_mem_append, List.forall_mem_append,
    propstatPieces_iff (fun q => Markup.PlainAttributes q.attributes) _ _ (hframe _),
    propstatPieces_iff (fun q => Markup.PlainAttributes q.attributes) _ _ (hframe _),
    List.forall_mem_singleton]
  refine ⟨hnil, hnil, ⟨fun p hp => (h p hp).attributes, fun r _ => ?_⟩, hnil⟩
  rw [List.forall_mem_singleton]
  exact hnil

/-- The declarations are written as they stand. -/
theorem plainAttributes_declarations : Markup.PlainAttributes declarations :=
  ⟨by decide, by decide, by decide⟩

/-- **A document is read as what is meant exactly when all its data are safe.** -/
theorem Meant.read_iff {m : Meant} (h : ∀ e ∈ m.entries, e.Named) :
    Markup.read m.multistatus.build.toList = some m.node ↔ m.Safe := by
  have hname : isName "D:multistatus".toList = true := by decide
  have htoken : isName "D:sync-token".toList = true := by decide
  have hnil := Markup.plainAttributes_nil
  rw [m.build_eq, Meant.node, Markup.read_write _ m.node_tokens]
  · unfold Meant.pieces
    rw [List.forall_mem_cons, List.forall_mem_append, List.forall_mem_append,
      List.forall_mem_singleton, List.forall_mem_map]
    constructor
    · rintro ⟨-, ⟨hentries, hsync⟩, -⟩
      refine ⟨fun e he => (h e he).good_iff.mp fun q hq => ?_, fun c hc => ?_⟩
      · exact hentries q (List.mem_flatMap.mpr ⟨e, he, hq⟩)
      · exact c.chars_iff.mp (hsync c (Option.mem_toList.mpr hc)).2
    · intro hsafe
      refine ⟨hname, ⟨fun q hq => ?_, fun c hc => ?_⟩, hname⟩
      · obtain ⟨e, he, hq⟩ := List.mem_flatMap.mp hq
        exact (h e he).good_iff.mpr (hsafe.entries e he) q hq
      · exact ⟨htoken, c.chars_iff.mpr (hsafe.syncToken c (Option.mem_toList.mp hc))⟩
  · unfold Meant.pieces
    rw [List.forall_mem_cons, List.forall_mem_append, List.forall_mem_append,
      List.forall_mem_singleton, List.forall_mem_map]
    refine ⟨plainAttributes_declarations, ⟨fun q hq => ?_, fun c _ => hnil⟩, hnil⟩
    obtain ⟨e, he, hq⟩ := List.mem_flatMap.mp hq
    exact (h e he).attributes q hq

end CaldavMcp
