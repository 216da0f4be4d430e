/-
  What a PROPPATCH body sets, and what the answer says of it.

  The three settable properties are found by scanning the body for a local name and the first text
  inside (`extractValueFrom_skip`, `extractValueFrom_found`). A property without text is not found,
  and no other property is looked for; the answer lists what was found. So each property of the
  body is in the answer, and stored as it says, exactly when the body has none but the three, each
  with a value that is not empty (`updates_iff`).
-/
import CaldavMcp.Caldav.Bodies
import CaldavMcp.Caldav.Hrefs
import CaldavMcp.Caldav.Permissions

namespace CaldavMcp

open Program

/-! ## The body -/

/-- The properties that can be set. -/
inductive Settable where
  | displayname
  | calendarDescription
  | calendarColor
  deriving DecidableEq, Repr

namespace Settable

def prop : Settable → PropRequest
  | displayname => ⟨davNs, "displayname"⟩
  | calendarDescription => ⟨caldavNs, "calendar-description"⟩
  | calendarColor => ⟨appleNs, "calendar-color"⟩

/-- The column that holds the property. -/
def column : Settable → Calendar → String
  | displayname => Calendar.name
  | calendarDescription => Calendar.description
  | calendarColor => Calendar.color

/-- What a patch sets the property to. -/
def valueIn : Settable → PropPatch → Option String
  | displayname => PropPatch.name
  | calendarDescription => PropPatch.description
  | calendarColor => PropPatch.color

end Settable

/-- An element. Without content it is written `<e/>` or `<e></e>`. -/
def elementEvents (name : String) (selfClosing : Bool) : List XmlEvent → List XmlEvent
  | [] => if selfClosing then [.empty name []] else [.start name [], .stop name]
  | event :: content => [.start name []] ++ (event :: content) ++ [.stop name]

/-- A property in the body: one that is assigned a value, or a further one with any content. -/
inductive UpdateItem where
  | assign (property : Settable) (value : String) (selfClosing : Bool)
  | further (prop : PropRequest) (selfClosing : Bool) (content : List XmlEvent)

namespace UpdateItem

def prop : UpdateItem → PropRequest
  | assign property _ _ => property.prop
  | further prop _ _ => prop

/-- The property that is assigned a value. -/
def assigned? : UpdateItem → Option Settable
  | assign property _ _ => some property
  | further _ _ _ => none

/-- The value that is assigned to a property. -/
def valueFor (property : Settable) : UpdateItem → Option String
  | assign property' value _ => if property' = property then some value else none
  | further _ _ _ => none

def content : UpdateItem → List XmlEvent
  | assign _ value _ => if value = "" then [] else [.text value]
  | further _ _ content => content

def selfClosing : UpdateItem → Bool
  | assign _ _ selfClosing => selfClosing
  | further _ selfClosing _ => selfClosing

def events (d : Declarations) (item : UpdateItem) : List XmlEvent :=
  elementEvents (d.qualified item.prop.ns item.prop.localName) item.selfClosing item.content

/-- The property has a column, and the row holds the assigned value there. -/
def StoredIn (r : Calendar) : UpdateItem → Prop
  | assign property value _ => property.column r = value
  | further _ _ _ => False

end UpdateItem

/-- A body that assigns values to some of the settable properties, each once, among any further
    properties. -/
structure PropertyUpdate where
  declarations : Declarations
  items : List UpdateItem
  dav : davNs ∈ declarations.namespaces
  names : ∀ item ∈ items, item.prop.ns ∈ declarations.namespaces ∧
    ':' ∉ item.prop.localName.toList
  assigns : items.filterMap UpdateItem.assigned? ≠ []
  once : (items.filterMap UpdateItem.assigned?).Nodup
  apart : ∀ item ∈ items, item.assigned? = none → ∀ property : Settable,
    item.prop ≠ property.prop

namespace PropertyUpdate

variable (body : PropertyUpdate)

/-- `<propertyupdate><set><prop>...</prop></set></propertyupdate>`. -/
def events : List XmlEvent :=
  [.start (body.declarations.qualified davNs "propertyupdate") body.declarations.attributes,
    .start (body.declarations.qualified davNs "set") [],
    .start (body.declarations.qualified davNs "prop") []] ++
  body.items.flatMap (UpdateItem.events body.declarations) ++
  [.stop (body.declarations.qualified davNs "prop"),
    .stop (body.declarations.qualified davNs "set"),
    .stop (body.declarations.qualified davNs "propertyupdate")]

/-- The value that is assigned to a property. -/
def value? (property : Settable) : Option String :=
  body.items.findSome? (UpdateItem.valueFor property)

/-- The assigned values. -/
def patch : PropPatch :=
  ⟨body.value? .displayname, body.value? .calendarDescription, body.value? .calendarColor⟩

/-- There are none but the settable properties, each with a value that is not empty. -/
def Full : Prop := ∀ item ∈ body.items, ∃ property value selfClosing,
  item = .assign property value selfClosing ∧ value ≠ ""

end PropertyUpdate

/-! ## The answer -/

/-- The document lists the property under status 200. -/
def Multistatus.Confirms (doc : Multistatus) (prop : PropRequest) : Prop :=
  ∃ r ∈ doc.responses, ∃ p ∈ r.found, p.ns = prop.ns ∧ p.name = prop.localName

/-- The document lists the property, under status 200 or another. -/
def Multistatus.Mentions (doc : Multistatus) (prop : PropRequest) : Prop :=
  doc.Confirms prop ∨ ∃ r ∈ doc.responses, prefixName prop.ns prop.localName ∈ r.notFound

/-- The update does what the body says: the row has the assigned values and is otherwise as it
    was, and each property of the body is in the answer, under status 200 if it was stored. -/
structure Updates (r : Calendar) (body : PropertyUpdate) (calendarId : String)
    (answer : Reply × World) : Prop where
  status : answer.1.status? = some 207
  row : answer.2.db.calendarById calendarId = some (body.patch.apply r)
  named : ∃ doc, answer.1.document? = some doc ∧ ∀ item ∈ body.items, doc.Mentions item.prop ∧
    (doc.Confirms item.prop ↔ item.StoredIn (body.patch.apply r))

/-! ## The scan -/

section

variable {d : Declarations} {localName : String} {rest : List XmlEvent}

theorem extractValueFrom_start {name : String} {attributes : List (String × String)}
    (h : localNameOf name ≠ localName) :
    extractValueFrom localName false (.start name attributes :: rest) =
      extractValueFrom localName false rest := by
  rw [extractValueFrom, decide_eq_false h]
  rfl

/-- Nothing is found in an element without content. -/
theorem extractValueFrom_bare (name : String) (selfClosing : Bool) :
    extractValueFrom localName false (elementEvents name selfClosing [] ++ rest) =
      extractValueFrom localName false rest := by
  cases selfClosing <;> rfl

theorem extractValueFrom_text (name value : String) (selfClosing : Bool) :
    extractValueFrom localName false (elementEvents name selfClosing [.text value] ++ rest) =
      if localNameOf name = localName then some value
      else extractValueFrom localName false rest := by
  show extractValueFrom localName false (.start name [] :: .text value :: .stop name :: rest) = _
  by_cases h : localNameOf name = localName
  · rw [if_pos h, extractValueFrom, decide_eq_true h]
    rfl
  · rw [if_neg h, extractValueFrom_start h]
    rfl

/-- The value that the scan for a property finds in an item: it is not empty. -/
def UpdateItem.scanned (property : Settable) (item : UpdateItem) : Option String :=
  (item.valueFor property).filter (· ≠ "")

/-- The scan finds a property where it is assigned a value that is not empty. -/
theorem extractValueFrom_item {item : UpdateItem} (hassigned : item.assigned? ≠ none)
    (hname : item.prop.ns ∈ d.namespaces ∧ ':' ∉ item.prop.localName.toList)
    (property : Settable) :
    extractValueFrom property.prop.localName false (item.events d ++ rest) =
      (item.scanned property).or (extractValueFrom property.prop.localName false rest) := by
  cases item with
  | further prop selfClosing content => exact absurd rfl hassigned
  | assign property' value selfClosing =>
    have hlocal : localNameOf (d.qualified property'.prop.ns property'.prop.localName) =
      property'.prop.localName := localNameOf_qualified hname.1 hname.2
    have hsame : property'.prop.localName = property.prop.localName ↔ property' = property := by
      cases property' <;> cases property <;> decide
    unfold UpdateItem.events UpdateItem.scanned
    show extractValueFrom _ false (elementEvents _ selfClosing
      (if value = "" then [] else [.text value]) ++ rest) =
        ((if property' = property then some value else none).filter (· ≠ "")).or _
    by_cases hvalue : value = ""
    · rw [if_pos hvalue, hvalue, extractValueFrom_bare]
      split <;> rfl
    · rw [if_neg hvalue, extractValueFrom_text]
      show (if localNameOf (d.qualified property'.prop.ns property'.prop.localName) = _
        then _ else _) = _
      rw [hlocal]
      by_cases hproperty : property' = property
      · rw [if_pos (hsame.mpr hproperty), if_pos hproperty, Option.filter_some,
          if_pos (decide_eq_true hvalue), Option.some_or]
      · rw [if_neg fun h => hproperty (hsame.mp h), if_neg hproperty]
        rfl

theorem extractValueFrom_items {items : List UpdateItem}
    (hassigned : ∀ item ∈ items, item.assigned? ≠ none)
    (hnames : ∀ item ∈ items, item.prop.ns ∈ d.namespaces ∧ ':' ∉ item.prop.localName.toList)
    (property : Settable) :
    extractValueFrom property.prop.localName false
        (items.flatMap (UpdateItem.events d) ++ rest) =
      (items.findSome? (UpdateItem.scanned property)).or
        (extractValueFrom property.prop.localName false rest) := by
  induction items with
  | nil => rfl
  | cons item items ih =>
    have ih := ih (fun item hitem => hassigned item (List.mem_cons_of_mem _ hitem))
      (fun item hitem => hnames item (List.mem_cons_of_mem _ hitem))
    rw [List.flatMap_cons, List.append_assoc,
      extractValueFrom_item (hassigned item List.mem_cons_self) (hnames item List.mem_cons_self),
      ih, List.findSome?_cons]
    cases item.scanned property <;> rfl

/-- What the three scans find in a body that has only settable properties. -/
theorem extractValueFrom_body {body : PropertyUpdate}
    (hassigned : ∀ item ∈ body.items, item.assigned? ≠ none) (property : Settable) :
    extractValueFrom property.prop.localName false body.events =
      body.items.findSome? (UpdateItem.scanned property) := by
  have hword : ∀ word, ':' ∉ word.toList → word ∉ ["displayname", "calendar-description",
      "calendar-color"] →
      localNameOf (body.declarations.qualified davNs word) ≠ property.prop.localName := by
    intro word hcolon hmem
    rw [localNameOf_qualified body.dav hcolon]
    rintro rfl
    cases property <;> exact absurd hmem (by decide)
  unfold PropertyUpdate.events
  rw [List.append_assoc, List.cons_append, List.cons_append, List.cons_append, List.nil_append,
    extractValueFrom_start (hword "propertyupdate" (by decide) (by decide)),
    extractValueFrom_start (hword "set" (by decide) (by decide)),
    extractValueFrom_start (hword "prop" (by decide) (by decide)),
    extractValueFrom_items hassigned body.names]
  exact Option.or_none

end

/-! ## The three steps together -/

section

variable {items : List UpdateItem} {property : Settable} {value : String} {selfClosing : Bool}
  {body : PropertyUpdate} {patch : PropPatch}

/-- A property that is assigned once is found where it is assigned. -/
theorem UpdateItem.findSome?_assigned (once : (items.filterMap UpdateItem.assigned?).Nodup)
    (hmem : .assign property value selfClosing ∈ items) {find : UpdateItem → Option String}
    (hfind : ∀ item, item.assigned? ≠ some property → find item = none) :
    items.findSome? find = find (.assign property value selfClosing) := by
  induction items with
  | nil => cases hmem
  | cons item items ih =>
    have honce : (items.filterMap UpdateItem.assigned?).Nodup :=
      once.sublist ((List.sublist_cons_self item items).filterMap _)
    rw [List.findSome?_cons]
    rcases List.mem_cons.mp hmem with rfl | hmem
    · have hhead : (assign property value selfClosing).assigned? = some property := rfl
      have hothers : items.findSome? find = none := by
        refine List.findSome?_eq_none_iff.mpr fun item hitem => hfind item fun hsame => ?_
        rw [List.filterMap_cons_some hhead] at once
        exact (List.nodup_cons.mp once).1 (List.mem_filterMap.mpr ⟨item, hitem, hsame⟩)
      rw [hothers]
      cases find (.assign property value selfClosing) <;> rfl
    · rw [hfind item fun hsame => ?_]
      · exact ih honce hmem
      · rw [List.filterMap_cons_some hsame] at once
        exact (List.nodup_cons.mp once).1 (List.mem_filterMap.mpr ⟨_, hmem, rfl⟩)

/-- Values that are not empty are all found. -/
theorem UpdateItem.findSome?_scanned (property : Settable)
    (hfull : ∀ item ∈ items, ∃ property value selfClosing,
      item = .assign property value selfClosing ∧ value ≠ "") :
    items.findSome? (UpdateItem.scanned property) =
      items.findSome? (UpdateItem.valueFor property) := by
  induction items with
  | nil => rfl
  | cons item items ih =>
    obtain ⟨property', value, selfClosing, rfl, hvalue⟩ := hfull _ List.mem_cons_self
    have hsame : (assign property' value selfClosing).scanned property =
        (assign property' value selfClosing).valueFor property := by
      unfold scanned valueFor
      dsimp only
      split
      · rw [Option.filter_some, if_pos (decide_eq_true hvalue)]
      · rfl
    rw [List.findSome?_cons, List.findSome?_cons, hsame,
      ih fun item hitem => hfull item (List.mem_cons_of_mem _ hitem)]

theorem UpdateItem.valueFor_of_ne {item : UpdateItem} (h : item.assigned? ≠ some property) :
    item.valueFor property = none := by
  cases item with
  | assign property' value selfClosing => exact if_neg fun hsame => h (congrArg some hsame)
  | further prop selfClosing content => rfl

theorem PropertyUpdate.value?_of_mem (hmem : .assign property value selfClosing ∈ body.items) :
    body.value? property = some value :=
  (UpdateItem.findSome?_assigned body.once hmem fun _ => UpdateItem.valueFor_of_ne).trans (if_pos rfl)

theorem PropertyUpdate.valueIn_patch (property : Settable) :
    property.valueIn body.patch = body.value? property := by
  cases property <;> rfl

/-- The answer lists the properties of the patch. -/
theorem PropPatch.found_eq (patch : PropPatch) : patch.found =
    ([.displayname, .calendarDescription, .calendarColor].filter fun property : Settable =>
      (property.valueIn patch).isSome).map fun property : Settable =>
        ⟨property.prop.localName, property.prop.ns, .empty⟩ := by
  obtain ⟨_ | name, _ | description, _ | color⟩ := patch <;> rfl

theorem confirms_found_iff (href : String) (prop : PropRequest) :
    Multistatus.Confirms ⟨[⟨href, patch.found, []⟩], none⟩ prop ↔
      ∃ property : Settable, prop = property.prop ∧ (property.valueIn patch).isSome := by
  constructor
  · rintro ⟨r, hr, p, hp, hns, hname⟩
    rw [List.mem_singleton.mp hr, PropPatch.found_eq] at hp
    obtain ⟨property, hproperty, rfl⟩ := List.mem_map.mp hp
    exact ⟨property, congrArg₂ PropRequest.mk hns.symm hname.symm, (List.mem_filter.mp hproperty).2⟩
  · rintro ⟨property, rfl, hsome⟩
    refine ⟨_, List.mem_singleton_self _, ⟨property.prop.localName, property.prop.ns, .empty⟩,
      ?_, rfl, rfl⟩
    rw [PropPatch.found_eq]
    refine List.mem_map.mpr ⟨property, List.mem_filter.mpr ⟨?_, hsome⟩, rfl⟩
    cases property <;> simp

theorem mentions_found_iff (href : String) (prop : PropRequest) :
    Multistatus.Mentions ⟨[⟨href, patch.found, []⟩], none⟩ prop ↔
      Multistatus.Confirms ⟨[⟨href, patch.found, []⟩], none⟩ prop := by
  refine or_iff_left ?_
  rintro ⟨r, hr, hmem⟩
  rw [List.mem_singleton.mp hr] at hmem
  cases hmem

theorem Settable.prop_inj {property' : Settable} (h : property.prop = property'.prop) :
    property = property' := by
  revert h
  cases property <;> cases property' <;> decide

/-- A patched column holds what the patch sets it to. -/
theorem column_apply (patch : PropPatch) (r : Calendar) (property : Settable) :
    property.column (patch.apply r) = (property.valueIn patch).getD (property.column r) := by
  cases property <;> rfl

variable {env : Env} {lib : Lib} {w : World} {calendarId : String} {request : Request}

/-- Each value of the patch is that of a scan. -/
theorem valueIn_scan (property : Settable) : property.valueIn (propPatchOf lib request) =
    extractXmlValue lib (request.bodyUpTo (64 * 1024)) property.prop.localName := by
  cases property <;> rfl

/-- What a PROPPATCH finds in the body, if it can be read and has only settable properties. -/
theorem valueIn_propPatchOf {text : String} (hbody : request.body = text.toUTF8)
    (hread : lib.readXml text.toUTF8 = body.events) (hsize : text.toUTF8.size ≤ 64 * 1024)
    (hassigned : ∀ item ∈ body.items, item.assigned? ≠ none) (property : Settable) :
    property.valueIn (propPatchOf lib request) =
      body.items.findSome? (UpdateItem.scanned property) := by
  rw [valueIn_scan, ← extractValueFrom_body hassigned, ← hread]
  unfold extractXmlValue Request.bodyUpTo
  rw [hbody, if_pos hsize, String.fromUtf8Lossy_toUTF8]

/-- What is assigned is found, unless it is empty. -/
theorem valueIn_of_mem {text : String} (hbody : request.body = text.toUTF8)
    (hread : lib.readXml text.toUTF8 = body.events) (hsize : text.toUTF8.size ≤ 64 * 1024)
    (hassigned : ∀ item ∈ body.items, item.assigned? ≠ none)
    (hmem : .assign property value selfClosing ∈ body.items) :
    property.valueIn (propPatchOf lib request) = if value = "" then none else some value := by
  have hscan : (UpdateItem.assign property value selfClosing).valueFor property = some value :=
    if_pos rfl
  rw [valueIn_propPatchOf hbody hread hsize hassigned,
    UpdateItem.findSome?_assigned body.once hmem fun item hne => ?_]
  · unfold UpdateItem.scanned
    rw [hscan]
    by_cases hvalue : value = ""
    · rw [if_pos hvalue, hvalue]
      rfl
    · rw [if_neg hvalue, Option.filter_some, if_pos (decide_eq_true hvalue)]
  · unfold UpdateItem.scanned
    rw [UpdateItem.valueFor_of_ne hne]
    rfl

theorem PropPatch.ext_valueIn {patch' : PropPatch}
    (h : ∀ property : Settable, property.valueIn patch = property.valueIn patch') :
    patch = patch' := by
  obtain ⟨name, description, color⟩ := patch
  rw [show name = _ from h .displayname, show description = _ from h .calendarDescription,
    show color = _ from h .calendarColor]
  rfl

/-- A full body is read as the assigned values. -/
theorem propPatchOf_full {text : String} (hbody : request.body = text.toUTF8)
    (hread : lib.readXml text.toUTF8 = body.events) (hsize : text.toUTF8.size ≤ 64 * 1024)
    (hfull : body.Full) : propPatchOf lib request = body.patch := by
  refine PropPatch.ext_valueIn fun property => ?_
  have hassigned : ∀ item ∈ body.items, item.assigned? ≠ none := by
    intro item hitem
    obtain ⟨property, value, selfClosing, rfl, -⟩ := hfull item hitem
    exact Option.some_ne_none property
  rw [valueIn_propPatchOf hbody hread hsize hassigned, PropertyUpdate.valueIn_patch]
  exact UpdateItem.findSome?_scanned property hfull

/-- A body that is too long is read as an empty one, and nothing is found. -/
theorem valueIn_tooLong (hempty : lib.readXml ByteArray.empty = [])
    (hsize : ¬ request.body.size ≤ 64 * 1024) (property : Settable) :
    property.valueIn (propPatchOf lib request) = none := by
  have hbytes : (String.fromUtf8Lossy ByteArray.empty).toUTF8 = ByteArray.empty := rfl
  rw [valueIn_scan]
  unfold extractXmlValue Request.bodyUpTo
  rw [if_neg hsize, hbytes, hempty]
  rfl

end

/-- **PROPPATCH.** For every calendar and every body that can be read, the row has the assigned
    values and the answer names every property of the body exactly when the body is not too long
    and has none but the settable properties, each with a value that is not empty. -/
theorem updates_iff (env : Env) (lib : Lib) (hempty : lib.readXml ByteArray.empty = [])
    (w : World) (user : User) (hrefCtx : Option HrefContext) (calendarId : String) (r : Calendar)
    (hr : w.db.calendarById calendarId = some r) (body : PropertyUpdate) (text : String)
    (hread : lib.readXml text.toUTF8 = body.events) (request : Request)
    (hbody : request.body = text.toUTF8) :
    Updates r body calendarId
        ((handleProppatch lib user hrefCtx calendarId request).run (exec env) w) ↔
      body.Full ∧ text.toUTF8.size ≤ 64 * 1024 := by
  rw [handleProppatch_run env lib user hrefCtx request hr]
  have hreply : ∀ doc, buildResponse 207 [("content-type", "application/xml; charset=utf-8")]
      (.multistatus doc) = .response ⟨207,
        [("content-type", "application/xml; charset=utf-8")], .multistatus doc⟩ := by
    intro doc
    exact if_pos (by decide)
  rw [hreply]
  constructor
  · rintro ⟨-, -, doc, hdoc, hnamed⟩
    obtain rfl := Option.some.inj hdoc
    -- what is mentioned was found
    have hfound : ∀ item ∈ body.items, ∃ property : Settable, item.prop = property.prop ∧
        (property.valueIn (propPatchOf lib request)).isSome := by
      intro item hitem
      exact (confirms_found_iff _ _).mp ((mentions_found_iff _ _).mp (hnamed item hitem).1)
    have hassigned : ∀ item ∈ body.items, item.assigned? ≠ none := by
      intro item hitem hnone
      obtain ⟨property, hprop, -⟩ := hfound item hitem
      exact body.apart item hitem hnone property hprop
    have hsize : text.toUTF8.size ≤ 64 * 1024 := by
      by_contra hsize
      obtain ⟨property, hproperty⟩ := List.exists_mem_of_ne_nil _ body.assigns
      obtain ⟨item, hitem, -⟩ := List.mem_filterMap.mp hproperty
      obtain ⟨property, -, hsome⟩ := hfound item hitem
      rw [valueIn_tooLong hempty (hbody ▸ hsize)] at hsome
      cases hsome
    refine ⟨fun item hitem => ?_, hsize⟩
    cases item with
    | further prop selfClosing content => exact absurd rfl (hassigned _ hitem)
    | assign property value selfClosing =>
      refine ⟨property, value, selfClosing, rfl, ?_⟩
      rintro rfl
      obtain ⟨property', hprop, hsome⟩ := hfound _ hitem
      obtain rfl := Settable.prop_inj hprop
      rw [valueIn_of_mem hbody hread hsize hassigned hitem, if_pos rfl] at hsome
      cases hsome
  · rintro ⟨hfull, hsize⟩
    rw [propPatchOf_full hbody hread hsize hfull]
    refine ⟨rfl, ?_, _, rfl, fun item hitem => ?_⟩
    · rw [World.after_tables, PropPatch.statement_row _ hr, if_pos rfl]
    · obtain ⟨property, value, selfClosing, rfl, -⟩ := hfull item hitem
      have hvalue : property.valueIn body.patch = some value := by
        rw [PropertyUpdate.valueIn_patch, PropertyUpdate.value?_of_mem hitem]
      have hconfirms := (confirms_found_iff (calendarHrefForContext (contextOf user hrefCtx) r.id)
        property.prop).mpr ⟨property, rfl, Option.isSome_of_eq_some hvalue⟩
      have hstored : (UpdateItem.assign property value selfClosing).StoredIn
          (body.patch.apply r) := by
        show property.column (body.patch.apply r) = value
        rw [column_apply, hvalue]
        rfl
      exact ⟨Or.inl hconfirms, iff_of_true hconfirms hstored⟩

/-! ### Alice names her calendar -/

/-- A reader that knows one body. -/
def updateLib (body : PropertyUpdate) : Lib :=
  { sampleLib with
    readXml := fun bytes =>
      if bytes = (written body.events).toUTF8 then body.events else [] }

theorem updateLib_reads (body : PropertyUpdate) :
    (updateLib body).readXml (written body.events).toUTF8 = body.events := if_pos rfl

theorem updateLib_empty (body : PropertyUpdate) :
    (updateLib body).readXml ByteArray.empty = [] := by
  refine if_neg fun h => written_isEmpty _ _ _ (?_ : (written body.events).toUTF8.isEmpty)
  rw [← h]
  rfl

/-- Prefixes as in the documentation. -/
def usualDeclarations : Declarations where
  namespaces := [davNs, caldavNs, appleNs]
  prefixOf ns := if ns = davNs then "D" else if ns = caldavNs then "C" else "A"
  apart := by decide
  plain := by decide

/-- A name with markup in it, and a colour. -/
def teamUpdate : PropertyUpdate where
  declarations := usualDeclarations
  items := [.assign .displayname "R&D <team>" false, .assign .calendarColor "#27AE60" false]
  dav := by decide
  names := by
    intro item hitem
    rcases List.mem_cons.mp hitem with rfl | hitem
    · decide
    · rw [List.mem_singleton.mp hitem]
      decide
  assigns := List.cons_ne_nil _ _
  once := by decide
  apart := by
    intro item hitem hnone
    rcases List.mem_cons.mp hitem with rfl | hitem
    · cases hnone
    · rw [List.mem_singleton.mp hitem] at hnone
      cases hnone

theorem updates_iff_team : Updates workCalendar teamUpdate "work"
    ((handleProppatch (updateLib teamUpdate) alice none "work"
      ⟨"PROPPATCH", [], (written teamUpdate.events).toUTF8⟩).run (exec countingEnv)
      foundedWorld) := by
  refine (updates_iff countingEnv (updateLib teamUpdate) (updateLib_empty _) foundedWorld alice
    none "work" workCalendar rfl teamUpdate (written teamUpdate.events) (updateLib_reads _) _
    rfl).mpr ⟨fun item hitem => ?_, by decide +kernel⟩
  rcases List.mem_cons.mp hitem with rfl | hitem
  · exact ⟨_, _, _, rfl, by decide⟩
  · rw [List.mem_singleton.mp hitem]
    exact ⟨_, _, _, rfl, by decide⟩

/-- No name at all. -/
def namelessUpdate : PropertyUpdate where
  declarations := usualDeclarations
  items := [.assign .displayname "" false]
  dav := by decide
  names := by
    intro item hitem
    rw [List.mem_singleton.mp hitem]
    decide
  assigns := List.cons_ne_nil _ _
  once := by decide
  apart := by
    intro item hitem hnone
    rw [List.mem_singleton.mp hitem] at hnone
    cases hnone

/-- An empty name is neither stored nor answered. -/
theorem empty_name_ignored : ¬ ∀ (env : Env) (lib : Lib), lib.readXml ByteArray.empty = [] →
    ∀ (w : World) (user : User) (hrefCtx : Option HrefContext) (calendarId : String)
      (r : Calendar), w.db.calendarById calendarId = some r → ∀ (body : PropertyUpdate)
      (text : String), lib.readXml text.toUTF8 = body.events → ∀ request : Request,
      request.body = text.toUTF8 → Updates r body calendarId
        ((handleProppatch lib user hrefCtx calendarId request).run (exec env) w) := by
  intro h
  have hrow := (h countingEnv (updateLib namelessUpdate) (updateLib_empty _) foundedWorld alice
    none "work" workCalendar rfl namelessUpdate (written namelessUpdate.events)
    (updateLib_reads _) ⟨"PROPPATCH", [], (written namelessUpdate.events).toUTF8⟩ rfl).row
  have hpatch : propPatchOf (updateLib namelessUpdate)
      ⟨"PROPPATCH", [], (written namelessUpdate.events).toUTF8⟩ = ⟨none, none, none⟩ := by
    refine PropPatch.ext_valueIn fun property => ?_
    rw [@valueIn_propPatchOf namelessUpdate _ _ _ rfl (updateLib_reads _)
      (by decide +kernel) fun item hitem => ?_]
    · cases property <;> rfl
    · rw [List.mem_singleton.mp hitem]
      exact Option.some_ne_none _
  have hr : foundedWorld.db.calendarById "work" = some workCalendar := rfl
  rw [handleProppatch_run _ _ _ _ _ hr, hpatch] at hrow
  dsimp only at hrow
  rw [World.after_tables, PropPatch.statement_row _ hr, if_pos rfl] at hrow
  exact absurd (congrArg Calendar.name (Option.some.inj hrow)) (by decide)

end CaldavMcp
