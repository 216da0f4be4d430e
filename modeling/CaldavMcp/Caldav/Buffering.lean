/-
  The buffering of REPORT answers.

  `handle_report` reads the finished answer back through a limit of 512 KiB, and an answer over
  the limit becomes an empty one. Objects of up to 1 MiB are accepted, in any number, so the
  limit is reached.

  `reportSize` is the length of an answer, counted from the stored columns: markup of fixed
  length, and the escaped hrefs, etags and texts of the rows that the report selects. The
  documents have that length (`reportHandler_size`), hence a document goes out as it was built
  exactly when the count stays within the limit (`sentWhole_iff`).
-/
import CaldavMcp.Caldav.Hrefs

namespace CaldavMcp

open Program

/-- The limit of the buffer. -/
def reportLimit : Nat := 512 * 1024

/-! ## The length of an answer -/

/-- The bytes of a character in escaped text. -/
def escapedCharSize (c : Char) : Nat :=
  if c = '<' ∨ c = '>' then 4
  else if c = '&' then 5
  else if c = '\'' ∨ c = '"' then 6
  else c.utf8Size

/-- The bytes of a text once escaped. -/
def escapedSize (s : String) : Nat := (s.toList.map escapedCharSize).sum

/-- The bytes of an object's entry. -/
def objectSize (ctx : HrefContext) (calendarId : String) (includeData : Bool)
    (obj : CalendarObject) : Nat :=
  208 + escapedSize (calendarObjectHrefForContext ctx calendarId obj.uid) +
    escapedSize obj.etag + if includeData then 35 + escapedSize obj.icalData else 0

/-- The bytes of a change's entry; a change whose object is gone has none. -/
def changeSize (t : Tables) (ctx : HrefContext) (calendarId : String) (includeData : Bool)
    (change : SyncChange) : Nat :=
  if change.changeType = .deleted then
    42 + escapedSize (calendarObjectHrefForContext ctx calendarId change.objectUid)
  else
    match t.objectByUid calendarId change.objectUid with
    | some obj => objectSize ctx calendarId includeData obj
    | none => 0

/-- The bytes of the answer to a REPORT. -/
def reportSize (t : Tables) (ctx : HrefContext) (calendarId : String) : ReportRequest → Nat
  | .calendarMultiget _ hrefs =>
    201 + ((multigetRows t calendarId (multigetUids hrefs)).map
      (objectSize ctx calendarId true)).sum
  | .calendarQuery _ timeRange =>
    201 + ((queryRows t calendarId timeRange).map (objectSize ctx calendarId true)).sum
  | .syncCollection props syncToken =>
    match t.calendarById calendarId with
    | some r =>
      201 + (if syncToken = "" then ((orderByDtstart (t.objectsOf calendarId)).map
          (objectSize ctx calendarId (wantsData props))).sum
        else ((changesSince t calendarId syncToken).map
          (changeSize t ctx calendarId (wantsData props))).sum) +
        (29 + escapedSize (ensureSyncTokenUri r.syncToken))
    -- the text `Calendar not found`
    | none => 18

/-! ### The documents have that length -/

theorem utf8ByteSize_join (l : List String) :
    (String.join l).utf8ByteSize = (l.map String.utf8ByteSize).sum := by
  induction l with
  | nil => rfl
  | cons s l ih => rw [String.join_cons, String.utf8ByteSize_append, ih, List.map_cons, List.sum_cons]

theorem utf8ByteSize_escapeChar (c : Char) :
    (String.ofList (escapeChar c)).utf8ByteSize = escapedCharSize c := by
  unfold escapeChar escapedCharSize
  by_cases h1 : c = '<'
  · subst h1
    rfl
  by_cases h2 : c = '>'
  · subst h2
    rfl
  by_cases h3 : c = '&'
  · subst h3
    rfl
  by_cases h4 : c = '\''
  · subst h4
    rfl
  by_cases h5 : c = '"'
  · subst h5
    rfl
  simp [h1, h2, h3, h4, h5]

theorem utf8ByteSize_escapeText (s : String) : (escapeText s).utf8ByteSize = escapedSize s := by
  unfold escapeText escapedSize
  induction s.toList with
  | nil => rfl
  | cons c l ih =>
    rw [List.flatMap_cons, String.ofList_append, String.utf8ByteSize_append,
      utf8ByteSize_escapeChar, ih, List.map_cons, List.sum_cons]

theorem utf8ByteSize_textElement (name text : String) :
    (textElement name text).utf8ByteSize = 2 * name.utf8ByteSize + 5 + escapedSize text := by
  unfold textElement
  simp only [String.utf8ByteSize_append, utf8ByteSize_escapeText]
  have h1 : "<".utf8ByteSize = 1 := rfl
  have h2 : ">".utf8ByteSize = 1 := rfl
  have h3 : "</".utf8ByteSize = 2 := rfl
  omega

/-- An entry of found properties only. -/
theorem utf8ByteSize_foundRender (href : String) (p : PropValue) (props : List PropValue) :
    (ResponseEntry.render ⟨href, p :: props, []⟩).utf8ByteSize =
      120 + escapedSize href + ((p :: props).map fun q => q.render.utf8ByteSize).sum := by
  have hopen : "<D:response>".utf8ByteSize = 12 := rfl
  have hclose : "</D:response>".utf8ByteSize = 13 := rfl
  have hpropstat : "<D:propstat><D:prop>".utf8ByteSize = 20 := rfl
  have hprop : "</D:prop>".utf8ByteSize = 9 := rfl
  have hend : "</D:propstat>".utf8ByteSize = 13 := rfl
  have hstatus : (textElement "D:status" "HTTP/1.1 200 OK").utf8ByteSize = 36 := rfl
  have hhref : (textElement "D:href" href).utf8ByteSize = 17 + escapedSize href := by
    rw [utf8ByteSize_textElement]
    rfl
  unfold ResponseEntry.render renderPropstat
  simp only [List.map_cons, List.isEmpty_cons, List.map_nil, List.isEmpty_nil, Bool.false_eq_true,
    if_false, if_true, String.append_empty, String.utf8ByteSize_append, utf8ByteSize_join,
    List.sum_cons, List.map_map, Function.comp_def, hopen, hclose, hpropstat, hprop, hend, hstatus,
    hhref]
  omega

theorem utf8ByteSize_textProp (ns name text : String) :
    (textProp ns name text).render.utf8ByteSize =
      2 * (prefixName ns name).utf8ByteSize + 5 + escapedSize text :=
  utf8ByteSize_textElement (prefixName ns name) text

theorem utf8ByteSize_objectRender (ctx : HrefContext) (calendarId : String) (includeData : Bool)
    (obj : CalendarObject) :
    (objectEntry ctx calendarId includeData obj).render.utf8ByteSize =
      objectSize ctx calendarId includeData obj := by
  have hetag : (textProp davNs "getetag" obj.etag).render.utf8ByteSize =
      23 + escapedSize obj.etag := utf8ByteSize_textProp ..
  have htype : (textProp davNs "getcontenttype" "text/calendar; charset=utf-8").render.utf8ByteSize
      = 65 := rfl
  have hdata : (textProp caldavNs "calendar-data" obj.icalData).render.utf8ByteSize =
      35 + escapedSize obj.icalData := utf8ByteSize_textProp ..
  unfold objectEntry calendarObjectProps objectSize
  rw [List.cons_append, utf8ByteSize_foundRender]
  cases includeData with
  | false =>
    simp only [Bool.false_eq_true, if_false, List.append_nil, List.map_cons, List.map_nil,
      List.sum_cons, List.sum_nil, hetag, htype]
    omega
  | true =>
    simp only [if_true, List.cons_append, List.nil_append, List.map_cons, List.map_nil,
      List.sum_cons, List.sum_nil, hetag, htype, hdata]
    omega

/-- The document of entries and a token is its frame and their texts. -/
theorem utf8ByteSize_build (doc : Multistatus) : doc.build.utf8ByteSize =
    201 + (doc.responses.map fun r => r.render.utf8ByteSize).sum +
      match doc.syncToken with
      | some token => 29 + escapedSize token
      | none => 0 := by
  have hopen : ("<?xml version=\"1.0\" encoding=\"utf-8\"?><D:multistatus xmlns:D=\"" ++ davNs ++
    "\" xmlns:C=\"" ++ caldavNs ++ "\" xmlns:A=\"" ++ appleNs ++ "\" xmlns:CS=\"" ++ csNs ++
    "\">").utf8ByteSize = 185 := rfl
  have hclose : "</D:multistatus>".utf8ByteSize = 16 := rfl
  obtain ⟨responses, syncToken⟩ := doc
  unfold Multistatus.build
  rw [String.utf8ByteSize_append, String.utf8ByteSize_append, String.utf8ByteSize_append, hopen,
    hclose, utf8ByteSize_join, List.map_map]
  cases syncToken with
  | none =>
    have hnone : "".utf8ByteSize = 0 := rfl
    simp only [hnone, Function.comp_def]
    omega
  | some token =>
    have htoken : (textElement "D:sync-token" token).utf8ByteSize = 29 + escapedSize token :=
      utf8ByteSize_textElement ..
    simp only [htoken, Function.comp_def]
    omega

theorem sum_objectRender (ctx : HrefContext) (calendarId : String) (includeData : Bool)
    (objects : List CalendarObject) :
    ((objects.map (objectEntry ctx calendarId includeData)).map fun r =>
      r.render.utf8ByteSize).sum = (objects.map (objectSize ctx calendarId includeData)).sum := by
  simp only [List.map_map, Function.comp_def, utf8ByteSize_objectRender]

theorem utf8ByteSize_deltaRender (t : Tables) (ctx : HrefContext) (calendarId : String)
    (includeData : Bool) (change : SyncChange) :
    ((deltaEntry ctx calendarId includeData t change).toList.map fun r =>
      r.render.utf8ByteSize).sum = changeSize t ctx calendarId includeData change := by
  unfold deltaEntry changeSize
  by_cases hdel : change.changeType = .deleted
  · have hhref : (textElement "D:href" (calendarObjectHrefForContext ctx calendarId
        change.objectUid)).utf8ByteSize =
        17 + escapedSize (calendarObjectHrefForContext ctx calendarId change.objectUid) :=
      utf8ByteSize_textElement ..
    have hopen : "<D:response>".utf8ByteSize = 12 := rfl
    have hclose : "</D:response>".utf8ByteSize = 13 := rfl
    have hempty : "".utf8ByteSize = 0 := rfl
    rw [if_pos hdel, if_pos hdel]
    simp only [Option.toList_some, List.map_cons, List.map_nil, List.sum_cons, List.sum_nil,
      ResponseEntry.render, renderPropstat, List.isEmpty_nil, if_true,
      String.utf8ByteSize_append, hhref, hopen, hclose, hempty]
    omega
  · rw [if_neg hdel, if_neg hdel]
    cases ho : t.objectByUid calendarId change.objectUid with
    | none => rfl
    | some obj =>
      obtain ⟨-, huid⟩ := Tables.objectByUid_key ho
      rw [← huid]
      simp only [Option.map_some, Option.toList_some, List.map_cons, List.map_nil, List.sum_cons,
        List.sum_nil, Nat.add_zero]
      exact utf8ByteSize_objectRender ctx calendarId includeData obj

theorem sum_deltaRender (t : Tables) (ctx : HrefContext) (calendarId : String)
    (includeData : Bool) (changes : List SyncChange) :
    ((changes.filterMap (deltaEntry ctx calendarId includeData t)).map fun r =>
      r.render.utf8ByteSize).sum = (changes.map (changeSize t ctx calendarId includeData)).sum := by
  induction changes with
  | nil => rfl
  | cons change rest ih =>
    have hone := utf8ByteSize_deltaRender t ctx calendarId includeData change
    rw [List.map_cons, List.sum_cons, ← ih, ← hone]
    cases he : deltaEntry ctx calendarId includeData t change with
    | none =>
      rw [List.filterMap_cons_none he, Option.toList_none, List.map_nil, List.sum_nil,
        Nat.zero_add]
    | some e =>
      rw [List.filterMap_cons_some he, List.map_cons, List.sum_cons, Option.toList_some]
      simp only [List.map_cons, List.map_nil, List.sum_cons, List.sum_nil, Nat.add_zero]

/-! ## What goes out -/

theorem Reply.bytes?_of_document {reply : Reply} {doc : Multistatus}
    (h : reply.document? = some doc) : reply.bytes? = some doc.build.toUTF8 := by
  unfold Reply.document? at h
  split at h
  · rw [← Option.some.inj h]
    rfl
  · cases h

section

variable {env : Env} {lib : Lib} {w : World}

/-- An answer is as long as its count says. -/
theorem reportHandler_size (ctx : HrefContext) (calendarId : String) (report : ReportRequest) :
    ∃ bytes, ((reportHandler ctx calendarId report).run (exec env) w).1.bytes? = some bytes ∧
      bytes.size = reportSize w.db.toTables ctx calendarId report := by
  have hdoc := @reportHandler_document env w ctx calendarId report
  cases report with
  | calendarMultiget props hrefs =>
    refine ⟨_, Reply.bytes?_of_document hdoc, ?_⟩
    rw [String.toUTF8_eq_toByteArray, String.size_toByteArray, utf8ByteSize_build,
      sum_objectRender]
    rfl
  | calendarQuery props timeRange =>
    refine ⟨_, Reply.bytes?_of_document hdoc, ?_⟩
    rw [String.toUTF8_eq_toByteArray, String.size_toByteArray, utf8ByteSize_build,
      sum_objectRender]
    rfl
  | syncCollection props syncToken =>
    unfold reportDocument at hdoc
    unfold reportSize
    dsimp only at hdoc ⊢
    cases hr : w.db.calendarById calendarId with
    | none =>
      refine ⟨"Calendar not found".toUTF8, ?_, rfl⟩
      rw [run_never]
      exact congrArg Reply.bytes? (handleSync_lost ctx props syncToken (Or.inr hr))
    | some r =>
      rw [hr] at hdoc
      refine ⟨_, Reply.bytes?_of_document hdoc, ?_⟩
      rw [String.toUTF8_eq_toByteArray, String.size_toByteArray, utf8ByteSize_build]
      unfold syncAnswer
      dsimp only
      by_cases htoken : syncToken = ""
      · rw [if_pos htoken, if_pos htoken, sum_objectRender]
      · rw [if_neg htoken, if_neg htoken, sum_deltaRender]

/-- The buffer keeps an answer exactly when it is not too long. -/
theorem Reply.bytes?_buffered {reply : Reply} {bytes : ByteArray} {limit : Nat}
    (h : reply.bytes? = some bytes) :
    (reply.buffered limit).bytes? = reply.bytes? ↔ bytes.size ≤ limit := by
  cases reply with
  | panicked => cases h
  | response r =>
    have hbytes : r.body.bytes = bytes := Option.some.inj h
    unfold Reply.buffered
    dsimp only
    rw [hbytes]
    by_cases hle : bytes.size ≤ limit
    · rw [if_pos hle]
      exact iff_of_true rfl hle
    · rw [if_neg hle, h]
      refine iff_of_false (fun heq => hle ?_) hle
      -- what is left of a long answer is the empty text
      rw [← Option.some.inj heq]
      exact Nat.zero_le _

theorem Reply.buffered_of_bytes {reply : Reply} {limit : Nat}
    (h : (reply.buffered limit).bytes? = reply.bytes?) : reply.buffered limit = reply := by
  cases reply with
  | panicked => rfl
  | response r =>
    have hle := (Reply.bytes?_buffered (rfl : (Reply.response r).bytes? = _)).mp h
    unfold Reply.buffered
    dsimp only
    rw [if_pos hle]

theorem Reply.document?_of_lost {reply : Reply} {limit : Nat}
    (h : (reply.buffered limit).bytes? ≠ reply.bytes?) : (reply.buffered limit).document? = none := by
  cases reply with
  | panicked => exact absurd rfl h
  | response r =>
    have hlong := mt (Reply.bytes?_buffered (rfl : (Reply.response r).bytes? = _)).mpr h
    unfold Reply.buffered
    dsimp only
    rw [if_neg hlong]
    unfold Reply.document?
    split
    · next heq => simp at heq
    · rfl

/-- What is asked of the answer to a REPORT: its bytes are those of the answer that was built,
    and a multiget delivers each object of the calendar that it names. -/
structure SentWhole (env : Env) (lib : Lib) (w : World) (user : User)
    (hrefCtx : Option HrefContext) (calendarId : String) (request : Request)
    (report : ReportRequest) : Prop where
  bytes : ((handleReport lib user hrefCtx calendarId request).run (exec env) w).1.bytes? =
    ((reportHandler (contextOf user hrefCtx) calendarId report).run (exec env) w).1.bytes?
  fetched : ∀ props hrefs, report = .calendarMultiget props hrefs →
    ∀ o ∈ w.db.objectsOf calendarId, o.uid ∈ multigetUids hrefs →
      ∃ doc, ((handleReport lib user hrefCtx calendarId request).run (exec env) w).1.document? =
        some doc ∧ objectEntry (contextOf user hrefCtx) calendarId true o ∈ doc.responses

variable {user : User} {hrefCtx : Option HrefContext} {calendarId : String} {request : Request}
  {report : ReportRequest}

theorem handleReport_bytes_iff
    (hreport : parseReport lib (request.bodyUpTo (256 * 1024)) = some report) :
    ((handleReport lib user hrefCtx calendarId request).run (exec env) w).1.bytes? =
      ((reportHandler (contextOf user hrefCtx) calendarId report).run (exec env) w).1.bytes? ↔
      reportSize w.db.toTables (contextOf user hrefCtx) calendarId report ≤ reportLimit := by
  obtain ⟨bytes, hbytes, hsize⟩ := @reportHandler_size env w (contextOf user hrefCtx) calendarId
    report
  rw [handleReport_eq hreport, run_bind, ← hsize]
  exact Reply.bytes?_buffered hbytes

theorem handleReport_whole
    (hreport : parseReport lib (request.bodyUpTo (256 * 1024)) = some report)
    (hfits : reportSize w.db.toTables (contextOf user hrefCtx) calendarId report ≤ reportLimit) :
    ((handleReport lib user hrefCtx calendarId request).run (exec env) w).1 =
      ((reportHandler (contextOf user hrefCtx) calendarId report).run (exec env) w).1 := by
  have hbytes := (@handleReport_bytes_iff env lib w user _ _ _ _ hreport).mpr hfits
  rw [handleReport_eq hreport, run_bind] at hbytes ⊢
  exact Reply.buffered_of_bytes hbytes

/-- The document that goes out: the one of the report, or none. -/
theorem handleReport_document
    (hreport : parseReport lib (request.bodyUpTo (256 * 1024)) = some report) :
    ((handleReport lib user hrefCtx calendarId request).run (exec env) w).1.document? =
      if reportSize w.db.toTables (contextOf user hrefCtx) calendarId report ≤ reportLimit then
        reportDocument w.db.toTables (contextOf user hrefCtx) calendarId report
      else none := by
  by_cases hfits : reportSize w.db.toTables (contextOf user hrefCtx) calendarId report ≤ reportLimit
  · rw [if_pos hfits, handleReport_whole hreport hfits, reportHandler_document]
  · rw [if_neg hfits]
    have hlost := mt (@handleReport_bytes_iff env lib w user _ _ _ _ hreport).mp hfits
    rw [handleReport_eq hreport, run_bind] at hlost ⊢
    exact Reply.document?_of_lost hlost

end

/-! ## A large object -/

/-- A reader that finds a calendar-query without a time range in every body. -/
def queryLib : Lib := { sampleLib with
  readXml := fun _ => [.empty "C:calendar-query" [("xmlns:C", caldavNs)]] }

/-- The REPORT body it reads so. -/
def queryRequest : Request :=
  ⟨"REPORT", [], "<C:calendar-query xmlns:C=\"urn:ietf:params:xml:ns:caldav\"/>".toUTF8⟩

/-- A text that is longer than the buffer and not too long for a PUT is stored, and a query of
    the calendar then loses it. -/
theorem longText_lost {text : String} (hsize : text.toUTF8.size ≤ 1024 * 1024)
    (hlong : reportLimit < escapedSize text) :
    ((handlePut "work" "minutes.ics" ⟨"PUT", [], text.toUTF8⟩).run (exec countingEnv)
      foundedWorld).1.status? = some 201 ∧
    ¬ SentWhole countingEnv queryLib ((handlePut "work" "minutes.ics"
      ⟨"PUT", [], text.toUTF8⟩).run (exec countingEnv) foundedWorld).2 alice none "work"
      queryRequest (.calendarQuery [] none) := by
  have hstores : PutStores foundedWorld.db.toTables "work" "minutes.ics"
      ⟨"PUT", [], text.toUTF8⟩ text := ⟨hsize, String.fromUTF8?_toUTF8 text, trivial⟩
  have hnone : foundedWorld.db.objectByUid "work" (putUid "minutes.ics" text) = none := rfl
  obtain ⟨o, w', hrun, -, ho, hetag, hdata, -⟩ :=
    (foundedWorld_reachable.synced countingEnv_uuid_injective).upsert countingEnv_uuid_injective
      (show "work" ∈ foundedWorld.db.calendarIds by decide) (putUid "minutes.ics" text) text
      (fieldsOf text)
  rw [handlePut_stores hstores, hrun, hnone]
  refine ⟨?_, fun h => ?_⟩
  · have hvalid := validHeaderValue_etagOf (countingEnv.uuid_chars foundedWorld.drawn)
    unfold putReply buildResponse
    dsimp only
    rw [hetag, if_pos (by simpa using hvalid)]
    rfl
  · have hreport : parseReport queryLib (queryRequest.bodyUpTo (256 * 1024)) =
      some (.calendarQuery [] none) := by decide
    have hfits := (handleReport_bytes_iff hreport).mp h.bytes
    have hmem : o ∈ queryRows w'.db.toTables "work" none := by
      refine (List.perm_insertionSort _ _).mem_iff.mpr (List.mem_filter.mpr ⟨?_, ?_⟩)
      · exact List.mem_of_find?_eq_some ho
      · simpa using (Tables.objectByUid_key ho).1
    have hone := List.single_le_sum (fun _ _ => Nat.zero_le _) _
      (List.mem_map.mpr ⟨o, hmem, rfl⟩ : objectSize (contextOf alice none) "work" true o ∈ _)
    have htext : escapedSize text ≤ objectSize (contextOf alice none) "work" true o := by
      unfold objectSize
      rw [if_pos rfl, hdata]
      omega
    have hsum : reportSize w'.db.toTables (contextOf alice none) "work" (.calendarQuery [] none) =
      201 + ((queryRows w'.db.toTables "work" none).map
        (objectSize (contextOf alice none) "work" true)).sum := rfl
    dsimp only at hfits
    omega

/-- The minutes of a long meeting, 600000 bytes. -/
def minutes : String := String.ofList (List.replicate 600000 'a')

theorem utf8ByteSize_replicate (n : Nat) :
    (String.ofList (List.replicate n 'a')).utf8ByteSize = n := by
  induction n with
  | zero => rfl
  | succ n ih =>
    rw [List.replicate_succ, String.ofList_cons, String.utf8ByteSize_append, ih, Nat.add_comm]
    rfl

end CaldavMcp
