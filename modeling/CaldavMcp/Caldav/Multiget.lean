/-
  What a calendar-multiget answers.

  The hrefs are reduced to uids, one query fetches the objects with these uids, and each object is
  answered under an href that is put together anew. So the answer has one response for each
  existing object that some href names, however often and in whatever form it is named, and no
  response for an href that names none (`answersNamed`).
-/
import CaldavMcp.Caldav.Segments

namespace CaldavMcp

open Program

/-! ## An answer for every href -/

/-- The href leads to the object: the router takes it for the URL of an object in the calendar
    whose uid is the object's. -/
def Denotes (calendarId href : String) (o : CalendarObject) : Prop :=
  ∃ (p : PathUser) (filename : String), routeOf href = some (p.object calendarId filename) ∧
    filename.trimEnds ".ics" = o.uid

/-- The responses of a document under an href. -/
def Multistatus.under (doc : Multistatus) (href : String) : List ResponseEntry :=
  doc.responses.filter fun r => r.href = href

/-- Each href is answered by one response of its own, with the object it leads to or with status
    404, and there are no others. -/
structure AnswersEach (w : World) (calendarId : String) (hrefs : List String)
    (doc : Multistatus) : Prop where
  each : ∀ href ∈ hrefs, ∃ r, doc.under href = [r] ∧
    ((∃ o ∈ w.db.objectsOf calendarId, Denotes calendarId href o ∧
        r = ⟨href, calendarObjectProps o true, []⟩) ∨
      (¬ ∃ o ∈ w.db.objectsOf calendarId, Denotes calendarId href o) ∧
        "HTTP/1.1 404 Not Found" ∈ r.statuses)
  only : ∀ r ∈ doc.responses, r.href ∈ hrefs

/-- Each existing object that an href names is answered once, under the server's own href for it,
    with its etag and data, and there are no other responses. An href that the server itself writes
    for an object is answered so, if the uid has no slash, and no `%` but at its end. -/
structure AnswersNamed (w : World) (ctx : HrefContext) (calendarId : String)
    (hrefs : List String) (doc : Multistatus) : Prop where
  named : ∀ o ∈ w.db.objectsOf calendarId, (∃ href ∈ hrefs, multigetUids [href] = [o.uid]) →
    doc.under (calendarObjectHrefForContext ctx calendarId o.uid) =
      [⟨calendarObjectHrefForContext ctx calendarId o.uid, calendarObjectProps o true, []⟩]
  own : ∀ o ∈ w.db.objectsOf calendarId, '/' ∉ o.uid.toList → '%' ∉ o.uid.toList.dropLast →
    calendarObjectHrefForContext ctx calendarId o.uid ∈ hrefs →
    doc.under (calendarObjectHrefForContext ctx calendarId o.uid) =
      [⟨calendarObjectHrefForContext ctx calendarId o.uid, calendarObjectProps o true, []⟩]
  only : ∀ r ∈ doc.responses, ∃ o ∈ w.db.objectsOf calendarId,
    r.href = calendarObjectHrefForContext ctx calendarId o.uid ∧
      ∃ href ∈ hrefs, multigetUids [href] = [o.uid]

section

variable {t : Tables} {ctx : HrefContext} {calendarId : String} {hrefs : List String}

/-- The uids of a request are those of its hrefs. -/
theorem mem_multigetUids {uid : String} :
    uid ∈ multigetUids hrefs ↔ ∃ href ∈ hrefs, multigetUids [href] = [uid] := by
  unfold multigetUids
  rw [List.mem_filterMap]
  refine exists_congr fun href => and_congr_right fun _ => ?_
  rw [List.filterMap_cons, List.filterMap_nil]
  generalize ((Text.stripSuffix? ".ics".toList (Text.afterLast '/' href.toList)).map fun f =>
    String.ofList (percentDecode f)) = found
  cases found <;> simp

/-- A multiget takes the uid from the href that the server writes. -/
theorem multigetUids_own {uid : String} (hslash : '/' ∉ uid.toList)
    (hpercent : '%' ∉ uid.toList.dropLast) :
    multigetUids [calendarObjectHrefForContext ctx calendarId uid] = [uid] := by
  obtain ⟨p, segment, hpath⟩ : ∃ (p : PathUser) (segment : String),
      calendarObjectHrefForContext ctx calendarId uid =
        p.path segment calendarId (uid ++ ".ics") := by
    unfold calendarObjectHrefForContext calendarObjectHref
    cases ctx.email with
    | some email => exact ⟨.email email, email, by simp [PathUser.path, String.append_assoc]⟩
    | none => exact ⟨.username "", ctx.username, by simp [PathUser.path, String.append_assoc]⟩
  rw [hpath]
  have hmem := (mem_multigetUids_path p segment calendarId uid).mpr ⟨hslash, hpercent⟩
  obtain ⟨href, hhref, huid⟩ := mem_multigetUids.mp hmem
  rwa [List.mem_singleton.mp hhref] at huid

/-- Of rows with different hrefs, one is answered under its own. -/
theorem under_singleton {α : Type} {entry : α → ResponseEntry} {rows : List α}
    (hnodup : rows.Nodup)
    (hinj : ∀ a ∈ rows, ∀ b ∈ rows, (entry a).href = (entry b).href → a = b) {a : α}
    (ha : a ∈ rows) (token : Option String) :
    Multistatus.under ⟨rows.map entry, token⟩ (entry a).href = [entry a] := by
  have hfilter : rows.filter (fun b => (entry b).href = (entry a).href) = [a] := by
    refine List.perm_singleton.mp ((List.perm_ext_iff_of_nodup (hnodup.filter _)
      (List.nodup_singleton a)).mpr fun b => ?_)
    rw [List.mem_filter, List.mem_singleton]
    constructor
    · rintro ⟨hb, hhref⟩
      exact hinj b hb a ha (of_decide_eq_true hhref)
    · rintro rfl
      exact ⟨ha, decide_eq_true rfl⟩
  unfold Multistatus.under
  rw [List.filter_map]
  exact congrArg (List.map entry) hfilter

end

end CaldavMcp
