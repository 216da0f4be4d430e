/-
  What If-Match asks for, and what a PUT makes of it.

  The header is `*` or a list of entity tags. The handler takes `*` for no condition at all, and
  compares any other value as a whole with the ETag of the object that the body's uid selects.
  A stored ETag is a quoted Uuid, in which there is no comma, so it is a whole value exactly when
  it is the list's only tag (`value_eq_iff`). So a PUT is stored when the header is `*`, or the
  object exists and its ETag is the only one listed (`put_decided`).
-/
import CaldavMcp.Caldav.Hrefs
import CaldavMcp.Utf8

namespace CaldavMcp

open Program Utf8

/-! ## The header -/

/-- A visible character of ASCII, or a blank. -/
def IsPlain (c : Char) : Prop := c = '\t' ∨ 32 ≤ c.toNat ∧ c.toNat < 127

/-- An entity tag: visible characters in quotes, after a `W/` if it is weak. -/
structure EntityTag where
  weak : Bool
  inner : List Char
  visible : ∀ c ∈ inner, c = '!' ∨ 35 ≤ c.toNat ∧ c.toNat < 127

def EntityTag.chars (tag : EntityTag) : List Char :=
  (if tag.weak then ['W', '/'] else []) ++ '"' :: tag.inner ++ ['"']

def EntityTag.text (tag : EntityTag) : String := String.ofList tag.chars

/-- A comma between two tags, with the blanks around it. -/
structure Separator where
  before : List Char
  after : List Char
  blank : ∀ c ∈ before ++ after, c = ' ' ∨ c = '\t'

def Separator.chars (sep : Separator) : List Char := sep.before ++ ',' :: sep.after

/-- The value of an If-Match header. -/
inductive IfMatchValue where
  | star
  | etags (first : EntityTag) (rest : List (Separator × EntityTag))

namespace IfMatchValue

def chars : IfMatchValue → List Char
  | star => ['*']
  | etags first rest => first.chars ++ rest.flatMap fun (sep, tag) => sep.chars ++ tag.chars

/-- The value as it is sent. -/
def text (v : IfMatchValue) : String := String.ofList v.chars

/-- The tags that are listed. -/
def tags : IfMatchValue → List String
  | star => []
  | etags first rest => first.text :: rest.map fun (_, tag) => tag.text

/-- The object exists, and the header is `*` or lists its ETag. -/
def Lists (t : Tables) (calendarId uid : String) (v : IfMatchValue) : Prop :=
  ∃ o, t.objectByUid calendarId uid = some o ∧ (v = star ∨ o.etag ∈ v.tags)

/-- The header is `*`, or the object exists and its ETag is the only one listed. -/
def Lets (t : Tables) (calendarId uid : String) (v : IfMatchValue) : Prop :=
  v = star ∨ ∃ o, t.objectByUid calendarId uid = some o ∧ v.tags = [o.etag]

end IfMatchValue

/-! ### Its text -/

section

variable {tag : EntityTag} {v : IfMatchValue} {c : Char}

theorem EntityTag.plain (h : c ∈ tag.chars) : IsPlain c := by
  unfold EntityTag.chars at h
  rcases List.mem_append.mp h with h | h
  · rcases List.mem_append.mp h with h | h
    · cases hw : tag.weak with
      | false =>
        rw [hw] at h
        cases h
      | true =>
        rw [hw] at h
        rcases List.mem_cons.mp h with rfl | h
        · exact Or.inr (by decide)
        · rw [List.mem_singleton.mp h]
          exact Or.inr (by decide)
    · rcases List.mem_cons.mp h with rfl | h
      · exact Or.inr (by decide)
      · rcases tag.visible c h with rfl | ⟨hlow, hhigh⟩
        · exact Or.inr (by decide)
        · exact Or.inr ⟨by omega, hhigh⟩
  · rw [List.mem_singleton.mp h]
    exact Or.inr (by decide)

theorem Separator.plain {sep : Separator} (h : c ∈ sep.chars) : IsPlain c := by
  have hblank : ∀ c, c = ' ' ∨ c = '\t' → IsPlain c := by
    rintro c (rfl | rfl)
    · exact Or.inr (by decide)
    · exact Or.inl rfl
  rcases List.mem_append.mp h with h | h
  · exact hblank c (sep.blank c (List.mem_append_left _ h))
  · rcases List.mem_cons.mp h with rfl | h
    · exact Or.inr (by decide)
    · exact hblank c (sep.blank c (List.mem_append_right _ h))

theorem IfMatchValue.plain (h : c ∈ v.chars) : IsPlain c := by
  cases v with
  | star =>
    rw [List.mem_singleton.mp h]
    exact Or.inr (by decide)
  | etags first rest =>
    rcases List.mem_append.mp h with h | h
    · exact EntityTag.plain h
    · obtain ⟨⟨sep, tag⟩, -, h⟩ := List.mem_flatMap.mp h
      exact (List.mem_append.mp h).elim Separator.plain EntityTag.plain

/-- The bytes of a text of ASCII. -/
theorem ascii_bytes {s : List Char} (h : ∀ c ∈ s, c.toNat < 0x80) :
    (String.ofList s).toUTF8.data.toList = s.map fun c => UInt8.ofNat c.toNat := by
  have hflat : (String.ofList s).toUTF8 = (s.flatMap String.utf8EncodeChar).toByteArray := rfl
  rw [hflat, List.toList_data_toByteArray]
  induction s with
  | nil => rfl
  | cons c s ih =>
    rw [List.flatMap_cons, encodeChar_of_ascii (h c List.mem_cons_self),
      ih (fun c hc => h c (List.mem_cons_of_mem _ hc)) rfl]
    rfl

/-- A plain text is read as it was sent. -/
theorem headerToStr_plain {s : List Char} (h : ∀ c ∈ s, IsPlain c) :
    Request.headerToStr (String.ofList s).toUTF8 = some (String.ofList s) := by
  have hascii : ∀ c ∈ s, c.toNat < 0x80 := by
    intro c hc
    rcases h c hc with rfl | ⟨-, hhigh⟩
    · decide
    · omega
  have hbyte : ∀ c ∈ s, (UInt8.ofNat c.toNat).toNat = c.toNat := by
    intro c hc
    have := hascii c hc
    exact toNat_ofNat (by omega)
  unfold Request.headerToStr
  rw [ascii_bytes hascii, if_pos]
  · rw [List.map_map]
    refine congrArg (some ∘ String.ofList) ((List.map_congr_left fun c hc => ?_).trans
      (List.map_id s))
    show Char.ofNat (UInt8.ofNat c.toNat).toNat = c
    rw [hbyte c hc, Char.ofNat_toNat]
  · rw [List.all_map, List.all_eq_true]
    intro c hc
    show ((32 ≤ UInt8.ofNat c.toNat && UInt8.ofNat c.toNat < 127) ||
      UInt8.ofNat c.toNat = 9) = true
    rcases h c hc with rfl | ⟨hlow, hhigh⟩
    · decide
    · have hle : (32 : UInt8) ≤ UInt8.ofNat c.toNat := by
        rw [UInt8.le_iff_toNat_le, hbyte c hc]
        exact hlow
      have hlt : UInt8.ofNat c.toNat < (127 : UInt8) := by
        rw [UInt8.lt_iff_toNat_lt, hbyte c hc]
        exact hhigh
      rw [decide_eq_true hle, decide_eq_true hlt]
      rfl

/-- A value is a given text without a comma when this is its only tag. -/
theorem IfMatchValue.value_eq_iff {e : String} (hcomma : ',' ∉ e.toList) (hstar : v ≠ star) :
    v.text = e ↔ v.tags = [e] := by
  cases v with
  | star => exact absurd rfl hstar
  | etags first rest =>
    cases rest with
    | nil =>
      unfold text chars tags EntityTag.text
      simp
    | cons next rest =>
      refine iff_of_false ?_ nofun
      rintro rfl
      refine hcomma ?_
      unfold text chars Separator.chars
      simp

/-- Only `*` is the text `*`. -/
theorem IfMatchValue.text_eq_star_iff : v.text = "*" ↔ v = star := by
  constructor
  · intro h
    cases v with
    | star => rfl
    | etags first rest =>
      have hquote : '"' ∈ (etags first rest).chars :=
        List.mem_append_left _ (List.mem_append_right _ (List.mem_singleton_self _))
      have hchars : (etags first rest).chars = "*".toList := by
        rw [← h]
        exact (String.toList_ofList ..).symm
      rw [hchars] at hquote
      exact absurd hquote (by decide)
  · rintro rfl
    rfl

theorem header_of_value {request : Request}
    (h : request.headers.lookup "if-match" = some v.text.toUTF8) :
    request.header? "if-match" = some v.text := by
  unfold Request.header?
  rw [h]
  exact headerToStr_plain fun c hc => IfMatchValue.plain hc

/-- There is no comma in a stored ETag. -/
theorem comma_not_mem_etagOf {id : String} (h : id.toList.all isUuidChar = true) :
    ',' ∉ (etagOf id).toList := by
  intro hcomma
  unfold etagOf at hcomma
  rw [String.toList_append, String.toList_append, List.mem_append, List.mem_append] at hcomma
  rcases hcomma with (hcomma | hcomma) | hcomma
  · exact absurd hcomma (by decide)
  · exact absurd (List.all_eq_true.mp h _ hcomma) (by decide)
  · exact absurd hcomma (by decide)

end

/-! ## The PUT -/

/-- The body is stored: the answer is a success, and the row of the uid holds the body under the
    ETag that is answered. -/
def PutStored (answer : Reply × World) (calendarId uid body : String) : Prop :=
  ∃ o, PutAnswers answer.1 o.etag ∧ answer.2.db.objectByUid calendarId uid = some o ∧
    o.icalData = body ∧ o.toObjectFields = fieldsOf body

/-- The body is stored exactly on the condition; if it does not hold, the answer is 412 and the
    state stays as it was. -/
structure Decided (condition : Prop) (before : World) (answer : Reply × World)
    (calendarId uid body : String) : Prop where
  stored : PutStored answer calendarId uid body ↔ condition
  refused : ¬ condition → answer.1.status? = some 412 ∧ answer.2 = before

section

variable {env : Env} {lib : Lib} {w : World} {calendarId filename uid body : String}

/-- The check lets a PUT through as the header asks for. -/
theorem ifMatchPasses_iff (hinj : Function.Injective env.uuid) (hw : Reachable env lib w)
    (v : IfMatchValue) : IfMatchPasses w.db.toTables calendarId uid (some v.text) ↔
      v.Lets w.db.toTables calendarId uid := by
  unfold IfMatchPasses IfMatchValue.Lets
  dsimp only
  rw [IfMatchValue.text_eq_star_iff]
  by_cases hstar : v = .star
  · exact iff_of_true (Or.inl hstar) (Or.inl hstar)
  · refine or_congr_right (exists_congr fun o => and_congr_right fun ho => ?_)
    obtain ⟨n, -, he⟩ := (hw.synced hinj).etag o (List.mem_of_find?_eq_some ho)
    rw [eq_comm, IfMatchValue.value_eq_iff (he ▸ comma_not_mem_etagOf (env.uuid_chars n)) hstar]

/-- A PUT whose check fails. -/
theorem handlePut_mismatch {request : Request} (hsize : request.body.size ≤ 1024 * 1024)
    (hbody : String.fromUTF8? request.body = some body)
    (h : ¬ IfMatchPasses w.db.toTables calendarId (putUid filename body)
      (request.header? "if-match")) :
    ((handlePut calendarId filename request).run (exec env) w).1.status? = some 412 ∧
      ((handlePut calendarId filename request).run (exec env) w).2 = w := by
  obtain ⟨reply, hrun, hpass, hstatus⟩ := checkIfMatch_run env w (request.header? "if-match")
    calendarId (putUid filename body)
  unfold handlePut
  rw [if_pos hsize, hbody]
  dsimp only
  unfold putObject
  rw [run_bind, hrun]
  cases reply with
  | none => exact absurd (hpass.mp rfl) h
  | some reply => exact ⟨hstatus reply rfl, rfl⟩

/-- A PUT whose check passes, into a calendar that exists. -/
theorem handlePut_stored (hinj : Function.Injective env.uuid) (hw : Reachable env lib w)
    (hc : calendarId ∈ w.db.calendarIds) {request : Request}
    (h : PutStores w.db.toTables calendarId filename request body) :
    PutStored ((handlePut calendarId filename request).run (exec env) w) calendarId
      (putUid filename body) body := by
  obtain ⟨o, w', hrun, -, hrow, hetag, hdata, hfields⟩ :=
    (hw.synced hinj).upsert hinj hc (putUid filename body) body (fieldsOf body)
  rw [handlePut_stores h, hrun]
  refine ⟨o, ?_, hrow, hdata, hfields⟩
  have hvalid : validHeaderValue o.etag = true := by
    rw [hetag]
    exact validHeaderValue_etagOf (env.uuid_chars _)
  unfold PutAnswers putReply buildResponse
  dsimp only
  rw [List.all_cons, hvalid, List.all_nil, if_pos (by decide)]
  refine ⟨?_, rfl⟩
  cases (w.db.objectByUid calendarId (putUid filename body)).isNone
  · exact Or.inr rfl
  · exact Or.inl rfl

end

/-- **If-Match.** In every reachable state, a PUT with an If-Match header stores its body exactly
    when the header is `*`, or the object exists and its ETag is the only one listed. Otherwise it
    answers 412, and the state is unchanged. -/
theorem put_decided (env : Env) (lib : Lib) (hinj : Function.Injective env.uuid) (w : World)
    (hw : Reachable env lib w) (p : PathUser) (request : Request)
    (calendarId filename body : String) (v : IfMatchValue)
    (ha : Admitted env lib w p request calendarId) (hbody : request.body = body.toUTF8)
    (hsize : body.toUTF8.size ≤ 1024 * 1024)
    (hif : request.headers.lookup "if-match" = some v.text.toUTF8) :
    Decided (v.Lets w.db.toTables calendarId (putUid filename body)) w
      (send env lib p request calendarId filename "PUT" w) calendarId (putUid filename body)
      body := by
  have hc : calendarId ∈ w.db.calendarIds := by
    obtain ⟨user, -, hp⟩ := ha
    exact w.db.ok.calendar_of_permission hp
  have hsize' : (request.withMethod "PUT").body.size ≤ 1024 * 1024 := hbody ▸ hsize
  have hread : String.fromUTF8? (request.withMethod "PUT").body = some body := by
    show String.fromUTF8? request.body = some body
    rw [hbody, String.fromUTF8?_toUTF8]
  have hheader : (request.withMethod "PUT").header? "if-match" = some v.text :=
    @header_of_value v (request.withMethod "PUT") hif
  have hpasses : IfMatchPasses w.db.toTables calendarId (putUid filename body) (some v.text) ↔
    v.Lets w.db.toTables calendarId (putUid filename body) := ifMatchPasses_iff hinj hw v
  have hrefused : ¬ v.Lets w.db.toTables calendarId (putUid filename body) →
      (send env lib p request calendarId filename "PUT" w).1.status? = some 412 ∧
        (send env lib p request calendarId filename "PUT" w).2 = w := by
    intro h
    rw [send_put ha]
    refine handlePut_mismatch hsize' hread ?_
    rwa [hheader, hpasses]
  refine ⟨⟨?_, ?_⟩, hrefused⟩
  · rintro ⟨o, ⟨hstatus, -⟩, -⟩
    by_contra h
    rw [(hrefused h).1] at hstatus
    exact absurd hstatus (by decide)
  · intro h
    rw [send_put ha]
    refine handlePut_stored hinj hw hc ⟨hsize', hread, ?_⟩
    rwa [hheader, hpasses]

/-- The ETag of the lunch, and one that no object has. -/
def lunchTag : EntityTag := ⟨false, ['a', 'a', 'a'], by simp⟩

def dinnerTag : EntityTag := ⟨true, ['b'], by simp⟩

def bothTags : IfMatchValue := .etags lunchTag [(⟨[], [' '], by simp⟩, dinnerTag)]

/-- A PUT of a later lunch with an If-Match header. -/
def laterLunch (v : IfMatchValue) : Request :=
  ⟨"PUT", [("if-match", v.text.toUTF8)], "at one".toUTF8⟩

theorem put_decided_lunch : Decided ((IfMatchValue.etags lunchTag []).Lets
      lunchWorld.db.toTables "work" (putUid "lunch.ics" "at one")) lunchWorld
    (send countingEnv sampleLib (.username "alice") (laterLunch (.etags lunchTag [])) "work"
      "lunch.ics" "PUT" lunchWorld) "work" (putUid "lunch.ics" "at one") "at one" :=
  put_decided countingEnv sampleLib countingEnv_uuid_injective lunchWorld
    (.call (.write _) foundedWorld_reachable) (.username "alice")
    (laterLunch (.etags lunchTag [])) "work" "lunch.ics" "at one" (.etags lunchTag [])
    ⟨alice, rfl, rfl⟩ rfl (by decide) rfl

/-- Before the lunch is planned, `*` plans it; and with its ETag the first of a list, it cannot be
    moved. -/
theorem star_stores_list_refuses :
    ¬ Decided (IfMatchValue.star.Lists foundedWorld.db.toTables "work"
        (putUid "lunch.ics" "at one")) foundedWorld
      (send countingEnv sampleLib (.username "alice") (laterLunch .star) "work" "lunch.ics" "PUT"
        foundedWorld) "work" (putUid "lunch.ics" "at one") "at one" ∧
    ¬ Decided (bothTags.Lists lunchWorld.db.toTables "work" (putUid "lunch.ics" "at one"))
        lunchWorld
      (send countingEnv sampleLib (.username "alice") (laterLunch bothTags) "work" "lunch.ics"
        "PUT" lunchWorld) "work" (putUid "lunch.ics" "at one") "at one" := by
  constructor
  · intro h
    have hmissing : foundedWorld.db.objectByUid "work" (putUid "lunch.ics" "at one") = none := rfl
    obtain ⟨hstatus, -⟩ := h.refused fun ⟨o, ho, _⟩ => nomatch hmissing.symm.trans ho
    have hcreated : (send countingEnv sampleLib (.username "alice") (laterLunch .star) "work"
      "lunch.ics" "PUT" foundedWorld).1.status? = some 201 := by rfl
    rw [hcreated] at hstatus
    exact absurd hstatus (by decide)
  · intro h
    obtain ⟨o, ⟨hstatus, -⟩, -⟩ := h.stored.mpr
      ⟨ObjectWrite.newRow countingEnv foundedWorld "work" "lunch" "at noon"
        ⟨"VEVENT", none, none, none⟩, rfl, Or.inr List.mem_cons_self⟩
    have hmismatch : (send countingEnv sampleLib (.username "alice") (laterLunch bothTags) "work"
      "lunch.ics" "PUT" lunchWorld).1.status? = some 412 := by rfl
    rw [hmismatch] at hstatus
    exact absurd hstatus (by decide)

end CaldavMcp
