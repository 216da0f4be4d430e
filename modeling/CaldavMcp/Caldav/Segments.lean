/-
  One href, read by GET and by calendar-multiget.

  The router decodes the escapes of the last segment as UTF-8, and GET then strips every `.ics`
  at the end. A multiget strips one `.ics`, and drops the href if there is none, before it decodes
  each escape to the character with the number of its byte. A segment is a list of
  `SegmentPiece`s; on ASCII escapes the two decoders agree (`latin_of_ascii`).

  Elsewhere they do not, by a count: a multiget makes one character of each piece, the router as
  many as there are bytes that begin one, and of the escapes beyond ASCII some are continuations
  (`length_lt_of_escape`). So the uids are the same exactly when the segment ends in one literal
  `.ics` and all its escapes are of ASCII (`same_href_iff`).
-/
import CaldavMcp.Caldav.Hrefs
import CaldavMcp.Db.Ranges
import CaldavMcp.Utf8

namespace CaldavMcp

open Program Utf8

/-! ## Segments -/

/-- A piece of a segment: a character, or an escape. A percent sign is written as an escape. -/
inductive SegmentPiece where
  | char (c : Char) (plain : c ≠ '%' ∧ c ≠ '/')
  | escape (h1 h2 : Char) (byte : Nat) (hex : hexPair h1 h2 = some byte)

namespace SegmentPiece

def text : SegmentPiece → List Char
  | char c _ => [c]
  | escape h1 h2 _ _ => ['%', h1, h2]

/-- The bytes that the router decodes it to. -/
def bytes : SegmentPiece → List UInt8
  | char c _ => String.utf8EncodeChar c
  | escape _ _ byte _ => [UInt8.ofNat byte]

/-- The character that a multiget decodes it to. -/
def latin : SegmentPiece → Char
  | char c _ => c
  | escape _ _ byte _ => Char.ofNat byte

/-- An escape is of an ASCII byte. -/
def Ascii : SegmentPiece → Prop
  | char _ _ => True
  | escape _ _ byte _ => byte < 128

end SegmentPiece

/-- The text of a segment. -/
def segmentText (pieces : List SegmentPiece) : List Char := pieces.flatMap SegmentPiece.text

section

variable {h1 h2 : Char} {byte : Nat} {pieces : List SegmentPiece}

theorem hexDigit_lt {c : Char} {n : Nat} (h : hexDigit c = some n) : n < 16 := by
  unfold hexDigit at h
  dsimp only at h
  split_ifs at h <;> (rw [← Option.some.inj h]; omega)

theorem hexPair_lt (h : hexPair h1 h2 = some byte) : byte < 256 := by
  obtain ⟨a, ha, h⟩ := Option.bind_eq_some_iff.mp h
  obtain ⟨b, hb, h⟩ := Option.bind_eq_some_iff.mp h
  have := hexDigit_lt ha
  have := hexDigit_lt hb
  rw [← Option.some.inj h]
  omega

/-- Both characters are digits. -/
theorem hexPair_digits (h : hexPair h1 h2 = some byte) :
    (hexDigit h1).isSome ∧ (hexDigit h2).isSome := by
  obtain ⟨a, ha, h⟩ := Option.bind_eq_some_iff.mp h
  obtain ⟨b, hb, -⟩ := Option.bind_eq_some_iff.mp h
  rw [ha, hb]
  exact ⟨rfl, rfl⟩

/-- A multiget reads the two digits as the router does. -/
theorem hexByte_of_hexPair (h : hexPair h1 h2 = some byte) : hexByte h1 h2 = some byte := by
  unfold hexByte
  rw [if_neg]
  · exact h
  · rintro rfl
    exact absurd (hexPair_digits h).1 (by decide)

/-! ### The two decoders -/

theorem decodedFrom_segment (pieces : List SegmentPiece) :
    decodedFrom 0 (segmentText pieces) = pieces.flatMap SegmentPiece.bytes := by
  induction pieces with
  | nil => rfl
  | cons piece pieces ih =>
    unfold segmentText at ih ⊢
    rw [List.flatMap_cons, List.flatMap_cons, ← ih]
    cases piece with
    | char c plain =>
      have hat : escapeAt c (pieces.flatMap SegmentPiece.text) = none := if_neg plain.1
      show decodedFrom 0 (c :: pieces.flatMap SegmentPiece.text) = _
      rw [decodedFrom, hat]
      rfl
    | escape h1 h2 byte hex =>
      have hat : escapeAt '%' (h1 :: h2 :: pieces.flatMap SegmentPiece.text) = some byte := hex
      show decodedFrom 0 ('%' :: h1 :: h2 :: pieces.flatMap SegmentPiece.text) = _
      rw [decodedFrom, hat]
      rfl

theorem percentDecode_plain {c : Char} (h : c ≠ '%') (rest : List Char) :
    percentDecode (c :: rest) = c :: percentDecode rest := by
  rw [percentDecode]
  · intro _ _ _ hc
    exact absurd hc h
  · intro hc
    exact absurd hc h

theorem percentDecode_escape (h : hexPair h1 h2 = some byte) (rest : List Char) :
    percentDecode ('%' :: h1 :: h2 :: rest) = Char.ofNat byte :: percentDecode rest := by
  rw [percentDecode, hexByte_of_hexPair h]

theorem percentDecode_segment (pieces : List SegmentPiece) :
    percentDecode (segmentText pieces) = pieces.map SegmentPiece.latin := by
  induction pieces with
  | nil => rfl
  | cons piece pieces ih =>
    unfold segmentText at ih ⊢
    rw [List.flatMap_cons, List.map_cons, ← ih]
    cases piece with
    | char c plain => exact percentDecode_plain plain.1 _
    | escape h1 h2 byte hex => exact percentDecode_escape hex _

theorem toNat_ofNat_ascii {n : Nat} (h : n < 128) : (Char.ofNat n).toNat = n := by
  unfold Char.ofNat
  rw [dif_pos (Or.inl (by omega))]
  rfl

/-- On ASCII the decoded characters have the decoded bytes. -/
theorem latin_of_ascii (h : ∀ p ∈ pieces, p.Ascii) :
    pieces.flatMap SegmentPiece.bytes =
      (pieces.map SegmentPiece.latin).flatMap String.utf8EncodeChar := by
  rw [List.flatMap_map]
  refine List.flatMap_congr fun p hp => ?_
  cases p with
  | char c plain => rfl
  | escape h1 h2 byte hex =>
    have hbyte : byte < 128 := h _ hp
    have hchar := toNat_ofNat_ascii hbyte
    show [UInt8.ofNat byte] = String.utf8EncodeChar (Char.ofNat byte)
    rw [encodeChar_of_ascii (by omega), hchar]

/-! ### Counting -/

/-- An escape of a continuation. -/
def SegmentPiece.continuation : SegmentPiece → Nat
  | .char _ _ => 0
  | .escape _ _ byte _ => if isContinuation (UInt8.ofNat byte) then 1 else 0

/-- The continuations that an escape announces. -/
def SegmentPiece.announces : SegmentPiece → Nat
  | .char _ _ => 0
  | .escape _ _ byte _ => announced (UInt8.ofNat byte)

/-- Each piece begins one character, or is an escape of a continuation. -/
theorem beginnings_pieces (pieces : List SegmentPiece) :
    beginnings (pieces.flatMap SegmentPiece.bytes) + (pieces.map SegmentPiece.continuation).sum =
      pieces.length := by
  induction pieces with
  | nil => rfl
  | cons p pieces ih =>
    have hone : beginnings p.bytes + p.continuation = 1 := by
      cases p with
      | char c plain => exact (encodeChar_counts c).1
      | escape h1 h2 byte hex =>
        unfold SegmentPiece.bytes SegmentPiece.continuation beginnings
        dsimp only
        cases hb : isContinuation (UInt8.ofNat byte) <;> simp [hb]
    rw [List.flatMap_cons, beginnings_append, List.map_cons, List.sum_cons, List.length_cons]
    omega

/-- A character announces its own continuations. -/
theorem continuations_pieces (pieces : List SegmentPiece) :
    continuations (pieces.flatMap SegmentPiece.bytes) + (pieces.map SegmentPiece.announces).sum =
      ((pieces.flatMap SegmentPiece.bytes).map announced).sum +
        (pieces.map SegmentPiece.continuation).sum := by
  induction pieces with
  | nil => rfl
  | cons p pieces ih =>
    have hone : continuations p.bytes + p.announces =
        (p.bytes.map announced).sum + p.continuation := by
      cases p with
      | char c plain => exact (encodeChar_counts c).2
      | escape h1 h2 byte hex =>
        unfold SegmentPiece.bytes SegmentPiece.continuation SegmentPiece.announces continuations
        dsimp only
        cases hb : isContinuation (UInt8.ofNat byte) <;> simp [hb, Nat.add_comm]
    rw [List.flatMap_cons, continuations_append, List.map_append, List.sum_append, List.map_cons,
      List.map_cons, List.sum_cons, List.sum_cons]
    omega

/-- With an escape beyond ASCII there are fewer characters than pieces. -/
theorem length_lt_of_escape {s : List Char}
    (hs : s.flatMap String.utf8EncodeChar = pieces.flatMap SegmentPiece.bytes)
    (h : ¬ ∀ p ∈ pieces, p.Ascii) : s.length < pieces.length := by
  have hbeginnings := beginnings_pieces pieces
  have hcontinuations := continuations_pieces pieces
  rw [← hs, beginnings_eq] at hbeginnings
  rw [← hs, continuations_eq] at hcontinuations
  obtain ⟨p, hp, hbeyond⟩ := not_forall₂.mp h
  have hcontinuation := List.single_le_sum (fun _ _ => Nat.zero_le _) _
    (List.mem_map_of_mem hp : p.continuation ∈ pieces.map SegmentPiece.continuation)
  have hannounces := List.single_le_sum (fun _ _ => Nat.zero_le _) _
    (List.mem_map_of_mem hp : p.announces ∈ pieces.map SegmentPiece.announces)
  have hsome : 0 < p.continuation ∨ 0 < p.announces := by
    cases p with
    | char c plain => exact absurd trivial hbeyond
    | escape h1 h2 byte hex =>
      have hbyte : (UInt8.ofNat byte).toNat = byte := toNat_ofNat (hexPair_lt hex)
      have hlarge : 128 ≤ (UInt8.ofNat byte).toNat := by
        rw [hbyte]
        exact not_lt.mp hbeyond
      unfold SegmentPiece.continuation SegmentPiece.announces
      rcases continuation_or_announced hlarge with hb | hb
      · exact Or.inl (by simp [hb])
      · exact Or.inr hb
  omega

/-! ### The ending -/

/-- A character that no escape ends in is a piece of its own: it is not a digit, or what stands
    before it is not. -/
theorem segment_snoc {front : List Char} {c : Char} (h : segmentText pieces = front ++ [c])
    (hc : hexDigit c = none ∨ ∃ front' d, front = front' ++ [d] ∧ hexDigit d = none) :
    ∃ stem plain, pieces = stem ++ [.char c plain] ∧ segmentText stem = front := by
  cases pieces using List.reverseRecOn with
  | nil => exact absurd h (by simp [segmentText])
  | append_singleton stem p _ =>
    unfold segmentText at h
    rw [List.flatMap_append, List.flatMap_singleton] at h
    cases p with
    | char d plain =>
      obtain ⟨hfront, hlast⟩ := List.append_inj' h rfl
      obtain rfl := List.singleton_inj.mp hlast
      exact ⟨stem, plain, rfl, hfront⟩
    | escape h1 h2 byte hex =>
      obtain ⟨hd1, hd2⟩ := hexPair_digits hex
      rw [show (SegmentPiece.escape h1 h2 byte hex).text = ['%', h1] ++ [h2] from rfl,
        ← List.append_assoc] at h
      obtain ⟨hfront, hlast⟩ := List.append_inj' h rfl
      obtain rfl := List.singleton_inj.mp hlast
      rcases hc with hc | ⟨front', d, rfl, hd⟩
      · rw [hc] at hd2
        cases hd2
      · rw [show ['%', h1] = ['%'] ++ [h1] from rfl, ← List.append_assoc] at hfront
        obtain ⟨-, hlast⟩ := List.append_inj' hfront rfl
        rw [List.singleton_inj.mp hlast, hd] at hd1
        cases hd1

/-- The pieces of a literal `.ics`. -/
def icsPieces : List SegmentPiece :=
  [.char '.' (by decide), .char 'i' (by decide), .char 'c' (by decide), .char 's' (by decide)]

theorem segment_ending {front : List Char} (h : segmentText pieces = front ++ ".ics".toList) :
    ∃ stem, pieces = stem ++ icsPieces ∧ segmentText stem = front := by
  have hsplit : front ++ ".ics".toList = front ++ ['.'] ++ ['i'] ++ ['c'] ++ ['s'] := by simp
  rw [hsplit] at h
  obtain ⟨stem₁, _, rfl, h₁⟩ := segment_snoc h (Or.inl (by decide))
  obtain ⟨stem₂, _, rfl, h₂⟩ := segment_snoc h₁ (Or.inr ⟨_, 'i', rfl, by decide⟩)
  obtain ⟨stem₃, _, rfl, h₃⟩ := segment_snoc h₂ (Or.inl (by decide))
  obtain ⟨stem₄, _, rfl, h₄⟩ := segment_snoc h₃ (Or.inl (by decide))
  exact ⟨stem₄, by simp [icsPieces], h₄⟩

theorem slash_not_mem_segment (pieces : List SegmentPiece) : '/' ∉ segmentText pieces := by
  intro h
  obtain ⟨p, -, hp⟩ := List.mem_flatMap.mp h
  cases p with
  | char c plain => exact plain.2 (List.mem_singleton.mp hp).symm
  | escape h1 h2 byte hex =>
    obtain ⟨hd1, hd2⟩ := hexPair_digits hex
    have hslash : hexDigit '/' = none := by decide
    rcases List.mem_cons.mp hp with hp | hp
    · exact absurd hp (by decide)
    · rcases List.mem_cons.mp hp with rfl | hp
      · rw [hslash] at hd1
        cases hd1
      · rw [← List.mem_singleton.mp hp, hslash] at hd2
        cases hd2

/-- The router's reading of a segment that ends in a literal `.ics`. -/
theorem decoded_ending {stem : List SegmentPiece} {s : List Char}
    (h : s.flatMap String.utf8EncodeChar = (stem ++ icsPieces).flatMap SegmentPiece.bytes) :
    ∃ front, s = front ++ ".ics".toList ∧
      front.flatMap String.utf8EncodeChar = stem.flatMap SegmentPiece.bytes := by
  have hbytes : (stem ++ icsPieces).flatMap SegmentPiece.bytes = stem.flatMap SegmentPiece.bytes ++
      String.utf8EncodeChar '.' ++ String.utf8EncodeChar 'i' ++ String.utf8EncodeChar 'c' ++
      String.utf8EncodeChar 's' := by
    simp [icsPieces, SegmentPiece.bytes]
  rw [hbytes] at h
  obtain ⟨s₁, rfl, h₁⟩ := encode_snoc_ascii (by decide) h
  obtain ⟨s₂, rfl, h₂⟩ := encode_snoc_ascii (by decide) h₁
  obtain ⟨s₃, rfl, h₃⟩ := encode_snoc_ascii (by decide) h₂
  obtain ⟨s₄, rfl, h₄⟩ := encode_snoc_ascii (by decide) h₃
  exact ⟨s₄, by simp, h₄⟩

theorem ics_ascii : ∀ p ∈ icsPieces, p.Ascii := by
  unfold icsPieces
  simp [SegmentPiece.Ascii]

/-! ## The uid -/

/-- The uid that a multiget takes from the segment. -/
theorem multigetUids_segment (dir : String) (pieces : List SegmentPiece) :
    multigetUids [dir ++ "/" ++ String.ofList (segmentText pieces)] =
      ((Text.stripSuffix? ".ics".toList (segmentText pieces)).map fun f =>
        String.ofList (percentDecode f)).toList := by
  have hlast : Text.afterLast '/' (dir ++ "/" ++ String.ofList (segmentText pieces)).toList =
      segmentText pieces := by
    have hchars : (dir ++ "/" ++ String.ofList (segmentText pieces)).toList =
        dir.toList ++ '/' :: segmentText pieces := by simp
    rw [hchars, Text.afterLast_append]
    exact Text.afterLast_of_not_mem (slash_not_mem_segment pieces)
  unfold multigetUids
  rw [List.filterMap_cons, hlast]
  cases Text.stripSuffix? ".ics".toList (segmentText pieces) <;> rfl

/-- The segment ends in one literal `.ics`, and its escapes are of ASCII. -/
structure OneEnding (pieces : List SegmentPiece) (filename : String) : Prop where
  literal : ".ics".toList <:+ segmentText pieces
  ascii : ∀ p ∈ pieces, p.Ascii
  once : ¬ ".ics.ics".toList <:+ filename.toList

theorem same_uid_iff {filename : String}
    (h : decodeSegment (String.ofList (segmentText pieces)) = some filename) (dir : String) :
    multigetUids [dir ++ "/" ++ String.ofList (segmentText pieces)] =
      [filename.trimEnds ".ics"] ↔ OneEnding pieces filename := by
  have hdecoded : filename.toList.flatMap String.utf8EncodeChar =
      pieces.flatMap SegmentPiece.bytes := by
    have hbytes := String.toUTF8_of_fromUTF8? h
    rw [String.toList_ofList, decodedFrom_segment] at hbytes
    exact List.toByteArray_inj.mp ((String.utf8Encode_toList.trans hbytes))
  rw [multigetUids_segment]
  cases hstrip : Text.stripSuffix? ".ics".toList (segmentText pieces) with
  | none =>
    refine iff_of_false (by simp) fun hone => ?_
    obtain ⟨front, hfront⟩ := hone.literal
    rw [Text.stripSuffix?_eq_some.mpr hfront.symm] at hstrip
    cases hstrip
  | some front =>
    have htext := Text.stripSuffix?_eq_some.mp hstrip
    obtain ⟨stem, rfl, rfl⟩ := segment_ending htext
    obtain ⟨name, hname, hstem⟩ := decoded_ending hdecoded
    have htrim : filename.trimEnds ".ics" =
        String.ofList (Text.trimEndMatches ".ics".toList name) := by
      unfold String.trimEnds
      rw [hname, Text.trimEndMatches_append (by decide)]
    have hsame : [String.ofList (percentDecode (segmentText stem))] =
        [filename.trimEnds ".ics"] ↔
          stem.map SegmentPiece.latin = Text.trimEndMatches ".ics".toList name := by
      rw [htrim, percentDecode_segment, List.singleton_inj, String.ofList_inj]
    rw [Option.map_some, Option.toList_some, hsame]
    by_cases hascii : ∀ p ∈ stem, p.Ascii
    · -- the decoders agree, so it is the stripping that counts
      rw [latin_of_ascii hascii] at hstem
      obtain rfl := encode_inj hstem
      have hall : ∀ p ∈ stem ++ icsPieces, p.Ascii := by
        intro p hp
        rcases List.mem_append.mp hp with hp | hp
        · exact hascii p hp
        · exact ics_ascii p hp
      rw [eq_comm, Text.trimEndMatches_eq_self (by decide)]
      have honce : ".ics".toList <:+ stem.map SegmentPiece.latin ↔
          ".ics.ics".toList <:+ filename.toList := by
        have happend : ".ics.ics".toList = ".ics".toList ++ ".ics".toList := by decide
        rw [hname, happend, List.suffix_append_inj_of_length_eq rfl, and_iff_left rfl]
      rw [honce]
      exact ⟨fun h => ⟨⟨_, htext.symm⟩, hall, h⟩, fun h => h.once⟩
    · -- a multiget has more characters
      refine iff_of_false (fun heq => ?_) fun hone => hascii fun p hp =>
        hone.ascii p (List.mem_append_left _ hp)
      have hlt := length_lt_of_escape hstem hascii
      have hle := @Text.trimEndMatches_length_le ".ics".toList name
      rw [← heq, List.length_map] at hle
      omega

end

/-! ## The answers -/

theorem multigetRows_nodup {t : Tables} (h : t.Ok) (calendarId : String) (uids : List String) :
    (multigetRows t calendarId uids).Nodup := by
  unfold multigetRows
  split
  · exact List.nodup_nil
  · exact orderByDtstart_nodup ((h.objectsOf_nodup calendarId).filter _)

/-- One uid selects the row it finds. -/
theorem multigetRows_one {t : Tables} (h : t.Ok) (calendarId uid : String) :
    multigetRows t calendarId [uid] = (t.objectByUid calendarId uid).toList := by
  have hmem : ∀ o, o ∈ multigetRows t calendarId [uid] ↔
      t.objectByUid calendarId uid = some o := by
    intro o
    rw [mem_multigetRows, List.mem_singleton]
    constructor
    · rintro ⟨ho, rfl⟩
      exact (h.objectByUid_of_objectsOf ho).2
    · intro ho
      obtain ⟨hcal, huid⟩ := Tables.objectByUid_key ho
      refine ⟨List.mem_filter.mpr ⟨List.mem_of_find?_eq_some ho, ?_⟩, huid⟩
      simpa using hcal
  have hnodup := multigetRows_nodup h calendarId [uid]
  generalize multigetRows t calendarId [uid] = rows at hmem hnodup
  cases ho : t.objectByUid calendarId uid with
  | none =>
    refine List.eq_nil_iff_forall_not_mem.mpr fun o hrow => ?_
    rw [hmem, ho] at hrow
    cases hrow
  | some o =>
    refine (List.perm_singleton.mp ((List.perm_ext_iff_of_nodup hnodup
      (List.nodup_singleton o)).mpr fun o' => ?_))
    rw [hmem, ho, List.mem_singleton, Option.some_inj, eq_comm]

/-- What is asked of a segment: the two methods take one uid from it, and in every state they
    answer with one object, or with none. -/
structure SameHref (pieces : List SegmentPiece) (filename : String) : Prop where
  uid : ∀ dir : String, multigetUids [dir ++ "/" ++ String.ofList (segmentText pieces)] =
    [filename.trimEnds ".ics"]
  found : ∀ (env : Env) (w : World) (ctx : HrefContext) (calendarId dir : String),
    ∃ found : Option CalendarObject,
      ((handleGet calendarId filename).run (exec env) w).1 =
        (match found with
          | some obj => buildResponse 200 [("content-type", "text/calendar; charset=utf-8"),
              ("etag", obj.etag)] (.text obj.icalData)
          | none => plain 404 "Object not found") ∧
      ((handleMultiget ctx calendarId [dir ++ "/" ++ String.ofList (segmentText pieces)]).run
        (exec env) w).1.document? =
          some ⟨found.toList.map (objectEntry ctx calendarId true), none⟩

/-- The lunch, with an escaped `n`. -/
def lunchPieces : List SegmentPiece :=
  [.char 'l' (by decide), .char 'u' (by decide), .escape '6' 'e' 110 (by decide),
    .char 'c' (by decide), .char 'h' (by decide)] ++ icsPieces

/-- `caf%C3%A9.ics`. -/
def cafePieces : List SegmentPiece :=
  [.char 'c' (by decide), .char 'a' (by decide), .char 'f' (by decide),
    .escape 'C' '3' 195 (by decide), .escape 'A' '9' 169 (by decide)] ++ icsPieces

end CaldavMcp
