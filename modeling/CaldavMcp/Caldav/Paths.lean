/-
  From the path of a request to its route.

  The router splits a path at its slashes, and percent-decodes each parameter as UTF-8
  (`decodeSegment`, axum's `Path`); a parameter is not empty, and one that does not decode is
  refused. `routeOf` is the table of routes of `src/caldav/mod.rs`.

  calendar-multiget has a decoder of its own (`percentDecode`), which differs: it drops the two
  characters behind a `%` also where they are not hexadecimal digits.
-/
import CaldavMcp.Caldav.Router

namespace CaldavMcp

/-! ## Percent-decoding -/

/-- Two hexadecimal digits. -/
def hexPair (h1 h2 : Char) : Option Nat := do return (← hexDigit h1) * 16 + (← hexDigit h2)

/-- The byte an escape stands for, if `c` and what follows it are one. -/
def escapeAt (c : Char) (rest : List Char) : Option Nat :=
  if c = '%' then
    match rest with
    | h1 :: h2 :: _ => hexPair h1 h2
    | _ => none
  else none

/-- The bytes of a text with its escapes decoded, after `skip` characters of the last one. -/
def decodedFrom : (skip : Nat) → List Char → List UInt8
  | _, [] => []
  | n + 1, _ :: rest => decodedFrom n rest
  | 0, c :: rest =>
    match escapeAt c rest with
    | some byte => UInt8.ofNat byte :: decodedFrom 2 rest
    | none => String.utf8EncodeChar c ++ decodedFrom 0 rest

/-- A path segment, percent-decoded; none when the bytes are not UTF-8. -/
def decodeSegment (s : String) : Option String :=
  String.fromUTF8? (decodedFrom 0 s.toList).toByteArray

/-- There is an escape in the text. -/
def escapes : List Char → Bool
  | [] => false
  | c :: rest => (escapeAt c rest).isSome || escapes rest

theorem decodedFrom_plain {s : List Char} (h : escapes s = false) :
    decodedFrom 0 s = s.flatMap String.utf8EncodeChar := by
  induction s with
  | nil => rfl
  | cons c s ih =>
    unfold escapes at h
    obtain ⟨hc, hs⟩ := Bool.or_eq_false_iff.mp h
    rw [Option.isSome_eq_false_iff, Option.isNone_iff_eq_none] at hc
    unfold decodedFrom
    rw [hc, List.flatMap_cons, ← ih hs]

theorem utf8EncodeChar_length_pos (c : Char) : 0 < (String.utf8EncodeChar c).length := by
  rw [String.length_utf8EncodeChar]
  exact Char.utf8Size_pos c

theorem decodedFrom_length_le (s : List Char) (n : Nat) :
    (decodedFrom n s).length ≤ ((s.drop n).flatMap String.utf8EncodeChar).length := by
  induction s generalizing n with
  | nil => simp [decodedFrom]
  | cons c s ih =>
    cases n with
    | succ n => exact ih n
    | zero =>
      have hpos := utf8EncodeChar_length_pos c
      unfold decodedFrom
      rw [List.drop_zero, List.flatMap_cons, List.length_append]
      cases escapeAt c s with
      | none =>
        have := ih 0
        rw [List.drop_zero] at this
        dsimp only
        rw [List.length_append]
        omega
      | some byte =>
        have hdrop := ih 2
        have hsplit : (s.flatMap String.utf8EncodeChar).length =
            ((s.take 2).flatMap String.utf8EncodeChar).length +
              ((s.drop 2).flatMap String.utf8EncodeChar).length := by
          rw [← List.length_append, ← List.flatMap_append, List.take_append_drop]
        dsimp only
        rw [List.length_cons]
        omega

/-- An escape is decoded to fewer bytes. -/
theorem decodedFrom_length_lt {s : List Char} (h : escapes s) :
    (decodedFrom 0 s).length < (s.flatMap String.utf8EncodeChar).length := by
  induction s with
  | nil => cases h
  | cons c s ih =>
    have hpos := utf8EncodeChar_length_pos c
    rw [List.flatMap_cons, List.length_append]
    unfold decodedFrom
    cases he : escapeAt c s with
    | none =>
      unfold escapes at h
      rw [he] at h
      have := ih h
      dsimp only
      rw [List.length_append]
      omega
    | some byte =>
      unfold escapeAt at he
      split at he
      · split at he
        · rename_i h1 h2 rest
          have hdrop := decodedFrom_length_le (h1 :: h2 :: rest) 2
          have := utf8EncodeChar_length_pos h1
          rw [show (h1 :: h2 :: rest).drop 2 = rest from rfl] at hdrop
          dsimp only
          rw [List.flatMap_cons, List.flatMap_cons, List.length_append, List.length_append,
            List.length_cons]
          omega
        · cases he
      · cases he

/-- A text decodes to itself exactly when it has no escape. -/
theorem decodeSegment_eq_self {s : String} :
    decodeSegment s = some s ↔ escapes s.toList = false := by
  have hbytes : s.toUTF8 = (s.toList.flatMap String.utf8EncodeChar).toByteArray :=
    String.utf8Encode_toList.symm
  constructor
  · intro h
    by_contra he
    have hlt := decodedFrom_length_lt (Bool.not_eq_false _ ▸ he)
    have heq := String.toUTF8_of_fromUTF8? h
    rw [hbytes, List.toByteArray_inj] at heq
    rw [heq] at hlt
    exact lt_irrefl _ hlt
  · intro h
    unfold decodeSegment
    rw [decodedFrom_plain h, ← hbytes]
    exact String.fromUTF8?_toUTF8 s

/-! ## Routes -/

/-- A parameter of a route. -/
def param (segment : String) : Option String :=
  if segment = "" then none else decodeSegment segment

/-- What follows "/caldav/users/". -/
def userRoute : List String → Option Route
  | [username] => (param username).map .calendarHome
  | [username, calendarId] =>
    if calendarId = "" then (param username).map .calendarHome
    else do return .calendarCollection (← param username) (← param calendarId)
  | [username, calendarId, filename] =>
    if filename = "" then
      do return .calendarCollection (← param username) (← param calendarId)
    else do return .object (← param username) (← param calendarId) (← param filename)
  | _ => none

/-- What follows "/calendar/dav/email/user/". -/
def emailRoute (email : String) : List String → Option Route
  | [rest] => if rest = "" then (param email).map .emailHome else none
  | [calendarId, filename] =>
    if filename = "" then do return .emailCollection (← param email) (← param calendarId)
    else do return .emailObject (← param email) (← param calendarId) (← param filename)
  | _ => none

/-- What follows "/caldav/principals/" and "/principals/", and the fixed paths. -/
def discoveryRoute : List String → Option Route
  | [""] => some .serverRoot
  | [".well-known", "caldav"] => some .wellKnown
  | ["caldav"] | ["caldav", ""] => some .caldavRoot
  | ["caldav", "principals", username] | ["caldav", "principals", username, ""] =>
    (param username).map .principal
  | ["principals", ""] => some .fallback
  | ["principals", username, ""] => (param username).map fun _ => .fallback
  | _ => none

/-- The route of a path. -/
def routeOf (path : String) : Option Route :=
  match (Text.splitAll '/' path.toList).map String.ofList with
  | "" :: "caldav" :: "users" :: rest => userRoute rest
  | "" :: "calendar" :: "dav" :: email :: "user" :: rest => emailRoute email rest
  | "" :: rest => discoveryRoute rest
  | _ => none

theorem routeOf_users (s : String) :
    routeOf ("/caldav/users/" ++ s) =
      userRoute ((Text.splitAll '/' s.toList).map String.ofList) := by
  have hsplit : (Text.splitAll '/' ("/caldav/users/" ++ s).toList).map String.ofList =
      "" :: "caldav" :: "users" :: (Text.splitAll '/' s.toList).map String.ofList := by
    rw [String.toList_append, show "/caldav/users/".toList ++ s.toList =
      [] ++ '/' :: ("caldav".toList ++ '/' :: ("users".toList ++ '/' :: s.toList)) from rfl,
      Text.splitAll_append, Text.splitAll_append, Text.splitAll_append,
      Text.splitAll_of_not_mem (s := "caldav".toList) (by decide),
      Text.splitAll_of_not_mem (s := "users".toList) (by decide)]
    rfl
  unfold routeOf
  rw [hsplit]
  rfl

/-- The segments of an email path. -/
theorem segments_email (email s : String) :
    (Text.splitAll '/' ("/calendar/dav/" ++ email ++ "/user/" ++ s).toList).map String.ofList =
      "" :: "calendar" :: "dav" :: ((Text.splitAll '/' email.toList).map String.ofList ++
        "user" :: (Text.splitAll '/' s.toList).map String.ofList) := by
  have hchars : ("/calendar/dav/" ++ email ++ "/user/" ++ s).toList =
      [] ++ '/' :: ("calendar".toList ++ '/' :: ("dav".toList ++ '/' :: (email.toList ++
        '/' :: ("user".toList ++ '/' :: s.toList)))) := by
    rw [String.toList_append, String.toList_append, String.toList_append]
    simp
  rw [hchars, Text.splitAll_append, Text.splitAll_append, Text.splitAll_append,
    Text.splitAll_append, Text.splitAll_append,
    Text.splitAll_of_not_mem (s := "calendar".toList) (by decide),
    Text.splitAll_of_not_mem (s := "dav".toList) (by decide),
    Text.splitAll_of_not_mem (s := "user".toList) (by decide)]
  simp [Text.splitAll]

theorem routeOf_email {email : String} (h : '/' ∉ email.toList) (s : String) :
    routeOf ("/calendar/dav/" ++ email ++ "/user/" ++ s) =
      emailRoute email ((Text.splitAll '/' s.toList).map String.ofList) := by
  unfold routeOf
  rw [segments_email, Text.splitAll_of_not_mem h]
  simp only [List.map_cons, List.map_nil, String.ofList_toList, List.cons_append, List.nil_append]

theorem emailRoute_long {email : String} {rest : List String} (h : 3 ≤ rest.length) :
    emailRoute email rest = none := by
  rcases rest with _ | ⟨a, _ | ⟨b, _ | ⟨c, rest⟩⟩⟩
  · simp at h
  · simp at h
  · simp at h
  · rfl

theorem userRoute_long {rest : List String} (h : 4 ≤ rest.length) : userRoute rest = none := by
  rcases rest with _ | ⟨a, _ | ⟨b, _ | ⟨c, _ | ⟨d, rest⟩⟩⟩⟩
  · simp at h
  · simp at h
  · simp at h
  · simp at h
  · rfl

/-- An email with a slash leads nowhere. -/
theorem routeOf_email_slash {email : String} (h : '/' ∈ email.toList) {s : String}
    (hs : '/' ∈ s.toList) :
    routeOf ("/calendar/dav/" ++ email ++ "/user/" ++ s) = none := by
  have hone := @Text.splitAll_length '/' email.toList
  have htwo := @Text.splitAll_length '/' s.toList
  have hcount := List.count_pos_iff.mpr h
  have hcount' := List.count_pos_iff.mpr hs
  unfold routeOf
  rw [segments_email]
  generalize Text.splitAll '/' email.toList = parts at hone ⊢
  generalize Text.splitAll '/' s.toList = parts' at htwo ⊢
  rcases parts with _ | ⟨p₁, _ | ⟨p₂, parts⟩⟩
  · simp at hone
  · simp at hone; omega
  · simp only [List.map_cons, List.cons_append]
    split
    · rename_i heq
      simp at heq
    · rename_i email' rest heq
      simp only [List.cons.injEq, true_and] at heq
      rw [← heq.2.2]
      exact emailRoute_long (by simp; omega)
    · rename_i rest _ _ heq
      rw [← (List.cons.inj heq).2]
      rfl
    · rfl

/-! ## The decoder of calendar-multiget -/

theorem percentDecode_length_le (s : List Char) : (percentDecode s).length ≤ s.length := by
  fun_induction percentDecode s with
  | case1 => exact le_rfl
  | case2 h1 h2 rest byte hbyte ih => simp; omega
  | case3 h1 h2 rest hbyte ih => simp; omega
  | case4 rest hshort => simp
  | case5 c rest hc ih => simp; omega

/-- It changes every text with a `%`, but for one at the end. -/
theorem percentDecode_eq_self {s : List Char} : percentDecode s = s ↔ '%' ∉ s.dropLast := by
  fun_induction percentDecode s with
  | case1 => simp
  | case2 h1 h2 rest byte hbyte ih =>
    have hle := percentDecode_length_le rest
    refine iff_of_false (fun h => ?_) (by simp)
    have hlength := congrArg List.length h
    simp at hlength
    omega
  | case3 h1 h2 rest hbyte ih =>
    have hle := percentDecode_length_le rest
    refine iff_of_false (fun h => ?_) (by simp)
    have hlength := congrArg List.length h
    simp at hlength
    omega
  | case4 rest hshort =>
    cases rest with
    | nil => simp
    | cons c rest => simp
  | case5 c rest hlong hshort ih =>
    have hc : '%' ≠ c := fun h => hshort h.symm
    cases rest with
    | nil => simp [percentDecode]
    | cons d rest =>
      rw [List.cons_inj_right, ih, List.dropLast_cons_of_ne_nil (List.cons_ne_nil d rest),
        List.mem_cons, or_iff_right hc]

end CaldavMcp
