/-
  The string functions of Rust's standard library that the server uses, over lists of
  characters, with wrappers on `String`.

  `lines` is `str::lines` (a line ends at LF or CR LF, a last empty line is dropped), `trim`
  removes Unicode White_Space, `trimEndMatches` removes every copy of a suffix, `splitOnce`
  splits at the first occurrence. `fromUtf8Lossy` is `String::from_utf8_lossy`: each maximal
  ill-formed part of the input becomes one U+FFFD.
-/
import CaldavMcp.Utf8
import Mathlib

namespace Text

open Utf8

/-! ## Prefixes and suffixes -/

/-- What follows a given start. -/
def stripPrefix? : List Char → List Char → Option (List Char)
  | [], s => some s
  | _ :: _, [] => none
  | p :: ps, c :: cs => if p = c then stripPrefix? ps cs else none

theorem stripPrefix?_append (p s : List Char) : stripPrefix? p (p ++ s) = some s := by
  induction p with
  | nil => cases s <;> rfl
  | cons c p ih => simpa [stripPrefix?] using ih

theorem stripPrefix?_eq_some {p s r : List Char} :
    stripPrefix? p s = some r ↔ s = p ++ r := by
  constructor
  · intro h
    induction p generalizing s with
    | nil =>
      cases s <;> exact Option.some.inj h
    | cons c p ih =>
      cases s with
      | nil => cases h
      | cons d s =>
        unfold stripPrefix? at h
        split at h
        · rename_i hcd
          rw [hcd, ih h]
          rfl
        · cases h
  · rintro rfl
    exact stripPrefix?_append p r

/-- What precedes a given end. -/
def stripSuffix? (p s : List Char) : Option (List Char) :=
  (stripPrefix? p.reverse s.reverse).map List.reverse

theorem stripSuffix?_eq_some {p s r : List Char} :
    stripSuffix? p s = some r ↔ s = r ++ p := by
  unfold stripSuffix?
  constructor
  · intro h
    obtain ⟨r', hr', rfl⟩ := Option.map_eq_some_iff.mp h
    have hrev := stripPrefix?_eq_some.mp hr'
    rw [← List.reverse_inj, hrev]
    simp
  · rintro rfl
    rw [List.reverse_append, stripPrefix?_append, Option.map_some, List.reverse_reverse]

def startsWith (p s : List Char) : Bool := (stripPrefix? p s).isSome

/-- Remove a suffix at most `n` times. -/
def trimEndTimes (p : List Char) : Nat → List Char → List Char
  | 0, s => s
  | n + 1, s =>
    match stripSuffix? p s with
    | some s' => trimEndTimes p n s'
    | none => s

/-- Remove a non-empty suffix as often as it occurs. -/
def trimEndMatches (p s : List Char) : List Char := trimEndTimes p s.length s

section

variable {p s : List Char}

/-- As many rounds as there are characters are enough. -/
theorem trimEndTimes_eq (hp : p ≠ []) {n : Nat} (hn : s.length ≤ n) :
    trimEndTimes p n s = trimEndMatches p s := by
  have hlen : 0 < p.length := List.length_pos_iff.mpr hp
  have h : ∀ (k n m : Nat) (s : List Char), s.length ≤ k → s.length ≤ n → s.length ≤ m →
      trimEndTimes p n s = trimEndTimes p m s := by
    intro k
    induction k with
    | zero =>
      intro n m s hk _ _
      have hnone : stripSuffix? p s = none := by
        by_contra hne
        obtain ⟨r, hr⟩ := Option.ne_none_iff_exists'.mp hne
        rw [stripSuffix?_eq_some.mp hr, List.length_append] at hk
        omega
      cases n <;> cases m <;> simp [trimEndTimes, hnone]
    | succ k ih =>
      intro n m s hk hn hm
      cases hs : stripSuffix? p s with
      | none => cases n <;> cases m <;> simp [trimEndTimes, hs]
      | some r =>
        have hr := congrArg List.length (stripSuffix?_eq_some.mp hs)
        rw [List.length_append] at hr
        obtain ⟨n', rfl⟩ : ∃ n', n = n' + 1 := ⟨n - 1, by omega⟩
        obtain ⟨m', rfl⟩ : ∃ m', m = m' + 1 := ⟨m - 1, by omega⟩
        simp only [trimEndTimes, hs]
        exact ih n' m' r (by omega) (by omega) (by omega)
  exact h s.length n s.length s le_rfl hn le_rfl

theorem trimEndMatches_append (hp : p ≠ []) : trimEndMatches p (s ++ p) = trimEndMatches p s := by
  have hlen : 0 < p.length := List.length_pos_iff.mpr hp
  have hs : stripSuffix? p (s ++ p) = some s := stripSuffix?_eq_some.mpr rfl
  obtain ⟨n, hn⟩ : ∃ n, (s ++ p).length = n + 1 :=
    ⟨s.length + p.length - 1, by rw [List.length_append]; omega⟩
  rw [List.length_append] at hn
  unfold trimEndMatches
  rw [List.length_append, hn]
  simp only [trimEndTimes, hs]
  exact trimEndTimes_eq hp (by omega)

theorem trimEndTimes_length_le (n : Nat) : (trimEndTimes p n s).length ≤ s.length := by
  induction n generalizing s with
  | zero => exact le_rfl
  | succ n ih =>
    cases hs : stripSuffix? p s with
    | none => simp [trimEndTimes, hs]
    | some r =>
      have hr := congrArg List.length (stripSuffix?_eq_some.mp hs)
      rw [List.length_append] at hr
      have := @ih r
      simp only [trimEndTimes, hs]
      omega

theorem trimEndMatches_length_le : (trimEndMatches p s).length ≤ s.length :=
  trimEndTimes_length_le s.length

/-- Nothing is removed exactly when the suffix is not there. -/
theorem trimEndMatches_eq_self (hp : p ≠ []) : trimEndMatches p s = s ↔ ¬ p <:+ s := by
  have hlen : 0 < p.length := List.length_pos_iff.mpr hp
  constructor
  · rintro h ⟨r, rfl⟩
    rw [trimEndMatches_append hp] at h
    have hl := @trimEndMatches_length_le p r
    have he := congrArg List.length h
    rw [List.length_append] at he
    omega
  · intro h
    have hs : stripSuffix? p s = none := by
      by_contra hne
      obtain ⟨r, hr⟩ := Option.ne_none_iff_exists'.mp hne
      exact h ⟨r, (stripSuffix?_eq_some.mp hr).symm⟩
    unfold trimEndMatches
    cases s.length <;> simp [trimEndTimes, hs]

end

/-- The parts before and after the first `sep`. -/
def splitOnce (sep : Char) : List Char → Option (List Char × List Char)
  | [] => none
  | c :: cs =>
    if c = sep then some ([], cs) else (splitOnce sep cs).map fun (a, b) => (c :: a, b)

theorem splitOnce_append {sep : Char} {a : List Char} (ha : sep ∉ a) (b : List Char) :
    splitOnce sep (a ++ sep :: b) = some (a, b) := by
  induction a with
  | nil => simp [splitOnce]
  | cons c a ih =>
    rw [List.mem_cons, not_or] at ha
    simp [splitOnce, Ne.symm ha.1, ih ha.2]

theorem splitOnce_of_not_mem {sep : Char} {a : List Char} (ha : sep ∉ a) :
    splitOnce sep a = none := by
  induction a with
  | nil => rfl
  | cons c a ih =>
    rw [List.mem_cons, not_or] at ha
    simp [splitOnce, Ne.symm ha.1, ih ha.2]

/-- The part after the last `sep`, or everything: `rsplit(sep).next()`. -/
def afterLast (sep : Char) (s : List Char) : List Char :=
  (s.reverse.takeWhile (· ≠ sep)).reverse

theorem afterLast_append (sep : Char) (a b : List Char) :
    afterLast sep (a ++ sep :: b) = afterLast sep b := by
  unfold afterLast
  rw [List.reverse_append, List.reverse_cons, List.append_assoc, List.takeWhile_append]
  split
  · rename_i h
    rw [(List.takeWhile_prefix _).eq_of_length h]
    simp
  · rfl

theorem afterLast_of_not_mem {sep : Char} {s : List Char} (h : sep ∉ s) : afterLast sep s = s := by
  unfold afterLast
  rw [List.takeWhile_eq_self_iff.mpr fun c hc => ?_, List.reverse_reverse]
  exact decide_eq_true fun heq => h (heq ▸ List.mem_reverse.mp hc)

theorem afterLast_length_lt {sep : Char} {s : List Char} (h : sep ∈ s) :
    (afterLast sep s).length < s.length := by
  obtain ⟨a, b, rfl⟩ := List.append_of_mem h
  have hle : (afterLast sep b).length ≤ b.length := by
    have hsub : (b.reverse.takeWhile (· ≠ sep)).length ≤ b.reverse.length :=
      (List.takeWhile_sublist _).length_le
    unfold afterLast
    rwa [List.length_reverse, ← @List.length_reverse _ b]
  rw [afterLast_append, List.length_append, List.length_cons]
  omega

/-- The parts between the separators. -/
def splitAll (sep : Char) : List Char → List (List Char)
  | [] => [[]]
  | c :: cs =>
    if c = sep then [] :: splitAll sep cs
    else match splitAll sep cs with
      | [] => [[c]]
      | part :: parts => (c :: part) :: parts

section

variable {sep : Char}

theorem splitAll_length (s : List Char) : (splitAll sep s).length = s.count sep + 1 := by
  induction s with
  | nil => rfl
  | cons c s ih =>
    unfold splitAll
    by_cases hc : c = sep
    · rw [if_pos hc, List.length_cons, ih, hc, List.count_cons_self]
    · rw [if_neg hc, List.count_cons_of_ne hc, ← ih]
      cases h : splitAll sep s with
      | nil =>
        rw [h] at ih
        cases ih
      | cons part parts => rfl

theorem splitAll_of_not_mem {s : List Char} (h : sep ∉ s) : splitAll sep s = [s] := by
  induction s with
  | nil => rfl
  | cons c s ih =>
    rw [List.mem_cons, not_or] at h
    simp [splitAll, Ne.symm h.1, ih h.2]

theorem splitAll_append (a b : List Char) :
    splitAll sep (a ++ sep :: b) = splitAll sep a ++ splitAll sep b := by
  induction a with
  | nil => simp [splitAll]
  | cons c a ih =>
    by_cases hc : c = sep
    · simp [splitAll, hc, ih]
    · cases h : splitAll sep a with
      | nil =>
        have hlength := @splitAll_length sep a
        rw [h] at hlength
        cases hlength
      | cons part parts => simp [splitAll, hc, ih, h]

end

/-! ## White space and lines -/

/-- `char::is_whitespace`. -/
def isWhitespace (c : Char) : Bool :=
  let n := c.toNat
  (0x9 ≤ n && n ≤ 0xd) || n = 0x20 || n = 0x85 || n = 0xa0 || n = 0x1680 ||
    (0x2000 ≤ n && n ≤ 0x200a) || n = 0x2028 || n = 0x2029 || n = 0x202f || n = 0x205f ||
    n = 0x3000

def trim (s : List Char) : List Char :=
  ((s.dropWhile isWhitespace).reverse.dropWhile isWhitespace).reverse

/-- `lines`, with the current line reversed. -/
def linesFrom (line : List Char) : List Char → List (List Char)
  | [] => if line.isEmpty then [] else [line.reverse]
  | c :: cs =>
    if c = '\n' then
      (match line with
        | '\r' :: rest => rest.reverse
        | _ => line.reverse) :: linesFrom [] cs
    else linesFrom (c :: line) cs

def lines (s : List Char) : List (List Char) := linesFrom [] s

/-! ## UTF-8 -/

/-- U+FFFD. -/
def replacement : Char := Char.ofNat 0xfffd

/-- `b` lies in `[lo, hi]`. -/
def inRange (lo hi : Nat) (b : UInt8) : Bool := lo ≤ b.toNat && b.toNat ≤ hi

/-- A continuation byte. -/
def isCont (b : UInt8) : Bool := inRange 0x80 0xbf b

/-- The second bytes allowed after a lead byte of three or four. -/
def secondOk (b b2 : UInt8) : Bool :=
  if b = 0xe0 then inRange 0xa0 0xbf b2
  else if b = 0xed then inRange 0x80 0x9f b2
  else if b = 0xf0 then inRange 0x90 0xbf b2
  else if b = 0xf4 then inRange 0x80 0x8f b2
  else isCont b2

def bits (b : UInt8) (n : Nat) : Nat := b.toNat % 2 ^ n

/-- The character at the front of `b :: r`, and how many bytes of `r` belong to it. -/
def decodeOne (b : UInt8) (r : List UInt8) : Char × Nat :=
  if b < 0x80 then (Char.ofNat b.toNat, 0)
  else if inRange 0xc2 0xdf b then
    match r with
    | b2 :: _ =>
      if isCont b2 then (Char.ofNat (bits b 5 * 2 ^ 6 + bits b2 6), 1) else (replacement, 0)
    | [] => (replacement, 0)
  else if inRange 0xe0 0xef b then
    match r with
    | b2 :: b3 :: _ =>
      if !secondOk b b2 then (replacement, 0)
      else if !isCont b3 then (replacement, 1)
      else (Char.ofNat (bits b 4 * 2 ^ 12 + bits b2 6 * 2 ^ 6 + bits b3 6), 2)
    | [b2] => (replacement, if secondOk b b2 then 1 else 0)
    | [] => (replacement, 0)
  else if inRange 0xf0 0xf4 b then
    match r with
    | b2 :: b3 :: b4 :: _ =>
      if !secondOk b b2 then (replacement, 0)
      else if !isCont b3 then (replacement, 1)
      else if !isCont b4 then (replacement, 2)
      else (Char.ofNat (bits b 3 * 2 ^ 18 + bits b2 6 * 2 ^ 12 + bits b3 6 * 2 ^ 6 + bits b4 6), 3)
    | [b2, b3] => (replacement, if !secondOk b b2 then 0 else if !isCont b3 then 1 else 2)
    | [b2] => (replacement, if secondOk b b2 then 1 else 0)
    | [] => (replacement, 0)
  else (replacement, 0)

/-- Lossy decoding of UTF-8, after `skip` bytes that belong to the last character. -/
def utf8LossyFrom : (skip : Nat) → List UInt8 → List Char
  | _, [] => []
  | n + 1, _ :: r => utf8LossyFrom n r
  | 0, b :: r => (decodeOne b r).1 :: utf8LossyFrom (decodeOne b r).2 r

def utf8Lossy (bytes : List UInt8) : List Char := utf8LossyFrom 0 bytes

example : utf8Lossy [0x61, 0xe2, 0x82, 0xac, 0xff, 0xe2, 0x82] =
    ['a', '€', replacement, replacement] := by decide

/-! ### Decoding what is encoded -/

section

variable {n : Nat}

theorem bits_ofNat {m k : Nat} (hm : m < 2 ^ k) (hk : 2 ^ k ∣ n) (h : m + n < 0x100) :
    bits (UInt8.ofNat (m + n)) k = m := by
  obtain ⟨q, rfl⟩ := hk
  unfold bits
  rw [toNat_ofNat h, Nat.add_mul_mod_self_left, Nat.mod_eq_of_lt hm]

theorem inRange_ofNat {lo hi : Nat} (h : n < 0x100) :
    inRange lo hi (UInt8.ofNat n) = true ↔ lo ≤ n ∧ n ≤ hi := by
  unfold inRange
  rw [toNat_ofNat h, Bool.and_eq_true, decide_eq_true_iff, decide_eq_true_iff]

theorem ofNat_eq_iff {m : Nat} (h : n < 0x100) (hm : m < 0x100) :
    UInt8.ofNat n = UInt8.ofNat m ↔ n = m := by
  rw [← UInt8.toNat_inj, toNat_ofNat h, toNat_ofNat hm]

/-- The second byte of a sequence that is no other character's and no surrogate's. -/
theorem secondOk_ofNat {m : Nat} (hn : n < 0x100) (hm : 0x80 ≤ m ∧ m ≤ 0xbf)
    (hlow : n = 0xe0 → 0xa0 ≤ m) (hsurrogate : n = 0xed → m ≤ 0x9f) (hfour : n = 0xf0 → 0x90 ≤ m)
    (hhigh : n = 0xf4 → m ≤ 0x8f) : secondOk (UInt8.ofNat n) (UInt8.ofNat m) = true := by
  have heq : ∀ k, k < 0x100 → (UInt8.ofNat n = UInt8.ofNat k ↔ n = k) :=
    fun k hk => ofNat_eq_iff hn hk
  have hrange : ∀ lo hi, lo ≤ m ∧ m ≤ hi → inRange lo hi (UInt8.ofNat m) = true :=
    fun lo hi h => (inRange_ofNat (by omega)).mpr h
  unfold secondOk
  split_ifs with h1 h2 h3 h4
  · exact hrange _ _ ⟨hlow ((heq 0xe0 (by decide)).mp h1), hm.2⟩
  · exact hrange _ _ ⟨hm.1, hsurrogate ((heq 0xed (by decide)).mp h2)⟩
  · exact hrange _ _ ⟨hfour ((heq 0xf0 (by decide)).mp h3), hm.2⟩
  · exact hrange _ _ ⟨hm.1, hhigh ((heq 0xf4 (by decide)).mp h4)⟩
  · exact hrange _ _ hm

end

/-- A character that is encoded is decoded. -/
theorem decodeOne_encode (c : Char) (rest : List UInt8) : ∃ b bs,
    String.utf8EncodeChar c = b :: bs ∧ decodeOne b (bs ++ rest) = (c, bs.length) := by
  have hvalid : c.toNat < 0xd800 ∨ 0xdfff < c.toNat ∧ c.toNat < 0x110000 := c.valid
  have hchar : Char.ofNat c.toNat = c := Char.ofNat_toNat c
  have hv : c.val.toNat = c.toNat := rfl
  unfold String.utf8EncodeChar
  rw [hv]
  generalize c.toNat = v at hvalid hchar
  dsimp only
  have hcont : ∀ n, isCont (UInt8.ofNat (n % 0x40 + 0x80)) = true :=
    fun n => (inRange_ofNat (by omega)).mpr (by omega)
  have hbits : ∀ n, bits (UInt8.ofNat (n % 0x40 + 0x80)) 6 = n % 0x40 :=
    fun n => bits_ofNat (by omega) (by decide) (by omega)
  have hbeyond : ∀ n, 0x80 ≤ n → n < 0x100 → ¬ UInt8.ofNat n < 0x80 := by
    intro n hlow hhigh
    rw [UInt8.lt_iff_toNat_lt, toNat_ofNat hhigh]
    exact not_lt.mpr hlow
  have hnot : ∀ {lo hi n}, n < 0x100 → n < lo ∨ hi < n →
      ¬ inRange lo hi (UInt8.ofNat n) = true := by
    intro lo hi n hn hout h
    have := (inRange_ofNat hn).mp h
    omega
  -- one to four bytes
  split_ifs with h1 h2 h3
  · refine ⟨_, _, rfl, ?_⟩
    unfold decodeOne
    rw [if_pos]
    · rw [toNat_ofNat (by omega), hchar]
      rfl
    · rw [UInt8.lt_iff_toNat_lt, toNat_ofNat (by omega)]
      exact Nat.lt_succ_of_le h1
  · refine ⟨_, _, rfl, ?_⟩
    unfold decodeOne
    rw [if_neg (hbeyond _ (by omega) (by omega)),
      if_pos ((inRange_ofNat (by omega)).mpr (by omega))]
    simp only [List.cons_append, hcont, if_true, hbits]
    rw [bits_ofNat (by omega) (by decide) (by omega), ← hchar]
    congr 2
    omega
  · have hsecond := secondOk_ofNat (n := v / 0x1000 % 0x10 + 0xe0)
      (m := v / 0x40 % 0x40 + 0x80) (by omega) (by omega) (by omega) (by omega) (by omega)
      (by omega)
    refine ⟨_, _, rfl, ?_⟩
    unfold decodeOne
    rw [if_neg (hbeyond _ (by omega) (by omega)), if_neg (hnot (by omega) (by omega)),
      if_pos ((inRange_ofNat (by omega)).mpr (by omega))]
    simp only [List.cons_append, hcont, hsecond, Bool.not_true, Bool.false_eq_true, if_false,
      hbits]
    rw [bits_ofNat (by omega) (by decide) (by omega), ← hchar]
    congr 2
    omega
  · have hsecond := secondOk_ofNat (n := v / 0x40000 % 0x8 + 0xf0)
      (m := v / 0x1000 % 0x40 + 0x80) (by omega) (by omega) (by omega) (by omega) (by omega)
      (by omega)
    refine ⟨_, _, rfl, ?_⟩
    unfold decodeOne
    rw [if_neg (hbeyond _ (by omega) (by omega)), if_neg (hnot (by omega) (by omega)),
      if_neg (hnot (by omega) (by omega)), if_pos ((inRange_ofNat (by omega)).mpr (by omega))]
    simp only [List.cons_append, hcont, hsecond, Bool.not_true, Bool.false_eq_true, if_false,
      hbits]
    rw [bits_ofNat (by omega) (by decide) (by omega), ← hchar]
    congr 2
    omega

theorem utf8LossyFrom_append (bs rest : List UInt8) :
    utf8LossyFrom bs.length (bs ++ rest) = utf8LossyFrom 0 rest := by
  induction bs with
  | nil => rfl
  | cons b bs ih => exact ih

/-- What is encoded is decoded, with nothing lost. -/
theorem utf8Lossy_encode (s : List Char) :
    utf8Lossy (s.flatMap String.utf8EncodeChar) = s := by
  induction s with
  | nil => rfl
  | cons c s ih =>
    obtain ⟨b, bs, hbytes, hdecode⟩ := decodeOne_encode c (s.flatMap String.utf8EncodeChar)
    rw [List.flatMap_cons, hbytes]
    unfold utf8Lossy at ih ⊢
    rw [List.cons_append, utf8LossyFrom, hdecode, utf8LossyFrom_append, ih]

end Text

namespace String

/-- The bytes of a string are read back. -/
theorem fromUTF8?_toUTF8 (s : String) : fromUTF8? s.toUTF8 = some s := by
  unfold fromUTF8?
  rw [toUTF8_eq_toByteArray, dif_pos s.isValidUTF8]
  rfl

/-- Bytes that are read are those of the string. -/
theorem toUTF8_of_fromUTF8? {bytes : ByteArray} {s : String} (h : fromUTF8? bytes = some s) :
    s.toUTF8 = bytes := by
  unfold fromUTF8? at h
  split at h
  · rw [← Option.some.inj h]
    rfl
  · cases h

def fromUtf8Lossy (bytes : ByteArray) : String := ofList (Text.utf8Lossy bytes.data.toList)

/-- The bytes of a string lose nothing. -/
theorem fromUtf8Lossy_toUTF8 (s : String) : fromUtf8Lossy s.toUTF8 = s := by
  have hbytes : s.toUTF8 = (s.toList.flatMap utf8EncodeChar).toByteArray := by
    rw [← ofList_toList (s := s), toList_ofList]
    rfl
  unfold fromUtf8Lossy
  rw [hbytes, List.toList_data_toByteArray, Text.utf8Lossy_encode, ofList_toList]

def stripStart? (s p : String) : Option String :=
  (Text.stripPrefix? p.toList s.toList).map ofList

theorem stripStart?_append (p s : String) : (p ++ s).stripStart? p = some s := by
  unfold stripStart?
  rw [toList_append, Text.stripPrefix?_append, Option.map_some, ofList_toList]

def stripEnd? (s p : String) : Option String :=
  (Text.stripSuffix? p.toList s.toList).map ofList

def beginsWith (s p : String) : Bool := Text.startsWith p.toList s.toList

def trimEnds (s p : String) : String := ofList (Text.trimEndMatches p.toList s.toList)

def splitFirst (s : String) (sep : Char) : Option (String × String) :=
  (Text.splitOnce sep s.toList).map fun (a, b) => (ofList a, ofList b)

end String
