/-
  Counting the bytes of UTF-8.

  A byte of UTF-8 is a continuation or begins a character, and then it announces how many
  continuations follow. In an encoded text the continuations are as many as are announced
  (`continuations_eq`), and the other bytes as many as the characters (`beginnings_eq`).
-/
import Mathlib

namespace Utf8

/-- The byte continues a character. -/
def isContinuation (b : UInt8) : Bool := 0x80 ≤ b.toNat && b.toNat < 0xC0

/-- The continuations that a byte announces. -/
def announced (b : UInt8) : Nat :=
  if b.toNat < 0xC0 then 0 else if b.toNat < 0xE0 then 1 else if b.toNat < 0xF0 then 2 else 3

/-- The continuations in some bytes. -/
def continuations (bytes : List UInt8) : Nat := bytes.countP isContinuation

/-- The bytes that begin a character. -/
def beginnings (bytes : List UInt8) : Nat := bytes.countP fun b => !isContinuation b

section

variable (a b : List UInt8)

theorem continuations_append : continuations (a ++ b) = continuations a + continuations b :=
  List.countP_append

theorem beginnings_append : beginnings (a ++ b) = beginnings a + beginnings b :=
  List.countP_append

theorem beginnings_add_continuations : beginnings a + continuations a = a.length := by
  have hboth := List.length_eq_countP_add_countP isContinuation (l := a)
  simp only [Bool.not_eq_true, Bool.decide_eq_false] at hboth
  rw [hboth, Nat.add_comm]
  rfl

end

/-- A byte beyond ASCII is a continuation, or announces one. -/
theorem continuation_or_announced {b : UInt8} (h : 128 ≤ b.toNat) :
    isContinuation b = true ∨ 0 < announced b := by
  unfold isContinuation announced
  by_cases hlow : b.toNat < 0xC0
  · exact Or.inl (by simp [h, hlow])
  · refine Or.inr ?_
    rw [if_neg hlow]
    split_ifs <;> decide

/-- A byte and as many continuations as it announces. -/
theorem sequence_counts {b : UInt8} {bs : List UInt8} (hb : isContinuation b = false)
    (hbs : ∀ b' ∈ bs, isContinuation b' = true ∧ announced b' = 0)
    (hlength : announced b = bs.length) :
    beginnings (b :: bs) = 1 ∧ continuations (b :: bs) = ((b :: bs).map announced).sum := by
  have hcount : continuations bs = bs.length :=
    List.countP_eq_length.mpr fun b' hb' => (hbs b' hb').1
  have hsum : (bs.map announced).sum = 0 := by
    rw [List.sum_eq_zero_iff_forall_eq_nat]
    intro k hk
    obtain ⟨b', hb', rfl⟩ := List.mem_map.mp hk
    exact (hbs b' hb').2
  have hone : continuations (b :: bs) = continuations bs := List.countP_cons_of_neg (by simp [hb])
  have htotal := beginnings_add_continuations (b :: bs)
  rw [List.length_cons, hone] at htotal
  rw [hone, List.map_cons, List.sum_cons, hsum, hcount, hlength]
  exact ⟨by omega, rfl⟩

section

variable {n : Nat}

theorem toNat_ofNat (h : n < 0x100) : (UInt8.ofNat n).toNat = n := UInt8.toNat_ofNat_of_lt' h

theorem follower (n : Nat) : isContinuation (UInt8.ofNat (n % 0x40 + 0x80)) = true ∧
    announced (UInt8.ofNat (n % 0x40 + 0x80)) = 0 := by
  unfold isContinuation announced
  rw [toNat_ofNat (by omega), if_pos (by omega)]
  exact ⟨by simp; omega, rfl⟩

theorem leader (h : n < 0x100) (hne : n < 0x80 ∨ 0xC0 ≤ n) :
    isContinuation (UInt8.ofNat n) = false ∧ announced (UInt8.ofNat n) =
      if n < 0xC0 then 0 else if n < 0xE0 then 1 else if n < 0xF0 then 2 else 3 := by
  unfold isContinuation announced
  rw [toNat_ofNat h]
  exact ⟨by simp; omega, rfl⟩

end

/-- The bytes of one character: it announces its continuations. -/
theorem encodeChar_counts (c : Char) :
    beginnings (String.utf8EncodeChar c) = 1 ∧
      continuations (String.utf8EncodeChar c) =
        ((String.utf8EncodeChar c).map announced).sum := by
  unfold String.utf8EncodeChar
  generalize c.val.toNat = v
  dsimp only
  by_cases h1 : v ≤ 0x7f
  · obtain ⟨hb, hlength⟩ := @leader v (by omega) (Or.inl (by omega))
    rw [if_pos (by omega)] at hlength
    rw [if_pos h1]
    exact sequence_counts hb nofun hlength
  rw [if_neg h1]
  by_cases h2 : v ≤ 0x7ff
  · obtain ⟨hb, hlength⟩ := @leader (v / 64 % 0x20 + 0xc0) (by omega) (Or.inr (by omega))
    rw [if_neg (by omega), if_pos (by omega)] at hlength
    rw [if_pos h2]
    exact sequence_counts hb (List.forall_mem_cons.mpr ⟨follower v, nofun⟩) hlength
  rw [if_neg h2]
  by_cases h3 : v ≤ 0xffff
  · obtain ⟨hb, hlength⟩ := @leader (v / 4096 % 0x10 + 0xe0) (by omega) (Or.inr (by omega))
    rw [if_neg (by omega), if_neg (by omega), if_pos (by omega)] at hlength
    rw [if_pos h3]
    exact sequence_counts hb (List.forall_mem_cons.mpr ⟨follower (v / 64),
      List.forall_mem_cons.mpr ⟨follower v, nofun⟩⟩) hlength
  · obtain ⟨hb, hlength⟩ := @leader (v / 262144 % 0x08 + 0xf0) (by omega) (Or.inr (by omega))
    rw [if_neg (by omega), if_neg (by omega), if_neg (by omega)] at hlength
    rw [if_neg h3]
    exact sequence_counts hb (List.forall_mem_cons.mpr ⟨follower (v / 4096),
      List.forall_mem_cons.mpr ⟨follower (v / 64), List.forall_mem_cons.mpr
        ⟨follower v, nofun⟩⟩⟩) hlength

section

variable (s : List Char)

theorem beginnings_eq : beginnings (s.flatMap String.utf8EncodeChar) = s.length := by
  induction s with
  | nil => rfl
  | cons c s ih =>
    rw [List.flatMap_cons, beginnings_append, ih, (encodeChar_counts c).1, List.length_cons,
      Nat.add_comm]

theorem continuations_eq : continuations (s.flatMap String.utf8EncodeChar) =
    ((s.flatMap String.utf8EncodeChar).map announced).sum := by
  induction s with
  | nil => rfl
  | cons c s ih =>
    rw [List.flatMap_cons, continuations_append, ih, (encodeChar_counts c).2, List.map_append,
      List.sum_append]

end

/-- The last byte of a character is of ASCII only if it is the character. -/
theorem encodeChar_ascii {c : Char} {bytes : List UInt8} {b : UInt8}
    (h : String.utf8EncodeChar c = bytes ++ [b]) (hb : b.toNat < 0x80) :
    bytes = [] ∧ c.toNat = b.toNat := by
  have hfollower : ∀ n, UInt8.ofNat (n % 0x40 + 0x80) ≠ b := by
    rintro n rfl
    rw [toNat_ofNat (by omega)] at hb
    omega
  unfold String.utf8EncodeChar at h
  have hv : c.toNat = c.val.toNat := rfl
  rw [hv]
  generalize c.val.toNat = v at h ⊢
  dsimp only at h
  have hlast := congrArg List.getLast? h
  rw [List.getLast?_concat] at hlast
  split_ifs at h hlast with h1 h2 h3
  · have hb' : UInt8.ofNat v = b := Option.some.inj hlast
    have hlength := congrArg List.length h
    rw [List.length_append] at hlength
    rw [← hb', toNat_ofNat (by omega)]
    exact ⟨List.length_eq_zero_iff.mp (Nat.succ.inj hlength).symm, rfl⟩
  · exact absurd (Option.some.inj hlast) (hfollower v)
  · exact absurd (Option.some.inj hlast) (hfollower v)
  · exact absurd (Option.some.inj hlast) (hfollower v)

theorem encodeChar_of_ascii {c : Char} (h : c.toNat < 0x80) :
    String.utf8EncodeChar c = [UInt8.ofNat c.toNat] := by
  unfold String.utf8EncodeChar
  exact if_pos (Nat.le_of_lt_succ h)

/-- A text whose last byte is of ASCII ends in that character. -/
theorem encode_snoc_ascii {s : List Char} {bytes : List UInt8} {c : Char} (hc : c.toNat < 0x80)
    (h : s.flatMap String.utf8EncodeChar = bytes ++ String.utf8EncodeChar c) :
    ∃ s', s = s' ++ [c] ∧ s'.flatMap String.utf8EncodeChar = bytes := by
  have hb : (UInt8.ofNat c.toNat).toNat = c.toNat := toNat_ofNat (by omega)
  rw [encodeChar_of_ascii hc] at h
  cases s using List.reverseRecOn with
  | nil => exact absurd h (by simp)
  | append_singleton s d _ =>
    rw [List.flatMap_append, List.flatMap_singleton] at h
    obtain ⟨front, last, hd⟩ : ∃ front last, String.utf8EncodeChar d = front ++ [last] :=
      ⟨_, _, (List.dropLast_concat_getLast String.utf8EncodeChar_ne_nil).symm⟩
    rw [hd, ← List.append_assoc] at h
    obtain ⟨hfront, hlast⟩ := List.append_inj' h rfl
    obtain rfl := List.singleton_inj.mp hlast
    obtain ⟨rfl, hchar⟩ := encodeChar_ascii hd (by omega)
    rw [hb] at hchar
    refine ⟨s, ?_, by rw [← hfront, List.append_nil]⟩
    rw [Char.toNat_inj.mp hchar]

theorem encode_inj {a b : List Char}
    (h : a.flatMap String.utf8EncodeChar = b.flatMap String.utf8EncodeChar) : a = b := by
  have hbytes : (String.ofList a).toByteArray = (String.ofList b).toByteArray :=
    congrArg List.toByteArray h
  exact String.ofList_inj.mp (String.toByteArray_inj.mp hbytes)

end Utf8
