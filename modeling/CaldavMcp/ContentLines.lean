/-
  Content lines (`src/ical/parser.rs`): how they are folded, and what stands before the value.

  A `FoldedLine` is a content line as it is written, in pieces: each piece but the first stands
  behind a line break and one blank. A `FoldedText` is a sequence of these, with line breaks of
  either kind and blank lines anywhere between. `unfold_lines` reads the content lines back
  (`unfold_inverts_fold`): `str::lines` finds the lines as they are written
  (`lines_lineBreak`), and the loop over them puts the pieces together, since an empty line and
  a first piece both end the line before, and a continuation never does
  (`unfoldLinesFrom_line`).

  `extract_property` takes what follows the first colon behind the name. That is the value
  exactly when no quoted parameter value has a colon (`extractProperty_iff`).
-/
import CaldavMcp.Ical

namespace Text

/-! ## Lines -/

/-- A line break. -/
inductive LineBreak where
  | crlf
  | lf

def LineBreak.chars : LineBreak → List Char
  | crlf => ['\r', '\n']
  | lf => ['\n']

section

variable {line : List Char}

theorem linesFrom_append (h : '\n' ∉ line) (current rest : List Char) :
    linesFrom current (line ++ rest) = linesFrom (line.reverse ++ current) rest := by
  induction line generalizing current with
  | nil => rfl
  | cons c line ih =>
    rw [List.mem_cons, not_or] at h
    change (if c = '\n' then _ else linesFrom (c :: current) (line ++ rest)) = _
    rw [if_neg (Ne.symm h.1), ih h.2, List.reverse_cons, List.append_assoc,
      List.singleton_append]

/-- A line ends at its line break. -/
theorem lines_lineBreak (hlf : '\n' ∉ line) (hcr : line.getLast? ≠ some '\r') (b : LineBreak)
    (rest : List Char) : lines (line ++ b.chars ++ rest) = line :: lines rest := by
  unfold lines
  rw [List.append_assoc, linesFrom_append hlf, List.append_nil]
  cases b with
  | crlf =>
    change line.reverse.reverse :: linesFrom [] rest = _
    rw [List.reverse_reverse]
  | lf =>
    rw [show LineBreak.lf.chars ++ rest = '\n' :: rest from rfl, linesFrom, if_pos rfl]
    · rw [List.reverse_reverse]
    · intro more h
      rw [← List.head?_reverse, h] at hcr
      exact hcr rfl

/-- The last line needs no line break. -/
theorem lines_last (hlf : '\n' ∉ line) (hne : line ≠ []) : lines line = [line] := by
  have happend := linesFrom_append hlf [] []
  rw [List.append_nil, List.append_nil] at happend
  unfold lines
  rw [happend]
  unfold linesFrom
  rw [if_neg, List.reverse_reverse]
  rw [List.isEmpty_reverse, List.isEmpty_iff]
  exact hne

end

end Text

namespace CaldavMcp

open Text

/-! ## Folding -/

/-- The blank that a continuation starts with. -/
inductive Indent where
  | space
  | tab

def Indent.char : Indent → Char
  | space => ' '
  | tab => '\t'

/-- A piece of a content line behind a fold. -/
structure Continuation where
  lineBreak : LineBreak
  indent : Indent
  piece : List Char

/-- A content line: not empty, without line ends, and it does not look like a continuation. -/
structure ContentLine (line : List Char) : Prop where
  ne_nil : line ≠ []
  noCr : '\r' ∉ line
  noLf : '\n' ∉ line
  unindented : ∀ c ∈ line.head?, c ≠ ' ' ∧ c ≠ '\t'

/-- A content line as it is written, with a fold before each continuation. Pieces may be empty. -/
structure FoldedLine where
  first : List Char
  more : List Continuation
  proper : ContentLine (first ++ more.flatMap (·.piece))

/-- A folded line with the line break that ends it, and the blank lines behind. -/
structure EndedLine where
  line : FoldedLine
  ending : LineBreak
  blanks : List LineBreak

/-- A text of folded lines. Blank lines may stand at its start, and its last line may lack the
    line break. -/
structure FoldedText where
  blanks : List LineBreak
  ended : List EndedLine
  last : Option FoldedLine

namespace FoldedLine

/-- The content line. -/
def content (f : FoldedLine) : List Char := f.first ++ f.more.flatMap (·.piece)

/-- What is written. -/
def text (f : FoldedLine) : List Char :=
  f.first ++ f.more.flatMap fun c => c.lineBreak.chars ++ c.indent.char :: c.piece

/-- The lines it takes. -/
def written (f : FoldedLine) : List (List Char) :=
  f.first :: f.more.map fun c => c.indent.char :: c.piece

end FoldedLine

/-- Blank lines. -/
def blankText (blanks : List LineBreak) : List Char := blanks.flatMap LineBreak.chars

namespace FoldedText

def contents (t : FoldedText) : List (List Char) :=
  t.ended.map (·.line.content) ++ (t.last.map (·.content)).toList

def text (t : FoldedText) : List Char :=
  blankText t.blanks ++
    (t.ended.flatMap (fun e => e.line.text ++ e.ending.chars ++ blankText e.blanks) ++
      (t.last.map (·.text)).getD [])

end FoldedText

/-! ### The lines that are written -/

/-- No line end. -/
def Unbroken (line : List Char) : Prop := '\n' ∉ line ∧ '\r' ∉ line

section

variable (f : FoldedLine)

theorem FoldedLine.unbroken_piece {c : Continuation} (hc : c ∈ f.more) : Unbroken c.piece := by
  have hmem : ∀ d ∈ c.piece, d ∈ f.first ++ f.more.flatMap (·.piece) := fun d hd =>
    List.mem_append_right _ (List.mem_flatMap.mpr ⟨c, hc, hd⟩)
  exact ⟨fun h => f.proper.noLf (hmem _ h), fun h => f.proper.noCr (hmem _ h)⟩

theorem FoldedLine.unbroken_first : Unbroken f.first :=
  ⟨fun h => f.proper.noLf (List.mem_append_left _ h),
    fun h => f.proper.noCr (List.mem_append_left _ h)⟩

theorem Unbroken.indented {piece : List Char} (h : Unbroken piece) (i : Indent) :
    Unbroken (i.char :: piece) := by
  obtain ⟨hlf, hcr⟩ := h
  cases i <;> simp [Unbroken, Indent.char, hlf, hcr]

theorem Unbroken.lines_lineBreak {line : List Char} (h : Unbroken line) (b : LineBreak)
    (rest : List Char) : lines (line ++ b.chars ++ rest) = line :: lines rest :=
  Text.lines_lineBreak h.1 (fun hlast => h.2 (List.mem_of_getLast? hlast)) b rest

theorem lines_blank (b : LineBreak) (rest : List Char) :
    lines (b.chars ++ rest) = [] :: lines rest :=
  Text.lines_lineBreak List.not_mem_nil (by simp) b rest

theorem lines_blankText (blanks : List LineBreak) (rest : List Char) :
    lines (blankText blanks ++ rest) = List.replicate blanks.length [] ++ lines rest := by
  induction blanks with
  | nil => rfl
  | cons b blanks ih =>
    unfold blankText at ih ⊢
    rw [List.flatMap_cons, List.append_assoc, lines_blank, ih, List.length_cons,
      List.replicate_succ, List.cons_append]

/-- The folds are line breaks, too. -/
theorem lines_pieces {first : List Char} {more : List Continuation} (hfirst : Unbroken first)
    (hmore : ∀ c ∈ more, Unbroken c.piece) (b : LineBreak) (rest : List Char) :
    lines (first ++ more.flatMap (fun c => c.lineBreak.chars ++ c.indent.char :: c.piece) ++
        b.chars ++ rest) =
      first :: (more.map fun c => c.indent.char :: c.piece) ++ lines rest := by
  induction more generalizing first with
  | nil =>
    rw [List.flatMap_nil, List.append_nil, hfirst.lines_lineBreak]
    rfl
  | cons c more ih =>
    rw [List.forall_mem_cons] at hmore
    have hnext := ih (hmore.1.indented c.indent) hmore.2
    rw [List.flatMap_cons, List.map_cons]
    simp only [List.append_assoc] at hnext ⊢
    rw [← List.append_assoc, hfirst.lines_lineBreak, hnext]
    rfl

theorem lines_pieces_last {first : List Char} {more : List Continuation}
    (hfirst : Unbroken first) (hmore : ∀ c ∈ more, Unbroken c.piece)
    (hne : first ++ more.flatMap (·.piece) ≠ []) :
    lines (first ++ more.flatMap fun c => c.lineBreak.chars ++ c.indent.char :: c.piece) =
      first :: more.map fun c => c.indent.char :: c.piece := by
  induction more generalizing first with
  | nil =>
    rw [List.flatMap_nil, List.append_nil] at hne ⊢
    exact lines_last hfirst.1 hne
  | cons c more ih =>
    rw [List.forall_mem_cons] at hmore
    have hnext := ih (hmore.1.indented c.indent) hmore.2 (by simp)
    rw [List.flatMap_cons, List.map_cons]
    simp only [List.append_assoc, List.cons_append] at hnext ⊢
    rw [← List.append_assoc, hfirst.lines_lineBreak, hnext]

theorem FoldedLine.lines_text (b : LineBreak) (rest : List Char) :
    lines (f.text ++ (b.chars ++ rest)) = f.written ++ lines rest := by
  rw [← List.append_assoc]
  exact lines_pieces f.unbroken_first (fun _ hc => f.unbroken_piece hc) b rest

theorem FoldedLine.lines_text_last : lines f.text = f.written :=
  lines_pieces_last f.unbroken_first (fun _ hc => f.unbroken_piece hc) f.proper.ne_nil

/-- The lines of a text, as they are written. -/
def FoldedText.written (t : FoldedText) : List (List Char) :=
  List.replicate t.blanks.length [] ++
    (t.ended.flatMap (fun e => e.line.written ++ List.replicate e.blanks.length []) ++
      (t.last.map (·.written)).getD [])

theorem FoldedText.lines_text (t : FoldedText) : lines t.text = t.written := by
  obtain ⟨blanks, ended, last⟩ := t
  unfold text written
  rw [lines_blankText]
  refine congrArg (List.replicate blanks.length [] ++ ·) ?_
  induction ended with
  | nil =>
    cases last with
    | none => rfl
    | some f => exact f.lines_text_last
  | cons e ended ih =>
    rw [List.flatMap_cons, List.flatMap_cons]
    simp only [List.append_assoc]
    rw [e.line.lines_text, lines_blankText]
    simp only [List.append_assoc] at ih
    rw [ih]

/-! ### The loop -/

/-- The line under construction, when it ends. -/
def flush (current : List Char) : List (List Char) := if current.isEmpty then [] else [current]

theorem trimEnd_unbroken {line : List Char} (h : Unbroken line) :
    trimEndMatches ['\r'] line = line := by
  rw [trimEndMatches_eq_self (by decide)]
  rintro ⟨a, rfl⟩
  exact h.2 (by simp)

/-- A continuation adds its piece. -/
theorem unfoldLinesFrom_indented {piece : List Char} (h : Unbroken piece) (i : Indent)
    (current : List Char) (rest : List (List Char)) :
    unfoldLinesFrom current ((i.char :: piece) :: rest) =
      unfoldLinesFrom (current ++ piece) rest := by
  rw [unfoldLinesFrom, trimEnd_unbroken (h.indented i)]
  cases i <;> rfl

/-- Any other line ends the one before, and starts anew. -/
theorem unfoldLinesFrom_unindented {rawLine line : List Char}
    (hcr : trimEndMatches ['\r'] rawLine = line) (h : ∀ c ∈ line.head?, c ≠ ' ' ∧ c ≠ '\t')
    (current : List Char) (rest : List (List Char)) :
    unfoldLinesFrom current (rawLine :: rest) = flush current ++ unfoldLinesFrom line rest := by
  have hstep : unfoldLinesFrom current (rawLine :: rest) =
      if current.isEmpty then unfoldLinesFrom line rest
      else current :: unfoldLinesFrom line rest := by
    rw [unfoldLinesFrom, hcr]
    split
    · exact absurd rfl (h ' ' rfl).1
    · exact absurd rfl (h '\t' rfl).2
    · rfl
  rw [hstep]
  unfold flush
  split <;> rfl

/-- Blank lines end the line before, and add nothing. -/
theorem unfoldLinesFrom_blanks {rest ls : List (List Char)}
    (hrest : ∀ current, unfoldLinesFrom current rest = flush current ++ ls) (n : Nat)
    (current : List Char) :
    unfoldLinesFrom current (List.replicate n [] ++ rest) = flush current ++ ls := by
  induction n generalizing current with
  | zero => exact hrest current
  | succ n ih =>
    have hblank : trimEndMatches ['\r'] [] = [] := rfl
    rw [List.replicate_succ, List.cons_append, unfoldLinesFrom_unindented hblank (by simp), ih]
    rfl

theorem unfoldLinesFrom_pieces {more : List Continuation}
    (h : ∀ c ∈ more, Unbroken c.piece) (current : List Char) (rest : List (List Char)) :
    unfoldLinesFrom current ((more.map fun c => c.indent.char :: c.piece) ++ rest) =
      unfoldLinesFrom (current ++ more.flatMap (·.piece)) rest := by
  induction more generalizing current with
  | nil =>
    rw [List.flatMap_nil, List.append_nil]
    rfl
  | cons c more ih =>
    rw [List.forall_mem_cons] at h
    rw [List.map_cons, List.cons_append, unfoldLinesFrom_indented h.1, ih h.2,
      List.flatMap_cons, List.append_assoc]

/-- The pieces of a line are put together, and the line before has ended. -/
theorem unfoldLinesFrom_line (current : List Char) (rest : List (List Char)) :
    unfoldLinesFrom current (f.written ++ rest) =
      flush current ++ unfoldLinesFrom f.content rest := by
  have hfirst : ∀ c ∈ f.first.head?, c ≠ ' ' ∧ c ≠ '\t' := by
    intro c hc
    apply f.proper.unindented c
    rw [List.head?_append, Option.mem_def.mp hc]
    rfl
  unfold FoldedLine.written
  rw [List.cons_append, unfoldLinesFrom_unindented (trimEnd_unbroken f.unbroken_first) hfirst,
    unfoldLinesFrom_pieces fun _ hc => f.unbroken_piece hc]
  rfl

theorem FoldedLine.flush_content : flush f.content = [f.content] := by
  unfold flush
  rw [if_neg]
  rw [List.isEmpty_iff]
  exact f.proper.ne_nil

end

/-- The loop over a text gives the content lines, behind the line before. -/
theorem unfoldLinesFrom_text (ended : List EndedLine) (last : Option FoldedLine)
    (current : List Char) :
    unfoldLinesFrom current
        (ended.flatMap (fun e => e.line.written ++ List.replicate e.blanks.length []) ++
          (last.map (·.written)).getD []) =
      flush current ++ (ended.map (·.line.content) ++ (last.map (·.content)).toList) := by
  induction ended generalizing current with
  | nil =>
    cases last with
    | none => exact (List.append_nil _).symm
    | some f =>
      have hline := unfoldLinesFrom_line f current []
      rw [List.append_nil] at hline
      rw [List.flatMap_nil, List.nil_append, Option.map_some, Option.getD_some, hline,
        unfoldLinesFrom]
      exact congrArg (flush current ++ ·) f.flush_content
  | cons e ended ih =>
    rw [List.flatMap_cons, List.append_assoc, List.append_assoc, unfoldLinesFrom_line,
      unfoldLinesFrom_blanks ih, e.line.flush_content]
    rfl

/-- **Unfolding inverts folding.** However content lines are folded, with whatever line breaks
    and blank lines between them, unfolding gives the content lines. -/
theorem unfold_inverts_fold (t : FoldedText) : unfoldLines t.text = t.contents := by
  have htext := unfoldLinesFrom_blanks (unfoldLinesFrom_text t.ended t.last) t.blanks.length []
  unfold unfoldLines
  rw [t.lines_text]
  exact htext

example : unfoldLines "SUMMARY:This is a long\r\n summary that wraps\r\n".toList =
    ["SUMMARY:This is a longsummary that wraps".toList] := by decide

/-! ## Parameters -/

/-- A character of a parameter's name. -/
def isParamNameChar (c : Char) : Bool :=
  ('a' ≤ c && c ≤ 'z') || ('A' ≤ c && c ≤ 'Z') || ('0' ≤ c && c ≤ '9') || c = '-'

/-- A character of a plain parameter value: no control character but the tab, no quote and no
    separator. -/
def isSafeChar (c : Char) : Bool :=
  ((32 ≤ c.toNat && c.toNat ≠ 127) || c.toNat = 9) &&
    c ≠ '"' && c ≠ ';' && c ≠ ':' && c ≠ ','

/-- A parameter value: plain text, or a quoted string. -/
inductive ParamValue where
  | plain (text : List Char) (safe : text.all isSafeChar = true)
  | quoted (text : List Char) (unquoted : '"' ∉ text)

def ParamValue.text : ParamValue → List Char
  | plain text _ => text
  | quoted text _ => '"' :: (text ++ ['"'])

/-- The value has a colon, which only a quoted string can. -/
def ParamValue.HasColon : ParamValue → Prop
  | plain _ _ => False
  | quoted text _ => ':' ∈ text

/-- A parameter with its values. -/
structure Param where
  name : List Char
  value : ParamValue
  more : List ParamValue
  name_chars : name.all isParamNameChar = true
  name_ne : name ≠ []

namespace Param

def values (p : Param) : List ParamValue := p.value :: p.more

def text (p : Param) : List Char :=
  p.name ++ '=' :: (p.value.text ++ p.more.flatMap fun v => ',' :: v.text)

end Param

/-- The parameters of a property, each behind a semicolon. -/
def paramsText (params : List Param) : List Char := params.flatMap fun p => ';' :: p.text

/-- A property line. -/
def propertyLine (name : String) (params : List Param) (v : List Char) : List Char :=
  name.toList ++ (paramsText params ++ ':' :: v)

section

variable {params : List Param} {v : List Char}

theorem ParamValue.colon_mem (value : ParamValue) : ':' ∈ value.text ↔ value.HasColon := by
  cases value with
  | plain text safe =>
    refine iff_of_false (fun h => ?_) id
    have hcolon := List.all_eq_true.mp safe ':' h
    revert hcolon
    decide
  | quoted text unquoted => simp [ParamValue.text, HasColon]

/-- The colons before the value are those of quoted strings. -/
theorem Param.colon_mem (p : Param) : ':' ∈ p.text ↔ ∃ value ∈ p.values, value.HasColon := by
  have hname : ':' ∉ p.name := by
    intro h
    have hcolon := List.all_eq_true.mp p.name_chars ':' h
    revert hcolon
    decide
  unfold text values
  simp [hname, ParamValue.colon_mem]

theorem colon_mem_paramsText :
    ':' ∈ paramsText params ↔ ∃ p ∈ params, ∃ value ∈ p.values, value.HasColon := by
  unfold paramsText
  simp [Param.colon_mem]

/-- What `extract_property` takes: everything behind the first colon. -/
theorem extractProperty_propertyLine (name : String) (params : List Param) (v : List Char) :
    extractProperty (propertyLine name params v) name =
      (splitOnce ':' (paramsText params ++ ':' :: v)).map fun (_, rest) => String.ofList rest := by
  unfold extractProperty propertyLine
  rw [stripPrefix?_append]
  cases params with
  | nil => rfl
  | cons p params => rfl

/-- **The value behind the parameters.** The value of a property is recovered exactly when none
    of the quoted parameter values before it has a colon. -/
theorem extractProperty_iff (name : String) (params : List Param) (v : List Char) :
    extractProperty (propertyLine name params v) name = some (String.ofList v) ↔
      ∀ p ∈ params, ∀ value ∈ p.values, ¬ value.HasColon := by
  have hall : (∀ p ∈ params, ∀ value ∈ p.values, ¬ value.HasColon) ↔ ':' ∉ paramsText params := by
    rw [colon_mem_paramsText]
    simp
  rw [extractProperty_propertyLine, hall]
  constructor
  · -- with a colon among the parameters, what is taken is longer than the value
    intro htaken hcolon
    obtain ⟨before, after, hsplit, hbefore⟩ := List.eq_append_cons_of_mem hcolon
    rw [hsplit, List.append_assoc, List.cons_append, splitOnce_append hbefore] at htaken
    have hlist := String.ofList_inj.mp (Option.some.inj htaken)
    have hlength := congrArg List.length hlist
    rw [List.length_append, List.length_cons] at hlength
    omega
  · intro hcolon
    rw [splitOnce_append hcolon]
    rfl

end

/-- A text alternative by its address. -/
def altrep : Param where
  name := "ALTREP".toList
  value := .quoted "http://example.com/lunch".toList (by decide)
  more := []
  name_chars := by decide
  name_ne := by decide

/-- The address is taken for a part of the title. -/
theorem altrep_splits_title : ¬ ∀ (name : String) (params : List Param) (v : List Char),
    name ∈ ["UID", "DTSTART", "DTEND", "DUE", "SUMMARY"] → '\n' ∉ v → '\r' ∉ v →
    extractProperty (propertyLine name params v) name = some (String.ofList v) := by
  intro h
  have htitle := h "SUMMARY" [altrep] "Lunch".toList (by decide) (by decide) (by decide)
  revert htitle
  decide

end CaldavMcp
