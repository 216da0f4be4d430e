/-
  Nested scopes, read by one table that only grows.

  A scope declares values for keys and may hold further scopes, which end before it does. A key
  means what the innermost open scope that declares it says (`visible`). A reader that forgets
  nothing when a scope ends holds more (`all`), and finds the last declaration of the key. The two
  differ by the declarations of scopes that have ended since the innermost one that declares the
  key was opened (`lookup_all`).
-/
import Mathlib.Data.List.Basic
import Mathlib.Tactic.Common

namespace Scopes

/-- An open scope: its own declarations, and those of the scopes that have ended inside of it, the
    latest first. -/
structure Scope (κ ν : Type) where
  own : List (κ × ν)
  ended : List (κ × ν)
  deriving DecidableEq, Repr

/-- The open scopes, the innermost first. -/
abbrev Stack (κ ν : Type) := List (Scope κ ν)

variable {κ ν : Type}

/-- All declarations in a scope. -/
def Scope.all (s : Scope κ ν) : List (κ × ν) := s.ended ++ s.own

/-- A scope is opened. -/
def enter (own : List (κ × ν)) (scopes : Stack κ ν) : Stack κ ν := ⟨own, []⟩ :: scopes

/-- The innermost scope ends. The outermost leaves its declarations behind. -/
def leave : Stack κ ν → Stack κ ν
  | [] => []
  | [s] => [⟨[], s.all⟩]
  | s :: t :: scopes => ⟨t.own, s.all ++ t.ended⟩ :: scopes

/-- The declarations of the open scopes. -/
def visible (scopes : Stack κ ν) : List (κ × ν) := scopes.flatMap Scope.own

/-- All declarations so far. -/
def all (scopes : Stack κ ν) : List (κ × ν) := scopes.flatMap Scope.all

/-- The declarations of the scopes that have ended since the innermost one that declares the key
    was opened. -/
def endedSince [BEq κ] (k : κ) : Stack κ ν → List (κ × ν)
  | [] => []
  | s :: scopes => s.ended ++ if (s.own.lookup k).isSome then [] else endedSince k scopes

theorem all_enter (own : List (κ × ν)) (scopes : Stack κ ν) :
    all (enter own scopes) = own ++ all scopes := rfl

/-- Nothing is forgotten when a scope ends. -/
theorem all_leave (scopes : Stack κ ν) : all (leave scopes) = all scopes := by
  match scopes with
  | [] => rfl
  | [s] =>
    show (s.all ++ []) ++ [] = s.all ++ []
    rw [List.append_nil]
  | s :: t :: scopes =>
    show ((s.all ++ t.ended) ++ t.own) ++ all scopes = s.all ++ ((t.ended ++ t.own) ++ all scopes)
    rw [List.append_assoc, List.append_assoc, List.append_assoc]

/-- The last declaration is that of a scope that has ended since, or else the one in force. -/
theorem lookup_all [BEq κ] (k : κ) (scopes : Stack κ ν) :
    (all scopes).lookup k = ((endedSince k scopes).lookup k).or ((visible scopes).lookup k) := by
  induction scopes with
  | nil => rfl
  | cons s scopes ih =>
    have hall : all (s :: scopes) = (s.ended ++ s.own) ++ all scopes := rfl
    have hvisible : visible (s :: scopes) = s.own ++ visible scopes := rfl
    rw [hall, hvisible, endedSince, List.lookup_append, List.lookup_append, List.lookup_append,
      List.lookup_append, ih]
    cases hown : s.own.lookup k with
    | some v => simp
    | none => simp [Option.or_assoc]

end Scopes
