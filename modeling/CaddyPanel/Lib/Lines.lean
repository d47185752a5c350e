import CaddyPanel.Lib.Text

/-!
# Configuration lines

A text as a configuration parser reads it: lines are trimmed, blank lines and comments are skipped,
and a line that ends in a backslash is joined with the next one. What is still to be continued at
the end of the text is dropped.
-/

namespace Lines

open List
open Text (Str trimSpace)

/-- A trimmed line that the parser skips. -/
def skipped (line : Str) : Bool :=
  line = [] || line.head? = some '#'

def continued (line : Str) : Bool :=
  line.getLast? = some '\\'

/-- The directives of the lines; `pending` is what earlier lines left to be continued. -/
def logical (pending : Str) : List Str → List Str
  | [] => []
  | line :: lines =>
    if skipped (trimSpace line) then logical pending lines
    else if continued (trimSpace line) then logical (pending ++ (trimSpace line).dropLast) lines
    else (pending ++ trimSpace line) :: logical [] lines

/-- What the lines leave to be continued. -/
def pendingAfter (pending : Str) : List Str → Str
  | [] => pending
  | line :: lines =>
    if skipped (trimSpace line) then pendingAfter pending lines
    else if continued (trimSpace line) then
      pendingAfter (pending ++ (trimSpace line).dropLast) lines
    else pendingAfter [] lines

lemma logical_append (pending : Str) (a b : List Str) :
    logical pending (a ++ b) = logical pending a ++ logical (pendingAfter pending a) b := by
  induction a generalizing pending with
  | nil => rfl
  | cons line a ih =>
    rw [cons_append, logical, logical, pendingAfter]
    split
    · exact ih pending
    split
    · exact ih _
    · rw [ih, cons_append]

lemma pendingAfter_append (pending : Str) (a b : List Str) :
    pendingAfter pending (a ++ b) = pendingAfter (pendingAfter pending a) b := by
  induction a generalizing pending with
  | nil => rfl
  | cons line a ih =>
    rw [cons_append, pendingAfter, pendingAfter]
    split
    · exact ih pending
    split
    · exact ih _
    · exact ih []

/-- The last line that is not skipped decides whether something is left to be continued. -/
theorem pendingAfter_eq_nil_iff {lines : List Str}
    (h : ∀ line ∈ lines, skipped (trimSpace line) = false → 2 ≤ (trimSpace line).length) :
    pendingAfter [] lines = [] ↔
      ((lines.map trimSpace).filter fun line => !skipped line).getLast?.all (fun line => !continued line) := by
  induction lines using List.reverseRecOn with
  | nil => simp [pendingAfter]
  | append_singleton lines line ih =>
    have hlines := ih fun l hl => h l (mem_append_left _ hl)
    rw [pendingAfter_append, map_append, map_singleton]
    cases hskip : skipped (trimSpace line) with
    | true => simpa [pendingAfter, hskip] using hlines
    | false =>
      have hlength := h line (mem_append_right _ mem_cons_self) hskip
      cases hcont : continued (trimSpace line) with
      | false => simp [pendingAfter, hskip, hcont]
      | true =>
        have hne : (trimSpace line).dropLast ≠ [] := by
          rw [← length_pos_iff, length_dropLast]
          omega
        simp [pendingAfter, hskip, hne]

end Lines
