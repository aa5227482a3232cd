import SourceLayout.Span
import SourceLayout.Proofs.Text.Numeral

/-! # A written span tells the span

The location and the outline of an extent begin with the name of its file, in which any
characters may stand, colons, dashes and digits among them.  So they are read from the back:
no numeral has a colon, and what stands behind the last one is known (`place_inj`).

An outline ends in the column of the end.  Behind its last colon it has a numeral, a dash and
another numeral if the extent keeps to one line, and one numeral if it does not.  No numeral
reads as two with a dash between them, so the two forms are never confused, whatever the
name of the file looks like (`outline_tells_extent`).
-/
namespace SourceLayout

theorem Position.eq_of_parts {p q : Position} (hline : p.line = q.line)
    (hcolumn : p.column = q.column) : p = q := by
  cases p
  cases q
  exact congrArg₂ Position.mk hline hcolumn

namespace Extent

open Text (numeral)

/-- What the location of an extent begins with: the file, a colon and the line. -/
def place (file : String) (line : Int) : List Char := file.toList ++ ':' :: numeral line

/-- What the outline of an extent begins with, or all of it: the file, the line, and two
numbers with a dash between them. -/
def stretch (file : String) (line first second : Int) : List Char :=
  place file line ++ ':' :: (numeral first ++ '-' :: numeral second)

theorem toList_location (e : Extent) :
    e.location.toList = place e.file e.start.line ++ ':' :: numeral e.start.column := by
  simp [location, place, numeral, String.toList_append]

theorem toList_outline_of_line_eq {e : Extent} (h : e.start.line = e.stop.line) :
    e.outline.toList = stretch e.file e.start.line e.start.column e.stop.column := by
  rw [outline, if_pos h]
  simp [toList_location, stretch, numeral, String.toList_append]

theorem toList_outline_of_line_ne {e : Extent} (h : e.start.line ≠ e.stop.line) :
    e.outline.toList =
      stretch e.file e.start.line e.start.column e.stop.line ++ ':' :: numeral e.stop.column := by
  rw [outline, if_neg h]
  simp [toList_location, stretch, numeral, String.toList_append]

section
variable {file file' : String} {line line' first first' second second' : Int}

/-- The last colon stands before the line. -/
theorem place_inj (h : place file line = place file' line') : file = file' ∧ line = line' := by
  obtain ⟨hfile, hline⟩ := append_cons_inj_of_notMem_right (Text.colon_notMem_numeral line)
    (Text.colon_notMem_numeral line') h
  exact ⟨String.toList_inj.mp hfile, Text.numeral_injective hline⟩

theorem colon_notMem_dashed (first second : Int) :
    ':' ∉ numeral first ++ '-' :: numeral second := by
  rw [List.mem_append, List.mem_cons, not_or, not_or]
  exact ⟨Text.colon_notMem_numeral first, by decide, Text.colon_notMem_numeral second⟩

/-- The last colon stands before the two numbers, and the dash between them ends the
first. -/
theorem stretch_inj (h : stretch file line first second = stretch file' line' first' second') :
    file = file' ∧ line = line' ∧ first = first' ∧ second = second' := by
  obtain ⟨hplace, hdashed⟩ := append_cons_inj_of_notMem_right (colon_notMem_dashed first second)
    (colon_notMem_dashed first' second') h
  obtain ⟨hfile, hline⟩ := place_inj hplace
  obtain ⟨hfirst, hsecond⟩ := Text.numeral_append_dash_inj hdashed
  exact ⟨hfile, hline, hfirst, Text.numeral_injective hsecond⟩

/-- Two numbers with a dash between them are not read as one that is behind a colon. -/
theorem stretch_ne (before : List Char) (n : Int) :
    stretch file line first second ≠ before ++ ':' :: numeral n := by
  intro h
  obtain ⟨-, hdashed⟩ := append_cons_inj_of_notMem_right (colon_notMem_dashed first second)
    (Text.colon_notMem_numeral n) h
  exact Text.numeral_append_dash_ne first n (numeral second) hdashed

end

theorem eq_of_parts {a b : Extent} (hfile : a.file = b.file) (hstart : a.start = b.start)
    (hstop : a.stop = b.stop) : a = b := by
  cases a
  cases b
  simp only [Extent.mk.injEq]
  exact ⟨hfile, hstart, hstop⟩

/-- Extents of one outline are equal: either both keep to one line, and the outlines are cut
at their last colons and dashes, or neither does. -/
theorem outline_injective : Function.Injective outline := by
  intro a b h
  have hchars := congrArg String.toList h
  by_cases hlineA : a.start.line = a.stop.line
  · rw [toList_outline_of_line_eq hlineA] at hchars
    by_cases hlineB : b.start.line = b.stop.line
    · rw [toList_outline_of_line_eq hlineB] at hchars
      obtain ⟨hfile, hline, hcolumn, hstop⟩ := stretch_inj hchars
      have hstopLine : a.stop.line = b.stop.line := hlineA.symm.trans (hline.trans hlineB)
      exact eq_of_parts hfile (Position.eq_of_parts hline hcolumn)
        (Position.eq_of_parts hstopLine hstop)
    · rw [toList_outline_of_line_ne hlineB] at hchars
      exact absurd hchars (stretch_ne _ _)
  · rw [toList_outline_of_line_ne hlineA] at hchars
    by_cases hlineB : b.start.line = b.stop.line
    · rw [toList_outline_of_line_eq hlineB] at hchars
      exact absurd hchars.symm (stretch_ne _ _)
    · rw [toList_outline_of_line_ne hlineB] at hchars
      obtain ⟨hstretch, hstop⟩ := append_cons_inj_of_notMem_right
        (Text.colon_notMem_numeral a.stop.column) (Text.colon_notMem_numeral b.stop.column) hchars
      obtain ⟨hfile, hline, hcolumn, hstopLine⟩ := stretch_inj hstretch
      exact eq_of_parts hfile (Position.eq_of_parts hline hcolumn)
        (Position.eq_of_parts hstopLine (Text.numeral_injective hstop))

theorem location_inj {a b : Extent} (h : a.location = b.location) :
    a.file = b.file ∧ a.start = b.start := by
  have hchars := congrArg String.toList h
  rw [toList_location, toList_location] at hchars
  obtain ⟨hplace, hcolumn⟩ := append_cons_inj_of_notMem_right
    (Text.colon_notMem_numeral a.start.column) (Text.colon_notMem_numeral b.start.column) hchars
  obtain ⟨hfile, hline⟩ := place_inj hplace
  exact ⟨hfile, Position.eq_of_parts hline (Text.numeral_injective hcolumn)⟩

/-- **An outline tells the extent, and a location the file and the start of it**, for files
of any name and for all coordinates. -/
theorem outline_tells_extent (a b : Extent) :
    (a.outline = b.outline ↔ a = b) ∧
      (a.location = b.location ↔ a.file = b.file ∧ a.start = b.start) := by
  refine ⟨⟨fun h => outline_injective h, fun h => congrArg outline h⟩, location_inj, ?_⟩
  rintro ⟨hfile, hstart⟩
  rw [location, location, hfile, hstart]

/-- Two extents whose outlines differ in the place of the dash only. -/
example :
    outline ⟨"a", ⟨1, 2⟩, ⟨3, 4⟩, by decide⟩ = "a:1:2-3:4" ∧
      outline ⟨"a:1", ⟨2, 3⟩, ⟨2, 4⟩, by decide⟩ = "a:1:2:3-4" := by
  decide

end Extent

end SourceLayout
