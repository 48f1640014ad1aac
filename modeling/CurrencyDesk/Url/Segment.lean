import CurrencyDesk.Url.Parse
/-!
# Putting segments on a path

A segment is put behind those of a rooted path. Tabs and line breaks are left out of it, and
what a segment cannot hold is escaped, slashes and percent signs among it, so it is read back
as it was given. Dots alone do not get onto a path: given as they are they are passed over,
and dots that come about when something is left out are followed. A path of one empty segment
is as good as none.

Key definitions: `Url.Path.withoutEmptyEnd`, `Url.Path.push`.
Key theorems: `Url.isSegmentEscaped_percent`.
-/

namespace CurrencyDesk.Url

theorem isSegmentEscaped_percent (special : Bool) : isSegmentEscaped special '%' = true := by
  cases special <;> decide

/-- A segment without the characters that do not count. -/
def cleanSegment (s : List Char) : List Char :=
  s.filter (!isSkipped ·)

namespace Path

/-- The segments that more segments are put behind. -/
def stem : List (List Char) → List (List Char)
  | [[]] => []
  | segments => segments

/-- A path without the empty segment at its end, unless that is all there is. -/
def withoutEmptyEnd : Path → Path
  | .rooted segments =>
    .rooted
      (if 1 < segments.length ∧ segments.getLast? = some [] then segments.dropLast else segments)
  | .rootless text => .rootless text

/-- Puts a segment on a path. -/
def push (special : Bool) (segment : List Char) : Path → Path
  | .rooted segments =>
    if segment = ['.'] ∨ segment = ['.', '.'] then .rooted segments
    else .rooted (walk (stem segments) [escape (isSegmentEscaped special) (cleanSegment segment)])
  | .rootless text => .rootless text

end Path

end CurrencyDesk.Url
