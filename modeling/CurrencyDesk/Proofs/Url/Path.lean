import CurrencyDesk.Proofs.Text.Utf8
import CurrencyDesk.Url.Segment
import Mathlib.Data.List.TakeWhile
/-!
# Paths that are read back

The segments of a path that was read are settled: nothing in them is left to escape, they hold
nothing that parts segments, and they are no dots (`IsSettled`). A segment that is put on a path
is settled as well, unless it is dots, and it is read back as what was put there. So percent
signs, slashes and dots in it lead nowhere else. A path of settled segments is read as these
segments again (`segmentsOf_text`).

Key definitions: `IsPlain`, `IsSettled`, `IsRead`.
Key theorems: `isSettled_escape`, `walk_of_settled`, `isSettled_of_mem_segmentsOf`,
`segmentsOf_text`, `Path.push_rooted`, `exists_segmentsOf_of_ofText?`.
-/

namespace CurrencyDesk.Url

open Text (splitWhen)

/-! ### What an escaped text holds -/

/-- The characters that escapes are written with. -/
def escapeChars : List Char :=
  "%0123456789ABCDEF".toList

theorem capitalHexDigit_mem_escapeChars {n : Nat} (h : n < 16) :
    Text.capitalHexDigit n ∈ escapeChars := by
  have all : ∀ k : Fin 16, Text.capitalHexDigit k ∈ escapeChars := by decide
  exact all ⟨n, h⟩

theorem mem_escapeChars_of_mem_escapeByte {b : UInt8} {c : Char} (h : c ∈ escapeByte b) :
    c ∈ escapeChars := by
  have hb := b.toNat_lt
  simp only [escapeByte, List.mem_cons, List.not_mem_nil, or_false] at h
  rcases h with rfl | rfl | rfl
  · decide
  · exact capitalHexDigit_mem_escapeChars (by omega)
  · exact capitalHexDigit_mem_escapeChars (by omega)

/-- An escaped text holds what needs no escape, and escapes. -/
theorem mem_escape {p : Char → Bool} {s : List Char} {c : Char} (h : c ∈ escape p s) :
    (c ∈ s ∧ p c = false) ∨ c ∈ escapeChars := by
  obtain ⟨d, hd, hc⟩ := List.mem_flatMap.mp h
  by_cases hp : p d = true
  · rw [if_pos hp] at hc
    obtain ⟨b, -, hc⟩ := List.mem_flatMap.mp hc
    exact .inr (mem_escapeChars_of_mem_escapeByte hc)
  · rw [if_neg hp] at hc
    obtain rfl := List.mem_singleton.mp hc
    exact .inl ⟨hd, Bool.eq_false_iff.mpr hp⟩

theorem escape_eq_self {p : Char → Bool} :
    ∀ {s : List Char}, (∀ c ∈ s, p c = false) → escape p s = s
  | [], _ => rfl
  | c :: s, h => by
    have hs : escape p s = s := escape_eq_self fun d hd => h d (List.mem_cons_of_mem c hd)
    have hc : ¬p c = true := Bool.eq_false_iff.mp (h c List.mem_cons_self)
    rw [escape, List.flatMap_cons, if_neg hc, ← escape, hs, List.singleton_append]

theorem escape_injective {p : Char → Bool} (h : p '%' = true) : Function.Injective (escape p) := by
  intro s t heq
  apply Text.Utf8.encode_injective
  rw [← unescape_escape h s, ← unescape_escape h t, heq]

/-! ### Dots in either spelling -/

/-- A character becomes another one in the lower case of ASCII only as the capital of a
letter. -/
theorem eq_or_of_toLower_eq {c d : Char} (h : c.toLower = d) :
    c = d ∨ 'A'.toNat ≤ c.toNat ∧ c.toNat + 32 = d.toNat := by
  unfold Char.toLower at h
  split_ifs at h with hc
  · right
    subst h
    have hlow : 65 ≤ c.toNat := hc.1
    have hhigh : c.toNat ≤ 90 := hc.2
    refine ⟨hlow, ?_⟩
    change c.toNat + 32 = (c.val + 32).toNat
    rw [UInt32.toNat_add]
    change c.toNat + 32 = (c.toNat + 32) % 2 ^ 32
    omega
  · exact .inl h

theorem eq_of_toLower_eq {c d : Char} (h : c.toLower = d) (hd : d.toNat < 'a'.toNat) : c = d := by
  have : 'a'.toNat = 'A'.toNat + 32 := rfl
  rcases eq_or_of_toLower_eq h with rfl | hc
  · rfl
  · omega

theorem eq_of_toLower_eq_e {c : Char} (h : c.toLower = 'e') : c = 'e' ∨ c = 'E' := by
  rcases eq_or_of_toLower_eq h with rfl | ⟨-, hc⟩
  · exact .inl rfl
  · have : 'e'.toNat = 'E'.toNat + 32 := rfl
    exact .inr (Char.toNat_inj.mp (by omega))

/-- A point in front of a segment, as it is or as an escape, stands for a point. -/
theorem unescape_of_point {segment point rest : List Char}
    (hpoint : point ∈ [['.'], ['%', '2', 'e']]) (h : segment.map Char.toLower = point ++ rest) :
    ∃ tail, tail.map Char.toLower = rest ∧ unescape segment = 0x2E :: unescape tail := by
  simp only [List.mem_cons, List.not_mem_nil, or_false] at hpoint
  rcases hpoint with rfl | rfl
  · obtain ⟨a, tail, rfl, ha, htail⟩ := List.map_eq_cons_iff.mp h
    obtain rfl := eq_of_toLower_eq ha (by decide)
    exact ⟨tail, htail, rfl⟩
  · obtain ⟨a, s, rfl, ha, hs⟩ := List.map_eq_cons_iff.mp h
    obtain ⟨b, t, rfl, hb, ht⟩ := List.map_eq_cons_iff.mp hs
    obtain ⟨c, tail, rfl, hc, htail⟩ := List.map_eq_cons_iff.mp ht
    obtain rfl := eq_of_toLower_eq ha (by decide)
    obtain rfl := eq_of_toLower_eq hb (by decide)
    refine ⟨tail, htail, ?_⟩
    rcases eq_of_toLower_eq_e hc with rfl | rfl <;> rfl

theorem unescape_of_isSingleDot {segment : List Char} (h : isSingleDot segment = true) :
    unescape segment = Text.Utf8.encode ['.'] := by
  have hpoint : ∃ point ∈ [['.'], ['%', '2', 'e']], segment.map Char.toLower = point ++ [] := by
    simpa [isSingleDot, ← String.toList_inj] using h
  obtain ⟨point, hmem, hpoint⟩ := hpoint
  obtain ⟨tail, htail, heq⟩ := unescape_of_point hmem hpoint
  rw [heq, List.map_eq_nil_iff.mp htail]
  rfl

theorem unescape_of_isDoubleDot {segment : List Char} (h : isDoubleDot segment = true) :
    unescape segment = Text.Utf8.encode ['.', '.'] := by
  have hpoints : ∃ first ∈ [['.'], ['%', '2', 'e']], ∃ second ∈ [['.'], ['%', '2', 'e']],
      segment.map Char.toLower = first ++ second := by
    simpa [isDoubleDot, ← String.toList_inj, or_assoc] using h
  obtain ⟨first, hfirst, second, hsecond, hpoints⟩ := hpoints
  obtain ⟨rest, hrest, heq⟩ := unescape_of_point hfirst hpoints
  obtain ⟨tail, htail, hrest⟩ := unescape_of_point hsecond (List.append_nil second ▸ hrest)
  rw [heq, hrest, List.map_eq_nil_iff.mp htail]
  rfl

/-! ### Settled segments -/

/-- A segment holds nothing that is left to escape, and nothing that parts segments. -/
def IsPlain (special : Bool) (segment : List Char) : Prop :=
  ∀ c ∈ segment, isPathEscaped c = false ∧ isSlash special c = false

/-- A segment stands on a path as it is: it is plain and no dots. -/
structure IsSettled (special : Bool) (segment : List Char) : Prop where
  plain : IsPlain special segment
  notSingle : isSingleDot segment = false
  notDouble : isDoubleDot segment = false

variable {special : Bool}

theorem isPlain_escape {p : Char → Bool} {s : List Char}
    (h : ∀ c ∈ s, p c = false → isPathEscaped c = false ∧ isSlash special c = false) :
    IsPlain special (escape p s) := by
  intro c hc
  rcases mem_escape hc with ⟨hc, hp⟩ | hc
  · exact h c hc hp
  · have hall : escapeChars.all (fun c => !isPathEscaped c && !isSlash special c) = true := by
      cases special <;> decide
    simpa using List.all_eq_true.mp hall c hc

/-- What is put on a path is settled there, but for dots. -/
theorem isSettled_escape {s : List Char} (hsingle : s ≠ ['.']) (hdouble : s ≠ ['.', '.']) :
    IsSettled special (escape (isSegmentEscaped special) s) where
  plain := by
    refine isPlain_escape fun c _ hc => ?_
    simp only [isSegmentEscaped, Bool.or_eq_false_iff] at hc
    exact ⟨hc.1.1.1, by simp [isSlash, hc.1.1.2, hc.2]⟩
  notSingle := by
    rw [Bool.eq_false_iff]
    intro hdot
    have hs := unescape_of_isSingleDot hdot
    rw [unescape_escape (isSegmentEscaped_percent special)] at hs
    exact hsingle (Text.Utf8.encode_injective hs)
  notDouble := by
    rw [Bool.eq_false_iff]
    intro hdots
    have hs := unescape_of_isDoubleDot hdots
    rw [unescape_escape (isSegmentEscaped_percent special)] at hs
    exact hdouble (Text.Utf8.encode_injective hs)

theorem walk_of_settled : ∀ {segments passed : List (List Char)},
    (∀ segment ∈ segments, IsSettled special segment) → walk passed segments = passed ++ segments
  | [], passed, _ => (List.append_nil passed).symm
  | segment :: rest, passed, h => by
    have hsegment := h segment List.mem_cons_self
    have hrest : ∀ segment ∈ rest, IsSettled special segment :=
      fun s hs => h s (List.mem_cons_of_mem _ hs)
    rw [walk, hsegment.notDouble, hsegment.notSingle]
    simp only [Bool.false_eq_true, if_false]
    rw [walk_of_settled hrest, List.append_assoc, List.singleton_append]

theorem isSettled_nil : IsSettled special [] :=
  ⟨by simp [IsPlain], rfl, rfl⟩

theorem isSettled_of_mem_walk : ∀ {segments passed : List (List Char)},
    (∀ segment ∈ segments, IsPlain special segment) →
      (∀ segment ∈ passed, IsSettled special segment) →
        ∀ segment ∈ walk passed segments, IsSettled special segment
  | [], _, _, hpassed => hpassed
  | first :: rest, passed, hplain, hpassed => by
    have hrest : ∀ segment ∈ rest, IsPlain special segment :=
      fun s hs => hplain s (List.mem_cons_of_mem _ hs)
    have hplace : ∀ segment ∈ if rest.isEmpty then [[]] else [], IsSettled special segment := by
      intro segment hsegment
      split_ifs at hsegment
      · obtain rfl := List.mem_singleton.mp hsegment
        exact isSettled_nil
      · exact absurd hsegment List.not_mem_nil
    by_cases hdouble : isDoubleDot first = true
    · simp only [walk, hdouble, if_true]
      exact isSettled_of_mem_walk hrest <| List.forall_mem_append.mpr
        ⟨fun s hs => hpassed s (List.dropLast_subset _ hs), hplace⟩
    · by_cases hsingle : isSingleDot first = true
      · simp only [walk, hdouble, hsingle, if_true, Bool.false_eq_true, if_false]
        exact isSettled_of_mem_walk hrest <| List.forall_mem_append.mpr ⟨hpassed, hplace⟩
      · simp only [walk, hdouble, hsingle, Bool.false_eq_true, if_false]
        refine isSettled_of_mem_walk hrest <| List.forall_mem_append.mpr ⟨hpassed, ?_⟩
        rw [List.forall_mem_singleton]
        exact ⟨hplain first List.mem_cons_self, Bool.eq_false_iff.mpr hsingle,
          Bool.eq_false_iff.mpr hdouble⟩

theorem isSettled_of_mem_segmentsOf {s : List Char} :
    ∀ segment ∈ segmentsOf special s, IsSettled special segment := by
  cases s with
  | nil =>
    intro segment hsegment
    unfold segmentsOf at hsegment
    split_ifs at hsegment
    · obtain rfl := List.mem_singleton.mp hsegment
      exact isSettled_nil
    · exact absurd hsegment List.not_mem_nil
  | cons mark s =>
    refine isSettled_of_mem_walk (fun segment hsegment => ?_) (fun _ h => absurd h List.not_mem_nil)
    obtain ⟨piece, hpiece, rfl⟩ := List.mem_map.mp hsegment
    exact isPlain_escape fun c hc hp => ⟨hp, Text.eq_false_of_mem_splitWhen hpiece hc⟩

/-! ### Paths are read back -/

/-- Segments without slashes are what the text of a path is cut into. -/
theorem splitWhen_flatMap {p : Char → Bool} (hp : p '/' = true) :
    ∀ {first : List Char} {rest : List (List Char)},
      (∀ segment ∈ first :: rest, ∀ c ∈ segment, p c = false) →
        splitWhen p (first ++ rest.flatMap ('/' :: ·)) = first :: rest
  | first, [], h => by
    rw [List.flatMap_nil, List.append_nil, Text.splitWhen_eq_singleton (h first List.mem_cons_self)]
  | first, second :: rest, h => by
    rw [List.flatMap_cons, List.cons_append, Text.splitWhen_append_cons hp,
      Text.splitWhen_eq_singleton (h first List.mem_cons_self),
      splitWhen_flatMap hp fun s hs => h s (List.mem_cons_of_mem _ hs), List.singleton_append]

/-- A path of settled segments is read as these segments. -/
theorem segmentsOf_text {segments : List (List Char)} (hne : segments ≠ [])
    (h : ∀ segment ∈ segments, IsSettled special segment) :
    segmentsOf special (Path.rooted segments).text = segments := by
  obtain ⟨first, rest, rfl⟩ := List.exists_cons_of_ne_nil hne
  have hsplit : splitWhen (isSlash special) (first ++ rest.flatMap ('/' :: ·)) = first :: rest :=
    splitWhen_flatMap (by simp [isSlash]) fun s hs c hc => ((h s hs).plain c hc).2
  have hescape : (first :: rest).map (escape isPathEscaped) = (first :: rest).map id :=
    List.map_congr_left fun s hs => escape_eq_self fun c hc => ((h s hs).plain c hc).1
  rw [Path.text, List.flatMap_cons, List.cons_append, segmentsOf, walkText, hsplit, hescape,
    List.map_id, walk_of_settled h, List.nil_append]

theorem mem_text {segments : List (List Char)} {c : Char} (h : c ∈ (Path.rooted segments).text) :
    c = '/' ∨ ∃ segment ∈ segments, c ∈ segment := by
  obtain ⟨segment, hsegment, hc⟩ := List.mem_flatMap.mp h
  exact (List.mem_cons.mp hc).imp id fun hc => ⟨segment, hsegment, hc⟩

/-! ### Segments are put on a path -/

/-- A segment without dots and without characters that do not count stands escaped at the end of
the path that it is put on. -/
theorem Path.push_rooted {segment : List Char} (segments : List (List Char))
    (hsingle : segment ≠ ['.']) (hdouble : segment ≠ ['.', '.'])
    (hskipped : ∀ c ∈ segment, isSkipped c = false) :
    Path.push special segment (.rooted segments) =
      .rooted (stem segments ++ [escape (isSegmentEscaped special) segment]) := by
  have hclean : cleanSegment segment = segment :=
    List.filter_eq_self.mpr fun c hc => by simp [hskipped c hc]
  have hsettled : ∀ s ∈ [escape (isSegmentEscaped special) segment], IsSettled special s :=
    List.forall_mem_singleton.mpr (isSettled_escape hsingle hdouble)
  rw [Path.push, if_neg (not_or.mpr ⟨hsingle, hdouble⟩), hclean, walk_of_settled hsettled]

/-! ### URLs that were read -/

/-- A URL has a scheme, and the segments of some text for its path if the scheme is special. -/
structure IsRead (scheme : List Char) (u : Url) : Prop where
  scheme_eq : u.scheme = scheme
  path_eq : isSpecial scheme = true → ∃ text, u.path = .rooted (segmentsOf true text)

theorem scheme_of_withHost? {u v : Url} {host : List Char} {needed : Bool}
    (h : u.withHost? host needed = some v) : v.scheme = u.scheme := by
  unfold withHost? at h
  split_ifs at h
  · obtain rfl := Option.some.inj h
    rfl
  · obtain ⟨host, -, rfl⟩ := Option.map_eq_some_iff.mp h
    rfl
  · obtain ⟨host, -, rfl⟩ := Option.map_eq_some_iff.mp h
    rfl

theorem isRead_of_withAuthority? {scheme : List Char} {body : Body} {u : Url}
    (h : withAuthority? scheme body = some u) : IsRead scheme u := by
  simp only [withAuthority?, Option.bind_eq_bind, Option.bind_eq_some_iff, Option.pure_def,
    Option.some.injEq] at h
  obtain ⟨v, hv, ⟨port, rest⟩, -, rfl⟩ := h
  refine ⟨?_, fun hspecial => ?_⟩
  · refine (scheme_of_withHost? hv).trans ?_
    split <;> rfl
  · rw [hspecial]
    exact ⟨_, rfl⟩

theorem isRead_of_fileWithHost? {u v : Url} {s : List Char} (h : u.fileWithHost? s = some v) :
    IsRead u.scheme v := by
  simp only [fileWithHost?, Option.bind_eq_bind, Option.pure_def] at h
  split_ifs at h
  · obtain rfl := Option.some.inj h
    exact ⟨rfl, fun _ => ⟨_, rfl⟩⟩
  · obtain ⟨w, hw, h⟩ := Option.bind_eq_some_iff.mp h
    obtain rfl := Option.some.inj h
    have hscheme := scheme_of_withHost? hw
    exact ⟨hscheme, fun _ => ⟨_, rfl⟩⟩

theorem isRead_of_ofFile? {scheme : List Char} {body : Body} {u : Url}
    (h : ofFile? scheme body = some u) : IsRead scheme u := by
  unfold ofFile? at h
  split at h
  · exact isRead_of_fileWithHost? h
  · obtain rfl := Option.some.inj h
    exact ⟨rfl, fun _ => ⟨_, rfl⟩⟩
  · obtain rfl := Option.some.inj h
    exact ⟨rfl, fun _ => ⟨_, rfl⟩⟩

theorem isRead_of_ofScheme? {scheme : List Char} {body : Body} {u : Url}
    (h : ofScheme? scheme body = some u) : IsRead scheme u := by
  unfold ofScheme? at h
  split_ifs at h with hfile hspecial
  · exact isRead_of_ofFile? h
  · exact isRead_of_withAuthority? h
  · split at h
    · exact isRead_of_withAuthority? h
    · obtain rfl := Option.some.inj h
      exact ⟨rfl, fun h => absurd h hspecial⟩
    · obtain rfl := Option.some.inj h
      exact ⟨rfl, fun h => absurd h hspecial⟩

theorem exists_segmentsOf_of_ofText? {s : List Char} {u : Url} (h : ofText? s = some u)
    (hspecial : isSpecial u.scheme = true) : ∃ text, u.path = .rooted (segmentsOf true text) := by
  obtain ⟨⟨scheme, rest⟩, -, hu⟩ := Option.bind_eq_some_iff.mp h
  have hread := isRead_of_ofScheme? hu
  exact hread.path_eq (hread.scheme_eq ▸ hspecial)

end CurrencyDesk.Url
