import Heartbeat.Pattern.Captures
import Mathlib.Data.List.Forall2
import Mathlib.Order.Basic

/-!
# What a pattern captures

A pattern matches a line that can be taken apart into its fixed texts with some text in each gap.
There may be many ways to do so. A search that leaves a gap as short as it can, and comes back to it
for one more character only when everything behind it failed, meets them in the lexicographic order
of the lengths of their gaps. `fit` gives the first one, although it does not come back to a gap
once a later one could not be filled.

* `Decomposes`: texts in the places of the segments that make up a line.
* `readings`: all ways to take a line apart, in the order of the search with lazy gaps.
* `mem_readings`, `pairwise_readings`: they are all the ways, in lexicographic order.
* `Pattern.captures?_eq`: a pattern captures what the first reading has in its named gaps.
* `Pattern.captureLaw`: a line is matched iff it can be taken apart, and the captures are those of
  the way whose gaps are lexicographically shortest.
-/

namespace Heartbeat

open Heartbeat.Text

variable {segments : List Segment} {segment : Segment} {line s : List Char}
  {texts : List (List Char)}

/-! ## Lines taken apart -/

/-- Whether a segment is a gap. -/
def Segment.isGap : Segment → Bool
  | .literal _ => false
  | .gap _ => true

/-- The texts that may stand in the place of a segment. -/
def Segment.Allows : Segment → List Char → Prop
  | .literal text, s => s = text
  | .gap _, _ => True

/-- **Texts in the places of the segments that make up a line.** -/
structure Decomposes (segments : List Segment) (line : List Char) (texts : List (List Char)) :
    Prop where
  allowed : List.Forall₂ Segment.Allows segments texts
  whole : texts.flatten = line

/-- The texts in the gaps, from left to right. -/
def gapTexts (segments : List Segment) (texts : List (List Char)) : List (List Char) :=
  ((segments.zip texts).filter (·.1.isGap)).map Prod.snd

/-- The lengths of the texts in the gaps, from left to right. -/
def gapLengths (segments : List Segment) (texts : List (List Char)) : List Nat :=
  (gapTexts segments texts).map List.length

/-- The texts in the named gaps with their names, from left to right. -/
def namedTexts (segments : List Segment) (texts : List (List Char)) : Captures :=
  (segments.zip texts).filterMap fun (segment, text) =>
    segment.name?.map fun name => (name, String.ofList text)

theorem decomposes_nil : Decomposes [] line texts ↔ line = [] ∧ texts = [] := by
  constructor
  · rintro ⟨⟨⟩, rfl⟩
    exact ⟨rfl, rfl⟩
  · rintro ⟨rfl, rfl⟩
    exact ⟨.nil, rfl⟩

theorem decomposes_cons : Decomposes (segment :: segments) line texts ↔
    ∃ text rest others, line = text ++ rest ∧ segment.Allows text ∧
      Decomposes segments rest others ∧ texts = text :: others := by
  constructor
  · rintro ⟨hallowed, rfl⟩
    obtain ⟨text, others, htext, hothers, rfl⟩ := List.forall₂_cons_left_iff.mp hallowed
    exact ⟨text, others.flatten, others, rfl, htext, ⟨hothers, rfl⟩, rfl⟩
  · rintro ⟨text, rest, others, rfl, htext, hothers, rfl⟩
    exact ⟨.cons htext hothers.allowed, by rw [List.flatten_cons, hothers.whole]⟩

/-- The values that are named are those in the gaps. -/
theorem captured_gapTexts (h : List.Forall₂ Segment.Allows segments texts) :
    captured segments (gapTexts segments texts) = namedTexts segments texts := by
  induction h with
  | nil => rfl
  | @cons segment text segments texts _ _ ih =>
    match segment with
    | .literal _ => exact ih
    | .gap none => exact ih
    | .gap (some name) => exact congrArg ((name, String.ofList text) :: ·) ih

/-- The named texts have the names of the captures, in pattern order. -/
theorem names_namedTexts (h : List.Forall₂ Segment.Allows segments texts) :
    (namedTexts segments texts).map Prod.fst = segments.filterMap Segment.name? := by
  induction h with
  | nil => rfl
  | @cons segment _ _ _ _ _ ih =>
    match segment with
    | .literal _ => exact ih
    | .gap none => exact ih
    | .gap (some name) => exact congrArg (name :: ·) ih

/-! ## The search with lazy gaps -/

/-- Fills a gap in front of what `rest` makes of the remaining text: it stays as it is first, and
takes one more character only behind all that comes of that. -/
def lazily (rest : List Char → List (List (List Char))) : List Char → List (List (List Char))
  | [] => (rest []).map ([] :: ·)
  | c :: s => (rest (c :: s)).map ([] :: ·) ++ (lazily rest s).map (consFirst c)

/-- **The ways to take a text apart**, in the order in which a search with lazy gaps that comes back
from every failure meets them. -/
def readings : List Segment → List Char → List (List (List Char))
  | [], s => if s = [] then [[]] else []
  | .literal text :: segments, s =>
    match text.isPrefixOf? s with
    | some rest => (readings segments rest).map (text :: ·)
    | none => []
  | .gap _ :: segments, s => lazily (readings segments) s

theorem mem_lazily {rest : List Char → List (List (List Char))} :
    texts ∈ lazily rest s ↔
      ∃ gap tail others, s = gap ++ tail ∧ others ∈ rest tail ∧ texts = gap :: others := by
  induction s generalizing texts with
  | nil =>
    simp only [lazily, List.mem_map]
    constructor
    · rintro ⟨others, hothers, rfl⟩
      exact ⟨[], [], others, rfl, hothers, rfl⟩
    · rintro ⟨gap, tail, others, hs, hothers, rfl⟩
      obtain ⟨rfl, rfl⟩ := List.append_eq_nil_iff.mp hs.symm
      exact ⟨others, hothers, rfl⟩
  | cons c s ih =>
    simp only [lazily, List.mem_append, List.mem_map]
    constructor
    · rintro (⟨others, hothers, rfl⟩ | ⟨texts, htexts, rfl⟩)
      · exact ⟨[], c :: s, others, rfl, hothers, rfl⟩
      · obtain ⟨gap, tail, others, rfl, hothers, rfl⟩ := ih.mp htexts
        exact ⟨c :: gap, tail, others, rfl, hothers, rfl⟩
    · rintro ⟨gap, tail, others, hs, hothers, rfl⟩
      cases gap with
      | nil => exact .inl ⟨others, hs ▸ hothers, rfl⟩
      | cons d gap =>
        obtain ⟨rfl, rfl⟩ := List.cons.inj hs
        exact .inr ⟨gap :: others, ih.mpr ⟨gap, tail, others, rfl, hothers, rfl⟩, rfl⟩

/-- **The readings are all the ways to take a text apart.** -/
theorem mem_readings : texts ∈ readings segments s ↔ Decomposes segments s texts := by
  induction segments generalizing s texts with
  | nil =>
    rw [decomposes_nil, readings]
    split <;> simp_all
  | cons segment segments ih =>
    rw [decomposes_cons]
    cases segment with
    | literal text =>
      rw [readings]
      constructor
      · intro h
        split at h
        · rename_i rest hrest
          obtain ⟨others, hothers, rfl⟩ := List.mem_map.mp h
          exact ⟨text, rest, others, (List.isPrefixOf?_eq_some_iff_append_eq.mp hrest).symm, rfl,
            ih.mp hothers, rfl⟩
        · exact absurd h List.not_mem_nil
      · rintro ⟨_, rest, others, rfl, rfl, hothers, rfl⟩
        rw [List.isPrefixOf?_eq_some_iff_append_eq.mpr rfl]
        exact List.mem_map.mpr ⟨others, ih.mpr hothers, rfl⟩
    | gap name? =>
      rw [readings, mem_lazily]
      constructor
      · rintro ⟨gap, tail, others, hs, hothers, rfl⟩
        exact ⟨gap, tail, others, hs, trivial, ih.mp hothers, rfl⟩
      · rintro ⟨gap, tail, others, hs, -, hothers, rfl⟩
        exact ⟨gap, tail, others, hs, ih.mpr hothers, rfl⟩

/-! ## The order of the search -/

/-- A gap that comes before the others decides, and if it is as long, they do. -/
theorem gapLengths_gap_lt {name? : Option String} {gap gap' : List Char}
    {others others' : List (List Char)} :
    gapLengths (.gap name? :: segments) (gap :: others) <
        gapLengths (.gap name? :: segments) (gap' :: others') ↔
      gap.length < gap'.length ∨
        gap.length = gap'.length ∧ gapLengths segments others < gapLengths segments others' :=
  List.cons_lt_cons_iff

theorem pairwise_lazily (name? : Option String)
    (h : ∀ s, (readings segments s).Pairwise fun a b =>
      gapLengths segments a < gapLengths segments b) (s : List Char) :
    (lazily (readings segments) s).Pairwise fun a b =>
      gapLengths (.gap name? :: segments) a < gapLengths (.gap name? :: segments) b := by
  have hopen (s : List Char) : ((readings segments s).map ([] :: ·)).Pairwise fun a b =>
      gapLengths (.gap name? :: segments) a < gapLengths (.gap name? :: segments) b :=
    List.pairwise_map.mpr ((h s).imp fun hlt => gapLengths_gap_lt.mpr (.inr ⟨rfl, hlt⟩))
  induction s with
  | nil => exact hopen []
  | cons c s ih =>
    refine List.pairwise_append.mpr ⟨hopen (c :: s), List.pairwise_map.mpr ?_, ?_⟩
    · refine ih.imp_of_mem fun ha hb hlt => ?_
      obtain ⟨gap, _, others, -, -, rfl⟩ := mem_lazily.mp ha
      obtain ⟨gap', _, others', -, -, rfl⟩ := mem_lazily.mp hb
      refine gapLengths_gap_lt.mpr ((gapLengths_gap_lt.mp hlt).imp ?_ ?_)
      · exact Nat.succ_lt_succ
      · exact fun ⟨heq, hlt⟩ => ⟨congrArg (· + 1) heq, hlt⟩
    · intro a ha b hb
      obtain ⟨others, -, rfl⟩ := List.mem_map.mp ha
      obtain ⟨texts, htexts, rfl⟩ := List.mem_map.mp hb
      obtain ⟨gap, _, others', -, -, rfl⟩ := mem_lazily.mp htexts
      exact gapLengths_gap_lt.mpr (.inl (Nat.succ_pos gap.length))

/-- **The search meets the readings in the lexicographic order of the lengths of their gaps.** -/
theorem pairwise_readings (segments : List Segment) (s : List Char) :
    (readings segments s).Pairwise fun a b => gapLengths segments a < gapLengths segments b := by
  induction segments generalizing s with
  | nil =>
    rw [readings]
    split
    · exact List.pairwise_singleton _ _
    · exact .nil
  | cons segment segments ih =>
    cases segment with
    | literal text =>
      rw [readings]
      split
      · exact List.pairwise_map.mpr (ih _)
      · exact .nil
    | gap name? => exact pairwise_lazily name? ih s

/-! ## The search that does not come back -/

theorem lazily_eq_nil {rest : List Char → List (List (List Char))} :
    lazily rest s = [] ↔ ∀ tail, tail <:+ s → rest tail = [] := by
  simp only [List.eq_nil_iff_forall_not_mem, mem_lazily]
  constructor
  · rintro h tail ⟨gap, rfl⟩ others hothers
    exact h _ ⟨gap, tail, others, rfl, hothers, rfl⟩
  · rintro h _ ⟨gap, tail, others, rfl, hothers, rfl⟩
    exact h tail (List.suffix_append gap tail) others hothers

/-- What the result of trying segments at one place says of the readings there. -/
def Fit.Tells (segments : List Segment) (s : List Char) : Fit → Prop
  | .found values =>
    ∃ texts, (readings segments s).head? = some texts ∧ gapTexts segments texts = values
  | .mismatch => readings segments s = []
  | .hopeless => ∀ tail, tail <:+ s → readings segments tail = []

/-- A gap that stays as it is has the readings of what follows, unless there are none. -/
theorem tells_openGap {fit : Fit} (name? : Option String) {more : List (List (List Char))}
    (hreadings : readings (.gap name? :: segments) s = (readings segments s).map ([] :: ·) ++ more)
    (h : fit.Tells segments s) (hfit : fit ≠ .mismatch) :
    fit.openGap.Tells (.gap name? :: segments) s := by
  cases fit with
  | found values =>
    obtain ⟨texts, hhead, rfl⟩ := h
    obtain ⟨others, hothers⟩ := List.head?_eq_some_iff.mp hhead
    exact ⟨[] :: texts, by rw [hreadings, hothers]; rfl, rfl⟩
  | mismatch => exact absurd rfl hfit
  | hopeless => exact fun tail htail =>
    lazily_eq_nil.mpr fun tail' htail' => h tail' (htail'.trans htail)

theorem tells_shortestGap (name? : Option String)
    (h : ∀ s, (fit segments s).Tells segments s) (s : List Char) :
    (shortestGap (fit segments) s).Tells (.gap name? :: segments) s := by
  induction s with
  | nil =>
    have hhere := h []
    rw [shortestGap]
    split
    · rename_i hmiss
      rw [hmiss] at hhere
      intro tail htail
      rw [List.suffix_nil.mp htail]
      exact List.map_eq_nil_iff.mpr hhere
    · rename_i hfit
      exact tells_openGap name? (List.append_nil _).symm hhere hfit
  | cons c s ih =>
    have hhere := h (c :: s)
    rw [shortestGap]
    split
    · rename_i hmiss
      rw [hmiss] at hhere
      have hreadings : readings (.gap name? :: segments) (c :: s) =
          (readings (.gap name? :: segments) s).map (consFirst c) := by
        show (readings segments (c :: s)).map _ ++ _ = _
        rw [hhere]
        rfl
      cases hrest : shortestGap (fit segments) s with
      | found values =>
        rw [hrest] at ih
        obtain ⟨texts, hhead, rfl⟩ := ih
        obtain ⟨gap, _, others, -, -, rfl⟩ := mem_lazily.mp (List.mem_of_head? hhead)
        exact ⟨(c :: gap) :: others, by rw [hreadings, List.head?_map, hhead]; rfl, rfl⟩
      | mismatch =>
        rw [hrest] at ih
        exact hreadings.trans (List.map_eq_nil_iff.mpr ih)
      | hopeless =>
        rw [hrest] at ih
        intro tail htail
        rcases List.suffix_cons_iff.mp htail with rfl | hshorter
        · exact hreadings.trans (List.map_eq_nil_iff.mpr (ih s List.suffix_rfl))
        · exact ih tail hshorter
    · rename_i hfit
      exact tells_openGap name? rfl hhere hfit

/-- Behind a fixed text that stands here there is what stands behind it. -/
theorem tells_literal {fit : Fit} {text rest : List Char} (hs : text ++ rest = s)
    (h : fit.Tells segments rest) : fit.Tells (.literal text :: segments) s := by
  have hreadings : readings (.literal text :: segments) s =
      (readings segments rest).map (text :: ·) := by
    rw [readings, List.isPrefixOf?_eq_some_iff_append_eq.mpr hs]
  cases fit with
  | found values =>
    obtain ⟨texts, hhead, rfl⟩ := h
    exact ⟨text :: texts, by rw [hreadings, List.head?_map, hhead]; rfl, rfl⟩
  | mismatch => exact hreadings.trans (List.map_eq_nil_iff.mpr h)
  | hopeless =>
    rintro tail ⟨before, htail⟩
    rw [readings]
    split
    · rename_i after hafter
      -- further on the fixed text leaves less behind it
      have hafter := List.isPrefixOf?_eq_some_iff_append_eq.mp hafter
      have hshorter : after.length ≤ rest.length := by
        have hlength := congrArg List.length htail
        simp only [← hs, ← hafter, List.length_append] at hlength
        omega
      have hend : after <:+ s := ⟨before ++ text, by rw [List.append_assoc, hafter, htail]⟩
      rw [h after (List.suffix_of_suffix_length_le hend ⟨text, hs⟩ hshorter)]
      rfl
    · rfl

/-- The search that does not come back to a gap finds the first reading, if there is one: what is
not found behind a gap in the rest of a text is not found in a shorter rest either. -/
theorem tells_fit (segments : List Segment) (s : List Char) :
    (fit segments s).Tells segments s := by
  induction segments generalizing s with
  | nil =>
    rw [fit]
    split
    · rename_i hs
      exact ⟨[], by rw [readings, if_pos hs]; rfl, rfl⟩
    · rename_i hs
      exact if_neg hs
  | cons segment segments ih =>
    cases segment with
    | literal text =>
      rw [fit]
      split
      · rename_i rest hrest
        exact tells_literal (List.isPrefixOf?_eq_some_iff_append_eq.mp hrest) (ih rest)
      · rename_i hmiss
        show readings _ _ = []
        rw [readings, hmiss]
    | gap name? => exact tells_shortestGap name? ih s

/-- **A pattern captures what the first reading has in its named gaps.** -/
theorem Pattern.captures?_eq (p : Pattern) (line : String) :
    p.captures? line = (readings p.segments line.toList).head?.map (namedTexts p.segments) := by
  have htells := tells_fit p.segments line.toList
  unfold captures?
  cases hfit : fit p.segments line.toList with
  | found values =>
    rw [hfit] at htells
    obtain ⟨texts, hhead, rfl⟩ := htells
    have hallowed := (mem_readings.mp (List.mem_of_head? hhead)).allowed
    rw [hhead]
    exact congrArg some (captured_gapTexts hallowed)
  | mismatch =>
    rw [hfit] at htells
    rw [show readings p.segments line.toList = [] from htells]
    rfl
  | hopeless =>
    rw [hfit] at htells
    rw [htells line.toList List.suffix_rfl]
    rfl

/-! ## The law of captures -/

/-- A way to take a line apart whose gaps are shorter than those of every other way, in
lexicographic order from left to right. -/
structure IsShortest (segments : List Segment) (line : List Char) (texts : List (List Char)) :
    Prop where
  decomposes : Decomposes segments line texts
  least : ∀ others, Decomposes segments line others → others ≠ texts →
    gapLengths segments texts < gapLengths segments others

theorem isShortest_of_head? (h : (readings segments s).head? = some texts) :
    IsShortest segments s texts where
  decomposes := mem_readings.mp (List.mem_of_head? h)
  least others hothers hne := by
    obtain ⟨more, hmore⟩ := List.head?_eq_some_iff.mp h
    have hsorted := pairwise_readings segments s
    have hmem := mem_readings.mpr hothers
    rw [hmore] at hsorted hmem
    exact (List.pairwise_cons.mp hsorted).1 others ((List.mem_cons.mp hmem).resolve_left hne)

/-- **What is captured of a line**: it matches iff it can be taken apart, and then the captures are
the named texts of the way with the shortest gaps. -/
structure CaptureLaw (segments : List Segment) (line : List Char) (captures? : Option Captures) :
    Prop where
  isSome_iff : captures?.isSome ↔ ∃ texts, Decomposes segments line texts
  shortest : ∀ captures, captures? = some captures →
    ∃ texts, IsShortest segments line texts ∧ captures = namedTexts segments texts
  names : ∀ captures, captures? = some captures →
    captures.map Prod.fst = segments.filterMap Segment.name?

/-- **Every pattern obeys the law of captures on every line.** -/
theorem Pattern.captureLaw (p : Pattern) (line : String) :
    CaptureLaw p.segments line.toList (p.captures? line) where
  isSome_iff := by
    rw [captures?_eq, Option.isSome_map, List.isSome_head?]
    constructor
    · intro h
      obtain ⟨texts, htexts⟩ := List.exists_mem_of_ne_nil _ (by simpa using h)
      exact ⟨texts, mem_readings.mp htexts⟩
    · rintro ⟨texts, htexts⟩
      simpa using List.ne_nil_of_mem (mem_readings.mpr htexts)
  shortest captures h := by
    rw [captures?_eq] at h
    obtain ⟨texts, hhead, rfl⟩ := Option.map_eq_some_iff.mp h
    exact ⟨texts, isShortest_of_head? hhead, rfl⟩
  names captures h := by
    rw [captures?_eq] at h
    obtain ⟨texts, hhead, rfl⟩ := Option.map_eq_some_iff.mp h
    exact names_namedTexts (mem_readings.mp (List.mem_of_head? hhead)).allowed

end Heartbeat
