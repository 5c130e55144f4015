import Heartbeat.Pattern.Reader
import Heartbeat.Proofs.Pattern.Captures
import Mathlib.Data.List.Chain
import Mathlib.Data.List.Nodup

/-!
# Patterns as they are written

A pattern is written segment by segment: a fixed text with its braces doubled, a wildcard as `#*#`,
and a capture as its name in braces, or between hashes if it is all digits. A hash of a fixed text
must not start something that reads as a gap. Reading a text gives exactly the segments that it is
written for, so no two neighbours are taken for something else.

* `Writes`: the ways to write segments.
* `IsRegular`: segments that have a written form.
* `readSegments_eq_ok_iff`: what is read is what is written.
* `Pattern.compile_eq_ok_iff`: a text is a pattern iff it is written for segments that the engine
  takes.
* `Pattern.captures_law_of_compile`: what an accepted text captures of a line.
* `Pattern.compile_law`: a written text is accepted iff the engine takes its segments, and plain
  text matches only itself; `Pattern.too_many_wildcards` is a written text that is turned down.
-/

namespace Heartbeat

open Heartbeat.Text

variable {segments : List Segment} {seen : List String} {s rest text : List Char} {name : String}
  {c : Char} {engine : PatternEngine}

/-! ## Written segments -/

/-- A character of a fixed text as it is written: a brace twice, and all else once. -/
def doubled (c : Char) : List Char := if c = '{' ∨ c = '}' then [c, c] else [c]

/-- A fixed text as it is written. -/
def doubleBraces (text : List Char) : List Char := text.flatMap doubled

theorem doubleBraces_cons (c : Char) (text : List Char) :
    doubleBraces (c :: text) = doubled c ++ doubleBraces text := List.flatMap_cons

/-- The text starts with what reads as a gap between hashes. -/
def StartsHashGap (s : List Char) : Prop :=
  ['#', '*', '#'] <+: s ∨
    ∃ digits, digits ≠ [] ∧ digits.all isDigit ∧ '#' :: (digits ++ ['#']) <+: s

/-- **The ways to write segments.** -/
inductive Writes : List Segment → List Char → Prop
  | nil : Writes [] []
  /-- A fixed text has its braces doubled. None of its hashes starts a gap with what follows it. -/
  | literal {segments : List Segment} {text rest : List Char}
      (plain : ∀ before after, text = before ++ '#' :: after →
        ¬ StartsHashGap ('#' :: (doubleBraces after ++ rest)))
      (next : Writes segments rest) : Writes (.literal text :: segments) (doubleBraces text ++ rest)
  | wildcard {segments : List Segment} {rest : List Char} (next : Writes segments rest) :
      Writes (.gap none :: segments) ('#' :: '*' :: '#' :: rest)
  | braces {segments : List Segment} {name : String} {rest : List Char}
      (next : Writes segments rest) :
      Writes (.gap (some name) :: segments) ('{' :: (name.toList ++ '}' :: rest))
  | hashes {segments : List Segment} {name : String} {rest : List Char}
      (digits : name.toList.all isDigit) (next : Writes segments rest) :
      Writes (.gap (some name) :: segments) ('#' :: (name.toList ++ '#' :: rest))

/-- **Segments that have a written form**: no fixed text is empty or next to another one, and the
names of the captures are different and made of ASCII letters, digits and underscores. -/
structure IsRegular (segments : List Segment) : Prop where
  filled : ∀ text, Segment.literal text ∈ segments → text ≠ []
  apart : segments.IsChain fun a b => a.isGap ∨ b.isGap
  distinct : (segments.filterMap Segment.name?).Nodup
  named : ∀ name ∈ segments.filterMap Segment.name?, name ≠ "" ∧ name.toList.all isNameChar

/-- The first segment is no fixed text. -/
def StartsWithGap (segments : List Segment) : Prop := ∀ segment ∈ segments.head?, segment.isGap

theorem isRegular_nil : IsRegular [] := ⟨by simp, .nil, .nil, by simp⟩

theorem isRegular_literal_iff : IsRegular (.literal text :: segments) ↔
    text ≠ [] ∧ StartsWithGap segments ∧ IsRegular segments := by
  constructor
  · rintro ⟨hfilled, hapart, hdistinct, hnamed⟩
    obtain ⟨hhead, hapart⟩ := List.isChain_cons.mp hapart
    refine ⟨hfilled text List.mem_cons_self,
      fun segment hs => (hhead segment hs).resolve_left nofun,
      fun text ht => hfilled text (List.mem_cons_of_mem _ ht), hapart, hdistinct, hnamed⟩
  · rintro ⟨htext, hgap, hfilled, hapart, hdistinct, hnamed⟩
    refine ⟨fun other hother => ?_, ?_, hdistinct, hnamed⟩
    · rcases List.mem_cons.mp hother with heq | hmem
      · exact Segment.literal.inj heq ▸ htext
      · exact hfilled other hmem
    · exact List.isChain_cons.mpr ⟨fun segment hs => .inr (hgap segment hs), hapart⟩

theorem isRegular_gap_iff {name? : Option String} : IsRegular (.gap name? :: segments) ↔
    IsRegular segments ∧ ∀ name ∈ name?, name ∉ segments.filterMap Segment.name? ∧
      name ≠ "" ∧ name.toList.all isNameChar := by
  have hmem (text : List Char) :
      Segment.literal text ∈ Segment.gap name? :: segments ↔ Segment.literal text ∈ segments := by
    simp
  have hchain : (Segment.gap name? :: segments).IsChain (fun a b => a.isGap ∨ b.isGap) ↔
      segments.IsChain fun a b => a.isGap ∨ b.isGap := by
    simp [List.isChain_cons, Segment.isGap]
  constructor
  · rintro ⟨hfilled, hapart, hdistinct, hnamed⟩
    cases name? with
    | none =>
      exact ⟨⟨fun text ht => hfilled text ((hmem text).mpr ht), hchain.mp hapart, hdistinct,
        hnamed⟩, nofun⟩
    | some name =>
      obtain ⟨hnew, hdistinct⟩ := List.nodup_cons.mp hdistinct
      obtain ⟨hname, hnamed⟩ := List.forall_mem_cons.mp hnamed
      refine ⟨⟨fun text ht => hfilled text ((hmem text).mpr ht), hchain.mp hapart, hdistinct,
        hnamed⟩, ?_⟩
      rintro _ ⟨⟩
      exact ⟨hnew, hname⟩
  · rintro ⟨⟨hfilled, hapart, hdistinct, hnamed⟩, hname⟩
    refine ⟨fun text ht => hfilled text ((hmem text).mp ht), hchain.mpr hapart, ?_, ?_⟩
    · cases name? with
      | none => exact hdistinct
      | some name => exact List.nodup_cons.mpr ⟨(hname name rfl).1, hdistinct⟩
    · cases name? with
      | none => exact hnamed
      | some name => exact List.forall_mem_cons.mpr ⟨(hname name rfl).2, hnamed⟩

/-! ## Single steps of the reader -/

theorem isDigit_of_mem {name : String} (h : name.toList.all isDigit) (hc : c ∈ name.toList) :
    isDigit c := List.all_eq_true.mp h c hc

theorem isNameChar_of_isDigit (h : isDigit c) : isNameChar c := by
  simp [isNameChar, h]

theorem hashGap?_eq_wildcard_iff : hashGap? s = some (none, rest) ↔ s = '*' :: '#' :: rest := by
  constructor
  · intro h
    unfold hashGap? at h
    split at h
    · simp_all
    · split at h
      · split at h <;> simp_all
      · simp_all
  · rintro rfl
    rfl

theorem hashGap?_eq_digits_iff : hashGap? s = some (some name, rest) ↔
    name ≠ "" ∧ name.toList.all isDigit ∧ s = name.toList ++ '#' :: rest := by
  constructor
  · intro h
    unfold hashGap? at h
    split at h
    · simp at h
    · split at h
      · rename_i after hafter
        split at h
        · simp at h
        · rename_i hdigits
          obtain ⟨rfl, rfl⟩ : String.ofList (s.takeWhile isDigit) = name ∧ after = rest := by
            simpa using h
          refine ⟨by simpa using hdigits, ?_, ?_⟩
          · rw [String.toList_ofList]
            exact List.all_takeWhile
          · rw [String.toList_ofList, ← hafter, List.takeWhile_append_dropWhile]
      · simp at h
  · rintro ⟨hname, hdigits, rfl⟩
    have htake : (name.toList ++ '#' :: rest).takeWhile isDigit = name.toList := by
      rw [List.takeWhile_append_of_pos fun c hc => isDigit_of_mem hdigits hc,
        List.takeWhile_cons_of_neg (by decide), List.append_nil]
    have hdrop : (name.toList ++ '#' :: rest).dropWhile isDigit = '#' :: rest := by
      rw [List.dropWhile_append_of_pos fun c hc => isDigit_of_mem hdigits hc,
        List.dropWhile_cons_of_neg (by decide)]
    have hne : name.toList ≠ [] := by simpa using hname
    unfold hashGap?
    split
    · rename_i after heq
      obtain ⟨d, ds, hd⟩ := List.exists_cons_of_ne_nil hne
      rw [hd] at heq
      obtain ⟨rfl, -⟩ := List.cons.inj heq
      exact absurd (isDigit_of_mem (c := '*') hdigits (hd ▸ List.mem_cons_self)) (by decide)
    · rw [hdrop, htake]
      simp [hne]

/-- What follows a hash is read as a gap iff it reads as one. -/
theorem hashGap?_eq_none_iff : hashGap? s = none ↔ ¬ StartsHashGap ('#' :: s) := by
  constructor
  · rintro h (⟨rest, hrest⟩ | ⟨digits, hne, hdigits, rest, hrest⟩)
    · have hs : hashGap? s = some (none, rest) :=
        hashGap?_eq_wildcard_iff.mpr (List.cons.inj hrest).2.symm
      exact absurd (h.symm.trans hs) nofun
    · have hs : hashGap? s = some (some (String.ofList digits), rest) :=
        hashGap?_eq_digits_iff.mpr ⟨by simpa using hne, by simpa using hdigits,
          by simpa using (List.cons.inj hrest).2.symm⟩
      exact absurd (h.symm.trans hs) nofun
  · intro h
    match hs : hashGap? s with
    | none => rfl
    | some (none, rest) =>
      rw [hashGap?_eq_wildcard_iff.mp hs] at h
      exact absurd (.inl ⟨rest, rfl⟩) h
    | some (some name, rest) =>
      obtain ⟨hname, hdigits, rfl⟩ := hashGap?_eq_digits_iff.mp hs
      exact absurd (.inr ⟨name.toList, by simpa using hname, hdigits, rest, by simp⟩) h

theorem checkName_eq_ok_iff : checkName seen text = .ok name ↔
    text = name.toList ∧ name ≠ "" ∧ name.toList.all isNameChar ∧ name ∉ seen := by
  unfold checkName
  constructor
  · intro h
    split at h
    · simp at h
    · split at h
      · simp at h
      · split at h
        · simp at h
        · obtain rfl : String.ofList text = name := by simpa using h
          simp_all
  · rintro ⟨rfl, hname, hchars, hnew⟩
    rw [if_neg (by simpa using hname), if_neg (by simpa using hchars), String.ofList_toList,
      if_neg hnew]

/-- A character of a fixed text joins what is read behind it. -/
theorem readSegments_doubled (h : c = '#' → hashGap? rest = none) :
    readSegments seen (doubled c ++ rest) = Segment.consChar c <$> readSegments seen rest := by
  by_cases hopen : c = '{'
  · subst hopen
    show readSegments seen ('{' :: '{' :: rest) = _
    rw [readSegments]
  by_cases hclose : c = '}'
  · subst hclose
    show readSegments seen ('}' :: '}' :: rest) = _
    rw [readSegments]
  rw [doubled, if_neg (not_or_intro hopen hclose), List.singleton_append]
  by_cases hhash : c = '#'
  · subst hhash
    rw [readSegments]
    split <;> simp_all
  · rw [readSegments] <;> simp_all

theorem readSegments_wildcard :
    readSegments seen ('#' :: '*' :: '#' :: rest) =
      (Segment.gap none :: ·) <$> readSegments seen rest := by
  have hgap := hashGap?_eq_wildcard_iff.mpr (rfl (a := '*' :: '#' :: rest))
  rw [readSegments]
  split
  · simp_all
  · rename_i after h
    obtain rfl : rest = after := by simpa [hgap] using h
    rfl
  · rename_i h
    simp [hgap] at h

theorem readSegments_hashes (hname : name ≠ "") (hdigits : name.toList.all isDigit)
    (hnew : name ∉ seen) :
    readSegments seen ('#' :: (name.toList ++ '#' :: rest)) =
      (Segment.gap (some name) :: ·) <$> readSegments (name :: seen) rest := by
  have hgap := hashGap?_eq_digits_iff.mpr ⟨hname, hdigits, rfl (a := name.toList ++ '#' :: rest)⟩
  rw [readSegments]
  split
  · simp_all
  · rename_i h
    simp [hgap] at h
  · rename_i other after h
    obtain ⟨rfl, rfl⟩ : name = other ∧ rest = after := by simpa [hgap] using h
    rw [if_neg hnew]

theorem readSegments_braces (hname : name ≠ "") (hchars : name.toList.all isNameChar)
    (hnew : name ∉ seen) :
    readSegments seen ('{' :: (name.toList ++ '}' :: rest)) =
      (Segment.gap (some name) :: ·) <$> readSegments (name :: seen) rest := by
  have hclose : '}' ∉ name.toList := fun h => absurd (List.all_eq_true.mp hchars _ h) (by decide)
  have hsplit : splitAt? '}' (name.toList ++ '}' :: rest) = some (name.toList, rest) :=
    splitAt?_append hclose
  have hcheck := checkName_eq_ok_iff.mpr ⟨rfl, hname, hchars, hnew⟩
  rw [readSegments]
  · split
    · simp_all
    · rename_i text after h
      obtain ⟨rfl, rfl⟩ : name.toList = text ∧ rest = after := by simpa [hsplit] using h
      rw [hcheck]
  · rintro after hafter
    obtain ⟨d, ds, hd⟩ := List.exists_cons_of_ne_nil (l := name.toList) (by simpa using hname)
    rw [hd] at hafter
    obtain ⟨rfl, -⟩ := List.cons.inj hafter
    exact absurd (List.all_eq_true.mp hchars '{' (hd ▸ List.mem_cons_self)) (by decide)

/-! ## What is written is read -/

/-- A fixed text whose hashes start no gap joins what is read behind it. -/
theorem readSegments_doubleBraces (plain : ∀ before after, text = before ++ '#' :: after →
      ¬ StartsHashGap ('#' :: (doubleBraces after ++ rest)))
    (h : readSegments seen rest = .ok segments) :
    readSegments seen (doubleBraces text ++ rest) = .ok (text.foldr Segment.consChar segments) := by
  induction text with
  | nil => exact h
  | cons c text ih =>
    have hrest := ih fun before after htext => plain (c :: before) after (htext ▸ rfl)
    have hhash : c = '#' → hashGap? (doubleBraces text ++ rest) = none := by
      rintro rfl
      exact hashGap?_eq_none_iff.mpr (plain [] text rfl)
    rw [doubleBraces_cons, List.append_assoc, readSegments_doubled hhash]
    exact congrArg (Segment.consChar c <$> ·) hrest

/-- Characters in front of a gap, or of nothing, become one fixed text. -/
theorem foldr_consChar (htext : text ≠ []) (hgap : StartsWithGap segments) :
    text.foldr Segment.consChar segments = .literal text :: segments := by
  induction text with
  | nil => exact absurd rfl htext
  | cons c text ih =>
    cases text with
    | nil =>
      match segments with
      | [] => rfl
      | .gap _ :: _ => rfl
      | .literal other :: _ => exact absurd (hgap (.literal other) rfl) nofun
    | cons d text =>
      rw [List.foldr_cons, ih (List.cons_ne_nil d text)]
      rfl

/-- Names that are new and different from one another, seen one after the other. -/
theorem unseen_cons_iff {names : List String} :
    (name ∉ names ∧ ∀ other ∈ name :: names, other ∉ seen) ↔
      name ∉ seen ∧ ∀ other ∈ names, other ∉ name :: seen := by
  constructor
  · rintro ⟨hfresh, hnew⟩
    obtain ⟨hname, hnames⟩ := List.forall_mem_cons.mp hnew
    refine ⟨hname, fun other hother hmem => ?_⟩
    rcases List.mem_cons.mp hmem with rfl | hseen
    · exact hfresh hother
    · exact hnames other hother hseen
  · rintro ⟨hname, hnames⟩
    refine ⟨fun hmem => hnames name hmem List.mem_cons_self, List.forall_mem_cons.mpr ⟨hname, ?_⟩⟩
    exact fun other hother hseen => hnames other hother (List.mem_cons_of_mem _ hseen)

/-- **What is written is read.** -/
theorem readSegments_of_writes (h : Writes segments s) (hregular : IsRegular segments)
    (hnew : ∀ name ∈ segments.filterMap Segment.name?, name ∉ seen) :
    readSegments seen s = .ok segments := by
  induction h generalizing seen with
  | nil => rw [readSegments]
  | literal plain next ih =>
    obtain ⟨htext, hgap, hregular⟩ := isRegular_literal_iff.mp hregular
    rw [readSegments_doubleBraces plain (ih hregular hnew), foldr_consChar htext hgap]
  | wildcard next ih =>
    rw [readSegments_wildcard, ih (isRegular_gap_iff.mp hregular).1 hnew]
    rfl
  | @braces segments name rest next ih =>
    obtain ⟨hregular, hname⟩ := isRegular_gap_iff.mp hregular
    obtain ⟨hfresh, hne, hchars⟩ := hname name rfl
    obtain ⟨hunseen, hbehind⟩ := unseen_cons_iff.mp ⟨hfresh, hnew⟩
    rw [readSegments_braces hne hchars hunseen, ih hregular hbehind]
    rfl
  | @hashes segments name rest digits next ih =>
    obtain ⟨hregular, hname⟩ := isRegular_gap_iff.mp hregular
    obtain ⟨hfresh, hne, hchars⟩ := hname name rfl
    obtain ⟨hunseen, hbehind⟩ := unseen_cons_iff.mp ⟨hfresh, hnew⟩
    rw [readSegments_hashes hne digits hunseen, ih hregular hbehind]
    rfl

/-! ## What is read is written -/

theorem map_eq_ok_iff {ε α β : Type} {f : α → β} {x : Except ε α} {b : β} :
    f <$> x = .ok b ↔ ∃ a, x = .ok a ∧ f a = b := by
  cases x with
  | error e => exact ⟨nofun, nofun⟩
  | ok a => exact ⟨fun h => ⟨a, rfl, Except.ok.inj h⟩, fun ⟨_, ha, hb⟩ => hb ▸ ha ▸ rfl⟩

theorem filterMap_consChar (c : Char) (segments : List Segment) :
    (Segment.consChar c segments).filterMap Segment.name? = segments.filterMap Segment.name? := by
  match segments with
  | [] => rfl
  | .gap _ :: _ => rfl
  | .literal _ :: _ => rfl

theorem isRegular_consChar (c : Char) (h : IsRegular segments) :
    IsRegular (Segment.consChar c segments) := by
  match segments with
  | [] => exact isRegular_literal_iff.mpr ⟨List.cons_ne_nil c [], nofun, h⟩
  | .gap name? :: segments =>
    exact isRegular_literal_iff.mpr ⟨List.cons_ne_nil c [], by rintro _ ⟨⟩; rfl, h⟩
  | .literal text :: segments =>
    exact isRegular_literal_iff.mpr ⟨List.cons_ne_nil c text, (isRegular_literal_iff.mp h).2⟩

/-- A character in front of what is written for segments. -/
theorem writes_consChar (h : Writes segments s) (hc : c = '#' → hashGap? s = none) :
    Writes (Segment.consChar c segments) (doubled c ++ s) := by
  have single : Writes (.literal [c] :: segments) (doubled c ++ s) := by
    have hplain : ∀ before after, [c] = before ++ '#' :: after →
        ¬ StartsHashGap ('#' :: (doubleBraces after ++ s)) := by
      intro before after heq
      obtain ⟨rfl, heq⟩ := List.append_eq_singleton_iff.mp heq.symm |>.resolve_right nofun
      obtain ⟨rfl, rfl⟩ := List.cons.inj heq
      exact hashGap?_eq_none_iff.mp (hc rfl)
    have hwrites := Writes.literal hplain h
    rwa [doubleBraces_cons, doubleBraces, List.flatMap_nil, List.append_nil] at hwrites
  cases h with
  | nil => exact single
  | wildcard => exact single
  | braces => exact single
  | hashes => exact single
  | @literal segments text rest plain next =>
    have hplain : ∀ before after, c :: text = before ++ '#' :: after →
        ¬ StartsHashGap ('#' :: (doubleBraces after ++ rest)) := by
      intro before after heq
      cases before with
      | nil =>
        obtain ⟨rfl, rfl⟩ := List.cons.inj heq
        exact hashGap?_eq_none_iff.mp (hc rfl)
      | cons d before => exact plain before after (List.cons.inj heq).2
    rw [← List.append_assoc, ← doubleBraces_cons]
    exact .literal hplain next

/-- Segments that are written and have new names. -/
structure ReadsAs (seen : List String) (segments : List Segment) (s : List Char) : Prop where
  writes : Writes segments s
  regular : IsRegular segments
  unseen : ∀ name ∈ segments.filterMap Segment.name?, name ∉ seen

namespace ReadsAs

theorem consChar (h : ReadsAs seen segments s) (hc : c = '#' → hashGap? s = none) :
    ReadsAs seen (Segment.consChar c segments) (doubled c ++ s) where
  writes := writes_consChar h.writes hc
  regular := isRegular_consChar c h.regular
  unseen := filterMap_consChar c segments ▸ h.unseen

/-- A capture in front, written in one of the two ways. -/
theorem capture (h : ReadsAs (name :: seen) segments rest)
    (hwrites : Writes (.gap (some name) :: segments) s) (hname : name ≠ "")
    (hchars : name.toList.all isNameChar) (hnew : name ∉ seen) :
    ReadsAs seen (.gap (some name) :: segments) s where
  writes := hwrites
  regular := by
    refine isRegular_gap_iff.mpr ⟨h.regular, ?_⟩
    rintro _ ⟨⟩
    exact ⟨(unseen_cons_iff.mpr ⟨hnew, h.unseen⟩).1, hname, hchars⟩
  unseen := (unseen_cons_iff.mpr ⟨hnew, h.unseen⟩).2

end ReadsAs

/-- **What is read is written.** -/
theorem readsAs_of_readSegments (h : readSegments seen s = .ok segments) :
    ReadsAs seen segments s := by
  fun_induction readSegments seen s generalizing segments with
  | case1 seen =>
    obtain rfl := Except.ok.inj h
    exact ⟨.nil, isRegular_nil, nofun⟩
  | case2 seen rest ih =>
    obtain ⟨behind, hbehind, rfl⟩ := map_eq_ok_iff.mp h
    exact (ih hbehind).consChar (c := '{') nofun
  | case3 seen rest ih =>
    obtain ⟨behind, hbehind, rfl⟩ := map_eq_ok_iff.mp h
    exact (ih hbehind).consChar (c := '}') nofun
  | case4 => exact absurd h nofun
  | case5 => exact absurd h nofun
  | case6 seen rest hbrace text after hsplit hlt name hname ih =>
    obtain ⟨behind, hbehind, rfl⟩ := map_eq_ok_iff.mp h
    obtain ⟨rfl, hne, hchars, hnew⟩ := checkName_eq_ok_iff.mp hname
    rw [eq_append_of_splitAt? hsplit]
    exact (ih hbehind).capture (.braces (ih hbehind).writes) hne hchars hnew
  | case7 => exact absurd h nofun
  | case8 seen rest hgap ih =>
    obtain ⟨behind, hbehind, rfl⟩ := map_eq_ok_iff.mp h
    exact (ih hbehind).consChar (c := '#') fun _ => hgap
  | case9 seen rest after hgap hlt ih =>
    obtain ⟨behind, hbehind, rfl⟩ := map_eq_ok_iff.mp h
    rw [hashGap?_eq_wildcard_iff.mp hgap]
    obtain ⟨hwrites, hregular, hunseen⟩ := ih hbehind
    exact ⟨.wildcard hwrites, isRegular_gap_iff.mpr ⟨hregular, nofun⟩, hunseen⟩
  | case10 => exact absurd h nofun
  | case11 seen rest name after hgap hlt hnew ih =>
    obtain ⟨behind, hbehind, rfl⟩ := map_eq_ok_iff.mp h
    obtain ⟨hne, hdigits, rfl⟩ := hashGap?_eq_digits_iff.mp hgap
    have hchars : name.toList.all isNameChar :=
      List.all_eq_true.mpr fun c hc => isNameChar_of_isDigit (isDigit_of_mem hdigits hc)
    exact (ih hbehind).capture (.hashes hdigits (ih hbehind).writes) hne hchars hnew
  | case12 seen c rest _ _ hopen hclose hhash ih =>
    obtain ⟨behind, hbehind, rfl⟩ := map_eq_ok_iff.mp h
    have hc : doubled c = [c] := if_neg (not_or_intro hopen hclose)
    have hread := (ih hbehind).consChar (c := c) fun heq => absurd heq hhash
    rwa [hc] at hread

/-- **Reading gives exactly the segments that a text is written for.** -/
theorem readSegments_eq_ok_iff :
    readSegments [] s = .ok segments ↔ Writes segments s ∧ IsRegular segments := by
  constructor
  · intro h
    exact ⟨(readsAs_of_readSegments h).writes, (readsAs_of_readSegments h).regular⟩
  · rintro ⟨hwrites, hregular⟩
    exact readSegments_of_writes hwrites hregular fun _ _ => List.not_mem_nil

/-! ## Patterns -/

theorem eq_nil_of_writes (h : Writes [] s) : s = [] := by
  cases h
  rfl

theorem writes_ne_nil (h : Writes segments s) (hregular : IsRegular segments)
    (hne : segments ≠ []) : s ≠ [] := by
  cases h with
  | nil => exact absurd rfl hne
  | @literal _ text =>
    obtain ⟨c, text, rfl⟩ := List.exists_cons_of_ne_nil (isRegular_literal_iff.mp hregular).1
    rw [doubleBraces_cons, doubled]
    split <;> exact List.cons_ne_nil _ _
  | wildcard => exact List.cons_ne_nil _ _
  | braces => exact List.cons_ne_nil _ _
  | hashes => exact List.cons_ne_nil _ _

/-- **A written text is a pattern unless the engine turns its expression down.** -/
theorem Pattern.compile_of_writes (h : Writes segments s) (hregular : IsRegular segments)
    (hne : segments ≠ []) :
    Pattern.compile engine (String.ofList s) =
      match engine.refusal? (engine.expression segments) with
      | none => .ok ⟨String.ofList s, segments⟩
      | some reason => .error ⟨String.ofList s, .refused reason⟩ := by
  have hread := readSegments_eq_ok_iff.mpr ⟨h, hregular⟩
  have hsome : String.ofList s ≠ "" := by simpa using writes_ne_nil h hregular hne
  unfold compile
  cases hrefusal : engine.refusal? (engine.expression segments) <;> simp [hsome, hread, hrefusal]

/-- **A text is a pattern iff it is written for segments that the engine takes.** -/
theorem Pattern.compile_eq_ok_iff {source : String} {p : Pattern} :
    Pattern.compile engine source = .ok p ↔
      p.source = source ∧ p.segments ≠ [] ∧ IsRegular p.segments ∧
        Writes p.segments source.toList ∧ engine.Takes p.segments := by
  constructor
  · intro h
    unfold compile at h
    split at h
    · exact absurd h nofun
    · rename_i hsource
      split at h
      · rename_i segments hread
        split at h
        · rename_i htakes
          obtain rfl := Except.ok.inj h
          obtain ⟨hwrites, hregular⟩ := readSegments_eq_ok_iff.mp hread
          refine ⟨rfl, ?_, hregular, hwrites, htakes⟩
          rintro rfl
          exact hsource (String.toList_eq_nil_iff.mp (eq_nil_of_writes hwrites))
        · exact absurd h nofun
      · exact absurd h nofun
  · rintro ⟨rfl, hne, hregular, hwrites, htakes⟩
    rw [← String.ofList_toList (s := p.source), compile_of_writes hwrites hregular hne, htakes,
      String.ofList_toList]

/-- **What an accepted text captures of a line**: the text is written for the segments of its
pattern, and every line is captured by their law. -/
theorem Pattern.captures_law_of_compile {source : String} {p : Pattern}
    (h : Pattern.compile engine source = .ok p) :
    IsRegular p.segments ∧ Writes p.segments source.toList ∧
      ∀ line : String, CaptureLaw p.segments line.toList (p.captures? line) := by
  obtain ⟨-, -, hregular, hwrites, -⟩ := compile_eq_ok_iff.mp h
  exact ⟨hregular, hwrites, fun line => p.captureLaw line⟩

/-- The first gap is as short as it can be, and so the last one is not. -/
theorem Pattern.captures_law_of_dashes :
    ∃ p, Pattern.compile .boundless "\x7ba\x7d-#*#\x7bb\x7d" = .ok p ∧ IsRegular p.segments ∧
      Writes p.segments "\x7ba\x7d-#*#\x7bb\x7d".toList ∧
      CaptureLaw p.segments "1-2-3".toList (p.captures? "1-2-3") ∧
      p.captures? "1-2-3" = some [("a", "1"), ("b", "2-3")] := by
  have hcompile : Pattern.compile .boundless "\x7ba\x7d-#*#\x7bb\x7d" =
      .ok ⟨"\x7ba\x7d-#*#\x7bb\x7d",
        [.gap (some "a"), .literal ['-'], .gap none, .gap (some "b")]⟩ := by decide +kernel
  obtain ⟨hregular, hwrites, hlaw⟩ := Pattern.captures_law_of_compile hcompile
  exact ⟨_, hcompile, hregular, hwrites, hlaw "1-2-3", by decide +kernel⟩

/-- The text is accepted for segments if and only if the engine takes them, and captures by their
law; otherwise it is refused for the reason that the engine gives. -/
structure AcceptedAs (engine : PatternEngine) (segments : List Segment) (source : String) :
    Prop where
  accepted : engine.Takes segments → ∃ p, Pattern.compile engine source = .ok p ∧
    p.names = segments.filterMap Segment.name? ∧
    ∀ line : String, CaptureLaw segments line.toList (p.captures? line)
  refused : ∀ reason, engine.refusal? (engine.expression segments) = some reason →
    Pattern.compile engine source = .error ⟨source, .refused reason⟩

theorem acceptedAs_of_writes (h : Writes segments s) (hregular : IsRegular segments)
    (hne : segments ≠ []) : AcceptedAs engine segments (String.ofList s) where
  accepted htakes := by
    refine ⟨⟨String.ofList s, segments⟩, ?_, rfl, Pattern.captureLaw ⟨String.ofList s, segments⟩⟩
    rw [Pattern.compile_of_writes h hregular hne, htakes]
  refused reason hrefusal := by rw [Pattern.compile_of_writes h hregular hne, hrefusal]

/-! ## Plain text -/

/-- The text has no hash that starts what reads as a gap. -/
def IsPlain (text : List Char) : Prop :=
  ∀ before after, text = before ++ '#' :: after → ¬ StartsHashGap ('#' :: after)

/-- Doubling braces brings no new pieces without braces to the start of a text. -/
theorem prefix_of_prefix_doubleBraces {piece : List Char} (hpiece : ∀ c ∈ piece, doubled c = [c])
    (h : piece <+: doubleBraces text) : piece <+: text := by
  induction piece generalizing text with
  | nil => exact List.nil_prefix
  | cons d piece ih =>
    obtain ⟨hd, hpiece⟩ := List.forall_mem_cons.mp hpiece
    cases text with
    | nil => exact absurd (List.prefix_nil.mp h) (List.cons_ne_nil d piece)
    | cons c text =>
      rw [doubleBraces_cons] at h
      have hc : d = c := by
        unfold doubled at h
        split at h <;> exact (List.cons_prefix_cons.mp h).1
      subst hc
      rw [hd] at h
      exact List.cons_prefix_cons.mpr ⟨rfl, ih hpiece (List.cons_prefix_cons.mp h).2⟩

theorem startsHashGap_of_doubleBraces (h : StartsHashGap ('#' :: doubleBraces s)) :
    StartsHashGap ('#' :: s) := by
  have hsolid {c : Char} (hc : isDigit c ∨ c = '#' ∨ c = '*') : doubled c = [c] := by
    refine if_neg ?_
    rintro (rfl | rfl) <;> exact absurd hc (by decide)
  refine h.imp (fun h => ?_) ?_
  · refine List.cons_prefix_cons.mpr ⟨rfl, ?_⟩
    exact prefix_of_prefix_doubleBraces (by simp [doubled]) (List.cons_prefix_cons.mp h).2
  · rintro ⟨digits, hne, hdigits, h⟩
    refine ⟨digits, hne, hdigits, List.cons_prefix_cons.mpr ⟨rfl, ?_⟩⟩
    refine prefix_of_prefix_doubleBraces (fun c hc => hsolid ?_) (List.cons_prefix_cons.mp h).2
    rcases List.mem_append.mp hc with hc | hc
    · exact .inl (List.all_eq_true.mp hdigits c hc)
    · exact .inr (.inl (List.mem_singleton.mp hc))

theorem writes_of_isPlain (h : IsPlain text) : Writes [.literal text] (doubleBraces text) := by
  have hwrites : Writes [.literal text] (doubleBraces text ++ []) := by
    refine .literal (fun before after htext hstarts => h before after htext ?_) .nil
    rw [List.append_nil] at hstarts
    exact startsHashGap_of_doubleBraces hstarts
  rwa [List.append_nil] at hwrites

theorem decomposes_literal_iff {line : List Char} :
    (∃ texts, Decomposes [.literal text] line texts) ↔ line = text := by
  constructor
  · rintro ⟨texts, h⟩
    obtain ⟨_, rest, others, rfl, rfl, hrest, -⟩ := decomposes_cons.mp h
    rw [(decomposes_nil.mp hrest).1, List.append_nil]
  · rintro rfl
    exact ⟨[line], .cons rfl .nil, by simp⟩

/-- **What is written is accepted** by every engine that takes its segments, and matches like them.
A text without hashes that start gaps, with its braces doubled, matches only itself. -/
theorem Pattern.compile_law (engine : PatternEngine) :
    (∀ segments s, segments ≠ [] → IsRegular segments → Writes segments s →
      AcceptedAs engine segments (String.ofList s)) ∧
    ∀ text : String, text ≠ "" → IsPlain text.toList →
      AcceptedAs engine [.literal text.toList] (String.ofList (doubleBraces text.toList)) ∧
      ∀ p, Pattern.compile engine (String.ofList (doubleBraces text.toList)) = .ok p →
        p.names = [] ∧ ∀ line : String, (p.captures? line).isSome ↔ line = text := by
  refine ⟨fun segments s hne hregular hwrites => acceptedAs_of_writes hwrites hregular hne, ?_⟩
  intro text htext hplain
  have hregular : IsRegular [.literal text.toList] :=
    isRegular_literal_iff.mpr ⟨by simpa using htext, nofun, isRegular_nil⟩
  have hwrites := writes_of_isPlain hplain
  refine ⟨acceptedAs_of_writes hwrites hregular (List.cons_ne_nil _ _), fun p hp => ?_⟩
  have hsegments : p.segments = [.literal text.toList] := by
    rw [compile_of_writes hwrites hregular (List.cons_ne_nil _ _)] at hp
    split at hp
    · exact congrArg Pattern.segments (Except.ok.inj hp).symm
    · exact absurd hp nofun
  refine ⟨by rw [names, hsegments]; rfl, fun line => ?_⟩
  rw [(p.captureLaw line).isSome_iff, hsegments, decomposes_literal_iff, String.toList_inj]

/-- Braces next to captures, a hash next to a gap, gaps next to each other, and plain text. -/
theorem Pattern.compile_law_of_seams :
    let segments := [Segment.literal ['{', '#'], .gap (some "a"), .gap none, .gap (some "1"),
      .literal ['}', '#', 'x']]
    let source := "\x7b\x7b#\x7ba\x7d#*##1#\x7d\x7d#x"
    let text := "a\x7bb"
    IsRegular segments ∧ Writes segments source.toList ∧
      (∃ p, Pattern.compile .boundless source = .ok p ∧ p.names = ["a", "1"]) ∧
      IsPlain text.toList ∧ ∃ p, Pattern.compile .boundless "a\x7b\x7bb" = .ok p ∧
        ∀ line : String, (p.captures? line).isSome ↔ line = text := by
  intro segments source text
  obtain ⟨hwrites, hregular⟩ : Writes segments source.toList ∧ IsRegular segments :=
    readSegments_eq_ok_iff.mp (by decide +kernel)
  have haccepted : AcceptedAs .boundless segments (String.ofList source.toList) :=
    (Pattern.compile_law .boundless).1 segments source.toList (List.cons_ne_nil _ _) hregular
      hwrites
  obtain ⟨p, hp, hnames, -⟩ := haccepted.accepted rfl
  rw [String.ofList_toList] at hp
  have hplain : IsPlain text.toList := by
    intro before after htext
    have hmem : '#' ∈ text.toList := htext ▸ List.mem_append_right before List.mem_cons_self
    exact absurd hmem (by decide)
  obtain ⟨htextual, hself⟩ := (Pattern.compile_law .boundless).2 text (by decide) hplain
  obtain ⟨q, hq, -⟩ := htextual.accepted rfl
  have hwritten : String.ofList (doubleBraces text.toList) = "a\x7b\x7bb" := by decide
  exact ⟨hregular, hwrites, ⟨p, hp, hnames⟩, hplain, q, hwritten ▸ hq, (hself q hq).2⟩

/-! ## Expressions that are turned down -/

/-- An engine that turns down what has more characters than it can bear. -/
def PatternEngine.bounded (limit : Nat) : PatternEngine :=
  { boundless with
    refusal? := fun expression =>
      if expression.length ≤ limit then none
      else some "Compiled regex exceeds size limit of 10485760 bytes." }

theorem PatternEngine.refusal?_bounded {limit : Nat} {expression : String}
    (h : limit < expression.length) : (bounded limit).refusal? expression =
      some "Compiled regex exceeds size limit of 10485760 bytes." :=
  if_neg (Nat.not_le_of_lt h)

theorem isRegular_wildcards (n : Nat) : IsRegular (List.replicate n (.gap none)) := by
  induction n with
  | zero => exact isRegular_nil
  | succ n ih => exact isRegular_gap_iff.mpr ⟨ih, nofun⟩

theorem writes_wildcards (n : Nat) :
    Writes (List.replicate n (.gap none)) (List.replicate n ['#', '*', '#']).flatten := by
  induction n with
  | zero => exact .nil
  | succ n ih => exact .wildcard ih

theorem length_expression_wildcards (engine : PatternEngine) (n : Nat) :
    (engine.expression (List.replicate n (.gap none))).length = 7 * n + 6 := by
  have hone : (engine.segmentExpression (.gap none)).length = 7 := by
    show "(?:.*?)".length = 7
    decide
  unfold PatternEngine.expression
  rw [String.length_append, String.length_append, String.length_join, List.map_replicate,
    List.map_replicate, hone, List.sum_replicate_nat]
  have hopening : "(?s)^".length = 5 := by decide
  have hclosing : "$".length = 1 := by decide
  omega

/-- Eleven thousand wildcards are well written, but an engine may turn them down. -/
theorem Pattern.too_many_wildcards :
    let engine := PatternEngine.bounded 65535
    let segments := List.replicate 11000 (Segment.gap none)
    let source := String.ofList (List.replicate 11000 ['#', '*', '#']).flatten
    segments ≠ [] ∧ IsRegular segments ∧ Writes segments source.toList ∧
      Pattern.compile engine source =
        .error ⟨source, .refused "Compiled regex exceeds size limit of 10485760 bytes."⟩ := by
  intro engine segments source
  have hne : segments ≠ [] := List.length_pos_iff.mp (by rw [List.length_replicate]; decide)
  have hrefusal : engine.refusal? (engine.expression segments) =
      some "Compiled regex exceeds size limit of 10485760 bytes." := by
    refine PatternEngine.refusal?_bounded ?_
    rw [length_expression_wildcards]
    decide
  refine ⟨hne, isRegular_wildcards 11000, ?_, ?_⟩
  · rw [String.toList_ofList]
    exact writes_wildcards 11000
  · rw [compile_of_writes (writes_wildcards 11000) (isRegular_wildcards 11000) hne, hrefusal]

end Heartbeat
